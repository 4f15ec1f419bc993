import Mathlib.Data.List.Induction
import TypedClient.FileTree.Basic

/-!
# `TypedClient.Proofs.FileTree.Rooted`: trees in which everything stands in a directory

The trees of a file system are `Rooted`: what is not at the top stands in a directory. So
nothing stands below a file or below a place where nothing is. Every change that the
operations make is one of three, and each keeps a tree rooted: an entry is put where its
directory is, a file is erased, or a name is moved.

* `Rooted.above`, `Rooted.below`: what stands above an entry, and below anything else.
* `Bare`: nothing stands below a place.
* `Renamed`: what a move leaves, said of every place. `renamed_relocate` shows it of
  `relocate`.
* `Renamed.keeps`: an entry that is neither moved nor replaced stays.
* `Renamed.find?_of_file`: the move of a file changes two places and no other.
-/

set_option autoImplicit false

namespace TypedClient.FileTree

variable {t t' : FileTree} {p q r : Place} {e : Entry}

/-- The top of the tree is a directory. -/
@[simp] theorem find?_nil (t : FileTree) : t.find? [] = some .directory := by simp [find?]

instance (e : Option Entry) : Decidable (e = some .directory) :=
  match e with
  | none => .isFalse (by simp)
  | some (.file _) => .isFalse (by simp)
  | some .directory => .isTrue rfl

/-- Everything stands in a directory. -/
def Rooted (t : FileTree) : Prop :=
  ∀ p n e, t.find? (p ++ [n]) = some e → t.find? p = some .directory

/-- Above an entry there are directories. -/
theorem Rooted.above (h : t.Rooted) (hpq : p <+: q) (hne : p ≠ q) (hq : t.find? q = some e) :
    t.find? p = some .directory := by
  obtain ⟨s, rfl⟩ := hpq
  induction s using List.reverseRecOn generalizing e with
  | nil => simp at hne
  | append_singleton s n ih =>
    rw [← List.append_assoc] at hq
    have hs := h (p ++ s) n e hq
    by_cases hnil : s = []
    · rwa [hnil, List.append_nil] at hs
    · exact ih (by simpa using hnil) hs

/-- Below anything but a directory there is nothing. -/
theorem Rooted.below (h : t.Rooted) (hpq : p <+: q) (hne : p ≠ q)
    (hp : t.find? p ≠ some .directory) : t.find? q = none := by
  cases hq : t.find? q with
  | none => rfl
  | some e => exact absurd (h.above hpq hne hq) hp

/-- Nothing stands below the place. -/
def Bare (t : FileTree) (p : Place) : Prop := ∀ r, p <+: r → p ≠ r → t.find? r = none

/-- In a rooted tree nothing stands below what is no directory. -/
theorem Rooted.bare (h : t.Rooted) (hp : t.find? p ≠ some .directory) : t.Bare p :=
  fun _ hpre hne => h.below hpre hne hp

/-- A directory that is listed as empty has nothing below it. -/
theorem bare_of_not_hasChildren (h : t.hasChildren p = false) : t.Bare p := by
  intro r hpre hne
  have hr : r ≠ [] := by
    rintro rfl
    exact hne (List.prefix_nil.mp hpre)
  simp only [find?, hr, ↓reduceIte]
  rw [List.lookup_eq_none_iff]
  intro e he
  rw [bne_iff_ne]
  rintro rfl
  have hany : t.hasChildren p = true := by
    unfold hasChildren
    rw [List.any_eq_true]
    exact ⟨e, he, by simp [hpre, Ne.symm hne]⟩
  rw [h] at hany
  cases hany

/-- Whether a tree is rooted can be read off its entries. -/
theorem rooted_iff (t : FileTree) : t.Rooted ↔
    ∀ e ∈ t.entries, e.1 ≠ [] → t.find? e.1.dropLast = some .directory := by
  constructor
  · rintro h ⟨p, entry⟩ he (hne : p ≠ [])
    have hstands : t.find? p ≠ none := by
      simp only [find?, if_neg hne]
      rw [ne_eq, List.lookup_eq_none_iff]
      exact fun hnone => by simpa using hnone _ he
    obtain ⟨e, hp⟩ := Option.ne_none_iff_exists'.mp hstands
    rw [← List.dropLast_concat_getLast hne] at hp
    exact h p.dropLast _ e hp
  · intro h p n e hp
    simp only [find?, List.append_eq_nil_iff, List.cons_ne_self, and_false, if_false] at hp
    obtain ⟨before, after, he, -⟩ := List.lookup_eq_some_iff.mp hp
    have hmem : (p ++ [n], e) ∈ t.entries := by
      rw [he]
      simp
    have hd := h _ hmem (by simp)
    rwa [List.dropLast_concat] at hd

instance (t : FileTree) : Decidable t.Rooted := decidable_of_iff _ (rooted_iff t).symm

/-! ### Putting and erasing -/

/-- Putting an entry changes what stands at its place and nothing else. -/
theorem find?_put_of_ne_nil (t : FileTree) (e : Entry) (hp : p ≠ []) (r : Place) :
    (t.put p e).find? r = if r = p then some e else t.find? r := by
  by_cases hr : r = []
  · rw [hr, find?_nil, find?_nil, if_neg hp.symm]
  · exact find?_put t p r e hr

/-- Erasing an entry changes what stands at its place and nothing else. -/
theorem find?_erase_of_ne_nil (t : FileTree) (hp : p ≠ []) (r : Place) :
    (t.erase p).find? r = if r = p then none else t.find? r := by
  by_cases hr : r = []
  · rw [hr, find?_nil, find?_nil, if_neg hp.symm]
  · exact find?_erase t p r hr

/-- An entry can be put where its directory is, unless it takes the place of a directory that it is
not. -/
theorem Rooted.put {d : Place} {n : String} (h : t.Rooted) (hd : t.find? d = some .directory)
    (hp : t.find? (d ++ [n]) ≠ some .directory ∨ e = .directory) :
    (t.put (d ++ [n]) e).Rooted := by
  intro q m e' hq
  have hne : d ++ [n] ≠ [] := by simp
  -- What stands in the new entry stood there before, so that was a directory already.
  have hput : q = d ++ [n] → t.find? (q ++ [m]) = some e' → e = .directory := by
    rintro rfl hqm
    exact hp.resolve_left fun hne => hne (h _ _ _ hqm)
  rw [find?_put_of_ne_nil t e hne] at hq ⊢
  split at hq
  · rename_i hqm
    obtain ⟨rfl, -⟩ := List.append_inj' hqm rfl
    split
    · rename_i hself
      simp at hself
    · exact hd
  · have hqd := h q m e' hq
    split
    · rename_i hself
      rw [hput hself hq]
    · exact hqd

/-- No file stands at the top. -/
theorem ne_nil_of_file {c : ByteArray} (hp : t.find? p = some (.file c)) : p ≠ [] := by
  rintro rfl
  rw [find?_nil] at hp
  cases hp

/-- A file can be erased, for nothing stands in it. -/
theorem Rooted.erase {c : ByteArray} (h : t.Rooted) (hp : t.find? p = some (.file c)) :
    (t.erase p).Rooted := by
  intro q m e hq
  rw [find?_erase_of_ne_nil t (ne_nil_of_file hp)] at hq ⊢
  split at hq
  · cases hq
  · have hqd := h q m e hq
    split
    · rename_i hself
      rw [← hself, hqd] at hp
      cases hp
    · exact hqd

/-! ### Moving -/

/-- The tree `t'` is `t` with one place, and what stands below it, moved to another. -/
def Renamed (t t' : FileTree) (p q : Place) : Prop :=
  t'.working = t.working ∧ ∀ r, t'.find? r =
    if q <+: r then t.find? (p ++ r.drop q.length) else if p <+: r then none else t.find? r

/-- Looking up a key in a list whose keys are renamed, if the new name stands for one key
only. -/
theorem lookup_map_key {f : Place → Place} {entries : List (Place × Entry)} {r : Place}
    (k : Place)
    (h : ∀ e ∈ entries, f e.1 = r ↔ e.1 = k) :
    (entries.map fun e => (f e.1, e.2)).lookup r = entries.lookup k := by
  induction entries with
  | nil => rfl
  | cons e rest ih =>
    obtain ⟨key, entry⟩ := e
    have hkey := h (key, entry) List.mem_cons_self
    have hrest := ih fun e he => h e (List.mem_cons_of_mem _ he)
    rw [List.map_cons, List.lookup_cons, List.lookup_cons, hrest]
    have : (r == f key) = (k == key) := by
      rw [Bool.eq_iff_iff, beq_iff_eq, beq_iff_eq, eq_comm, hkey, eq_comm]
    rw [this]

/-- Where a place goes when another place, and what stands below it, is moved. -/
def movedPlace (p q r : Place) : Place := if p.isPrefixOf r then q ++ r.drop p.length else r

/-- What stands below the place that is moved goes along with it. -/
theorem movedPlace_append (p q s : Place) : movedPlace p q (p ++ s) = q ++ s := by
  simp [movedPlace]

/-- What is not below the place that is moved stays where it is. -/
theorem movedPlace_of_outside (q : Place) (h : ¬ p <+: r) : movedPlace p q r = r := by
  simp [movedPlace, h]

/-- Below the top a tree is the list of its entries. -/
theorem find?_eq_lookup (t : FileTree) (h : r ≠ []) : t.find? r = t.entries.lookup r := by
  simp [find?, h]

/-- A move renames the keys of the entries, what stood at the new place being erased first. -/
theorem entries_relocate (t : FileTree) (p q : Place) :
    (t.relocate p q).entries
      = (t.erase q).entries.map fun e => (movedPlace p q e.1, e.2) := by
  unfold relocate
  refine List.map_congr_left fun e _ => ?_
  unfold movedPlace
  split <;> rfl

/-- What `relocate` leaves, if neither place is above the other and nothing stands below
the second. -/
theorem renamed_relocate (hpq : ¬ p <+: q) (hqp : ¬ q <+: p) (hbelow : t.Bare q) :
    Renamed t (t.relocate p q) p q := by
  have hp : p ≠ [] := by
    rintro rfl
    exact hpq List.nil_prefix
  have hq : q ≠ [] := by
    rintro rfl
    exact hqp List.nil_prefix
  -- No entry that is kept stands at the second place or below it.
  have hkept : ∀ e ∈ (t.erase q).entries, ¬ q <+: e.1 := by
    intro e he hpre
    obtain ⟨hmem, hne⟩ : e ∈ t.entries ∧ e.1 ≠ q := by simpa [erase] using he
    have hnil : e.1 ≠ [] := fun h => hq (List.prefix_nil.mp (h ▸ hpre))
    have hnone := hbelow e.1 hpre (Ne.symm hne)
    rw [find?_eq_lookup t hnil, List.lookup_eq_none_iff] at hnone
    simpa using hnone e hmem
  refine ⟨rfl, fun r => ?_⟩
  by_cases hr : r = []
  · simp [hr, List.prefix_nil, hp, hq]
  -- The place looked up is below the new one, below the old one, or outside both. In each case the
  -- entries that are found there are those of one key before the move, or there are none.
  rw [find?_eq_lookup _ hr, entries_relocate]
  split
  · rename_i hqr
    obtain ⟨s, rfl⟩ := hqr
    have hps : p ++ s ≠ q := fun h => hpq ⟨s, h⟩
    have hpnil : p ++ s ≠ [] := by simp [hp]
    rw [List.drop_left, lookup_map_key (p ++ s), ← find?_eq_lookup _ hpnil,
      find?_erase _ _ _ hpnil, if_neg hps]
    intro e he
    by_cases hpe : p <+: e.1
    · obtain ⟨u, hu⟩ := hpe
      rw [← hu, movedPlace_append, List.append_cancel_left_eq, List.append_cancel_left_eq]
    · rw [movedPlace_of_outside q hpe]
      refine ⟨fun h => absurd ⟨s, h.symm⟩ (hkept e he), fun h => absurd ⟨s, h.symm⟩ hpe⟩
  · rename_i hqr
    split
    · rename_i hpr
      rw [List.lookup_eq_none_iff]
      intro e he
      obtain ⟨e, he, rfl⟩ := List.mem_map.mp he
      rw [bne_iff_ne]
      by_cases hpe : p <+: e.1
      · obtain ⟨u, hu⟩ := hpe
        rw [← hu, movedPlace_append]
        exact fun h => hqr ⟨u, h.symm⟩
      · rw [movedPlace_of_outside q hpe]
        rintro rfl
        exact hpe hpr
    · rename_i hpr
      have hrq : r ≠ q := fun h => hqr (h ▸ List.prefix_refl _)
      rw [lookup_map_key r, ← find?_eq_lookup _ hr, find?_erase _ _ _ hr, if_neg hrq]
      intro e he
      by_cases hpe : p <+: e.1
      · obtain ⟨u, hu⟩ := hpe
        rw [← hu, movedPlace_append]
        exact ⟨fun h => absurd ⟨u, h⟩ hqr, fun h => absurd ⟨u, h⟩ hpr⟩
      · rw [movedPlace_of_outside q hpe]

namespace Renamed

/-- An entry that is neither moved nor replaced stays, for nothing that stands can be below
the place moved to. -/
theorem keeps (h : Renamed t t' p q) (hbelow : t.Bare q)
    (hr : t.find? r = some e) (hp : ¬ p <+: r) (hq : r ≠ q) : t'.find? r = some e := by
  rw [h.2, if_neg, if_neg hp]
  · exact hr
  · intro hpre
    rw [hbelow r hpre (Ne.symm hq)] at hr
    cases hr

/-- The place moved to holds what stood at the place moved from. -/
theorem find?_target (h : Renamed t t' p q) : t'.find? q = t.find? p := by
  rw [h.2, if_pos (List.prefix_refl _)]
  simp

/-- Nothing is left at the place moved from. -/
theorem find?_source (h : Renamed t t' p q) (hqp : ¬ q <+: p) : t'.find? p = none := by
  rw [h.2, if_neg hqp, if_pos (List.prefix_refl _)]

/-- A place that is empty stays so, unless the move puts something there. -/
theorem find?_none (h : Renamed t t' p q) (hr : t.find? r = none) (hq : ¬ q <+: r) :
    t'.find? r = none := by
  rw [h.2, if_neg hq]
  split
  · rfl
  · exact hr

/-- The move of a file changes the two places and no other. -/
theorem find?_of_file {c : ByteArray} (h : Renamed t t' p q) (ht : t.Rooted)
    (hc : t.find? p = some (.file c)) (hbelow : t.Bare q)
    (r : Place) :
    t'.find? r = if r = q then some (.file c) else if r = p then none else t.find? r := by
  have hdir : t.find? p ≠ some .directory := by
    rw [hc]
    exact fun h => nomatch h
  split
  · rename_i hr
    rw [hr, h.find?_target, hc]
  · rename_i hrq
    rw [h.2]
    split
    · rename_i hpre
      obtain ⟨s, rfl⟩ := hpre
      have hs : s ≠ [] := by
        rintro rfl
        simp at hrq
      have hrp : t.find? (p ++ (q ++ s).drop q.length) = none := by
        rw [List.drop_left]
        exact ht.below (List.prefix_append p s) (by simpa using hs) hdir
      rw [hrp]
      split
      · rfl
      · exact (hbelow _ (List.prefix_append q s) (by simpa using hs)).symm
    · split
      · rename_i hpre
        split
        · rfl
        · rename_i hrp
          exact (ht.below hpre (Ne.symm hrp) hdir).symm
      · rename_i hpre
        rw [if_neg]
        rintro rfl
        exact hpre (List.prefix_refl _)

/-- A move into a directory that is not itself moved keeps the tree rooted. -/
theorem rooted {d : Place} {n : String} (h : Renamed t t' p (d ++ [n])) (ht : t.Rooted)
    (hd : t.find? d = some .directory) (hpd : ¬ p <+: d) : t'.Rooted := by
  intro r m e hr
  rw [h.2] at hr ⊢
  -- The directory of a place is below the new one too, is the directory moved into, or is where it
  -- was.
  by_cases hqr : d ++ [n] <+: r
  · obtain ⟨s, rfl⟩ := hqr
    rw [if_pos (List.prefix_append _ _), List.drop_left]
    rw [List.append_assoc, if_pos (List.prefix_append _ _), List.drop_left,
      ← List.append_assoc] at hr
    exact ht _ m e hr
  · rw [if_neg hqr]
    by_cases hself : r ++ [m] = d ++ [n]
    · obtain ⟨rfl, -⟩ := List.append_inj' hself rfl
      rw [if_neg hpd, hd]
    · have hnot : ¬ d ++ [n] <+: r ++ [m] := by
        rw [List.prefix_concat_iff]
        exact fun hor => hor.elim (fun h => hself h.symm) hqr
      rw [if_neg hnot] at hr
      split at hr
      · cases hr
      · rename_i hpr
        rw [if_neg fun hpre => hpr (hpre.trans (List.prefix_append _ _))]
        exact ht r m e hr

end Renamed

end TypedClient.FileTree
