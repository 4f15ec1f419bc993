import Mathlib.Data.List.Induction
import Mathlib.Data.List.Nodup
import TypedClient.Assoc

/-!
# `TypedClient.Proofs.Assoc`: what a table made of entries holds

* `mem_of_mem_putBy`: what is put into a table is there under its key or a key that is the
  same, and all else was there before.
* `mem_of_mem_ofList`: a table holds nothing but the entries it is made of.
* `lookup_ofList`, `mem_ofList_iff`: a key has the value of its last entry.
* `pairwise_idxOf_ofList`, `keys_ofList_append`: keys come in the order of their first
  entries, whatever entries come after them.
-/

set_option autoImplicit false

namespace TypedClient.Assoc

variable {κ ν : Type} [BEq κ] [LawfulBEq κ] {table entries : List (κ × ν)} {e : κ × ν}

omit [BEq κ] [LawfulBEq κ] in
/-- An entry of a table with a new value is an old one, or has the new value under the new
key or under an old key that is the same. -/
theorem mem_of_mem_putBy {same : κ → κ → Bool} {k : κ} {v : ν} (h : e ∈ putBy same table k v) :
    e ∈ table ∨ e.2 = v ∧ (e.1 = k ∨ same e.1 k = true ∧ e.1 ∈ table.map Prod.fst) := by
  induction table with
  | nil =>
    rw [List.mem_singleton.mp h]
    exact .inr ⟨rfl, .inl rfl⟩
  | cons e₀ rest ih =>
    rw [putBy] at h
    split at h
    · rename_i hsame
      rcases List.mem_cons.mp h with rfl | h
      · exact .inr ⟨rfl, .inr ⟨hsame, List.mem_cons_self⟩⟩
      · exact .inl (List.mem_cons_of_mem _ h)
    · rcases List.mem_cons.mp h with rfl | h
      · exact .inl List.mem_cons_self
      · exact (ih h).imp (List.mem_cons_of_mem _)
          (.imp_right (.imp_right (.imp_right (List.mem_cons_of_mem _))))

/-- An entry of a table with a new value is an old one or the new one. Keys are compared by
equality here, so the case of `mem_of_mem_putBy` in which an old key is kept comes to the new entry
as well. -/
theorem mem_of_mem_put {k : κ} {v : ν} (h : e ∈ put table k v) : e ∈ table ∨ e = (k, v) := by
  refine (mem_of_mem_putBy h).imp_right fun ⟨hvalue, hkey⟩ => Prod.ext ?_ hvalue
  exact hkey.elim id fun hsame => eq_of_beq hsame.1

/-- A table holds nothing but the entries it is made of. Which of them, if several have one key, is
what `mem_ofList_iff` says. -/
theorem mem_of_mem_ofList (h : e ∈ ofList entries) : e ∈ entries := by
  -- The fold goes on from any table, which is what the induction needs.
  suffices ∀ table : List (κ × ν), e ∈ entries.foldl (fun table e => put table e.1 e.2) table →
      e ∈ table ∨ e ∈ entries by
    exact (this [] h).resolve_left List.not_mem_nil
  clear h
  induction entries with
  | nil => exact fun _ h => .inl h
  | cons e₁ rest ih =>
    intro table h
    rcases ih _ h with h | h
    · rcases mem_of_mem_put h with h | rfl
      · exact .inl h
      · exact .inr List.mem_cons_self
    · exact .inr (List.mem_cons_of_mem _ h)

/-- A table has the keys of the entries it is made of. -/
theorem mem_keys_ofList {k : κ} : k ∈ (ofList entries).map Prod.fst ↔ k ∈ entries.map Prod.fst := by
  suffices ∀ table : List (κ × ν),
      (k ∈ (entries.foldl (fun table e => put table e.1 e.2) table).map Prod.fst ↔
        k ∈ table.map Prod.fst ∨ k ∈ entries.map Prod.fst) by
    exact (this []).trans (or_iff_right List.not_mem_nil)
  induction entries with
  | nil => exact fun table => (or_iff_left List.not_mem_nil).symm
  | cons e rest ih =>
    intro table
    have hput : k ∈ (put table e.1 e.2).map Prod.fst ↔ k ∈ table.map Prod.fst ∨ k = e.1 := by
      rw [keys_put]
      split
      · rename_i hcontains
        have hmem : e.1 ∈ table.map Prod.fst := by simpa using hcontains
        exact ⟨.inl, fun h => h.elim id fun h => h ▸ hmem⟩
      · simp
    rw [List.foldl_cons, ih, hput, List.map_cons, List.mem_cons, or_assoc]

/-- A key has the value of its last entry: putting a value again replaces the one that was there. -/
theorem lookup_ofList (entries : List (κ × ν)) (k : κ) :
    (ofList entries).lookup k = entries.reverse.lookup k := by
  suffices ∀ table : List (κ × ν),
      (entries.foldl (fun table e => put table e.1 e.2) table).lookup k
        = (entries.reverse.lookup k).or (table.lookup k) by
    simpa [ofList] using this []
  induction entries with
  | nil => simp
  | cons e rest ih =>
    intro table
    rw [List.foldl_cons, ih, lookup_put, List.reverse_cons, List.lookup_append, Option.or_assoc]
    congr 1
    -- Only the entry that is put last can hide what the table had before.
    rw [List.lookup_cons]
    cases k == e.1 <;> simp

/-- What is found under a key is in the table under that key. -/
theorem mem_of_lookup {k : κ} {v : ν} (h : table.lookup k = some v) : (k, v) ∈ table := by
  obtain ⟨before, after, rfl, -⟩ := List.lookup_eq_some_iff.mp h
  simp

/-- A key whose entries agree has their value. In a table where no key occurs twice they agree at
once; the lemma asks for less because some of its callers have such a list before it is a table. -/
theorem lookup_eq_some_of_forall {k : κ} {v : ν} (hmem : (k, v) ∈ table)
    (huniq : ∀ e ∈ table, e.1 = k → e.2 = v) : table.lookup k = some v := by
  induction table with
  | nil => cases hmem
  | cons e rest ih =>
    rw [List.lookup_cons]
    cases hk : k == e.1 with
    | true => exact congrArg some (huniq e List.mem_cons_self (eq_of_beq hk).symm)
    | false =>
      refine ih ?_ fun e he => huniq e (List.mem_cons_of_mem _ he)
      rcases List.mem_cons.mp hmem with rfl | h
      · simp at hk
      · exact h

/-- A table holds the last entry of each key. -/
theorem mem_ofList_iff : e ∈ ofList entries ↔
    ∃ before after, entries = before ++ e :: after ∧ ∀ later ∈ after, later.1 ≠ e.1 := by
  have hlookup : e ∈ ofList entries ↔ (ofList entries).lookup e.1 = some e.2 := by
    refine ⟨fun he => lookup_eq_some_of_forall he fun e' he' hkey => ?_, mem_of_lookup⟩
    rw [List.inj_on_of_nodup_map (nodup_keys_ofList entries) he' he hkey]
  rw [hlookup, lookup_ofList, List.lookup_eq_some_iff]
  constructor
  · rintro ⟨after, before, h, hafter⟩
    refine ⟨before.reverse, after.reverse, ?_, fun later hlater => ?_⟩
    · rw [← List.reverse_reverse entries, h]
      simp
    · exact Ne.symm (by simpa using hafter later (List.mem_reverse.mp hlater))
  · rintro ⟨before, after, rfl, hafter⟩
    refine ⟨after.reverse, before.reverse, by simp, fun later hlater => ?_⟩
    simpa using Ne.symm (hafter later (List.mem_reverse.mp hlater))

omit [LawfulBEq κ] in
/-- A table of entries and more entries is made of the first table by putting the others into it. -/
theorem ofList_append (entries more : List (κ × ν)) :
    ofList (entries ++ more) = more.foldl (fun table e => put table e.1 e.2) (ofList entries) :=
  List.foldl_append

/-- Putting more entries into a table leaves its keys where they are: a key that is put again keeps
its place, and a new one goes to the end. -/
theorem keys_ofList_append (entries more : List (κ × ν)) :
    (ofList entries).map Prod.fst <+: (ofList (entries ++ more)).map Prod.fst := by
  rw [ofList_append]
  generalize ofList entries = table
  induction more generalizing table with
  | nil => exact List.prefix_rfl
  | cons e rest ih =>
    refine List.IsPrefix.trans ?_ (ih (put table e.1 e.2))
    -- The one key either is there or goes to the end.
    rw [keys_put]
    split
    · exact List.prefix_rfl
    · exact List.prefix_append _ _

/-- The keys of a table come in the order of their first entries, though their values are those of
their last ones. -/
theorem pairwise_idxOf_ofList (entries : List (κ × ν)) :
    ((ofList entries).map Prod.fst).Pairwise fun k l =>
      (entries.map Prod.fst).idxOf k < (entries.map Prod.fst).idxOf l := by
  -- Entries are added at the end, so the induction takes away the last one.
  induction entries using List.reverseRecOn with
  | nil => exact .nil
  | append_singleton entries e ih =>
    have hold : ∀ k ∈ (ofList entries).map Prod.fst,
        ((entries ++ [e]).map Prod.fst).idxOf k = (entries.map Prod.fst).idxOf k := by
      intro k hk
      rw [List.map_append, List.idxOf_append_of_mem (mem_keys_ofList.mp hk)]
    have ih : ((ofList entries).map Prod.fst).Pairwise fun k l =>
        ((entries ++ [e]).map Prod.fst).idxOf k < ((entries ++ [e]).map Prod.fst).idxOf l :=
      ih.imp_of_mem fun hk hl h => by rwa [hold _ hk, hold _ hl]
    rw [ofList_append, List.foldl_cons, List.foldl_nil, keys_put]
    split
    · exact ih
    · rename_i hnew
      refine List.pairwise_append.mpr ⟨ih, List.pairwise_singleton _ _, fun k hk l hl => ?_⟩
      -- A key that is new stands behind all entries, the others among them.
      have hnew : e.1 ∉ entries.map Prod.fst := by
        rw [← mem_keys_ofList]
        simpa using hnew
      rw [List.mem_singleton.mp hl, hold k hk, List.map_append,
        List.idxOf_append_of_notMem hnew]
      have hlt := List.idxOf_lt_length_of_mem (mem_keys_ofList.mp hk)
      omega

end TypedClient.Assoc
