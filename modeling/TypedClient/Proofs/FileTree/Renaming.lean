import TypedClient.Proofs.FileTree.Staging

/-!
# `TypedClient.Proofs.FileTree.Renaming`: what moving files into place leaves

Moving one staged file into place is two renames: what stands at the target is moved aside
(`Aside`), and the staged file takes its place (`Placed`). `Moves` is a run of such pairs,
one target after the other, up to the first rename that is refused; `moves_moveAll` shows
that the loop takes such a run, so that what a whole run leaves is shown by induction on it.

A directory that is moved aside takes along what stands below it. It cannot land on the way
to another target, for there a staged file or the new one stands, and a directory replaces
only an empty one. This is why the places beside a target are not touched when a file is
moved to another (`Moves.sibling`).

* `Moves.placed`: after a run to the end every target holds what was staged for it.
* `Moves.kept`: what stood at a target is at its backup.
* `Moves.unchanged`: if no target was a directory, nothing else has changed.
-/

set_option autoImplicit false

namespace TypedClient.FileSink

open FileTree (Renamed Replaceable)

variable {faults : Faults} {w d r : Place} {m n : String} {p q : Path} {ps rest : List Path}
variable {t t' ta tb tx : FileTree} {backup : Option Path} {moved : List Moved}
variable {stop : Option Path} {i : Nat} {e : Entry}

/-- The files for the targets are staged and can be moved into place. -/
structure Ready (w : Place) (ps : List Path) (t : FileTree) : Prop where
  rooted : t.Rooted
  working : t.working = w
  normal : ∀ p ∈ ps, p.Normal
  clear : ps.Pairwise fun p q => Path.Clear w p q ∧ Path.Clear w q p
  fits : ∀ p ∈ ps, p.staging.Fits
  staged : ∀ p ∈ ps, ∃ c, t.find? (p.staging.place w) = some (.file c)

/-- The tree `ta` and the backup are what moving aside leaves that stands at the target. -/
inductive Aside (w : Place) (t : FileTree) (p : Path) : FileTree → Option Path → Prop where
  | absent (hp : t.find? (p.place w) = none) : Aside w t p t none
  | moved {ta : FileTree} (hf : p.backup.Fits)
      (hr : t.Replaceable (p.place w) (p.backup.place w))
      (h : Renamed t ta (p.place w) (p.backup.place w)) : Aside w t p ta (some p.backup)

/-- The tree `tb` is `ta` with the staged file moved to the target. -/
structure Placed (w : Place) (ta tb : FileTree) (p : Path) : Prop where
  rooted : tb.Rooted
  working : tb.working = w
  find? : ∀ r, tb.find? r =
    if r = p.place w then ta.find? (p.staging.place w)
    else if r = p.staging.place w then none else ta.find? r

/-- What stood at the target in the tree `t` is at the backup in the tree `t'`, if there is
a backup. -/
def Kept (w : Place) (t t' : FileTree) (p : Path) (backup : Option Path) : Prop :=
  backup = none ∧ t.find? (p.place w) = none ∨
    backup = some p.backup ∧ p.backup.Fits ∧ ∃ e, t.find? (p.place w) = some e ∧
      t'.find? (p.backup.place w) = some e ∧
      ∀ e', t.find? (p.backup.place w) = some e' → (e' = .directory ↔ e = .directory)

/-- A backup is the one beside the target, and holds what stood there. -/
theorem Kept.of_eq_some {b : Path} (h : Kept w t t' p backup) (hb : backup = some b) :
    b = p.backup ∧ p.backup.Fits ∧ ∃ e, t.find? (p.place w) = some e ∧
      t'.find? (p.backup.place w) = some e ∧
      ∀ e', t.find? (p.backup.place w) = some e' → (e' = .directory ↔ e = .directory) := by
  rcases h with ⟨hnone, -⟩ | ⟨hsome, h⟩
  · rw [hnone] at hb
    cases hb
  · rw [hsome] at hb
    cases hb
    exact ⟨rfl, h⟩

/-- Files are moved to targets in turn, the first of which has number `i`. The list is what
was moved; the last part is the target at which a rename was refused, if one was. -/
inductive Moves (faults : Faults) (w : Place) :
    Nat → List Path → FileTree → FileTree → List Moved → Option Path → Prop where
  | done {i : Nat} {t : FileTree} (h : Ready w [] t) : Moves faults w i [] t t [] none
  | refused {i : Nat} {p : Path} {rest : List Path} {t : FileTree} (h : Ready w (p :: rest) t) :
      Moves faults w i (p :: rest) t t [] (some p)
  /-- The old file is aside, and the new one is not there. -/
  | halfway {i : Nat} {p : Path} {rest : List Path} {t ta : FileTree} {backup : Option Path}
      (h : Ready w (p :: rest) t) (ha : Aside w t p ta backup) (hi : faults.into i = true) :
      Moves faults w i (p :: rest) t ta [⟨p, backup⟩] (some p)
  | step {i : Nat} {p : Path} {rest : List Path} {t ta tb t' : FileTree} {backup : Option Path}
      {moved : List Moved} {stop : Option Path} (h : Ready w (p :: rest) t)
      (ha : Aside w t p ta backup) (hb : Placed w ta tb p) (hi : faults.into i = false)
      (hai : faults.aside i = true → t.find? (p.place w) = none)
      (hm : Moves faults w (i + 1) rest tb t' moved stop) :
      Moves faults w i (p :: rest) t t' (⟨p, backup⟩ :: moved) stop

/-! ### Moving one file -/

namespace Ready

/-- What is known of the file to be moved next. -/
theorem head (h : Ready w (p :: rest) t) :
    p.Normal ∧ p.staging.Fits ∧ ∃ c, t.find? (p.staging.place w) = some (.file c) :=
  ⟨h.normal p List.mem_cons_self, h.fits p List.mem_cons_self, h.staged p List.mem_cons_self⟩

/-- The next target and a later one keep clear of each other. -/
theorem clear_cons (h : Ready w (p :: rest) t) (hq : q ∈ rest) :
    Path.Clear w p q ∧ Path.Clear w q p :=
  (List.pairwise_cons.mp h.clear).1 q hq

/-- The directory of a target is there, for the staged file stands in it. -/
theorem above (h : Ready w ps t) (hp : p ∈ ps) : t.find? (p.above w) = some .directory := by
  obtain ⟨c, hc⟩ := h.staged p hp
  rw [Path.place_staging] at hc
  exact h.rooted _ _ _ hc

/-- A file system takes the target, for it took the longer staging name. -/
theorem target_fits (h : Ready w ps t) (hp : p ∈ ps) : p.Fits :=
  Path.Fits.of_beside (h.normal p hp) (by decide) (h.fits p hp)

end Ready

namespace Aside

/-- Moving aside does not change the working directory. -/
theorem working (ha : Aside w t p ta backup) : ta.working = t.working := by
  cases ha with
  | absent => rfl
  | moved hf hr h => exact h.1

/-- Moving aside keeps the tree rooted. -/
theorem rooted (ha : Aside w t p ta backup) (ht : t.Rooted) (hn : p.Normal) : ta.Rooted := by
  cases ha with
  | absent => exact ht
  | moved hf hr h =>
    obtain ⟨e, he⟩ := hr.source
    rw [Path.place_eq hn.ne_nil] at he
    rw [Path.place_backup] at h
    exact h.rooted ht (ht _ _ _ he) (Path.not_place_prefix_above hn.ne_nil w)

/-- Nothing is left at the target. -/
theorem target (ha : Aside w t p ta backup) (hn : p.Normal) : ta.find? (p.place w) = none := by
  cases ha with
  | absent hp => exact hp
  | moved hf hr h =>
    exact h.find?_source (hn.not_backup_prefix_place w)

/-- Beside what stands nothing changes but at the target and the backup. -/
theorem sibling (ha : Aside w t p ta backup) (hm : t.find? (d ++ [m]) = some e)
    (hom : d ++ [m] ≠ p.backup.place w) (hp : ¬ p.place w <+: d ++ [n])
    (hb : d ++ [n] ≠ p.backup.place w) : ta.find? (d ++ [n]) = t.find? (d ++ [n]) := by
  cases ha with
  | absent => rfl
  | moved hf hr h =>
    rw [h.2, if_neg, if_neg hp]
    -- The backup would be a directory above what stands, but nothing stands below it.
    intro hpre
    rcases List.prefix_concat_iff.mp hpre with he | hpre
    · exact hb he.symm
    · rw [hr.bare _ (hpre.trans (List.prefix_append d [m])) hom.symm] at hm
      cases hm

/-- An entry stays that is neither moved nor replaced. -/
theorem keeps (ha : Aside w t p ta backup) (hr : t.find? r = some e) (hp : ¬ p.place w <+: r)
    (hb : r ≠ p.backup.place w) : ta.find? r = some e := by
  cases ha with
  | absent => exact hr
  | moved hf hrep h => exact h.keeps hrep.bare hr hp hb

/-- Nothing that stands is below the backup. -/
theorem not_below_backup (ha : Aside w t p ta backup) (hr : t.find? r = some e)
    (hne : r ≠ p.backup.place w) (hb : backup = some p.backup) : ¬ p.backup.place w <+: r := by
  cases ha with
  | absent => cases hb
  | moved hf hrep h =>
    intro hpre
    rw [hrep.bare r hpre hne.symm] at hr
    cases hr

/-- If there is a backup, it is the one beside the target. -/
theorem backup_eq (ha : Aside w t p ta backup) : backup = none ∨ backup = some p.backup := by
  cases ha with
  | absent => exact .inl rfl
  | moved => exact .inr rfl

/-- If the target was no directory, nothing changes but at the target and the backup. -/
theorem unchanged (ha : Aside w t p ta backup) (ht : t.Rooted)
    (hdir : t.find? (p.place w) ≠ some .directory) (hp : r ≠ p.place w)
    (hb : backup = some p.backup → r ≠ p.backup.place w) : ta.find? r = t.find? r := by
  cases ha with
  | absent => rfl
  | moved hf hr h =>
    obtain ⟨e, he⟩ := hr.source
    cases e with
    | directory => exact absurd he hdir
    | file c =>
      rw [h.find?_of_file ht he hr.bare, if_neg (hb rfl), if_neg hp]

/-- What is moved aside is kept at the backup, until something takes its place. -/
theorem kept (ha : Aside w t p ta backup) : Kept w t ta p backup := by
  cases ha with
  | absent hp => exact .inl ⟨rfl, hp⟩
  | moved hf hr h =>
    obtain ⟨e, he⟩ := hr.source
    refine .inr ⟨rfl, hf, e, he, h.find?_target.trans he, fun e' he' => ?_⟩
    rw [hr.target e' he', he, Option.some.injEq]

end Aside

/-- Moving a staged file into place changes nothing but at the two places. -/
theorem Placed.of_ne (hb : Placed w ta tb p) (hp : r ≠ p.place w) (ht : r ≠ p.staging.place w) :
    tb.find? r = ta.find? r := by
  rw [hb.find?, if_neg hp, if_neg ht]

/-- The staged file is untouched when the target is moved aside. -/
theorem Aside.find?_staging (ha : Aside w t p ta backup) (h : Ready w (p :: rest) t) :
    ta.find? (p.staging.place w) = t.find? (p.staging.place w) := by
  obtain ⟨hn, -, c, hc⟩ := h.head
  have hne := Path.staging_ne_backup p w
  have hnot : ¬ p.place w <+: p.staging.place w :=
    Path.not_place_prefix_beside hn.ne_nil (by decide)
  rw [Path.place_staging] at hc hne hnot ⊢
  exact ha.sibling hc hne hnot hne

/-- Moving a file to one target touches nothing beside what stands and is outside it. -/
theorem sibling_step (ha : Aside w t p ta backup)
    (hb : Placed w ta tb p) (hm : t.find? (d ++ [m]) = some e) (hom : p.Outside w (d ++ [m]))
    (hon : p.Outside w (d ++ [n])) : tb.find? (d ++ [n]) = t.find? (d ++ [n]) := by
  rw [hb.of_ne hon.ne hon.ne_staging]
  exact ha.sibling hm hom.ne_backup hon.not_below hon.ne_backup

/-- What stands outside a target is still there when a file has been moved to it. -/
theorem keeps_step (ha : Aside w t p ta backup) (hb : Placed w ta tb p) (hr : t.find? r = some e)
    (ho : p.Outside w r) : tb.find? r = some e := by
  rw [hb.of_ne ho.ne ho.ne_staging]
  exact ha.keeps hr ho.not_below ho.ne_backup

/-- Moving a file to one target leaves the places of a later one alone. -/
theorem find?_step (h : Ready w (p :: rest) t) (ha : Aside w t p ta backup)
    (hb : Placed w ta tb p) (hq : q ∈ rest) :
    tb.find? (q.place w) = t.find? (q.place w) ∧
      tb.find? (q.staging.place w) = t.find? (q.staging.place w) ∧
      tb.find? (q.backup.place w) = t.find? (q.backup.place w) := by
  obtain ⟨c, hc⟩ := h.staged q (List.mem_cons_of_mem _ hq)
  have hn := h.normal q (List.mem_cons_of_mem _ hq)
  obtain ⟨htarget, hstaging, hbackup⟩ := (h.clear_cons hq).1
  rw [Path.place_staging] at hc hstaging ⊢
  rw [Path.place_backup] at hbackup ⊢
  rw [Path.place_eq hn.ne_nil] at htarget ⊢
  exact ⟨sibling_step ha hb hc hstaging htarget, sibling_step ha hb hc hstaging hstaging,
    sibling_step ha hb hc hstaging hbackup⟩

/-- When one file is moved into place, the others are still ready. -/
theorem Ready.step (h : Ready w (p :: rest) t) (ha : Aside w t p ta backup)
    (hb : Placed w ta tb p) : Ready w rest tb where
  rooted := hb.rooted
  working := hb.working
  normal q hq := h.normal q (List.mem_cons_of_mem _ hq)
  clear := (List.pairwise_cons.mp h.clear).2
  fits q hq := h.fits q (List.mem_cons_of_mem _ hq)
  staged q hq := by
    -- The staged files of later targets are untouched.
    rw [(find?_step h ha hb hq).2.1]
    exact h.staged q (List.mem_cons_of_mem _ hq)

/-- Moving aside is refused, or it leaves what `Aside` says. -/
theorem moveAside_eq (h : Ready w (p :: rest) t) (fails : Bool) :
    (∃ e, moveAside t fails p = .error e) ∨
      ∃ ta backup, moveAside t fails p = .ok (ta, backup) ∧ Aside w t p ta backup ∧
        (fails = true → t.find? (p.place w) = none) := by
  obtain ⟨hn, -, c, hc⟩ := h.head
  obtain rfl := h.working
  have hex := FileTree.exists?_eq h.rooted hn (h.target_fits List.mem_cons_self)
    (h.above List.mem_cons_self)
  -- What stands at the target decides whether there is anything to rename.
  cases hp : t.find? (p.place t.working) with
  | none =>
    rw [hp] at hex
    exact .inr ⟨t, none, by simp [moveAside, hex], .absent hp, fun _ => rfl⟩
  | some e =>
    rw [hp] at hex
    cases hr : rename t fails p p.backup with
    | error e' =>
      exact .inl ⟨e', by simp [moveAside, hex, Path.withSuffix?_backup hn, hr, Except.map]⟩
    | ok ta =>
      unfold rename at hr
      split at hr
      · cases hr
      · rename_i hfails
        obtain ⟨-, hf, -, hrep, hren⟩ := FileTree.of_replace_eq_ok h.rooted hn hn.backup
          (hn.not_place_prefix_backup _) (hn.not_backup_prefix_place _) hr
        refine .inr ⟨ta, some p.backup, ?_, .moved hf hrep hren, fun h => absurd h hfails⟩
        simp [moveAside, hex, Path.withSuffix?_backup hn, rename, hfails, hr, Except.map]

/-- Once the target is clear, only the device can refuse the staged file. -/
theorem rename_staging_eq (h : Ready w (p :: rest) t) (ha : Aside w t p ta backup)
    (fails : Bool) :
    (fails = true ∧ ∃ e, rename ta fails p.staging p = .error e) ∨
      fails = false ∧ ∃ tb, rename ta fails p.staging p = .ok tb ∧ Placed w ta tb p := by
  obtain ⟨hn, hf, c, hc⟩ := h.head
  have hrooted := ha.rooted h.rooted hn
  have hworking := ha.working
  have hstaged := ha.find?_staging h
  have htarget := ha.target hn
  obtain rfl := h.working
  rw [← hworking] at hstaged htarget hc ⊢
  rw [hc] at hstaged
  have hnot : ¬ p.place ta.working <+: p.staging.place ta.working :=
    Path.not_place_prefix_beside hn.ne_nil (by decide)
  have hnot' : ¬ p.staging.place ta.working <+: p.place ta.working :=
    Path.not_beside_prefix_place hn.ne_nil (by decide)
  have habove : ta.find? (p.above ta.working) = some .directory := by
    have hd := FileTree.above_of_find? hrooted hn.staging hstaged
    rwa [show p.staging.above ta.working = _ from Path.above_beside _ _ _] at hd
  have hbare : ta.Bare (p.place ta.working) := hrooted.bare (by simp [htarget])
  have hne : p.staging.place ta.working ≠ p.place ta.working := fun h => hnot (by simp [h])
  cases fails with
  | true => exact .inl ⟨rfl, .device, rfl⟩
  | false =>
    have hreplace := FileTree.replace_of_file hrooted hn.staging hn hf
      (h.target_fits List.mem_cons_self) hstaged habove (by simp [htarget]) hne
    have hren := FileTree.renamed_relocate hnot' hnot hbare
    refine .inr ⟨rfl, _, hreplace, ⟨?_, rfl, fun r => ?_⟩⟩
    · rw [Path.place_eq hn.ne_nil] at hren ⊢
      refine hren.rooted hrooted habove fun hpre => hnot' ?_
      exact hpre.trans (Path.above_prefix_place p _)
    · rw [hren.find?_of_file hrooted hstaged hbare, hstaged]

/-- Moving files into place is a run. -/
theorem moves_moveAll (h : Ready w ps t) :
    Moves faults w i ps t (moveAll faults (ps.map stage) i t).1
      (moveAll faults (ps.map stage) i t).2.1 (moveAll faults (ps.map stage) i t).2.2 := by
  -- By induction on the targets; each round ends where one of the two renames is refused, or goes
  -- on from the tree that both have left.
  induction ps generalizing i t with
  | nil => exact .done h
  | cons p rest ih =>
    rw [List.map_cons]
    rcases moveAside_eq h (faults.aside i) with ⟨e, he⟩ | ⟨ta, backup, hok, ha, hai⟩
    · simp only [moveAll, stage, he]
      exact .refused h
    · rcases rename_staging_eq h ha (faults.into i) with ⟨hi, e, he⟩ | ⟨hi, tb, hb, hplaced⟩
      · simp only [moveAll, stage, hok, he]
        exact .halfway h ha hi
      · simp only [moveAll, stage, hok, hb]
        exact .step h ha hplaced hi hai (ih (h.step ha hplaced))

/-! ### A whole run -/

namespace Moves

/-- A run starts from files that are ready. -/
theorem ready (h : Moves faults w i ps t t' moved stop) : Ready w ps t := by
  cases h with
  | done h | refused h | halfway h | step h => exact h

/-- A run leaves a rooted tree. -/
theorem rooted (h : Moves faults w i ps t t' moved stop) : t'.Rooted := by
  induction h with
  | done h | refused h => exact h.rooted
  | halfway h ha => exact ha.rooted h.rooted h.head.1
  | step h ha hb hi hai hm ih => exact ih

/-- A run does not change the working directory. -/
theorem working (h : Moves faults w i ps t t' moved stop) : t'.working = w := by
  induction h with
  | done h | refused h => exact h.working
  | halfway h ha => exact ha.working.trans h.working
  | step h ha hb hi hai hm ih => exact ih

/-- Beside what stands nothing changes but at the places of the targets. -/
theorem sibling (h : Moves faults w i ps t t' moved stop) (hm : t.find? (d ++ [m]) = some e)
    (hom : ∀ p ∈ ps, p.Outside w (d ++ [m])) (hon : ∀ p ∈ ps, p.Outside w (d ++ [n])) :
    t'.find? (d ++ [n]) = t.find? (d ++ [n]) := by
  induction h with
  | done | refused => rfl
  | halfway h ha =>
    have hom := hom _ List.mem_cons_self
    have hon := hon _ List.mem_cons_self
    exact ha.sibling hm hom.ne_backup hon.not_below hon.ne_backup
  | step h ha hb hi hai hrun ih =>
    have homp := hom _ List.mem_cons_self
    have honp := hon _ List.mem_cons_self
    have hm' := sibling_step ha hb hm homp homp
    rw [ih (hm'.trans hm) (fun q hq => hom q (List.mem_cons_of_mem _ hq))
      (fun q hq => hon q (List.mem_cons_of_mem _ hq))]
    exact sibling_step ha hb hm homp honp

/-- The places of one target are left alone while files are moved to later ones. -/
theorem find?_head (h : Ready w (p :: rest) t) (ha : Aside w t p ta backup)
    (hb : Placed w ta tb p) (hm : Moves faults w i rest tb t' moved stop) :
    t'.find? (p.place w) = tb.find? (p.place w) ∧
      t'.find? (p.staging.place w) = tb.find? (p.staging.place w) ∧
      t'.find? (p.backup.place w) = tb.find? (p.backup.place w) := by
  obtain ⟨hn, -, c, hc⟩ := h.head
  -- The new file stands at the target.
  have htarget : tb.find? (p.place w) = some (.file c) := by
    rw [hb.find?, if_pos rfl, ha.find?_staging h, hc]
  have hp : ∀ q ∈ rest, q.Outside w (p.place w) := fun q hq => (h.clear_cons hq).2.target
  have hs : ∀ q ∈ rest, q.Outside w (p.staging.place w) :=
    fun q hq => (h.clear_cons hq).2.staging
  have hk : ∀ q ∈ rest, q.Outside w (p.backup.place w) := fun q hq => (h.clear_cons hq).2.backup
  rw [Path.place_eq hn.ne_nil] at htarget hp ⊢
  rw [Path.place_staging] at hs ⊢
  rw [Path.place_backup] at hk ⊢
  exact ⟨hm.sibling htarget hp hp, hm.sibling htarget hp hs, hm.sibling htarget hp hk⟩

/-- After a run to the end every target holds what was staged for it. -/
theorem placed (h : Moves faults w i ps t t' moved none) (hp : p ∈ ps) :
    t'.find? (p.place w) = t.find? (p.staging.place w) ∧
      t'.find? (p.staging.place w) = none := by
  generalize hstop : (none : Option Path) = stop at h
  induction h with
  | done => cases hp
  | refused | halfway => cases hstop
  | step h ha hb hi hai hm ih =>
    rcases List.mem_cons.mp hp with rfl | hp
    · -- The later moves leave the new file alone.
      obtain ⟨htarget, hstaging, -⟩ := find?_head h ha hb hm
      have hne := h.head.1.place_ne_staging w
      rw [htarget, hstaging, hb.find?, hb.find?, if_pos rfl, if_neg hne.symm, if_pos rfl]
      exact ⟨ha.find?_staging h, rfl⟩
    · rw [← (find?_step h ha hb hp).2.1]
      exact ih hp hstop

/-- What is moved goes to one of the targets, and what stood there is kept. -/
theorem kept (h : Moves faults w i ps t t' moved stop) {m : Moved} (hm : m ∈ moved) :
    m.target ∈ ps ∧ Kept w t t' m.target m.backup := by
  induction h with
  | done | refused => cases hm
  | halfway h ha =>
    obtain rfl := List.mem_singleton.mp hm
    exact ⟨List.mem_cons_self, ha.kept⟩
  | @step _ p _ _ _ _ _ _ _ _ h ha hb hi hai hrun ih =>
    rcases List.mem_cons.mp hm with rfl | hm
    · refine ⟨List.mem_cons_self, ha.kept.imp_right ?_⟩
      rintro ⟨hbackup, hf, e, he, hk, hcompat⟩
      refine ⟨hbackup, hf, e, he, ?_, hcompat⟩
      have hne := h.head.1.place_ne_backup w
      have hne' := Path.staging_ne_backup p w
      rw [(find?_head h ha hb hrun).2.2, hb.of_ne hne.symm hne'.symm, hk]
    · obtain ⟨hmem, hkept⟩ := ih hm
      obtain ⟨htarget, -, hbackup⟩ := find?_step h ha hb hmem
      unfold Kept at hkept ⊢
      rw [htarget, hbackup] at hkept
      exact ⟨List.mem_cons_of_mem _ hmem, hkept⟩

/-- A run to the end moves a file to every target. -/
theorem map_target (h : Moves faults w i ps t t' moved none) : moved.map Moved.target = ps := by
  generalize hstop : (none : Option Path) = stop at h
  induction h with
  | done => rfl
  | refused | halfway => cases hstop
  | step h ha hb hi hai hm ih => rw [List.map_cons, ih hstop]

/-- A run to the end meets no fault. -/
theorem no_fault (h : Moves faults w i ps t t' moved none) {k : Nat} (hk : ps[k]? = some p) :
    faults.into (i + k) = false ∧
      (faults.aside (i + k) = true → t.find? (p.place w) = none) := by
  generalize hstop : (none : Option Path) = stop at h
  induction h generalizing k with
  | done => cases hk
  | refused | halfway => cases hstop
  | step h ha hb hi hai hm ih =>
    cases k with
    | zero =>
      cases hk
      exact ⟨hi, hai⟩
    | succ k =>
      rw [List.getElem?_cons_succ] at hk
      have hrest := ih hk hstop
      rw [(find?_step h ha hb (List.mem_of_getElem? hk)).1, Nat.add_right_comm] at hrest
      exact hrest

/-- If no target was a directory, only the places of the targets have changed. -/
theorem unchanged (h : Moves faults w i ps t t' moved stop)
    (hdir : ∀ p ∈ ps, t.find? (p.place w) ≠ some .directory)
    (hr : ∀ p ∈ ps, r ≠ p.place w ∧ r ≠ p.staging.place w)
    (hk : ∀ m ∈ moved, ∀ b, m.backup = some b → r ≠ b.place w) : t'.find? r = t.find? r := by
  induction h with
  | done | refused => rfl
  | halfway h ha =>
    obtain ⟨hp, -⟩ := hr _ List.mem_cons_self
    exact ha.unchanged h.rooted (hdir _ List.mem_cons_self) hp
      (hk _ (List.mem_singleton.mpr rfl) _)
  | step h ha hb hi hai hrun ih =>
    obtain ⟨hp, hs⟩ := hr _ List.mem_cons_self
    have hstep := (hb.of_ne hp hs).trans
      (ha.unchanged h.rooted (hdir _ List.mem_cons_self) hp (hk _ List.mem_cons_self _))
    rw [← hstep]
    -- A later target is still no directory after the first step.
    refine ih (fun q hq => ?_) (fun q hq => hr q (List.mem_cons_of_mem _ hq))
      (fun m hm => hk m (List.mem_cons_of_mem _ hm))
    rw [(find?_step h ha hb hq).1]
    exact hdir q (List.mem_cons_of_mem _ hq)

end Moves

end TypedClient.FileSink
