import TypedClient.Proofs.FileTree.Renaming

/-!
# `TypedClient.Proofs.FileTree.Rollback`: putting back and removing

Rollback undoes the moves of a run in reverse, so the induction on the run meets each of
them after all later ones are undone. If every old file was a file and its backup took no
place of anything, each undoing finds the tree that its move left, up to staged files, and
the run leaves no trace but those (`Moves.undone`). Otherwise what is lost stays lost
(`Moves.broken`): a directory cannot be put back where the new file stands, and what stood
at a backup is gone.

* `undo_eq_or`: what putting back one target can do.
* `Moves.undone`, `Moves.broken`: when rollback restores the tree, and what is wrong if not.
* `of_discard_eq_ok`, `discard_eq_ok`: removing files succeeds exactly where no directory
  stands, and removes nothing else.
-/

set_option autoImplicit false

namespace TypedClient.FileSink

open FileTree (Renamed Replaceable)

variable {faults : Faults} {w r : Place} {p q : Path} {ps rest : List Path}
variable {t t' ta tb tx : FileTree} {backup : Option Path} {moved : List Moved}
variable {stop : Option Path} {i : Nat} {e : Entry} {c : ByteArray}

/-- The tree after putting back one target. It stays as it is if that is refused. -/
def undo (m : Moved) (t : FileTree) : FileTree :=
  match restore t m with
  | .ok t' => t'
  | .error _ => t

/-- Putting back leaves the tree that it makes. -/
theorem undo_of_ok {m : Moved} (h : restore t m = .ok t') : undo m t = t' := by
  simp [undo, h]

/-- Putting back that is refused leaves the tree as it is. -/
theorem undo_of_error {m : Moved} {e : FileError} (h : restore t m = .error e) :
    undo m t = t := by
  simp [undo, h]

/-- Rolling back undoes one move after the other, and goes on where one is refused. -/
theorem rollback_fst (moved : List Moved) (t : FileTree) :
    (rollback moved t).1 = moved.foldl (fun t m => undo m t) t := by
  induction moved generalizing t with
  | nil => rfl
  | cons m rest ih =>
    rw [List.foldl_cons]
    cases h : restore t m with
    | ok t' =>
      rw [undo_of_ok h, ← ih]
      simp [rollback, h]
    | error e =>
      rw [undo_of_error h, ← ih]
      simp [rollback, h]

/-- The move done last is undone first. -/
theorem rollback_reverse_fst (moved : List Moved) (t : FileTree) :
    (rollback moved.reverse t).1 = moved.foldr undo t := by
  rw [rollback_fst, List.foldl_reverse]

/-! ### Putting back one target -/

/-- A backup is not above the directory of its target. -/
theorem not_backup_prefix_above (hn : p.Normal) : ¬ p.backup.place w <+: p.above w :=
  fun hpre => hn.not_backup_prefix_place w (hpre.trans (Path.above_prefix_place p w))

/-- Putting back is refused, or clears the target, or gives the backup its old name. -/
theorem undo_eq_or (ht : tx.Rooted) (hw : tx.working = w) (hn : p.Normal) (hf : p.Fits)
    (hb : backup = none ∨ backup = some p.backup) :
    (undo ⟨p, backup⟩ tx).Rooted ∧ (undo ⟨p, backup⟩ tx).working = w ∧
      (undo ⟨p, backup⟩ tx = tx ∨
        (∀ r, (undo ⟨p, backup⟩ tx).find? r = if r = p.place w then none else tx.find? r) ∨
        backup = some p.backup ∧ tx.Replaceable (p.backup.place w) (p.place w) ∧
          Renamed tx (undo ⟨p, backup⟩ tx) (p.backup.place w) (p.place w)) := by
  subst hw
  cases hr : restore tx ⟨p, backup⟩ with
  | error e =>
    rw [undo_of_error hr]
    exact ⟨ht, rfl, .inl rfl⟩
  | ok te =>
    rw [undo_of_ok hr]
    rcases hb with rfl | rfl
    · obtain ⟨-, hrooted, hworking, hfind⟩ := FileTree.of_unlinkIfPresent_eq_ok ht hn hf hr
      exact ⟨hrooted, hworking, .inr (.inl hfind)⟩
    · obtain ⟨-, -, hd, hrep, hren⟩ := FileTree.of_replace_eq_ok ht hn.backup hn
        (hn.not_backup_prefix_place _) (hn.not_place_prefix_backup _) hr
      refine ⟨?_, hren.1, .inr (.inr ⟨rfl, hrep, hren⟩)⟩
      rw [Path.place_eq hn.ne_nil] at hren
      exact hren.rooted ht hd (not_backup_prefix_above hn)

/-- An entry stays that is neither at the target nor at the backup or below it. -/
theorem undo_keeps (ht : tx.Rooted) (hw : tx.working = w) (hn : p.Normal) (hf : p.Fits)
    (hb : backup = none ∨ backup = some p.backup) (hr : tx.find? r = some e)
    (hp : r ≠ p.place w) (hbr : backup = some p.backup → ¬ p.backup.place w <+: r) :
    (undo ⟨p, backup⟩ tx).find? r = some e := by
  obtain ⟨-, -, he | he | ⟨hsome, hrep, hren⟩⟩ := undo_eq_or ht hw hn hf hb
  · rwa [he]
  · rw [he, if_neg hp, hr]
  · exact hren.keeps hrep.bare hr (hbr hsome) hp

/-- Nothing appears but at the target and below it. -/
theorem undo_none (ht : tx.Rooted) (hw : tx.working = w) (hn : p.Normal) (hf : p.Fits)
    (hb : backup = none ∨ backup = some p.backup) (hr : tx.find? r = none)
    (hp : ¬ p.place w <+: r) : (undo ⟨p, backup⟩ tx).find? r = none := by
  obtain ⟨-, -, he | he | ⟨-, -, hren⟩⟩ := undo_eq_or ht hw hn hf hb
  · rwa [he]
  · rw [he, hr, ite_self]
  · exact hren.find?_none hr hp

/-- A target that was empty is empty again. -/
theorem undo_absent (ht : tx.Rooted) (hw : tx.working = w) (hn : p.Normal) (hf : p.Fits)
    (hd : tx.find? (p.above w) = some .directory) (hdir : tx.find? (p.place w) ≠ some .directory) :
    (undo ⟨p, none⟩ tx).find? r = if r = p.place w then none else tx.find? r := by
  subst hw
  obtain ⟨te, hok⟩ := FileTree.unlinkIfPresent_eq_ok ht hn hf hd hdir
  obtain ⟨-, -, -, hfind⟩ := FileTree.of_unlinkIfPresent_eq_ok ht hn hf hok
  have hrestore : restore tx ⟨p, none⟩ = .ok te := hok
  rw [undo_of_ok hrestore, hfind]

/-- A file that was moved aside is at the target again. -/
theorem undo_moved (ht : tx.Rooted) (hw : tx.working = w) (hn : p.Normal) (hf : p.Fits)
    (hfb : p.backup.Fits) (hb : tx.find? (p.backup.place w) = some (.file c))
    (hdir : tx.find? (p.place w) ≠ some .directory) :
    (undo ⟨p, some p.backup⟩ tx).find? r =
      if r = p.place w then some (.file c)
      else if r = p.backup.place w then none else tx.find? r := by
  subst hw
  have hd : tx.find? (p.above tx.working) = some .directory := by
    have hd := FileTree.above_of_find? ht hn.backup hb
    rwa [Path.backup, Path.above_beside] at hd
  have hbare := ht.bare hdir
  have hok := FileTree.replace_of_file ht hn.backup hn hfb hf hb hd hdir
    (hn.place_ne_backup _).symm
  have hren := FileTree.renamed_relocate (hn.not_backup_prefix_place _)
    (hn.not_place_prefix_backup _) hbare
  rw [undo_of_ok (m := ⟨p, some p.backup⟩) hok]
  exact hren.find?_of_file ht hb hbare r

/-- A directory is not put back where the new file stands. -/
theorem undo_directory (ht : tx.Rooted) (hw : tx.working = w) (hn : p.Normal)
    (hc : tx.find? (p.place w) = some (.file c))
    (hd : tx.find? (p.backup.place w) = some .directory) :
    undo ⟨p, some p.backup⟩ tx = tx := by
  subst hw
  cases hr : restore tx ⟨p, some p.backup⟩ with
  | error e => exact undo_of_error hr
  | ok te =>
    obtain ⟨-, -, -, hrep, -⟩ := FileTree.of_replace_eq_ok ht hn.backup hn
      (hn.not_backup_prefix_place _) (hn.not_place_prefix_backup _) hr
    have hsame := (hrep.target _ hc).mpr hd
    cases hsame

/-! ### Undoing a run -/

/-- What was moved aside were files, and nothing stood at their backups. -/
def Clean (w : Place) (t : FileTree) (moved : List Moved) : Prop :=
  ∀ m ∈ moved, ∀ b, m.backup = some b →
    (∃ c, t.find? (m.target.place w) = some (.file c)) ∧ t.find? (b.place w) = none

/-- The tree `t'` is `t` but for staged files of the targets, some of which are gone. -/
structure Restored (w : Place) (ps : List Path) (t t' : FileTree) : Prop where
  rooted : t'.Rooted
  working : t'.working = w
  find? : ∀ r, (∀ p ∈ ps, r ≠ p.staging.place w) → t'.find? r = t.find? r
  staging : ∀ p ∈ ps, t'.find? (p.staging.place w) = none ∨
    t'.find? (p.staging.place w) = t.find? (p.staging.place w)

/-- Putting back what was moved aside, from a tree that still has it at the backup. -/
theorem undo_clean (h : Ready w (p :: rest) t) (ha : Aside w t p ta backup)
    (hclean : ∀ b, backup = some b →
      (∃ c, t.find? (p.place w) = some (.file c)) ∧ t.find? (b.place w) = none)
    (hx : tx.Rooted) (hw : tx.working = w) (hd : tx.find? (p.above w) = some .directory)
    (hdir : tx.find? (p.place w) ≠ some .directory)
    (hk : tx.find? (p.backup.place w) = ta.find? (p.backup.place w)) (r : Place) :
    (undo ⟨p, backup⟩ tx).find? r =
      if r = p.place w ∨ backup = some p.backup ∧ r = p.backup.place w then t.find? r
      else tx.find? r := by
  have hn := h.head.1
  have hf := h.target_fits List.mem_cons_self
  cases ha with
  | absent hp =>
    rw [undo_absent hx hw hn hf hd hdir]
    by_cases hr : r = p.place w
    · simp [hr, hp]
    · simp [hr]
  | moved hfb hrep hren =>
    obtain ⟨⟨c, hc⟩, hnone⟩ := hclean _ rfl
    rw [undo_moved hx hw hn hf hfb (hk.trans (hren.find?_target.trans hc)) hdir]
    by_cases hr : r = p.place w
    · simp [hr, hc]
    · by_cases hrb : r = p.backup.place w
      · rw [hrb] at hr ⊢
        simp [hr, hnone]
      · simp [hr, hrb]

/-- Undoing the first move of a run when the others are undone: outside the target and the
staged files the tree `tx` is as it was when the target had been moved aside. -/
theorem restored_undo (h : Ready w (p :: rest) t) (ha : Aside w t p ta backup)
    (hclean : ∀ b, backup = some b →
      (∃ c, t.find? (p.place w) = some (.file c)) ∧ t.find? (b.place w) = none)
    (hx : tx.Rooted) (hw : tx.working = w) (hd : tx.find? (p.above w) = some .directory)
    (hdir : tx.find? (p.place w) ≠ some .directory)
    (hframe : ∀ r, r ≠ p.place w → (∀ q ∈ p :: rest, r ≠ q.staging.place w) →
      tx.find? r = ta.find? r)
    (hs : ∀ q ∈ p :: rest, tx.find? (q.staging.place w) = none ∨
      tx.find? (q.staging.place w) = t.find? (q.staging.place w)) :
    Restored w (p :: rest) t (undo ⟨p, backup⟩ tx) := by
  have hn := h.head.1
  have hbackup : ∀ q ∈ p :: rest, p.backup.place w ≠ q.staging.place w := by
    intro q hq
    rcases List.mem_cons.mp hq with rfl | hq
    · exact (Path.staging_ne_backup q w).symm
    · exact (h.clear_cons hq).1.staging.ne_backup.symm
  have hplace : ∀ q ∈ p :: rest, q.staging.place w ≠ p.place w := by
    intro q hq
    rcases List.mem_cons.mp hq with rfl | hq
    · exact (hn.place_ne_staging w).symm
    · exact (h.clear_cons hq).1.staging.ne
  have hk := hframe _ (hn.place_ne_backup w).symm hbackup
  have hundo := undo_clean h ha hclean hx hw hd hdir hk
  obtain ⟨hrooted, hworking, -⟩ :=
    undo_eq_or hx hw hn (h.target_fits List.mem_cons_self) ha.backup_eq
  refine ⟨hrooted, hworking, fun r hr => ?_, fun q hq => ?_⟩
  · rw [hundo]
    split
    · rfl
    · rename_i hne
      rw [not_or, not_and] at hne
      have hfile : t.find? (p.place w) ≠ some .directory := by
        cases ha with
        | absent hp => simp [hp]
        | moved hf hrep hren =>
          obtain ⟨⟨c, hc⟩, -⟩ := hclean _ rfl
          simp [hc]
      rw [hframe r hne.1 hr, ha.unchanged h.rooted hfile hne.1 hne.2]
  · rw [hundo, if_neg]
    · exact hs q hq
    · rw [not_or, not_and]
      exact ⟨hplace q hq, fun _ => (hbackup q hq).symm⟩

namespace Moves

/-- If what was moved aside were files that took the place of nothing, undoing a run
restores the tree but for staged files. -/
theorem undone (h : Moves faults w i ps t t' moved stop) (hclean : Clean w t moved) :
    Restored w ps t (moved.foldr undo t') := by
  -- By induction on the run. The last move is undone first, so that the first one is undone in the
  -- tree that undoing the others has left.
  induction h with
  | done h | refused h => exact ⟨h.rooted, h.working, fun _ _ => rfl, fun _ _ => .inr rfl⟩
  | @halfway _ p rest t ta backup h ha hi =>
    -- The target is empty, the old file at its backup if there was one.
    obtain ⟨hn, -, c, hc⟩ := h.head
    have hrooted := ha.rooted h.rooted hn
    have hd : ta.find? (p.above w) = some .directory := by
      rw [← ha.find?_staging h, Path.place_staging] at hc
      exact hrooted _ _ _ hc
    show Restored w (p :: rest) t (undo ⟨p, backup⟩ ta)
    refine restored_undo h ha (hclean _ (List.mem_singleton.mpr rfl)) hrooted
      (ha.working.trans h.working) hd (by simp [ha.target hn]) (fun _ _ _ => rfl) ?_
    intro q hq
    right
    rcases List.mem_cons.mp hq with rfl | hmem
    · exact ha.find?_staging h
    · obtain ⟨c, hc⟩ := h.staged q hq
      have ho := (h.clear_cons hmem).1.staging
      rw [hc, ha.keeps hc ho.not_below ho.ne_backup]
  | @step _ p rest t ta tb t' backup moved stop h ha hb hi hai hm ih =>
    obtain ⟨hn, -, c, hc⟩ := h.head
    -- The moves to the other targets are undone first, and were no less clean.
    have hrest : Restored w rest tb (moved.foldr undo t') := by
      refine ih fun m hmem b hmb => ?_
      obtain ⟨hp, hkept⟩ := hm.kept hmem
      obtain ⟨hplace, -, hbackup⟩ := find?_step h ha hb hp
      obtain ⟨hbm, -⟩ := hkept.of_eq_some hmb
      rw [hbm, hplace, hbackup, ← hbm]
      exact hclean m (List.mem_cons_of_mem _ hmem) b hmb
    -- The new file is at the target still.
    have hnew : (moved.foldr undo t').find? (p.place w) = some (.file c) := by
      rw [hrest.find? _ fun q hq => (h.clear_cons hq).2.target.ne_staging, hb.find?, if_pos rfl,
        ha.find?_staging h, hc]
    have hd : (moved.foldr undo t').find? (p.above w) = some .directory := by
      rw [Path.place_eq hn.ne_nil] at hnew
      exact hrest.rooted _ _ _ hnew
    rw [List.foldr_cons]
    refine restored_undo h ha (hclean _ List.mem_cons_self) hrest.rooted hrest.working hd
      (by simp [hnew]) ?_ ?_
    · intro r hp hr
      rw [hrest.find? r fun q hq => hr q (List.mem_cons_of_mem _ hq),
        hb.of_ne hp (hr p List.mem_cons_self)]
    · intro q hq
      rcases List.mem_cons.mp hq with rfl | hq
      · left
        rw [hrest.find? _ fun q' hq' => (h.clear_cons hq').2.staging.ne_staging, hb.find?,
          if_neg (hn.place_ne_staging w).symm, if_pos rfl]
      · rw [← (find?_step h ha hb hq).2.1]
        exact hrest.staging q hq

/-- Undoing a run leaves a rooted tree, seen from the same directory. -/
theorem undone_rooted (h : Moves faults w i ps t t' moved stop) :
    (moved.foldr undo t').Rooted ∧ (moved.foldr undo t').working = w := by
  induction h with
  | done h | refused h => exact ⟨h.rooted, h.working⟩
  | halfway h ha =>
    obtain ⟨hrooted, hworking, -⟩ := undo_eq_or (ha.rooted h.rooted h.head.1)
      (ha.working.trans h.working) h.head.1 (h.target_fits List.mem_cons_self) ha.backup_eq
    exact ⟨hrooted, hworking⟩
  | step h ha hb hi hai hm ih =>
    obtain ⟨hrooted, hworking, -⟩ := undo_eq_or ih.1 ih.2 h.head.1
      (h.target_fits List.mem_cons_self) ha.backup_eq
    exact ⟨hrooted, hworking⟩

/-- An entry outside the targets outlasts a run and its undoing. -/
theorem undone_keeps (h : Moves faults w i ps t t' moved stop) (hr : t.find? r = some e)
    (ho : ∀ p ∈ ps, p.Outside w r) : (moved.foldr undo t').find? r = some e := by
  induction h with
  | done | refused => exact hr
  | halfway h ha =>
    have hop := ho _ List.mem_cons_self
    exact undo_keeps (ha.rooted h.rooted h.head.1) (ha.working.trans h.working) h.head.1
      (h.target_fits List.mem_cons_self) ha.backup_eq
      (ha.keeps hr hop.not_below hop.ne_backup) hop.ne (ha.not_below_backup hr hop.ne_backup)
  | step h ha hb hi hai hm ih =>
    have hop := ho _ List.mem_cons_self
    obtain ⟨hrooted, hworking⟩ := hm.undone_rooted
    have hrest := ih (keeps_step ha hb hr hop) fun q hq => ho q (List.mem_cons_of_mem _ hq)
    exact undo_keeps hrooted hworking h.head.1 (h.target_fits List.mem_cons_self) ha.backup_eq
      hrest hop.ne (ha.not_below_backup hr hop.ne_backup)

/-- What undoing a run does not restore if the device did not fail: where a directory was
moved aside the new file stays, and the backup of a file is empty afterwards. -/
theorem broken (h : Moves faults w i ps t t' moved stop) (hinto : ∀ i, faults.into i = false)
    {m : Moved} (hm : m ∈ moved) (hb : m.backup ≠ none) :
    (t.find? (m.target.place w) = some .directory →
        ∃ c, (moved.foldr undo t').find? (m.target.place w) = some (.file c)) ∧
      ∀ c, t.find? (m.target.place w) = some (.file c) →
        (moved.foldr undo t').find? (m.target.backup.place w) = none := by
  -- By induction on the run, as before; the move in question is the first one or one of those
  -- undone before it.
  induction h with
  | done | refused => cases hm
  | halfway h ha hi =>
    rw [hinto] at hi
    cases hi
  | @step _ p rest t ta tb t' backup moved stop h ha hplaced hi hai hrun ih =>
    obtain ⟨hn, -, c, hc⟩ := h.head
    have hf := h.target_fits List.mem_cons_self
    obtain ⟨hrooted, hworking⟩ := hrun.undone_rooted
    rw [List.foldr_cons]
    rcases List.mem_cons.mp hm with rfl | hm
    · cases ha with
      | absent => exact absurd rfl hb
      | @moved ta hfb hrep hren =>
        -- The new file and the backup are still there when the others are undone.
        have hnew : (moved.foldr undo t').find? (p.place w) = some (.file c) := by
          refine hrun.undone_keeps ?_ fun q hq => (h.clear_cons hq).2.target
          rw [hplaced.find?, if_pos rfl, (Aside.moved hfb hrep hren).find?_staging h, hc]
        have hold : ∀ e, t.find? (p.place w) = some e →
            (moved.foldr undo t').find? (p.backup.place w) = some e := by
          intro e he
          refine hrun.undone_keeps ?_ fun q hq => (h.clear_cons hq).2.backup
          rw [hplaced.of_ne (hn.place_ne_backup w).symm (Path.staging_ne_backup p w).symm,
            hren.find?_target, he]
        refine ⟨fun hdir => ⟨c, ?_⟩, fun c' hc' => ?_⟩
        · rw [undo_directory hrooted hworking hn hnew (hold _ hdir)]
          exact hnew
        · rw [undo_moved hrooted hworking hn hf hfb (hold _ hc') (by simp [hnew]),
            if_neg (hn.place_ne_backup w).symm, if_pos rfl]
    · -- Undoing the first move neither restores nor clears what later ones left.
      obtain ⟨hmem, -⟩ := hrun.kept hm
      obtain ⟨hplace, -, -⟩ := find?_step h ha hplaced hmem
      have hclear := (h.clear_cons hmem).1
      obtain ⟨hdir, hfile⟩ := ih hm
      rw [hplace] at hdir hfile
      refine ⟨fun hd => ?_, fun c' hc' => ?_⟩
      · obtain ⟨c', hc'⟩ := hdir hd
        exact ⟨c', undo_keeps hrooted hworking hn hf ha.backup_eq hc' hclear.target.ne
          (ha.not_below_backup hd hclear.target.ne_backup)⟩
      · exact undo_none hrooted hworking hn hf ha.backup_eq (hfile c' hc')
          hclear.backup.not_below

end Moves

/-! ### Removing files -/

/-- The paths can be unlinked where they stand: a file system takes them. -/
def Removable (paths : List Path) : Prop := ∀ p ∈ paths, p.Normal ∧ p.Fits

/-- If removing succeeds no directory stood at any of the places, nothing stands there afterwards,
and every other place is as it was. -/
theorem of_discard_eq_ok {paths : List Path} (ht : t.Rooted) (hp : Removable paths)
    (h : discard paths t = (t', .ok ())) :
    (∀ p ∈ paths, t.find? (p.place t.working) ≠ some .directory ∧
        t'.find? (p.place t.working) = none) ∧
      ∀ r, (∀ p ∈ paths, r ≠ p.place t.working) → t'.find? r = t.find? r := by
  induction paths generalizing t with
  | nil =>
    cases h
    exact ⟨by simp, fun _ _ => rfl⟩
  | cons p rest ih =>
    obtain ⟨hn, hf⟩ := hp p List.mem_cons_self
    unfold discard at h
    cases hu : t.unlinkIfPresent p with
    | error e =>
      rw [hu] at h
      cases h
    | ok t₁ =>
      rw [hu] at h
      obtain ⟨hdir, hrooted, hworking, hfind⟩ := FileTree.of_unlinkIfPresent_eq_ok ht hn hf hu
      obtain ⟨hgone, hkept⟩ := ih hrooted (fun q hq => hp q (List.mem_cons_of_mem _ hq)) h
      rw [hworking] at hgone hkept
      refine ⟨fun q hq => ?_, fun r hr => ?_⟩
      · -- A path may lead where another of the list does; then it is removed with that one.
        by_cases hself : ∃ q' ∈ rest, q.place t.working = q'.place t.working
        · obtain ⟨q', hq', he⟩ := hself
          obtain ⟨hd, hnone⟩ := hgone q' hq'
          rw [he]
          refine ⟨fun hdq => ?_, hnone⟩
          rw [hfind] at hd
          split at hd
          · rename_i hqp
            rw [hqp] at hdq
            exact hdir hdq
          · exact hd hdq
        · have hne : ∀ q' ∈ rest, q.place t.working ≠ q'.place t.working :=
            fun q' hq' he => hself ⟨q', hq', he⟩
          obtain rfl := (List.mem_cons.mp hq).resolve_right fun hmem => hne q hmem rfl
          exact ⟨hdir, by rw [hkept _ hne, hfind, if_pos rfl]⟩
      · rw [hkept r fun q hq => hr q (List.mem_cons_of_mem _ hq), hfind,
          if_neg (hr p List.mem_cons_self)]

/-- Removing succeeds if no directory is in the way. -/
theorem discard_eq_ok {paths : List Path} (ht : t.Rooted) (hp : Removable paths)
    (habove : ∀ p ∈ paths, t.find? (p.above t.working) = some .directory)
    (hdir : ∀ p ∈ paths, t.find? (p.place t.working) ≠ some .directory) :
    ∃ t', discard paths t = (t', .ok ()) := by
  induction paths generalizing t with
  | nil => exact ⟨t, rfl⟩
  | cons p rest ih =>
    obtain ⟨hn, hf⟩ := hp p List.mem_cons_self
    have hdirp := hdir p List.mem_cons_self
    obtain ⟨t₁, hok⟩ :=
      FileTree.unlinkIfPresent_eq_ok ht hn hf (habove p List.mem_cons_self) hdirp
    obtain ⟨-, hrooted, hworking, hfind⟩ := FileTree.of_unlinkIfPresent_eq_ok ht hn hf hok
    simp only [discard, hok]
    refine ih hrooted (fun q hq => hp q (List.mem_cons_of_mem _ hq)) (fun q hq => ?_)
      (fun q hq => ?_)
    · have hd := habove q (List.mem_cons_of_mem _ hq)
      rw [hworking, hfind, if_neg]
      · exact hd
      · -- What was removed was no directory.
        intro he
        rw [he] at hd
        exact hdirp hd
    · rw [hworking, hfind]
      split
      · simp
      · exact hdir q (List.mem_cons_of_mem _ hq)

end TypedClient.FileSink
