import TypedClient.Proofs.FileTree.Rollback

/-!
# `TypedClient.Proofs.FileTree.Call`: a call of the sink, by where it stops

A call stages, moves and cleans up, and stops at the first of these that is refused. The
facts about the three are put together here: what staging hands to the moves (`Prepared`),
what removing the staged files and the backups takes, and what a call returns for each
place where it can stop.

* `prepared_of_stageAll`: after staging to the end, a run of moves can start.
* `discard_staging`, `Moves.discarded`: what cleaning up leaves.
* `writeAll_defect`, `writeAll_refused`, `writeAll_stopped`, `writeAll_kept`,
  `writeAll_done`: the result, by where the call stops.
-/

set_option autoImplicit false

namespace TypedClient.FileSink

variable {faults : Faults} {directory : Path} {files : List GeneratedFile}
variable {t t₁ t₂ t' : FileTree} {staged : List Staged} {moved : List Moved} {w : Place}
variable {ps : List Path} {i : Nat} {stop : Option Path}

/-- The trees hold the same files with the same contents. -/
def SameFiles (t t' : FileTree) : Prop :=
  ∀ r c, t'.find? r = some (.file c) ↔ t.find? r = some (.file c)

/-! ### After staging -/

/-- The files are staged in the tree `t₁`, which is otherwise `t` with new directories above
the targets. -/
structure Prepared (directory : Path) (files : List GeneratedFile) (t t₁ : FileTree) : Prop where
  ready : Ready t.working (files.map (target directory)) t₁
  written : ∀ f ∈ files,
    t₁.find? ((target directory f).staging.place t.working) = some (.file f.content.toUTF8)
  file_iff : ∀ r c, (∀ f ∈ files, r ≠ (target directory f).staging.place t.working) →
    (t₁.find? r = some (.file c) ↔ t.find? r = some (.file c))
  directory_iff : ∀ f ∈ files, t₁.find? ((target directory f).place t.working) = some .directory ↔
    t.find? ((target directory f).place t.working) = some .directory

/-- What is staged is ready to be moved, if no torn file is left beside it. -/
theorem Staging.prepared (h : Staging faults directory files i t t₁ staged)
    (hs : Separate directory files)
    (htorn : tornAt faults directory files i t.working staged.length = []) :
    Prepared directory (files.take staged.length) t t₁ where
  ready := {
    rooted := h.laid.rooted
    working := h.laid.working
    normal := by
      intro p hp
      obtain ⟨f, hf, rfl⟩ := List.mem_map.mp hp
      exact hs.normal f (List.mem_of_mem_take hf)
    clear := by
      rw [List.pairwise_map]
      refine (hs.unrelated.sublist (List.take_sublist _ _)).imp_of_mem fun hf hg hu => ?_
      have hf' := hs.normal _ (List.mem_of_mem_take hf)
      have hg' := hs.normal _ (List.mem_of_mem_take hg)
      exact ⟨hu.clear hf' hg' rfl, hu.symm.clear hg' hf' rfl⟩
    fits := by
      intro p hp
      obtain ⟨f, hf, rfl⟩ := List.mem_map.mp hp
      exact (h.written f hf).1
    staged := by
      intro p hp
      obtain ⟨f, hf, rfl⟩ := List.mem_map.mp hp
      exact ⟨_, (h.written f hf).2⟩ }
  written f hf := (h.written f hf).2
  file_iff r c hr := by
    refine h.laid.file_iff ?_
    rw [htorn, List.append_nil, h.staged_eq, List.map_map]
    intro hmem
    obtain ⟨f, hf, he⟩ := List.mem_map.mp hmem
    exact hr f hf he.symm
  directory_iff f hf := by
    refine h.laid.directory_iff fun d hd => ?_
    obtain ⟨g, hg, rfl⟩ := List.mem_map.mp hd
    exact hs.not_place_prefix_above (List.mem_of_mem_take hf) hg _

/-- After staging to the end, a run of moves over all the targets can start. -/
theorem prepared_of_stageAll (ht : t.WellFormed) (hs : Separate directory files)
    (h : stageAll faults directory files 0 t = (t₁, staged, .ok ())) :
    staged = (files.map (target directory)).map stage ∧ Prepared directory files t t₁ := by
  obtain ⟨hstaging, hlen⟩ := staging_stageAll ht hs.distinct h
  have hlen := hlen rfl
  have htorn : tornAt faults directory files 0 t.working staged.length = [] := by
    simp [tornAt, hlen]
  have hprepared := hstaging.prepared hs htorn
  have hstaged := hstaging.staged_eq
  rw [hlen, List.take_length] at hprepared hstaged
  refine ⟨?_, hprepared⟩
  rw [hstaged, List.map_map]
  rfl

/-- Moving what was staged is a run over the targets. -/
theorem Prepared.moves (h : Prepared directory files t t₁)
    (hstaged : staged = (files.map (target directory)).map stage)
    (hm : moveAll faults staged i t₁ = (t₂, moved, stop)) :
    Moves faults t.working i (files.map (target directory)) t₁ t₂ moved stop := by
  have hrun : Moves faults t.working i (files.map (target directory)) t₁
      (moveAll faults staged i t₁).1 (moveAll faults staged i t₁).2.1
      (moveAll faults staged i t₁).2.2 := by
    rw [hstaged]
    exact moves_moveAll h.ready
  rwa [hm] at hrun

/-- Whether something stands at a target is not changed by staging. -/
theorem Prepared.none_iff (h : Prepared directory files t t₁) (hs : Separate directory files)
    {f : GeneratedFile} (hf : f ∈ files) :
    t₁.find? ((target directory f).place t.working) = none ↔
      t.find? ((target directory f).place t.working) = none := by
  have hdir := h.directory_iff f hf
  have hfile := fun c => h.file_iff _ c fun g hg => hs.place_ne_staging hf hg t.working
  cases h₁ : t₁.find? ((target directory f).place t.working) with
  | none =>
    cases h₀ : t.find? ((target directory f).place t.working) with
    | none => rfl
    | some e =>
      rw [h₁, h₀] at hdir hfile
      cases e with
      | directory => exact absurd (hdir.mpr rfl) (by simp)
      | file c => exact absurd ((hfile c).mpr rfl) (by simp)
  | some e =>
    cases e with
    | directory => simp [hdir.mp h₁]
    | file c => simp [(hfile c).mp h₁]

/-- If no file stood at a staging name, taking away what is staged leaves the files as they
were. -/
theorem Prepared.sameFiles (h : Prepared directory files t t₁)
    (hv : ∀ f ∈ files, ∀ c,
      t.find? ((target directory f).staging.place t.working) ≠ some (.file c))
    (hgone : ∀ f ∈ files, t'.find? ((target directory f).staging.place t.working) = none)
    (hkept : ∀ r, (∀ f ∈ files, r ≠ (target directory f).staging.place t.working) →
      t'.find? r = t₁.find? r) : SameFiles t t' := by
  intro r c
  -- At a staging name no file stood before and none stands now; at any other place nothing was done
  -- since staging.
  by_cases hr : ∃ f ∈ files, r = (target directory f).staging.place t.working
  · obtain ⟨f, hf, rfl⟩ := hr
    rw [hgone f hf]
    exact ⟨fun h => (nomatch h), fun h => absurd h (hv f hf c)⟩
  · have hr : ∀ f ∈ files, r ≠ (target directory f).staging.place t.working :=
      fun f hf he => hr ⟨f, hf, he⟩
    rw [hkept r hr, h.file_iff r c hr]

/-- What is staged can be removed again. -/
theorem Ready.removable_staging (h : Ready w ps t) : Removable (ps.map Path.staging) := by
  intro p hp
  obtain ⟨q, hq, rfl⟩ := List.mem_map.mp hp
  exact ⟨(h.normal q hq).staging, h.fits q hq⟩

/-- Nothing has been moved, so there is nothing to undo. -/
theorem Ready.restored (h : Ready w ps t) : Restored w ps t t :=
  ⟨h.rooted, h.working, fun _ _ => rfl, fun _ _ => .inr rfl⟩

/-- Staged files can be removed, whether or not the moves were undone. -/
theorem discard_staging (hr : Ready w ps t₁) (h : Restored w ps t₁ t') :
    ∃ t'', discard (ps.map Path.staging) t' = (t'', .ok ()) ∧
      (∀ p ∈ ps, t''.find? (p.staging.place w) = none) ∧
      ∀ r, (∀ p ∈ ps, r ≠ p.staging.place w) → t''.find? r = t₁.find? r := by
  have hremovable := hr.removable_staging
  have hworking := h.working
  have hok : ∃ t'', discard (ps.map Path.staging) t' = (t'', .ok ()) := by
    refine discard_eq_ok h.rooted hremovable (fun p hp => ?_) (fun p hp => ?_)
    · obtain ⟨q, hq, rfl⟩ := List.mem_map.mp hp
      have hd := hr.above hq
      rw [hworking, Path.staging, Path.above_beside, h.find?, hd]
      -- A directory is no staged file.
      intro q' hq' he
      obtain ⟨c, hc⟩ := hr.staged q' hq'
      rw [← he, hd] at hc
      cases hc
    · obtain ⟨q, hq, rfl⟩ := List.mem_map.mp hp
      rw [hworking]
      obtain ⟨c, hc⟩ := hr.staged q hq
      rcases h.staging q hq with hnone | hsame
      · simp [hnone]
      · simp [hsame, hc]
  obtain ⟨t'', hok⟩ := hok
  obtain ⟨hgone, hkept⟩ := of_discard_eq_ok h.rooted hremovable hok
  rw [hworking] at hgone hkept
  refine ⟨t'', hok, fun p hp => (hgone _ (List.mem_map_of_mem hp)).2, fun r hr' => ?_⟩
  rw [hkept r fun p hp => ?_, h.find? r hr']
  obtain ⟨q, hq, rfl⟩ := List.mem_map.mp hp
  exact hr' q hq

/-- After a run to the end the backups are those of the targets where something stood. -/
theorem Moves.mem_backups (h : Moves faults w i ps t t' moved none) {b : Path} :
    b ∈ moved.filterMap Moved.backup ↔
      ∃ p ∈ ps, t.find? (p.place w) ≠ none ∧ b = p.backup := by
  rw [List.mem_filterMap]
  constructor
  · rintro ⟨m, hm, hb⟩
    obtain ⟨hp, hkept⟩ := h.kept hm
    obtain ⟨rfl, -, e, he, -⟩ := hkept.of_eq_some hb
    exact ⟨m.target, hp, by simp [he], rfl⟩
  · rintro ⟨p, hp, hstood, rfl⟩
    rw [← h.map_target] at hp
    obtain ⟨m, hm, rfl⟩ := List.mem_map.mp hp
    obtain ⟨-, ⟨-, hnone⟩ | ⟨hsome, -⟩⟩ := h.kept hm
    · exact absurd hnone hstood
    · exact ⟨m, hm, hsome⟩

/-- The backups that a run has made can be removed. -/
theorem Moves.removable_backups (h : Moves faults w i ps t t' moved stop) :
    Removable (moved.filterMap Moved.backup) := by
  intro b hb
  obtain ⟨m, hm, hb⟩ := List.mem_filterMap.mp hb
  obtain ⟨hp, hkept⟩ := h.kept hm
  obtain ⟨rfl, hf, -⟩ := hkept.of_eq_some hb
  exact ⟨(h.ready.normal _ hp).backup, hf⟩

/-- If the backups can be removed, no target was a directory. -/
theorem Moves.discarded (h : Moves faults w i ps t t₂ moved none)
    (hd : discard (moved.filterMap Moved.backup) t₂ = (t', .ok ())) :
    (∀ p ∈ ps, t.find? (p.place w) ≠ some .directory) ∧
      (∀ p ∈ ps, t.find? (p.place w) ≠ none → t'.find? (p.backup.place w) = none) ∧
      ∀ r, (∀ p ∈ ps, t.find? (p.place w) ≠ none → r ≠ p.backup.place w) →
        t'.find? r = t₂.find? r := by
  obtain ⟨hgone, hkept⟩ := of_discard_eq_ok h.rooted h.removable_backups hd
  rw [h.working] at hgone hkept
  -- A directory at a target would be at its backup now.
  refine ⟨fun p hp hdir => ?_, fun p hp hstood => ?_, fun r hr => ?_⟩
  · have hp' := hp
    rw [← h.map_target] at hp'
    obtain ⟨m, hm, rfl⟩ := List.mem_map.mp hp'
    obtain ⟨-, ⟨-, hnone⟩ | ⟨hsome, -, e, he, hk, -⟩⟩ := h.kept hm
    · rw [hdir] at hnone
      cases hnone
    · rw [hdir] at he
      cases he
      exact (hgone _ (List.mem_filterMap.mpr ⟨m, hm, hsome⟩)).1 hk
  · exact (hgone _ (h.mem_backups.mpr ⟨p, hp, hstood, rfl⟩)).2
  · refine hkept r fun b hb => ?_
    obtain ⟨p, hp, hstood, rfl⟩ := h.mem_backups.mp hb
    exact hr p hp hstood

/-! ### A call, by where it stops -/

/-- The last part of a call that fails: what is staged is removed. -/
theorem discardAndFail_of_ok {paths : List Path} {notes : List Note} {reason : WriteError}
    (h : discard paths t = (t', .ok ())) :
    discardAndFail paths t notes reason = (t', ⟨.error (.write reason), notes⟩) := by
  simp [discardAndFail, h]

/-- A call whose last part this is fails in any case, and gives the reason only if everything could
be removed. -/
theorem discardAndFail_error (paths : List Path) (t : FileTree) (notes : List Note)
    (reason : WriteError) :
    ∃ e, (discardAndFail paths t notes reason).2.outcome = .error e := by
  rcases hd : discard paths t with ⟨t', e | _⟩
  · exact ⟨.defect (.file e), by simp [discardAndFail, hd]⟩
  · exact ⟨.write reason, by simp [discardAndFail, hd]⟩

/-- If a call that fails gives its reason, everything that was staged is removed. -/
theorem of_discardAndFail {paths : List Path} {notes : List Note} {reason reason' : WriteError}
    (h : (discardAndFail paths t notes reason).2.outcome = .error (.write reason')) :
    discard paths t = ((discardAndFail paths t notes reason).1, .ok ()) := by
  rcases hd : discard paths t with ⟨t', e | _⟩
  · simp only [discardAndFail, hd] at h
    cases h
  · simp [discardAndFail, hd]

/-- A defect while staging ends the call, and what is staged stays. -/
theorem writeAll_defect {d : Defect}
    (h : stageAll faults directory files 0 t = (t₁, staged, .error (.defect d))) :
    writeAll faults directory files t = (t₁, Logged.fail (.defect d)) := by
  simp [writeAll, h]

/-- A file that cannot be staged ends the call, and what is staged is removed. -/
theorem writeAll_refused {path : String}
    (h : stageAll faults directory files 0 t = (t₁, staged, .error (.refused path))) :
    writeAll faults directory files t
      = discardAndFail (staged.map Staged.temporary) t₁ [] (.staging path) := by
  simp [writeAll, h]

/-- A rename that is refused ends the call: what was moved is put back, the last move first, and
what is staged is removed. -/
theorem writeAll_stopped {p : Path}
    (h : stageAll faults directory files 0 t = (t₁, staged, .ok ()))
    (hm : moveAll faults staged 0 t₁ = (t₂, moved, some p)) :
    ∃ notes, writeAll faults directory files t
      = discardAndFail (staged.map Staged.temporary) (moved.foldr undo t₂) notes
        (.moving p.text) := by
  refine ⟨(rollback moved.reverse t₂).2, ?_⟩
  rw [← rollback_reverse_fst]
  simp [writeAll, h, hm]

/-- A backup that cannot be removed ends the call with a defect, and what was moved stays. -/
theorem writeAll_kept {e : FileError}
    (h : stageAll faults directory files 0 t = (t₁, staged, .ok ()))
    (hm : moveAll faults staged 0 t₁ = (t₂, moved, none))
    (hd : discard (moved.filterMap Moved.backup) t₂ = (t', .error e)) :
    writeAll faults directory files t = (t', Logged.fail (.defect (.file e))) := by
  simp [writeAll, h, hm, hd]

/-- A call that is refused nothing returns the targets. -/
theorem writeAll_done (h : stageAll faults directory files 0 t = (t₁, staged, .ok ()))
    (hm : moveAll faults staged 0 t₁ = (t₂, moved, none))
    (hd : discard (moved.filterMap Moved.backup) t₂ = (t', .ok ())) :
    (writeAll faults directory files t).1 = t' ∧
      (writeAll faults directory files t).2.outcome = .ok (staged.map Staged.target) := by
  simp [writeAll, h, hm, hd]

/-- The sink after a call has the tree that writing left. -/
theorem call_tree (faults : Faults) (s : FileSink) (files : List GeneratedFile) :
    (s.call faults files).1.tree = (writeAll faults s.directory files s.tree).1 := by
  unfold call
  split
  · rename_i h
    rw [h]
  · rename_i h
    rw [h]

/-- A call succeeds or fails as writing does. -/
theorem call_outcome (faults : Faults) (s : FileSink) (files : List GeneratedFile) :
    (s.call faults files).2.outcome
      = (writeAll faults s.directory files s.tree).2.outcome.map fun _ => () := by
  unfold call
  split
  · rename_i h
    rw [h]
    rfl
  · rename_i h
    rw [h]
    rfl

/-- A call fails exactly as writing does, with the same reason. -/
theorem call_error_iff (faults : Faults) (s : FileSink) (files : List GeneratedFile)
    (e : Failure) :
    (s.call faults files).2.outcome = .error e ↔
      (writeAll faults s.directory files s.tree).2.outcome = .error e := by
  rw [call_outcome]
  cases (writeAll faults s.directory files s.tree).2.outcome <;> simp [Except.map]

/-- A call that succeeds remembers the targets that were written. -/
theorem call_of_ok {s : FileSink} (h : (s.call faults files).2.outcome = .ok ()) :
    (writeAll faults s.directory files s.tree).2.outcome
      = .ok (s.call faults files).1.written := by
  unfold call at h ⊢
  split
  · rename_i hw
    rw [hw]
  · rename_i hw
    rw [hw] at h
    cases h

end TypedClient.FileSink
