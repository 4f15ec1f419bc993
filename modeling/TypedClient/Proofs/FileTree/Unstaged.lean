import TypedClient.Proofs.FileTree.AllOrNothing

/-!
# `TypedClient.Proofs.FileTree.Unstaged`: what staging that stops leaves

If a file cannot be staged, the sink removes what it has staged so far and says which file it
was. Each file is noted as staged once it is written, so the list of what is to be removed does
not hold the file at which staging stops. That file is there nevertheless if the device broke
off the write (`Torn`). A path that holds NUL is reported in another way, and then nothing is
removed.

* `stageAll_append`, `of_stageAll_error`: staging goes through a first part of the files and
  stops at the one after it.
* `exists_discard`: the files staged before that one can be removed.
* `torn_left`: a torn write leaves its part of the file, and nothing else.
* `cleared_iff`: no file is left exactly if no write was torn and no path held NUL.
  `torn_and_nul_left` has a call of either kind.
-/

set_option autoImplicit false

namespace TypedClient.FileSink

variable {faults : Faults} {directory : Path} {before after files : List GeneratedFile}
variable {f : GeneratedFile} {t t₁ t' : FileTree} {staged : List Staged} {i : Nat} {e : FileError}
variable {stop : StagingStop} {left : ByteArray} {ws : List Place} {s : FileSink}

/-! ### Where staging stops -/

/-- What is staged of a first part of the files is staged of all of them. -/
theorem stageAll_append (hn : ∀ g ∈ before, (target directory g).Normal)
    (h : stageAll faults directory before i t = (t₁, staged, .ok ())) (after : List GeneratedFile) :
    stageAll faults directory (before ++ after) i t =
      let (t, staged', r) := stageAll faults directory after (i + before.length) t₁
      (t, staged ++ staged', r) := by
  induction before generalizing i t staged with
  | nil =>
    cases h
    rfl
  | cons g rest ih =>
    obtain ⟨hg, hrest⟩ := List.forall_mem_cons.mp hn
    rw [stageAll_cons hg] at h
    rw [List.cons_append, stageAll_cons hg]
    rcases hstage : stageAt t (faults.staging i) (stage (target directory g)) g.content
      with ⟨t₂, e | _⟩
    · rw [hstage] at h
      cases h
    · rcases hstaged : stageAll faults directory rest (i + 1) t₂ with ⟨t₃, staged₃, r₃⟩
      simp only [hstage, hstaged, Prod.mk.injEq] at h
      -- The first file was staged, so the rest is staged from the next number on.
      obtain ⟨rfl, rfl, rfl⟩ := h
      have hlength : i + 1 + rest.length = i + (g :: rest).length := by
        rw [List.length_cons]
        omega
      simp only [ih hrest hstaged, hlength, List.cons_append]

/-- Staging stops at the first file that cannot be staged. -/
theorem of_stageAll_error (hn : ∀ g ∈ files, (target directory g).Normal)
    (h : stageAll faults directory files i t = (t', staged, .error stop)) :
    ∃ before f after t₁ e, files = before ++ f :: after ∧
      stageAll faults directory before i t = (t₁, staged, .ok ()) ∧
      stageAt t₁ (faults.staging (i + before.length)) (stage (target directory f)) f.content
        = (t', .error e) ∧ stop = stagingStop f.path e := by
  induction files generalizing i t staged with
  | nil => cases h
  | cons g rest ih =>
    obtain ⟨hg, hrest⟩ := List.forall_mem_cons.mp hn
    rw [stageAll_cons hg] at h
    rcases hstage : stageAt t (faults.staging i) (stage (target directory g)) g.content
      with ⟨t₂, e | _⟩
    · simp only [hstage, Prod.mk.injEq, Except.error.injEq] at h
      obtain ⟨rfl, rfl, rfl⟩ := h
      -- The first file is the one that is refused.
      exact ⟨[], g, rest, t, e, rfl, rfl, hstage, rfl⟩
    · rcases hstaged : stageAll faults directory rest (i + 1) t₂ with ⟨t₃, staged₃, r₃⟩
      simp only [hstage, hstaged, Prod.mk.injEq] at h
      obtain ⟨rfl, rfl, rfl⟩ := h
      -- A later one is refused, and the first file is one of those that were staged.
      obtain ⟨before, f, after, t₁, e, rfl, hbefore, hstop, rfl⟩ := ih hrest hstaged
      refine ⟨g :: before, f, after, t₁, e, rfl, ?_, ?_, rfl⟩
      · rw [stageAll_cons hg]
        simp only [hstage, hbefore]
      · rw [← hstop, List.length_cons]
        congr 2
        omega

/-- Staging that gets through a first part of the files and not through the next one stops there,
for the reason of that file. -/
theorem stageAll_of_stopped (hn : ∀ g ∈ before ++ f :: after, (target directory g).Normal)
    (h : stageAll faults directory before i t = (t₁, staged, .ok ()))
    (hstop : stageAt t₁ (faults.staging (i + before.length)) (stage (target directory f)) f.content
      = (t', .error e)) :
    stageAll faults directory (before ++ f :: after) i t
      = (t', staged, .error (stagingStop f.path e)) := by
  obtain ⟨hbefore, hafter⟩ := List.forall_mem_append.mp hn
  rw [stageAll_append hbefore h, stageAll_cons (hafter f List.mem_cons_self), hstop]
  simp only [List.append_nil]

/-! ### Faults of the device -/

/-- A device that fails in whichever way lets no file through. -/
theorem fault_of_stageAt_ok {fault : Option StagingFault} {p : Staged} {content : String}
    (h : (stageAt t fault p content).2 = .ok ()) : fault = none := by
  unfold stageAt at h
  split at h
  · cases h
  · split at h
    · cases h
    · unfold writeStaged at h
      split at h
      · cases h
      · split at h <;> cases h
      · rename_i hnothing hpart
        -- The write went through, so the device neither refused the file nor left a part of it.
        match fault with
        | none => rfl
        | some .directories => contradiction
        | some (.file none) => exact absurd rfl hnothing
        | some (.file (some left)) => exact absurd rfl (hpart left)

/-- If staging comes to its end the device has failed for none of the files. -/
theorem fault_of_stageAll_ok (hn : ∀ g ∈ files, (target directory g).Normal)
    (h : (stageAll faults directory files i t).2.2 = .ok ()) :
    ∀ k < files.length, faults.staging (i + k) = none := by
  induction files generalizing i t with
  | nil => exact fun k hk => absurd hk (Nat.not_lt_zero k)
  | cons g rest ih =>
    obtain ⟨hg, hrest⟩ := List.forall_mem_cons.mp hn
    rw [stageAll_cons hg] at h
    rcases hstage : stageAt t (faults.staging i) (stage (target directory g)) g.content
      with ⟨t₂, e | _⟩
    · rw [hstage] at h
      cases h
    · rw [hstage] at h
      intro k hk
      cases k with
      | zero => exact fault_of_stageAt_ok (congrArg Prod.snd hstage)
      | succ k =>
        rw [← Nat.add_assoc, Nat.add_right_comm]
        exact ih hrest h k (Nat.lt_of_succ_lt_succ hk)

/-- What the device breaks off is torn, if it would have got through. -/
theorem exists_tornWrite {p : Path} {content : String} (ht : t.WellFormed) (hn : p.Normal)
    (h : (stageAt t none (stage p) content).2 = .ok ()) (left : ByteArray) :
    ∃ t', stageAt t (some (.file (some left))) (stage p) content = (t', .error .device) ∧
      TornWrite (some (.file (some left))) t t' p content left := by
  rcases hm : t.makeDirectories p.parent with ⟨tm, e | _⟩
  · simp only [stageAt, stage, hm] at h
    cases h
  · cases hw : tm.write p.staging content.toUTF8 with
    | error e =>
      simp only [stageAt, stage, hm, writeStaged, hw] at h
      cases h
    | ok t'' =>
      obtain ⟨t', hw'⟩ := FileTree.write_eq_ok_of_eq_ok hw left
      have hstage : stageAt t (some (.file (some left))) (stage p) content
          = (t', .error .device) := by
        simp only [stageAt, stage, hm, writeStaged, hw']
      obtain ⟨hlaid, -, hleft⟩ := laid_write ht hn hm hw'
      exact ⟨t', hstage, rfl, h, hlaid, hleft⟩

/-! ### Removing what is staged -/

/-- The files staged before staging stopped can be removed. Then the files are as before but at
the places `ws`, where the last file may have been begun. -/
theorem exists_discard (ht : t.WellFormed) (hd : Distinct directory (before ++ f :: after))
    (hv : ∀ g ∈ before, t.find? ((target directory g).staging.place t.working) = none)
    (hst : stageAll faults directory before 0 t = (t₁, staged, .ok ()))
    (hlaid : t₁.Laid t' [(target directory f).above t.working] ws)
    (hws : ws ⊆ [(target directory f).staging.place t.working]) :
    ∃ t'', discard (staged.map Staged.temporary) t' = (t'', .ok ()) ∧
      (∀ r ∈ ws, t''.find? r = t'.find? r) ∧
      ∀ r ∉ ws, ∀ c, t''.find? r = some (.file c) ↔ t.find? r = some (.file c) := by
  have hbefore := hd.sublist (List.sublist_append_left before (f :: after))
  obtain ⟨hstaging, hlength⟩ := staging_stageAll ht hbefore hst
  have hlength := hlength rfl
  have htemporary : staged.map Staged.temporary
      = before.map fun g => (target directory g).staging := by
    rw [hstaging.staged_eq, hlength, List.take_length, List.map_map]
    rfl
  have hwritten : ∀ g ∈ before, (target directory g).staging.Fits ∧
      t₁.find? ((target directory g).staging.place t.working) = some (.file g.content.toUTF8) := by
    have hwritten := hstaging.written
    rwa [hlength, List.take_length] at hwritten
  -- None of the files staged is the one that staging stopped at.
  have hapart : ∀ g ∈ before, (target directory g).staging.place t.working ∉ ws := by
    intro g hg hmem
    have hne := (List.pairwise_append.mp (hd.staging_ne t.working)).2.2 g hg f List.mem_cons_self
    exact hne (List.mem_singleton.mp (hws hmem))
  -- What was staged still stands when staging stops, and so all of it can be removed.
  have hfile : ∀ g ∈ before,
      t'.find? ((target directory g).staging.place t.working) = some (.file g.content.toUTF8) :=
    fun g hg => hlaid.keeps (hapart g hg) (hwritten g hg).2
  have hworking : t'.working = t.working := hlaid.working.trans hstaging.laid.working
  have hremovable : Removable (before.map fun g => (target directory g).staging) :=
    List.forall_mem_map.mpr fun g hg => ⟨(hbefore.normal g hg).staging, (hwritten g hg).1⟩
  obtain ⟨t'', hok⟩ : ∃ t'', discard (before.map fun g => (target directory g).staging) t'
      = (t'', .ok ()) := by
    refine discard_eq_ok hlaid.rooted hremovable (List.forall_mem_map.mpr fun g hg => ?_)
      (List.forall_mem_map.mpr fun g hg => ?_)
    · rw [← hworking] at hfile
      exact FileTree.above_of_find? hlaid.rooted (hbefore.normal g hg).staging (hfile g hg)
    · rw [hworking, hfile g hg]
      exact fun h => nomatch h
  obtain ⟨hgone, hkept⟩ := of_discard_eq_ok hlaid.rooted hremovable hok
  rw [hworking] at hgone hkept
  refine ⟨t'', htemporary ▸ hok, fun r hr => hkept r (List.forall_mem_map.mpr fun g hg => ?_),
    fun r hr c => ?_⟩
  · rintro rfl
    exact hapart g hg hr
  · by_cases hstaged : ∃ g ∈ before, r = (target directory g).staging.place t.working
    · -- Nothing stood at a staging name, and nothing stands there now.
      obtain ⟨g, hg, rfl⟩ := hstaged
      rw [(hgone _ (List.mem_map_of_mem hg)).2, hv g hg]
    · have hne : ∀ g ∈ before, r ≠ (target directory g).staging.place t.working :=
        fun g hg heq => hstaged ⟨g, hg, heq⟩
      -- Nothing was staged here, so neither staging nor removing has touched the place.
      rw [hkept r (List.forall_mem_map.mpr hne), hlaid.file_iff hr]
      refine hstaging.laid.file_iff ?_
      rw [hstaging.staged_eq, hlength, List.take_length, List.map_map]
      intro hmem
      rcases List.mem_append.mp hmem with hmem | hmem
      · obtain ⟨g, hg, rfl⟩ := List.mem_map.mp hmem
        exact hne g hg rfl
      · obtain ⟨g, hg, rfl⟩ := mem_tornAt hmem
        exact hne g hg rfl

/-- A call that stops at a file that is refused, whatever of it was written. -/
theorem exists_call_refused (ht : s.tree.WellFormed)
    (hd : Distinct s.directory (before ++ f :: after))
    (hv : ∀ g ∈ before ++ f :: after,
      s.tree.find? ((target s.directory g).staging.place s.tree.working) = none)
    (hst : stageAll faults s.directory before 0 s.tree = (t₁, staged, .ok ()))
    (hstop : stageAt t₁ (faults.staging before.length) (stage (target s.directory f)) f.content
      = (t', .error e)) (he : e ≠ .nulInPath)
    (hlaid : t₁.Laid t' [(target s.directory f).above s.tree.working] ws)
    (hws : ws ⊆ [(target s.directory f).staging.place s.tree.working]) :
    (s.call faults (before ++ f :: after)).2.outcome = .error (.write (.staging f.path)) ∧
      (∀ r ∈ ws, (s.call faults (before ++ f :: after)).1.tree.find? r = t'.find? r) ∧
      ∀ r ∉ ws, ∀ c, (s.call faults (before ++ f :: after)).1.tree.find? r = some (.file c) ↔
        s.tree.find? r = some (.file c) := by
  obtain ⟨t'', hdiscard, hleft, hsame⟩ :=
    exists_discard ht hd (fun g hg => hv g (List.mem_append_left _ hg)) hst hlaid hws
  rw [← Nat.zero_add before.length] at hstop
  have hall := stageAll_of_stopped hd.normal hst hstop
  rw [show stagingStop f.path e = .refused f.path by cases e <;> trivial] at hall
  have hwrite := writeAll_refused hall
  rw [discardAndFail_of_ok hdiscard] at hwrite
  rw [call_error_iff, call_tree, hwrite]
  exact ⟨rfl, hleft, hsame⟩

/-! ### Torn writes -/

/-- The files `before` are staged, and the device breaks off the write of the next one, which
it would have got through otherwise. -/
structure TornAfter (faults : Faults) (directory : Path) (t : FileTree)
    (before : List GeneratedFile) (f : GeneratedFile) (left : ByteArray) : Prop where
  fault_eq : faults.staging before.length = some (.file (some left))
  staged : (stageAll faults directory before 0 t).2.2 = .ok ()
  reached : (stageAt (stageAll faults directory before 0 t).1 none (stage (target directory f))
    f.content).2 = .ok ()

/-- The write of one of the files is torn. -/
def Torn (faults : Faults) (directory : Path) (files : List GeneratedFile) (t : FileTree) : Prop :=
  ∃ before f after left, files = before ++ f :: after ∧ TornAfter faults directory t before f left

/-- The call names the file, and of all the files the sink used on the way the torn one
remains. -/
theorem torn_left (ht : s.tree.WellFormed) (hd : Distinct s.directory (before ++ f :: after))
    (hv : ∀ g ∈ before ++ f :: after,
      s.tree.find? ((target s.directory g).staging.place s.tree.working) = none)
    (htorn : TornAfter faults s.directory s.tree before f left) :
    (s.call faults (before ++ f :: after)).2.outcome = .error (.write (.staging f.path)) ∧
      ∀ r c, (s.call faults (before ++ f :: after)).1.tree.find? r = some (.file c) ↔
        (r = (target s.directory f).staging.place s.tree.working ∧ c = left) ∨
          s.tree.find? r = some (.file c) := by
  obtain ⟨hfault, hstaged, hreached⟩ := htorn
  rcases hst : stageAll faults s.directory before 0 s.tree with ⟨t₁, staged, r⟩
  rw [hst] at hstaged hreached
  cases hstaged
  have hf : f ∈ before ++ f :: after := by simp
  obtain ⟨hstaging, -⟩ :=
    staging_stageAll ht (hd.sublist (List.sublist_append_left before (f :: after))) hst
  obtain ⟨t', hstop, hwrite⟩ :=
    exists_tornWrite (hstaging.laid.wellFormed ht) (hd.normal f hf) hreached left
  have hlaid := hwrite.laid
  have hleft := hwrite.left
  rw [hstaging.laid.working] at hlaid hleft
  rw [← hfault] at hstop
  obtain ⟨hcall, htear, hsame⟩ := exists_call_refused ht hd hv hst hstop (fun h => nomatch h) hlaid
    (List.Subset.refl _)
  refine ⟨hcall, fun r c => ?_⟩
  -- The torn file is the only difference, and nothing stood at its place before.
  by_cases hr : r = (target s.directory f).staging.place s.tree.working
  · rw [htear r (by simp [hr]), hr, hleft, hv f hf]
    simp [eq_comm]
  · rw [hsame r (by simpa using hr) c]
    simp [hr]

/-! ### Clearing up -/

/-- A call that failed while it staged files: it names the file, the files are as they were, and
none is left under a staging name. -/
structure Cleared (faults : Faults) (s : FileSink) (files : List GeneratedFile) : Prop where
  reason : ∃ f ∈ files, (s.call faults files).2.outcome = .error (.write (.staging f.path))
  same : SameFiles s.tree (s.call faults files).1.tree
  gone : ∀ f ∈ files, ∀ c, (s.call faults files).1.tree.find?
    ((target s.directory f).staging.place s.tree.working) ≠ some (.file c)

/-- Staging that stops with no write torn and over no NUL clears up after itself. -/
theorem cleared_of_untorn (ht : s.tree.WellFormed) (hd : Distinct s.directory files)
    (hv : ∀ f ∈ files, s.tree.find? ((target s.directory f).staging.place s.tree.working) = none)
    (hst : stageAll faults s.directory files 0 s.tree = (t', staged, .error stop))
    (hnul : ∀ d, stop ≠ .defect d) (htorn : ¬ Torn faults s.directory files s.tree) :
    Cleared faults s files := by
  obtain ⟨before, f, after, t₁, e, rfl, hbefore, hstop, rfl⟩ := of_stageAll_error hd.normal hst
  rw [Nat.zero_add] at hstop
  have hf : f ∈ before ++ f :: after := by simp
  obtain ⟨hstaging, -⟩ :=
    staging_stageAll ht (hd.sublist (List.sublist_append_left before (f :: after))) hbefore
  have hlaid : t₁.Laid t' [(target s.directory f).above s.tree.working] [] := by
    -- A file that is refused was not begun, unless it was torn.
    rcases stageAt_stage (hstaging.laid.wellFormed ht) (hd.normal f hf)
      (faults.staging before.length) f.content
      with ⟨_, hok, -⟩ | ⟨_, _, herror, hlaid | ⟨left, hwrite⟩⟩
    · rw [hstop] at hok
      cases hok
    · rw [hstop] at herror
      cases herror
      rwa [hstaging.laid.working] at hlaid
    · refine absurd ⟨before, f, after, left, rfl, hwrite.fault_eq, ?_, ?_⟩ htorn
      · rw [hbefore]
      · rw [hbefore]
        exact hwrite.reached
  have he : e ≠ .nulInPath := by
    rintro rfl
    exact hnul _ rfl
  obtain ⟨hcall, -, hsame⟩ :=
    exists_call_refused ht hd hv hbefore hstop he hlaid (List.nil_subset _)
  have hsame : SameFiles s.tree (s.call faults (before ++ f :: after)).1.tree :=
    fun r c => hsame r List.not_mem_nil c
  refine ⟨⟨f, hf, hcall⟩, hsame, fun g hg c hfile => ?_⟩
  have hfile := (hsame _ c).mp hfile
  rw [hv g hg] at hfile
  cases hfile

/-- A device that fails for one of the files stops the staging. Staging that stops, for this or
any other reason, leaves nothing behind exactly if no write was torn and no path held NUL. -/
theorem cleared_iff (ht : s.tree.WellFormed) (hd : Distinct s.directory files)
    (hv : ∀ f ∈ files, s.tree.find? ((target s.directory f).staging.place s.tree.working) = none) :
    ((∃ k < files.length, faults.staging k ≠ none) →
        (stageAll faults s.directory files 0 s.tree).2.2 ≠ .ok ()) ∧
      ((stageAll faults s.directory files 0 s.tree).2.2 ≠ .ok () →
        (Cleared faults s files ↔ ¬ Torn faults s.directory files s.tree ∧
          ∀ d, (stageAll faults s.directory files 0 s.tree).2.2 ≠ .error (.defect d))) := by
  constructor
  · rintro ⟨k, hk, hfault⟩ hok
    have hnone := fault_of_stageAll_ok hd.normal hok k hk
    rw [Nat.zero_add] at hnone
    exact hfault hnone
  · intro hstop
    rcases hst : stageAll faults s.directory files 0 s.tree with ⟨t', staged, stop | _⟩
    · constructor
      · intro h
        refine ⟨?_, fun d hdefect => ?_⟩
        · -- A torn write leaves a file at a staging name.
          rintro ⟨before, f, after, left, rfl, htorn⟩
          obtain ⟨-, hfiles⟩ := torn_left ht hd hv htorn
          exact h.gone f (by simp) left ((hfiles _ left).mpr (.inl ⟨rfl, rfl⟩))
        · -- A defect is no failure that names a file.
          obtain ⟨f, -, hreason⟩ := h.reason
          cases hdefect
          rw [call_error_iff, writeAll_defect hst] at hreason
          cases hreason
      · rintro ⟨htorn, hnul⟩
        exact cleared_of_untorn ht hd hv hst (fun d hdefect => hnul d (by rw [hdefect])) htorn
    · rw [hst] at hstop
      exact absurd rfl hstop

/-- The device fails once, while it stages the file with the number `k`. -/
def failingAt (k : Nat) (fault : StagingFault) : Faults :=
  ⟨fun i => if i = k then some fault else none, fun _ => false, fun _ => false⟩

/-- The second file cannot even be created, and the first one is removed again. -/
theorem cleared_second_refused :
    (outputWith []).tree.WellFormed ∧
      Distinct (outputWith []).directory [⟨"a.ts", "1"⟩, ⟨"b.ts", "22"⟩] ∧
      (∀ f ∈ ([⟨"a.ts", "1"⟩, ⟨"b.ts", "22"⟩] : List GeneratedFile), (outputWith []).tree.find?
        ((target (outputWith []).directory f).staging.place (outputWith []).tree.working) = none) ∧
      Cleared (failingAt 1 (.file none)) (outputWith []) [⟨"a.ts", "1"⟩, ⟨"b.ts", "22"⟩] := by
  have ht : (outputWith []).tree.WellFormed := by decide +kernel
  have hd : Distinct (outputWith []).directory [⟨"a.ts", "1"⟩, ⟨"b.ts", "22"⟩] := by
    decide +kernel
  have hv : ∀ f ∈ ([⟨"a.ts", "1"⟩, ⟨"b.ts", "22"⟩] : List GeneratedFile),
      (outputWith []).tree.find? ((target (outputWith []).directory f).staging.place
        (outputWith []).tree.working) = none := by
    decide +kernel
  obtain ⟨hfault, hcleared⟩ := @cleared_iff (failingAt 1 (.file none)) _ _ ht hd hv
  refine ⟨ht, hd, hv, (hcleared (hfault ⟨1, by decide, by decide⟩)).mpr ⟨?_, ?_⟩⟩
  · rintro ⟨before, f, after, left, -, ⟨htorn, -⟩⟩
    simp only [failingAt] at htorn
    split at htorn <;> cases htorn
  · have hrefused : (stageAll (failingAt 1 (.file none)) (outputWith []).directory
        [⟨"a.ts", "1"⟩, ⟨"b.ts", "22"⟩] 0 (outputWith []).tree).2.2
          = .error (.refused "b.ts") := rfl
    rw [hrefused]
    exact fun d h => nomatch h

/-- The device is full after the first character of the second file, and that character stays.
Of the file whose path holds NUL nothing is written, but the one before it stays as it was
staged, and the failure is no reported one. -/
theorem torn_and_nul_left :
    (Separate (outputWith []).directory [⟨"a.ts", "1"⟩, ⟨"b.ts", "22"⟩] ∧
      Vacant (outputWith []).directory [⟨"a.ts", "1"⟩, ⟨"b.ts", "22"⟩] (outputWith []).tree ∧
      ((outputWith []).call (failingAt 1 (.file (some "2".toUTF8)))
        [⟨"a.ts", "1"⟩, ⟨"b.ts", "22"⟩]).2.outcome = .error (.write (.staging "b.ts")) ∧
      ((outputWith []).call (failingAt 1 (.file (some "2".toUTF8)))
        [⟨"a.ts", "1"⟩, ⟨"b.ts", "22"⟩]).1.tree.find? ["out", "b.ts.tsclientgen-tmp"]
          = some (.file "2".toUTF8)) ∧
    Separate (outputWith []).directory [⟨"a.ts", "1"⟩, ⟨"b\x00/c.ts", "2"⟩] ∧
      Vacant (outputWith []).directory [⟨"a.ts", "1"⟩, ⟨"b\x00/c.ts", "2"⟩] (outputWith []).tree ∧
      ((outputWith []).call Faults.none
        [⟨"a.ts", "1"⟩, ⟨"b\x00/c.ts", "2"⟩]).2.outcome = .error (.defect (.file .nulInPath)) ∧
      ((outputWith []).call Faults.none
        [⟨"a.ts", "1"⟩, ⟨"b\x00/c.ts", "2"⟩]).1.tree.find? ["out", "a.ts.tsclientgen-tmp"]
          = some (.file "1".toUTF8) :=
  ⟨⟨by decide +kernel, by decide +kernel, by decide +kernel, rfl⟩,
    by decide +kernel, by decide +kernel, by decide +kernel, rfl⟩

end TypedClient.FileSink
