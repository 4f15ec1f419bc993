import TypedClient.Generation.Run

/-!
# `TypedClient.Proofs.Generation.Stages`: what one stage does

Each stage has one equation for the case that it is its turn, and one for every other
case. A stage that fails, out of turn or in its own work, leaves the progress as it was.

* `load_of_idle`, `extract_of_specLoaded`, `resolve_of_extracted`, `write_of_resolved`: a
  stage at its turn.
* `run_of_idle_ok`, `run_of_idle_error`: a run from idle. It hands what `Source.rendered`
  gives to the sink, and nothing if that fails.
-/

set_option autoImplicit false

namespace TypedClient

/-- The note about the stage that a run has entered. -/
def Stage.note (stage : Stage) : Note := ⟨.info, .generation, "Stage: " ++ stage.name⟩

/-- The files of the package of a document. -/
def Document.package (settings : Settings) (document : Document) :
    Except Failure (List GeneratedFile) := do
  let endpoints ← document.endpoints.outcome
  (Package.render document endpoints settings).outcome

/-- The files that a source comes to: what the stages before the sink make of it. -/
def Source.rendered (settings : Settings) (source : Source) :
    Except Failure (List GeneratedFile) :=
  source.document >>= Document.package settings

/-- A document comes to a package exactly if its endpoints can be read and the package of those can
be rendered. -/
theorem Document.package_eq_ok_iff {settings : Settings} {d : Document}
    {fs : List GeneratedFile} : d.package settings = .ok fs ↔
      ∃ es, d.endpoints.outcome = .ok es ∧ (Package.render d es settings).outcome = .ok fs :=
  bind_eq_ok_iff

/-- A source comes to files exactly if it comes to a document with a package. -/
theorem Source.rendered_eq_ok_iff {settings : Settings} {source : Source}
    {fs : List GeneratedFile} : source.rendered settings = .ok fs ↔
      ∃ d, source.document = .ok d ∧ d.package settings = .ok fs :=
  bind_eq_ok_iff

namespace Progress

variable {σ : Type} {p : Progress}

/-- A stage that is entered at its turn is the new stage, and nothing else changes. -/
theorem run_enter {expected : Stage} (target : Stage) (h : p.stage = expected) :
    (enter expected target).run p = ({ p with stage := target }, ⟨.ok (), [target.note]⟩) := by
  show Work.run (Work.state >>= fun p => _) p = _
  rw [Work.run_bind_ok (Work.run_state p)]
  simp only [h, ↓reduceIte]
  -- The stage that is looked up is the expected one, so it is not refused.
  rw [Work.run_bind_ok (Work.run_change _ p)]
  rfl

/-- The shape of the stages up to the sink: make something, keep it, enter the next stage.
What is kept must not touch the stage, which `enter` still looks at. -/
theorem run_make {α : Type} {expected : Stage} (target : Stage) (h : p.stage = expected)
    (x : Logged α) (keep : α → Progress → Progress) (hk : ∀ a, (keep a p).stage = p.stage) :
    (do let a ← Work.ofLogged x; Work.change (keep a); enter expected target; pure a).run p
      = match x.outcome with
        | .ok a => ({ keep a p with stage := target }, ⟨.ok a, x.notes ++ [target.note]⟩)
        | .error f => (p, ⟨.error f, x.notes⟩) := by
  -- If nothing is made the work stops before anything is kept.
  obtain ⟨outcome, notes⟩ := x
  cases outcome with
  | error f => rw [Work.run_bind_error (Work.run_ofLogged _ p)]
  | ok a =>
    rw [Work.run_bind_ok (Work.run_ofLogged _ p), Work.run_bind_ok (Work.run_change _ p),
      Work.run_bind_ok (run_enter target ((hk a).trans h))]
    rfl

/-! ### Loading, extracting, rendering -/

/-- Loading at its turn: the document of the source is kept, or nothing changes if there is none. -/
theorem load_of_idle (h : p.stage = .idle) (source : Source) :
    p.load source = match source.document with
      | .ok d => ({ p with stage := .specLoaded, document? := some d },
          ⟨.ok d, [Stage.note .specLoaded]⟩)
      | .error f => (p, ⟨.error f, []⟩) := by
  unfold load
  rw [if_pos h, run_make .specLoaded h _ (fun d p => { p with document? := some d })
    fun _ => rfl]
  cases source.document <;> rfl

/-- Loading out of turn is refused, and nothing changes. -/
theorem load_of_ne (h : p.stage ≠ .idle) (source : Source) :
    p.load source = (p, Logged.fail (.generation (.loadWhile p.stage))) := by
  unfold load
  rw [if_neg h]

/-- Loading that fails leaves the progress as it was, for whichever of the two reasons. -/
theorem load_fst_of_error {source : Source} {f : Failure}
    (hf : (p.load source).2.outcome = .error f) : (p.load source).1 = p := by
  by_cases hs : p.stage = .idle
  · rw [load_of_idle hs] at hf ⊢
    cases hd : source.document with
    | error g => rfl
    | ok d => rw [hd] at hf; cases hf
  · rw [load_of_ne hs]

/-- Extracting at its turn: the endpoints of the document are kept, or nothing changes. -/
theorem extract_of_specLoaded {d : Document} (h : p.stage = .specLoaded)
    (hd : p.document? = some d) :
    p.extract = match d.endpoints.outcome with
      | .ok es => ({ p with stage := .extracted, endpoints := es },
          ⟨.ok es, d.endpoints.notes ++ [Stage.note .extracted]⟩)
      | .error f => (p, ⟨.error f, d.endpoints.notes⟩) := by
  unfold extract
  split
  · rename_i d' _ hd'
    cases hd.symm.trans hd'
    rw [run_make .extracted h _ (fun es p => { p with endpoints := es }) fun _ => rfl]
    cases d.endpoints.outcome <;> rfl
  · rename_i hne
    exact absurd hd (hne d h)

/-- Extracting without a document that has just been loaded is refused. -/
theorem extract_of_ne (h : p.stage = .specLoaded → p.document? = none) :
    p.extract = (p, Logged.fail (.generation (.extractWhile p.stage))) := by
  unfold extract
  split
  · -- It would be its turn if there were a document as well.
    rename_i hs hd
    cases (h hs).symm.trans hd
  · rfl

/-- Extracting that fails leaves the progress as it was. -/
theorem extract_fst_of_error {f : Failure} (hf : p.extract.2.outcome = .error f) :
    p.extract.1 = p := by
  by_cases hs : p.stage = .specLoaded ∧ ∃ d, p.document? = some d
  · obtain ⟨hs, d, hd⟩ := hs
    rw [extract_of_specLoaded hs hd] at hf ⊢
    cases he : d.endpoints.outcome with
    | error g => rfl
    | ok es => rw [he] at hf; cases hf
  · rw [extract_of_ne fun hs' => Option.eq_none_iff_forall_ne_some.mpr fun d hd =>
      hs ⟨hs', d, hd⟩]

/-- Rendering at its turn: the files of the package are kept, or nothing changes. -/
theorem resolve_of_extracted {d : Document} (settings : Settings) (h : p.stage = .extracted)
    (hd : p.document? = some d) :
    p.resolve settings = match (Package.render d p.endpoints settings).outcome with
      | .ok fs => ({ p with stage := .resolved, files := fs },
          ⟨.ok fs, (Package.render d p.endpoints settings).notes ++ [Stage.note .resolved]⟩)
      | .error f => (p, ⟨.error f, (Package.render d p.endpoints settings).notes⟩) := by
  unfold resolve
  split
  · rename_i d' _ hd'
    cases hd.symm.trans hd'
    rw [run_make .resolved h _ (fun fs p => { p with files := fs }) fun _ => rfl]
    cases (Package.render d p.endpoints settings).outcome <;> rfl
  · rename_i hne
    exact absurd hd (hne d h)

/-- Rendering without endpoints that have just been extracted is refused. -/
theorem resolve_of_ne (settings : Settings) (h : p.stage = .extracted → p.document? = none) :
    p.resolve settings = (p, Logged.fail (.generation (.renderWhile p.stage))) := by
  unfold resolve
  split
  · rename_i hs hd
    cases (h hs).symm.trans hd
  · rfl

/-- Rendering that fails leaves the progress as it was. -/
theorem resolve_fst_of_error {settings : Settings} {f : Failure}
    (hf : (p.resolve settings).2.outcome = .error f) : (p.resolve settings).1 = p := by
  by_cases hs : p.stage = .extracted ∧ ∃ d, p.document? = some d
  · obtain ⟨hs, d, hd⟩ := hs
    rw [resolve_of_extracted settings hs hd] at hf ⊢
    cases he : (Package.render d p.endpoints settings).outcome with
    | error g => rfl
    | ok fs => rw [he] at hf; cases hf
  · rw [resolve_of_ne settings fun hs' => Option.eq_none_iff_forall_ne_some.mpr fun d hd =>
      hs ⟨hs', d, hd⟩]

/-! ### Writing -/

/-- Writing at its turn: the sink is handed the files once. If it fails the files are kept, so that
writing can be tried again; what the sink did meanwhile is its own state. -/
theorem write_of_resolved (sink : Sink σ) (s : σ) (h : p.stage = .resolved) :
    p.write sink s = match (sink s p.files).2.outcome with
      | .ok () => ({ p with stage := .written }, (sink s p.files).1,
          ⟨.ok p.files, (sink s p.files).2.notes ++ [Stage.note .written]⟩)
      | .error f => (p, (sink s p.files).1, ⟨.error f, (sink s p.files).2.notes⟩) := by
  -- The work around the sink is that of the other stages, but the state of the sink is kept beside
  -- it.
  have hrun : (do Work.ofLogged (sink s p.files).2; enter .resolved .written; pure p.files).run p
      = match (sink s p.files).2.outcome with
        | .ok () => ({ p with stage := .written },
            ⟨.ok p.files, (sink s p.files).2.notes ++ [Stage.note .written]⟩)
        | .error f => (p, ⟨.error f, (sink s p.files).2.notes⟩) := by
    obtain ⟨outcome, notes⟩ := (sink s p.files).2
    cases outcome with
    | error f => exact Work.run_bind_error (Work.run_ofLogged _ p) _
    | ok u =>
      rw [Work.run_bind_ok (Work.run_ofLogged _ p), Work.run_bind_ok (run_enter .written h)]
      rfl
  unfold write
  rw [if_pos h]
  simp only [hrun]
  cases (sink s p.files).2.outcome <;> rfl

/-- Writing without files that have just been rendered is refused before the sink is asked. -/
theorem write_of_ne (sink : Sink σ) (s : σ) (h : p.stage ≠ .resolved) :
    p.write sink s = (p, s, Logged.fail (.generation (.writeWhile p.stage))) := by
  unfold write
  rw [if_neg h]

/-- Writing that fails leaves the progress as it was, though not necessarily the sink. -/
theorem write_fst_of_error {sink : Sink σ} {s : σ} {f : Failure}
    (hf : (p.write sink s).2.2.outcome = .error f) : (p.write sink s).1 = p := by
  by_cases hs : p.stage = .resolved
  · rw [write_of_resolved sink s hs] at hf ⊢
    cases ho : (sink s p.files).2.outcome with
    | error g => rfl
    | ok u => rw [ho] at hf; cases hf
  · rw [write_of_ne sink s hs]

/-! ### Runs -/

/-- A run from idle whose source comes to no files hands nothing to the sink. -/
theorem run_of_idle_error {settings : Settings} {source : Source} {f : Failure}
    (sink : Sink σ) (s : σ) (h : p.stage = .idle) (hr : source.rendered settings = .error f) :
    ∃ notes, p.run settings sink source s = (idle, s, ⟨.error f, notes⟩) := by
  unfold run stages
  rw [if_pos h, load_of_idle h]
  unfold Source.rendered at hr
  -- Each stage up to rendering may be the one that fails, and the run is idle again after it.
  cases hd : source.document with
  | error g =>
    rw [hd] at hr
    cases hr
    exact ⟨_, rfl⟩
  | ok d =>
    rw [hd] at hr
    replace hr : (d.endpoints.outcome >>= fun es => (Package.render d es settings).outcome)
      = .error f := hr
    dsimp only
    rw [extract_of_specLoaded rfl rfl]
    cases he : d.endpoints.outcome with
    | error g =>
      rw [he] at hr
      cases hr
      exact ⟨_, rfl⟩
    | ok es =>
      rw [he] at hr
      replace hr : (Package.render d es settings).outcome = .error f := hr
      dsimp only
      rw [resolve_of_extracted settings rfl rfl, hr]
      exact ⟨_, rfl⟩

/-- A run from idle whose source comes to files hands them to the sink, once. It succeeds
if the sink does. -/
theorem run_of_idle_ok {settings : Settings} {source : Source} {fs : List GeneratedFile}
    (sink : Sink σ) (s : σ) (h : p.stage = .idle) (hr : source.rendered settings = .ok fs) :
    ∃ notes, p.run settings sink source s =
      (idle, (sink s fs).1, ⟨(sink s fs).2.outcome.map fun _ => fs, notes⟩) := by
  obtain ⟨d, hd, hp⟩ := Source.rendered_eq_ok_iff.mp hr
  obtain ⟨es, he, hf⟩ := Document.package_eq_ok_iff.mp hp
  unfold run stages
  -- Each stage is at its turn because the one before has just been entered.
  rw [if_pos h, load_of_idle h, hd]
  dsimp only
  rw [extract_of_specLoaded rfl rfl, he]
  dsimp only
  rw [resolve_of_extracted settings rfl rfl, hf]
  dsimp only
  rw [write_of_resolved sink s rfl]
  cases (sink s fs).2.outcome with
  | error g => exact ⟨_, rfl⟩
  | ok u => exact ⟨_, rfl⟩

/-- A run out of turn is refused, and neither progress nor sink change. -/
theorem run_of_ne (settings : Settings) (sink : Sink σ) (source : Source) (s : σ)
    (h : p.stage ≠ .idle) :
    p.run settings sink source s = (p, s, Logged.fail (.generation (.runWhile p.stage))) := by
  unfold run
  rw [if_neg h]

end Progress

end TypedClient
