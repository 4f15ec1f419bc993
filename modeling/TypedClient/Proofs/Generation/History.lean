import Mathlib.Data.List.Basic
import TypedClient.Proofs.Generation.Stages

/-!
# `TypedClient.Proofs.Generation.History`: sequences of calls

A generator can be called in any order, with any sources, and its sink may take the files
or fail at every call. A `History` follows a sequence of calls: the progress, the sink, and
the `Event`s seen from outside, which are the documents loaded and the files handed over.

* `Progress.Sound`: the stage says which data there is.
* `Orderly`: the sink is handed the package of the document loaded last, and takes at most
  one for every document loaded.
* `lawful_after`: after every sequence of calls the progress is sound, a stage that fails
  has changed nothing, a run ends as it began, and the events are orderly.
-/

set_option autoImplicit false

namespace TypedClient

/-- What is seen of a generator from outside. -/
inductive Event where
  | loaded (document : Document)
  /-- The sink was handed files, and took them or failed. -/
  | handed (files : List GeneratedFile) (taken : Bool)

/-- The failure of a computation, if it fails. -/
def Logged.failure? {α : Type} (x : Logged α) : Option Failure :=
  match x.outcome with
  | .ok _ => none
  | .error f => some f

/-- The failure is there exactly if the outcome is that failure; notes play no part. -/
theorem Logged.failure?_eq_some_iff {α : Type} {x : Logged α} {f : Failure} :
    x.failure? = some f ↔ x.outcome = .error f := by
  unfold Logged.failure?
  cases x.outcome <;> simp

/-- The sink, keeping a record of what it is handed. -/
def Sink.watched {σ : Type} (sink : Sink σ) : Sink (σ × List Event) := fun (s, seen) files =>
  (((sink s files).1, seen ++ [.handed files (sink s files).2.outcome.isOk]), (sink s files).2)

/-- A generator after some calls, and what was seen of it. -/
structure History (σ : Type) where
  progress : Progress
  sink : σ
  events : List Event

namespace History

variable {σ : Type}

/-- A call on a generator. -/
inductive Call where
  | load (source : Source)
  | extract
  | resolve
  | write
  | reset
  | run (source : Source)

/-- The progress and the sink after a call, and the failure that it raises, if it does. -/
def Call.apply (settings : Settings) (sink : Sink σ) (p : Progress) (s : σ) :
    Call → Progress × σ × Option Failure
  | load source => ((p.load source).1, s, (p.load source).2.failure?)
  | extract => (p.extract.1, s, p.extract.2.failure?)
  | resolve => ((p.resolve settings).1, s, (p.resolve settings).2.failure?)
  | write => ((p.write sink s).1, (p.write sink s).2.1, (p.write sink s).2.2.failure?)
  | reset => (p.reset, s, none)
  | run source => ((p.run settings sink source s).1, (p.run settings sink source s).2.1,
      (p.run settings sink source s).2.2.failure?)

/-- The document that a call loads. A run begins by loading. -/
def Call.loads (p : Progress) : Call → List Event
  | load source | run source => match (p.load source).2.outcome with
    | .ok d => [.loaded d]
    | .error _ => []
  | _ => []

/-- The files that a call hands to the sink. -/
def Call.hands (settings : Settings) (sink : Sink σ) (p : Progress) (s : σ) (c : Call) :
    List Event :=
  (c.apply settings sink.watched p (s, [])).2.1.2

/-- A fresh generator. -/
def start (s : σ) : History σ := ⟨Progress.idle, s, []⟩

/-- One more call. -/
def step (settings : Settings) (sink : Sink σ) (h : History σ) (c : Call) : History σ where
  progress := (c.apply settings sink h.progress h.sink).1
  sink := (c.apply settings sink h.progress h.sink).2.1
  events := h.events ++ c.loads h.progress ++ c.hands settings sink h.progress h.sink

/-- A fresh generator after calls. -/
def after (settings : Settings) (sink : Sink σ) (s : σ) (calls : List Call) : History σ :=
  calls.foldl (step settings sink) (start s)

end History

/-- The stage says which data there is, and where it comes from. -/
def Progress.Sound (settings : Settings) (p : Progress) : Prop :=
  match p.stage with
  | .idle => p.document? = none ∧ p.endpoints = [] ∧ p.files = []
  | .specLoaded => (∃ d, p.document? = some d) ∧ p.endpoints = [] ∧ p.files = []
  | .extracted => ∃ d, p.document? = some d ∧ d.endpoints.outcome = .ok p.endpoints ∧ p.files = []
  | .resolved | .written => ∃ d, p.document? = some d ∧ d.endpoints.outcome = .ok p.endpoints ∧
      (Package.render d p.endpoints settings).outcome = .ok p.files

/-- The document loaded last. -/
def lastLoaded (events : List Event) : Option Document :=
  events.foldl (fun last e => match e with
    | .loaded d => some d
    | .handed _ _ => last) none

/-- The sink is handed nothing but the package of the document loaded last, and between two
packages that it takes a document is loaded. -/
structure Orderly (settings : Settings) (events : List Event) : Prop where
  package : ∀ before fs taken after, events = before ++ .handed fs taken :: after →
    ∃ d, lastLoaded before = some d ∧ d.package settings = .ok fs
  once : ∀ before fs between fs' after,
    events = before ++ .handed fs true :: (between ++ .handed fs' true :: after) →
    ∃ d, .loaded d ∈ between

/-- What holds of a generator whatever has been called. -/
structure History.Lawful {σ : Type} (settings : Settings) (sink : Sink σ) (h : History σ) :
    Prop where
  sound : h.progress.Sound settings
  /-- A stage that fails leaves the progress as it was. -/
  kept : ∀ (c : Call) f, (∀ source, c ≠ .run source) →
    (c.apply settings sink h.progress h.sink).2.2 = some f →
    (c.apply settings sink h.progress h.sink).1 = h.progress
  /-- A run in progress refuses another one, which changes nothing. -/
  refused : ∀ source, h.progress.stage ≠ .idle →
    ∃ f, (Call.run source).apply settings sink h.progress h.sink = (h.progress, h.sink, some f)
  /-- A run from idle ends as a fresh generator, whether it succeeds or fails. -/
  fresh : ∀ source, h.progress.stage = .idle →
    ((Call.run source).apply settings sink h.progress h.sink).1 = Progress.idle
  orderly : Orderly settings h.events
  /-- A run that fails before its files are rendered hands nothing to the sink. -/
  unhanded : ∀ source f, h.progress.stage = .idle → source.rendered settings = .error f →
    (Call.run source).apply settings sink h.progress h.sink = (Progress.idle, h.sink, some f) ∧
    (Call.run source).hands settings sink h.progress h.sink = []

/-! ### Lists of events -/

/-- Where a list with one more element at its end is split at an element, that is the new
one, or the list without it is split there. -/
theorem append_singleton_eq_append_cons {α : Type} {xs before after : List α} {x y : α}
    (h : xs ++ [y] = before ++ x :: after) :
    (xs = before ∧ y = x ∧ after = []) ∨
      ∃ after', after = after' ++ [y] ∧ xs = before ++ x :: after' := by
  rcases List.eq_nil_or_concat' after with rfl | ⟨after', z, rfl⟩
  · obtain ⟨hxs, hy⟩ := List.append_inj' h rfl
    exact .inl ⟨hxs, List.singleton_inj.mp hy, rfl⟩
  · rw [← List.cons_append, ← List.append_assoc] at h
    obtain ⟨hxs, hy⟩ := List.append_inj' h rfl
    cases List.singleton_inj.mp hy
    exact .inr ⟨after', rfl, hxs⟩

/-- A document that has just been loaded is the last one. -/
theorem lastLoaded_append_loaded (events : List Event) (d : Document) :
    lastLoaded (events ++ [.loaded d]) = some d := by
  simp [lastLoaded]

/-- Handing files over loads nothing. -/
theorem lastLoaded_append_handed (events : List Event) (fs : List GeneratedFile) (taken : Bool) :
    lastLoaded (events ++ [.handed fs taken]) = lastLoaded events := by
  simp [lastLoaded]

/-- Since the sink last took files, a document has been loaded. -/
def Untaken (events : List Event) : Prop :=
  ∀ before fs after, events = before ++ .handed fs true :: after → ∃ d, .loaded d ∈ after

/-- Right after a document has been loaded, no files have been taken since. -/
theorem untaken_append_loaded (events : List Event) (d : Document) :
    Untaken (events ++ [.loaded d]) := by
  intro before fs after h
  rcases append_singleton_eq_append_cons h with ⟨-, he, -⟩ | ⟨after', rfl, -⟩
  · cases he
  · exact ⟨d, by simp⟩

/-- Files that the sink did not take do not count as taken, so they may be handed over again. -/
theorem Untaken.append_handed_false {events : List Event} (h : Untaken events)
    (fs : List GeneratedFile) : Untaken (events ++ [.handed fs false]) := by
  intro before fs' after he
  rcases append_singleton_eq_append_cons he with ⟨-, hne, -⟩ | ⟨after', rfl, hs⟩
  · cases hne
  · obtain ⟨d, hd⟩ := h before fs' after' hs
    exact ⟨d, List.mem_append_left _ hd⟩

namespace Orderly

variable {settings : Settings} {events : List Event}

/-- Nothing has been seen of a fresh generator. -/
theorem nil : Orderly settings [] where
  package before _ _ after h := by simp at h
  once before _ _ _ after h := by simp at h

/-- Loading a document keeps the events orderly: it comes after all that was handed over. -/
theorem append_loaded (h : Orderly settings events) (d : Document) :
    Orderly settings (events ++ [.loaded d]) where
  package before fs taken after he := by
    rcases append_singleton_eq_append_cons he with ⟨-, hne, -⟩ | ⟨after', -, hs⟩
    · cases hne
    · exact h.package before fs taken after' hs
  -- The second of the two packages is not the event added, so both are among the events before.
  once before fs between fs' after he := by
    rw [← List.cons_append, ← List.append_assoc] at he
    rcases append_singleton_eq_append_cons he with ⟨-, hne, -⟩ | ⟨after', -, hs⟩
    · cases hne
    · exact h.once before fs between fs' after' (by simpa using hs)

/-- A package is handed over: it has to be that of the last document, and it can be taken
only if that document's package has not been. -/
theorem append_handed (h : Orderly settings events) {d : Document} {fs : List GeneratedFile}
    {taken : Bool} (hl : lastLoaded events = some d) (hp : d.package settings = .ok fs)
    (ht : taken = true → Untaken events) : Orderly settings (events ++ [.handed fs taken]) where
  package before fs₁ taken₁ after he := by
    rcases append_singleton_eq_append_cons he with ⟨rfl, hs, -⟩ | ⟨after', -, hs⟩
    · cases hs
      exact ⟨d, hl, hp⟩
    · exact h.package before fs₁ taken₁ after' hs
  once before fs₁ between fs₂ after he := by
    rw [← List.cons_append, ← List.append_assoc] at he
    rcases append_singleton_eq_append_cons he with ⟨hs, hn, -⟩ | ⟨after', -, hs⟩
    · -- The package added is the second one, so the document that comes between is the one since
      -- the last package taken.
      cases hn
      exact ht rfl before fs₁ between hs
    · exact h.once before fs₁ between fs₂ after' (by simpa using hs)

end Orderly

namespace History

variable {σ : Type} {settings : Settings} {sink : Sink σ} {h : History σ}

/-! ### What one call does -/

/-- Loading changes nothing, or it is its turn and a document is loaded. -/
theorem step_load (settings : Settings) (sink : Sink σ) (h : History σ)
    (source : Source) :
    h.step settings sink (.load source) = h ∨
      ∃ d, h.progress.stage = .idle ∧ h.step settings sink (.load source) =
        ⟨{ h.progress with stage := .specLoaded, document? := some d }, h.sink,
          h.events ++ [.loaded d]⟩ := by
  -- Out of turn it is refused; at its turn the source decides.
  by_cases hs : h.progress.stage = .idle
  · cases hd : source.document with
    | error f =>
      left
      simp [step, Call.apply, Call.loads, Call.hands, Progress.load_of_idle hs, hd]
    | ok d =>
      right
      exact ⟨d, hs, by
        simp [step, Call.apply, Call.loads, Call.hands, Progress.load_of_idle hs, hd]⟩
  · left
    simp [step, Call.apply, Call.loads, Call.hands, Progress.load_of_ne hs, Logged.fail]

/-- Extracting changes nothing, or it is its turn and the endpoints are those of the document. It is
not seen from outside. -/
theorem step_extract (settings : Settings) (sink : Sink σ) (h : History σ) :
    h.step settings sink .extract = h ∨
      ∃ d es, h.progress.stage = .specLoaded ∧ h.progress.document? = some d ∧
        d.endpoints.outcome = .ok es ∧ h.step settings sink .extract =
          ⟨{ h.progress with stage := .extracted, endpoints := es }, h.sink, h.events⟩ := by
  by_cases hs : h.progress.stage = .specLoaded ∧ ∃ d, h.progress.document? = some d
  · obtain ⟨hs, d, hd⟩ := hs
    cases he : d.endpoints.outcome with
    | error f =>
      left
      simp [step, Call.apply, Call.loads, Call.hands, Progress.extract_of_specLoaded hs hd, he]
    | ok es =>
      right
      exact ⟨d, es, hs, hd, he, by
        simp [step, Call.apply, Call.loads, Call.hands, Progress.extract_of_specLoaded hs hd, he]⟩
  · -- It is not its turn, or it is but there is no document; either is refused alike.
    have hne : h.progress.stage = .specLoaded → h.progress.document? = none := fun hs' =>
      Option.eq_none_iff_forall_ne_some.mpr fun d hd => hs ⟨hs', d, hd⟩
    left
    simp [step, Call.apply, Call.loads, Call.hands, Progress.extract_of_ne hne]

/-- Rendering changes nothing, or it is its turn and the files are the package of the document. It
is not seen from outside either. -/
theorem step_resolve (settings : Settings) (sink : Sink σ) (h : History σ) :
    h.step settings sink .resolve = h ∨
      ∃ d fs, h.progress.stage = .extracted ∧ h.progress.document? = some d ∧
        (Package.render d h.progress.endpoints settings).outcome = .ok fs ∧
        h.step settings sink .resolve =
          ⟨{ h.progress with stage := .resolved, files := fs }, h.sink, h.events⟩ := by
  by_cases hs : h.progress.stage = .extracted ∧ ∃ d, h.progress.document? = some d
  · obtain ⟨hs, d, hd⟩ := hs
    cases he : (Package.render d h.progress.endpoints settings).outcome with
    | error f =>
      left
      simp [step, Call.apply, Call.loads, Call.hands,
        Progress.resolve_of_extracted settings hs hd, he]
    | ok fs =>
      right
      exact ⟨d, fs, hs, hd, he, by
        simp [step, Call.apply, Call.loads, Call.hands,
          Progress.resolve_of_extracted settings hs hd, he]⟩
  · have hne : h.progress.stage = .extracted → h.progress.document? = none := fun hs' =>
      Option.eq_none_iff_forall_ne_some.mpr fun d hd => hs ⟨hs', d, hd⟩
    left
    simp [step, Call.apply, Call.loads, Call.hands, Progress.resolve_of_ne settings hne]

/-- Writing changes nothing, or it is its turn and the files are handed over, taken or not. -/
theorem step_write (settings : Settings) (sink : Sink σ) (h : History σ) :
    h.step settings sink .write = h ∨
      ∃ s, h.progress.stage = .resolved ∧
        (h.step settings sink .write =
            ⟨h.progress, s, h.events ++ [.handed h.progress.files false]⟩ ∨
          h.step settings sink .write =
            ⟨{ h.progress with stage := .written }, s,
              h.events ++ [.handed h.progress.files true]⟩) := by
  by_cases hs : h.progress.stage = .resolved
  · -- At its turn the sink is asked in any case; its answer decides whether the stage is entered.
    right
    refine ⟨(sink h.sink h.progress.files).1, hs, ?_⟩
    cases ho : (sink h.sink h.progress.files).2.outcome with
    | error f =>
      left
      simp [step, Call.apply, Call.loads, Call.hands, Progress.write_of_resolved _ _ hs,
        Sink.watched, ho, Except.isOk, Except.toBool]
    | ok u =>
      right
      simp [step, Call.apply, Call.loads, Call.hands, Progress.write_of_resolved _ _ hs,
        Sink.watched, ho, Except.isOk, Except.toBool]
  · left
    simp [step, Call.apply, Call.loads, Call.hands, Progress.write_of_ne _ _ hs]

/-- What a run from idle hands over: the files that its source comes to, if it comes to any. -/
theorem hands_run {source : Source} (hs : h.progress.stage = .idle) :
    (Call.run source).hands settings sink h.progress h.sink =
      match source.rendered settings with
      | .ok fs => [.handed fs (sink h.sink fs).2.outcome.isOk]
      | .error _ => [] := by
  cases hr : source.rendered settings with
  | error f =>
    obtain ⟨notes, hrun⟩ := Progress.run_of_idle_error sink.watched (h.sink, []) hs hr
    simp [Call.hands, Call.apply, hrun]
  | ok fs =>
    obtain ⟨notes, hrun⟩ := Progress.run_of_idle_ok sink.watched (h.sink, []) hs hr
    simp [Call.hands, Call.apply, hrun, Sink.watched]

/-- What a run from idle loads: its source's document, if there is one. -/
theorem loads_run {source : Source} (hs : h.progress.stage = .idle) :
    (Call.run source).loads h.progress =
      match source.document with
      | .ok d => [.loaded d]
      | .error _ => [] := by
  cases hd : source.document <;> simp [Call.loads, Progress.load_of_idle hs, hd]

/-- A run from idle ends idle, whichever stage it fails in. -/
theorem apply_run {source : Source} (hs : h.progress.stage = .idle) :
    ((Call.run source).apply settings sink h.progress h.sink).1 = Progress.idle := by
  cases hr : source.rendered settings with
  | error f =>
    obtain ⟨notes, hrun⟩ := Progress.run_of_idle_error sink h.sink hs hr
    simp [Call.apply, hrun]
  | ok fs =>
    obtain ⟨notes, hrun⟩ := Progress.run_of_idle_ok sink h.sink hs hr
    simp [Call.apply, hrun]

/-- A run changes nothing, or it begins and ends idle: between the two there is nothing to be seen,
a document that is loaded, or that and its package handed over. -/
theorem step_run (settings : Settings) (sink : Sink σ) (h : History σ)
    (source : Source) :
    h.step settings sink (.run source) = h ∨
      ∃ s new, h.progress.stage = .idle ∧
        h.step settings sink (.run source) = ⟨Progress.idle, s, h.events ++ new⟩ ∧
        (new = [] ∨ (∃ d, new = [.loaded d]) ∨
          ∃ d fs taken, d.package settings = .ok fs ∧ new = [.loaded d, .handed fs taken]) := by
  by_cases hs : h.progress.stage = .idle
  · right
    refine ⟨((Call.run source).apply settings sink h.progress h.sink).2.1,
      (Call.run source).loads h.progress ++
        (Call.run source).hands settings sink h.progress h.sink, hs, ?_, ?_⟩
    · unfold step
      rw [apply_run hs, List.append_assoc]
    · -- What is seen of the run depends on how far its source gets: to no document, to a document
      -- without a package, or to a package.
      rw [loads_run hs, hands_run hs]
      cases hd : source.document with
      | error f =>
        left
        simp [Source.rendered, hd, bind, Except.bind]
      | ok d =>
        right
        have hr : source.rendered settings = d.package settings := by
          simp [Source.rendered, hd, bind, Except.bind]
        rw [hr]
        cases hp : d.package settings with
        | error f => exact .inl ⟨d, rfl⟩
        | ok fs => exact .inr ⟨d, fs, _, hp, rfl⟩
  · left
    simp [step, Call.apply, Call.loads, Call.hands, Progress.run_of_ne _ _ _ _ hs,
      Progress.load_of_ne hs, Logged.fail]

/-! ### What every call keeps -/

/-- The progress is sound, its document is the one loaded last, the events are orderly, and
as long as the package is still to be handed over the sink has not taken it. -/
structure Invariant (settings : Settings) (h : History σ) : Prop where
  sound : h.progress.Sound settings
  last : ∀ d, h.progress.document? = some d → lastLoaded h.events = some d
  orderly : Orderly settings h.events
  untaken : h.progress.stage ≠ .idle → h.progress.stage ≠ .written → Untaken h.events

/-- The invariant holds of a fresh generator, which has no data and has been seen to do nothing. -/
theorem invariant_start (s : σ) : Invariant settings (start s) where
  sound := ⟨rfl, rfl, rfl⟩
  last d hd := by cases hd
  orderly := Orderly.nil
  untaken hne _ := absurd rfl hne

/-- An idle generator keeps the invariant as long as its events are orderly. -/
theorem invariant_idle {s : σ} {events : List Event} (ho : Orderly settings events) :
    Invariant settings ⟨Progress.idle, s, events⟩ where
  sound := ⟨rfl, rfl, rfl⟩
  last d hd := by cases hd
  orderly := ho
  untaken hne _ := absurd rfl hne

/-- A sound progress that is resolved holds the package of its document. -/
theorem package_of_resolved {p : Progress} (hp : p.Sound settings) (hs : p.stage = .resolved) :
    ∃ d, p.document? = some d ∧ d.package settings = .ok p.files := by
  simp only [Progress.Sound, hs] at hp
  obtain ⟨d, hd, he, hf⟩ := hp
  exact ⟨d, hd, Document.package_eq_ok_iff.mpr ⟨_, he, hf⟩⟩

/-- A run loads before it hands over, so what it hands over is untaken. -/
theorem orderly_append_run {events : List Event} (ho : Orderly settings events) {d : Document}
    {fs : List GeneratedFile} (hp : d.package settings = .ok fs) (taken : Bool) :
    Orderly settings (events ++ [.loaded d, .handed fs taken]) := by
  rw [show events ++ [Event.loaded d, .handed fs taken]
    = (events ++ [.loaded d]) ++ [.handed fs taken] by simp]
  exact (ho.append_loaded d).append_handed (lastLoaded_append_loaded _ d) hp
    fun _ => untaken_append_loaded _ d

/-- Every call keeps the invariant, whether it succeeds, fails or is refused. This is the one step
of the induction over all calls; each case starts from what the call can do. -/
theorem Invariant.step (hi : Invariant settings h) (c : Call) :
    Invariant settings (h.step settings sink c) := by
  cases c with
  | load source =>
    rcases step_load settings sink h source with he | ⟨d, hs, he⟩
    · rwa [he]
    · have hp := hi.sound
      simp only [Progress.Sound, hs] at hp
      rw [he]
      exact {
        sound := ⟨⟨d, rfl⟩, hp.2.1, hp.2.2⟩
        last := fun d' hd' => by
          cases hd'
          exact lastLoaded_append_loaded _ d
        orderly := hi.orderly.append_loaded d
        untaken := fun _ _ => untaken_append_loaded _ d }
  | extract =>
    rcases step_extract settings sink h with
      he | ⟨d, es, hs, hd, hes, he⟩
    · rwa [he]
    · have hp := hi.sound
      simp only [Progress.Sound, hs] at hp
      rw [he]
      exact {
        sound := ⟨d, hd, hes, hp.2.2⟩
        last := hi.last
        orderly := hi.orderly
        untaken := fun _ _ => hi.untaken (by simp [hs]) (by simp [hs]) }
  | resolve =>
    rcases step_resolve settings sink h with
      he | ⟨d, fs, hs, hd, hfs, he⟩
    · rwa [he]
    · have hp := hi.sound
      simp only [Progress.Sound, hs] at hp
      -- The endpoints that are rendered are those of this document, as the progress was sound.
      obtain ⟨d', hd', hes, -⟩ := hp
      cases hd.symm.trans hd'
      rw [he]
      exact {
        sound := ⟨d, hd, hes, hfs⟩
        last := hi.last
        orderly := hi.orderly
        untaken := fun _ _ => hi.untaken (by simp [hs]) (by simp [hs]) }
  | write =>
    rcases step_write settings sink h with
      he | ⟨s, hs, he | he⟩
    · rwa [he]
    · obtain ⟨d, hd, hp⟩ := package_of_resolved hi.sound hs
      -- The package handed over is still to be taken, whether or not the sink takes it now.
      have hu := hi.untaken (by simp [hs]) (by simp [hs])
      rw [he]
      exact {
        sound := hi.sound
        last := fun d' hd' => by rw [lastLoaded_append_handed, hi.last d' hd']
        orderly := hi.orderly.append_handed (hi.last d hd) hp (by simp)
        untaken := fun _ _ => hu.append_handed_false _ }
    · obtain ⟨d, hd, hp⟩ := package_of_resolved hi.sound hs
      have hu := hi.untaken (by simp [hs]) (by simp [hs])
      have hsound := hi.sound
      simp only [Progress.Sound, hs] at hsound
      rw [he]
      exact {
        sound := hsound
        last := fun d' hd' => by rw [lastLoaded_append_handed, hi.last d' hd']
        orderly := hi.orderly.append_handed (hi.last d hd) hp fun _ => hu
        untaken := fun _ hw => absurd rfl hw }
  | reset =>
    have he : h.step settings sink .reset = ⟨Progress.idle, h.sink, h.events⟩ := by
      simp [History.step, Call.apply, Call.loads, Call.hands, Progress.reset]
    rw [he]
    exact invariant_idle hi.orderly
  | run source =>
    rcases step_run settings sink h source with
      he | ⟨s, new, -, he, hnew⟩
    · rwa [he]
    · rw [he]
      refine invariant_idle ?_
      rcases hnew with rfl | ⟨d, rfl⟩ | ⟨d, fs, taken, hp, rfl⟩
      · rw [List.append_nil]
        exact hi.orderly
      · exact hi.orderly.append_loaded d
      · exact orderly_append_run hi.orderly hp taken

/-- The invariant holds after every sequence of calls. -/
theorem invariant_after (settings : Settings) (sink : Sink σ) (s : σ) (calls : List Call) :
    Invariant settings (after settings sink s calls) := by
  unfold after
  -- The calls are folded from the left, so the induction is over any history that they may start
  -- from.
  suffices ∀ h : History σ, Invariant settings h →
      Invariant settings (calls.foldl (History.step settings sink) h) from
    this _ (invariant_start s)
  induction calls with
  | nil => exact fun _ hi => hi
  | cons c rest ih => exact fun h hi => ih _ (hi.step c)

/-! ### What a failing call leaves -/

/-- A call that fails, unless it is a run, leaves the progress as it was. -/
theorem apply_fst_of_failure {c : Call} {f : Failure} (hc : ∀ source, c ≠ .run source)
    (hf : (c.apply settings sink h.progress h.sink).2.2 = some f) :
    (c.apply settings sink h.progress h.sink).1 = h.progress := by
  cases c with
  | load source => exact Progress.load_fst_of_error (Logged.failure?_eq_some_iff.mp hf)
  | extract => exact Progress.extract_fst_of_error (Logged.failure?_eq_some_iff.mp hf)
  | resolve => exact Progress.resolve_fst_of_error (Logged.failure?_eq_some_iff.mp hf)
  | write => exact Progress.write_fst_of_error (Logged.failure?_eq_some_iff.mp hf)
  | reset => cases hf
  | run source => exact absurd rfl (hc source)

/-- A generator keeps its word after every sequence of calls, with every sink. -/
theorem lawful_after (settings : Settings) (sink : Sink σ) (s : σ) (calls : List Call) :
    (after settings sink s calls).Lawful settings sink where
  sound := (invariant_after settings sink s calls).sound
  kept _ _ hc hf := apply_fst_of_failure hc hf
  -- A run is refused by its first stage, before anything is loaded.
  refused source hs := by
    refine ⟨.generation (.runWhile (after settings sink s calls).progress.stage), ?_⟩
    simp [Call.apply, Progress.run_of_ne _ _ _ _ hs, Logged.fail, Logged.failure?]
  fresh _ hs := apply_run hs
  orderly := (invariant_after settings sink s calls).orderly
  unhanded source f hs hr := by
    obtain ⟨notes, hrun⟩ := Progress.run_of_idle_error sink
      (after settings sink s calls).sink hs hr
    refine ⟨?_, ?_⟩
    · simp [Call.apply, hrun, Logged.failure?]
    · rw [hands_run hs, hr]

end History

end TypedClient
