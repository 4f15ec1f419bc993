import TypedClient.Failure

/-!
# `TypedClient.Log`: notes taken along the way

The generator degrades rather than fails where a document is odd, and notes it. `Logged`
is a computation that may fail and takes notes: its notes stay when it fails. Forgetting
them turns it into a plain result, and `outcome` commutes with sequencing.

`Work` is such a computation on a state: what it has changed stays as well when it fails.
`run_bind_ok` and `run_bind_error` say how two of them follow each other.
-/

set_option autoImplicit false

namespace TypedClient

inductive Level where
  | debug
  | info
  | warning
  | error
deriving DecidableEq

def Level.name : Level → String
  | debug => "DEBUG"
  | info => "INFO"
  | warning => "WARNING"
  | error => "ERROR"

/-- The part of the generator that takes a note. -/
inductive Topic where
  | naming
  | schema
  | endpoints
  | context
  | rendering
  | generation
  | writing
deriving DecidableEq

/-- The channel that a part logs to. -/
def Topic.channel : Topic → String
  | naming => "tsclientgen.naming"
  | schema => "tsclientgen.schema_parser"
  | endpoints => "tsclientgen.endpoints"
  | context => "tsclientgen.context_builder"
  | rendering => "tsclientgen.codegen"
  | generation => "tsclientgen.generator"
  | writing => "tsclientgen.writer"

/-- A note in the log. -/
structure Note where
  level : Level
  topic : Topic
  message : String
deriving DecidableEq

/-- The note as a line of the log. -/
def Note.line (n : Note) : String :=
  n.level.name ++ " " ++ n.topic.channel ++ ": " ++ n.message

/-- Two results in a row are a result exactly if both are. -/
theorem bind_eq_ok_iff {ε α β : Type} {x : Except ε α} {f : α → Except ε β} {b : β} :
    x >>= f = .ok b ↔ ∃ a, x = .ok a ∧ f a = .ok b := by
  cases x with
  | error e =>
    refine ⟨fun h => ?_, fun ⟨a, h, _⟩ => ?_⟩
    · cases (show Except.error e = .ok b from h)
    · cases h
  | ok a =>
    refine ⟨fun h => ⟨a, rfl, h⟩, fun ⟨a', h, hb⟩ => ?_⟩
    cases h
    exact hb

/-- Two results in a row fail exactly if one of them does. -/
theorem bind_eq_error_iff {ε α β : Type} {x : Except ε α} {f : α → Except ε β} {e : ε} :
    x >>= f = .error e ↔ x = .error e ∨ ∃ a, x = .ok a ∧ f a = .error e := by
  cases x with
  | error e' =>
    constructor
    · intro h
      cases (show Except.error e' = .error e from h)
      exact .inl rfl
    · rintro (h | ⟨a, h, -⟩)
      · cases h
        rfl
      · cases h
  | ok a =>
    constructor
    · exact fun h => .inr ⟨a, rfl, h⟩
    · rintro (h | ⟨a', h, he⟩)
      · cases h
      · cases h
        exact he

/-- A result or a failure, with the notes taken on the way to it. -/
structure Logged (α : Type) where
  outcome : Except Failure α
  notes : List Note

namespace Logged

/-- Run one computation and then another, which is skipped if the first one fails. -/
def andThen {α β : Type} (x : Logged α) (f : α → Logged β) : Logged β :=
  match x.outcome with
  | .ok a => ⟨(f a).outcome, x.notes ++ (f a).notes⟩
  | .error e => ⟨.error e, x.notes⟩

instance : Monad Logged where
  pure a := ⟨.ok a, []⟩
  bind := andThen

/-- Fail without a note. -/
def fail {α : Type} (e : Failure) : Logged α := ⟨.error e, []⟩

/-- A result without a note. -/
def ofExcept {α : Type} (x : Except Failure α) : Logged α := ⟨x, []⟩

/-- Take a note. -/
def note (level : Level) (topic : Topic) (message : String) : Logged Unit :=
  ⟨.ok (), [⟨level, topic, message⟩]⟩

/-- Take several notes. -/
def noteAll (notes : List Note) : Logged Unit := ⟨.ok (), notes⟩

@[simp] theorem outcome_pure {α : Type} (a : α) : (pure a : Logged α).outcome = .ok a := rfl

@[simp] theorem outcome_bind {α β : Type} (x : Logged α) (f : α → Logged β) :
    (x >>= f).outcome = x.outcome >>= fun a => (f a).outcome := by
  show (andThen x f).outcome = _
  unfold andThen
  cases x.outcome <;> rfl

@[simp] theorem outcome_ofExcept {α : Type} (x : Except Failure α) :
    (ofExcept x).outcome = x := rfl

@[simp] theorem outcome_note (level : Level) (topic : Topic) (message : String) :
    (note level topic message).outcome = .ok () := rfl

end Logged

/-- A computation on a state that may fail and takes notes. -/
structure Work (σ α : Type) where
  run : σ → σ × Logged α

namespace Work

variable {σ α β : Type}

/-- Do one piece of work and then another, which is left out if the first one fails. -/
def andThen (x : Work σ α) (f : α → Work σ β) : Work σ β :=
  ⟨fun s =>
    let first := x.run s
    match first.2.outcome with
    | .ok a =>
      let second := (f a).run first.1
      (second.1, ⟨second.2.outcome, first.2.notes ++ second.2.notes⟩)
    | .error e => (first.1, ⟨.error e, first.2.notes⟩)⟩

instance : Monad (Work σ) where
  pure a := ⟨fun s => (s, pure a)⟩
  bind := andThen

/-- The state. -/
def state : Work σ σ := ⟨fun s => (s, pure s)⟩

/-- Change the state. -/
def change (f : σ → σ) : Work σ Unit := ⟨fun s => (f s, pure ())⟩

/-- Work that leaves the state alone. -/
def ofLogged (x : Logged α) : Work σ α := ⟨fun s => (s, x)⟩

/-- The result of work from a state on, the state being forgotten. -/
def resultFrom (x : Work σ α) (s : σ) : Logged α := (x.run s).2

@[simp] theorem run_pure (a : α) (s : σ) : (pure a : Work σ α).run s = (s, pure a) := rfl

@[simp] theorem run_state (s : σ) : (state : Work σ σ).run s = (s, pure s) := rfl

@[simp] theorem run_change (f : σ → σ) (s : σ) : (change f).run s = (f s, pure ()) := rfl

@[simp] theorem run_ofLogged (x : Logged α) (s : σ) : (ofLogged x).run s = (s, x) := rfl

theorem run_bind_ok {x : Work σ α} {s t : σ} {a : α} {notes : List Note}
    (h : x.run s = (t, ⟨.ok a, notes⟩)) (f : α → Work σ β) :
    (x >>= f).run s =
      (((f a).run t).1, ⟨((f a).run t).2.outcome, notes ++ ((f a).run t).2.notes⟩) := by
  show (andThen x f).run s = _
  simp only [andThen, h]

theorem run_bind_error {x : Work σ α} {s t : σ} {e : Failure} {notes : List Note}
    (h : x.run s = (t, ⟨.error e, notes⟩)) (f : α → Work σ β) :
    (x >>= f).run s = (t, ⟨.error e, notes⟩) := by
  show (andThen x f).run s = _
  simp only [andThen, h]

end Work

end TypedClient
