import Mathlib.Data.List.ReduceOption
import TypedClient.Endpoint.Reading
import TypedClient.Proofs.Assoc
import TypedClient.Proofs.Log

/-!
# `TypedClient.Proofs.Endpoint.Reading`: what is read of an operation

* `Endpoint.of_read_eq_ok`: the endpoint that is read has the path it was asked for, and no
  two of its parameters have one name and one location.
* `Endpoint.method_of_readAll`: the endpoints of a document have methods that a client
  supports.
-/

set_option autoImplicit false

namespace TypedClient.Endpoint

variable {g : Graph} {components : Components} {e : Endpoint} {es : List Endpoint}

/-- What is left out leaves no gap: the first of several slots comes before what the others
hold. -/
theorem exists_slots_cons_iff {α β : Type} {R : α → Option β → Prop} {a : α} {l : List α}
    {bs : List β} :
    (∃ slots, List.Forall₂ R (a :: l) slots ∧ bs = slots.reduceOption) ↔
      ∃ slot, R a slot ∧ ∃ cs, (∃ slots, List.Forall₂ R l slots ∧ cs = slots.reduceOption) ∧
        slot.toList ++ cs = bs := by
  have hcons : ∀ (slot : Option β) slots,
      (slot :: slots).reduceOption = slot.toList ++ slots.reduceOption := by
    intro slot slots
    cases slot <;> rfl
  constructor
  · rintro ⟨_, h, rfl⟩
    obtain ⟨slot, slots, hslot, hslots, rfl⟩ := List.forall₂_cons_left_iff.mp h
    exact ⟨slot, hslot, _, ⟨slots, hslots, rfl⟩, (hcons slot slots).symm⟩
  · rintro ⟨slot, hslot, _, ⟨slots, hslots, rfl⟩, rfl⟩
    exact ⟨slot :: slots, .cons hslot hslots, (hcons slot slots).symm⟩

/-- Noting a parameter without a name goes to the log alone, so it cannot fail. -/
theorem outcome_noteNameless (g : Graph) (v : Value) : (noteNameless g v).outcome = .ok () := by
  unfold noteNameless
  split <;> rfl

/-- Each merged parameter stands under its own key. -/
theorem map_key_mergeParameters (ps : List Parameter) : (mergeParameters ps).map Parameter.key
    = (Assoc.ofList (ps.map fun p => (p.key, p))).map Prod.fst := by
  -- A parameter is put into the table under its key, and never moved to another.
  have hown : ∀ entry ∈ Assoc.ofList (ps.map fun p => (p.key, p)), entry.2.key = entry.1 := by
    intro entry h
    obtain ⟨p, -, rfl⟩ := List.mem_map.mp (Assoc.mem_of_mem_ofList h)
    rfl
  rw [mergeParameters, List.map_map]
  exact List.map_congr_left hown

/-- No two parameters have one name and one location after merging, however often they were listed:
an operation overrides what its path shares. -/
theorem nodup_keys_mergeParameters (ps : List Parameter) :
    ((mergeParameters ps).map Parameter.key).Nodup := by
  rw [map_key_mergeParameters]
  exact Assoc.nodup_keys_ofList _

/-- What holds of an endpoint whatever its operation says: its path and method are those it was
asked for, the method in upper case, and its parameters have different keys. -/
theorem of_ofEntries_eq_ok {path method : String} {shared : Value}
    {operation : List (Value × Value)}
    (h : (ofEntries g components path method shared operation).outcome = .ok e) :
    e.path = path ∧ e.method = Text.upper method ∧ (e.parameters.map Parameter.key).Nodup := by
  unfold ofEntries readParameters at h
  simp only [Logged.bind_ok_iff] at h
  -- Of the steps only the merging of the parameters matters here; the others fill other fields.
  obtain ⟨_, -, _, ⟨ps, -, hps⟩, _, -, _, -, h⟩ := h
  cases hps
  cases h
  exact ⟨rfl, rfl, nodup_keys_mergeParameters ps⟩

/-- `of_ofEntries_eq_ok` for the operation as a node, which has to be a mapping if anything was
read. -/
theorem of_read_eq_ok {path method : String} {shared operation : Value}
    (h : (read g components path method shared operation).outcome = .ok e) :
    e.path = path ∧ e.method = Text.upper method ∧ (e.parameters.map Parameter.key).Nodup := by
  unfold read at h
  split at h
  · exact of_ofEntries_eq_ok h
  · cases h

/-- The endpoint of a path for a method, if there is one. -/
def forMethod (g : Graph) (components : Components) (path : String) (shared : Value)
    (operations : List (String × List (Value × Value))) (method : String) :
    Except Failure (List Endpoint) :=
  match operation? operations method with
  | none => .ok []
  | some operation =>
    (ofEntries g components path method shared operation).outcome.map fun e => [e]

/-- One step of the reading of an item: the endpoint for the first method, if there is one, and then
those for the others. -/
theorem outcome_ofOperations_cons {path : String} {shared : Value}
    {operations : List (String × List (Value × Value))} {method : String} {rest : List String} :
    (ofOperations g components path shared operations (method :: rest)).outcome = (do
      let here ← forMethod g components path shared operations method
      let later ← (ofOperations g components path shared operations rest).outcome
      pure (here ++ later)) := by
  rw [ofOperations, forMethod]
  cases operation? operations method with
  | none => simp only [Logged.outcome_bind, Logged.outcome_pure]; rfl
  | some operation =>
    simp only [Logged.outcome_bind, Logged.outcome_pure]
    cases (ofEntries g components path method shared operation).outcome <;> rfl

/-- The endpoints that an entry of the paths comes to. -/
def ofPath (g : Graph) (components : Components) (path : String) (v : Value) :
    Except Failure (List Endpoint) :=
  match g.entries? v with
  | none => .ok []
  | some item => (ofItem g components path item).outcome

/-- One step of the reading of the paths: the endpoints of the first, and then those of the
others. -/
theorem outcome_ofPaths_cons {p : String × Value} {rest : Table} :
    (ofPaths g components (p :: rest)).outcome = (do
      let here ← ofPath g components p.1 p.2
      let later ← (ofPaths g components rest).outcome
      pure (here ++ later)) := by
  rw [ofPaths, ofPath]
  cases g.entries? p.2 with
  | none => simp only [Logged.outcome_bind, Logged.outcome_pure]; rfl
  | some item => simp only [Logged.outcome_bind, Logged.outcome_pure]; rfl

/-- The methods that a client supports are in upper case already. -/
theorem map_upper_httpMethods : httpMethods.map Text.upper = httpMethods := by decide +kernel

/-- The endpoints of an item have methods that were asked for, as they are after being put in upper
case. This is by induction on the methods, with `outcome_ofOperations_cons` as the step. -/
theorem method_of_ofOperations {path : String} {shared : Value}
    {operations : List (String × List (Value × Value))} {methods : List String}
    (h : (ofOperations g components path shared operations methods).outcome = .ok es) :
    ∀ e ∈ es, e.method ∈ methods.map Text.upper := by
  induction methods generalizing es with
  | nil =>
    cases h
    exact List.forall_mem_nil _
  | cons method rest ih =>
    simp only [outcome_ofOperations_cons, bind_eq_ok_iff] at h
    obtain ⟨here, hhere, later, hlater, h⟩ := h
    cases h
    refine List.forall_mem_append.mpr ⟨?_, fun e he => List.mem_cons_of_mem _ (ih hlater e he)⟩
    -- Either the item has no operation for the method, or the one endpoint is of that method.
    unfold forMethod at hhere
    split at hhere
    · cases hhere
      exact List.forall_mem_nil _
    · rename_i operation _
      cases he : (ofEntries g components path method shared operation).outcome with
      | error f =>
        rw [he] at hhere
        cases hhere
      | ok e =>
        rw [he] at hhere
        cases hhere
        simp [(of_ofEntries_eq_ok he).2.1]

/-- The endpoints of the paths have methods that a client supports, since every item is asked for
exactly those. -/
theorem method_of_ofPaths {paths : Table}
    (h : (ofPaths g components paths).outcome = .ok es) : ∀ e ∈ es, e.method ∈ httpMethods := by
  induction paths generalizing es with
  | nil =>
    cases h
    exact List.forall_mem_nil _
  | cons p rest ih =>
    simp only [outcome_ofPaths_cons, bind_eq_ok_iff] at h
    obtain ⟨here, hhere, later, hlater, h⟩ := h
    cases h
    refine List.forall_mem_append.mpr ⟨?_, ih hlater⟩
    -- A path whose item is no mapping has no endpoints.
    unfold ofPath at hhere
    split at hhere
    · cases hhere
      exact List.forall_mem_nil _
    · simp only [ofItem, Logged.bind_ok_iff] at hhere
      obtain ⟨operations, -, hhere⟩ := hhere
      rw [← map_upper_httpMethods]
      exact method_of_ofOperations hhere

/-- The endpoints of a document have methods that a client supports. What is read after them notes
what was left out and changes none of them. -/
theorem method_of_readAll {paths : Table}
    (h : (readAll g components paths).outcome = .ok es) : ∀ e ∈ es, e.method ∈ httpMethods := by
  simp only [readAll, Logged.bind_ok_iff] at h
  obtain ⟨_, hpaths, _, -, h⟩ := h
  cases h
  exact method_of_ofPaths hpaths

end TypedClient.Endpoint
