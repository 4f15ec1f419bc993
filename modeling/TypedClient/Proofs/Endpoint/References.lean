import TypedClient.Proofs.Endpoint.Operations
import TypedClient.Proofs.Endpoint.Parameters

/-!
# `TypedClient.Proofs.Endpoint.References`: references and what they refer to

A parameter, a request body or a response may be a reference to a component. It is read as
the component, so an operation may as well have the component in its place. References are
followed once: if the component is a reference itself, that is not followed, and the
component is read as if it had no reference.

* `Endpoint.Refers`, `Endpoint.Replaces`: what a reference refers to, and what may take its
  place.
* `Endpoint.Rewritten`: an operation in which nodes have been replaced.
* `Replaces.outcome_bind`: what is read of a node is read of the one in its place as well, as
  long as nothing is asked of it but its entries other than the reference.
* `Endpoint.read_rewritten`: an operation in which nodes have been replaced is read as the same
  endpoint.
* `Endpoint.reference_to_reference`: a reference to a reference cannot be replaced by it.
-/

set_option autoImplicit false

namespace TypedClient.Endpoint

variable {g : Graph} {components : Table} {sectionName : String} {v w target : Value}
  {entries entries' : List (Value × Value)}

/-! ### What a reference refers to -/

/-- The node is a reference to a component of the section. -/
def Refers (g : Graph) (components : Table) (sectionName : String) (v target : Value) : Prop :=
  ∃ entries pointer name named,
    g.entries? v = some entries ∧ lookupKey entries "$ref" = some pointer ∧
    g.text pointer = .ok ("#/components/" ++ sectionName ++ "/" ++ name) ∧
    g.entries? ((components.lookup sectionName).getD .null) = some named ∧
    lookupKey named name = some target

/-- Following a reference gives what it refers to, which is looked at no further: a component that
is a reference itself is returned as it is. -/
theorem Refers.outcome_dereference (h : Refers g components sectionName v target) :
    (dereference g (.table components) sectionName v).outcome = .ok target := by
  obtain ⟨entries, pointer, name, named, hentries, hpointer, htext, hnamed, hname⟩ := h
  -- The name is what stands behind the section in the text of the pointer.
  have hlead : Text.afterLead? ("#/components/" ++ sectionName ++ "/")
      ("#/components/" ++ sectionName ++ "/" ++ name) = some name :=
    Text.afterLead?_eq_some_iff.mpr rfl
  have hcomponent : component g (.table components) sectionName name = .ok target := by
    refine bind_eq_ok_iff.mpr ⟨named, ?_, ?_⟩
    · simp only [section?, hnamed]
    · exact congrArg (fun found => Except.ok (found.getD .null)) hname
  rw [Endpoint.outcome_dereference hentries hpointer]
  refine bind_eq_ok_iff.mpr ⟨_, htext, ?_⟩
  rw [hlead]
  exact hcomponent

/-- A mapping without a reference stands for itself, whatever section it is looked for in. -/
theorem dereference_eq_pure (components : Components) (sectionName : String)
    (hentries : g.entries? v = some entries) (hplain : lookupKey entries "$ref" = none) :
    dereference g components sectionName v = pure v := by
  rw [dereference, hentries, Option.bind_some, hplain]

/-- The two mappings have the same under every key, but one of them may be a reference. -/
def Agree (entries entries' : List (Value × Value)) : Prop :=
  ∀ key, key ≠ "$ref" → lookupKey entries' key = lookupKey entries key

/-- Mappings that agree have the same under every key but that of a reference, absent keys
included. -/
theorem Agree.lookupOrNull (h : Agree entries entries') {key : String} (hkey : key ≠ "$ref") :
    lookupOrNull entries' key = lookupOrNull entries key :=
  congrArg (Option.getD · Value.null) (h key hkey)

/-- What may take the place of a node: the node itself; the component that it refers to, if
that is no reference; or else what the component is without its reference. -/
inductive Replaces (g : Graph) (components : Table) (sectionName : String) (v : Value) :
    Value → Prop
  | keep : Replaces g components sectionName v v
  | target {w : Value} {entries : List (Value × Value)}
      (hrefers : Refers g components sectionName v w)
      (hentries : g.entries? w = some entries) (hplain : lookupKey entries "$ref" = none) :
      Replaces g components sectionName v w
  | stripped {target w : Value} {entries entries' : List (Value × Value)}
      (hrefers : Refers g components sectionName v target)
      (hentries : g.entries? target = some entries) (hentries' : g.entries? w = some entries')
      (hplain : lookupKey entries' "$ref" = none) (hagree : Agree entries entries') :
      Replaces g components sectionName v w

/-- What is read of a node is read of the one in its place as well, as long as nothing is asked
but the entries other than the reference. -/
theorem Replaces.outcome_bind {α : Type} {f : Value → Logged α}
    (h : Replaces g components sectionName v w)
    (hf : ∀ t u entries entries', g.entries? t = some entries → g.entries? u = some entries' →
      Agree entries entries' → (f u).outcome = (f t).outcome) :
    (dereference g (.table components) sectionName w >>= f).outcome
      = (dereference g (.table components) sectionName v >>= f).outcome := by
  cases h with
  | keep => rfl
  | @target w entries hrefers hentries hplain =>
    -- Following the reference gives the node that the other one is, so both go on with it.
    rw [dereference_eq_pure _ _ hentries hplain, Logged.outcome_bind, Logged.outcome_bind,
      hrefers.outcome_dereference]
    rfl
  | @stripped target w entries entries' hrefers hentries hentries' hplain hagree =>
    -- The node in its place is read itself, and it has the entries of the component.
    rw [dereference_eq_pure _ _ hentries' hplain, Logged.outcome_bind, Logged.outcome_bind,
      hrefers.outcome_dereference]
    exact hf target w entries entries' hentries hentries' hagree

/-! ### The nodes that may be references -/

/-- Reading a parameter asks for four keys, none of which is that of a reference. -/
theorem Agree.readParameter_eq (h : Agree entries entries') (name : Value) :
    readParameter g name entries' = readParameter g name entries := by
  unfold readParameter Schema.textAt
  rw [h.lookupOrNull (by decide : "in" ≠ "$ref"), h.lookupOrNull (by decide : "schema" ≠ "$ref"),
    h.lookupOrNull (by decide : "required" ≠ "$ref"),
    h.lookupOrNull (by decide : "description" ≠ "$ref")]

/-- A parameter is read alike from a node and from what may take its place. -/
theorem Replaces.outcome_parameter? (h : Replaces g components "parameters" v w) :
    (parameter? g (.table components) w).outcome
      = (parameter? g (.table components) v).outcome := by
  refine h.outcome_bind fun t u entries entries' ht hu hagree => ?_
  rw [ht, hu]
  dsimp only [Option.getD_some]
  rw [hagree "name" (by decide)]
  cases lookupKey entries "name" with
  | some name =>
    dsimp only
    rw [hagree.readParameter_eq]
  | none =>
    -- The two nodes are noted as they are, but notes are no part of what is read.
    dsimp only
    rw [Logged.outcome_bind, Logged.outcome_bind, outcome_noteNameless, outcome_noteNameless]

/-- A request body is read alike from a node and from what may take its place. -/
theorem Replaces.outcome_readRequestBody (h : Replaces g components "requestBodies" v w) :
    (readRequestBody g (.table components) w).outcome
      = (readRequestBody g (.table components) v).outcome := by
  refine h.outcome_bind fun t u entries entries' ht hu hagree => ?_
  rw [ht, hu]
  dsimp only
  rw [hagree.lookupOrNull (by decide : "content" ≠ "$ref"),
    hagree.lookupOrNull (by decide : "required" ≠ "$ref")]

/-- A response is read alike from a node and from what may take its place. -/
theorem Replaces.outcome_readResponse (h : Replaces g components "responses" v w) :
    (readResponse g (.table components) w).outcome
      = (readResponse g (.table components) v).outcome := by
  refine h.outcome_bind fun t u entries entries' ht hu hagree => ?_
  rw [ht, hu]
  dsimp only [Option.getD_some]
  unfold Schema.textAt
  rw [hagree.lookupOrNull (by decide : "content" ≠ "$ref"),
    hagree.lookupOrNull (by decide : "description" ≠ "$ref")]

/-! ### Operations -/

/-- In a value that should be a list, items have been replaced. -/
inductive RewrittenItems (g : Graph) (r : Value → Value → Prop) (v : Value) : Value → Prop
  | keep : RewrittenItems g r v v
  | items {w : Value} {vs ws : List Value} (hv : g.items? v = some vs)
      (hw : g.items? w = some ws) (h : List.Forall₂ r vs ws) : RewrittenItems g r v w

/-- In a value that should be a mapping, values have been replaced under their keys. -/
inductive RewrittenEntries (g : Graph) (r : Value → Value → Prop) (v : Value) : Value → Prop
  | keep : RewrittenEntries g r v v
  | entries {w : Value} {vs ws : List (Value × Value)} (hv : g.entries? v = some vs)
      (hw : g.entries? w = some ws) (h : List.Forall₂ (fun a b => a.1 = b.1 ∧ r a.2 b.2) vs ws) :
      RewrittenEntries g r v w

/-- In an operation parameters, the request body and responses have been replaced by others,
which may take the place of a node of a section. -/
structure Rewritten (g : Graph) (r : String → Value → Value → Prop)
    (entries entries' : List (Value × Value)) : Prop where
  others : ∀ key, key ∉ ["parameters", "requestBody", "responses"] →
    lookupKey entries' key = lookupKey entries key
  parameters : RewrittenItems g (r "parameters") (lookupOrNull entries "parameters")
    (lookupOrNull entries' "parameters")
  requestBody : r "requestBodies" (lookupOrNull entries "requestBody")
    (lookupOrNull entries' "requestBody")
  responses : RewrittenEntries g (r "responses") (lookupOrNull entries "responses")
    (lookupOrNull entries' "responses")

/-- Lists whose entries may take each other's places are read alike, by induction on both. -/
theorem outcome_listedParameters_of_replaces {vs ws : List Value}
    (h : List.Forall₂ (Replaces g components "parameters") vs ws) :
    (listedParameters g (.table components) ws).outcome
      = (listedParameters g (.table components) vs).outcome := by
  induction h with
  | nil => rfl
  | cons hreplaces _ ih =>
    unfold listedParameters
    simp only [Logged.outcome_bind, hreplaces.outcome_parameter?, ih]

/-- Responses that may take each other's places under the same statuses are read alike. The statuses
have to be the same values, since their texts are read as well. -/
theorem outcome_listedResponses_of_replaces {vs ws : List (Value × Value)}
    (h : List.Forall₂ (fun a b => a.1 = b.1 ∧ Replaces g components "responses" a.2 b.2) vs ws) :
    (listedResponses g (.table components) ws).outcome
      = (listedResponses g (.table components) vs).outcome := by
  induction h with
  | nil => rfl
  | cons hreplaces _ ih =>
    unfold listedResponses
    simp only [Logged.outcome_bind, hreplaces.1, hreplaces.2.outcome_readResponse, ih]

/-- A list in which entries have been replaced is read as the list was. A value that is no list
cannot have been rewritten and is empty to both. -/
theorem RewrittenItems.outcome_listedParameters
    (h : RewrittenItems g (Replaces g components "parameters") v w) :
    (listedParameters g (.table components) ((g.items? w).getD [])).outcome
      = (listedParameters g (.table components) ((g.items? v).getD [])).outcome := by
  cases h with
  | keep => rfl
  | items hv hw h =>
    rw [hv, hw]
    exact outcome_listedParameters_of_replaces h

/-- The parameters of an operation do not change where entries of its own list or of that of its
path are replaced: what is merged is what was listed before. -/
theorem RewrittenItems.outcome_readParameters {shared shared' own own' : Value}
    (hshared : RewrittenItems g (Replaces g components "parameters") shared shared')
    (hown : RewrittenItems g (Replaces g components "parameters") own own') :
    (readParameters g (.table components) shared' own').outcome
      = (readParameters g (.table components) shared own).outcome := by
  unfold readParameters
  rw [Logged.outcome_bind, Logged.outcome_bind, outcome_listedParameters_append,
    outcome_listedParameters_append, hshared.outcome_listedParameters,
    hown.outcome_listedParameters]

/-- A mapping in which responses have been replaced is read as it was. -/
theorem RewrittenEntries.outcome_readResponses
    (h : RewrittenEntries g (Replaces g components "responses") v w) :
    (readResponses g (.table components) w).outcome
      = (readResponses g (.table components) v).outcome := by
  cases h with
  | keep => rfl
  | entries hv hw h =>
    unfold readResponses
    rw [hv, hw, Logged.outcome_bind, Logged.outcome_bind, Option.getD_some, Option.getD_some,
      outcome_listedResponses_of_replaces h]

/-- An operation in which parameters, the request body or responses have been replaced is read
as the same endpoint or fails in the same way, parameters of its path being replaced or not. A
reference may be replaced by the component that it refers to if that is no reference, and by
what the component is without its reference if it is one. -/
theorem read_rewritten {path method : String} {shared shared' operation operation' : Value}
    (hshared : RewrittenItems g (Replaces g components "parameters") shared shared')
    (hentries : g.entries? operation = some entries)
    (hentries' : g.entries? operation' = some entries')
    (h : Rewritten g (Replaces g components) entries entries') :
    (read g (.table components) path method shared' operation').outcome
      = (read g (.table components) path method shared operation).outcome := by
  have hother : ∀ key, key ∉ ["parameters", "requestBody", "responses"] →
      lookupOrNull entries' key = lookupOrNull entries key :=
    fun key hkey => congrArg (Option.getD · Value.null) (h.others key hkey)
  -- Every key of an operation is asked for by itself: three may differ, and the others do not.
  unfold read
  rw [hentries, hentries']
  dsimp only
  unfold ofEntries Schema.textAt
  simp only [Logged.outcome_bind, hshared.outcome_readParameters h.parameters,
    h.requestBody.outcome_readRequestBody, h.responses.outcome_readResponses,
    hother "tags" (by decide), hother "operationId" (by decide), hother "summary" (by decide),
    hother "description" (by decide)]

/-- The nodes 0 and 1 are operations. The one has references to components, and the other one
has the components in their place. The response `Done` is a reference itself. -/
def referring : Graph :=
  ⟨#[.map [(.text "operationId", .text "list"), (.text "parameters", .node 2),
        (.text "requestBody", .node 4), (.text "responses", .node 5)],
    .map [(.text "operationId", .text "list"), (.text "parameters", .node 7),
        (.text "requestBody", .node 9), (.text "responses", .node 12)],
    .list [.node 3],
    .map [(.text "$ref", .text "#/components/parameters/Limit")],
    .map [(.text "$ref", .text "#/components/requestBodies/Note")],
    .map [(.text "200", .node 6)],
    .map [(.text "$ref", .text "#/components/responses/Done")],
    .list [.node 8],
    .map [(.text "name", .text "limit")],
    .map [(.text "required", .bool true)],
    .map [(.text "$ref", .text "#/components/responses/Other"),
      (.text "description", .text "Done")],
    .map [(.text "description", .text "Done")],
    .map [(.text "200", .node 11)],
    .map [(.text "Limit", .node 8)],
    .map [(.text "Note", .node 9)],
    .map [(.text "Done", .node 10)]]⟩

/-- The components that the operations of `referring` point into. -/
def referringComponents : Table :=
  [("parameters", .node 13), ("requestBodies", .node 14), ("responses", .node 15)]

/-- The two operations are read as the same endpoint, and that is an endpoint with the parameter,
the body and the response of the components. -/
theorem read_rewritten_referring :
    (read referring (.table referringComponents) "/a" "post" (.node 7) (.node 1)).outcome
      = (read referring (.table referringComponents) "/a" "post" (.node 2) (.node 0)).outcome ∧
    ∃ e, (read referring (.table referringComponents) "/a" "post" (.node 2) (.node 0)).outcome
        = .ok e ∧
      e.parameters.map Parameter.name = ["limit"] ∧
      e.requestBody.map RequestBody.required = some true ∧
      e.responses.map (fun r => (r.1, r.2.description)) = [("200", "Done")] := by
  have hlimit : Refers referring referringComponents "parameters" (.node 3) (.node 8) :=
    ⟨_, _, "Limit", _, rfl, rfl, rfl, rfl, rfl⟩
  have hnote : Refers referring referringComponents "requestBodies" (.node 4) (.node 9) :=
    ⟨_, _, "Note", _, rfl, rfl, rfl, rfl, rfl⟩
  have hdone : Refers referring referringComponents "responses" (.node 6) (.node 10) :=
    ⟨_, _, "Done", _, rfl, rfl, rfl, rfl, rfl⟩
  have hparameters : RewrittenItems referring (Replaces referring referringComponents "parameters")
      (.node 2) (.node 7) :=
    .items rfl rfl (.cons (.target hlimit rfl rfl) .nil)
  refine ⟨read_rewritten hparameters rfl rfl ⟨?_, hparameters, .target hnote rfl rfl, ?_⟩,
    _, rfl, rfl, rfl, rfl⟩
  · intro key hkey
    simp only [List.mem_cons, List.not_mem_nil, or_false, not_or] at hkey
    simp [lookupKey, List.find?_cons, eq_comm, hkey]
  · refine .entries rfl rfl (.cons ⟨rfl, .stripped hdone rfl rfl rfl ?_⟩ .nil)
    intro key hkey
    simp [lookupKey, List.find?_cons, Ne.symm hkey]

/-- The nodes 0 and 1 are operations. The parameter of the one is a reference to a reference to
the parameter `q`, and that of the other one is the second reference. -/
def chained : Graph :=
  ⟨#[.map [(.text "parameters", .node 2)], .map [(.text "parameters", .node 3)],
    .list [.node 4], .list [.node 5],
    .map [(.text "$ref", .text "#/components/parameters/A")],
    .map [(.text "$ref", .text "#/components/parameters/B")],
    .map [(.text "name", .text "q")],
    .map [(.text "A", .node 5), (.text "B", .node 6)]]⟩

/-- A reference to a reference may not be replaced by the one that it refers to: it comes to no
parameter, and the other one does. -/
theorem reference_to_reference :
    (∃ entries entries', chained.entries? (.node 0) = some entries ∧
      chained.entries? (.node 1) = some entries' ∧
      Rewritten chained (fun sectionName v w =>
          v = w ∨ Refers chained [("parameters", .node 7)] sectionName v w ∧ chained.isMapping w)
        entries entries') ∧
    ((read chained (.table [("parameters", .node 7)]) "/a" "get" .null (.node 0)).outcome.map
      fun e => e.parameters.map Parameter.name) = .ok [] ∧
    ((read chained (.table [("parameters", .node 7)]) "/a" "get" .null (.node 1)).outcome.map
      fun e => e.parameters.map Parameter.name) = .ok ["q"] := by
  have hrefers : Refers chained [("parameters", .node 7)] "parameters" (.node 4) (.node 5) :=
    ⟨_, _, "A", _, rfl, rfl, rfl, rfl, rfl⟩
  refine ⟨⟨_, _, rfl, rfl, ?_, ?_, .inl rfl, .keep⟩, rfl, rfl⟩
  · intro key hkey
    simp only [List.mem_cons, not_or] at hkey
    simp [lookupKey, Ne.symm hkey.1]
  · exact .items rfl rfl (.cons (.inr ⟨hrefers, rfl⟩) .nil)

end TypedClient.Endpoint
