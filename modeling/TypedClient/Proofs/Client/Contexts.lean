import TypedClient.Proofs.Client.Method
import TypedClient.Proofs.Document
import TypedClient.Proofs.Json.Reader

/-!
# `TypedClient.Proofs.Client.Contexts`: why a document has no client

A document is read, its endpoints are extracted, and a builder makes the client and its
types. If the mappings of the document are keyed by text, as those of JSON are, all that can
go wrong comes down to four things: a node that is no schema, an integer that is too long, a
reference into a section of the components that is no mapping, and a status of success that
cannot be compared. The first one is reported; the other ones are defects.

* `Builder.Hinders`, `Builder.of_fails_contexts`: how a builder fails.
* `Data.contexts`: the client and the types of a document.
* `Data.explains_of_json`: why those of a document written in JSON cannot be made.
* `Data.contexts_outcome`: what keeps them from being made, and what they rule out.
-/

set_option autoImplicit false

namespace TypedClient

open Work

namespace Builder

variable {b b' : Builder} {e : Endpoint} {f : Failure} {schema : Schema} {suffix : String}

/-! ### Types that cannot be written -/

/-- A schema cannot be declared only for an integer that is too long to be written. -/
theorem of_fails_declareSchema {name : String} (h : (declareSchema name schema).Fails b f) :
    f = .defect .integerTooLong ∧ ¬ schema.Writable := by
  rcases declareSchema_cases b name schema with ⟨-, hg⟩ | ⟨-, -, hg⟩ | ⟨-, f', hnote, hfails, -⟩
  · cases hg.1.symm.trans h
  · cases hg.1.symm.trans h
  · obtain rfl := Except.error.inj (hfails.symm.trans h)
    exact of_noteType_eq_error schema hnote

/-- Schemas in a row cannot be declared only if one of them cannot be written. -/
theorem of_fails_declareEach {schemas : List (String × Schema)}
    (h : (declareEach schemas).Fails b f) :
    f = .defect .integerTooLong ∧ ∃ s ∈ schemas, ¬ s.2.Writable := by
  induction schemas generalizing b with
  | nil => cases h
  | cons s rest ih =>
    -- The first schema fails, or one of the rest does after it.
    rcases fails_bind_iff.mp h with h | ⟨_, _, -, h⟩
    · obtain ⟨hf, hs⟩ := of_fails_declareSchema h
      exact ⟨hf, s, List.mem_cons_self, hs⟩
    · obtain ⟨hf, s', hs', hw⟩ := ih h
      exact ⟨hf, s', List.mem_cons_of_mem _ hs', hw⟩

/-- Not everything can be declared only if a schema of the document cannot be written. -/
theorem of_fails_declareAll (h : declareAll.Fails b f) :
    f = .defect .integerTooLong ∧ ∃ s ∈ b.document.schemas, ¬ s.2.Writable := by
  rcases fails_bind_iff.mp h with h | ⟨_, _, hs, h⟩
  · cases h
  · obtain ⟨rfl, rfl⟩ := gives_state_iff.mp hs
    exact of_fails_declareEach h

/-- A record cannot be hoisted only for an integer that is too long. The name is taken before, which
does not fail. -/
theorem of_fails_hoist (h : (hoist e schema suffix).Fails b f) :
    f = .defect .integerTooLong ∧ ¬ schema.Writable := by
  unfold hoist at h
  simp only [fails_bind_iff, gives_state_iff, gives_change_iff, fails_ofLogged_iff,
    not_fails_state, not_fails_change, not_fails_pure, false_or, and_false, exists_false,
    or_false] at h
  obtain ⟨_, _, ⟨rfl, rfl⟩, _, _, rfl, h⟩ := h
  exact of_noteType_eq_error schema h

/-- A type cannot be written only if there is a schema, and that one has an integer that is too
long. -/
theorem of_fails_schemaType {schema : Option Schema} (h : (schemaType e schema suffix).Fails b f) :
    f = .defect .integerTooLong ∧ ∃ s, schema = some s ∧ ¬ s.Writable := by
  cases schema with
  | none => cases h
  | some s =>
    suffices hs : f = .defect .integerTooLong ∧ ¬ s.Writable from ⟨hs.1, s, rfl, hs.2⟩
    unfold schemaType at h
    dsimp only at h
    -- A record is hoisted; any other type is noted and written where it stands.
    split at h
    · exact of_fails_hoist h
    · rcases fails_bind_iff.mp h with h | ⟨_, _, -, h⟩
      · cases h
      · rcases Logged.bind_error_iff.mp (fails_ofLogged_iff.mp h) with h | ⟨_, -, h⟩
        · exact of_noteType_eq_error s h
        · cases h

/-! ### Methods -/

/-- The types of the parameters cannot be noted only if a schema of them cannot be written.
Parameters that are not surfaced are noted without their types. -/
theorem of_noteParameters_eq_error {names : TypeNames} {ps : List Parameter}
    (h : (e.noteParameters names ps).outcome = .error f) :
    f = .defect .integerTooLong ∧ ∃ p ∈ ps, ¬ p.schema.Writable := by
  induction ps with
  | nil => cases h
  | cons p rest ih =>
    -- What a later parameter fails for is a failure of the whole list.
    have hlater : (e.noteParameters names rest).outcome = .error f →
        f = .defect .integerTooLong ∧ ∃ p' ∈ p :: rest, ¬ p'.schema.Writable := fun h =>
      (ih h).imp_right fun ⟨p', hp', hw⟩ => ⟨p', List.mem_cons_of_mem _ hp', hw⟩
    unfold Endpoint.noteParameters at h
    split at h
    · rcases Logged.bind_error_iff.mp h with h | ⟨_, -, h⟩
      · cases h
      · exact hlater h
    · rcases Logged.bind_error_iff.mp h with h | ⟨_, -, h⟩
      · exact (of_noteType_eq_error p.schema h).imp_right fun hw => ⟨p, List.mem_cons_self, hw⟩
      · exact hlater h

/-- Parameters that stand for placeholders are texts. -/
theorem writable_allParameters (he : e.Writable) : ∀ p ∈ e.allParameters, p.schema.Writable := by
  refine List.forall_mem_append.mpr ⟨he.parameter, fun p hp => ?_⟩
  obtain ⟨name, -, rfl⟩ := List.mem_map.mp hp
  rfl

/-- How making the method of an endpoint fails. -/
inductive Hinders (e : Endpoint) : Failure → Prop
  | integer (h : ¬ e.Writable) : Hinders e (.defect .integerTooLong)
  | status {status : String} (hmem : status ∈ e.responses.map Prod.fst)
    (h : Endpoint.Unvalued status) : Hinders e (.defect .malformedNumber)

/-- Making a method fails only for an integer in a schema of its endpoint, or for a status of
success without a number. -/
theorem hinders_of_fails_method {name : String} (h : (method e name).Fails b f) : Hinders e f := by
  -- The parameters, the type of the body, the choice of a success and its type.
  rcases of_fails_method h with h | h | h | ⟨b₁, success, hsuccess, h⟩
  · obtain ⟨rfl, p, hp, hw⟩ := of_noteParameters_eq_error h
    exact .integer fun he => hw (writable_allParameters he p hp)
  · unfold bodyType at h
    split at h
    · cases h
    · obtain ⟨rfl, s, hs, hw⟩ := of_fails_schemaType h
      exact .integer fun he => hw (he.bodySchema hs)
  · obtain ⟨rfl, status, hmem, hstatus⟩ := Endpoint.successSchema_eq_error_iff.mp h
    exact .status hmem hstatus
  · obtain ⟨rfl, s, rfl, hw⟩ := of_fails_schemaType h
    exact .integer fun he => hw (he.successSchema hsuccess)

/-- Making methods in a row fails only if one of the endpoints hinders its own. -/
theorem hinders_of_fails_methods {ps : List (Endpoint × String)} (h : (methods ps).Fails b f) :
    ∃ p ∈ ps, Hinders p.1 f := by
  induction ps generalizing b with
  | nil => cases h
  | cons p rest ih =>
    rcases fails_bind_iff.mp h with h | ⟨_, _, -, h⟩
    · exact ⟨p, List.mem_cons_self, hinders_of_fails_method h⟩
    · rcases fails_bind_iff.mp h with h | ⟨_, _, -, h⟩
      · obtain ⟨p', hp', h⟩ := ih h
        exact ⟨p', List.mem_cons_of_mem _ hp', h⟩
      · cases h

/-- A method is made only if all statuses of success have numbers, since the choice needs them. -/
theorem not_unvalued_of_gives_method {name : String} {m : Method}
    (h : (method e name).Gives b m b') :
    ∀ status ∈ e.responses.map Prod.fst, ¬ Endpoint.Unvalued status := by
  obtain ⟨-, body, b₁, success, result, -, hsuccess, -⟩ := gives_method_iff.mp h
  intro status hmem hstatus
  have herror := Endpoint.successSchema_eq_error_iff.mpr ⟨rfl, status, hmem, hstatus⟩
  rw [hsuccess] at herror
  cases herror

/-! ### The client and its types -/

/-- A client cannot be made only for a component schema or an endpoint that hinders it. The names of
methods are always found. -/
theorem of_fails_clientContext {es : List Endpoint} {httpClientImport typesImport : String}
    (h : (clientContext es httpClientImport typesImport).Fails b f) :
    (f = .defect .integerTooLong ∧ ∃ s ∈ b.document.schemas, ¬ s.2.Writable) ∨
      ∃ e ∈ es, Hinders e f := by
  unfold clientContext at h
  rcases fails_bind_iff.mp h with h | ⟨_, b₁, -, h⟩
  · exact .inl (of_fails_declareAll h)
  simp only [fails_bind_iff, fails_ofLogged_iff, gives_ofLogged_iff, not_fails_state,
    not_fails_pure, and_false, exists_false, or_false] at h
  rcases h with h | ⟨_, _, ⟨-, rfl⟩, h⟩
  · -- Choosing the names of methods only takes notes.
    cases h
  · obtain ⟨p, hp, h⟩ := hinders_of_fails_methods h
    exact .inr ⟨p.1, (List.of_mem_zip hp).1, h⟩

/-- The types are listed without failing once the client is made. -/
theorem of_fails_contexts {es : List Endpoint} {httpClientImport typesImport : String}
    (h : (contexts es httpClientImport typesImport).Fails b f) :
    (f = .defect .integerTooLong ∧ ∃ s ∈ b.document.schemas, ¬ s.2.Writable) ∨
      ∃ e ∈ es, Hinders e f := by
  rcases fails_bind_iff.mp h with h | ⟨_, b₁, hclient, h⟩
  · exact of_fails_clientContext h
  · rcases fails_bind_iff.mp h with h | ⟨_, _, -, h⟩
    · -- The client has declared everything, so there is nothing left that could fail.
      have htypes := (gives_typesContext (complete_of_gives_clientContext hclient)).1
      rw [Fails, htypes] at h
      cases h
    · cases h

/-- A client is made only if all statuses of success of its endpoints have numbers. -/
theorem not_unvalued_of_gives_contexts {es : List Endpoint} {httpClientImport typesImport : String}
    {made : ClientContext × TypesContext}
    (h : (contexts es httpClientImport typesImport).Gives b made b') :
    ∀ e ∈ es, ∀ status ∈ e.responses.map Prod.fst, ¬ Endpoint.Unvalued status := by
  obtain ⟨b₁, hclient, -⟩ := gives_contexts_iff.mp h
  obtain ⟨b₂, -, hms, -⟩ := gives_clientContext hclient
  -- There is a method for every endpoint, and each of them was made.
  have hall : List.Forall₂ (fun e _ =>
      (∀ status ∈ e.responses.map Prod.fst, ¬ Endpoint.Unvalued status) ∧ True)
      es made.1.methods := by
    refine forall₂_of_zip_methodNames ((gives_methods hms).imp ?_)
    rintro p m ⟨b₃, b₄, -, hm, -⟩
    exact ⟨not_unvalued_of_gives_method hm, trivial⟩
  exact ((List.forall₂_and_left es made.1.methods).mp hall).1

end Builder

namespace Data

/-- The client and the types of a document. -/
def contexts (d : Data) (httpClientImport typesImport : String) :
    Except Failure (ClientContext × TypesContext) := do
  let document ← Document.ofData d
  let endpoints ← document.endpoints.outcome
  ((Builder.contexts endpoints httpClientImport typesImport).resultFrom
    (Builder.ofDocument document)).outcome

/-- Why a document has no client. Only the first reason is one that is reported. -/
inductive Explains (d : Data) : Failure → Prop
  | schema (e : SchemaError) : d.Explains (.schema e)
  | integer (h : ¬ d.graph.Writable) : d.Explains (.defect .integerTooLong)
  | reference {document : Document} (hd : Document.ofData d = .ok document)
    (h : document.Misdirects) : d.Explains (.defect .lookupInNonMapping)
  | status {document : Document} (hd : Document.ofData d = .ok document)
    (h : document.Unvalued) : d.Explains (.defect .malformedNumber)

variable {d : Data} {f : Failure} {httpClientImport typesImport : String}

/-- What the graph refuses is explained by the graph alone. -/
theorem explains_of_refuses (h : d.graph.Refuses f) : d.Explains f := by
  cases h with
  | schema e => exact .schema e
  | integer hlong => exact .integer hlong

/-- A mapping is no document only for what its graph refuses. -/
theorem explains_of_ofData (hroot : d.graph.isMapping d.root = true) (hkeys : d.graph.TextKeyed)
    (h : Document.ofData d = .error f) : d.Explains f := by
  obtain ⟨entries, hentries⟩ := Option.isSome_iff_exists.mp hroot
  simp only [Document.ofData, hentries] at h
  exact explains_of_refuses (Document.refuses_of_ofEntries hkeys h)

/-- The document of a mapping has the graph of the mapping, and schemas that can be written if the
graph can. -/
theorem of_ofData_eq_ok {document : Document} (h : Document.ofData d = .ok document) :
    document.graph = d.graph ∧ (d.graph.Writable → ∀ s ∈ document.schemas, s.2.Writable) := by
  unfold Document.ofData at h
  split at h
  · exact Document.of_ofEntries_eq_ok h
  · cases h

/-- Every failure on the way from a mapping to its client is explained. The three stages are gone
through in their order: the document, its endpoints, and the builder. -/
theorem explains_of_contexts_eq_error (hroot : d.graph.isMapping d.root = true)
    (hkeys : d.graph.TextKeyed) (h : d.contexts httpClientImport typesImport = .error f) :
    d.Explains f := by
  rcases bind_eq_error_iff.mp h with h | ⟨document, hd, h⟩
  · exact explains_of_ofData hroot hkeys h
  obtain ⟨hgraph, hschemas⟩ := of_ofData_eq_ok hd
  rw [← hgraph] at hkeys hschemas
  rcases bind_eq_error_iff.mp h with h | ⟨es, hes, h⟩
  · rcases Document.of_endpoints_eq_error hkeys h with hrefuses | ⟨rfl, hmisdirects⟩
    · exact explains_of_refuses (hgraph ▸ hrefuses)
    · exact .reference hd hmisdirects
  obtain ⟨-, hunvalued, hwritable⟩ := Document.of_endpoints_eq_ok hkeys hes
  -- The builder is hindered by a schema of the document or by an endpoint of it.
  rcases Builder.of_fails_contexts h with ⟨rfl, s, hs, hlong⟩ | ⟨e, he, hhinders⟩
  · exact .integer fun hg => hlong (hschemas (hgraph ▸ hg) s hs)
  · cases hhinders with
    | integer hlong => exact .integer fun hg => hlong (hwritable (hgraph ▸ hg) e he)
    | status hmem hstatus => exact .status hd (hunvalued.mpr ⟨e, he, _, hmem, hstatus⟩)

/-- A client rules out both defects of a document, since each of them stops a stage on the way. -/
theorem of_contexts_eq_ok (hkeys : d.graph.TextKeyed) {made : ClientContext × TypesContext}
    (h : d.contexts httpClientImport typesImport = .ok made) :
    ∃ document, Document.ofData d = .ok document ∧ ¬ document.Misdirects ∧ ¬ document.Unvalued := by
  obtain ⟨document, hd, h⟩ := bind_eq_ok_iff.mp h
  obtain ⟨es, hes, h⟩ := bind_eq_ok_iff.mp h
  rw [← (of_ofData_eq_ok hd).1] at hkeys
  obtain ⟨hmisdirects, hunvalued, -⟩ := Document.of_endpoints_eq_ok hkeys hes
  refine ⟨document, hd, hmisdirects, fun hdoc => ?_⟩
  obtain ⟨e, he, status, hmem, hstatus⟩ := hunvalued.mp hdoc
  exact Builder.not_unvalued_of_gives_contexts ⟨h, rfl⟩ e he status hmem hstatus

/-- A text in JSON holds no integer that is too long, so there are three reasons left. -/
theorem explains_of_json {s : String} (hread : Json.read s = .ok d)
    (hroot : d.graph.isMapping d.root = true)
    (h : d.contexts httpClientImport typesImport = .error f) :
    (∃ e, f = .schema e) ∨ ∃ document, Document.ofData d = .ok document ∧
      (f = .defect .lookupInNonMapping ∧ document.Misdirects ∨
        f = .defect .malformedNumber ∧ document.Unvalued) := by
  obtain ⟨hkeys, hwritable⟩ := Json.sound_of_read hread
  cases explains_of_contexts_eq_error hroot hkeys h with
  | schema e => exact .inl ⟨e, rfl⟩
  | integer hlong => exact absurd hwritable hlong
  | reference hd hmisdirects => exact .inr ⟨_, hd, .inl ⟨rfl, hmisdirects⟩⟩
  | status hd hunvalued => exact .inr ⟨_, hd, .inr ⟨rfl, hunvalued⟩⟩

/-- A document whose mappings are keyed by text has a client unless a schema of it cannot be
read, which is reported, or an integer is too long, a reference leads into a section of the
components that is no mapping, or a status of success has no number. A document with such a
reference or status never has a client. -/
theorem contexts_outcome (d : Data) (hroot : d.graph.isMapping d.root = true)
    (hkeys : d.graph.TextKeyed) (httpClientImport typesImport : String) :
    (∀ f, d.contexts httpClientImport typesImport = .error f → d.Explains f) ∧
    (∀ made, d.contexts httpClientImport typesImport = .ok made →
      ∃ document, Document.ofData d = .ok document ∧
        ¬ document.Misdirects ∧ ¬ document.Unvalued) :=
  ⟨fun _ => explains_of_contexts_eq_error hroot hkeys, fun _ => of_contexts_eq_ok hkeys⟩

/-- A document with one operation, which is the node 3, and with components, the node 4. -/
def withOperation (operation components : List (Value × Value)) (rest : List Node) : Data where
  graph := ⟨#[.map [(.text "paths", .node 1), (.text "components", .node 4)],
    .map [(.text "/a", .node 2)], .map [(.text "get", .node 3)], .map operation,
    .map components] ++ rest.toArray⟩
  root := .node 0

/-- Everything in the operation has a shape that it should not have. -/
def misshapen : Data :=
  withOperation [(.text "tags", .null), (.text "parameters", .int 1),
    (.text "requestBody", .bool true), (.text "responses", .node 5),
    (.text "summary", .node 5)] [(.text "schemas", .text "none")]
    [.list [.int 0]]

/-- Wherever a list, a mapping or a text is expected and there is something else, the client is made
nevertheless. -/
theorem contexts_outcome_misshapen :
    misshapen.graph.isMapping misshapen.root = true ∧ misshapen.graph.TextKeyed ∧
      ∃ made document, misshapen.contexts "./http-client" "./types" = .ok made ∧
        Document.ofData misshapen = .ok document ∧ ¬ document.Misdirects ∧ ¬ document.Unvalued := by
  have hroot : misshapen.graph.isMapping misshapen.root = true := by decide
  have hkeys : misshapen.graph.TextKeyed := by decide
  have hok : (misshapen.contexts "./http-client" "./types").isOk = true := by decide +kernel
  obtain ⟨made, hmade⟩ := exists_of_isOk hok
  obtain ⟨document, hdocument⟩ := (contexts_outcome misshapen hroot hkeys _ _).2 made hmade
  exact ⟨hroot, hkeys, made, document, hmade, hdocument⟩

/-- A parameter refers to the parameters of the components, which are a list. -/
def listedComponents : Data :=
  withOperation [(.text "parameters", .node 5)] [(.text "parameters", .node 7)]
    [.list [.node 6], .map [(.text "$ref", .text "#/components/parameters/P")], .list [.text "P"]]

/-- The status of a response has a superscript among its digits. -/
def superscriptStatus : Data :=
  withOperation [(.text "responses", .node 5)] [] [.map [(.text "2\u00b20", .node 6)], .map []]

/-- A reference into a list and a superscript in a status are not reported but break the work
off. -/
theorem defects_of_reference_and_status :
    (listedComponents.graph.isMapping listedComponents.root = true ∧
      listedComponents.graph.TextKeyed ∧
      listedComponents.contexts "./http-client" "./types" = .error (.defect .lookupInNonMapping)) ∧
    (superscriptStatus.graph.isMapping superscriptStatus.root = true ∧
      superscriptStatus.graph.TextKeyed ∧
      superscriptStatus.contexts "./http-client" "./types" = .error (.defect .malformedNumber)) :=
  ⟨⟨by decide, by decide, rfl⟩, by decide, by decide, rfl⟩

end Data

end TypedClient
