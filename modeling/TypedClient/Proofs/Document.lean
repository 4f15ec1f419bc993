import TypedClient.Document
import TypedClient.Proofs.Endpoint.Operations

/-!
# `TypedClient.Proofs.Document`: why a document and its endpoints cannot be read

In a graph whose mappings are keyed by text, as those of JSON are, reading a document fails
only where the graph refuses a value or a schema. Its endpoints may besides refer to a
section of the components that is no mapping.

* `Document.Misdirects`, `Document.Unvalued`: a document with such a reference, and one
  with a status of success that cannot be compared with others.
* `Document.of_ofEntries_eq_ok`, `Document.of_endpoints_eq_ok`: what is known of a document
  that is read, and of its endpoints.
-/

set_option autoImplicit false

namespace TypedClient

namespace Document

variable {g : Graph} {entries : List (Value × Value)} {d : Document} {f : Failure}

/-- The operations of the document. -/
def operations (d : Document) : List Endpoint.Operation := Endpoint.operationsOf d.graph d.paths

/-- An operation refers to a section of the components that is no mapping. -/
def Misdirects (d : Document) : Prop :=
  ∃ o ∈ d.operations, ∃ r ∈ o.referrers d.graph,
    Endpoint.Misdirected d.graph d.components r.1 r.2

/-- An operation has a status of success with a digit that has no value. -/
def Unvalued (d : Document) : Prop :=
  ∃ o ∈ d.operations, ∃ r ∈ o.responses d.graph, ∃ status,
    d.graph.text r.1 = .ok status ∧ Endpoint.Unvalued status

/-! ### Reading a document -/

/-- A table is refused only for a key that is neither text nor bytes of UTF-8, so one that is keyed
by text never is. -/
theorem tableOf_ne_error (h : ∀ e ∈ entries, ∃ s, e.1 = .text s) : tableOf entries ≠ .error f := by
  have hkeys : entries.mapM (fun e => (keyText? e.1).map (·, e.2)) ≠ none := by
    rw [ne_eq, mapM_eq_none_iff]
    rintro ⟨e, he, hnone⟩
    obtain ⟨s, hs⟩ := h e he
    simp [hs, keyText?] at hnone
  unfold tableOf
  split
  · exact fun h => nomatch h
  · rename_i hnone
    exact absurd hnone hkeys

/-- A text of the info section fails only where the graph refuses the value; one that counts as
false is empty without being written as a text. -/
theorem refuses_of_textOr {v : Value} (hv : g.Writable → v.fits = true)
    (h : textOr g v = .error f) : g.Refuses f := by
  unfold textOr at h
  split at h
  · exact Graph.refuses_of_text hv h
  · cases h

/-- The servers fail only for an address that the graph refuses; one without an address is passed
over. -/
theorem refuses_of_serverUrls {servers : List Value} (h : serverUrls g servers = .error f) :
    g.Refuses f := by
  obtain ⟨url, hurl, h⟩ := exists_of_mapM_eq_error h
  obtain ⟨v, -, rfl⟩ := List.mem_map.mp (List.mem_filter.mp hurl).1
  exact Graph.refuses_of_text
    (fun hg => Graph.fits_lookupOrNull fun _ he => hg.of_mem_entries he) h

/-- In a graph that is keyed by text a document is refused only for a value or a schema of the
graph: its tables are keyed by text as well, and what is missing has a default. -/
theorem refuses_of_ofEntries (hk : g.TextKeyed) (h : ofEntries g entries = .error f) :
    g.Refuses f := by
  have hinfo : ∀ {key part : String}, g.Writable →
      (lookupOrNull ((g.entries? (lookupOrNull entries part)).getD []) key).fits = true :=
    fun hg => Graph.fits_lookupOrNull fun _ he => hg.of_mem_entries he
  unfold ofEntries at h
  -- Title, version and description, then the servers, then the schemas of components.
  rcases bind_eq_error_iff.mp h with h | ⟨_, -, h⟩
  · exact refuses_of_textOr hinfo h
  rcases bind_eq_error_iff.mp h with h | ⟨_, -, h⟩
  · exact refuses_of_textOr hinfo h
  rcases bind_eq_error_iff.mp h with h | ⟨_, -, h⟩
  · exact refuses_of_textOr hinfo h
  rcases bind_eq_error_iff.mp h with h | ⟨_, -, h⟩
  · exact refuses_of_serverUrls h
  rcases bind_eq_error_iff.mp h with h | ⟨_, -, h⟩
  · obtain ⟨e, he, h⟩ := exists_of_mapM_eq_error h
    rcases bind_eq_error_iff.mp h with h | ⟨_, -, h⟩
    · exact Graph.refuses_of_text (fun hg => (hg.of_mem_entries he).1) h
    · exact Schema.of_read_eq_error (bind_pure_eq_error_iff.mp h)
  -- The keys of paths and components are text.
  rcases bind_eq_error_iff.mp h with h | ⟨_, -, h⟩
  · exact absurd h (tableOf_ne_error fun _ he => hk.of_mem_entries he)
  rcases bind_eq_error_iff.mp h with h | ⟨_, -, h⟩
  · exact absurd h (tableOf_ne_error fun _ he => hk.of_mem_entries he)
  cases h

/-- A document that was read keeps its graph, and its schemas are writable if the graph is. The
latter is what the declarations of the client need in order to be written. -/
theorem of_ofEntries_eq_ok (h : ofEntries g entries = .ok d) :
    d.graph = g ∧ (g.Writable → ∀ s ∈ d.schemas, s.2.Writable) := by
  unfold ofEntries at h
  simp only [bind_eq_ok_iff] at h
  obtain ⟨_, -, _, -, _, -, _, -, schemas, hschemas, _, -, _, -, h⟩ := h
  cases h
  refine ⟨rfl, fun hg s hs => ?_⟩
  obtain ⟨e, -, he⟩ := exists_of_mem_of_mapM_eq_ok hschemas (Assoc.mem_of_mem_ofList hs)
  obtain ⟨_, -, he⟩ := bind_eq_ok_iff.mp he
  obtain ⟨_, hschema, he⟩ := bind_eq_ok_iff.mp he
  cases he
  exact Schema.writable_of_read hg hschema

/-! ### The endpoints of a document -/

/-- The endpoints of a document that was read fail for what the graph refuses, or because an
operation refers to a section of the components that is no mapping. -/
theorem of_endpoints_eq_error (hk : d.graph.TextKeyed) (h : d.endpoints.outcome = .error f) :
    d.graph.Refuses f ∨ f = .defect .lookupInNonMapping ∧ d.Misdirects := by
  rw [endpoints, Endpoint.outcome_readAll hk] at h
  obtain ⟨o, ho, h⟩ := exists_of_mapM_eq_error h
  cases Endpoint.Operation.of_read_eq_error h with
  | reference hr hmisdirected => exact .inr ⟨rfl, o, ho, _, hr, hmisdirected⟩
  | refusal hrefuses => exact .inl hrefuses

/-- Of endpoints that were read it is known that no operation refers wrongly, that an unvalued
status of the document is one of an endpoint, and that what they hold is writable. With these three
the failures after the reading can be told from the document alone. -/
theorem of_endpoints_eq_ok (hk : d.graph.TextKeyed) {es : List Endpoint}
    (h : d.endpoints.outcome = .ok es) :
    ¬ d.Misdirects ∧
      (d.Unvalued ↔ ∃ e ∈ es, ∃ status ∈ e.responses.map Prod.fst, Endpoint.Unvalued status) ∧
      (d.graph.Writable → ∀ e ∈ es, e.Writable) := by
  rw [endpoints, Endpoint.outcome_readAll hk] at h
  refine ⟨?_, ⟨?_, ?_⟩, fun hg e he => ?_⟩
  · rintro ⟨o, ho, r, hr, hmisdirected⟩
    obtain ⟨e, -, hread⟩ := exists_result_of_mapM_eq_ok h ho
    exact (Endpoint.Operation.of_read_eq_ok hread).1 r hr hmisdirected
  · -- Statuses pass from an operation to its endpoint and back, whichever operation has them.
    rintro ⟨o, ho, r, hr, status, hstatus, hunvalued⟩
    obtain ⟨e, he, hread⟩ := exists_result_of_mapM_eq_ok h ho
    exact ⟨e, he, status,
      ((Endpoint.Operation.of_read_eq_ok hread).2.1 status).mpr ⟨r, hr, hstatus⟩, hunvalued⟩
  · rintro ⟨e, he, status, hstatus, hunvalued⟩
    obtain ⟨o, ho, hread⟩ := exists_of_mem_of_mapM_eq_ok h he
    obtain ⟨r, hr, htext⟩ := ((Endpoint.Operation.of_read_eq_ok hread).2.1 status).mp hstatus
    exact ⟨o, ho, r, hr, status, htext, hunvalued⟩
  · obtain ⟨o, -, hread⟩ := exists_of_mem_of_mapM_eq_ok h he
    exact (Endpoint.Operation.of_read_eq_ok hread).2.2 hg

end Document

end TypedClient
