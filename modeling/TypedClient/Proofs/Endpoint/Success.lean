import TypedClient.Endpoint.Success
import TypedClient.Proofs.Log
import TypedClient.Proofs.Schema.Reading

/-!
# `TypedClient.Proofs.Endpoint.Success`: when it can be found out what a success is

Statuses of success are three digits, in the wide sense in which a superscript is one, and
they are compared by the numbers that decimal digits make. A status of success with a digit
that has no value makes the comparison fail.

* `Endpoint.Unvalued`: such a status.
* `Endpoint.successSchema_eq_error_iff`: an endpoint fails exactly if it has one.
-/

set_option autoImplicit false

namespace TypedClient

namespace Endpoint

variable {e : Endpoint} {status : String} {f : Failure}

/-- The status means success, but one of its digits has no value. -/
def Unvalued (status : String) : Prop :=
  isSuccess status = true ∧ ∃ c ∈ status.toList, Text.decimalValue? c = none

/-- A status has a number unless one of its digits has none, which superscripts and their like do
not have although they count as digits. -/
theorem statusNumber_eq_error_iff : statusNumber status = .error f ↔
    f = .defect .malformedNumber ∧ ∃ c ∈ status.toList, Text.decimalValue? c = none := by
  rw [← mapM_eq_none_iff]
  unfold statusNumber
  split
  · rename_i hmapM
    simp [hmapM]
  · rename_i hmapM
    simp [hmapM, eq_comm]

/-- Choosing a success fails exactly if some status of success has a digit without a value. Any one
of them is enough: all are given a number before they are compared. -/
theorem successSchema_eq_error_iff : e.successSchema = .error f ↔
    f = .defect .malformedNumber ∧ ∃ status ∈ e.responses.map Prod.fst, Unvalued status := by
  -- Neither the order nor the content matters for a failure, only the numbers of the statuses.
  have hcodes : e.successSchema = .error f ↔
      (((e.responses.map Prod.fst).filter isSuccess).mapM fun status => do
        let n ← statusNumber status
        pure (n, status)) = .error f := by
    unfold successSchema successStatus successCodes
    simp only [bind_pure_eq_error_iff]
  rw [hcodes]
  constructor
  · intro h
    obtain ⟨status, hstatus, h⟩ := exists_of_mapM_eq_error h
    obtain ⟨hf, hdigit⟩ := statusNumber_eq_error_iff.mp (bind_pure_eq_error_iff.mp h)
    obtain ⟨hmem, hsuccess⟩ := List.mem_filter.mp hstatus
    exact ⟨hf, status, hmem, hsuccess, hdigit⟩
  · rintro ⟨rfl, status, hmem, hsuccess, hdigit⟩
    have hfilter : status ∈ (e.responses.map Prod.fst).filter isSuccess :=
      List.mem_filter.mpr ⟨hmem, hsuccess⟩
    have hnumber : statusNumber status = .error (.defect .malformedNumber) :=
      statusNumber_eq_error_iff.mpr ⟨rfl, hdigit⟩
    -- Another status may fail before this one, in the same way.
    cases hcodes : ((e.responses.map Prod.fst).filter isSuccess).mapM (fun status => do
        let n ← statusNumber status
        pure (n, status)) with
    | ok codes =>
      obtain ⟨_, -, h⟩ := exists_result_of_mapM_eq_ok hcodes hfilter
      rw [hnumber] at h
      cases h
    | error f =>
      obtain ⟨_, -, h⟩ := exists_of_mapM_eq_error hcodes
      rw [(statusNumber_eq_error_iff.mp (bind_pure_eq_error_iff.mp h)).1]

/-! ### Which schemas are chosen -/

/-- The preferred schema is one of those of the content, whichever of the three rules picks it. -/
theorem mem_of_preferredSchema {content : Content} {schema : Schema}
    (h : preferredSchema content = some schema) : ∃ type, (type, schema) ∈ content := by
  unfold preferredSchema at h
  split at h
  · rename_i found hlookup
    cases h
    exact ⟨_, Assoc.mem_of_lookup hlookup⟩
  · split at h
    · rename_i entry hfind
      cases h
      exact ⟨entry.1, List.mem_of_find?_eq_some hfind⟩
    · obtain ⟨entry, hentry, rfl⟩ := Option.map_eq_some_iff.mp h
      exact ⟨entry.1, List.mem_of_mem_head? hentry⟩

/-- Every schema that the endpoint speaks of is writable. -/
structure Writable (e : Endpoint) : Prop where
  parameter : ∀ p ∈ e.parameters, p.schema.Writable
  body : ∀ b, e.requestBody = some b → ∀ c ∈ b.content, c.2.Writable
  response : ∀ r ∈ e.responses, ∀ c ∈ r.2.content, c.2.Writable

/-- The schema of the body is among those that the endpoint speaks of. -/
theorem Writable.bodySchema (h : e.Writable) {schema : Schema}
    (hs : e.bodySchema = some schema) : schema.Writable := by
  obtain ⟨b, hb, hs⟩ := Option.bind_eq_some_iff.mp hs
  obtain ⟨type, hmem⟩ := mem_of_preferredSchema hs
  exact h.body b hb _ hmem

/-- The schema that a method returns is among those that the endpoint speaks of, since a status that
was chosen is one of its responses. -/
theorem Writable.successSchema (h : e.Writable) {schema : Schema}
    (hs : e.successSchema = .ok (some schema)) : schema.Writable := by
  obtain ⟨status, -, hs⟩ := bind_eq_ok_iff.mp hs
  obtain ⟨s, -, hs⟩ := Option.bind_eq_some_iff.mp (Except.ok.inj hs)
  obtain ⟨type, hmem⟩ := mem_of_preferredSchema hs
  unfold contentOf at hmem
  cases hlookup : e.responses.lookup s with
  | none => simp [hlookup] at hmem
  | some r =>
    simp only [hlookup, Option.map_some, Option.getD_some] at hmem
    exact h.response _ (Assoc.mem_of_lookup hlookup) _ hmem

end Endpoint

end TypedClient
