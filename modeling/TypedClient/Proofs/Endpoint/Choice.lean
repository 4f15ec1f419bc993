import Mathlib.Data.List.Basic
import TypedClient.Proofs.Endpoint.Success

/-!
# `TypedClient.Proofs.Endpoint.Choice`: which response a method returns

Of the statuses that mean success the least one with content counts, or else the least one.
They are compared by their numbers, and several can have one number, since digits of other
scripts count as well: of these the one that is declared first counts. Of the content of its
response JSON comes first.

* `Endpoint.Successful`, `Endpoint.Least`: what means success, and what is least.
* `Endpoint.Chosen`: the status that counts.
* `Preferred`: the schema that counts among those of a response.
* `Endpoint.success_chosen`: the status and the schema that are chosen for an endpoint are
  these.
-/

set_option autoImplicit false

namespace TypedClient

/-! ### Schemas by content type -/

/-- The search for a part of a text finds it exactly if the text has it somewhere. -/
theorem occursIn_iff {part cs : List Char} : occursIn part cs = true ↔ part <:+: cs := by
  induction cs with
  | nil => rw [occursIn, List.isEmpty_iff, List.infix_nil]
  | cons c rest ih =>
    rw [occursIn, Bool.or_eq_true_iff, List.isPrefixOf_iff_prefix, ih, List.infix_cons_iff]

/-- The content type is one of JSON. -/
def NamesJson (contentType : String) : Prop := "json".toList <:+: contentType.toList

/-- The schema that is preferred among those of a response. -/
inductive Preferred : Content → Option Schema → Prop
  | empty : Preferred [] none
  | json {content : Content} {schema : Schema}
      (h : content.lookup "application/json" = some schema) : Preferred content (some schema)
  | jsonLike {before after : Content} {contentType : String} {schema : Schema}
      (hnone : (before ++ (contentType, schema) :: after).lookup "application/json" = none)
      (hbefore : ∀ entry ∈ before, ¬ NamesJson entry.1) (h : NamesJson contentType) :
      Preferred (before ++ (contentType, schema) :: after) (some schema)
  | first {entry : String × Schema} {rest : Content}
      (hnone : ∀ e ∈ entry :: rest, ¬ NamesJson e.1) : Preferred (entry :: rest) (some entry.2)

/-- The schema that is picked is the one that the rules prefer: JSON itself, then the first type
that names JSON, then the first type at all. -/
theorem preferred_preferredSchema (content : Content) :
    Preferred content (preferredSchema content) := by
  unfold preferredSchema
  split
  · rename_i schema h
    exact .json h
  · rename_i hlookup
    -- Without JSON itself the search goes for its name, and what it passed over does not name it.
    split
    · rename_i entry hfind
      obtain ⟨hentry, before, after, rfl, hbefore⟩ := List.find?_eq_some_iff_append.mp hfind
      refine .jsonLike hlookup (fun e he hjson => ?_) (occursIn_iff.mp hentry)
      have hnot := hbefore e he
      rw [occursIn_iff.mpr hjson] at hnot
      cases hnot
    · rename_i hfind
      cases content with
      | nil => exact .empty
      | cons entry rest =>
        refine .first fun e he hjson => ?_
        exact List.find?_eq_none.mp hfind e he (occursIn_iff.mpr hjson)

/-! ### Sorting by a number -/

section Sorting

variable {α : Type} {f : α → Nat} {l : List α}

/-- Comparison by number is transitive, in the form in which `List.mergeSort` asks for it. -/
theorem le_trans_of_number (a b c : α) (hab : decide (f a ≤ f b) = true)
    (hbc : decide (f b ≤ f c) = true) : decide (f a ≤ f c) = true :=
  decide_eq_true (Nat.le_trans (of_decide_eq_true hab) (of_decide_eq_true hbc))

/-- Comparison by number is total. It is no order of the entries, since two of them may have one
number, so `List.mergeSort` being stable is what decides between these. -/
theorem le_total_of_number (a b : α) : (decide (f a ≤ f b) || decide (f b ≤ f a)) = true := by
  simpa using Nat.le_total (f a) (f b)

/-- Sorting leaves entries that are ties in the order that they have. -/
theorem filter_mergeSort {q : α → Bool}
    (h : ∀ a ∈ l, ∀ b ∈ l, q a = true → q b = true → f a ≤ f b) :
    (l.mergeSort fun a b => f a ≤ f b).filter q = l.filter q := by
  have hties : (l.filter q).Pairwise fun a b => decide (f a ≤ f b) = true := by
    refine List.Pairwise.imp_of_mem (R := fun _ _ => True) (fun ha hb _ => ?_)
      (List.pairwise_of_forall fun _ _ => trivial)
    obtain ⟨ha, hqa⟩ := List.mem_filter.mp ha
    obtain ⟨hb, hqb⟩ := List.mem_filter.mp hb
    exact decide_eq_true (h _ ha _ hb hqa hqb)
  have hsub := (List.sublist_mergeSort le_trans_of_number le_total_of_number hties
    List.filter_sublist).filter q
  simp only [List.filter_filter, Bool.and_self] at hsub
  -- There are as many ties in the sorted list, so it has them as they are.
  refine (hsub.eq_of_length ?_).symm
  exact ((List.mergeSort_perm l _).filter q).length_eq.symm

/-- What is found first in a sorted list is least, and it is found first of its ties in the
list itself. -/
theorem find?_mergeSort {p : α → Bool} {a : α}
    (h : (l.mergeSort fun a b => f a ≤ f b).find? p = some a) :
    (∀ b ∈ l, p b = true → f a ≤ f b) ∧ l.find? (fun b => p b && f b = f a) = some a := by
  have hsorted : (l.mergeSort fun a b => f a ≤ f b).Pairwise
      fun a b => decide (f a ≤ f b) = true :=
    List.pairwise_mergeSort le_trans_of_number le_total_of_number l
  obtain ⟨ha, before, after, hl, hbefore⟩ := List.find?_eq_some_iff_append.mp h
  constructor
  · intro b hb hpb
    have hb : b ∈ before ++ a :: after := hl ▸ List.mem_mergeSort.mpr hb
    rw [hl] at hsorted
    rcases List.mem_append.mp hb with hb | hb
    · have hnot := hbefore b hb
      rw [hpb] at hnot
      cases hnot
    · rcases List.mem_cons.mp hb with rfl | hb
      · exact Nat.le_refl _
      · exact of_decide_eq_true
          ((List.pairwise_cons.mp (List.pairwise_append.mp hsorted).2.1).1 b hb)
  · -- All that have the property and the least number are ties, so sorting keeps their order.
    rw [← List.head?_filter, ← filter_mergeSort (f := f), List.head?_filter, hl]
    · refine List.find?_eq_some_iff_append.mpr ⟨by simp [ha], before, after, rfl, fun b hb => ?_⟩
      have hnot := hbefore b hb
      simp_all
    · intro b hb c hc hqb hqc
      simp only [Bool.and_eq_true, decide_eq_true_eq] at hqb hqc
      omega

end Sorting

/-- What is found first stands before everything else with the property. -/
theorem idxOf_le_of_find? {α : Type} [BEq α] [LawfulBEq α] {l : List α} {q : α → Bool} {a b : α}
    (h : l.find? q = some a) (hb : q b = true) : l.idxOf a ≤ l.idxOf b := by
  induction l with
  | nil => cases h
  | cons c rest ih =>
    rw [List.find?_cons] at h
    split at h
    · cases h
      simp
    · rename_i hc
      have hne : ∀ {x}, q x = true → c ≠ x := by
        rintro x hx rfl
        rw [hx] at hc
        cases hc
      rw [List.idxOf_cons_ne _ (hne (List.find?_some h)), List.idxOf_cons_ne _ (hne hb)]
      exact Nat.succ_le_succ (ih h)

/-! ### The status -/

namespace Endpoint

variable {e : Endpoint} {status : String} {P : String → Prop} {p : String → Bool}

/-- The status means success: three digits, the first one a 2. -/
def Successful (status : String) : Prop :=
  ∃ c d, status.toList = ['2', c, d] ∧ Text.isDigit c = true ∧ Text.isDigit d = true

/-- The test for success is the three digits that begin with an ASCII 2; the others may be digits of
any script. -/
theorem isSuccess_iff : isSuccess status = true ↔ Successful status := by
  have hdigit : Text.isDigit '2' = true := by decide
  unfold isSuccess Successful
  constructor
  · intro h
    simp only [Bool.and_eq_true, decide_eq_true_eq] at h
    obtain ⟨⟨hall, hlength⟩, hhead⟩ := h
    obtain ⟨b, c, d, hchars⟩ := List.length_eq_three.mp hlength
    rw [hchars] at hall hhead ⊢
    cases hhead
    simp only [List.all_cons, Bool.and_eq_true] at hall
    exact ⟨c, d, rfl, hall.2.1, hall.2.2.1⟩
  · rintro ⟨c, d, hchars, hc, hd⟩
    simp [hchars, hdigit, hc, hd]

/-- The statuses that an endpoint declares. -/
def statuses (e : Endpoint) : List String := e.responses.map Prod.fst

/-- Every status of success has a number. -/
def Comparable (e : Endpoint) : Prop :=
  ∀ status ∈ e.statuses, Successful status → ∃ n, statusNumber status = .ok n

/-- The status has the least number of those with the property, and of those with its number
it is declared first. -/
def Least (e : Endpoint) (P : String → Prop) (status : String) : Prop :=
  status ∈ e.statuses ∧ P status ∧ ∃ n, statusNumber status = .ok n ∧
    ∀ other ∈ e.statuses, P other → ∃ m, statusNumber other = .ok m ∧
      (n < m ∨ n = m ∧ e.statuses.idxOf status ≤ e.statuses.idxOf other)

/-- The status that counts: none if none means success, and otherwise the least one with
content, or the least one if none has content. -/
inductive Chosen (e : Endpoint) : Option String → Prop
  | nothing (h : ∀ status ∈ e.statuses, ¬ Successful status) : Chosen e none
  | withContent {status : String}
      (h : Least e (fun s => Successful s ∧ e.contentOf s ≠ []) status) : Chosen e (some status)
  | bare {status : String} (hbare : ∀ s ∈ e.statuses, Successful s → e.contentOf s = [])
      (h : Least e Successful status) : Chosen e (some status)

/-- At most one status is least: two that are would have one number and one place. -/
theorem Least.unique {other : String} (h : Least e P status) (h' : Least e P other) :
    status = other := by
  obtain ⟨hmem, hP, n, hn, hleast⟩ := h
  obtain ⟨hmem', hP', m, hm, hleast'⟩ := h'
  obtain ⟨m', hm', hle⟩ := hleast other hmem' hP'
  obtain ⟨n', hn', hle'⟩ := hleast' status hmem hP
  cases hm.symm.trans hm'
  cases hn.symm.trans hn'
  refine (List.idxOf_inj hmem).mp ?_
  omega

/-- At most one status counts, since the three cases exclude each other and each leaves at most one
status. -/
theorem Chosen.unique {s t : Option String} (hs : Chosen e s) (ht : Chosen e t) : s = t := by
  cases hs with
  | nothing h =>
    cases ht with
    | nothing => rfl
    | withContent h' => exact absurd h'.2.1.1 (h _ h'.1)
    | bare _ h' => exact absurd h'.2.1 (h _ h'.1)
  | withContent h =>
    cases ht with
    | nothing h' => exact absurd h.2.1.1 (h' _ h.1)
    | withContent h' => exact congrArg some (h.unique h')
    | bare hbare _ => exact absurd (hbare _ h.1 h.2.1.1) h.2.1.2
  | bare hbare h =>
    cases ht with
    | nothing h' => exact absurd h.2.1 (h' _ h.1)
    | withContent h' => exact absurd (hbare _ h'.1 h'.2.1.1) h'.2.1.2
    | bare _ h' => exact congrArg some (h.unique h')

/-- The number of a status, zero if it has none. -/
def number (status : String) : Nat :=
  match statusNumber status with
  | .ok n => n
  | .error _ => 0

/-- For a status with a number the default of `number` does not matter. -/
theorem number_eq {n : Nat} (h : statusNumber status = .ok n) : number status = n := by
  rw [number, h]

/-- Giving numbers to statuses keeps them and their order, and each gets its own number. -/
theorem numbered_of_mapM {l : List String} {codes : List (Nat × String)}
    (h : (l.mapM fun status => do let n ← statusNumber status; pure (n, status)) = .ok codes) :
    codes.map Prod.snd = l ∧ ∀ c ∈ codes, statusNumber c.2 = .ok c.1 := by
  induction l generalizing codes with
  | nil =>
    cases h
    exact ⟨rfl, List.forall_mem_nil _⟩
  | cons status rest ih =>
    simp only [List.mapM_cons, bind_eq_ok_iff] at h
    obtain ⟨_, ⟨n, hn, hc⟩, codes, hcodes, h⟩ := h
    cases hc
    cases h
    obtain ⟨hmap, hall⟩ := ih hcodes
    exact ⟨congrArg (status :: ·) hmap, List.forall_mem_cons.mpr ⟨hn, hall⟩⟩

/-- The statuses of success in ascending order. -/
def ascending (e : Endpoint) : List String :=
  (e.statuses.filter isSuccess).mergeSort fun s t => number s ≤ number t

/-- The codes are the ascending statuses, and they can be had only if all statuses of success are
comparable. The sort of the pairs and that of the statuses agree as they compare the same
numbers. -/
theorem successCodes_eq_ok {codes : List (Nat × String)} (h : e.successCodes = .ok codes) :
    codes.map Prod.snd = e.ascending ∧ e.Comparable := by
  obtain ⟨listed, hlisted, h⟩ := bind_eq_ok_iff.mp h
  cases h
  obtain ⟨hmap, hnumbers⟩ := numbered_of_mapM hlisted
  constructor
  · have hle : ∀ a ∈ listed, ∀ b ∈ listed,
        decide (a.1 ≤ b.1) = decide (number a.2 ≤ number b.2) := by
      intro a ha b hb
      rw [number_eq (hnumbers a ha), number_eq (hnumbers b hb)]
    rw [List.map_mergeSort (s := fun s t => number s ≤ number t) hle, hmap]
    rfl
  · intro status hmem hsuccess
    have hstatus : status ∈ listed.map Prod.snd := by
      rw [hmap]
      exact List.mem_filter.mpr ⟨hmem, isSuccess_iff.mpr hsuccess⟩
    obtain ⟨c, hc, rfl⟩ := List.mem_map.mp hstatus
    exact ⟨_, hnumbers c hc⟩

/-- The first of the ascending statuses with a property is least among them. -/
theorem least_of_find? (hcomparable : e.Comparable) (h : e.ascending.find? p = some status) :
    Least e (fun s => Successful s ∧ p s = true) status := by
  obtain ⟨hleast, hfirst⟩ := find?_mergeSort h
  rw [List.find?_filter] at hfirst
  have hnumber : ∀ s ∈ e.statuses, Successful s → statusNumber s = .ok (number s) := by
    intro s hs hsuccess
    obtain ⟨n, hn⟩ := hcomparable s hs hsuccess
    rw [hn, number_eq hn]
  have hmem := List.mem_of_find?_eq_some hfirst
  have hfound := List.find?_some hfirst
  simp only [decide_eq_true_eq, Bool.and_eq_true, isSuccess_iff] at hfound
  refine ⟨hmem, ⟨hfound.1, hfound.2.1⟩, number status, hnumber _ hmem hfound.1, ?_⟩
  rintro other hother ⟨hsuccess, hp⟩
  refine ⟨number other, hnumber other hother hsuccess, ?_⟩
  have hle := hleast other (List.mem_filter.mpr ⟨hother, isSuccess_iff.mpr hsuccess⟩) hp
  -- Statuses with one number stand in the order in which they are declared.
  rcases Nat.lt_or_eq_of_le hle with hlt | heq
  · exact .inl hlt
  · refine .inr ⟨heq, idxOf_le_of_find? hfirst ?_⟩
    simp [isSuccess_iff.mpr hsuccess, hp, heq]

/-- The status that is found is the one that counts, and finding one takes comparable statuses. -/
theorem chosen_of_successStatus {s : Option String} (h : e.successStatus = .ok s) :
    e.Comparable ∧ Chosen e s := by
  obtain ⟨codes, hcodes, h⟩ := bind_eq_ok_iff.mp h
  obtain ⟨hmap, hcomparable⟩ := successCodes_eq_ok hcodes
  rw [hmap] at h
  refine ⟨hcomparable, ?_⟩
  cases h
  -- The search goes through the ascending statuses, for one with content and then for any.
  cases hcontent : e.ascending.find? fun status => !(e.contentOf status).isEmpty with
  | some status =>
    have hleast := least_of_find? hcomparable hcontent
    simp only [Bool.not_eq_true', List.isEmpty_eq_false_iff] at hleast
    exact .withContent hleast
  | none =>
    have hmem : ∀ {s}, s ∈ e.ascending ↔ s ∈ e.statuses ∧ Successful s := by
      intro s
      rw [ascending, List.mem_mergeSort, List.mem_filter, isSuccess_iff]
    have hbare : ∀ s ∈ e.statuses, Successful s → e.contentOf s = [] := by
      intro s hs hsuccess
      simpa using List.find?_eq_none.mp hcontent s (hmem.mpr ⟨hs, hsuccess⟩)
    cases hhead : e.ascending with
    | nil =>
      refine .nothing fun s hs hsuccess => ?_
      have := hmem.mpr ⟨hs, hsuccess⟩
      rw [hhead] at this
      cases this
    | cons status rest =>
      have hfind : e.ascending.find? (fun _ => true) = some status := by rw [hhead]; rfl
      have hleast := least_of_find? hcomparable hfind
      simp only [and_true] at hleast
      exact .bare hbare hleast

/-- Comparable statuses are enough for the search to come to an end without a failure. -/
theorem exists_successStatus (h : e.Comparable) : ∃ s, e.successStatus = .ok s := by
  cases hstatus : e.successStatus with
  | ok s => exact ⟨s, rfl⟩
  | error f =>
    -- The schema fails as the status does, and that only for a digit without a number.
    have hschema : e.successSchema = .error f := by
      rw [successSchema, hstatus]
      rfl
    obtain ⟨-, status, hmem, hsuccess, hdigit⟩ := successSchema_eq_error_iff.mp hschema
    obtain ⟨n, hn⟩ := h status hmem (isSuccess_iff.mp hsuccess)
    cases hn.symm.trans (statusNumber_eq_error_iff.mpr ⟨rfl, hdigit⟩)

/-- The search finds a status exactly if it counts and all statuses of success can be compared. -/
theorem successStatus_eq_ok_iff {s : Option String} :
    e.successStatus = .ok s ↔ e.Comparable ∧ Chosen e s := by
  refine ⟨chosen_of_successStatus, fun ⟨hcomparable, hchosen⟩ => ?_⟩
  obtain ⟨t, ht⟩ := exists_successStatus hcomparable
  rw [ht, hchosen.unique (chosen_of_successStatus ht).2]

/-- No status counts exactly if none means success: content decides between statuses, but a status
without content still counts where no other has any. -/
theorem Chosen.eq_none_iff {s : Option String} (h : Chosen e s) :
    s = none ↔ ∀ status ∈ e.statuses, ¬ Successful status := by
  constructor
  · rintro rfl
    cases h with
    | nothing h => exact h
  · exact fun hnone => h.unique (.nothing hnone)

/-- The status of an endpoint is the one that counts, if all of its statuses of success can be
compared, and it has a status unless none means success. The schema is then the one that is
preferred in the content of the response to that status. -/
theorem success_chosen (e : Endpoint) :
    (∀ s, e.successStatus = .ok s ↔ e.Comparable ∧ Chosen e s) ∧
    (∀ s, e.successStatus = .ok s →
      (s = none ↔ ∀ status ∈ e.statuses, ¬ Successful status)) ∧
    (∀ s, e.successStatus = .ok s → ∃ schema, e.successSchema = .ok schema ∧
      (s = none → schema = none) ∧
      ∀ status, s = some status → Preferred (e.contentOf status) schema) := by
  refine ⟨fun _ => successStatus_eq_ok_iff, fun s h => (chosen_of_successStatus h).2.eq_none_iff,
    fun s h => ?_⟩
  refine ⟨s.bind fun status => preferredSchema (e.contentOf status), ?_, ?_, ?_⟩
  · rw [successSchema, h]
    rfl
  · rintro rfl
    rfl
  · rintro status rfl
    exact preferred_preferredSchema _

/-- Two statuses of this endpoint are the number 201, and one of 200 has no content. -/
def crossScript : Endpoint :=
  { (default : Endpoint) with
    responses := [("default", ⟨"", [("text/plain", .unknown "")]⟩),
      ("202", ⟨"", [("application/json", .unknown "202")]⟩),
      ("20\u0661", ⟨"", [("text/plain", .unknown ""), ("text/json", .unknown "\u0661")]⟩),
      ("201", ⟨"", [("application/json", .unknown "1")]⟩), ("200", ⟨"", []⟩)] }

/-- The status with an Arabic digit and the status `201` are one number, so that the first of them
counts; `200` has no content and loses to both. -/
theorem success_chosen_crossScript :
    crossScript.successStatus = .ok (some "20\u0661") ∧
      ((some "20\u0661" = none) ↔ ∀ status ∈ crossScript.statuses, ¬ Successful status) ∧
      ∃ schema, crossScript.successSchema = .ok schema ∧
        schema = some (.unknown "\u0661") ∧
        Preferred (crossScript.contentOf "20\u0661") schema := by
  have hlisted : ((crossScript.responses.map Prod.fst).filter isSuccess).mapM (fun status => do
      let n ← statusNumber status
      pure (n, status)) = .ok [(202, "202"), (201, "20\u0661"), (201, "201"), (200, "200")] := by
    decide +kernel
  have hsorted : ([(202, "202"), (201, "20\u0661"), (201, "201"), (200, "200")].mergeSort
      fun a b => a.1 ≤ b.1) = [(200, "200"), (201, "20\u0661"), (201, "201"), (202, "202")] := by
    simp [List.mergeSort, List.MergeSort.Internal.splitInTwo]
  have hcodes : crossScript.successCodes
      = .ok [(200, "200"), (201, "20\u0661"), (201, "201"), (202, "202")] := by
    rw [successCodes, hlisted]
    exact congrArg Except.ok hsorted
  have hstatus : crossScript.successStatus = .ok (some "20\u0661") := by
    rw [successStatus, hcodes]
    rfl
  obtain ⟨-, hnone, hschema⟩ := success_chosen crossScript
  obtain ⟨schema, hread, -, hpreferred⟩ := hschema _ hstatus
  refine ⟨hstatus, hnone _ hstatus, schema, hread, ?_, hpreferred _ rfl⟩
  rw [successSchema, hstatus] at hread
  exact (Except.ok.inj hread).symm

end Endpoint

end TypedClient
