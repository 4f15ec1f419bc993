import TypedClient.Proofs.Endpoint.Reading
import TypedClient.Proofs.Endpoint.Success
import TypedClient.Text.Lead

/-!
# `TypedClient.Proofs.Endpoint.Operations`: why operations cannot be read

The endpoints of a document are read one operation after the other. Reading one stops
where the graph refuses a value or a schema, and where a reference leads into a section of
the components that is no mapping: nothing else in an operation can stop it.

* `Endpoint.Operation`, `Endpoint.operationsOf`: the operations that a document has.
* `Endpoint.Misdirected`: a reference that leads into what is no mapping.
* `Endpoint.outcome_readAll`: reading all endpoints is reading each operation.
* `Operation.of_read_eq_error`, `Operation.of_read_eq_ok`: what reading one comes to.
-/

set_option autoImplicit false

namespace TypedClient.Endpoint

variable {g : Graph} {components : Table} {sectionName : String} {v w : Value} {f : Failure}

/-! ### References -/

/-- The node is a reference into a section of the components that is no mapping, and that
does not count as false either. -/
def Misdirected (g : Graph) (components : Table) (sectionName : String) (v : Value) : Prop :=
  ∃ entries pointer text name,
    g.entries? v = some entries ∧ lookupKey entries "$ref" = some pointer ∧
    g.text pointer = .ok text ∧
    Text.afterLead? ("#/components/" ++ sectionName ++ "/") text = some name ∧
    g.entries? ((components.lookup sectionName).getD .null) = none ∧
    g.truthy ((components.lookup sectionName).getD .null) = true

/-- Looking a component up fails only where its section is neither a mapping nor false. An absent
section reads as null, which is false, so it gives null for every name and no failure. -/
theorem component_table_eq_error_iff {name : String} :
    component g (.table components) sectionName name = .error f ↔
      f = .defect .lookupInNonMapping ∧
        g.entries? ((components.lookup sectionName).getD .null) = none ∧
        g.truthy ((components.lookup sectionName).getD .null) = true := by
  show (do let entries ← section? g components sectionName; pure (lookupOrNull entries name))
    = .error f ↔ _
  rw [bind_pure_eq_error_iff]
  unfold section?
  dsimp only
  split
  · rename_i entries hentries
    simp [hentries]
  · rename_i hentries
    split
    · rename_i htruthy
      simp [hentries, htruthy, eq_comm]
    · rename_i htruthy
      simp [htruthy]

/-- A node is followed only if it has a reference, and only one into the section. -/
theorem outcome_dereference {entries : List (Value × Value)} {pointer : Value}
    (hentries : g.entries? v = some entries) (hpointer : lookupKey entries "$ref" = some pointer) :
    (dereference g (.table components) sectionName v).outcome = (do
      let text ← g.text pointer
      match Text.afterLead? ("#/components/" ++ sectionName ++ "/") text with
      | none => .ok .null
      | some name => component g (.table components) sectionName name) := by
  unfold dereference
  rw [hentries, Option.bind_some, hpointer]
  dsimp only
  rw [Logged.outcome_bind, Logged.outcome_ofExcept]
  congr 1
  funext text
  cases Text.afterLead? ("#/components/" ++ sectionName ++ "/") text <;> rfl

/-- Following a node fails in one of two ways: it refers into a section that is no mapping, or the
pointer is a value whose text the graph refuses. -/
theorem of_dereference_eq_error
    (h : (dereference g (.table components) sectionName v).outcome = .error f) :
    (f = .defect .lookupInNonMapping ∧ Misdirected g components sectionName v) ∨ g.Refuses f := by
  cases hp : (g.entries? v).bind (lookupKey · "$ref") with
  | none =>
    rw [dereference, hp] at h
    cases h
  | some pointer =>
    obtain ⟨entries, hentries, hpointer⟩ := Option.bind_eq_some_iff.mp hp
    rw [outcome_dereference hentries hpointer] at h
    rcases bind_eq_error_iff.mp h with h | ⟨text, htext, h⟩
    · -- The pointer may be any value; only one without a text stops here.
      refine .inr (Graph.refuses_of_text (fun hg => ?_) h)
      exact (hg.of_entries? hentries _ (Graph.lookupKey_mem hpointer)).2
    · split at h
      · cases h
      · rename_i name hname
        obtain ⟨rfl, hsection⟩ := component_table_eq_error_iff.mp h
        exact .inl ⟨rfl, entries, pointer, text, name, hentries, hpointer, htext, hname, hsection⟩

/-- The converse half: a node that was followed without a failure does not lead into such a section.
Together with `of_dereference_eq_error` this makes the condition exact. -/
theorem not_misdirected_of_dereference
    (h : (dereference g (.table components) sectionName v).outcome = .ok w) :
    ¬ Misdirected g components sectionName v := by
  rintro ⟨entries, pointer, text, name, hentries, hpointer, htext, hname, hsection⟩
  have hcomponent : component g (.table components) sectionName name
      = .error (.defect .lookupInNonMapping) :=
    component_table_eq_error_iff.mpr ⟨rfl, hsection⟩
  rw [outcome_dereference hentries hpointer] at h
  obtain ⟨found, hfound, h⟩ := bind_eq_ok_iff.mp h
  obtain rfl := Except.ok.inj (htext.symm.trans hfound)
  rw [hname] at h
  dsimp only at h
  rw [hcomponent] at h
  cases h

/-- How reading nodes that may be references fails: one of them leads into what is no
mapping, or the graph refuses a value or a schema. -/
inductive Stops (g : Graph) (components : Table) (referrers : List (String × Value)) :
    Failure → Prop
  | reference {r : String × Value} (hr : r ∈ referrers) (h : Misdirected g components r.1 r.2) :
    Stops g components referrers (.defect .lookupInNonMapping)
  | refusal {f : Failure} (h : g.Refuses f) : Stops g components referrers f

/-- Reading a part of an operation stops for the references of that part, which are among those of
the whole. -/
theorem Stops.mono {rs rs' : List (String × Value)} (h : Stops g components rs f)
    (hsub : rs ⊆ rs') : Stops g components rs' f := by
  cases h with
  | reference hr h => exact .reference (hsub hr) h
  | refusal h => exact .refusal h

/-- `of_dereference_eq_error` for one node, in the form in which the lists below collect it. -/
theorem stops_of_dereference
    (h : (dereference g (.table components) sectionName v).outcome = .error f) :
    Stops g components [(sectionName, v)] f := by
  rcases of_dereference_eq_error h with ⟨rfl, hmisdirected⟩ | hrefuses
  · exact .reference (List.mem_singleton_self _) hmisdirected
  · exact .refusal hrefuses

/-! ### The content of a body -/

/-- Reading the content of a body follows no references of its own, so it can only meet a content
type or a schema that the graph refuses. -/
theorem refuses_of_readContent (h : readContent g v = .error f) : g.Refuses f := by
  unfold readContent at h
  obtain ⟨e, he, h⟩ := exists_of_mapM_eq_error (bind_pure_eq_error_iff.mp h)
  rcases bind_eq_error_iff.mp h with h | ⟨_, -, h⟩
  · exact Graph.refuses_of_text (fun hg => (hg.of_mem_entries he).1) h
  · exact Schema.of_read_eq_error (bind_pure_eq_error_iff.mp h)

/-- The schemas of a content come from the graph, so in a writable graph they are writable. -/
theorem writable_of_readContent (hg : g.Writable) {content : Content}
    (h : readContent g v = .ok content) : ∀ c ∈ content, c.2.Writable := by
  unfold readContent at h
  obtain ⟨made, hmade, h⟩ := bind_eq_ok_iff.mp h
  cases h
  intro c hc
  obtain ⟨e, -, he⟩ := exists_of_mem_of_mapM_eq_ok hmade (Assoc.mem_of_mem_ofList hc)
  obtain ⟨_, -, he⟩ := bind_eq_ok_iff.mp he
  obtain ⟨_, hschema, he⟩ := bind_eq_ok_iff.mp he
  cases he
  exact Schema.writable_of_read hg hschema

/-! ### Parameters -/

/-- Reading a parameter that has been followed fails for its name or its schema. The name is a value
of the graph, hence the assumption that in a writable graph it fits. -/
theorem refuses_of_readParameter {name : Value} {entries : List (Value × Value)}
    (hname : g.Writable → name.fits = true) (h : readParameter g name entries = .error f) :
    g.Refuses f := by
  rcases bind_eq_error_iff.mp h with h | ⟨_, -, h⟩
  · exact Graph.refuses_of_text hname h
  · exact Schema.of_read_eq_error (bind_pure_eq_error_iff.mp h)

/-- The schema of a parameter comes from the graph, as those of a content do. -/
theorem writable_of_readParameter (hg : g.Writable) {name : Value}
    {entries : List (Value × Value)} {p : Parameter} (h : readParameter g name entries = .ok p) :
    p.schema.Writable := by
  obtain ⟨_, -, h⟩ := bind_eq_ok_iff.mp h
  obtain ⟨_, hschema, h⟩ := bind_eq_ok_iff.mp h
  cases h
  exact Schema.writable_of_read hg hschema

/-- A parameter stops the reading where it is misdirected, or where its name or schema is refused.
One without a name never does: it is noted and left out. -/
theorem stops_of_parameter? (h : (parameter? g (.table components) v).outcome = .error f) :
    Stops g components [("parameters", v)] f := by
  rcases Logged.bind_error_iff.mp h with h | ⟨w, -, h⟩
  · exact stops_of_dereference h
  · dsimp only at h
    split at h
    · rename_i name hname
      rcases Logged.bind_error_iff.mp h with h | ⟨_, -, h⟩
      · exact .refusal (refuses_of_readParameter
          (fun hg => (hg.of_mem_entries (Graph.lookupKey_mem hname)).2) h)
      · cases h
    · -- A parameter without a name is left out, with a note at most.
      rcases Logged.bind_error_iff.mp h with h | ⟨_, -, h⟩
      · rw [outcome_noteNameless] at h
        cases h
      · cases h

/-- What is known of a parameter that was read: its node leads nowhere wrong, and its schema is
writable if the graph is. -/
theorem of_parameter?_eq_ok {p : Option Parameter}
    (h : (parameter? g (.table components) v).outcome = .ok p) :
    ¬ Misdirected g components "parameters" v ∧
      (g.Writable → ∀ q ∈ p, q.schema.Writable) := by
  obtain ⟨w, hw, h⟩ := Logged.bind_ok_iff.mp h
  refine ⟨not_misdirected_of_dereference hw, fun hg q hq => ?_⟩
  dsimp only at h
  split at h
  · obtain ⟨_, hp, h⟩ := Logged.bind_ok_iff.mp h
    cases h
    cases hq
    exact writable_of_readParameter hg hp
  · obtain ⟨_, -, h⟩ := Logged.bind_ok_iff.mp h
    cases h
    cases hq

/-- The parameters are followed one after the other, and the first that stops is the failure of
all. -/
theorem stops_of_listedParameters {vs : List Value}
    (h : (listedParameters g (.table components) vs).outcome = .error f) :
    Stops g components (vs.map ("parameters", ·)) f := by
  induction vs with
  | nil => cases h
  | cons v rest ih =>
    rcases Logged.bind_error_iff.mp h with h | ⟨_, -, h⟩
    · exact (stops_of_parameter? h).mono (by simp)
    · rcases Logged.bind_error_iff.mp h with h | ⟨_, -, h⟩
      · exact (ih h).mono (by simp)
      · cases h

/-- If all parameters of a list were read, none of their nodes is misdirected. This is by induction
on the list, as the failure above is. -/
theorem of_listedParameters_eq_ok {vs : List Value} {ps : List Parameter}
    (h : (listedParameters g (.table components) vs).outcome = .ok ps) :
    (∀ v ∈ vs, ¬ Misdirected g components "parameters" v) ∧
      (g.Writable → ∀ p ∈ ps, p.schema.Writable) := by
  induction vs generalizing ps with
  | nil =>
    cases h
    exact ⟨List.forall_mem_nil _, fun _ => List.forall_mem_nil _⟩
  | cons v rest ih =>
    obtain ⟨p, hp, h⟩ := Logged.bind_ok_iff.mp h
    obtain ⟨ps, hps, h⟩ := Logged.bind_ok_iff.mp h
    cases h
    obtain ⟨hv, hschema⟩ := of_parameter?_eq_ok hp
    obtain ⟨hrest, hschemas⟩ := ih hps
    refine ⟨List.forall_mem_cons.mpr ⟨hv, hrest⟩, fun hg => ?_⟩
    -- A parameter that was left out contributes no schema.
    refine List.forall_mem_append.mpr ⟨fun q hq => ?_, hschemas hg⟩
    exact hschema hg q (Option.mem_toList.mp hq)

/-- Merging makes no parameters up: what a merged list holds was listed. -/
theorem mem_of_mem_mergeParameters {ps : List Parameter} {p : Parameter}
    (h : p ∈ mergeParameters ps) : p ∈ ps := by
  obtain ⟨entry, hentry, rfl⟩ := List.mem_map.mp h
  obtain ⟨q, hq, rfl⟩ := List.mem_map.mp (Assoc.mem_of_mem_ofList hentry)
  exact hq

/-! ### Request bodies and responses -/

/-- A request body stops the reading where it is misdirected, or where its content is refused. One
that is no mapping counts as absent. -/
theorem stops_of_readRequestBody
    (h : (readRequestBody g (.table components) v).outcome = .error f) :
    Stops g components [("requestBodies", v)] f := by
  rcases Logged.bind_error_iff.mp h with h | ⟨w, -, h⟩
  · exact stops_of_dereference h
  · split at h
    · cases h
    · rcases Logged.bind_error_iff.mp h with h | ⟨_, -, h⟩
      · exact .refusal (refuses_of_readContent h)
      · cases h

/-- What is known of a body that was read: its node leads nowhere wrong, and the schemas of its
content are writable if the graph is. -/
theorem of_readRequestBody_eq_ok {body : Option RequestBody}
    (h : (readRequestBody g (.table components) v).outcome = .ok body) :
    ¬ Misdirected g components "requestBodies" v ∧
      (g.Writable → ∀ b, body = some b → ∀ c ∈ b.content, c.2.Writable) := by
  obtain ⟨w, hw, h⟩ := Logged.bind_ok_iff.mp h
  refine ⟨not_misdirected_of_dereference hw, fun hg b hb => ?_⟩
  split at h
  · cases h
    cases hb
  · obtain ⟨_, hcontent, h⟩ := Logged.bind_ok_iff.mp h
    cases h
    cases hb
    exact writable_of_readContent hg hcontent

/-- A response stops the reading where it is misdirected, or where its content is refused. -/
theorem stops_of_readResponse (h : (readResponse g (.table components) v).outcome = .error f) :
    Stops g components [("responses", v)] f := by
  rcases Logged.bind_error_iff.mp h with h | ⟨w, -, h⟩
  · exact stops_of_dereference h
  · rcases Logged.bind_error_iff.mp h with h | ⟨_, -, h⟩
    · exact .refusal (refuses_of_readContent h)
    · cases h

/-- What is known of a response that was read, as `of_readRequestBody_eq_ok` for a body. -/
theorem of_readResponse_eq_ok {r : Response}
    (h : (readResponse g (.table components) v).outcome = .ok r) :
    ¬ Misdirected g components "responses" v ∧
      (g.Writable → ∀ c ∈ r.content, c.2.Writable) := by
  obtain ⟨w, hw, h⟩ := Logged.bind_ok_iff.mp h
  obtain ⟨_, hcontent, h⟩ := Logged.bind_ok_iff.mp h
  cases h
  exact ⟨not_misdirected_of_dereference hw, fun hg => writable_of_readContent hg hcontent⟩

/-- The responses are read in order, each with the text of its status, which is a key of the mapping
and so a value that the graph may refuse. -/
theorem stops_of_listedResponses {entries : List (Value × Value)}
    (hentries : g.Writable → ∀ e ∈ entries, e.1.fits = true)
    (h : (listedResponses g (.table components) entries).outcome = .error f) :
    Stops g components (entries.map fun e => ("responses", e.2)) f := by
  induction entries with
  | nil => cases h
  | cons e rest ih =>
    -- The response itself, then its status, then those after it.
    rcases Logged.bind_error_iff.mp h with h | ⟨_, -, h⟩
    · exact (stops_of_readResponse h).mono (by simp)
    · rcases Logged.bind_error_iff.mp h with h | ⟨_, -, h⟩
      · exact .refusal (Graph.refuses_of_text (fun hg => hentries hg e List.mem_cons_self) h)
      · rcases Logged.bind_error_iff.mp h with h | ⟨_, -, h⟩
        · exact (ih (fun hg e he => hentries hg e (List.mem_cons_of_mem _ he)) h).mono (by simp)
        · cases h

/-- If all responses were read, none is misdirected, and their statuses are the texts of the keys in
order. The last is what `Document.Unvalued` is compared with. -/
theorem of_listedResponses_eq_ok {entries : List (Value × Value)} {rs : List (String × Response)}
    (h : (listedResponses g (.table components) entries).outcome = .ok rs) :
    (∀ e ∈ entries, ¬ Misdirected g components "responses" e.2) ∧
      entries.map (g.text ·.1) = rs.map (.ok ·.1) ∧
      (g.Writable → ∀ r ∈ rs, ∀ c ∈ r.2.content, c.2.Writable) := by
  induction entries generalizing rs with
  | nil =>
    cases h
    exact ⟨List.forall_mem_nil _, rfl, fun _ => List.forall_mem_nil _⟩
  | cons e rest ih =>
    obtain ⟨r, hr, h⟩ := Logged.bind_ok_iff.mp h
    obtain ⟨status, hstatus, h⟩ := Logged.bind_ok_iff.mp h
    obtain ⟨rs, hrs, h⟩ := Logged.bind_ok_iff.mp h
    cases h
    obtain ⟨he, hcontent⟩ := of_readResponse_eq_ok hr
    obtain ⟨hrest, hstatuses, hcontents⟩ := ih hrs
    refine ⟨List.forall_mem_cons.mpr ⟨he, hrest⟩, ?_, fun hg => ?_⟩
    · rw [List.map_cons, List.map_cons, hstatuses]
      exact congrArg (· :: _) hstatus
    · exact List.forall_mem_cons.mpr ⟨hcontent hg, hcontents hg⟩

/-! ### One operation -/

/-- An operation of a document. -/
structure Operation where
  path : String
  method : String
  /-- The parameters that its path shares. -/
  shared : Value
  entries : List (Value × Value)

namespace Operation

variable {o : Operation} {e : Endpoint}

/-- The endpoint of the operation. -/
def read (g : Graph) (components : Table) (o : Operation) : Except Failure Endpoint :=
  (ofEntries g (.table components) o.path o.method o.shared o.entries).outcome

/-- The responses of the operation by status. -/
def responses (g : Graph) (o : Operation) : List (Value × Value) :=
  (g.entries? (lookupOrNull o.entries "responses")).getD []

/-- The nodes of the operation that may be references, and the sections they lead into. -/
def referrers (g : Graph) (o : Operation) : List (String × Value) :=
  ((g.items? o.shared).getD [] ++
      (g.items? (lookupOrNull o.entries "parameters")).getD []).map ("parameters", ·) ++
    [("requestBodies", lookupOrNull o.entries "requestBody")] ++
    (o.responses g).map fun r => ("responses", r.2)

/-- Reading an operation stops only for a reference of its own or for what the graph refuses: the
parts that are read in a row have no other way to fail. -/
theorem of_read_eq_error (h : o.read g components = .error f) :
    Stops g components (o.referrers g) f := by
  unfold read ofEntries readParameters readResponses at h
  -- Tags, parameters, body and responses, in the order in which they are read.
  rcases Logged.bind_error_iff.mp h with h | ⟨_, -, h⟩
  · obtain ⟨i, hi, h⟩ := exists_of_mapM_eq_error h
    exact .refusal (Graph.refuses_of_text (fun hg => hg.of_mem_items hi) h)
  rcases Logged.bind_error_iff.mp h with h | ⟨_, -, h⟩
  · rcases Logged.bind_error_iff.mp h with h | ⟨_, -, h⟩
    · exact (stops_of_listedParameters h).mono
        fun r hr => List.mem_append_left _ (List.mem_append_left _ hr)
    · cases h
  rcases Logged.bind_error_iff.mp h with h | ⟨_, -, h⟩
  · exact (stops_of_readRequestBody h).mono (by simp [referrers])
  rcases Logged.bind_error_iff.mp h with h | ⟨_, -, h⟩
  · rcases Logged.bind_error_iff.mp h with h | ⟨_, -, h⟩
    · exact (stops_of_listedResponses (fun hg _ he => (hg.of_mem_entries he).1) h).mono
        fun r hr => List.mem_append_right _ hr
    · cases h
  cases h

/-- What is known of an operation that was read: none of its references is misdirected, the statuses
of the endpoint are the texts of the keys of its responses, and what it holds is writable if the
graph is. -/
theorem of_read_eq_ok (h : o.read g components = .ok e) :
    (∀ r ∈ o.referrers g, ¬ Misdirected g components r.1 r.2) ∧
      (∀ status, status ∈ e.responses.map Prod.fst ↔
        ∃ r ∈ o.responses g, g.text r.1 = .ok status) ∧
      (g.Writable → e.Writable) := by
  unfold read ofEntries readParameters readResponses at h
  simp only [Logged.bind_ok_iff] at h
  obtain ⟨_, -, _, ⟨ps, hps, h₁⟩, body, hbody, _, ⟨rs, hrs, h₂⟩, h⟩ := h
  cases h₁
  cases h₂
  cases h
  obtain ⟨hparameters, hschemas⟩ := of_listedParameters_eq_ok hps
  obtain ⟨hreference, hcontent⟩ := of_readRequestBody_eq_ok hbody
  obtain ⟨hresponses, hstatuses, hcontents⟩ := of_listedResponses_eq_ok hrs
  refine ⟨?_, fun status => ?_, fun hg => ⟨?_, hcontent hg, ?_⟩⟩
  · simp only [referrers, responses, List.forall_mem_append, List.forall_mem_map,
      List.forall_mem_singleton]
    exact ⟨⟨List.forall_mem_append.mp hparameters, hreference⟩, hresponses⟩
  · -- A status that is given twice keeps its last response, so only the keys are compared.
    have hstatus : status ∈ rs.map Prod.fst ↔
        (.ok status : Except Failure String) ∈ rs.map (.ok ·.1) := by simp
    rw [Assoc.mem_keys_ofList, hstatus, ← hstatuses, List.mem_map]
    rfl
  · exact fun p hp => hschemas hg p (mem_of_mem_mergeParameters hp)
  · exact fun r hr => hcontents hg r (Assoc.mem_of_mem_ofList hr)

end Operation

/-! ### All operations -/

/-- The mappings of an item of a path that is keyed by text, under their keys in upper case. -/
def keyedMappings (g : Graph) (item : List (Value × Value)) :
    List (String × List (Value × Value)) :=
  item.filterMap fun e => (g.entries? e.2).map (Text.upper (e.1.text?.getD ""), ·)

/-- The operation of a path for a method, given the mappings of its item. -/
def operationFor (path : String) (shared : Value)
    (mappings : List (String × List (Value × Value))) (method : String) : List Operation :=
  ((operation? mappings method).map (⟨path, method, shared, ·⟩)).toList

/-- The operations of a path. -/
def operationsAt (g : Graph) (path : String) (v : Value) : List Operation :=
  match g.entries? v with
  | none => []
  | some item =>
    httpMethods.flatMap (operationFor path (lookupOrNull item "parameters") (keyedMappings g item))

/-- The operations of paths, in order. -/
def operationsOf (g : Graph) (paths : Table) : List Operation :=
  paths.flatMap fun p => operationsAt g p.1 p.2

/-- In an item that is keyed by text the mappings are found without a failure, since only the text
of a key could be refused. -/
theorem operations_eq_ok {item : List (Value × Value)} (h : ∀ e ∈ item, ∃ s, e.1 = .text s) :
    operations g item = .ok (keyedMappings g item) := by
  induction item with
  | nil => rfl
  | cons e rest ih =>
    obtain ⟨⟨s, hs⟩, hrest⟩ := List.forall_mem_cons.mp h
    have ih := ih hrest
    unfold operations keyedMappings at ih ⊢
    rw [List.filterMap_cons, List.filterMap_cons]
    cases g.entries? e.2 with
    | none => exact ih
    | some entries =>
      simp only [Option.map_some, List.mapM_cons, hs, ih]
      rfl

/-- The endpoints of an item are those of its operations, method after method. A method without an
operation contributes the empty list to both sides. -/
theorem outcome_ofOperations {path : String} {shared : Value}
    {mappings : List (String × List (Value × Value))} {methods : List String} :
    (ofOperations g (.table components) path shared mappings methods).outcome
      = (methods.flatMap (operationFor path shared mappings)).mapM
          (Operation.read g components) := by
  induction methods with
  | nil => rfl
  | cons method rest ih =>
    have hhere : forMethod g (.table components) path shared mappings method
        = (operationFor path shared mappings method).mapM (Operation.read g components) := by
      unfold forMethod operationFor
      cases operation? mappings method with
      | none => rfl
      | some entries =>
        show Except.map _ _ = ([⟨path, method, shared, entries⟩] : List Operation).mapM _
        rw [List.mapM_cons]
        unfold Operation.read
        cases (ofEntries g (.table components) path method shared entries).outcome <;> rfl
    rw [outcome_ofOperations_cons, ih, List.flatMap_cons, List.mapM_append, hhere]

/-- The endpoints of a path are those of its operations. A path whose item is no mapping has
none. -/
theorem ofPath_eq (hk : g.TextKeyed) (path : String) (v : Value) :
    ofPath g (.table components) path v
      = (operationsAt g path v).mapM (Operation.read g components) := by
  unfold ofPath operationsAt
  cases hitem : g.entries? v with
  | none => rfl
  | some item =>
    dsimp only
    rw [ofItem, Logged.outcome_bind, Logged.outcome_ofExcept,
      operations_eq_ok (hk.of_entries? hitem), ← outcome_ofOperations]
    rfl

/-- The endpoints of a document are those of its operations, read one after the other. -/
theorem outcome_readAll (hk : g.TextKeyed) (paths : Table) :
    (readAll g (.table components) paths).outcome
      = (operationsOf g paths).mapM (Operation.read g components) := by
  have hpaths : (ofPaths g (.table components) paths).outcome
      = (operationsOf g paths).mapM (Operation.read g components) := by
    induction paths with
    | nil => rfl
    | cons p rest ih =>
      show _ = (operationsAt g p.1 p.2 ++ operationsOf g rest).mapM _
      rw [outcome_ofPaths_cons, ih, List.mapM_append, ofPath_eq hk]
  rw [readAll, Logged.outcome_bind, hpaths]
  cases (operationsOf g paths).mapM (Operation.read g components) <;> rfl

end TypedClient.Endpoint
