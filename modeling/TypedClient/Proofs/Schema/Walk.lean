import TypedClient.Proofs.Schema.Reading
import TypedClient.Proofs.Value.Extension

/-!
# `TypedClient.Proofs.Schema.Walk`: walks through the nodes of a schema

A schema is read through the items of arrays and the properties of objects. A walk goes the
same way, from mapping to mapping. Reading a schema goes wrong exactly where some walk comes
upon a mapping with several tags, or upon a mapping that it has passed; or where an integer
is too long to be written, which only a graph with such integers can cause.

* `Schema.children`, `Schema.Walk`, `Schema.Faulty`: walks, and what they may come upon.
* `Schema.readNode`: what a mapping comes to, given what is inside of it.
* `Schema.readWithin_eq_of_passed`: the count that reading takes never runs out.
* `Schema.faultyWithin_of_readWithin`, `Schema.not_faultyWithin_of_readWithin`: what a
  failure says of the walks, and what a success says of them.
-/

set_option autoImplicit false

namespace TypedClient

/-- Only a node is a mapping, and it is one that the graph has. -/
theorem Graph.exists_node_of_entries? {g : Graph} {v : Value} {entries : List (Value × Value)}
    (h : g.entries? v = some entries) : ∃ id, v = .node id ∧ id < g.nodes.size := by
  cases v with
  | node id =>
    refine ⟨id, rfl, ?_⟩
    simp only [entries?] at h
    cases hn : g.nodes[id]? with
    | none => simp [hn] at h
    | some node => exact lt_size_of_getElem? hn
  | _ => cases h

namespace Schema

variable {g : Graph} {v w : Value} {entries : List (Value × Value)} {outer : List Nat}
  {id fuel fuel' : Nat} {inside inside' : Value → Except Failure Schema}

/-! ### Walks -/

/-- The values that a schema is read through: the items of an array that are a mapping, and
the values of the properties of an object. -/
def children (g : Graph) (v : Value) : List Value :=
  match g.entries? v with
  | none => []
  | some entries => match tags g entries with
    | [.array] =>
      let items := lookupOrNull entries "items"
      if g.isMapping items then [items] else []
    | [.object] =>
      ((g.entries? (lookupOrNull entries "properties")).getD []).map Prod.snd
    | _ => []

/-- A walk from a value to another one, with the values that it passes on the way. -/
inductive Walk (g : Graph) : Value → List Value → Value → Prop
  | here (v : Value) : Walk g v [] v
  | step {v u w : Value} {passed : List Value} :
    u ∈ children g v → Walk g u passed w → Walk g v (v :: passed) w

/-- A mapping with more than one tag. -/
def Ambiguous (g : Graph) (v : Value) : Prop :=
  ∃ entries, g.entries? v = some entries ∧ 1 < (tags g entries).length

/-- Some walk comes upon a mapping that it has passed, or upon one with several tags. -/
def Faulty (g : Graph) (v : Value) : Prop :=
  ∃ passed w, Walk g v passed w ∧ g.isMapping w = true ∧ (w ∈ passed ∨ Ambiguous g w)

/-- Some walk comes upon a mapping that it has passed, upon one of the mappings `outer`, or upon one
with several tags. -/
def FaultyWithin (g : Graph) (outer : List Nat) (v : Value) : Prop :=
  ∃ passed w, Walk g v passed w ∧ g.isMapping w = true ∧
    (w ∈ passed ∨ w ∈ outer.map Value.node ∨ Ambiguous g w)

/-- Nothing counts as passed at the start of a walk. -/
theorem faultyWithin_nil_iff : FaultyWithin g [] v ↔ Faulty g v := by
  simp [FaultyWithin, Faulty]

/-- A schema is not read any further where it is no mapping. -/
theorem children_of_not_isMapping (h : g.isMapping v = false) : children g v = [] := by
  have hnone : g.entries? v = none := by simpa [Graph.isMapping] using h
  simp only [children, hnone]

/-- The only child of an array is its items, and only if they are a mapping. -/
theorem children_of_array (hv : g.entries? v = some entries) (htags : tags g entries = [.array]) :
    children g v = if g.isMapping (lookupOrNull entries "items") then [lookupOrNull entries "items"]
      else [] := by
  simp only [children, hv, htags]

/-- The children of an object are the values of its properties, in their order and mapping or
not. -/
theorem children_of_object {properties : List (Value × Value)} (hv : g.entries? v = some entries)
    (htags : tags g entries = [.object])
    (hproperties : g.entries? (lookupOrNull entries "properties") = some properties) :
    children g v = properties.map Prod.snd := by
  simp only [children, hv, htags, hproperties, Option.getD_some]

/-- No walk leads from what is no mapping to a mapping, so there is no fault in it. -/
theorem not_faultyWithin_of_not_isMapping (h : g.isMapping v = false) :
    ¬ FaultyWithin g outer v := by
  rintro ⟨passed, w, hwalk, hw, -⟩
  cases hwalk with
  | here => simp [h] at hw
  | step hu _ => simp [children_of_not_isMapping h] at hu

/-- A fault lies in a mapping itself, or is met inside of it by walks that have passed it. This
unfolds the notion of a fault by one step of reading, which is the form that the inductions below
are over. -/
theorem faultyWithin_node_iff (h : g.isMapping (.node id) = true) :
    FaultyWithin g outer (.node id) ↔ id ∈ outer ∨ Ambiguous g (.node id) ∨
      ∃ u ∈ children g (.node id), FaultyWithin g (id :: outer) u := by
  constructor
  · rintro ⟨passed, w, hwalk, hw, hfault⟩
    cases hwalk with
    | here =>
      rcases hfault with hpassed | houter | hambiguous
      · cases hpassed
      · exact .inl (by simpa using houter)
      · exact .inr (.inl hambiguous)
    | step hu hwalk =>
      -- The rest of the walk starts inside, where the mapping itself counts as passed.
      refine .inr (.inr ⟨_, hu, _, w, hwalk, hw, ?_⟩)
      rw [List.map_cons, List.mem_cons]
      rcases hfault with hpassed | houter | hambiguous
      · exact (List.mem_cons.mp hpassed).elim (fun h => .inr (.inl (.inl h))) .inl
      · exact .inr (.inl (.inr houter))
      · exact .inr (.inr hambiguous)
  · rintro (houter | hambiguous | ⟨u, hu, passed, w, hwalk, hw, hfault⟩)
    · exact ⟨[], _, .here _, h, .inr (.inl (List.mem_map_of_mem houter))⟩
    · exact ⟨[], _, .here _, h, .inr (.inr hambiguous)⟩
    · -- The walk inside is put after a step from the mapping, which it has then passed.
      refine ⟨_, w, .step hu hwalk, hw, ?_⟩
      rw [List.map_cons, List.mem_cons] at hfault
      rw [List.mem_cons]
      tauto

/-! ### Reading one mapping -/

/-- The name and the schema of a property. -/
def readField (g : Graph) (inside : Value → Except Failure Schema) (e : Value × Value) :
    Except Failure (String × Schema) := do
  let name ← g.text e.1
  let schema ← inside e.2
  pure (name, schema)

/-- What a mapping comes to as a schema, `inside` reading the values in it. -/
def readNode (g : Graph) (inside : Value → Except Failure Schema) (v : Value)
    (entries : List (Value × Value)) : Except Failure Schema :=
  let description := textAt entries "description"
  match tags g entries with
  | [] => .ok (.unknown description)
  | [.reference] => do
    let pointer ← g.text (lookupOrNull entries "$ref")
    pure (.reference pointer description)
  | [.primitive] =>
    .ok (.primitive (declaredType g entries) (lookupOrNull entries "format").text?
      (g.items? (lookupOrNull entries "enum")) description)
  | [.array] =>
    let items := lookupOrNull entries "items"
    if g.isMapping items then do
      let schema ← inside items
      pure (.array schema description)
    else .ok (.anyArray description)
  | [.object] =>
    match g.entries? (lookupOrNull entries "properties") with
    | some properties => do
      let fields ← properties.mapM (readField g inside)
      let required ← requiredNames g entries
      pure (.record (Fields.ofList (Assoc.ofList fields)) required description)
    | none => do
      let required ← requiredNames g entries
      pure (.anyRecord required description)
  | several => do
    let node ← g.shown v
    throw (.schema (.ambiguous (several.map Tag.name) node))

/-- What is no mapping is read as a schema that says nothing, in any place. -/
theorem readWithin_of_not_isMapping (h : g.isMapping v = false) :
    readWithin g (fuel + 1) outer v = .ok (.unknown "") := by
  have hnone : g.entries? v = none := by simpa [Graph.isMapping] using h
  unfold readWithin
  split
  · rename_i hentries
    rw [hnone] at hentries
    cases hentries
  · rfl

/-- A mapping is refused if the reading is inside of it already, and otherwise comes to what its
tags say, with one less of the count for what is in it. -/
theorem readWithin_node (h : g.entries? (.node id) = some entries) :
    readWithin g (fuel + 1) outer (.node id)
      = if id ∈ outer then .error (.schema .selfContaining)
        else readNode g (readWithin g fuel (id :: outer)) (.node id) entries := by
  simp only [readWithin, h, List.contains_iff_mem]
  rfl

/-- A mapping that is not ambiguous has no tag, or one. -/
theorem tags_of_not_ambiguous (hv : g.entries? v = some entries) (h : ¬ Ambiguous g v) :
    tags g entries = [] ∨ ∃ tag, tags g entries = [tag] := by
  match htags : tags g entries with
  | [] => exact .inl rfl
  | [tag] => exact .inr ⟨tag, rfl⟩
  | _ :: _ :: _ => exact absurd ⟨entries, hv, by simp [htags]⟩ h

/-- A mapping with several tags is refused, and the refusal names them and shows the mapping.
Nothing in the mapping is read for that. -/
theorem readNode_of_ambiguous (h : 1 < (tags g entries).length) :
    readNode g inside v entries = (do
      let node ← g.shown v
      throw (.schema (.ambiguous ((tags g entries).map Tag.name) node))) := by
  unfold readNode
  match htags : tags g entries with
  | [] | [_] => simp [htags] at h
  | tag :: _ :: _ => cases tag <;> rfl

/-- How a mapping is read depends on nothing inside of it but its children. So two readings that
agree on those, such as readings with different counts, agree on the mapping. -/
theorem readNode_congr (hv : g.entries? v = some entries)
    (h : ∀ w ∈ children g v, inside w = inside' w) :
    readNode g inside v entries = readNode g inside' v entries := by
  -- Several tags are refused without a look inside, and of single tags two have children.
  by_cases hone : Ambiguous g v
  · obtain ⟨entries', hv', hlen⟩ := hone
    rw [hv] at hv'
    cases hv'
    rw [readNode_of_ambiguous hlen, readNode_of_ambiguous hlen]
  -- Without a tag nothing is read at all.
  rcases tags_of_not_ambiguous hv hone with htags | ⟨tag, htags⟩
  · simp only [readNode, htags]
  cases tag with
  | reference => simp only [readNode, htags]
  | primitive => simp only [readNode, htags]
  | array =>
    rw [children_of_array hv htags] at h
    simp only [readNode, htags]
    split
    · rename_i hmapping
      rw [h _ (by simp [hmapping])]
    · rfl
  | object =>
    simp only [readNode, htags]
    cases hproperties : g.entries? (lookupOrNull entries "properties") with
    | none => rfl
    | some properties =>
      rw [children_of_object hv htags hproperties] at h
      have hfields : properties.mapM (readField g inside) = properties.mapM (readField g inside') :=
        mapM_congr_mem fun e he => by rw [readField, readField, h e.2 (List.mem_map_of_mem he)]
      simp only [hfields]

/-- Values are not schemas, so writing one as text does not fail like reading a schema. -/
theorem text_ne_schemaError {u : Value} {e : SchemaError} : g.text u ≠ .error (.schema e) := by
  intro h
  have := (Graph.of_text_eq_error h).1
  cases this

/-- Reading the names of required properties does not fail like reading a schema either. -/
theorem requiredNames_ne_schemaError {e : SchemaError} :
    requiredNames g entries ≠ .error (.schema e) := by
  intro h
  unfold requiredNames at h
  split at h
  · obtain ⟨i, -, hi⟩ := exists_of_mapM_eq_error (bind_pure_eq_error_iff.mp h)
    exact text_ne_schemaError hi
  · cases h

/-- A mapping that is no schema has several tags, or one of its children is no schema for the same
reason. -/
theorem of_readNode_eq_error {e : SchemaError} (hv : g.entries? v = some entries)
    (h : readNode g inside v entries = .error (.schema e)) :
    Ambiguous g v ∨ ∃ w ∈ children g v, inside w = .error (.schema e) := by
  by_cases hone : Ambiguous g v
  · exact .inl hone
  refine .inr ?_
  rcases tags_of_not_ambiguous hv hone with htags | ⟨tag, htags⟩
  · simp only [readNode, htags] at h
    cases h
  simp only [readNode, htags] at h
  cases tag with
  | reference => exact absurd (bind_pure_eq_error_iff.mp h) text_ne_schemaError
  | primitive => cases h
  | array =>
    dsimp only at h
    split at h
    · rename_i hmapping
      rw [children_of_array hv htags, if_pos hmapping]
      exact ⟨_, List.mem_singleton_self _, bind_pure_eq_error_iff.mp h⟩
    · cases h
  | object =>
    dsimp only at h
    split at h
    · rename_i properties hproperties
      rw [children_of_object hv htags hproperties]
      rcases bind_eq_error_iff.mp h with h | ⟨_, -, h⟩
      · -- Of a property, the name may have no text, or the value may be no schema.
        obtain ⟨p, hp, h⟩ := exists_of_mapM_eq_error h
        rcases bind_eq_error_iff.mp h with h | ⟨_, -, h⟩
        · exact absurd h text_ne_schemaError
        · exact ⟨p.2, List.mem_map_of_mem hp, bind_pure_eq_error_iff.mp h⟩
      · exact absurd (bind_pure_eq_error_iff.mp h) requiredNames_ne_schemaError
    · exact absurd (bind_pure_eq_error_iff.mp h) requiredNames_ne_schemaError

/-- A mapping that is a schema has at most one tag, and all its children are schemas. -/
theorem of_readNode_eq_ok {schema : Schema} (hv : g.entries? v = some entries)
    (h : readNode g inside v entries = .ok schema) :
    ¬ Ambiguous g v ∧ ∀ w ∈ children g v, ∃ s, inside w = .ok s := by
  have hone : ¬ Ambiguous g v := by
    rintro ⟨entries', hv', hlen⟩
    rw [hv] at hv'
    cases hv'
    rw [readNode_of_ambiguous hlen] at h
    obtain ⟨_, -, h⟩ := bind_eq_ok_iff.mp h
    cases h
  refine ⟨hone, ?_⟩
  rcases tags_of_not_ambiguous hv hone with htags | ⟨tag, htags⟩
  · simp [children, hv, htags]
  simp only [readNode, htags] at h
  cases tag with
  | reference => simp [children, hv, htags]
  | primitive => simp [children, hv, htags]
  | array =>
    dsimp only at h
    rw [children_of_array hv htags]
    split at h
    · rename_i hmapping
      obtain ⟨s, hs, -⟩ := bind_eq_ok_iff.mp h
      rw [if_pos hmapping]
      exact fun w hw => ⟨s, List.mem_singleton.mp hw ▸ hs⟩
    · rename_i hmapping
      rw [if_neg hmapping]
      exact List.forall_mem_nil _
  | object =>
    dsimp only at h
    split at h
    · rename_i properties hproperties
      obtain ⟨fields, hfields, -⟩ := bind_eq_ok_iff.mp h
      rw [children_of_object hv htags hproperties]
      intro w hw
      obtain ⟨p, hp, rfl⟩ := List.mem_map.mp hw
      obtain ⟨_, -, h⟩ := exists_result_of_mapM_eq_ok hfields hp
      obtain ⟨_, -, h⟩ := bind_eq_ok_iff.mp h
      obtain ⟨s, hs, -⟩ := bind_eq_ok_iff.mp h
      exact ⟨s, hs⟩
    · -- What stands for the properties is no mapping, and nothing is read there.
      rename_i hproperties
      simp [children, hv, htags, hproperties]

/-! ### Reading along walks -/

/-- The count that is taken along does not decide what is read, as long as it lasts. It lasts,
because a reading is inside of each node at most once and the count began above their number. So
that reading ends is no accident of the count. -/
theorem readWithin_eq_of_passed (h : g.Passed outer fuel) (h' : g.Passed outer fuel') :
    readWithin g fuel outer v = readWithin g fuel' outer v := by
  -- Both counts go down by one where a node is entered, which takes it from those left.
  induction fuel generalizing fuel' outer v with
  | zero =>
    obtain ⟨k, hk⟩ := h.exists_succ
    cases hk
  | succ fuel ih =>
    obtain ⟨fuel', rfl⟩ := h'.exists_succ
    cases hv : g.entries? v with
    | none =>
      have hmapping : g.isMapping v = false := by simp [Graph.isMapping, hv]
      rw [readWithin_of_not_isMapping hmapping, readWithin_of_not_isMapping hmapping]
    | some entries =>
      obtain ⟨id, rfl, hid⟩ := Graph.exists_node_of_entries? hv
      rw [readWithin_node hv, readWithin_node hv]
      by_cases hmem : id ∈ outer
      · rw [if_pos hmem, if_pos hmem]
      · rw [if_neg hmem, if_neg hmem]
        exact readNode_congr hv fun w _ => ih (h.enter hid hmem) (h'.enter hid hmem)

/-- Where reading says that a node is no schema, a walk comes upon a fault. The refusal of a count
that has run out, which looks the same, is excluded by `Graph.Passed`. -/
theorem faultyWithin_of_readWithin {e : SchemaError} (hp : g.Passed outer fuel)
    (h : readWithin g fuel outer v = .error (.schema e)) : FaultyWithin g outer v := by
  -- A step of reading enters a node, and a step of the walks leads to its children.
  induction fuel generalizing outer v with
  | zero =>
    obtain ⟨k, hk⟩ := hp.exists_succ
    cases hk
  | succ fuel ih =>
    cases hv : g.entries? v with
    | none =>
      rw [readWithin_of_not_isMapping (by simp [Graph.isMapping, hv])] at h
      cases h
    | some entries =>
      obtain ⟨id, rfl, hid⟩ := Graph.exists_node_of_entries? hv
      rw [readWithin_node hv] at h
      rw [faultyWithin_node_iff (by simp [Graph.isMapping, hv])]
      by_cases hmem : id ∈ outer
      · exact .inl hmem
      · rw [if_neg hmem] at h
        rcases of_readNode_eq_error hv h with hambiguous | ⟨w, hw, hinside⟩
        · exact .inr (.inl hambiguous)
        · exact .inr (.inr ⟨w, hw, ih (hp.enter hid hmem) hinside⟩)

/-- What is read as a schema has no walk that comes upon a fault. No condition on the count is
needed here, since a reading that runs out of it fails. -/
theorem not_faultyWithin_of_readWithin {schema : Schema}
    (h : readWithin g fuel outer v = .ok schema) : ¬ FaultyWithin g outer v := by
  induction fuel generalizing outer v schema with
  | zero => cases h
  | succ fuel ih =>
    cases hv : g.entries? v with
    | none => exact not_faultyWithin_of_not_isMapping (by simp [Graph.isMapping, hv])
    | some entries =>
      obtain ⟨id, rfl, -⟩ := Graph.exists_node_of_entries? hv
      rw [readWithin_node hv] at h
      rw [faultyWithin_node_iff (by simp [Graph.isMapping, hv])]
      split at h
      · cases h
      · rename_i hmem
        obtain ⟨hone, hchildren⟩ := of_readNode_eq_ok hv h
        rintro (houter | hambiguous | ⟨u, hu, hfault⟩)
        · exact hmem houter
        · exact hone hambiguous
        · obtain ⟨s, hs⟩ := hchildren u hu
          exact ih hs hfault

end Schema

end TypedClient
