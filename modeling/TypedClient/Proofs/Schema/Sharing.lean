import TypedClient.Proofs.Schema.Unfolding

/-!
# `TypedClient.Proofs.Schema.Sharing`: sharing nodes is invisible

A value on which no walk comes upon a fault can be unfolded, and what it is unfolded to is read
as the same schema. So it makes no difference whether a document repeats a mapping or shares
it by an alias.

* `Schema.readWithin_of_unfolded`: an unfolded copy is read like the value.
* `Schema.unfold`, `Schema.isUnfolding_unfold`: the tree that a value unfolds to.
* `Schema.read_aliased`: when a value is no schema, and that sharing its nodes is invisible.
* `Schema.long_integer_before_cycle`: an integer that is too long is in the way of saying so.
-/

set_option autoImplicit false

namespace TypedClient.Schema

variable {g t G : Graph} {v w : Value} {entries : List (Value × Value)}
  {lo hi fuel fuel' : Nat} {outer outer' : List Nat}
  {inside inside' : Value → Except Failure Schema}

/-! ### Reading a copy -/

/-- Properties that are unfolded one after the other are read alike if their values are. Their names
are not copied, and have the same text in the larger graph. -/
theorem UnfoldedEach.mapM_readField (ht : t.Extends g) (hg : g.Closed)
    {ps ps' : List (Value × Value)} (h : UnfoldedEach g t lo hi ps ps')
    (hkeys : ∀ e ∈ ps, g.Holds e.1)
    (hinside : ∀ {a b : Nat} {u u' : Value}, b ≤ hi → u ∈ ps.map Prod.snd →
      Unfolded g t a b u u' → inside' u' = inside u) :
    ps'.mapM (readField t inside') = ps.mapM (readField g inside) := by
  induction ps generalizing lo ps' with
  | nil =>
    cases h
    rfl
  | cons p ps ih =>
    cases h with
    -- The first value ends before the others begin, so it is inside of the bounds as well.
    | cons hfirst hrest =>
      obtain ⟨hkey, hkeys⟩ := List.forall_mem_cons.mp hkeys
      rw [List.mapM_cons, List.mapM_cons, readField, readField,
        Graph.text_of_extends ht hg hkey, hinside hrest.le List.mem_cons_self hfirst,
        ih hrest hkeys fun hb hu => hinside hb (List.mem_cons_of_mem _ hu)]

/-- A mapping and its copy are read alike if their children are. The copies of the children end
before the copy of the mapping, which is what a reading needs to know to be sure that it is not
inside of itself. -/
theorem readNode_of_unfolded {id root : Nat} {entries' : List (Value × Value)} (ht : t.Extends g)
    (hg : g.Closed) (h : Unfolded g t lo hi (.node id) (.node root))
    (hv : g.entries? (.node id) = some entries) (hw : t.entries? (.node root) = some entries')
    (hone : ¬ Ambiguous g (.node id))
    (hinside : ∀ {a b : Nat} {u u' : Value}, b ≤ root → u ∈ children g (.node id) →
      Unfolded g t a b u u' → inside' u' = inside u) :
    readNode t inside' (.node root) entries' = readNode g inside (.node id) entries := by
  cases h with
  | leaf hleaf _ => simp [Graph.isMapping, hv] at hleaf
  | plain hentries hnone hcopy =>
    rw [hv] at hentries
    cases hentries
    rw [hw] at hcopy
    cases hcopy
    exact readNode_of_no_children ht hg hv hone hnone
  | @array _ _ _ _ items items' hentries htags hkey hitem hitems hcopy =>
    rw [hv] at hentries
    cases hentries
    rw [hw] at hcopy
    cases hcopy
    have hlookup := lookupOrNull_of_lookupKey hkey
    refine readNode_of_alike ht hg hv (alike_relink (.inl rfl) (by simp [hkey])) hone
      (fun _ => ?_) fun hobject => by simp [htags] at hobject
    rw [hlookup, lookupOrNull_relink_self (by simp [hkey])]
    refine ⟨hitems.isMapping ht, fun _ => hinside (Nat.le_refl _) ?_ hitems⟩
    rw [children_of_array hv htags, hlookup, if_pos hitem]
    exact List.mem_singleton_self items
  | @object _ _ _ _ properties properties' table hentries htags hkey htable heach hprops
      hcopy =>
    rw [hv] at hentries
    cases hentries
    rw [hw] at hcopy
    cases hcopy
    have hlookup := lookupOrNull_of_lookupKey hkey
    refine readNode_of_alike ht hg hv (alike_relink (.inr rfl) (by simp [hkey])) hone
      (fun harray => by simp [htags] at harray) fun _ => ?_
    rw [hlookup, lookupOrNull_relink_self (by simp [hkey]), hprops, htable, Option.map_some,
      Option.map_some]
    -- Both mappings have properties, and they are read one by one.
    refine congrArg some (heach.mapM_readField ht hg
      (fun e he => (hg.of_entries? htable e he).1) fun hb hu hu' => ?_)
    refine hinside (Nat.le_succ_of_le hb) ?_ hu'
    rwa [children_of_object hv htags (hlookup ▸ htable)]

/-- Where no walk comes upon a fault, a copy is read like the value. The mappings that the
copy lies in come after it, so reading it never takes one of its own for one of them. -/
theorem readWithin_of_unfolded (ht : t.Extends g) (hg : g.Closed) (h : Unfolded g t lo hi v w)
    (hp : g.Passed outer fuel) (hp' : t.Passed outer' fuel') (houter : ∀ id ∈ outer', hi ≤ id)
    (hfault : ¬ FaultyWithin g outer v) :
    readWithin t fuel' outer' w = readWithin g fuel outer v := by
  induction fuel generalizing lo hi outer outer' fuel' v w with
  | zero =>
    obtain ⟨k, hk⟩ := hp.exists_succ
    cases hk
  | succ fuel ih =>
    obtain ⟨fuel', rfl⟩ := hp'.exists_succ
    cases hv : g.entries? v with
    | none =>
      have hmapping : g.isMapping v = false := by simp [Graph.isMapping, hv]
      rw [readWithin_of_not_isMapping hmapping,
        readWithin_of_not_isMapping ((h.isMapping ht).trans hmapping)]
    | some entries =>
      have hmapping : g.isMapping v = true := by simp [Graph.isMapping, hv]
      obtain ⟨id, rfl, hid⟩ := Graph.exists_node_of_entries? hv
      rw [faultyWithin_node_iff hmapping] at hfault
      have hnew : id ∉ outer := fun hmem => hfault (.inl hmem)
      have hone : ¬ Ambiguous g (.node id) := fun ha => hfault (.inr (.inl ha))
      obtain ⟨root, mid, -, -, rfl, -, hroot, -, -⟩ := h.exists_children ht hg hmapping
      -- The two are entered alike: neither is within itself.
      have hnew' : root ∉ outer' := fun hmem => Nat.not_le_of_lt hroot (houter root hmem)
      obtain ⟨entries', hw⟩ := Option.isSome_iff_exists.mp ((h.isMapping ht).trans hmapping)
      have hroot' : root < t.nodes.size := by
        obtain ⟨_, hr, hlt⟩ := Graph.exists_node_of_entries? hw
        cases hr
        exact hlt
      rw [readWithin_node hv, readWithin_node hw, if_neg hnew, if_neg hnew']
      -- The children of the copy end before the root, and so before all that it lies in.
      have hinside : ∀ {a b : Nat} {u u' : Value}, b ≤ root → u ∈ children g (.node id) →
          Unfolded g t a b u u' →
            readWithin t fuel' (root :: outer') u' = readWithin g fuel (id :: outer) u := by
        intro a b u u' hb hu hcopy
        refine ih hcopy (hp.enter hid hnew) (hp'.enter hroot' hnew') ?_
          fun hf => hfault (.inr (.inr ⟨u, hu, hf⟩))
        intro k hk
        rcases List.mem_cons.mp hk with rfl | hk
        · exact hb
        · have := houter k hk
          omega
      exact readNode_of_unfolded ht hg h hv hw hone hinside

/-! ### Making the copy -/

/-- A graph with one more node, and the value that names it. -/
def withNode (G : Graph) (node : Node) : Graph × Value :=
  (⟨G.nodes.push node⟩, .node G.nodes.size)

/-- Unfold the values of properties in turn. -/
def unfoldEach (unfold : Graph → Value → Graph × Value) :
    Graph → List (Value × Value) → Graph × List (Value × Value)
  | G, [] => (G, [])
  | G, (k, v) :: rest =>
    let (G, v) := unfold G v
    let (G, rest) := unfoldEach unfold G rest
    (G, (k, v) :: rest)

/-- Unfold a value, adding its copy to the graph. No walk goes on for more than `fuel` steps
unless it comes upon a fault. -/
def unfoldWithin : (fuel : Nat) → Graph → Value → Graph × Value
  | 0, G, v => (G, v)
  | fuel + 1, G, v => match G.entries? v with
    | none => (G, v)
    | some entries => match tags G entries with
      | [.array] =>
        let items := lookupOrNull entries "items"
        if G.isMapping items then
          let (G, items) := unfoldWithin fuel G items
          withNode G (.map (relink "items" items entries))
        else withNode G (.map entries)
      | [.object] => match G.entries? (lookupOrNull entries "properties") with
        | some properties =>
          let (G, properties) := unfoldEach (unfoldWithin fuel) G properties
          let (G, table) := withNode G (.map properties)
          withNode G (.map (relink "properties" table entries))
        | none => withNode G (.map entries)
      | _ => withNode G (.map entries)

/-- A value unfolded. -/
def unfold (d : Data) : Data :=
  let (graph, root) := unfoldWithin (d.graph.nodes.size + 1) d.graph d.root
  ⟨graph, root⟩

/-- Adding a node leaves the others under their numbers. -/
theorem extends_withNode (G : Graph) (node : Node) : (withNode G node).1.Extends G := by
  intro id hid
  simp only [withNode, Array.getElem?_push, Nat.ne_of_lt hid, ↓reduceIte]

/-- Adding a node makes one more of them. -/
theorem size_withNode (G : Graph) (node : Node) :
    (withNode G node).1.nodes.size = G.nodes.size + 1 := by
  simp [withNode]

/-- The new node has the next number. -/
theorem snd_withNode (G : Graph) (node : Node) :
    (withNode G node).2 = .node G.nodes.size := rfl

/-- A mapping that was added is there under its number, and stays there when more is added. -/
theorem entries?_of_extends_withNode (h : t.Extends (withNode G (.map entries)).1) :
    t.entries? (.node G.nodes.size) = some entries := by
  have hnode := h G.nodes.size (by simp [withNode])
  simp only [Graph.entries?, hnode, withNode, Array.getElem?_push_size]

/-- The result of unfolding a value from a graph on: nodes are added, and together they are
the value unfolded. -/
structure Made (g G : Graph) (v : Value) (made : Graph × Value) : Prop where
  grown : made.1.Extends G
  copied : ∀ t : Graph, t.Extends made.1 →
    Unfolded g t G.nodes.size made.1.nodes.size v made.2

/-- A mapping without children is copied as it stands. -/
theorem made_withNode {id : Nat} (hv : g.entries? (.node id) = some entries)
    (hnone : children g (.node id) = []) :
    Made g G (.node id) (withNode G (.map entries)) where
  grown := extends_withNode G _
  copied t ht := by
    rw [size_withNode]
    exact .plain hv hnone (entries?_of_extends_withNode ht)

/-- What copying properties in turn has to leave: the graph has only grown, and in every graph that
goes on from it the new properties are copies of the old ones. -/
structure MadeEach (g G : Graph) (ps : List (Value × Value))
    (made : Graph × List (Value × Value)) : Prop where
  grown : made.1.Extends G
  copied : ∀ t : Graph, t.Extends made.1 →
    UnfoldedEach g t G.nodes.size made.1.nodes.size ps made.2

/-- Properties are unfolded in turn if each of their values can be, from whatever graph the ones
before it leave. What was copied first is still there in the end, since nodes are only added. -/
theorem madeEach_unfoldEach (unfold : Graph → Value → Graph × Value) (ps : List (Value × Value))
    (hG : G.Extends g)
    (h : ∀ G : Graph, G.Extends g → ∀ u ∈ ps.map Prod.snd, Made g G u (unfold G u)) :
    MadeEach g G ps (unfoldEach unfold G ps) := by
  induction ps generalizing G with
  | nil =>
    exact { grown := Graph.Extends.refl G, copied := fun _ _ => .nil }
  | cons p ps ih =>
    have hfirst := h G hG p.2 List.mem_cons_self
    -- The others are unfolded from the graph that the first one leaves.
    have hrest := ih (hfirst.grown.trans hG) fun G hG u hu => h G hG u (List.mem_cons_of_mem _ hu)
    exact {
      grown := hrest.grown.trans hfirst.grown
      copied := fun t ht =>
        .cons (hfirst.copied t (ht.trans hrest.grown)) (hrest.copied t ht) }

/-- An array is copied after its items, and refers to their copy. -/
theorem made_array {id : Nat} {items : Value} {made : Graph × Value}
    (hv : g.entries? (.node id) = some entries) (htags : tags g entries = [.array])
    (hkey : lookupKey entries "items" = some items) (hitems : g.isMapping items = true)
    (hmade : Made g G items made) :
    Made g G (.node id) (withNode made.1 (.map (relink "items" made.2 entries))) where
  grown := (extends_withNode _ _).trans hmade.grown
  copied t ht := by
    rw [size_withNode]
    exact .array hv htags hkey hitems (hmade.copied t (ht.trans (extends_withNode _ _)))
      (entries?_of_extends_withNode ht)

/-- An object is copied after its properties, with the mapping of them in between. The two mappings
take the last two of the nodes. -/
theorem made_object {id : Nat} {properties : List (Value × Value)} {table : Value}
    {made : Graph × List (Value × Value)}
    (hv : g.entries? (.node id) = some entries) (htags : tags g entries = [.object])
    (hkey : lookupKey entries "properties" = some table)
    (htable : g.entries? table = some properties) (hmade : MadeEach g G properties made) :
    Made g G (.node id) (withNode (withNode made.1 (.map made.2)).1
      (.map (relink "properties" (withNode made.1 (.map made.2)).2 entries))) where
  grown := ((extends_withNode _ _).trans (extends_withNode _ _)).trans hmade.grown
  copied t ht := by
    have htable' := ht.trans (extends_withNode _ _)
    have hroot := entries?_of_extends_withNode ht
    simp only [size_withNode, snd_withNode] at hroot ⊢
    exact .object hv htags hkey htable (hmade.copied t (htable'.trans (extends_withNode _ _)))
      (entries?_of_extends_withNode htable') hroot

/-- Where no walk comes upon a fault, unfolding from any graph with the nodes on makes a copy. The
count is the same as in reading, and does not run out for the same reason. -/
theorem made_unfoldWithin (hg : g.Closed) (hG : G.Extends g) (hv : g.Holds v)
    (hp : g.Passed outer fuel) (hfault : ¬ FaultyWithin g outer v) :
    Made g G v (unfoldWithin fuel G v) := by
  induction fuel generalizing G outer v with
  | zero =>
    obtain ⟨k, hk⟩ := hp.exists_succ
    cases hk
  | succ fuel ih =>
    rw [unfoldWithin, hG.entries? hv]
    cases hentries : g.entries? v with
    | none =>
      exact {
        grown := Graph.Extends.refl G
        copied := fun t _ => .leaf (by simp [Graph.isMapping, hentries]) hv }
    | some entries =>
      obtain ⟨id, rfl, hid⟩ := Graph.exists_node_of_entries? hentries
      rw [faultyWithin_node_iff (by simp [Graph.isMapping, hentries])] at hfault
      have hnew : id ∉ outer := fun hmem => hfault (.inl hmem)
      -- The graph grows from child to child, so each one is unfolded from another graph.
      have hchild : ∀ G : Graph, G.Extends g → ∀ u ∈ children g (.node id), g.Holds u →
          Made g G u (unfoldWithin fuel G u) := fun G hG u hu hholds =>
        ih hG hholds (hp.enter hid hnew) fun hf => hfault (.inr (.inr ⟨u, hu, hf⟩))
      simp only [tags_of_alike hG hg hentries (Alike.refl entries), Graph.isMapping,
        hG.entries? (holds_value hg hentries _)]
      split
      · rename_i htags
        split
        · rename_i hmapping
          obtain ⟨_, hitem⟩ := Option.isSome_iff_exists.mp hmapping
          obtain ⟨items, hkey, hitem⟩ := exists_lookupKey_of_entries? hitem
          have hlookup := lookupOrNull_of_lookupKey hkey
          have hmember : items ∈ children g (.node id) := by
            rw [children_of_array hentries htags, Graph.isMapping, if_pos hmapping, hlookup]
            exact List.mem_singleton_self items
          rw [hlookup]
          exact made_array hentries htags hkey (by simp [Graph.isMapping, hitem])
            (hchild G hG items hmember (hlookup ▸ holds_value hg hentries "items"))
        · rename_i hmapping
          refine made_withNode hentries ?_
          rw [children_of_array hentries htags, Graph.isMapping, if_neg hmapping]
      · rename_i htags
        split
        · rename_i properties hproperties
          obtain ⟨table, hkey, htable⟩ := exists_lookupKey_of_entries? hproperties
          refine made_object hentries htags hkey htable
            (madeEach_unfoldEach (unfoldWithin fuel) properties hG fun G hG u hu => ?_)
          refine hchild G hG u (by rwa [children_of_object hentries htags hproperties]) ?_
          obtain ⟨e, he, rfl⟩ := List.mem_map.mp hu
          exact (hg.of_entries? htable e he).2
        · rename_i hproperties
          exact made_withNode hentries (by simp [children, hentries, htags, hproperties])
      · -- Any other mapping has no children.
        rename_i harray hobject
        refine made_withNode hentries ?_
        simp only [children, hentries]

/-! ### When a value is a schema -/

/-- The tree `t` is the data `d` unfolded. -/
structure IsUnfolding (d t : Data) : Prop where
  grown : t.graph.Extends d.graph
  copied : ∃ lo hi, Unfolded d.graph t.graph lo hi d.root t.root
  tree : IsTree t.graph t.root

/-- A value on which no walk comes upon a fault unfolds to a tree. -/
theorem isUnfolding_unfold {d : Data} (hd : d.Closed) (hfault : ¬ Faulty d.graph d.root) :
    IsUnfolding d (unfold d) := by
  have hmade : Made d.graph d.graph d.root
      (unfoldWithin (d.graph.nodes.size + 1) d.graph d.root) :=
    made_unfoldWithin hd.1 (Graph.Extends.refl _) hd.2 (Graph.passed_nil (Nat.lt_succ_self _))
      (faultyWithin_nil_iff.not.mpr hfault)
  have hcopied := hmade.copied _ (Graph.Extends.refl _)
  exact ⟨hmade.grown, ⟨_, _, hcopied⟩, hcopied.isTree hmade.grown hd.1⟩

/-- A tree that a value unfolds to is read as the same schema, no matter how the tree was made. -/
theorem read_of_isUnfolding {d t : Data} (hd : d.Closed) (h : IsUnfolding d t)
    (hfault : ¬ Faulty d.graph d.root) : read t.graph t.root = read d.graph d.root := by
  obtain ⟨lo, hi, hcopied⟩ := h.copied
  exact readWithin_of_unfolded h.grown hd.1 hcopied (Graph.passed_nil (Nat.lt_succ_self _))
    (Graph.passed_nil (Nat.lt_succ_self _)) (List.forall_mem_nil _)
    (faultyWithin_nil_iff.not.mpr hfault)

/-- Reading a value as a schema ends on every graph: the count that it takes along never runs
out. It says that there is no schema exactly if some walk comes upon a mapping that it has
passed or upon one with several tags, unless an integer of the graph is too long to be
written and gets in the way. On a value without such a walk it comes to the same as on the
tree that the value unfolds to. -/
theorem read_aliased (d : Data) (hd : d.Closed) :
    (∀ fuel, d.graph.nodes.size < fuel →
      readWithin d.graph fuel [] d.root = read d.graph d.root) ∧
    ((∃ e, read d.graph d.root = .error (.schema e)) ↔
      Faulty d.graph d.root ∧ read d.graph d.root ≠ .error (.defect .integerTooLong)) ∧
    (read d.graph d.root = .error (.defect .integerTooLong) → ¬ d.graph.Writable) ∧
    (¬ Faulty d.graph d.root → IsUnfolding d (unfold d) ∧
      ∀ t, IsUnfolding d t → read t.graph t.root = read d.graph d.root) := by
  have hpassed : d.graph.Passed [] (d.graph.nodes.size + 1) :=
    Graph.passed_nil (Nat.lt_succ_self _)
  refine ⟨fun fuel hfuel => readWithin_eq_of_passed (Graph.passed_nil hfuel) hpassed,
    ⟨?_, ?_⟩, fun hlong => ?_, fun hfault => ?_⟩
  · rintro ⟨e, he⟩
    refine ⟨faultyWithin_nil_iff.mp (faultyWithin_of_readWithin hpassed he), ?_⟩
    rw [he]
    rintro ⟨⟩
  · -- With a fault there is no schema, and a failure that is no long integer is a refusal of a
    -- schema.
    rintro ⟨hfault, hshort⟩
    cases hread : read d.graph d.root with
    | ok schema =>
      exact absurd (faultyWithin_nil_iff.mpr hfault) (not_faultyWithin_of_readWithin hread)
    | error f =>
      cases of_read_eq_error hread with
      | schema e => exact ⟨e, rfl⟩
      | integer _ => exact absurd hread hshort
  · cases of_read_eq_error hlong with
    | integer hwritable => exact hwritable
  · exact ⟨isUnfolding_unfold hd hfault, fun t ht => read_of_isUnfolding hd ht hfault⟩

/-- Two properties of an object share a mapping, one of them as the items of an array. -/
def sharedText : Data where
  graph := ⟨#[
    .map [(.text "properties", .node 1)],
    .map [(.text "a", .node 2), (.text "b", .node 3)],
    .map [(.text "type", .text "string")],
    .map [(.text "items", .node 2)]]⟩
  root := .node 0

/-- A mapping that two properties share is read as if it were written twice. -/
theorem read_aliased_shared : sharedText.Closed ∧ ¬ IsTree sharedText.graph sharedText.root ∧
    ¬ Faulty sharedText.graph sharedText.root ∧ IsUnfolding sharedText (unfold sharedText) ∧
      read (unfold sharedText).graph (unfold sharedText).root
        = read sharedText.graph sharedText.root := by
  have hclosed : sharedText.Closed := by decide
  obtain ⟨-, hschema, -, hunfold⟩ := read_aliased sharedText hclosed
  have hread : ∃ schema, read sharedText.graph sharedText.root = .ok schema := ⟨_, rfl⟩
  have hfault : ¬ Faulty sharedText.graph sharedText.root := by
    intro h
    obtain ⟨schema, hschema'⟩ := hread
    obtain ⟨e, he⟩ := hschema.mpr ⟨h, by rw [hschema']; rintro ⟨⟩⟩
    rw [hschema'] at he
    cases he
  obtain ⟨hunfolding, hsame⟩ := hunfold hfault
  refine ⟨hclosed, fun htree => ?_, hfault, hunfolding, hsame _ hunfolding⟩
  -- The shared mapping is come upon by two walks.
  have hpaths := htree [0] [1, 0] (.node 2) (by decide) (by decide) (by decide)
  cases hpaths

/-- An object that holds itself, after a property whose reference is an integer that is too
long to be written. -/
def selfAfterLong : Data where
  graph := ⟨#[
    .map [(.text "properties", .node 1)],
    .map [(.text "big", .node 2), (.text "self", .node 0)],
    .map [(.text "$ref", .int integerLimit)]]⟩
  root := .node 0

/-- A walk comes upon a mapping that it has passed, but reading fails for another reason. -/
theorem long_integer_before_cycle : selfAfterLong.Closed ∧
    Faulty selfAfterLong.graph selfAfterLong.root ∧
      ¬ ∃ e, read selfAfterLong.graph selfAfterLong.root = .error (.schema e) := by
  have hself : Walk selfAfterLong.graph (.node 0) [.node 0] (.node 0) :=
    .step (u := .node 0) (by decide) (.here _)
  have hread : (match read selfAfterLong.graph selfAfterLong.root with
      | .ok _ => none
      | .error f => some f) = some (.defect .integerTooLong) := by
    decide +kernel
  refine ⟨by decide, ⟨_, _, hself, by decide, .inl List.mem_cons_self⟩, ?_⟩
  rintro ⟨e, he⟩
  rw [he] at hread
  cases hread

end TypedClient.Schema
