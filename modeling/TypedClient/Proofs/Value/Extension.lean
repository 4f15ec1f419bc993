import Mathlib.Data.List.Perm.Subperm
import TypedClient.Proofs.Value.Text

/-!
# `TypedClient.Proofs.Value.Extension`: graphs with nodes added

A walk that never enters a node twice enters no more nodes than there are, so a count of
one more than that never runs out on it. What a walk within a closed graph comes upon is
the same in every graph that has the same nodes and more.

* `Graph.Passed`: the nodes that a walk is inside of, and a count that does not run out
  before the walk repeats one of them.
* `Graph.Extends`: all nodes of a graph are there under their numbers.
* `Graph.text_of_extends`: the text of a value is the same where nodes are added.
-/

set_option autoImplicit false

namespace TypedClient

/-- Only what is done with the members of a list decides what a `mapM` over it comes to. The library
has this for functions that agree everywhere, which those that walk two graphs do not. -/
theorem mapM_congr_mem {ε α β : Type} {f f' : α → Except ε β} {l : List α}
    (h : ∀ a ∈ l, f a = f' a) : l.mapM f = l.mapM f' := by
  induction l with
  | nil => rfl
  | cons a rest ih =>
    obtain ⟨ha, hrest⟩ := List.forall_mem_cons.mp h
    rw [List.mapM_cons, List.mapM_cons, ha, ih hrest]

namespace Graph

variable {g t u : Graph} {v : Value} {id fuel fuel' : Nat} {outer : List Nat}

/-! ### Walks that repeat no node -/

/-- The nodes `outer` that a walk is inside of are distinct nodes of the graph, and `fuel` is
enough to enter all the others and go one step further. -/
structure Passed (g : Graph) (outer : List Nat) (fuel : Nat) : Prop where
  nodup : outer.Nodup
  held : ∀ id ∈ outer, id < g.nodes.size
  enough : g.nodes.size < fuel + outer.length

/-- A walk that is inside of no node yet can be given any count above the number of nodes. -/
theorem passed_nil (h : g.nodes.size < fuel) : g.Passed [] fuel where
  nodup := List.nodup_nil
  held := List.forall_mem_nil _
  enough := h

/-- Distinct nodes of a graph are no more than the graph has. So a walk that repeats no node cannot
be inside of more nodes than that. -/
theorem Passed.length_le (h : g.Passed outer fuel) : outer.length ≤ g.nodes.size := by
  -- There are that many numbers of nodes, and none is repeated.
  have hsub : outer ⊆ List.range g.nodes.size := fun id hid => List.mem_range.mpr (h.held id hid)
  simpa using (h.nodup.subperm hsub).length_le

/-- The count has not run out: as many nodes as the walk is inside of are in the graph, and the
count makes up for the others and one more. -/
theorem Passed.exists_succ (h : g.Passed outer fuel) : ∃ k, fuel = k + 1 := by
  have hlen := h.length_le
  have henough := h.enough
  exact Nat.exists_eq_succ_of_ne_zero (by omega)

/-- A walk may enter a node that it is not inside of, for one of its count. -/
theorem Passed.enter (h : g.Passed outer (fuel + 1)) (hid : id < g.nodes.size)
    (hnew : id ∉ outer) : g.Passed (id :: outer) fuel where
  nodup := List.nodup_cons.mpr ⟨hnew, h.nodup⟩
  held := List.forall_mem_cons.mpr ⟨hid, h.held⟩
  enough := by
    have := h.enough
    rw [List.length_cons]
    omega

/-! ### Closed graphs -/

/-- The value stands for something: a node that it names is there. -/
def Holds (g : Graph) : Value → Prop
  | .node id => id < g.nodes.size
  | _ => True

instance (g : Graph) : DecidablePred g.Holds
  | .node _ => inferInstanceAs (Decidable (_ < _))
  | .null | .bool _ | .int _ | .float _ | .text _ | .date _ | .timestamp _ | .bytes _ =>
    isTrue trivial

/-- Every value in the graph stands for something. -/
def Closed (g : Graph) : Prop := ∀ node ∈ g.nodes.toList, ∀ v ∈ node.values, g.Holds v

instance (g : Graph) : Decidable g.Closed := inferInstanceAs (Decidable (∀ _ ∈ _, _))

/-- A node is found only under a number that the graph has. -/
theorem lt_size_of_getElem? {node : Node} (h : g.nodes[id]? = some node) : id < g.nodes.size :=
  (Array.getElem?_eq_some_iff.mp h).1

/-- What a node of a closed graph holds stands for something. -/
theorem Closed.holds {node : Node} (hg : g.Closed) (h : g.nodes[id]? = some node) :
    ∀ v ∈ node.values, g.Holds v :=
  hg node (node_mem h)

/-- In a closed graph the keys and the values of a mapping stand for something. -/
theorem Closed.of_entries? {entries : List (Value × Value)} (hg : g.Closed)
    (h : g.entries? v = some entries) : ∀ e ∈ entries, g.Holds e.1 ∧ g.Holds e.2 := by
  intro e he
  have hvalues := hg _ (map_mem_of_entries? h)
  exact ⟨hvalues _ (List.mem_flatMap.mpr ⟨e, he, by simp⟩),
    hvalues _ (List.mem_flatMap.mpr ⟨e, he, by simp⟩)⟩

/-- In a closed graph the items of a list stand for something. -/
theorem Closed.of_items? {items : List Value} (hg : g.Closed) (h : g.items? v = some items) :
    ∀ i ∈ items, g.Holds i :=
  hg _ (list_mem_of_items? h)

/-- What is found under a key stands for something, and so does null, if nothing is found. -/
theorem holds_lookupOrNull {entries : List (Value × Value)} {key : String}
    (h : ∀ e ∈ entries, g.Holds e.1 ∧ g.Holds e.2) : g.Holds (lookupOrNull entries key) := by
  unfold lookupOrNull
  cases hv : lookupKey entries key with
  | none => trivial
  | some v => exact (h _ (lookupKey_mem hv)).2

/-! ### Graphs with nodes added -/

/-- The graph has the nodes of another one under the numbers that they have there. -/
def Extends (t g : Graph) : Prop := ∀ id < g.nodes.size, t.nodes[id]? = g.nodes[id]?

/-- A graph has its own nodes. -/
theorem Extends.refl (g : Graph) : g.Extends g := fun _ _ => rfl

/-- A graph with another's nodes has at least as many: under the first number that it does not have
it would lack a node of the other one. -/
theorem Extends.size_le (h : t.Extends g) : g.nodes.size ≤ t.nodes.size := by
  refine Nat.le_of_not_lt fun hlt => ?_
  -- The number of nodes is the first number that has none.
  have hmissing := h t.nodes.size hlt
  rw [Array.getElem?_size, eq_comm, Array.getElem?_eq_none_iff] at hmissing
  omega

/-- Nodes can be added time and again. -/
theorem Extends.trans (h : u.Extends t) (h' : t.Extends g) : u.Extends g := fun id hid => by
  rw [h id (Nat.lt_of_lt_of_le hid h'.size_le), h' id hid]

/-- A mapping that is there has the same entries where nodes are added. What is not there may be
added, so the value has to stand for something. -/
theorem Extends.entries? (h : t.Extends g) (hv : g.Holds v) : t.entries? v = g.entries? v := by
  cases v with
  | node id => simp only [Graph.entries?, h id hv]
  | _ => rfl

/-- A list that is there has the same items where nodes are added. -/
theorem Extends.items? (h : t.Extends g) (hv : g.Holds v) : t.items? v = g.items? v := by
  cases v with
  | node id => simp only [Graph.items?, h id hv]
  | _ => rfl

/-! ### Texts -/

/-- A value of a closed graph is shown alike where nodes are added, as long as the counts
last: a node is shown by dots inside itself, so no node is entered twice. -/
theorem shownWithin_of_extends (h : t.Extends g) (hg : g.Closed) (hv : g.Holds v)
    (hfuel : g.Passed outer fuel) (hfuel' : g.Passed outer fuel') :
    t.shownWithin fuel' outer v = g.shownWithin fuel outer v := by
  induction fuel generalizing fuel' outer v with
  | zero =>
    -- The count cannot have run out, so there is no such case.
    obtain ⟨k, hk⟩ := hfuel.exists_succ
    cases hk
  | succ fuel ih =>
    obtain ⟨fuel', rfl⟩ := hfuel'.exists_succ
    by_cases hnode : ∃ id, v = .node id
    · obtain ⟨id, rfl⟩ := hnode
      -- What a node holds is shown alike once the node is entered.
      have hinside : ∀ {node : Node}, g.nodes[id]? = some node → id ∉ outer →
          ∀ w ∈ node.values,
            t.shownWithin fuel' (id :: outer) w = g.shownWithin fuel (id :: outer) w :=
        fun hn hnew w hw =>
          ih (hg.holds hn w hw) (hfuel.enter hv hnew) (hfuel'.enter hv hnew)
      simp only [shownWithin, h id hv, List.contains_iff_mem]
      cases hn : g.nodes[id]? with
      | none => rfl
      | some node =>
        -- A node that the walk is inside of is shown by dots on both sides.
        by_cases hmem : id ∈ outer
        · cases node <;> simp only [hmem, ↓reduceIte]
        · have hin := hinside hn hmem
          cases node with
          | list items =>
            have hitems := mapM_congr_mem (l := items) hin
            simp only [hmem, ↓reduceIte, hitems]
          | map entries =>
            have hentries : (entries.mapM fun e => (do
                  pure ((← t.shownWithin fuel' (id :: outer) e.1) ++ ": " ++
                    (← t.shownWithin fuel' (id :: outer) e.2)) : Except Failure String))
                = entries.mapM fun e => (do
                  pure ((← g.shownWithin fuel (id :: outer) e.1) ++ ": " ++
                    (← g.shownWithin fuel (id :: outer) e.2)) : Except Failure String) := by
              refine mapM_congr_mem fun e he => ?_
              rw [hin e.1 (List.mem_flatMap.mpr ⟨e, he, by simp⟩),
                hin e.2 (List.mem_flatMap.mpr ⟨e, he, by simp⟩)]
            simp only [hmem, ↓reduceIte, hentries]
          | set members =>
            have hmembers := mapM_congr_mem (l := members) hin
            simp only [hmem, ↓reduceIte, hmembers]
          | pair a b =>
            simp only [hmem, ↓reduceIte, hin a List.mem_cons_self,
              hin b (List.mem_cons_of_mem _ List.mem_cons_self)]
    · -- Anything but a node is shown without looking at a graph.
      have hscalar : ∀ id, v ≠ .node id := fun id hid => hnode ⟨id, hid⟩
      rw [shownWithin_scalar hscalar, shownWithin_scalar hscalar]

/-- A value is shown alike where nodes are added. Either walk is given a count above the number of
nodes of its own graph, and neither runs out. -/
theorem shown_of_extends (h : t.Extends g) (hg : g.Closed) (hv : g.Holds v) :
    t.shown v = g.shown v := by
  have hsize := h.size_le
  exact shownWithin_of_extends h hg hv (passed_nil (by omega)) (passed_nil (by omega))

/-- A value of a closed graph has the same text where nodes are added. So reading a value is the
same whether its aliases are shared or written out as nodes of their own. -/
theorem text_of_extends (h : t.Extends g) (hg : g.Closed) (hv : g.Holds v) :
    t.text v = g.text v := by
  unfold text
  split
  · rfl
  · rfl
  · rfl
  · exact shown_of_extends h hg hv

end Graph

/-- Every value of the data stands for something. -/
def Data.Closed (d : Data) : Prop := d.graph.Closed ∧ d.graph.Holds d.root

instance (d : Data) : Decidable d.Closed := inferInstanceAs (Decidable (_ ∧ _))

end TypedClient
