import TypedClient.Proofs.Log
import TypedClient.Value.Text

/-!
# `TypedClient.Proofs.Value.Text`: which values have a text

All values have a text but integers that are too long, and collections that hold one.

* `Graph.Writable`: no integer in the graph is too long.
* `Graph.of_text_eq_error`: a value without a text is such an integer, or the graph holds one.
-/

set_option autoImplicit false

namespace TypedClient

/-- The values that a node holds. -/
def Node.values : Node → List Value
  | .list items => items
  | .map entries => entries.flatMap fun e => [e.1, e.2]
  | .set members => members
  | .pair a b => [a, b]

/-- The keys of a node. -/
def Node.keys : Node → List Value
  | .map entries => entries.map Prod.fst
  | _ => []

/-- An integer is short enough exactly if it is below the limit. The limit is on the number and not
on its figures, so nothing has to be said about decimal writing. -/
theorem Value.fits_int_iff {n : Nat} : (Value.int n).fits = true ↔ n < integerLimit := by
  simp [Value.fits]

namespace Graph

variable {g : Graph} {v : Value} {f : Failure} {items : List Value}
  {entries : List (Value × Value)} {key : String}

/-- Every integer in the graph is short enough to be written. -/
def Writable (g : Graph) : Prop := ∀ node ∈ g.nodes.toList, ∀ v ∈ node.values, v.fits = true

/-- Every mapping of the graph is keyed by text. -/
def TextKeyed (g : Graph) : Prop :=
  ∀ node ∈ g.nodes.toList, ∀ k ∈ node.keys, k.text?.isSome = true

instance (g : Graph) : Decidable g.Writable := inferInstanceAs (Decidable (∀ _ ∈ _, _))

instance (g : Graph) : Decidable g.TextKeyed := inferInstanceAs (Decidable (∀ _ ∈ _, _))

/-! ### What a graph holds -/

/-- A node that is found under a number is one of the nodes of the graph. -/
theorem node_mem {id : Nat} {node : Node} (h : g.nodes[id]? = some node) :
    node ∈ g.nodes.toList := by
  rw [← Array.getElem?_toList] at h
  exact List.mem_of_getElem? h

/-- The entries of a value are those of a mapping of the graph. -/
theorem map_mem_of_entries? (h : g.entries? v = some entries) :
    .map entries ∈ g.nodes.toList := by
  unfold entries? at h
  split at h
  · rename_i id
    split at h
    · rename_i found hnode
      cases h
      exact node_mem hnode
    · cases h
  · cases h

/-- The items of a value are those of a list of the graph. -/
theorem list_mem_of_items? (h : g.items? v = some items) : .list items ∈ g.nodes.toList := by
  unfold items? at h
  split at h
  · rename_i id
    split at h
    · rename_i found hnode
      cases h
      exact node_mem hnode
    · cases h
  · cases h

/-- If no integer of the graph is too long, then no entry of a mapping is one, be it a key or a
value. -/
theorem Writable.of_entries? (hg : g.Writable) (h : g.entries? v = some entries) :
    ∀ e ∈ entries, e.1.fits = true ∧ e.2.fits = true := by
  intro e he
  have hvalues := hg _ (map_mem_of_entries? h)
  exact ⟨hvalues _ (List.mem_flatMap.mpr ⟨e, he, by simp⟩),
    hvalues _ (List.mem_flatMap.mpr ⟨e, he, by simp⟩)⟩

/-- If no integer of the graph is too long, then no item of a list is one. -/
theorem Writable.of_items? (hg : g.Writable) (h : g.items? v = some items) :
    ∀ i ∈ items, i.fits = true :=
  hg _ (list_mem_of_items? h)

/-- What is no mapping has no entries, so the same holds of whatever is read as one. -/
theorem Writable.of_mem_entries (hg : g.Writable) {e : Value × Value}
    (he : e ∈ (g.entries? v).getD []) : e.1.fits = true ∧ e.2.fits = true := by
  cases h : g.entries? v with
  | none => simp [h] at he
  | some entries => exact hg.of_entries? h e (by simpa [h] using he)

/-- What is no list has no items, so the same holds of whatever is read as one. -/
theorem Writable.of_mem_items (hg : g.Writable) {i : Value} (hi : i ∈ (g.items? v).getD []) :
    i.fits = true := by
  cases h : g.items? v with
  | none => simp [h] at hi
  | some items => exact hg.of_items? h i (by simpa [h] using hi)

/-- In a graph whose mappings are keyed by text every key of a mapping is a text. -/
theorem TextKeyed.of_entries? (hk : g.TextKeyed) (h : g.entries? v = some entries) :
    ∀ e ∈ entries, ∃ s, e.1 = .text s := by
  intro e he
  have := hk _ (map_mem_of_entries? h) e.1 (List.mem_map_of_mem he)
  cases hkey : e.1 <;> simp_all [Value.text?]

/-- What is no mapping has no entries, so all keys of what is read as one are texts. -/
theorem TextKeyed.of_mem_entries (hk : g.TextKeyed) {e : Value × Value}
    (he : e ∈ (g.entries? v).getD []) : ∃ s, e.1 = .text s := by
  cases h : g.entries? v with
  | none => simp [h] at he
  | some entries => exact hk.of_entries? h e (by simpa [h] using he)

/-- What is found under a text is an entry with that text as its key. -/
theorem lookupKey_mem (h : lookupKey entries key = some v) : (.text key, v) ∈ entries := by
  obtain ⟨e, he, rfl⟩ := Option.map_eq_some_iff.mp h
  have hkey : e.1 = .text key := by simpa using List.find?_some he
  rw [← hkey]
  exact List.mem_of_find?_eq_some he

/-- What is found under a key is short enough if all entries are. If nothing is found, null stands
for it, which is no integer. -/
theorem fits_lookupOrNull (h : ∀ e ∈ entries, e.1.fits = true ∧ e.2.fits = true) :
    (lookupOrNull entries key).fits = true := by
  unfold lookupOrNull
  cases hv : lookupKey entries key with
  | none => rfl
  | some v => exact (h _ (lookupKey_mem hv)).2

/-! ### Texts -/

/-- A value that is no node is shown by itself, or is an integer that is too long. The nodes that
the walk is inside of do not matter for it. -/
theorem shownWithin_scalar {fuel : Nat} {outer : List Nat} (h : ∀ id, v ≠ .node id) :
    g.shownWithin (fuel + 1) outer v
      = if v.fits then .ok v.shownScalar else .error (.defect .integerTooLong) := by
  cases v with
  | node id => exact absurd rfl (h id)
  | _ => rfl

/-- What cannot be shown holds an integer that is too long. A node is always short itself, so what
is found inside is held by the graph. A node inside itself is shown by dots, so that is no
failure. -/
theorem of_shownWithin_eq_error {fuel : Nat} {outer : List Nat}
    (h : g.shownWithin fuel outer v = .error f) :
    f = .defect .integerTooLong ∧ ¬ (g.Writable ∧ v.fits = true) := by
  induction fuel generalizing outer v f with
  | zero => cases h
  | succ fuel ih =>
    -- A value in a node is the graph's own, so it need not be short for the node to be.
    have hheld : ∀ {node : Node} {w : Value} {id : Nat}, g.nodes[id]? = some node →
        w ∈ node.values → g.shownWithin fuel (id :: outer) w = .error f →
          f = .defect .integerTooLong ∧ ¬ (g.Writable ∧ v.fits = true) :=
      fun hnode hw hf =>
        ⟨(ih hf).1, fun hg => (ih hf).2 ⟨hg.1, hg.1 _ (node_mem hnode) _ hw⟩⟩
    by_cases hv : ∃ id, v = .node id
    · obtain ⟨id, rfl⟩ := hv
      simp only [shownWithin] at h
      -- No node at all, then a list, a mapping, a set, a pair: each is cut short where it
      -- stands inside itself, and else fails with what it holds.
      split at h
      · cases h
      · rename_i items hnode
        split at h
        · cases h
        · obtain ⟨w, hw, hf⟩ := exists_of_mapM_eq_error (bind_pure_eq_error_iff.mp h)
          exact hheld hnode hw hf
      · rename_i entries hnode
        split at h
        · cases h
        · obtain ⟨e, he, hf⟩ := exists_of_mapM_eq_error (bind_pure_eq_error_iff.mp h)
          have hvalues : e.1 ∈ (Node.map entries).values ∧ e.2 ∈ (Node.map entries).values :=
            ⟨List.mem_flatMap.mpr ⟨e, he, by simp⟩, List.mem_flatMap.mpr ⟨e, he, by simp⟩⟩
          rcases bind_eq_error_iff.mp hf with hf | ⟨_, -, hf⟩
          · exact hheld hnode hvalues.1 hf
          · exact hheld hnode hvalues.2 (bind_pure_eq_error_iff.mp hf)
      · rename_i members hnode
        split at h
        · cases h
        · split at h
          · cases h
          · obtain ⟨w, hw, hf⟩ := exists_of_mapM_eq_error (bind_pure_eq_error_iff.mp h)
            exact hheld hnode hw hf
      · rename_i a b hnode
        split at h
        · cases h
        · rcases bind_eq_error_iff.mp h with hf | ⟨_, -, h⟩
          · exact hheld hnode List.mem_cons_self hf
          · exact hheld hnode (List.mem_cons_of_mem _ List.mem_cons_self)
              (bind_pure_eq_error_iff.mp h)
    · rw [shownWithin_scalar fun id hid => hv ⟨id, hid⟩] at h
      split at h
      · cases h
      · rename_i hfits
        cases h
        exact ⟨rfl, fun hg => hfits hg.2⟩

/-- A value without a text is an integer that is too long, or the graph holds one. This is the only
way in which making a text of a value fails. -/
theorem of_text_eq_error (h : g.text v = .error f) :
    f = .defect .integerTooLong ∧ ¬ (g.Writable ∧ v.fits = true) := by
  unfold text at h
  -- A text, a date and a timestamp have texts of their own.
  split at h
  · cases h
  · cases h
  · cases h
  · exact of_shownWithin_eq_error h

end Graph

end TypedClient
