import Mathlib.Data.List.Nodup
import Mathlib.Data.List.ProdSigma
import Mathlib.Data.List.ReduceOption
import TypedClient.Proofs.Endpoint.Reading

/-!
# `TypedClient.Proofs.Endpoint.Extraction`: which operations a document has

The item of a path may have keys that differ in case only, keys that are no methods, and
values that are no mappings. Of the entries whose key is a method in upper case and whose
value is a mapping the last one is the operation for that method. Items keep their order,
and the operations of one item come in the order of `httpMethods`.

* `Endpoint.Offers`, `Endpoint.LastFor`: the entries of an item for a method, and the one
  that counts.
* `Endpoint.Slot`, `Endpoint.Yields`: what an item comes to for one method and for all.
* `Endpoint.readAll_eq_ok_iff`: the endpoints are what the items come to, one after the other.
* `Endpoint.readAll_yields`: besides, no endpoint is there twice, and the endpoints of two
  tables in a row are those of the first and then those of the second.
-/

set_option autoImplicit false

namespace TypedClient.Endpoint

variable {g : Graph} {components : Components} {path method : String}
  {item : List (Value × Value)} {es : List Endpoint}

/-! ### The operation of an item for a method -/

/-- The entry is for the method: its key is the method in upper case, and its value is a
mapping. -/
def Offers (g : Graph) (method : String) (entry : Value × Value) : Prop :=
  (∃ key, g.text entry.1 = .ok key ∧ Text.upper key = method) ∧ g.isMapping entry.2 = true

/-- The value of the last entry for a method, none if no entry is for it. -/
inductive LastFor (g : Graph) (method : String) (item : List (Value × Value)) :
    Option Value → Prop
  | absent (h : ∀ entry ∈ item, ¬ Offers g method entry) : LastFor g method item none
  | present {before after : List (Value × Value)} {entry : Value × Value}
      (hitem : item = before ++ entry :: after) (hoffers : Offers g method entry)
      (hlast : ∀ later ∈ after, ¬ Offers g method later) :
      LastFor g method item (some entry.2)

/-- The value that counts is a mapping, as every entry for the method is. -/
theorem LastFor.exists_entries {v : Value} (h : LastFor g method item (some v)) :
    ∃ entries, g.entries? v = some entries := by
  cases h with
  | present _ hoffers _ => exact Option.isSome_iff_exists.mp hoffers.2

/-- An entry before others counts only if none of those is for the method. -/
theorem LastFor.cons_of_offers {v : Option Value} {entry : Value × Value}
    (h : LastFor g method item v) (hoffers : Offers g method entry) :
    LastFor g method (entry :: item) (v.or (some entry.2)) := by
  cases h with
  | absent h => exact .present (List.nil_append _).symm hoffers h
  | @present before after last hitem hoffers' hlast =>
    have hitem : entry :: item = (entry :: before) ++ last :: after := by
      rw [hitem, List.cons_append]
    exact .present hitem hoffers' hlast

/-- An entry that is not for the method changes nothing. -/
theorem LastFor.cons_of_not_offers {v : Option Value} {entry : Value × Value}
    (h : LastFor g method item v) (hoffers : ¬ Offers g method entry) :
    LastFor g method (entry :: item) v := by
  cases h with
  | absent h => exact .absent (List.forall_mem_cons.mpr ⟨hoffers, h⟩)
  | @present before after last hitem hoffers' hlast =>
    have hitem : entry :: item = (entry :: before) ++ last :: after := by
      rw [hitem, List.cons_append]
    exact .present hitem hoffers' hlast

/-- At most one value counts for a method. The entries may be equal and still stand at two places,
so the argument is about places. -/
theorem LastFor.unique {v w : Option Value} (hv : LastFor g method item v)
    (hw : LastFor g method item w) : v = w := by
  cases hv with
  | absent hnone =>
    cases hw with
    | absent => rfl
    | present hitem hoffers => exact absurd hoffers (hnone _ (by simp [hitem]))
  | present hitem hoffers hlast =>
    cases hw with
    | absent hnone => exact absurd hoffers (hnone _ (by simp [hitem]))
    | present hitem' hoffers' hlast' =>
      -- If the two entries stood at different places, one of them would come after the other.
      rw [hitem] at hitem'
      rcases List.append_eq_append_iff.mp hitem' with ⟨more, -, h⟩ | ⟨more, -, h⟩
      all_goals
        cases more with
        | nil =>
          cases h
          rfl
        | cons e rest => cases h; simp_all

/-- Looking an operation up prefers those that come later. -/
theorem operation?_cons (o : String × List (Value × Value))
    (ops : List (String × List (Value × Value))) (method : String) :
    operation? (o :: ops) method
      = (operation? ops method).or (if o.1 = method then some o.2 else none) := by
  unfold operation?
  by_cases h : o.1 = method
  · simp [h, List.getLast?_cons]
  · simp [h]

/-- One step of collecting the operations of an item: an entry that is no mapping is passed over
without its key being looked at, and any other needs a key with a text. -/
theorem operations_cons_eq_ok_iff {entry : Value × Value}
    {ops : List (String × List (Value × Value))} :
    operations g (entry :: item) = .ok ops ↔ match g.entries? entry.2 with
      | none => operations g item = .ok ops
      | some entries => ∃ key rest, g.text entry.1 = .ok key ∧ operations g item = .ok rest ∧
          ops = (Text.upper key, entries) :: rest := by
  unfold operations
  rw [List.filterMap_cons]
  cases g.entries? entry.2 with
  | none => rfl
  | some entries =>
    simp only [Option.map_some, List.mapM_cons, bind_eq_ok_iff]
    constructor
    · rintro ⟨_, ⟨key, hkey, h⟩, rest, hrest, h'⟩
      cases h
      cases h'
      exact ⟨key, rest, hkey, hrest, rfl⟩
    · rintro ⟨key, rest, hkey, hrest, rfl⟩
      exact ⟨_, ⟨key, hkey, rfl⟩, rest, hrest, rfl⟩

/-- What is looked up among the operations of an item is the last entry for the method. -/
theorem exists_lastFor {ops : List (String × List (Value × Value))}
    (h : operations g item = .ok ops) (method : String) :
    ∃ v, LastFor g method item v ∧ operation? ops method = v.bind g.entries? := by
  induction item generalizing ops with
  | nil =>
    cases h
    exact ⟨none, .absent (List.forall_mem_nil _), rfl⟩
  | cons entry rest ih =>
    rw [operations_cons_eq_ok_iff] at h
    cases hentries : g.entries? entry.2 with
    | none =>
      rw [hentries] at h
      obtain ⟨v, hv, hlookup⟩ := ih h
      -- A value that is no mapping does not hide the operation before it.
      refine ⟨v, hv.cons_of_not_offers fun hoffers => ?_, hlookup⟩
      exact absurd hoffers.2 (by simp [Graph.isMapping, hentries])
    | some entries =>
      rw [hentries] at h
      obtain ⟨key, ops, hkey, hops, rfl⟩ := h
      obtain ⟨v, hv, hlookup⟩ := ih hops
      have hmapping : g.isMapping entry.2 = true := by simp [Graph.isMapping, hentries]
      -- The entry counts if it is for the method and no later one is.
      by_cases hmethod : Text.upper key = method
      · refine ⟨_, hv.cons_of_offers ⟨⟨key, hkey, hmethod⟩, hmapping⟩, ?_⟩
        rw [operation?_cons, hlookup, if_pos hmethod]
        cases v with
        | none => exact hentries.symm
        | some v =>
          obtain ⟨entries', hentries'⟩ := hv.exists_entries
          simp [hentries']
      · refine ⟨_, hv.cons_of_not_offers fun ⟨⟨key', hkey', h⟩, _⟩ => ?_, ?_⟩
        · cases hkey.symm.trans hkey'
          exact hmethod h
        · rw [operation?_cons, hlookup, if_neg hmethod, Option.or_none]

/-! ### What an item comes to -/

/-- What an item comes to for a method: the endpoint of the last entry for it, or none. -/
inductive Slot (g : Graph) (components : Components) (path : String)
    (item : List (Value × Value)) (method : String) : Option Endpoint → Prop
  | vacant (h : LastFor g method item none) : Slot g components path item method none
  | filled {operation : Value} {e : Endpoint} (h : LastFor g method item (some operation))
      (hread : (read g components path method (lookupOrNull item "parameters")
        operation).outcome = .ok e) :
      Slot g components path item method (some e)

/-- What an entry of the paths comes to: an item that is no mapping to nothing, and any other
to what it comes to for each method. The keys of its mappings have to have a text. -/
inductive Yields (g : Graph) (components : Components) (p : String × Value) :
    List Endpoint → Prop
  | ignored (h : g.entries? p.2 = none) : Yields g components p []
  | item {item : List (Value × Value)} {slots : List (Option Endpoint)}
      (hitem : g.entries? p.2 = some item)
      (hkeys : ∀ entry ∈ item, g.isMapping entry.2 = true → ∃ key, g.text entry.1 = .ok key)
      (hslots : List.Forall₂ (Slot g components p.1 item) httpMethods slots) :
      Yields g components p slots.reduceOption

/-- What is read of an item for a method is what the item comes to for it, by `exists_lastFor`. -/
theorem forMethod_eq_ok_iff {ops : List (String × List (Value × Value))}
    (h : operations g item = .ok ops) {here : List Endpoint} :
    forMethod g components path (lookupOrNull item "parameters") ops method = .ok here ↔
      ∃ slot, Slot g components path item method slot ∧ here = slot.toList := by
  obtain ⟨v, hv, hlookup⟩ := exists_lastFor h method
  unfold forMethod
  cases v with
  | none =>
    -- No entry is for the method, so nothing is read.
    rw [hlookup]
    constructor
    · intro hhere
      cases hhere
      exact ⟨none, .vacant hv, rfl⟩
    · rintro ⟨slot, hslot, rfl⟩
      cases hslot with
      | vacant => rfl
      | filled h => cases hv.unique h
  | some operation =>
    obtain ⟨entries, hentries⟩ := hv.exists_entries
    -- The operation that counts is a mapping, so that reading it is reading its entries.
    have hread : (ofEntries g components path method (lookupOrNull item "parameters") entries)
        = read g components path method (lookupOrNull item "parameters") operation := by
      rw [read, hentries]
    rw [hlookup, Option.bind_some, hentries]
    dsimp only
    rw [hread]
    constructor
    · intro hhere
      cases he : (read g components path method (lookupOrNull item "parameters")
          operation).outcome with
      | error f =>
        rw [he] at hhere
        cases hhere
      | ok e =>
        rw [he] at hhere
        cases hhere
        exact ⟨some e, .filled hv he, rfl⟩
    · rintro ⟨slot, hslot, rfl⟩
      cases hslot with
      | vacant h => cases hv.unique h
      | filled h he =>
        cases hv.unique h
        rw [he]
        rfl

/-- What is read of an item for several methods is what it comes to for each of them, in their
order. This is by induction on the methods. -/
theorem ofOperations_eq_ok_iff {ops : List (String × List (Value × Value))}
    (h : operations g item = .ok ops) {methods : List String} :
    (ofOperations g components path (lookupOrNull item "parameters") ops methods).outcome = .ok es ↔
      ∃ slots, List.Forall₂ (Slot g components path item) methods slots ∧
        es = slots.reduceOption := by
  induction methods generalizing es with
  | nil =>
    constructor
    · intro hes
      cases hes
      exact ⟨[], .nil, rfl⟩
    · rintro ⟨slots, hslots, rfl⟩
      cases hslots
      rfl
  | cons method rest ih =>
    rw [outcome_ofOperations_cons, exists_slots_cons_iff]
    simp only [bind_eq_ok_iff, forMethod_eq_ok_iff h, ih]
    constructor
    · rintro ⟨_, ⟨slot, hslot, rfl⟩, later, hlater, hes⟩
      exact ⟨slot, hslot, later, hlater, Except.ok.inj hes⟩
    · rintro ⟨slot, hslot, later, hlater, rfl⟩
      exact ⟨_, ⟨slot, hslot, rfl⟩, later, hlater, rfl⟩

/-- The operations of an item are found unless a key of a mapping has no text. -/
theorem exists_operations_iff : (∃ ops, operations g item = .ok ops) ↔
    ∀ entry ∈ item, g.isMapping entry.2 = true → ∃ key, g.text entry.1 = .ok key := by
  induction item with
  | nil => exact iff_of_true ⟨[], rfl⟩ (List.forall_mem_nil _)
  | cons entry rest ih =>
    -- Only the key of a mapping is looked at.
    simp only [operations_cons_eq_ok_iff, List.forall_mem_cons, ← ih]
    unfold Graph.isMapping
    cases g.entries? entry.2 with
    | none => simp
    | some entries =>
      constructor
      · rintro ⟨_, key, ops, hkey, hops, -⟩
        exact ⟨fun _ => ⟨key, hkey⟩, ops, hops⟩
      · rintro ⟨hkey, ops, hops⟩
        obtain ⟨key, hkey⟩ := hkey rfl
        exact ⟨_, key, ops, hkey, hops, rfl⟩

/-- What is read of an entry of the paths is what it comes to. -/
theorem ofPath_eq_ok_iff {p : String × Value} :
    ofPath g components p.1 p.2 = .ok es ↔ Yields g components p es := by
  unfold ofPath
  cases hitem : g.entries? p.2 with
  | none =>
    constructor
    · intro h
      cases h
      exact .ignored hitem
    · intro h
      cases h with
      | ignored => rfl
      | item hitem' => cases hitem.symm.trans hitem'
  | some item =>
    show (ofItem g components p.1 item).outcome = .ok es ↔ _
    rw [ofItem, Logged.bind_ok_iff, Logged.outcome_ofExcept]
    constructor
    · rintro ⟨ops, hops, h⟩
      obtain ⟨slots, hslots, rfl⟩ := (ofOperations_eq_ok_iff hops).mp h
      exact .item hitem (exists_operations_iff.mp ⟨ops, hops⟩) hslots
    · intro h
      cases h with
      | ignored hitem' => cases hitem.symm.trans hitem'
      | item hitem' hkeys hslots =>
        cases hitem.symm.trans hitem'
        obtain ⟨ops, hops⟩ := exists_operations_iff.mpr hkeys
        exact ⟨ops, hops, (ofOperations_eq_ok_iff hops).mpr ⟨_, hslots, rfl⟩⟩

/-! ### The endpoints of a document -/

/-- The summary that is noted at the end does not change the endpoints. -/
theorem outcome_readAll_eq (paths : Table) :
    (readAll g components paths).outcome = (ofPaths g components paths).outcome := by
  rw [readAll, Logged.outcome_bind]
  cases (ofPaths g components paths).outcome <;> rfl

/-- The endpoints are what the entries of the paths come to, one after the other. This is by
induction on the paths. -/
theorem readAll_eq_ok_iff {paths : Table} :
    (readAll g components paths).outcome = .ok es ↔
      ∃ groups, List.Forall₂ (Yields g components) paths groups ∧ es = groups.flatten := by
  rw [outcome_readAll_eq]
  induction paths generalizing es with
  | nil =>
    constructor
    · intro h
      cases h
      exact ⟨[], .nil, rfl⟩
    · rintro ⟨groups, hgroups, rfl⟩
      cases hgroups
      rfl
  | cons p rest ih =>
    rw [outcome_ofPaths_cons]
    simp only [bind_eq_ok_iff, ofPath_eq_ok_iff, ih]
    constructor
    · rintro ⟨here, hhere, _, ⟨groups, hgroups, rfl⟩, hes⟩
      cases hes
      exact ⟨here :: groups, .cons hhere hgroups, rfl⟩
    · rintro ⟨groups, hgroups, rfl⟩
      cases hgroups with
      | cons hhere hgroups => exact ⟨_, hhere, _, ⟨_, hgroups, rfl⟩, rfl⟩

/-- The endpoints of slots are of their path and of methods in the order of the slots. -/
theorem sublist_of_slots {methods : List String} {slots : List (Option Endpoint)}
    (h : List.Forall₂ (Slot g components path item) methods slots) :
    (slots.reduceOption.map fun e => (e.path, e.method)).Sublist
      (methods.map fun method => (path, Text.upper method)) := by
  induction h with
  | nil => exact .slnil
  | @cons method slot methods slots hslot _ ih =>
    cases hslot with
    -- A vacant slot leaves its method out.
    | vacant => exact ih.cons _
    | filled _ hread =>
      obtain ⟨hpath, hmethod, -⟩ := of_read_eq_ok hread
      rw [List.reduceOption_cons_of_some, List.map_cons, List.map_cons, hpath, hmethod]
      exact ih.cons_cons _

/-- The endpoints of a path are of that path and of different supported methods, in the order of
`httpMethods`. -/
theorem Yields.sublist {p : String × Value} (h : Yields g components p es) :
    (es.map fun e => (e.path, e.method)).Sublist (httpMethods.map (Prod.mk p.1)) := by
  cases h with
  | ignored => exact List.nil_sublist _
  | item _ _ hslots =>
    have hupper : httpMethods.map (fun method => (p.1, Text.upper method))
        = httpMethods.map (Prod.mk p.1) := by
      conv_rhs => rw [← map_upper_httpMethods, List.map_map]
      rfl
    exact hupper ▸ sublist_of_slots hslots

/-- The endpoints of tables come in the order of paths and then of methods. -/
theorem sublist_product {paths : Table} {groups : List (List Endpoint)}
    (h : List.Forall₂ (Yields g components) paths groups) :
    (groups.flatten.map fun e => (e.path, e.method)).Sublist
      ((paths.map Prod.fst) ×ˢ httpMethods) := by
  induction h with
  | nil => exact .slnil
  | cons hyields _ ih =>
    rw [List.flatten_cons, List.map_append, List.map_cons, List.product_cons]
    exact hyields.sublist.append ih

/-- Paths are read one after the other and independently, so tables in a row are read in a row. In
monadic terms this is associativity. -/
theorem readAll_append (ps qs : Table) :
    (readAll g components (ps ++ qs)).outcome = (do
      let before ← (readAll g components ps).outcome
      let after ← (readAll g components qs).outcome
      pure (before ++ after)) := by
  simp only [outcome_readAll_eq]
  induction ps with
  | nil =>
    rw [List.nil_append]
    exact (bind_pure _).symm
  | cons p rest ih =>
    rw [List.cons_append, outcome_ofPaths_cons, outcome_ofPaths_cons, ih]
    simp only [bind_assoc, pure_bind, List.append_assoc]

/-- The endpoints of a table are what its items come to. If no path is there twice, no two
endpoints have one path and one method, and the endpoints of two tables in a row are those of
the first one followed by those of the second. -/
theorem readAll_yields (g : Graph) (components : Components) :
    (∀ paths es, (readAll g components paths).outcome = .ok es ↔
      ∃ groups, List.Forall₂ (Yields g components) paths groups ∧ es = groups.flatten) ∧
    (∀ paths es, (readAll g components paths).outcome = .ok es → (paths.map Prod.fst).Nodup →
      (es.map fun e => (e.path, e.method)).Nodup) ∧
    (∀ ps qs, (readAll g components (ps ++ qs)).outcome = (do
      let before ← (readAll g components ps).outcome
      let after ← (readAll g components qs).outcome
      pure (before ++ after))) := by
  refine ⟨fun _ _ => readAll_eq_ok_iff, fun paths es h hpaths => ?_, readAll_append⟩
  obtain ⟨groups, hgroups, rfl⟩ := readAll_eq_ok_iff.mp h
  -- The endpoints are some of the pairs of a path and a method, none of which is there twice.
  have hmethods : httpMethods.Nodup := by decide
  exact (hpaths.product hmethods).sublist (sublist_product hgroups)

/-- An item with three entries for one method, the last of which is no mapping, and with a key
that is no method of a client. -/
def competing : Graph :=
  ⟨#[.map [(.text "post", .node 1), (.text "get", .node 1), (.text "GET", .node 2),
      (.text "Get", .null), (.text "head", .node 1)],
    .map [], .map [(.text "operationId", .text "last")]]⟩

/-- Two paths with that item, and one without an item between them. -/
def competingPaths : Table := [("/b", .node 0), ("/a", .null), ("/", .node 0)]

/-- Of the entries `get`, `GET` and `Get` the second one counts, as the third is no mapping; `head`
is no method of a client. The methods come in the order of the client, not of the item. -/
theorem readAll_yields_competing :
    (competingPaths.map Prod.fst).Nodup ∧
      ∃ es, (readAll competing .absent competingPaths).outcome = .ok es ∧
        es.map (fun e => (e.path, e.method, e.operationId)) =
          [("/b", "GET", some "last"), ("/b", "POST", none),
            ("/", "GET", some "last"), ("/", "POST", none)] ∧
        (es.map fun e => (e.path, e.method)).Nodup := by
  have hpaths : (competingPaths.map Prod.fst).Nodup := by decide
  refine ⟨hpaths, _, rfl, rfl, ?_⟩
  exact (readAll_yields competing .absent).2.1 competingPaths _ rfl hpaths

end TypedClient.Endpoint
