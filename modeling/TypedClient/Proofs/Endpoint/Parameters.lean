import Mathlib.Data.List.Perm.Basic
import Mathlib.Data.List.ReduceOption
import TypedClient.Proofs.Assoc
import TypedClient.Proofs.Endpoint.Reading

/-!
# `TypedClient.Proofs.Endpoint.Parameters`: the parameters of an operation

A path lists parameters for all of its operations, and an operation lists its own. An entry of
a list may be a reference, and one that comes to no name is left out. Of the parameters with
one name and one location the last one prevails, at the place of the first one: what an
operation says of a parameter replaces what its path says, where the path says it.

* `Endpoint.StandsFor`, `Endpoint.Listed`: the parameters of a list.
* `Endpoint.Merged`: parameters of which no two have one key, as they come of a list.
* `Endpoint.readParameters_eq_ok_iff`: the parameters of an operation are those of the two
  lists, merged.
* `Endpoint.readParameters_merged`: what follows for keys, places and parameters of the path.
-/

set_option autoImplicit false

namespace TypedClient.Endpoint

variable {g : Graph} {components : Components} {v : Value} {vs : List Value}
  {p : Parameter} {ps qs listed : List Parameter}

/-! ### The parameters of a list -/

/-- What an entry of a list stands for, references followed: a parameter, or nothing if it
comes to no mapping with a name. -/
inductive StandsFor (g : Graph) (components : Components) (v : Value) : Option Parameter → Prop
  | named {w name : Value} {entries : List (Value × Value)} {p : Parameter}
      (hw : (dereference g components "parameters" v).outcome = .ok w)
      (hentries : g.entries? w = some entries) (hname : lookupKey entries "name" = some name)
      (hp : readParameter g name entries = .ok p) : StandsFor g components v (some p)
  | nameless {w : Value} (hw : (dereference g components "parameters" v).outcome = .ok w)
      (hname : ∀ entries, g.entries? w = some entries → lookupKey entries "name" = none) :
      StandsFor g components v none

/-- The parameters that the entries of a list stand for. -/
def Listed (g : Graph) (components : Components) (vs : List Value) (ps : List Parameter) : Prop :=
  ∃ slots, List.Forall₂ (StandsFor g components) vs slots ∧ ps = slots.reduceOption

/-- Reading an entry gives what it stands for. A node that is no mapping has no name either, so both
ways of having none are one case. -/
theorem parameter?_eq_ok_iff {slot : Option Parameter} :
    (parameter? g components v).outcome = .ok slot ↔ StandsFor g components v slot := by
  unfold parameter?
  rw [Logged.bind_ok_iff]
  constructor
  · rintro ⟨w, hw, h⟩
    dsimp only at h
    split at h
    · rename_i name hname
      obtain ⟨p, hp, h⟩ := Logged.bind_ok_iff.mp h
      cases h
      cases hentries : g.entries? w with
      | none =>
        rw [hentries] at hname
        cases hname
      | some entries =>
        rw [hentries] at hname hp
        exact .named hw hentries hname hp
    · rename_i hname
      obtain ⟨_, -, h⟩ := Logged.bind_ok_iff.mp h
      cases h
      refine .nameless hw fun entries hentries => ?_
      rwa [hentries] at hname
  · intro h
    cases h with
    | @named w _ entries p hw hentries hname hp =>
      refine ⟨w, hw, ?_⟩
      simp only [hentries, Option.getD_some, hname, Logged.bind_ok_iff, Logged.outcome_ofExcept]
      exact ⟨p, hp, rfl⟩
    | @nameless w hw hname =>
      refine ⟨w, hw, ?_⟩
      have hnone : lookupKey ((g.entries? w).getD []) "name" = none := by
        cases hentries : g.entries? w with
        | none => rfl
        | some entries => exact hname entries hentries
      simp only [hnone, Logged.bind_ok_iff]
      exact ⟨(), outcome_noteNameless g w, rfl⟩

/-- Reading a list gives the parameters that it lists, by induction on the list: what an entry comes
to, or nothing, in front of the rest. -/
theorem listedParameters_eq_ok_iff :
    (listedParameters g components vs).outcome = .ok ps ↔ Listed g components vs ps := by
  induction vs generalizing ps with
  | nil =>
    constructor
    · intro h
      cases h
      exact ⟨[], .nil, rfl⟩
    · rintro ⟨slots, hslots, rfl⟩
      cases hslots
      rfl
  | cons v rest ih =>
    simp only [listedParameters, Logged.bind_ok_iff, Logged.outcome_pure, Except.ok.injEq,
      parameter?_eq_ok_iff, ih]
    exact exists_slots_cons_iff.symm

/-- Two lists in a row are read one after the other, the failures of the first one first. In monadic
terms this is associativity. -/
theorem outcome_listedParameters_append (vs ws : List Value) :
    (listedParameters g components (vs ++ ws)).outcome = (do
      let ps ← (listedParameters g components vs).outcome
      let qs ← (listedParameters g components ws).outcome
      pure (ps ++ qs)) := by
  induction vs with
  | nil => exact (bind_pure _).symm
  | cons v rest ih =>
    simp only [List.cons_append, listedParameters, Logged.outcome_bind, ih, bind_assoc]
    refine bind_congr fun p => bind_congr fun ps => ?_
    cases (listedParameters g components ws).outcome with
    | error f => rfl
    | ok qs => exact congrArg Except.ok (List.append_assoc _ _ _).symm

/-- Whatever else it says, a parameter that is read for the path is required. -/
theorem required_of_readParameter {name : Value} {entries : List (Value × Value)}
    (h : readParameter g name entries = .ok p) (hpath : p.location = .path) :
    p.required = true := by
  unfold readParameter at h
  obtain ⟨_, -, h⟩ := bind_eq_ok_iff.mp h
  obtain ⟨_, -, h⟩ := bind_eq_ok_iff.mp h
  cases h
  exact Bool.or_eq_true_iff.mpr (.inr (decide_eq_true hpath))

/-- Every parameter of the path that is listed is required, whichever entry it was read from. -/
theorem Listed.required (h : Listed g components vs ps) :
    ∀ p ∈ ps, p.location = .path → p.required = true := by
  obtain ⟨slots, hslots, rfl⟩ := h
  induction hslots with
  | nil => exact List.forall_mem_nil _
  | @cons _ slot _ _ hslot _ ih =>
    cases hslot with
    | nameless => exact ih
    | named _ _ _ hp => exact List.forall_mem_cons.mpr ⟨required_of_readParameter hp, ih⟩

/-! ### Merging -/

/-- The parameters as they are merged from those that are listed: each key that is listed has
the last parameter that is listed with it, and keys come in the order in which they are
listed first. -/
structure Merged (listed ps : List Parameter) : Prop where
  mem_keys : ∀ k, k ∈ ps.map Parameter.key ↔ k ∈ listed.map Parameter.key
  ordered : (ps.map Parameter.key).Pairwise fun k l =>
    (listed.map Parameter.key).idxOf k < (listed.map Parameter.key).idxOf l
  last : ∀ p ∈ ps, ∃ before after, listed = before ++ p :: after ∧
    ∀ later ∈ after, later.key ≠ p.key

/-- A parameter is merged exactly if it is the last one that is listed with its key. -/
theorem mem_mergeParameters_iff : p ∈ mergeParameters listed ↔
    ∃ before after, listed = before ++ p :: after ∧ ∀ later ∈ after, later.key ≠ p.key := by
  -- A parameter stands under its own key, so it is merged exactly if its entry is there.
  have hentry : p ∈ mergeParameters listed ↔
      (p.key, p) ∈ Assoc.ofList (listed.map fun p => (p.key, p)) := by
    refine List.mem_map.trans ⟨?_, fun h => ⟨_, h, rfl⟩⟩
    rintro ⟨entry, h, rfl⟩
    obtain ⟨q, -, rfl⟩ := List.mem_map.mp (Assoc.mem_of_mem_ofList h)
    exact h
  rw [hentry, Assoc.mem_ofList_iff]
  constructor
  · rintro ⟨before, after, h, hafter⟩
    obtain ⟨before, rest, rfl, rfl, hrest⟩ := List.map_eq_append_iff.mp h
    obtain ⟨q, after, rfl, hq, rfl⟩ := List.map_eq_cons_iff.mp hrest
    obtain rfl : q = p := congrArg Prod.snd hq
    exact ⟨before, after, rfl, by simpa using hafter⟩
  · rintro ⟨before, after, rfl, hafter⟩
    refine ⟨before.map fun p => (p.key, p), after.map fun p => (p.key, p), by simp, ?_⟩
    simpa using hafter

/-- What the table of parameters by key gives is the parameters merged: its keys are those that are
listed, in the order of their first occurrences, each with its last value. -/
theorem merged_mergeParameters (listed : List Parameter) :
    Merged listed (mergeParameters listed) where
  mem_keys k := by
    rw [map_key_mergeParameters, Assoc.mem_keys_ofList, List.map_map]
    rfl
  ordered := by
    rw [map_key_mergeParameters]
    have h := Assoc.pairwise_idxOf_ofList (listed.map fun p => (p.key, p))
    rw [List.map_map] at h
    exact h
  last _ := mem_mergeParameters_iff.mp

/-- No key is there twice, since its place would come before itself. -/
theorem Merged.nodup (h : Merged listed ps) : (ps.map Parameter.key).Nodup :=
  h.ordered.imp fun hlt heq => by
    rw [heq] at hlt
    exact Nat.lt_irrefl _ hlt

/-- The last parameter that is listed with a key is found from the end. -/
theorem Merged.find?_eq (h : Merged listed ps) (hp : p ∈ ps) :
    listed.reverse.find? (fun q => q.key = p.key) = some p := by
  obtain ⟨before, after, rfl, hafter⟩ := h.last p hp
  rw [List.find?_eq_some_iff_append]
  refine ⟨by simp, after.reverse, before.reverse, by simp, ?_⟩
  simpa using hafter

/-- There is one way to merge parameters. -/
theorem Merged.unique (hp : Merged listed ps) (hq : Merged listed qs) : ps = qs := by
  have hkeys : ps.map Parameter.key = qs.map Parameter.key := by
    have hperm := (List.perm_ext_iff_of_nodup hp.nodup hq.nodup).mpr fun k =>
      (hp.mem_keys k).trans (hq.mem_keys k).symm
    refine hperm.eq_of_pairwise (fun k l _ _ hkl hlk => ?_) hp.ordered hq.ordered
    exact absurd hkl (Nat.lt_asymm hlk)
  -- The parameter with a key is found in the list, so the keys determine the rest.
  have hfound : ∀ {rs}, Merged listed rs → rs.map some
      = (rs.map Parameter.key).map fun k => listed.reverse.find? fun q => q.key = k := by
    intro rs hrs
    rw [List.map_map]
    exact List.map_congr_left fun p hp => (hrs.find?_eq hp).symm
  refine List.map_injective_iff.mpr (fun _ _ => Option.some.inj) ?_
  rw [hfound hp, hfound hq, hkeys]

/-! ### The parameters of an operation -/

/-- The parameters of an operation are exactly those of the list of its path and of its own list,
merged in that order, so that its own prevail. -/
theorem readParameters_eq_ok_iff {shared own : Value} :
    (readParameters g components shared own).outcome = .ok ps ↔
      ∃ xs ys, Listed g components ((g.items? shared).getD []) xs ∧
        Listed g components ((g.items? own).getD []) ys ∧ Merged (xs ++ ys) ps := by
  unfold readParameters
  simp only [Logged.bind_ok_iff, outcome_listedParameters_append, bind_eq_ok_iff,
    listedParameters_eq_ok_iff]
  constructor
  · rintro ⟨_, ⟨xs, hxs, ys, hys, h⟩, hps⟩
    cases h
    cases hps
    exact ⟨xs, ys, hxs, hys, merged_mergeParameters _⟩
  · -- `Merged` says all about the result, since there is one way to merge what is listed.
    rintro ⟨xs, ys, hxs, hys, h⟩
    refine ⟨_, ⟨xs, hxs, ys, hys, rfl⟩, ?_⟩
    rw [h.unique (merged_mergeParameters _)]
    rfl

/-- A parameter that is listed by the operation as well is the operation's. -/
theorem Merged.mem_own {xs ys : List Parameter} (h : Merged (xs ++ ys) ps) (hp : p ∈ ps)
    (hown : p.key ∈ ys.map Parameter.key) : p ∈ ys := by
  obtain ⟨before, after, hlisted, hafter⟩ := h.last p hp
  rcases List.append_eq_append_iff.mp hlisted with ⟨more, -, hys⟩ | ⟨more, -, hys⟩
  · exact hys ▸ List.mem_append_right _ List.mem_cons_self
  · -- If the last one stood in the list of the path, the operation would list none of its key.
    cases more with
    | nil => exact List.nil_append ys ▸ hys ▸ List.mem_cons_self
    | cons _ rest =>
      obtain ⟨-, rfl⟩ := List.cons_eq_cons.mp hys
      obtain ⟨q, hq, hkey⟩ := List.mem_map.mp hown
      exact absurd hkey (hafter q (List.mem_append_right _ hq))

/-- The parameters that a path lists keep their places when those of an operation are added. -/
theorem Merged.keys_prefix {xs ys : List Parameter} (hq : Merged xs qs)
    (hp : Merged (xs ++ ys) ps) : qs.map Parameter.key <+: ps.map Parameter.key := by
  rw [hq.unique (merged_mergeParameters _), hp.unique (merged_mergeParameters _),
    map_key_mergeParameters, map_key_mergeParameters, List.map_append]
  exact Assoc.keys_ofList_append _ _

/-- Merging makes no parameters up. -/
theorem Merged.mem_listed (h : Merged listed ps) (hp : p ∈ ps) : p ∈ listed := by
  obtain ⟨before, after, rfl, -⟩ := h.last p hp
  exact List.mem_append_right _ List.mem_cons_self

/-- The parameters of an operation are those that its path lists and then those that it lists
itself, merged. Each key is there once, where it is listed first; what the operation lists is
its own, and what the path lists stays in its place. A parameter of the path is required. A
value that is no list counts as an empty one. -/
theorem readParameters_merged (g : Graph) (components : Components) :
    (∀ shared own ps, (readParameters g components shared own).outcome = .ok ps ↔
      ∃ xs ys, Listed g components ((g.items? shared).getD []) xs ∧
        Listed g components ((g.items? own).getD []) ys ∧ Merged (xs ++ ys) ps) ∧
    (∀ vs ws xs ys ps, Listed g components vs xs → Listed g components ws ys →
      Merged (xs ++ ys) ps →
        (ps.map Parameter.key).Nodup ∧
        (∀ qs, Merged xs qs → qs.map Parameter.key <+: ps.map Parameter.key) ∧
        (∀ p ∈ ps, p.key ∈ ys.map Parameter.key → p ∈ ys) ∧
        (∀ p ∈ ps, p.location = .path → p.required = true)) ∧
    (∀ v w, g.items? v = none → g.items? w = some [] →
      (∀ own, readParameters g components v own = readParameters g components w own) ∧
      (∀ shared, readParameters g components shared v = readParameters g components shared w)) := by
  refine ⟨fun _ _ _ => readParameters_eq_ok_iff, fun vs ws xs ys ps hxs hys h => ?_,
    fun v w hv hw => ?_⟩
  · refine ⟨h.nodup, fun qs hqs => hqs.keys_prefix h, fun p hp => h.mem_own hp, fun p hp => ?_⟩
    rcases List.mem_append.mp (h.mem_listed hp) with hp | hp
    · exact hxs.required p hp
    · exact hys.required p hp
  · unfold readParameters
    rw [hv, hw]
    exact ⟨fun _ => rfl, fun _ => rfl⟩

/-- The nodes 0 and 1 are the lists of a path and of an operation. Both describe the
parameter `id`, and an entry of the path has no name. -/
def layered : Graph :=
  ⟨#[.list [.node 2, .node 3, .node 4], .list [.node 5, .node 6],
    .map [(.text "name", .text "id"), (.text "in", .text "path")],
    .map [(.text "in", .text "query")], .map [(.text "name", .text "verbose")],
    .map [(.text "name", .text "fields")],
    .map [(.text "name", .text "id"), (.text "in", .text "path"),
      (.text "description", .text "own")],
    .list []]⟩

/-- The operation has its own say on `id`, which stays in front where the path lists it; the entry
without a name is left out, and null counts as the empty list. -/
theorem readParameters_merged_layered :
    (∃ xs ys ps, Listed layered .absent [.node 2, .node 3, .node 4] xs ∧
      Listed layered .absent [.node 5, .node 6] ys ∧ Merged (xs ++ ys) ps ∧
      ps.map (fun p => (p.name, p.description)) = [("id", "own"), ("verbose", ""), ("fields", "")] ∧
      (ps.map Parameter.key).Nodup ∧ ∀ p ∈ ps, p.location = .path → p.required = true) ∧
    layered.items? .null = none ∧ layered.items? (.node 7) = some [] ∧
      readParameters layered .absent .null (.node 1)
        = readParameters layered .absent (.node 7) (.node 1) := by
  have h := readParameters_merged layered .absent
  obtain ⟨xs, ys, hxs, hys, hps⟩ := (h.1 (.node 0) (.node 1) _).mp rfl
  obtain ⟨hnodup, -, -, hrequired⟩ := h.2.1 _ _ xs ys _ hxs hys hps
  exact ⟨⟨xs, ys, _, hxs, hys, hps, rfl, hnodup, hrequired⟩, rfl, rfl,
    (h.2.2 .null (.node 7) rfl rfl).1 (.node 1)⟩

end TypedClient.Endpoint
