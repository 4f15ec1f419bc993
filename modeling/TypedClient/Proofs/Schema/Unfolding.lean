import TypedClient.Proofs.Schema.Walk

/-!
# `TypedClient.Proofs.Schema.Unfolding`: schemas of shared nodes

A mapping that several walks come upon is shared. Unfolding a value copies every mapping that
a walk comes upon, once for each walk. All that no walk goes through stays in place.

* `Schema.Alike`, `Schema.readNode_of_alike`: a mapping and its copy say the same.
* `Schema.Unfolded`: a value is the unfolded copy of another one.
* `Schema.Unfolded.isTree`: the copies form a tree.
-/

set_option autoImplicit false

namespace TypedClient.Schema

variable {g t G : Graph} {v w x : Value} {entries entries' : List (Value × Value)}
  {id lo hi mid fuel fuel' : Nat} {outer outer' : List Nat}
  {inside inside' : Value → Except Failure Schema}

/-! ### Mappings with another value under a key -/

/-- The entries with another value under a key, if they have the key. -/
def relink (key : String) (w : Value) : List (Value × Value) → List (Value × Value)
  | [] => []
  | e :: rest => if e.1 = .text key then (e.1, w) :: rest else e :: relink key w rest

/-- What is found under a text is the value of the first entry with it. -/
theorem lookupKey_cons {e : Value × Value} {rest : List (Value × Value)} {key : String} :
    lookupKey (e :: rest) key = if e.1 = .text key then some e.2 else lookupKey rest key := by
  unfold lookupKey
  rw [List.find?_cons]
  by_cases h : e.1 = .text key <;> simp [h]

/-- The new value is found under the key that it was put under. -/
theorem lookupKey_relink_self {key : String} (h : (lookupKey entries key).isSome = true) :
    lookupKey (relink key w entries) key = some w := by
  induction entries with
  | nil => cases h
  | cons e rest ih =>
    rw [relink]
    split
    · rename_i he
      rw [lookupKey_cons, if_pos he]
    · rename_i he
      rw [lookupKey_cons, if_neg he] at h ⊢
      exact ih h

/-- What is found under the other keys does not change. -/
theorem lookupKey_relink_of_ne {key key' : String} (h : key' ≠ key) :
    lookupKey (relink key w entries) key' = lookupKey entries key' := by
  induction entries with
  | nil => rfl
  | cons e rest ih =>
    rw [relink]
    split
    · -- The entry that gets the new value is not under this key.
      rename_i he
      have hne : e.1 ≠ .text key' := fun he' => h (Value.text.inj (he'.symm.trans he))
      rw [lookupKey_cons, lookupKey_cons, if_neg hne, if_neg hne]
    · rw [lookupKey_cons, lookupKey_cons, ih]

/-- What is found under a key does not need null to stand for it. -/
theorem lookupOrNull_of_lookupKey {key : String} (h : lookupKey entries key = some v) :
    lookupOrNull entries key = v := by
  rw [lookupOrNull, h, Option.getD_some]

/-- What is a mapping is not the null that stands for a missing value. -/
theorem exists_lookupKey_of_entries? {key : String} {es : List (Value × Value)}
    (h : g.entries? (lookupOrNull entries key) = some es) :
    ∃ v, lookupKey entries key = some v ∧ g.entries? v = some es := by
  cases hkey : lookupKey entries key with
  | none =>
    rw [lookupOrNull, hkey] at h
    cases h
  | some v => exact ⟨v, rfl, by rwa [lookupOrNull_of_lookupKey hkey] at h⟩

/-- The new value is found under its key also where null could stand for it. -/
theorem lookupOrNull_relink_self {key : String} (h : (lookupKey entries key).isSome = true) :
    lookupOrNull (relink key w entries) key = w :=
  lookupOrNull_of_lookupKey (lookupKey_relink_self h)

/-- The entries differ at most in the values that a schema is read through. -/
structure Alike (entries entries' : List (Value × Value)) : Prop where
  keys : ∀ key, (lookupKey entries' key).isSome = (lookupKey entries key).isSome
  values : ∀ key, key ≠ "items" → key ≠ "properties" →
    lookupOrNull entries' key = lookupOrNull entries key

/-- Entries differ in nothing from themselves. -/
theorem Alike.refl (entries : List (Value × Value)) : Alike entries entries where
  keys _ := rfl
  values _ _ _ := rfl

/-- Putting another value under the key of the items or of the properties leaves everything else
that a schema is read from. The key has to be there: a new one would make a tag of it. -/
theorem alike_relink {key : String} (hkey : key = "items" ∨ key = "properties")
    (h : (lookupKey entries key).isSome = true) : Alike entries (relink key w entries) where
  keys key' := by
    by_cases hk : key' = key
    · rw [hk, lookupKey_relink_self h, h]
      rfl
    · rw [lookupKey_relink_of_ne hk]
  values key' hitems hproperties := by
    have hne : key' ≠ key := by
      rintro rfl
      exact hkey.elim hitems hproperties
    rw [lookupOrNull, lookupOrNull, lookupKey_relink_of_ne hne]

/-! ### The same mapping in a graph with nodes added -/

/-- What a mapping of a closed graph has under a key stands for something, or is the null for a
missing one. -/
theorem holds_value (hg : g.Closed) (hv : g.entries? v = some entries) (key : String) :
    g.Holds (lookupOrNull entries key) :=
  Graph.holds_lookupOrNull (hg.of_entries? hv)

section Added

variable (ht : t.Extends g) (hg : g.Closed) (hv : g.entries? v = some entries)

include ht hg hv

/-- A copy of a mapping declares the same type, in a graph that has the nodes of the first and
more. -/
theorem declaredType_of_alike (ha : Alike entries entries') :
    declaredType t entries' = declaredType g entries := by
  simp only [declaredType, ha.values "type" (by decide) (by decide),
    ht.items? (holds_value hg hv "type")]

/-- A copy of a mapping has the same tags. They depend on which keys there are and on values that no
schema is read through. -/
theorem tags_of_alike (ha : Alike entries entries') : tags t entries' = tags g entries := by
  simp only [tags, declaredType_of_alike ht hg hv ha, ha.keys,
    ha.values "enum" (by decide) (by decide), ht.items? (holds_value hg hv "enum")]

/-- A copy of a mapping requires the same names, since texts are the same where nodes are added. -/
theorem requiredNames_of_alike (ha : Alike entries entries') :
    requiredNames t entries' = requiredNames g entries := by
  simp only [requiredNames, ha.values "required" (by decide) (by decide),
    ht.items? (holds_value hg hv "required")]
  cases hitems : g.items? (lookupOrNull entries "required") with
  | none => rfl
  | some items =>
    have htexts := mapM_congr_mem (l := items) fun i hi =>
      Graph.text_of_extends ht hg (hg.of_items? hitems i hi)
    simp only [htexts]

/-- A mapping is read alike if its items are, and if its properties are. What is asked about them is
asked only of a mapping with the tag in question, for the others do not look at them. -/
theorem readNode_of_alike (ha : Alike entries entries') (hone : ¬ Ambiguous g v)
    (hitems : tags g entries = [.array] →
      t.isMapping (lookupOrNull entries' "items") = g.isMapping (lookupOrNull entries "items") ∧
        (g.isMapping (lookupOrNull entries "items") = true →
          inside' (lookupOrNull entries' "items") = inside (lookupOrNull entries "items")))
    (hproperties : tags g entries = [.object] →
      (t.entries? (lookupOrNull entries' "properties")).map (·.mapM (readField t inside'))
        = (g.entries? (lookupOrNull entries "properties")).map (·.mapM (readField g inside))) :
    readNode t inside' w entries' = readNode g inside v entries := by
  have htags' := tags_of_alike ht hg hv ha
  have hdescription : textAt entries' "description" = textAt entries "description" := by
    rw [textAt, textAt, ha.values "description" (by decide) (by decide)]
  -- The tags are the same, so both sides come to the same kind of schema.
  rcases tags_of_not_ambiguous hv hone with htags | ⟨tag, htags⟩
  · simp only [readNode, htags', htags, hdescription]
  rw [htags] at htags'
  cases tag with
  | reference =>
    simp only [readNode, htags', htags, hdescription, ha.values "$ref" (by decide) (by decide),
      Graph.text_of_extends ht hg (holds_value hg hv "$ref")]
  | primitive =>
    simp only [readNode, htags', htags, hdescription, declaredType_of_alike ht hg hv ha,
      ha.values "format" (by decide) (by decide), ha.values "enum" (by decide) (by decide),
      ht.items? (holds_value hg hv "enum")]
  | array =>
    obtain ⟨hmapping, hinside⟩ := hitems htags
    simp only [readNode, htags', htags, hdescription, hmapping]
    split
    · rename_i h
      rw [hinside h]
    · rfl
  | object =>
    have hfields := hproperties htags
    simp only [readNode, htags', htags, hdescription, requiredNames_of_alike ht hg hv ha]
    -- The properties are read alike only if they are a mapping on both sides.
    cases hp : g.entries? (lookupOrNull entries "properties") with
    | none =>
      rw [hp, Option.map_none, Option.map_eq_none_iff] at hfields
      simp only [hfields]
    | some properties =>
      rw [hp, Option.map_some, Option.map_eq_some_iff] at hfields
      obtain ⟨properties', hp', hfields⟩ := hfields
      simp only [hp', hfields]

/-- A mapping without children is read alike whatever the readings inside are. -/
theorem readNode_of_no_children (hone : ¬ Ambiguous g v) (hnone : children g v = []) :
    readNode t inside' w entries = readNode g inside v entries := by
  refine readNode_of_alike ht hg hv (Alike.refl entries) hone (fun htags => ?_) fun htags => ?_
  · rw [children_of_array hv htags] at hnone
    rw [Graph.isMapping, ht.entries? (holds_value hg hv "items"), ← Graph.isMapping]
    exact ⟨rfl, fun hmapping => by simp [hmapping] at hnone⟩
  · rw [ht.entries? (holds_value hg hv "properties")]
    cases hproperties : g.entries? (lookupOrNull entries "properties") with
    | none => rfl
    | some properties =>
      rw [children_of_object hv htags hproperties, List.map_eq_nil_iff] at hnone
      rw [hnone]
      rfl

/-- A mapping with the same entries has the same children where nodes are added, since what the
entries stand for is the same. -/
theorem children_of_extends (hw : t.entries? w = some entries) : children t w = children g v := by
  simp only [children, hv, hw, tags_of_alike ht hg hv (Alike.refl entries), Graph.isMapping,
    ht.entries? (holds_value hg hv "items"), ht.entries? (holds_value hg hv "properties")]
  rfl

end Added

/-! ### Unfolded copies -/

mutual

/-- The value `w` of a graph `t` is the value `v` of `g` unfolded. The mappings that are
copied take up the nodes of `t` from `lo` on and before `hi`, the copy of `v` being the last
one. What no walk goes through is the same in both. -/
inductive Unfolded (g t : Graph) : (lo hi : Nat) → (v w : Value) → Prop
  | leaf {lo : Nat} {v : Value} :
    g.isMapping v = false → g.Holds v → Unfolded g t lo lo v v
  | plain {lo id : Nat} {entries : List (Value × Value)} :
    g.entries? (.node id) = some entries → children g (.node id) = [] →
    t.entries? (.node lo) = some entries → Unfolded g t lo (lo + 1) (.node id) (.node lo)
  | array {lo hi id : Nat} {entries : List (Value × Value)} {items items' : Value} :
    g.entries? (.node id) = some entries → tags g entries = [.array] →
    lookupKey entries "items" = some items → g.isMapping items = true →
    Unfolded g t lo hi items items' →
    t.entries? (.node hi) = some (relink "items" items' entries) →
    Unfolded g t lo (hi + 1) (.node id) (.node hi)
  | object {lo hi id : Nat} {entries properties properties' : List (Value × Value)}
      {table : Value} :
    g.entries? (.node id) = some entries → tags g entries = [.object] →
    lookupKey entries "properties" = some table → g.entries? table = some properties →
    UnfoldedEach g t lo hi properties properties' →
    t.entries? (.node hi) = some properties' →
    t.entries? (.node (hi + 1)) = some (relink "properties" (.node hi) entries) →
    Unfolded g t lo (hi + 2) (.node id) (.node (hi + 1))

/-- The values of the properties are unfolded one after the other. -/
inductive UnfoldedEach (g t : Graph) : (lo hi : Nat) → (ps ps' : List (Value × Value)) → Prop
  | nil {lo : Nat} : UnfoldedEach g t lo lo [] []
  | cons {lo mid hi : Nat} {k v w : Value} {ps ps' : List (Value × Value)} :
    Unfolded g t lo mid v w → UnfoldedEach g t mid hi ps ps' →
    UnfoldedEach g t lo hi ((k, v) :: ps) ((k, w) :: ps')

end

mutual

/-- The nodes of a copy begin before they end. -/
theorem Unfolded.le : ∀ {lo hi : Nat} {v w : Value}, Unfolded g t lo hi v w → lo ≤ hi
  | _, _, _, _, .leaf _ _ => Nat.le_refl _
  | _, _, _, _, .plain _ _ _ => Nat.le_succ _
  | _, _, _, _, .array _ _ _ _ hitems _ => Nat.le_succ_of_le hitems.le
  | _, _, _, _, .object _ _ _ _ heach _ _ => Nat.le_add_right_of_le heach.le

/-- The nodes of copies in turn begin before they end. -/
theorem UnfoldedEach.le :
    ∀ {lo hi : Nat} {ps ps' : List (Value × Value)}, UnfoldedEach g t lo hi ps ps' → lo ≤ hi
  | _, _, _, _, .nil => Nat.le_refl _
  | _, _, _, _, .cons hfirst hrest => Nat.le_trans hfirst.le hrest.le

end

/-- A copy is a mapping exactly if the value is. -/
theorem Unfolded.isMapping (ht : t.Extends g) (h : Unfolded g t lo hi v w) :
    t.isMapping w = g.isMapping v := by
  cases h with
  | leaf hv hholds => simp only [Graph.isMapping, ht.entries? hholds]
  | plain hv _ hw => simp [Graph.isMapping, hv, hw]
  | array hv _ _ _ _ hw => simp [Graph.isMapping, hv, hw]
  | object hv _ _ _ _ _ hw => simp [Graph.isMapping, hv, hw]

/-- The copy of a mapping comes last, and its children are copies that come before. This is all that
the facts about the tree of copies need to know of the three kinds of mappings. -/
theorem Unfolded.exists_children (ht : t.Extends g) (hg : g.Closed) (h : Unfolded g t lo hi v w)
    (hv : g.isMapping v = true) : ∃ root mid ps ps', w = .node root ∧ mid ≤ root ∧ root < hi ∧
      UnfoldedEach g t lo mid ps ps' ∧ children t w = ps'.map Prod.snd := by
  cases h with
  | leaf hleaf _ => simp [hleaf] at hv
  -- A mapping that is copied as it stands has no children.
  | plain hentries hnone hw =>
    refine ⟨lo, lo, [], [], rfl, Nat.le_refl _, Nat.lt_succ_self _, .nil, ?_⟩
    rw [children_of_extends ht hg hentries hw, hnone]
    rfl
  | @array _ hi _ entries items items' hentries htags hkey hmapping hitems hw =>
    have ha : Alike entries (relink "items" items' entries) :=
      alike_relink (.inl rfl) (by simp [hkey])
    refine ⟨hi, hi, [(.null, items)], [(.null, items')], rfl, Nat.le_refl _, Nat.lt_succ_self _,
      .cons hitems .nil, ?_⟩
    rw [children_of_array hw ((tags_of_alike ht hg hentries ha).trans htags),
      lookupOrNull_relink_self (by simp [hkey]), hitems.isMapping ht, if_pos hmapping]
    rfl
  | @object _ hi _ entries properties properties' table hentries htags hkey _ heach htable hw =>
    have ha : Alike entries (relink "properties" (.node hi) entries) :=
      alike_relink (.inr rfl) (by simp [hkey])
    refine ⟨hi + 1, hi, properties, properties', rfl, Nat.le_succ _, Nat.lt_succ_self _, heach, ?_⟩
    exact children_of_object hw ((tags_of_alike ht hg hentries ha).trans htags)
      (by rw [lookupOrNull_relink_self (by simp [hkey]), htable])

/-- Each of several values that are unfolded in turn has its copy somewhere between the bounds of
all. -/
theorem UnfoldedEach.getElem? {ps ps' : List (Value × Value)} (h : UnfoldedEach g t lo hi ps ps')
    {i : Nat} (hw : (ps'.map Prod.snd)[i]? = some w) :
    ∃ a b v, lo ≤ a ∧ b ≤ hi ∧ Unfolded g t a b v w := by
  induction ps generalizing lo ps' i with
  | nil =>
    cases h
    simp at hw
  | cons p ps ih =>
    cases h with
    | @cons _ mid _ k v w' _ ps' hfirst hrest =>
      cases i with
      | zero =>
        obtain rfl : w' = w := by simpa using hw
        exact ⟨lo, mid, v, Nat.le_refl _, hrest.le, hfirst⟩
      | succ i =>
        obtain ⟨a, b, v, ha, hb, hv⟩ := ih hrest (by simpa using hw)
        exact ⟨a, b, v, Nat.le_trans hfirst.le ha, hb, hv⟩

/-! ### The tree of the copies -/

/-- The value that a walk ends at whose steps are places among the children. -/
def follow (g : Graph) : Value → List Nat → Option Value
  | v, [] => some v
  | v, i :: path => (children g v)[i]?.bind fun u => follow g u path

/-- No two walks come upon one mapping. -/
def IsTree (g : Graph) (v : Value) : Prop :=
  ∀ path path' x, follow g v path = some x → follow g v path' = some x → g.isMapping x = true →
    path = path'

/-- A walk goes to a child, by its place, and on from there. -/
theorem follow_cons_eq_some_iff {i : Nat} {path : List Nat} :
    follow g v (i :: path) = some x ↔
      ∃ u, (children g v)[i]? = some u ∧ follow g u path = some x := by
  rw [follow, Option.bind_eq_some_iff]

/-- Walks through a copy stay among the nodes that it takes up. It is asked that they end at a
mapping, because other values are not copied. -/
theorem Unfolded.mem_range (ht : t.Extends g) (hg : g.Closed) {path : List Nat}
    (h : Unfolded g t lo hi v w) (hpath : follow t w path = some x) (hx : t.isMapping x = true) :
    ∃ id, x = .node id ∧ lo ≤ id ∧ id < hi := by
  induction path generalizing lo hi v w with
  | nil =>
    obtain rfl : w = x := by simpa [follow] using hpath
    rw [h.isMapping ht] at hx
    obtain ⟨root, mid, ps, ps', rfl, hmid, hroot, heach, -⟩ := h.exists_children ht hg hx
    exact ⟨root, rfl, Nat.le_trans heach.le hmid, hroot⟩
  -- The walk leaves the copy for one of the copies inside, whose nodes lie within its own.
  | cons i path ih =>
    obtain ⟨u, hu, hrest⟩ := follow_cons_eq_some_iff.mp hpath
    cases hv : g.isMapping v with
    | false =>
      rw [children_of_not_isMapping (by rw [h.isMapping ht, hv])] at hu
      simp at hu
    | true =>
      obtain ⟨root, mid, ps, ps', rfl, hmid, hroot, heach, hchildren⟩ := h.exists_children ht hg hv
      rw [hchildren] at hu
      obtain ⟨a, b, v', ha, hb, hcopy⟩ := heach.getElem? hu
      obtain ⟨id, rfl, hlo, hhi⟩ := ih hcopy hrest
      exact ⟨id, rfl, by omega, by omega⟩

/-- Values that are unfolded one after the other have no mapping in common: two walks from children
that end at one mapping begin with the same child. The copies of different children lie on two sides
of some number. -/
theorem UnfoldedEach.place_eq (ht : t.Extends g) (hg : g.Closed) {ps ps' : List (Value × Value)}
    (h : UnfoldedEach g t lo hi ps ps') {i j : Nat} {u u' : Value} {path path' : List Nat}
    (hu : (ps'.map Prod.snd)[i]? = some u) (hu' : (ps'.map Prod.snd)[j]? = some u')
    (hpath : follow t u path = some x) (hpath' : follow t u' path' = some x)
    (hx : t.isMapping x = true) : i = j := by
  induction ps generalizing lo ps' i j with
  | nil =>
    cases h
    simp at hu
  | cons p ps ih =>
    cases h with
    | @cons _ mid _ k v w _ ps' hfirst hrest =>
      -- What is in the first value comes before `mid`, what is in the others does not.
      have hbefore : ∀ {p : List Nat}, follow t w p = some x → ∃ id, x = .node id ∧ id < mid :=
        fun hp => (hfirst.mem_range ht hg hp hx).imp fun _ h => ⟨h.1, h.2.2⟩
      have hafter : ∀ {k : Nat} {y : Value} {p : List Nat}, (ps'.map Prod.snd)[k]? = some y →
          follow t y p = some x → ∃ id, x = .node id ∧ mid ≤ id := by
        intro k y p hy hp
        obtain ⟨a, b, v', ha, -, hcopy⟩ := hrest.getElem? hy
        obtain ⟨id, hid, hlo, -⟩ := hcopy.mem_range ht hg hp hx
        exact ⟨id, hid, Nat.le_trans ha hlo⟩
      have hboth : (∃ id, x = .node id ∧ id < mid) → (∃ id, x = .node id ∧ mid ≤ id) → False := by
        rintro ⟨id, rfl, hlt⟩ ⟨id', hid, hle⟩
        cases hid
        omega
      cases i with
      | zero =>
        obtain rfl : w = u := by simpa using hu
        cases j with
        | zero => rfl
        | succ j => exact (hboth (hbefore hpath) (hafter (by simpa using hu') hpath')).elim
      | succ i =>
        cases j with
        | zero =>
          obtain rfl : w = u' := by simpa using hu'
          exact (hboth (hbefore hpath') (hafter (by simpa using hu) hpath)).elim
        | succ j => exact congrArg Nat.succ (ih hrest (by simpa using hu) (by simpa using hu'))

/-- Walks that differ end at different mappings: one of them goes on from where the other one ends,
or they go on to different children. So every mapping of a copy is come upon by one walk, which is
what makes the copies a tree. -/
theorem Unfolded.isTree (ht : t.Extends g) (hg : g.Closed) (h : Unfolded g t lo hi v w) :
    IsTree t w := by
  intro path
  induction path generalizing lo hi v w with
  | nil =>
    intro path' x hpath hpath' hx
    obtain rfl : w = x := by simpa [follow] using hpath
    cases path' with
    | nil => rfl
    | cons j path' =>
      -- What lies inside of a copy comes before it, so no walk leads back to it.
      have hv := hx
      rw [h.isMapping ht] at hv
      obtain ⟨root, mid, ps, ps', rfl, hmid, hroot, heach, hchildren⟩ := h.exists_children ht hg hv
      obtain ⟨u, hu, hrest⟩ := follow_cons_eq_some_iff.mp hpath'
      rw [hchildren] at hu
      obtain ⟨a, b, v', ha, hb, hcopy⟩ := heach.getElem? hu
      obtain ⟨id, hid, hlo, hhi⟩ := hcopy.mem_range ht hg hrest hx
      cases hid
      omega
  | cons i path ih =>
    intro path' x hpath hpath' hx
    obtain ⟨u, hu, hrest⟩ := follow_cons_eq_some_iff.mp hpath
    cases hv : g.isMapping v with
    | false =>
      rw [children_of_not_isMapping (by rw [h.isMapping ht, hv])] at hu
      simp at hu
    | true =>
      obtain ⟨root, mid, ps, ps', rfl, hmid, hroot, heach, hchildren⟩ := h.exists_children ht hg hv
      rw [hchildren] at hu
      obtain ⟨a, b, v', ha, hb, hcopy⟩ := heach.getElem? hu
      cases path' with
      | nil =>
        obtain ⟨id, rfl, hlo, hhi⟩ := hcopy.mem_range ht hg hrest hx
        cases hpath'
        omega
      | cons j path' =>
        obtain ⟨u', hu', hrest'⟩ := follow_cons_eq_some_iff.mp hpath'
        rw [hchildren] at hu'
        -- Different children have no mapping in common, so both walks take the same one.
        obtain rfl := heach.place_eq ht hg hu hu' hrest hrest' hx
        obtain rfl : u = u' := Option.some.inj (hu.symm.trans hu')
        rw [ih hcopy path' _ hrest hrest' hx]

end TypedClient.Schema
