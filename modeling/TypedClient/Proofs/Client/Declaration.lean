import TypedClient.Client.Declaration
import TypedClient.Proofs.Log
import TypedClient.Proofs.Name.Registry

/-!
# `TypedClient.Proofs.Client.Declaration`: what declaring does to a builder

Each piece of a builder's work has one lemma that says which states it can leave, and one
for the case that it succeeds. Clients of these lemmas never look into the work itself.

* `Builder.declareSchema_cases`: how declaring a schema can go.
* `Builder.hoist_state`: the states that hoisting a record can leave.
* `Builder.Extends`: what every piece of work leaves as it was, and what it only adds to.
* `Builder.gives_declareAll`: afterwards every schema of the document is declared, and a
  builder like that has nothing to declare (`Builder.run_declareAll`).
-/

set_option autoImplicit false

namespace TypedClient.Builder

open Work

variable {b b' : Builder} {e : Endpoint} {name n suffix : String} {schema : Schema}

/-! ### Component schemas -/

/-- The builder with a declaration for a component schema. -/
def withDeclaration (b : Builder) (name : String) (schema : Schema) : Builder :=
  { b with cache :=
    ⟨b.cache.entries ++ [(name, b.declaration ((b.typeNames.lookup name).getD name) schema)]⟩ }

/-- What is not in the cache yet is made and put behind what there is. -/
theorem getOrMake_of_not_contains {α : Type} {c : Cache α} (h : c.contains name = false)
    (make : Unit → α) : (c.getOrMake name make).2 = ⟨c.entries ++ [(name, make ())]⟩ := by
  unfold Cache.getOrMake
  split
  · rename_i a ha
    simp [Cache.contains, ha] at h
  · rfl

/-- A schema that is declared already is left alone; not even a note is taken. -/
theorem run_declareSchema_of_contains (h : b.cache.contains name = true) :
    (declareSchema name schema).run b = (b, pure ()) := by
  show Work.run (Work.state >>= fun b => _) b = _
  rw [run_bind_ok (run_state b), if_pos h]
  rfl

/-- A schema is declared already, or its type is written and it is declared, or that fails and
nothing happens. -/
theorem declareSchema_cases (b : Builder) (name : String) (schema : Schema) :
    b.cache.contains name = true ∧ (declareSchema name schema).Gives b () b ∨
    b.cache.contains name = false ∧
        (noteType (some b.typeNames) (some name) schema).outcome = .ok () ∧
        (declareSchema name schema).Gives b () (b.withDeclaration name schema) ∨
    b.cache.contains name = false ∧ ∃ f,
        (noteType (some b.typeNames) (some name) schema).outcome = .error f ∧
        (declareSchema name schema).Fails b f ∧ ((declareSchema name schema).run b).1 = b := by
  cases h : b.cache.contains name with
  | true =>
    refine .inl ⟨rfl, ?_⟩
    rw [Gives, run_declareSchema_of_contains h]
    exact ⟨rfl, rfl⟩
  | false =>
    -- Nothing is put into the cache before the type has been written.
    unfold declareSchema
    cases hnote : (noteType (some b.typeNames) (some name) schema).outcome with
    | ok u =>
      refine .inr (.inl ⟨rfl, rfl, ?_⟩)
      simp [gives_bind_iff, h, hnote, withDeclaration, getOrMake_of_not_contains h]
    | error f =>
      refine .inr (.inr ⟨rfl, f, rfl, ?_, ?_⟩)
      · simp [fails_bind_iff, h, hnote]
      · simp [fst_run_bind, h, hnote]

/-- A declaration adds the name that it is for to those that are declared, and no other. -/
theorem contains_withDeclaration_iff : (b.withDeclaration name schema).cache.contains n = true ↔
    b.cache.contains n = true ∨ n = name := by
  simp only [Cache.contains, List.lookup_isSome_iff, withDeclaration, List.mem_append,
    List.mem_singleton, beq_iff_eq, or_and_right, exists_or, exists_eq_left]

/-- Afterwards the schema is declared, whether it was before or not. -/
theorem gives_declareSchema {u : Unit} (hg : (declareSchema name schema).Gives b u b') :
    b'.cache.contains name = true := by
  rcases declareSchema_cases b name schema with ⟨hc, h⟩ | ⟨-, -, h⟩ | ⟨-, f, -, hfails, -⟩
  · rwa [← (h.unique hg).2]
  · rw [← (h.unique hg).2]
    exact contains_withDeclaration_iff.mpr (.inr rfl)
  · cases hfails.symm.trans hg.1

/-! ### Records -/

/-- The name that a record of an endpoint would be given. -/
def recordName (b : Builder) (e : Endpoint) (suffix : String) : String :=
  b.registry.free (Name.toTypeIdentifier
    (Name.typeName e.path ++ Text.capitalize (Text.lower e.method) ++ suffix))

/-- The builder with a name taken. -/
def withName (b : Builder) (n : String) : Builder :=
  { b with registry := ⟨n :: b.registry.taken⟩ }

/-- The builder with a declaration of a record. -/
def withRecord (b : Builder) (n : String) (schema : Schema) : Builder :=
  { b.withName n with hoisted := b.hoisted ++ [b.declaration n schema] }

/-- Hoisting takes a name whatever happens, and declares the record under it unless the record
cannot be written. These are all the states that it can leave, failures included. -/
theorem hoist_state (b : Builder) (e : Endpoint) (schema : Schema) (suffix : String) :
    ((hoist e schema suffix).run b).1 = b.withName (b.recordName e suffix) ∨
      ((hoist e schema suffix).run b).1 = b.withRecord (b.recordName e suffix) schema := by
  unfold hoist
  rw [fst_run_bind]
  simp only [run_state, Logged.outcome_pure, Name.Registry.claim]
  rw [fst_run_bind]
  simp only [run_change, Logged.outcome_pure]
  -- The name is taken before the record is written, so it stays taken if that fails.
  rw [fst_run_bind, run_ofLogged]
  split
  · exact .inr rfl
  · exact .inl rfl

/-- Hoisting gives the name that it takes, and succeeds exactly if the record can be written. -/
theorem gives_hoist_iff : (hoist e schema suffix).Gives b n b' ↔
    (noteType (some b.typeNames) (some n) schema).outcome = .ok () ∧
      n = b.recordName e suffix ∧ b' = b.withRecord n schema := by
  unfold hoist
  simp only [gives_bind_iff, gives_state_iff, gives_change_iff, gives_ofLogged_iff,
    gives_pure_iff, Name.Registry.claim]
  constructor
  · rintro ⟨_, _, ⟨rfl, rfl⟩, _, _, rfl, _, _, ⟨hnote, rfl⟩, _, _, rfl, rfl, rfl⟩
    exact ⟨hnote, rfl, rfl⟩
  · rintro ⟨hnote, rfl, rfl⟩
    exact ⟨_, _, ⟨rfl, rfl⟩, (), _, rfl, (), _, ⟨hnote, rfl⟩, (), _, rfl, rfl, rfl⟩

/-- The type of a record is the name of a declaration. -/
theorem gives_schemaType_record (hs : schema.isRecord = true)
    (hg : (schemaType e (some schema) suffix).Gives b n b') :
    ∃ d ∈ b'.hoisted, d.name = n := by
  simp only [schemaType, hs, ↓reduceIte, gives_hoist_iff] at hg
  obtain ⟨-, -, rfl⟩ := hg
  exact ⟨b.declaration n schema, by simp [withRecord], rfl⟩

/-! ### What every piece of work does -/

/-- The document and the names of its schemas are as before, and declarations are at most
added. -/
structure Extends (b b' : Builder) : Prop where
  document : b'.document = b.document
  typeNames : b'.typeNames = b.typeNames
  cache : b.cache.entries <+: b'.cache.entries
  hoisted : b.hoisted <+: b'.hoisted

/-- Doing nothing leaves everything as it was. -/
theorem Extends.refl (b : Builder) : b.Extends b := ⟨rfl, rfl, List.prefix_rfl, List.prefix_rfl⟩

/-- Pieces of work in a row extend the builder that the first one began with. -/
theorem Extends.trans {b'' : Builder} (h : b.Extends b') (h' : b'.Extends b'') :
    b.Extends b'' where
  document := h'.document.trans h.document
  typeNames := h'.typeNames.trans h.typeNames
  cache := h.cache.trans h'.cache
  hoisted := h.hoisted.trans h'.hoisted

/-- What a record is for: the body of an endpoint or its result. -/
def recordSuffixes : List String := ["Body", "Response"]

/-- A property of builders that adding a name keeps, and the declaration of a record under it. -/
structure RecordStable (P : Builder → Prop) : Prop where
  name : ∀ b e, ∀ suffix ∈ recordSuffixes, P b → P (b.withName (b.recordName e suffix))
  record : ∀ b e, ∀ suffix ∈ recordSuffixes, ∀ schema, P b →
    P (b.withRecord (b.recordName e suffix) schema)

/-- A property of builders that adding a declaration for a schema keeps as well. -/
structure Stable (P : Builder → Prop) : Prop extends RecordStable P where
  declaration : ∀ b name schema, b.cache.contains name = false → P b →
    P (b.withDeclaration name schema)

/-- Extending a given builder is stable, so every piece of work extends the builder that it began
with. -/
theorem stable_extends (b : Builder) : Stable b.Extends where
  declaration _ _ _ _ h := h.trans ⟨rfl, rfl, List.prefix_append _ _, List.prefix_rfl⟩
  name _ _ _ _ h := h.trans ⟨rfl, rfl, List.prefix_rfl, List.prefix_rfl⟩
  record _ _ _ _ _ h := h.trans ⟨rfl, rfl, List.prefix_rfl, List.prefix_append _ _⟩

/-- A property is kept by declaring a schema if it is by the declaration itself. That one is made
only for a name without a declaration and a schema that can be written, which the property may rely
on. -/
theorem keeps_declareSchema {P : Builder → Prop}
    (h : ∀ b, b.cache.contains name = false →
      (noteType (some b.typeNames) (some name) schema).outcome = .ok () → P b →
      P (b.withDeclaration name schema)) : (declareSchema name schema).Keeps P := by
  intro b hb
  rcases declareSchema_cases b name schema with ⟨-, -, he⟩ | ⟨hc, hnote, -, he⟩ | ⟨-, f, -, -, he⟩
  · rwa [he]
  · rw [he]
    exact h b hc hnote hb
  · rwa [he]

/-- A property is kept by declaring schemas in a row if it is by the declaration of each of them. -/
theorem keeps_declareEach {P : Builder → Prop} {schemas : List (String × Schema)}
    (h : ∀ s ∈ schemas, ∀ b, b.cache.contains s.1 = false →
      (noteType (some b.typeNames) (some s.1) s.2).outcome = .ok () → P b →
      P (b.withDeclaration s.1 s.2)) : (declareEach schemas).Keeps P := by
  induction schemas with
  | nil => exact keeps_pure ()
  | cons s rest ih =>
    obtain ⟨hs, hrest⟩ := List.forall_mem_cons.mp h
    exact (keeps_declareSchema hs).bind fun _ => ih hrest

/-- A property is kept by declaring everything if it is by every new declaration. -/
theorem keeps_declareAll {P : Builder → Prop}
    (h : ∀ b name schema, b.cache.contains name = false → P b →
      P (b.withDeclaration name schema)) : declareAll.Keeps P :=
  keeps_state_bind fun b hb => keeps_declareEach (fun s _ b hc _ => h b s.1 s.2 hc) b hb

/-- Listing the types changes the builder only as declaring everything does. -/
theorem keeps_typesContext {P : Builder → Prop} (h : declareAll.Keeps P) : typesContext.Keeps P :=
  h.bind fun _ => keeps_state_bind fun b hb => keeps_pure _ b hb

section RecordStable

variable {P : Builder → Prop} (hP : RecordStable P)

include hP

/-- What names and records keep, hoisting keeps; by `hoist_state` there is nothing else that it
could do. -/
theorem RecordStable.hoist (e : Endpoint) (schema : Schema) (hs : suffix ∈ recordSuffixes) :
    (hoist e schema suffix).Keeps P := by
  intro b hb
  rcases hoist_state b e schema suffix with he | he
  · rw [he]
    exact hP.name b e suffix hs hb
  · rw [he]
    exact hP.record b e suffix hs schema hb

/-- Writing a type keeps it as well, since only records are hoisted. -/
theorem RecordStable.schemaType (e : Endpoint) (schema : Option Schema)
    (hs : suffix ∈ recordSuffixes) : (schemaType e schema suffix).Keeps P := by
  cases schema with
  | none => exact keeps_pure _
  | some schema =>
    -- The type of anything but a record is written in place, which changes nothing.
    cases hr : schema.isRecord with
    | true =>
      simp only [Builder.schemaType, hr, ↓reduceIte]
      exact hP.hoist e schema hs
    | false =>
      simp only [Builder.schemaType, hr, Bool.false_eq_true, ↓reduceIte]
      exact keeps_state_bind fun b hb => keeps_ofLogged _ b hb

end RecordStable

section Stable

variable {P : Builder → Prop} (hP : Stable P)

include hP

/-- What new declarations keep, declaring a schema keeps. -/
theorem Stable.declareSchema (name : String) (schema : Schema) :
    (declareSchema name schema).Keeps P :=
  keeps_declareSchema fun b hc _ => hP.declaration b name schema hc

/-- What new declarations keep, declaring schemas in a row keeps. -/
theorem Stable.declareEach (schemas : List (String × Schema)) : (declareEach schemas).Keeps P :=
  keeps_declareEach fun s _ b hc _ => hP.declaration b s.1 s.2 hc

/-- What new declarations keep, declaring everything keeps. -/
theorem Stable.declareAll : Builder.declareAll.Keeps P := keeps_declareAll hP.declaration

/-- What new declarations keep, listing the types keeps. -/
theorem Stable.typesContext : Builder.typesContext.Keeps P := keeps_typesContext hP.declareAll

end Stable

/-! ### All component schemas -/

/-- What is declared stays declared where declarations are added. -/
theorem contains_of_prefix {α : Type} {c c' : Cache α} (h : c.entries <+: c'.entries)
    (hc : c.contains name = true) : c'.contains name = true := by
  obtain ⟨added, he⟩ := h
  simp only [Cache.contains, ← he, List.lookup_append] at hc ⊢
  cases hl : c.entries.lookup name with
  | none => simp [hl] at hc
  | some a => rfl

/-- After schemas have been declared in a row, each of them is declared. The later ones do not undo
the earlier ones, as they only extend the builder. -/
theorem gives_declareEach {u : Unit} {schemas : List (String × Schema)}
    (hg : (declareEach schemas).Gives b u b') :
    ∀ s ∈ schemas, b'.cache.contains s.1 = true := by
  induction schemas generalizing b with
  | nil => exact fun s hs => nomatch hs
  | cons s rest ih =>
    -- The schema is declared in `c`, and the rest starts from there.
    obtain ⟨_, c, hs, hrest⟩ := gives_bind_iff.mp hg
    refine List.forall_mem_cons.mpr ⟨?_, ih hrest⟩
    have hext := hrest.keeps ((stable_extends c).declareEach rest) (Extends.refl c)
    exact contains_of_prefix hext.cache (gives_declareSchema hs)

/-- Every schema of the document is declared. -/
def Complete (b : Builder) : Prop := ∀ s ∈ b.document.schemas, b.cache.contains s.1 = true

/-- After everything has been declared without a failure, the builder is complete. -/
theorem gives_declareAll {u : Unit} (hg : declareAll.Gives b u b') : b'.Complete := by
  have hext := hg.keeps (stable_extends b).declareAll (Extends.refl b)
  obtain ⟨_, _, hs, hg⟩ := gives_bind_iff.mp hg
  obtain ⟨rfl, rfl⟩ := gives_state_iff.mp hs
  intro s hs
  -- The schemas asked for are those of the document at the start, which is the one at the end.
  rw [hext.document] at hs
  exact gives_declareEach hg s hs

/-- Schemas that are declared already are left alone, all of them. -/
theorem run_declareEach {schemas : List (String × Schema)}
    (h : ∀ s ∈ schemas, b.cache.contains s.1 = true) :
    (declareEach schemas).run b = (b, pure ()) := by
  induction schemas with
  | nil => rfl
  | cons s rest ih =>
    obtain ⟨hs, hrest⟩ := List.forall_mem_cons.mp h
    show Work.run (declareSchema s.1 s.2 >>= fun _ => declareEach rest) b = _
    rw [run_bind_ok (run_declareSchema_of_contains hs), ih hrest]
    rfl

/-- Where every schema is declared there is nothing left to declare. -/
theorem run_declareAll (h : b.Complete) : declareAll.run b = (b, pure ()) := by
  show Work.run (Work.state >>= fun b => declareEach b.document.schemas) b = _
  rw [run_bind_ok (run_state b), run_declareEach h]
  rfl

/-- A complete builder stays complete, as the document does not change and no declaration is
lost. -/
theorem Complete.of_extends (h : b.Complete) (hext : b.Extends b') : b'.Complete := by
  intro s hs
  rw [hext.document] at hs
  exact contains_of_prefix hext.cache (h s hs)

/-- Where every schema is declared the declarations are listed as they stand. -/
theorem gives_typesContext (h : b.Complete) : typesContext.Gives b
    ⟨b.document.title, b.document.version, b.declarations⟩ b := by
  refine gives_bind_iff.mpr ⟨(), b, ?_, ?_⟩
  · rw [Gives, run_declareAll h]
    exact ⟨rfl, rfl⟩
  · exact gives_bind_iff.mpr ⟨b, b, gives_state_iff.mpr ⟨rfl, rfl⟩, gives_pure_iff.mpr ⟨rfl, rfl⟩⟩

end TypedClient.Builder
