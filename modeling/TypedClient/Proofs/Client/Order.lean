import TypedClient.Proofs.Client.Appending
import TypedClient.Proofs.Client.Arguments
import TypedClient.Proofs.Client.Contexts
import TypedClient.Proofs.Client.Identifiers
import TypedClient.Proofs.Schema.Record

/-!
# `TypedClient.Proofs.Client.Order`: declarations and the order of work

A builder declares component schemas and hoists records in whatever order it is called, and some
of the calls may fail on their way. What is declared does not depend on that: a component schema
has one declaration, which is made of the schema and of names that were given at the start, and the
records are those of the methods, in their order. Only the order of the component schemas tells
which of them was asked for first.

* `Builder.Ordered`: what the cache holds, given what was asked for. `Ordered.apply` is its step.
* `Builder.Alike`: builders that differ in their caches alone make the same records.
* `Builder.declarations_settled`: what is listed after any calls.
* `Builder.long_integer_undeclared`: an integer that is too long is in the way of listing anything.
-/

set_option autoImplicit false

namespace TypedClient

open Work

/-- The declaration is that of an interface exactly if it is a record in braces. -/
structure Declaration.Classified (declaration : Declaration) : Prop where
  opens : declaration.kind = .interface ↔ declaration.body.toList.head? = some '\x7b'
  reads : declaration.kind = .interface ↔ (RecordType.read declaration.body).isSome = true

namespace Builder

variable {d : Document} {b b' : Builder} {asked : List String} {name : String} {schema : Schema}

/-! ### Calls and what they ask for -/

/-- The component schemas that a call declares. -/
def Call.asks (d : Document) : Call → List String
  | declareSchema name => if (d.schemas.lookup name).isSome then [name] else []
  | declareAll | typesContext => d.schemas.map Prod.fst
  | method _ _ => []

/-- The names of the component schemas in the order in which they are declared: in that of the
first call for each of them, and what no call is for in the order of the document. -/
def declaredOrder (d : Document) (calls : List Call) : List String :=
  (calls.flatMap (Call.asks d) ++ d.schemas.map Prod.fst).eraseDups

/-- A call asks for component schemas of the document only; a name that no schema has is asked for
in vain. -/
theorem asks_subset (c : Call) : c.asks d ⊆ d.schemas.map Prod.fst := by
  cases c with
  | declareSchema name =>
    intro n hn
    simp only [Call.asks, List.lookup_isSome_iff] at hn
    split at hn
    · rename_i hsome
      obtain ⟨s, hs, heq⟩ := hsome
      rw [List.mem_singleton.mp hn, eq_of_beq heq]
      exact List.mem_map_of_mem hs
    · cases hn
  | declareAll | typesContext => exact List.Subset.refl _
  | method e name => exact List.nil_subset _

/-- Whatever the calls are, each component schema is in the order once, since listing the types asks
for the rest of them. -/
theorem declaredOrder_perm (d : Document) (calls : List Call) :
    (declaredOrder d calls).Perm (d.schemas.map Prod.fst) := by
  refine (List.perm_ext_iff_of_nodup (nodup_eraseDups _) d.nodup_names).mpr fun n => ?_
  rw [List.mem_eraseDups, List.mem_append]
  refine or_iff_right_of_imp fun hn => ?_
  obtain ⟨c, -, hc⟩ := List.mem_flatMap.mp hn
  exact asks_subset c hc

/-! ### What is declared -/

/-- The declaration of a component schema by a builder that has declared nothing yet. -/
def component (d : Document) (name : String) : Declaration :=
  (ofDocument d).declaration (((ofDocument d).typeNames.lookup name).getD name)
    ((d.schemas.lookup name).getD default)

/-- The component schemas are declared that were asked for, each once and in the order in which
they were asked for first. -/
structure Ordered (d : Document) (asked : List String) (b : Builder) : Prop where
  document : b.document = d
  typeNames : b.typeNames = (ofDocument d).typeNames
  entries : b.cache.entries = asked.eraseDups.map fun name => (name, component d name)

/-- A new builder has declared nothing, and nothing has been asked for. -/
theorem ordered_ofDocument (d : Document) : Ordered d [] (ofDocument d) := ⟨rfl, rfl, rfl⟩

/-- Records have declarations of their own and leave those of component schemas alone. -/
theorem recordStable_ordered (d : Document) (asked : List String) :
    RecordStable (Ordered d asked) where
  name _ _ _ _ h := ⟨h.document, h.typeNames, h.entries⟩
  record _ _ _ _ _ h := ⟨h.document, h.typeNames, h.entries⟩

/-- What has been declared is what has been asked for. -/
theorem Ordered.contains_iff (h : Ordered d asked b) :
    b.cache.contains name = true ↔ name ∈ asked := by
  rw [Cache.contains, List.lookup_isSome_iff, h.entries]
  simp

/-- The declarations stand in the order in which their schemas were asked for first. -/
theorem Ordered.values (h : Ordered d asked b) :
    b.cache.values = asked.eraseDups.map (component d) := by
  simp [Cache.values, h.entries]

/-- Declaring a schema adds it to those that were asked for, whether it is new or not. -/
theorem Ordered.declareSchema (h : Ordered d asked b) (hs : d.schemas.lookup name = some schema)
    (hw : schema.Writable) :
    ∃ b', (declareSchema name schema).Gives b () b' ∧ Ordered d (asked ++ [name]) b' := by
  -- Declared before, declared now, or refused, which a writable schema is not.
  rcases declareSchema_cases b name schema with ⟨hc, hg⟩ | ⟨hc, -, hg⟩ | ⟨-, f, hnote, -⟩
  · refine ⟨b, hg, h.document, h.typeNames, ?_⟩
    have hasked := h.contains_iff.mp hc
    -- Asking once more for what is declared changes neither side.
    rw [h.entries, List.eraseDups_append]
    simp [List.removeAll, hasked]
  · refine ⟨_, hg, h.document, h.typeNames, ?_⟩
    have hnew : name ∉ asked := fun hasked => by
      rw [h.contains_iff.mpr hasked] at hc
      cases hc
    have hcomponent : b.declaration ((b.typeNames.lookup name).getD name) schema
        = component d name := by
      simp [component, declaration, h.typeNames, hs]
    rw [List.eraseDups_append]
    simp [withDeclaration, h.entries, List.removeAll, hnew, hcomponent, List.eraseDups_cons]
  · cases (outcome_noteType_eq_ok_iff.mpr hw).symm.trans hnote

/-- Declaring schemas of the document in a row adds all of them to what was asked for, by induction
on the row. -/
theorem Ordered.declareEach {schemas : List (String × Schema)} (h : Ordered d asked b)
    (hs : ∀ s ∈ schemas, d.schemas.lookup s.1 = some s.2 ∧ s.2.Writable) :
    ∃ b', (declareEach schemas).Gives b () b' ∧
      Ordered d (asked ++ schemas.map Prod.fst) b' := by
  induction schemas generalizing b asked with
  | nil => exact ⟨b, gives_pure_iff.mpr ⟨rfl, rfl⟩, by simpa using h⟩
  | cons s rest ih =>
    obtain ⟨⟨hlookup, hw⟩, hrest⟩ := List.forall_mem_cons.mp hs
    obtain ⟨b₁, hg₁, h₁⟩ := h.declareSchema hlookup hw
    obtain ⟨b₂, hg₂, h₂⟩ := ih h₁ hrest
    refine ⟨b₂, gives_bind_iff.mpr ⟨(), b₁, hg₁, hg₂⟩, ?_⟩
    simpa using h₂

section Writable

variable (hw : ∀ s ∈ d.schemas, s.2.Writable)

/-- A schema is found under its name, since the document has no name twice. -/
theorem lookup_of_mem {s : String × Schema} (hs : s ∈ d.schemas) :
    d.schemas.lookup s.1 = some s.2 :=
  Assoc.lookup_eq_some_of_forall hs fun _ he hkey =>
    congrArg Prod.snd (List.inj_on_of_nodup_map d.nodup_names he hs hkey)

include hw

/-- Declaring everything asks for every component schema, in the order of the document. -/
theorem Ordered.declareAll (h : Ordered d asked b) :
    ∃ b', declareAll.Gives b () b' ∧ Ordered d (asked ++ d.schemas.map Prod.fst) b' := by
  obtain ⟨b', hg, h'⟩ := h.declareEach fun s hs => ⟨lookup_of_mem hs, hw s hs⟩
  refine ⟨b', gives_bind_iff.mpr ⟨b, b, gives_state_iff.mpr ⟨rfl, rfl⟩, ?_⟩, h'⟩
  rwa [h.document]

/-- Listing the types declares everything first and then lists what there is. -/
theorem Ordered.typesContext (h : Ordered d asked b) :
    ∃ b', typesContext.Gives b ⟨b'.document.title, b'.document.version, b'.declarations⟩ b' ∧
      Ordered d (asked ++ d.schemas.map Prod.fst) b' := by
  obtain ⟨b', hg, h'⟩ := h.declareAll hw
  refine ⟨b', gives_bind_iff.mpr ⟨(), b', hg, ?_⟩, h'⟩
  exact gives_bind_iff.mpr ⟨b', b', gives_state_iff.mpr ⟨rfl, rfl⟩, gives_pure_iff.mpr ⟨rfl, rfl⟩⟩

/-- A call declares what it asks for. -/
theorem Ordered.apply (h : Ordered d asked b) (c : Call) :
    Ordered d (asked ++ c.asks d) (c.apply b) := by
  cases c with
  | declareSchema name =>
    cases hs : d.schemas.lookup name with
    | none => simpa [Call.apply, Call.asks, h.document, hs] using h
    | some schema =>
      obtain ⟨b', hg, h'⟩ := h.declareSchema hs (hw _ (Assoc.mem_of_lookup hs))
      simpa [Call.apply, Call.asks, h.document, hs, hg.2] using h'
  | declareAll =>
    obtain ⟨b', hg, h'⟩ := h.declareAll hw
    simpa [Call.apply, Call.asks, hg.2] using h'
  | method e name =>
    simpa [Call.apply, Call.asks] using (recordStable_ordered d asked).method e name b h
  | typesContext =>
    obtain ⟨b', hg, h'⟩ := h.typesContext hw
    simpa [Call.apply, Call.asks, hg.2] using h'

/-- After any calls the builder has declared what they asked for. This is by induction on the calls,
with `Ordered.apply` as the step. -/
theorem Ordered.after (h : Ordered d asked b) (calls : List Call) :
    Ordered d (asked ++ calls.flatMap (Call.asks d)) (b.after calls) := by
  induction calls generalizing b asked with
  | nil => simpa [Builder.after] using h
  | cons c rest ih => simpa [Builder.after] using ih (h.apply hw c)

end Writable

/-! ### What cannot be declared -/

/-- A component schema with an integer that is too long is not declared. -/
structure Undeclared (d : Document) (name : String) (b : Builder) : Prop where
  document : b.document = d
  missing : b.cache.contains name = false

section Unwritable

variable (hs : (name, schema) ∈ d.schemas) (hw : ¬ schema.Writable)

include hs hw

/-- What is declared can be written, so it is another schema. -/
theorem Undeclared.withDeclaration (h : Undeclared d name b) {s : String × Schema}
    (hmem : s ∈ d.schemas) (hnote : (noteType (some b.typeNames) (some s.1) s.2).outcome = .ok ()) :
    Undeclared d name (b.withDeclaration s.1 s.2) where
  document := h.document
  missing := by
    rw [← Bool.not_eq_true, contains_withDeclaration_iff, not_or]
    refine ⟨by simp [h.missing], fun heq => hw ?_⟩
    have hsame : s = (name, schema) :=
      List.inj_on_of_nodup_map d.nodup_names hmem hs heq.symm
    rw [hsame] at hnote
    exact outcome_noteType_eq_ok_iff.mp hnote

/-- A schema that cannot be written stays undeclared where everything else is declared. -/
theorem keeps_undeclared_declareAll : declareAll.Keeps (Undeclared d name) :=
  keeps_state_bind fun b hb => by
    -- The schemas to be declared are those of the document, of which each declared one is another.
    rw [hb.document]
    exact keeps_declareEach (fun s hmem b _ hnote h => h.withDeclaration hs hw hmem hnote) b hb

/-- No call declares a schema that cannot be written, whether the call succeeds or not. -/
theorem Undeclared.apply (h : Undeclared d name b) (c : Call) :
    Undeclared d name (c.apply b) := by
  have hall := keeps_undeclared_declareAll hs hw
  cases c with
  | declareSchema n =>
    cases hl : b.document.schemas.lookup n with
    | none => simpa only [Call.apply, hl] using h
    | some schema' =>
      have hmem : (n, schema') ∈ d.schemas := h.document ▸ Assoc.mem_of_lookup hl
      simp only [Call.apply, hl]
      exact keeps_declareSchema
        (fun b _ hnote h => h.withDeclaration hs hw hmem hnote) b h
  | declareAll => exact hall b h
  | method e n => exact RecordStable.method ⟨fun _ _ _ _ h => ⟨h.document, h.missing⟩,
      fun _ _ _ _ _ h => ⟨h.document, h.missing⟩⟩ e n b h
  | typesContext => exact keeps_typesContext hall b h

/-- A schema that cannot be written is not declared by any calls. This is by induction on the
calls. -/
theorem Undeclared.after (h : Undeclared d name b) (calls : List Call) :
    Undeclared d name (b.after calls) := by
  induction calls generalizing b with
  | nil => exact h
  | cons c rest ih => exact ih (h.apply hs hw c)

/-- The component schemas are not all declared where one of them cannot be. -/
theorem Undeclared.not_gives_declareAll (h : Undeclared d name b) : ¬ declareAll.Gives b () b' := by
  intro hg
  have hkept := hg.keeps (keeps_undeclared_declareAll hs hw) h
  have hdeclared := gives_declareAll hg (name, schema) (hkept.document ▸ hs)
  rw [hkept.missing] at hdeclared
  cases hdeclared

end Unwritable

/-- Everything can be declared only if all schemas can be written, even after calls that failed on
one of them: what a failure leaves behind is never a declaration. -/
theorem writable_of_gives_declareAll {calls : List Call}
    (hg : declareAll.Gives ((ofDocument d).after calls) () b') : ∀ s ∈ d.schemas, s.2.Writable := by
  intro s hs
  by_contra hw
  have hnew : Undeclared d s.1 (ofDocument d) := ⟨rfl, rfl⟩
  exact (hnew.after hs hw calls).not_gives_declareAll hs hw hg

/-- Listing the types lists what is declared then, and leaves nothing to declare. -/
theorem of_gives_typesContext {types : TypesContext} (h : typesContext.Gives b types b') :
    declareAll.Gives b () b' ∧
      types = ⟨b'.document.title, b'.document.version, b'.declarations⟩ := by
  obtain ⟨_, b₁, hall, h⟩ := gives_bind_iff.mp h
  obtain ⟨_, _, hstate, h⟩ := gives_bind_iff.mp h
  obtain ⟨rfl, rfl⟩ := gives_state_iff.mp hstate
  obtain ⟨rfl, rfl⟩ := gives_pure_iff.mp h
  exact ⟨hall, rfl⟩

/-! ### Records -/

/-- The builders differ at most in the component schemas that they have declared. -/
structure Alike (b b' : Builder) : Prop where
  document : b.document = b'.document
  registry : b.registry = b'.registry
  typeNames : b.typeNames = b'.typeNames
  hoisted : b.hoisted = b'.hoisted

/-- A builder differs from itself in nothing. -/
theorem Alike.refl (b : Builder) : Alike b b := ⟨rfl, rfl, rfl, rfl⟩

/-- Hoisting a record does the same in builders that are alike: its name comes from the registry and
its declaration from the names of the component schemas, and the cache is not asked. -/
theorem respects_hoist (e : Endpoint) (schema : Schema) (suffix : String) :
    (hoist e schema suffix).Respects Alike := by
  refine respects_state_bind fun b b' h => ⟨by simp only [h.registry, h.typeNames], ?_⟩
  refine (respects_change fun _ _ h => ⟨h.document, rfl, h.typeNames, h.hoisted⟩).bind fun _ => ?_
  refine (respects_ofLogged _).bind fun _ => ?_
  refine (respects_change fun s t h => ?_).bind fun _ => respects_pure _
  refine ⟨h.document, h.registry, h.typeNames, ?_⟩
  simp only [h.hoisted, declaration, h.typeNames]

/-- A type is written alike by builders that are alike, hoisted or not. -/
theorem respects_schemaType (e : Endpoint) (schema : Option Schema) (suffix : String) :
    (schemaType e schema suffix).Respects Alike := by
  cases schema with
  | none => exact respects_pure _
  | some schema =>
    cases hr : schema.isRecord with
    | true =>
      simp only [schemaType, hr, ↓reduceIte]
      exact respects_hoist e schema suffix
    | false =>
      simp only [schemaType, hr, Bool.false_eq_true, ↓reduceIte]
      exact respects_state_bind fun _ _ h => ⟨by rw [h.typeNames], respects_ofLogged _⟩

/-- Methods that builders make are the same where the builders are alike, and so are the records
that are hoisted for them. -/
theorem respects_method (e : Endpoint) (name : String) : (method e name).Respects Alike := by
  rw [method_eq]
  refine respects_state_bind fun _ _ h => ⟨by simp only [h.typeNames], ?_⟩
  refine (respects_ofLogged _).bind fun _ => (respects_ofLogged _).bind fun _ => ?_
  have hbody : (bodyType e).Respects Alike := by
    unfold bodyType
    split
    · exact respects_pure _
    · exact respects_schemaType e e.bodySchema "Body"
  refine hbody.bind fun _ => (respects_ofLogged _).bind fun success => ?_
  exact (respects_schemaType e success "Response").bind fun _ => respects_pure _

/-- The call makes a method, which may hoist records. -/
def Call.isMethod : Call → Bool
  | method _ _ => true
  | declareSchema _ | declareAll | typesContext => false

/-- Any other call declares component schemas at most. -/
theorem alike_apply {c : Call} (hc : c.isMethod = false) (h : Alike b b') :
    Alike (c.apply b) b' := by
  have hdeclared : ∀ s : String × Schema, ∀ b, Alike b b' → Alike (b.withDeclaration s.1 s.2) b' :=
    fun _ _ h => ⟨h.document, h.registry, h.typeNames, h.hoisted⟩
  have hall : declareAll.Keeps (Alike · b') :=
    keeps_declareAll fun b name schema _ => hdeclared (name, schema) b
  cases c with
  | declareSchema name =>
    cases hl : b.document.schemas.lookup name with
    | none => simpa only [Call.apply, hl] using h
    | some schema =>
      simp only [Call.apply, hl]
      exact keeps_declareSchema (fun b _ _ => hdeclared (name, schema) b) b h
  | declareAll => exact hall b h
  | method e name => cases hc
  | typesContext => exact keeps_typesContext hall b h

/-- The records are those of the methods, whatever is declared between them. -/
theorem alike_after (h : Alike b b') (calls : List Call) :
    Alike (b.after calls) (b'.after (calls.filter Call.isMethod)) := by
  induction calls generalizing b b' with
  | nil => exact h
  | cons c rest ih =>
    -- A method is made by both builders, any other call by the first one only.
    cases hc : c.isMethod with
    | false =>
      rw [List.filter_cons_of_neg (by simp [hc])]
      exact ih (alike_apply hc h)
    | true =>
      rw [List.filter_cons_of_pos hc]
      cases c with
      | method e name => exact ih (respects_method e name b b' h).2
      | declareSchema | declareAll | typesContext => cases hc

/-! ### Kinds -/

/-- All declarations so far are classified, and so are those to come. -/
structure AllClassified (b : Builder) : Prop where
  names : RecordType.ProperNames b.typeNames
  declarations : ∀ declaration ∈ b.declarations, declaration.Classified

/-- What a builder declares is an interface exactly if it was made of a record, which its text shows
by its first brace and by being read as a record. -/
theorem classified_declaration (h : RecordType.ProperNames b.typeNames) (name : String)
    (schema : Schema) : (b.declaration name schema).Classified := by
  obtain ⟨hopens, hreads⟩ := RecordType.braced_typeText h schema 0
  have hkind : (b.declaration name schema).kind = .interface ↔ schema.isRecord = true := by
    cases hr : schema.isRecord <;> simp [declaration, hr]
  exact ⟨hkind.trans hopens.symm, hkind.trans hreads.symm⟩

/-- Declarations stay classified: whatever is added is one that a builder makes. -/
theorem stable_allClassified : Stable AllClassified where
  declaration b name schema _ h := by
    refine ⟨h.names, fun declaration hmem => ?_⟩
    simp only [declarations, Cache.values, withDeclaration, List.map_append, List.map_singleton,
      List.append_assoc, List.mem_append, List.mem_singleton] at hmem
    -- Component schemas stand before the records, so the new one is in the middle.
    rcases hmem with hcache | rfl | hrecord
    · exact h.declarations _ (List.mem_append_left _ hcache)
    · exact classified_declaration h.names _ schema
    · exact h.declarations _ (List.mem_append_right _ hrecord)
  name _ _ _ _ h := ⟨h.names, h.declarations⟩
  record b e suffix _ schema h := by
    refine ⟨h.names, fun declaration hmem => ?_⟩
    simp only [declarations, withRecord, withName, List.mem_append, List.mem_singleton] at hmem
    rcases hmem with hcache | hrecord | rfl
    · exact h.declarations _ (List.mem_append_left _ hcache)
    · exact h.declarations _ (List.mem_append_right _ hrecord)
    · exact classified_declaration h.names _ schema

/-- A new builder has nothing to classify, and its names are proper ones. -/
theorem allClassified_ofDocument (d : Document) : AllClassified (ofDocument d) where
  names := RecordType.properNames_ofDocument d
  declarations := List.forall_mem_nil _

/-! ### What is listed -/

/-- The declaration stands for the component schema of the name: it has the name that the schema
was given at the start, and the type that the schema is resolved to on its own. -/
structure Represents (d : Document) (name : String) (declaration : Declaration) : Prop where
  declared : (ofDocument d).typeNames.lookup name = some declaration.name
  body : ∃ schema, (name, schema) ∈ d.schemas ∧
    (resolvedType (some (ofDocument d).typeNames) (some name) schema 0).outcome
      = .ok declaration.body

/-- What is listed after calls. -/
structure Settled (d : Document) (calls : List Call) (types : TypesContext) : Prop where
  /-- The component schemas in their order, and then the records. -/
  listed : ∃ components, types.declarations = components ++ ((ofDocument d).after calls).hoisted ∧
    List.Forall₂ (Represents d) (declaredOrder d calls) components
  once : (declaredOrder d calls).Perm (d.schemas.map Prod.fst)
  /-- The records stand in the order in which they are hoisted. -/
  hoisted : ∀ earlier later, calls = earlier ++ later →
    ((ofDocument d).after earlier).hoisted <+: ((ofDocument d).after calls).hoisted
  /-- The records are those of the methods alone. -/
  methods : ((ofDocument d).after calls).hoisted
    = ((ofDocument d).after (calls.filter Call.isMethod)).hoisted
  classified : ∀ declaration ∈ types.declarations, declaration.Classified

/-- Every component schema is given a name at the start. -/
theorem exists_name_of_mem (hn : name ∈ d.schemas.map Prod.fst) :
    ∃ declared, (ofDocument d).typeNames.lookup name = some declared := by
  have hkeys : name ∈ (ofDocument d).typeNames.map Prod.fst := by
    rwa [show (ofDocument d).typeNames.map Prod.fst = d.schemas.map Prod.fst from
      fst_claimAll _ _]
  obtain ⟨p, hp, rfl⟩ := List.mem_map.mp hkeys
  exact Option.isSome_iff_exists.mp (List.lookup_isSome_iff.mpr ⟨p, hp, beq_self_eq_true _⟩)

/-- The declaration of a component stands for its schema: the name is the given one, and the body is
what the schema is resolved to by itself. -/
theorem represents_component (hw : ∀ s ∈ d.schemas, s.2.Writable)
    (hn : name ∈ d.schemas.map Prod.fst) :
    Represents d name (component d name) := by
  obtain ⟨declared, hdeclared⟩ := exists_name_of_mem hn
  obtain ⟨s, hs, rfl⟩ := List.mem_map.mp hn
  refine ⟨by simp [component, declaration, hdeclared], s.2, hs, ?_⟩
  -- The type can be resolved because the schema can be written.
  refine outcome_resolvedType_eq_ok_iff.mpr ⟨outcome_noteType_eq_ok_iff.mpr (hw s hs), ?_⟩
  simp [component, declaration, lookup_of_mem hs]

/-- Calls in a row are made one after the other. -/
theorem after_append (b : Builder) (calls more : List Call) :
    b.after (calls ++ more) = (b.after calls).after more :=
  List.foldl_append

/-- Calls never take back a declaration or change a name. -/
theorem extends_after (b : Builder) (calls : List Call) : b.Extends (b.after calls) :=
  (stable_extends b).after calls (Extends.refl b)

/-- Listing the types fails for an integer that is too long, and for nothing else. -/
theorem of_fails_typesContext {f : Failure} (h : typesContext.Fails b f) :
    f = .defect .integerTooLong := by
  rcases fails_bind_iff.mp h with h | ⟨_, _, -, h⟩
  · exact (of_fails_declareAll h).1
  · rcases fails_bind_iff.mp h with h | ⟨_, _, -, h⟩ <;> cases h

/-- The types that are listed are settled, part by part: the components by `Ordered`, the records by
`Alike` and the kinds by `AllClassified`. -/
theorem settled_of_gives (hw : ∀ s ∈ d.schemas, s.2.Writable) {calls : List Call}
    {types : TypesContext}
    (h : typesContext.Gives ((ofDocument d).after calls) types b') : Settled d calls types := by
  obtain ⟨hall, rfl⟩ := of_gives_typesContext h
  have hafter := (ordered_ofDocument d).after hw calls
  obtain ⟨b₁, hall₁, hordered⟩ := hafter.declareAll hw
  obtain rfl := (hall.unique hall₁).2
  -- Declaring component schemas leaves the records alone.
  have hrecords : Alike ((ofDocument d).after calls) b' :=
    hall.keeps (keeps_declareAll fun _ _ _ _ h => ⟨h.document, h.registry, h.typeNames, h.hoisted⟩)
      (Alike.refl _)
  have hperm := declaredOrder_perm d calls
  refine ⟨⟨_, by rw [hrecords.hoisted]; rfl, ?_⟩, hperm, ?_, ?_, ?_⟩
  · rw [hordered.values]
    refine List.forall₂_map_right_iff.mpr (List.forall₂_same.mpr fun n hn => ?_)
    exact represents_component hw (hperm.mem_iff.mp hn)
  · rintro earlier later rfl
    rw [after_append]
    exact (extends_after _ later).hoisted
  · exact (alike_after (Alike.refl _) calls).hoisted
  · exact (hall.keeps stable_allClassified.declareAll
      (stable_allClassified.after calls (allClassified_ofDocument d))).declarations

/-- A builder that has made the client has declared the component schemas in their order. -/
theorem ordered_of_gives_contexts {es : List Endpoint}
    {httpClientImport typesImport : String} {made : ClientContext × TypesContext}
    (hg : (contexts es httpClientImport typesImport).Gives (ofDocument d) made b) :
    Ordered d (d.schemas.map Prod.fst) b := by
  obtain ⟨b₁, hall, hms, -⟩ := gives_clientContext (gives_contexts_iff_declarations.mp hg).1
  have hw := writable_of_gives_declareAll (show declareAll.Gives ((ofDocument d).after []) () b₁
    from hall)
  obtain ⟨b₂, hall₂, hordered⟩ := (ordered_ofDocument d).declareAll hw
  obtain rfl := (hall.unique hall₂).2
  exact hms.keeps ((recordStable_ordered d _).methods _) hordered

/-- The types of a client declare the names that the builder has given, and no others. -/
theorem declaredNames_perm {es : List Endpoint}
    {httpClientImport typesImport : String} {made : ClientContext × TypesContext}
    (hg : (contexts es httpClientImport typesImport).Gives (ofDocument d) made b) :
    (made.2.declarations.map Declaration.name).Perm b.typeSpace := by
  have hordered := ordered_of_gives_contexts hg
  -- The name of a declaration is the one that the table has for its schema.
  have hnames : (d.schemas.map Prod.fst).map (fun n => (component d n).name)
      = (ofDocument d).typeNames.map Prod.snd := by
    have hkeys : (ofDocument d).typeNames.map Prod.fst = d.schemas.map Prod.fst := fst_claimAll _ _
    rw [← hkeys, List.map_map]
    refine List.map_congr_left fun p hp => ?_
    have hlookup : (ofDocument d).typeNames.lookup p.1 = some p.2 :=
      Assoc.lookup_eq_some_of_forall hp fun _ he hkey =>
        congrArg Prod.snd (List.inj_on_of_nodup_map (hkeys ▸ d.nodup_names) he hp hkey)
    simp [component, declaration, hlookup]
  have hvalues : (b.cache.values.map Declaration.name).Perm
      ((ofDocument d).typeNames.map Prod.snd) := by
    rw [hordered.values, List.map_map, ← hnames]
    exact (declaredOrder_perm d []).map _
  rw [(gives_contexts_iff_declarations.mp hg).2, declarations, List.map_append, typeSpace,
    hordered.typeNames]
  exact hvalues.append_right _

/-- What a builder lists does not depend on the order of its work. After any calls the types can be
listed exactly if no component schema has an integer that is too long. Then each component schema is
listed once, by the declaration that is made of it alone and in the order in which they were asked
for first, and after them the records of the methods; and everything is declared. -/
theorem declarations_settled (d : Document) (calls : List Call) :
    let b := (ofDocument d).after calls
    ((∃ types b', typesContext.Gives b types b') ↔ ∀ s ∈ d.schemas, s.2.Writable) ∧
    (∀ f, typesContext.Fails b f → f = .defect .integerTooLong) ∧
    ∀ types b', typesContext.Gives b types b' →
      Settled d calls types ∧ declareAll.run b' = (b', pure ()) := by
  intro b
  -- If the types could be listed once, every schema could be written.
  have hwritable : ∀ types b', typesContext.Gives b types b' → ∀ s ∈ d.schemas, s.2.Writable :=
    fun types b' hg => writable_of_gives_declareAll (of_gives_typesContext hg).1
  refine ⟨⟨fun ⟨types, b', hg⟩ => hwritable types b' hg, fun hw => ?_⟩,
    fun f => of_fails_typesContext, fun types b' hg => ⟨?_, ?_⟩⟩
  · obtain ⟨b', hg, -⟩ := ((ordered_ofDocument d).after hw calls).typesContext hw
    exact ⟨_, b', hg⟩
  · exact settled_of_gives (hwritable types b' hg) hg
  · exact run_declareAll (gives_declareAll (of_gives_typesContext hg).1)

/-- The second of two schemas is asked for first, and a method hoists a record before the types
are listed. -/
theorem declarations_settled_pets :
    let calls := [.declareSchema "Pets-Get-Response", .method petsEndpoint "list"]
    ∃ types b', typesContext.Gives ((ofDocument petsDocument).after calls) types b' ∧
      Settled petsDocument calls types ∧ declareAll.run b' = (b', pure ()) ∧
      types.declarations.map Declaration.name
        = ["PetsGetResponse2", "PetsGetResponse", "PetsGetResponse3"] := by
  intro calls
  have hrun : (typesContext.run ((ofDocument petsDocument).after calls)).2.outcome.map
      (fun types => types.declarations.map Declaration.name)
        = .ok ["PetsGetResponse2", "PetsGetResponse", "PetsGetResponse3"] := by
    decide +kernel
  obtain ⟨types, b', hg, hnames⟩ := exists_gives_of_map hrun
  obtain ⟨hsettled, hdone⟩ := (declarations_settled petsDocument calls).2.2 types b' hg
  exact ⟨types, b', hg, hsettled, hdone, hnames⟩

/-- A mapping whose one component schema is an enumeration of an integer that is too long to be
written. -/
def longEnumeration : Data where
  graph := ⟨#[
    .map [(.text "components", .node 1)],
    .map [(.text "schemas", .node 2)],
    .map [(.text "A", .node 3)],
    .map [(.text "enum", .node 4)],
    .list [.int integerLimit]]⟩
  root := .node 0

/-- The mapping is read as a document, but whatever its builder is called for, nothing can be
listed. -/
theorem long_integer_undeclared : ∃ d, Document.ofData longEnumeration = .ok d ∧
    d.schemas.map Prod.fst = ["A"] ∧
    ∀ calls types b', ¬ typesContext.Gives ((ofDocument d).after calls) types b' := by
  have hread : (Document.ofData longEnumeration).map Document.schemas
      = .ok [("A", .primitive none none (some [.int integerLimit]) "")] := by
    rfl
  cases hdocument : Document.ofData longEnumeration with
  | error f =>
    rw [hdocument] at hread
    cases hread
  | ok d =>
    rw [hdocument] at hread
    have hschemas := Except.ok.inj hread
    refine ⟨d, rfl, by rw [hschemas]; rfl, fun calls types b' => ?_⟩
    have hs : ("A", .primitive none none (some [.int integerLimit]) "") ∈ d.schemas := by
      rw [hschemas]
      exact List.mem_singleton_self _
    -- The integer is the first one that does not fit.
    have hw : ¬ (Schema.primitive none none (some [.int integerLimit]) "").Writable := by
      intro h
      have hfits := List.all_eq_true.mp h (.int integerLimit) (List.mem_singleton_self _)
      exact Nat.lt_irrefl _ (Value.fits_int_iff.mp hfits)
    exact fun hg =>
      hw (writable_of_gives_declareAll (of_gives_typesContext hg).1 _ hs)

end Builder

end TypedClient
