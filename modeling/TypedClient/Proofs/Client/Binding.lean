import TypedClient.Proofs.Client.Capture
import TypedClient.Proofs.Schema.Template

/-!
# `TypedClient.Proofs.Client.Binding`: what references are bound to

The declarations and the methods of a client have types that are written for schemas, and a
reference in a schema is written as a name. A reference to a component schema is written as the name
of its declaration, and no other declaration has this name. A reference to no component schema is
noted, and it is written as a type identifier without a look at what is declared: it is bound to
whatever has this name.

* `Schema.WrittenAs`: the type of a schema, with a name for each reference.
* `Builder.Emits`: a method has types that are written for the schemas of its endpoint.
* `Builder.Bound`, `Builder.Unbound`: references to component schemas, and other ones.
* `Builder.references_bound`: what the references of a client are bound to.
* `Builder.references_misbound`: references that are bound to something else than they say.
-/

set_option autoImplicit false

namespace TypedClient

open Work
open Name (toTypeIdentifier isIdentifier endsInDigit)

/-- The type is written for the schema at a depth, with a name in the place of each reference. -/
structure Schema.WrittenAs (schema : Schema) (names : TypeNames) (depth : Int) (type : String) :
    Prop where
  references : (schema.pieces depth).filterMap TypePiece.pointer? = schema.pointers
  written : type = TypePiece.written (some names) (schema.pieces depth)

/-- The type of a schema is written for it, piece by piece and with its references in their
order. -/
theorem Schema.writtenAs_typeText (schema : Schema) (names : TypeNames) (depth : Int) :
    schema.WrittenAs names depth (typeText (some names) schema depth) :=
  ⟨pointers_pieces schema depth, typeText_eq_written (some names) schema depth⟩

namespace Builder

variable {d : Document} {b b' b'' : Builder} {e : Endpoint} {m : Method} {names : TypeNames}
  {declarations : List Declaration} {schema : Schema} {pointer : String}

/-! ### Methods -/

/-- The type of a body or a result is written for its schema: a record is declared, and its type is
the name of the declaration. -/
inductive Typed (names : TypeNames) (declarations : List Declaration) (schema : Schema) :
    (type : String) → Prop
  | record {declaration : Declaration} (hr : schema.isRecord = true)
      (hmem : declaration ∈ declarations) (hbody : schema.WrittenAs names 0 declaration.body) :
      Typed names declarations schema declaration.name
  | inline {type : String} (hr : schema.isRecord = false) (htype : schema.WrittenAs names 1 type) :
      Typed names declarations schema type

/-- The arguments, the body and the result of a method have types that are written for schemas of
its endpoint. -/
structure Emits (names : TypeNames) (declarations : List Declaration) (e : Endpoint) (m : Method) :
    Prop where
  arguments : ∀ a ∈ e.arguments names, a.parameter.schema.WrittenAs names 1 a.type
  body : ∃ bodyType, m.signature = (e.signatureWith names bodyType).text ∧
    ∀ schema, e.bodySchema = some schema → Typed names declarations schema bodyType
  result : ∀ schema, e.successSchema = .ok (some schema) →
    Typed names declarations schema m.returnType

/-- The type that a builder gives a schema is written for it, in place or in the declaration of the
record that it names. -/
theorem typed_of_gives_schemaType {suffix type : String}
    (hg : (schemaType e (some schema) suffix).Gives b type b') (hlater : b'.Extends b'') :
    Typed b.typeNames b''.declarations schema type := by
  cases hr : schema.isRecord with
  | true =>
    simp only [schemaType, hr, ↓reduceIte, gives_hoist_iff] at hg
    obtain ⟨-, -, rfl⟩ := hg
    -- The record is the last one that was declared then, and no record is taken back.
    have hmem : b.declaration type schema ∈ b''.hoisted :=
      hlater.hoisted.subset (by simp [withRecord])
    exact .record hr (List.mem_append_right _ hmem) (schema.writtenAs_typeText b.typeNames 0)
  | false =>
    simp only [schemaType, hr, Bool.false_eq_true, ↓reduceIte, gives_bind_iff, gives_state_iff,
      gives_ofLogged_iff] at hg
    obtain ⟨_, _, ⟨rfl, rfl⟩, hresolved, -⟩ := hg
    obtain ⟨-, rfl⟩ := outcome_resolvedType_eq_ok_iff.mp hresolved
    exact .inline hr (schema.writtenAs_typeText b.typeNames 1)

/-- A declaration stays, so the method may be looked at from any later builder. -/
theorem emits_of_gives_method {name : String} (hm : (method e name).Gives b m b')
    (hlater : b'.Extends b'') : Emits b.typeNames b''.declarations e m := by
  obtain ⟨-, body, b₁, success, result, hbody, hsuccess, hresult, rfl⟩ := gives_method_iff.mp hm
  have hfirst : b.Extends b₁ :=
    hbody.keeps ((stable_extends b).toRecordStable.bodyType e) (Extends.refl b)
  have hnext : b₁.Extends b' :=
    hresult.keeps ((stable_extends b₁).schemaType e success (by decide)) (Extends.refl b₁)
  refine ⟨fun a ha => ?_, ⟨body, rfl, fun schema hs => ?_⟩, fun schema hs => ?_⟩
  · rw [(stands_nameArguments _ _ _ a ha).type]
    exact a.parameter.schema.writtenAs_typeText b.typeNames 1
  · obtain ⟨n, hn⟩ := takenNames_of_bodySchema hs
    simp only [bodyType, hn, hs] at hbody
    exact typed_of_gives_schemaType hbody (hnext.trans hlater)
  · rw [hsuccess] at hs
    cases hs
    -- The result is looked at by a later builder, which knows the same names.
    rw [← hfirst.typeNames]
    exact typed_of_gives_schemaType hresult hlater

/-! ### References to component schemas -/

/-- A reference to a component schema is written as the name of its declaration. -/
structure Bound (d : Document) (declarations : List Declaration) : Prop where
  component : ∀ s ∈ d.schemas, ∃ declaration ∈ declarations,
    (ofDocument d).typeNames.lookup s.1 = some declaration.name ∧
    s.2.WrittenAs (ofDocument d).typeNames 0 declaration.body ∧
    ∀ pointer, Schema.pointerName pointer = s.1 → s.1 ≠ "" →
      referenceType (some (ofDocument d).typeNames) pointer = declaration.name
  /-- References to different component schemas are written as different names. -/
  apart : ∀ s ∈ d.schemas, ∀ s' ∈ d.schemas, s.1 ≠ "" → s'.1 ≠ "" → ∀ pointer pointer',
    Schema.pointerName pointer = s.1 → Schema.pointerName pointer' = s'.1 →
      referenceType (some (ofDocument d).typeNames) pointer
        = referenceType (some (ofDocument d).typeNames) pointer' → s = s'
  /-- No other declaration has the name of one, and no file of the client declares it. -/
  names : (builtinNames ++ declarations.map Declaration.name).Nodup

/-- A reference to a schema that has a name is written as that name, unless the reference is
empty. -/
theorem referenceType_of_lookup {declared : String}
    (hlookup : names.lookup (Schema.pointerName pointer) = some declared)
    (hne : Schema.pointerName pointer ≠ "") : referenceType (some names) pointer = declared := by
  simp [referenceType, hne, hlookup]

/-- The names of component schemas are told apart. -/
theorem lookup_typeNames_inj {name name' declared : String}
    (h : (ofDocument d).typeNames.lookup name = some declared)
    (h' : (ofDocument d).typeNames.lookup name' = some declared) : name = name' := by
  have hnodup : ((ofDocument d).typeNames.map Prod.snd).Nodup := by
    have hall := (List.nodup_append.mp (distinct_ofDocument d).nodup).2.1
    exact (List.nodup_append.mp hall).1
  have hsame := List.inj_on_of_nodup_map hnodup (Assoc.mem_of_lookup h) (Assoc.mem_of_lookup h') rfl
  exact congrArg Prod.fst hsame

/-- The references to component schemas of a client that was made are bound to their
declarations. -/
theorem bound_of_gives {es : List Endpoint} {httpClientImport typesImport : String}
    {made : ClientContext × TypesContext}
    (hg : (contexts es httpClientImport typesImport).Gives (ofDocument d) made b) :
    Bound d made.2.declarations := by
  have hordered := ordered_of_gives_contexts hg
  have hdistinct := stable_distinct.of_gives_clientContext
    (gives_contexts_iff_declarations.mp hg).1 (distinct_ofDocument d)
  -- Names are given before anything is declared, so it does not matter when a type was written.
  have hname : ∀ s ∈ d.schemas, ∃ declared,
      (ofDocument d).typeNames.lookup s.1 = some declared ∧ ∀ pointer,
        Schema.pointerName pointer = s.1 → s.1 ≠ "" →
          referenceType (some (ofDocument d).typeNames) pointer = declared := by
    intro s hs
    obtain ⟨declared, hdeclared⟩ := exists_name_of_mem (List.mem_map_of_mem hs)
    refine ⟨declared, hdeclared, fun pointer hp hne => ?_⟩
    exact referenceType_of_lookup (hp ▸ hdeclared) (hp ▸ hne)
  refine ⟨fun s hs => ?_, ?_, ?_⟩
  · obtain ⟨declared, hdeclared, hpointer⟩ := hname s hs
    have hcomponent : component d s.1
        = (ofDocument d).declaration declared s.2 := by
      simp [component, hdeclared, lookup_of_mem hs]
    refine ⟨component d s.1, ?_, ?_⟩
    · rw [(gives_contexts_iff_declarations.mp hg).2]
      refine List.mem_append_left _ ?_
      rw [hordered.values]
      exact List.mem_map_of_mem (List.mem_eraseDups.mpr (List.mem_map_of_mem hs))
    · rw [hcomponent]
      exact ⟨hdeclared, s.2.writtenAs_typeText _ 0, hpointer⟩
  · intro s hs s' hs' hne hne' pointer pointer' hp hp' heq
    obtain ⟨declared, hdeclared, hpointer⟩ := hname s hs
    obtain ⟨declared', hdeclared', hpointer'⟩ := hname s' hs'
    rw [hpointer pointer hp hne, hpointer' pointer' hp' hne'] at heq
    subst heq
    exact List.inj_on_of_nodup_map d.nodup_names hs hs' (lookup_typeNames_inj hdeclared hdeclared')
  · exact ((declaredNames_perm hg).append_left builtinNames).nodup_iff.mpr hdistinct.nodup

/-! ### Other references -/

/-- A reference to no component schema is written as a type that is made of it alone. -/
structure Unbound (d : Document) (records declarations : List Declaration) (pointer type : String) :
    Prop where
  symbolic : type = toTypeIdentifier (Schema.pointerName pointer)
  /-- It is noted where a schema with the reference is resolved. -/
  noted : ∀ schema hint, schema.Writable → pointer ∈ schema.pointers → ∃ place,
    ⟨.warning, .schema, "Unresolved reference " ++ pointer ++ " in " ++ place⟩
      ∈ (noteType (some (ofDocument d).typeNames) hint schema).notes
  /-- Numbers aside, the type is declared if the name of a component schema makes the same
  identifier, or if a record has this name. -/
  captured : endsInDigit type = false → type ∉ builtinNames →
    (type ∈ declarations.map Declaration.name ↔
      (∃ s ∈ d.schemas, toTypeIdentifier s.1 = type) ∨ type ∈ records.map Declaration.name)
  /-- If the reference says an identifier, then it is bound to no component schema but one that is
  declared under another name than its own. -/
  renamed : isIdentifier (Schema.pointerName pointer) = true → ∀ s ∈ d.schemas,
    (ofDocument d).typeNames.lookup s.1 = some type → type ≠ s.1

/-- A reference dangles exactly if it says something and that is no component schema of the
document. -/
theorem dangling_iff : Dangling (ofDocument d).typeNames pointer ↔
    Schema.pointerName pointer ≠ "" ∧ Schema.pointerName pointer ∉ d.schemas.map Prod.fst := by
  have hkeys : (ofDocument d).typeNames.map Prod.fst = d.schemas.map Prod.fst := fst_claimAll _ _
  rw [Dangling, ← hkeys, ← Option.not_isSome_iff_eq_none, List.lookup_isSome_iff]
  simp

/-- What passes for an identifier is left as it is. -/
theorem toTypeIdentifier_of_isIdentifier {s : String} (h : isIdentifier s = true) :
    toTypeIdentifier s = s := by
  rw [toTypeIdentifier, if_pos h]

/-- A reference that dangles is written as an identifier of its own making. What is declared under
this name is then a matter of spelling. -/
theorem unbound_of_gives {es : List Endpoint} {httpClientImport typesImport : String}
    {made : ClientContext × TypesContext}
    (hg : (contexts es httpClientImport typesImport).Gives (ofDocument d) made b)
    (hp : Dangling (ofDocument d).typeNames pointer) :
    Unbound d b.hoisted made.2.declarations pointer
      (referenceType (some (ofDocument d).typeNames) pointer) := by
  have hsymbolic : referenceType (some (ofDocument d).typeNames) pointer
      = toTypeIdentifier (Schema.pointerName pointer) := by
    simp [referenceType, hp.1, hp.2]
  refine ⟨hsymbolic, fun schema hint hw hmem => ?_, fun hdigit hbuiltin => ?_,
    fun hidentifier s hs _ heq => ?_⟩
  · exact mem_notes_noteType hp schema hint (outcome_noteType_eq_ok_iff.mpr hw) hmem
  · rw [(declaredNames_perm hg).mem_iff, typeSpace, List.mem_append,
      (ordered_of_gives_contexts hg).typeNames, mem_typeNames_iff d hdigit hbuiltin]
  · -- An identifier is left as it is, so it would be the name of the schema that it says.
    rw [hsymbolic, toTypeIdentifier_of_isIdentifier hidentifier] at heq
    exact (dangling_iff.mp hp).2 (heq ▸ List.mem_map_of_mem hs)

/-- The types of a client are written for the schemas of its document, with a name for each
reference. A reference to a component schema is the name of that schema's declaration, which nothing
else has. One to no component schema is a type identifier of its own making, and only by having the
same name is it bound to anything; an empty one is no type in particular. -/
theorem references_bound (d : Document) (es : List Endpoint) (httpClientImport typesImport : String)
    (made : ClientContext × TypesContext) (b : Builder)
    (hg : (contexts es httpClientImport typesImport).Gives (ofDocument d) made b) :
    Bound d made.2.declarations ∧
    List.Forall₂ (Emits (ofDocument d).typeNames made.2.declarations) es made.1.methods ∧
    (b.hoisted <:+ made.2.declarations ∧ ∀ record ∈ b.hoisted, Marked record.name) ∧
    ∀ pointer,
      (Schema.pointerName pointer = "" →
        referenceType (some (ofDocument d).typeNames) pointer = unknownType) ∧
      (Schema.pointerName pointer ≠ "" → Schema.pointerName pointer ∉ d.schemas.map Prod.fst →
        Unbound d b.hoisted made.2.declarations pointer
          (referenceType (some (ofDocument d).typeNames) pointer)) := by
  obtain ⟨hclient, htypes⟩ := gives_contexts_iff_declarations.mp hg
  obtain ⟨b₁, hall, hms, -⟩ := gives_clientContext hclient
  have hstart : (ofDocument d).Extends b₁ :=
    hall.keeps (stable_extends _).declareAll (Extends.refl _)
  refine ⟨bound_of_gives hg, ?_, ⟨?_, marked_of_gives_contexts hg⟩, fun pointer => ⟨?_, ?_⟩⟩
  · refine forall₂_of_zip_methodNames ((gives_methods hms).imp ?_)
    rintro p m ⟨b₂, b₃, h₂, hm, h₃⟩
    have hemits := emits_of_gives_method hm h₃
    rwa [h₂.typeNames, hstart.typeNames, show b.declarations = made.2.declarations by
      rw [htypes]] at hemits
  · rw [htypes]
    exact List.suffix_append _ _
  · exact fun hempty => by simp [referenceType, hempty]
  · exact fun hne hmem => unbound_of_gives hg (dangling_iff.mpr ⟨hne, hmem⟩)

/-- Owners have a pet each, whose schema is renamed, and something that there is no schema of. -/
def ownersDocument : Document :=
  { petsDocument with
    schemas := [("pet-model", petSchema),
      ("Owner", .record (.cons "pet" (.reference "#/components/schemas/pet-model" "")
        (.cons "house" (.reference "#/components/schemas/House" "") .nil)) [] "")],
    nodup_names := by decide }

/-- An endpoint that returns owners. -/
def ownersEndpoint : Endpoint :=
  { petsEndpoint with responses := [("200", ⟨"", [("application/json",
      .array (.reference "#/components/schemas/Owner" "") "")]⟩)] }

/-- The renamed schema is referred to by its new name, inside a record and inside an array, and the
missing one by the name that the reference spells. -/
theorem references_bound_owners :
    ∃ made b, (contexts [ownersEndpoint] "./http-client" "./types").Gives
        (ofDocument ownersDocument) made b ∧
      made.2.declarations.map (fun d => (d.name, d.body))
        = [("PetModel", "\x7b\n  name?: any;\n\x7d"),
          ("Owner", "\x7b\n  pet?: PetModel;\n  house?: House;\n\x7d")] ∧
      made.1.methods.map Method.returnType = ["Array<Owner>"] ∧
      Bound ownersDocument made.2.declarations ∧
      List.Forall₂ (Emits (ofDocument ownersDocument).typeNames made.2.declarations)
        [ownersEndpoint] made.1.methods ∧
      Unbound ownersDocument b.hoisted made.2.declarations "#/components/schemas/House"
        "House" := by
  have hrun : ((contexts [ownersEndpoint] "./http-client" "./types").run
      (ofDocument ownersDocument)).2.outcome.map (fun made =>
        (made.2.declarations.map (fun d => (d.name, d.body)), made.1.methods.map Method.returnType))
      = .ok ([("PetModel", "\x7b\n  name?: any;\n\x7d"),
          ("Owner", "\x7b\n  pet?: PetModel;\n  house?: House;\n\x7d")], ["Array<Owner>"]) := by
    decide +kernel
  obtain ⟨made, b, hg, hmade⟩ := exists_gives_of_map hrun
  obtain ⟨hdeclarations, htypes⟩ := Prod.mk.inj hmade
  obtain ⟨hbound, hemits, -, hpointers⟩ := references_bound ownersDocument [ownersEndpoint]
    "./http-client" "./types" made b hg
  refine ⟨made, b, hg, hdeclarations, htypes, hbound, hemits, ?_⟩
  exact (hpointers "#/components/schemas/House").2 (by decide +kernel) (by decide +kernel)

/-- A schema without a name, one that is renamed, and references to three names of the client for
which there are no schemas. -/
def misboundDocument : Document :=
  { petsDocument with
    schemas := [("user-model", petSchema), ("", .unknown ""),
      ("Owner", .record (.cons "user" (.reference "#/components/schemas/UserModel" "")
        (.cons "pets" (.reference "#/components/schemas/PetsGetResponse" "")
        (.cons "client" (.reference "#/components/schemas/HttpClient" "")
        (.cons "nothing" (.reference "" "") .nil)))) [] "")],
    nodup_names := by decide }

/-- The three references are written as the names of a component schema, of a record and of the
transport, and the reference to the schema without a name is not written as its name. -/
theorem references_misbound :
    ∃ made b, (contexts [petsEndpoint] "./http-client" "./types").Gives
        (ofDocument misboundDocument) made b ∧
      made.2.declarations.map (fun d => (d.name, d.body))
        = [("UserModel", "\x7b\n  name?: any;\n\x7d"), ("_", "any"),
          ("Owner", "\x7b\n  user?: UserModel;\n  pets?: PetsGetResponse;\n  " ++
            "client?: HttpClient;\n  nothing?: any;\n\x7d"),
          ("PetsGetResponse", "\x7b\n  name?: any;\n\x7d")] ∧
      (∀ pointer ∈ ["#/components/schemas/UserModel", "#/components/schemas/PetsGetResponse",
          "#/components/schemas/HttpClient"],
        Schema.pointerName pointer ∉ misboundDocument.schemas.map Prod.fst ∧
          referenceType (some (ofDocument misboundDocument).typeNames) pointer
            ∈ builtinNames ++ made.2.declarations.map Declaration.name) ∧
      Schema.pointerName "" ∈ misboundDocument.schemas.map Prod.fst ∧
      (ofDocument misboundDocument).typeNames.lookup (Schema.pointerName "") = some "_" ∧
      referenceType (some (ofDocument misboundDocument).typeNames) "" = "any" := by
  have hrun : ((contexts [petsEndpoint] "./http-client" "./types").run
      (ofDocument misboundDocument)).2.outcome.map
        (fun made => made.2.declarations.map (fun d => (d.name, d.body)))
      = .ok [("UserModel", "\x7b\n  name?: any;\n\x7d"), ("_", "any"),
          ("Owner", "\x7b\n  user?: UserModel;\n  pets?: PetsGetResponse;\n  " ++
            "client?: HttpClient;\n  nothing?: any;\n\x7d"),
          ("PetsGetResponse", "\x7b\n  name?: any;\n\x7d")] := by
    decide +kernel
  obtain ⟨made, b, hg, hdeclarations⟩ := exists_gives_of_map hrun
  refine ⟨made, b, hg, hdeclarations, ?_, by decide, by decide +kernel, by decide +kernel⟩
  have hnames : made.2.declarations.map Declaration.name
      = ["UserModel", "_", "Owner", "PetsGetResponse"] := by
    have hfirst := congrArg (List.map Prod.fst) hdeclarations
    rw [List.map_map] at hfirst
    exact hfirst
  rw [hnames]
  decide +kernel

end Builder

end TypedClient
