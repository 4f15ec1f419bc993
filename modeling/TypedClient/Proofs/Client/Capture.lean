import TypedClient.Proofs.Client.Order
import TypedClient.Proofs.Name.Spelling

/-!
# `TypedClient.Proofs.Client.Capture`: names that TypeScript has given already

Types and signatures are written with names that TypeScript declares, such as `string` and `Array`.
A declaration of such a name takes the name over in the files that hold or import it. The registry
keeps the names of the client's own files only, so a component schema that asks for such a name
gets it, numbers aside. No record does, because its name says at its end what the record is for.

* `nativeNames`: the names that are written without being declared.
* `Builder.marked_of_gives_contexts`: records have names that tell what they are for.
* `Builder.captured_iff`: which schemas do, and `Builder.native_names_declared`: that some do.
-/

set_option autoImplicit false

namespace TypedClient

open Work
open Name (Spells toTypeIdentifier)

/-- The names that types and signatures are written with and that no file of a client declares. -/
def nativeNames : List String :=
  ["string", "number", "boolean", "any", "null", "true", "false", "Array", "Record", "Promise"]

/-- The names that types are written with are words, so that it can be said which texts are spelled
like them. -/
theorem isWord_of_mem_nativeNames {w : String} (hw : w ∈ nativeNames) : Name.isWord w = true := by
  have hall : nativeNames.all Name.isWord = true := by decide
  exact List.all_eq_true.mp hall w hw

namespace Builder

variable {d : Document} {b : Builder} {w : String}

/-! ### Component schemas -/

/-- The names of schemas are those that a registry hands out for the identifiers of their texts. -/
theorem snd_claimAll (names : List String) : ∀ r : Name.Registry,
    (claimAll r names).1.map Prod.snd = r.handedOut (names.map toTypeIdentifier) := by
  induction names with
  | nil => exact fun _ => rfl
  | cons name rest ih =>
    intro r
    rw [claimAll_cons, List.map_cons, ih]
    rfl

/-- A component schema gets a name without a number if it asks for it. -/
theorem mem_typeNames_iff (d : Document) (hw : Name.endsInDigit w = false)
    (hbuiltin : w ∉ builtinNames) :
    w ∈ (ofDocument d).typeNames.map Prod.snd ↔ ∃ s ∈ d.schemas, toTypeIdentifier s.1 = w := by
  have hnames : (ofDocument d).typeNames.map Prod.snd
      = (⟨builtinNames⟩ : Name.Registry).handedOut
        ((d.schemas.map Prod.fst).map toTypeIdentifier) := snd_claimAll _ _
  rw [hnames, Name.Registry.mem_handedOut_iff hw _ ⟨builtinNames⟩ hbuiltin]
  simp

/-! ### Records -/

/-- What a record is for stands at the end of the name, unless a number does. -/
def Marked (name : String) : Prop :=
  Name.endsInDigit name = true ∨ ∃ suffix ∈ recordSuffixes, suffix.toList <:+ name.toList

/-- The name of a record ends in what it is for, or in a number if that was taken. -/
theorem marked_recordName (b : Builder) (e : Endpoint) {suffix : String}
    (hs : suffix ∈ recordSuffixes) : Marked (b.recordName e suffix) := by
  cases hdigit : Name.endsInDigit (b.recordName e suffix) with
  | true => exact .inl hdigit
  | false =>
    obtain ⟨hname, -⟩ := (Name.Registry.free_eq_iff hdigit).mp
      (show b.registry.free _ = b.recordName e suffix from rfl)
    -- Without a number it is the identifier of a text with the suffix at its end.
    have hsuffixes : recordSuffixes.all (fun s => s.toList.all Name.isIdentifierChar &&
        (Text.capitalizeChars s.toList == s.toList) && s != "") = true := by
      decide +kernel
    have hsuffix := List.all_eq_true.mp hsuffixes suffix hs
    simp only [Bool.and_eq_true, List.all_eq_true, beq_iff_eq, bne_iff_ne] at hsuffix
    obtain ⟨⟨hchars, hcapital⟩, hne⟩ := hsuffix
    have hends := Name.toTypeIdentifier_append
      (Name.typeName e.path ++ Text.capitalize (Text.lower e.method)) hchars hcapital hne
    exact .inr ⟨suffix, hs, hname ▸ hends⟩

/-- Every piece of work keeps records marked, as every new one is. -/
theorem stable_marked : Stable fun b => ∀ record ∈ b.hoisted, Marked record.name where
  declaration _ _ _ _ h := h
  name _ _ _ _ h := h
  record b e _ hs _ h := List.forall_mem_append.mpr
    ⟨h, List.forall_mem_singleton.mpr (b.marked_recordName e hs)⟩

/-- All records of a client that was made are marked. -/
theorem marked_of_gives_contexts {es : List Endpoint} {httpClientImport typesImport : String}
    {made : ClientContext × TypesContext}
    (hg : (contexts es httpClientImport typesImport).Gives (ofDocument d) made b) :
    ∀ record ∈ b.hoisted, Marked record.name :=
  stable_marked.of_gives_clientContext (gives_contexts_iff_declarations.mp hg).1
    (List.forall_mem_nil _)

/-- The names that types are written with are not marked: they end in letters, and in neither of the
words that records end in. -/
theorem not_marked_of_mem_nativeNames (hw : w ∈ nativeNames) : ¬ Marked w := by
  rintro (hdigit | ⟨suffix, hs, hends⟩)
  · rw [Name.endsInDigit_of_isWord (isWord_of_mem_nativeNames hw)] at hdigit
    cases hdigit
  · have hall : ∀ w ∈ nativeNames, ∀ suffix ∈ recordSuffixes, ¬ suffix.toList <:+ w.toList := by
      decide +kernel
    exact hall w hw suffix hs hends

/-! ### Declared names -/

/-- A name that TypeScript has given is declared, and imported by the client, exactly if a component
schema is spelled like it. Records never have such a name. -/
theorem captured_iff (d : Document) (es : List Endpoint) (httpClientImport typesImport : String)
    (made : ClientContext × TypesContext) (b : Builder)
    (hg : (contexts es httpClientImport typesImport).Gives (ofDocument d) made b) :
    (∀ w ∈ nativeNames,
      (w ∈ made.2.declarations.map Declaration.name ↔ ∃ s ∈ d.schemas, Spells s.1 w) ∧
      (w ∈ made.1.typeImports ↔ ∃ s ∈ d.schemas, Spells s.1 w)) ∧
    b.hoisted <:+ made.2.declarations ∧ ∀ record ∈ b.hoisted, record.name ∉ nativeNames := by
  obtain ⟨hclient, htypes⟩ := gives_contexts_iff_declarations.mp hg
  obtain ⟨-, -, -, -, -, -, himports⟩ := gives_clientContext hclient
  have hnative : ∀ record ∈ b.hoisted, record.name ∉ nativeNames := fun record hr hmem =>
    not_marked_of_mem_nativeNames hmem (marked_of_gives_contexts hg record hr)
  have hnames := (ordered_of_gives_contexts hg).typeNames
  have hdeclared : ∀ w ∈ nativeNames,
      (w ∈ made.2.declarations.map Declaration.name ↔ ∃ s ∈ d.schemas, Spells s.1 w) := by
    intro w hw
    have hword := isWord_of_mem_nativeNames hw
    have hbuiltin : ∀ w ∈ nativeNames, w ∉ builtinNames := by decide
    have hrecord : w ∉ b.hoisted.map Declaration.name := by
      intro h
      obtain ⟨record, hr, rfl⟩ := List.mem_map.mp h
      exact hnative record hr hw
    rw [(declaredNames_perm hg).mem_iff, typeSpace, List.mem_append, or_iff_left hrecord, hnames,
      mem_typeNames_iff d (Name.endsInDigit_of_isWord hword) (hbuiltin w hw)]
    simp only [Name.toTypeIdentifier_eq_iff hword]
  -- What is declared in the end is what the client imports.
  refine ⟨fun w hw => ⟨hdeclared w hw, ?_⟩, ?_, hnative⟩
  · rw [himports, ← hdeclared w hw, htypes]
    rfl
  · rw [htypes]
    exact List.suffix_append _ _

/-- Schemas that are named like types of TypeScript, one of them twice. -/
def nativeDocument : Document :=
  { petsDocument with
    schemas := [("Array", .unknown ""), ("array!", .unknown ""),
      ("string", .primitive (some "string") none none ""), ("Pet", petSchema)],
    nodup_names := by decide }

/-- Two of them get such a name, and the third would but for the first: it gets a number, which
makes it harmless. -/
theorem captured_native :
    ∃ made b, (contexts [petsEndpoint] "./http-client" "./types").Gives
        (ofDocument nativeDocument) made b ∧
      made.1.typeImports = ["Array", "Array2", "string", "Pet", "PetsGetResponse"] ∧
      (∃ s ∈ nativeDocument.schemas, Spells s.1 "Array") ∧
      ¬ (∃ s ∈ nativeDocument.schemas, Spells s.1 "Promise") ∧
      ∀ record ∈ b.hoisted, record.name ∉ nativeNames := by
  have hrun : ((contexts [petsEndpoint] "./http-client" "./types").run
      (ofDocument nativeDocument)).2.outcome.map (fun made => made.1.typeImports)
        = .ok ["Array", "Array2", "string", "Pet", "PetsGetResponse"] := by
    decide +kernel
  obtain ⟨made, b, hg, himports⟩ := exists_gives_of_map hrun
  obtain ⟨hiff, -, hrecords⟩ := captured_iff nativeDocument [petsEndpoint] "./http-client"
    "./types" made b hg
  refine ⟨made, b, hg, himports, ?_, ?_, hrecords⟩
  · exact (hiff "Array" (by decide)).2.mp (by rw [himports]; decide)
  · exact fun h => absurd ((hiff "Promise" (by decide)).2.mpr h) (by rw [himports]; decide)

/-- The types of a document declare two names of TypeScript. -/
theorem native_names_declared :
    ∃ made b, (contexts [petsEndpoint] "./http-client" "./types").Gives
        (ofDocument nativeDocument) made b ∧
      ∃ w ∈ nativeNames, w ∈ made.2.declarations.map Declaration.name := by
  have hrun : ((contexts [petsEndpoint] "./http-client" "./types").run
      (ofDocument nativeDocument)).2.outcome.map
        (fun made => made.2.declarations.map Declaration.name)
        = .ok ["Array", "Array2", "string", "Pet", "PetsGetResponse"] := by
    decide +kernel
  obtain ⟨made, b, hg, hnames⟩ := exists_gives_of_map hrun
  exact ⟨made, b, hg, "Array", by decide, by rw [hnames]; decide⟩

end Builder

end TypedClient
