import TypedClient.Proofs.Assoc
import TypedClient.Proofs.Client.Signature
import TypedClient.Proofs.Client.TypeNames

/-!
# `TypedClient.Proofs.Client.Identifiers`: the names that a client declares

Methods, arguments and types are named by identifiers made of texts of the document, with a
number where a name is taken. The numbers are harmless, and so is everything that is put in front
of a name or after it, so what a name is depends on the texts alone: it is an identifier, unless
one of them passes for an identifier by what stands before its final line feed.

* `Builder.Named`: what the names of declarations are made of. Declaring keeps it.
* `Builder.ProperNames`: which names of a client are identifiers.
* `Builder.identifiers_proper_iff`: the identifiers made of a text, and the names of every client.
-/

set_option autoImplicit false

namespace TypedClient

open Work
open Name (Proper EndsLine reserved toIdentifier toTypeIdentifier)

namespace Builder

variable {b b' : Builder} {d : Document} {es : List Endpoint}

/-! ### Types -/

/-- Names are handed out for the schemas in their order, one for each. -/
theorem fst_claimAll (names : List String) :
    ∀ r : Name.Registry, (claimAll r names).1.map Prod.fst = names := by
  induction names with
  | nil => exact fun _ => rfl
  | cons name rest ih =>
    intro r
    rw [claimAll_cons, List.map_cons, ih]

/-- The name that a schema is given is an identifier exactly if the text of the schema does not end
its line. A number behind it makes no difference. -/
theorem proper_claimAll_iff (names : List String) :
    ∀ r : Name.Registry, ∀ p ∈ (claimAll r names).1, Proper p.2 ↔ ¬ EndsLine p.1 := by
  induction names with
  | nil => exact fun _ => List.forall_mem_nil _
  | cons name rest ih =>
    intro r
    rw [claimAll_cons]
    -- The registry plays no part, so the names behind are covered for any registry.
    refine List.forall_mem_cons.mpr ⟨?_, ih _⟩
    rw [Name.proper_free_iff, Name.proper_toTypeIdentifier_iff]

/-- What a record is for stands at the end of its name, so its name ends in no line feed. -/
theorem proper_recordName (b : Builder) (e : Endpoint) {suffix : String}
    (h : suffix ∈ recordSuffixes) : Proper (b.recordName e suffix) := by
  have hlast : ∀ s ∈ recordSuffixes, ∀ cs : List Char,
      (cs ++ s.toList).getLast? ≠ some '\n' := by
    simp [recordSuffixes]
  rw [recordName, Name.proper_free_iff, Name.proper_toTypeIdentifier_iff]
  intro hline
  have := hline.2
  rw [String.toList_append] at this
  exact hlast suffix h _ this

/-- Component schemas are declared under the names that they have from the start, and records
under identifiers. -/
structure Named (d : Document) (b : Builder) : Prop where
  document : b.document = d
  typeNames : b.typeNames = (ofDocument d).typeNames
  cache : ∀ declaration ∈ b.cache.values,
    ∃ p ∈ (ofDocument d).typeNames, p.2 = declaration.name
  hoisted : ∀ declaration ∈ b.hoisted, Proper declaration.name

/-- A new builder has no declarations that could be named otherwise. -/
theorem named_ofDocument (d : Document) : Named d (ofDocument d) :=
  ⟨rfl, rfl, List.forall_mem_nil _, List.forall_mem_nil _⟩

/-- A declaration for a schema of the document is made under the name that the schema was given. -/
theorem Named.withDeclaration {s : String × Schema} (h : Named d b) (hs : s ∈ d.schemas) :
    Named d (b.withDeclaration s.1 s.2) := by
  refine ⟨h.document, h.typeNames, ?_, h.hoisted⟩
  -- Every schema of the document has a name.
  have hmem : s.1 ∈ (ofDocument d).typeNames.map Prod.fst := by
    show s.1 ∈ (claimAll ⟨builtinNames⟩ (d.schemas.map Prod.fst)).1.map Prod.fst
    rw [fst_claimAll]
    exact List.mem_map_of_mem hs
  obtain ⟨n, hn⟩ : ∃ n, (ofDocument d).typeNames.lookup s.1 = some n := by
    obtain ⟨p, hp, hkey⟩ := List.mem_map.mp hmem
    exact Option.isSome_iff_exists.mp (List.lookup_isSome_iff.mpr ⟨p, hp, by simp [hkey]⟩)
  -- The declaration is the last one of the schemas, under the name that was looked up.
  have hvalues : (b.withDeclaration s.1 s.2).cache.values
      = b.cache.values ++ [b.declaration n s.2] := by
    simp [Cache.values, Builder.withDeclaration, h.typeNames, hn]
  rw [hvalues, List.forall_mem_append, List.forall_mem_singleton]
  exact ⟨h.cache, (s.1, n), Assoc.mem_of_lookup hn, rfl⟩

/-- Declaring everything keeps the names, since what is declared are the schemas of the document. -/
theorem keeps_named_declareAll (d : Document) : declareAll.Keeps (Named d) :=
  keeps_state_bind fun b hb => by
    rw [hb.document]
    exact keeps_declareEach (fun s hs b _ _ h => h.withDeclaration hs) b hb

/-- Hoisting a record keeps the names: its own is an identifier by `proper_recordName`. -/
theorem recordStable_named (d : Document) : RecordStable (Named d) where
  name _ _ _ _ h := ⟨h.document, h.typeNames, h.cache, h.hoisted⟩
  record b e suffix hs schema h := by
    refine ⟨h.document, h.typeNames, h.cache, ?_⟩
    exact List.forall_mem_append.mpr
      ⟨h.hoisted, List.forall_mem_singleton.mpr (b.proper_recordName e hs)⟩

/-! ### Methods and their arguments -/

/-- The name of an argument is an identifier unless its parameter's name ends its line, and it is
never a reserved word, with or without a number. -/
theorem proper_argument_iff {a : Argument} {names : TypeNames} (h : a.Stands names) :
    (Proper a.name ↔ ¬ EndsLine a.parameter.name) ∧ a.name ∉ reserved := by
  rw [← Name.proper_toIdentifier_iff]
  rcases h.name with he | ⟨k, he⟩
  · rw [he]
    exact ⟨Iff.rfl, Name.toIdentifier_not_mem_reserved _⟩
  · rw [he]
    exact ⟨Name.proper_numbered_iff k,
      Name.numbered_not_mem_reserved (Name.toIdentifier a.parameter.name) k⟩

/-- The names that are taken for methods once those of endpoints are made. -/
def namedBefore (es : List Endpoint) : Name.Registry :=
  Name.takenAfter ⟨[]⟩ (es.map Endpoint.toRoute)

/-- The method at a place has the name that is chosen for its endpoint after the names before it.
The names behind it play no part. -/
theorem exists_name_of_append {before after : List Endpoint} {e : Endpoint} {ms : List Method}
    (h : ms.map Method.name = methodNames (before ++ e :: after)) :
    ∃ m, ms[before.length]? = some m ∧
      m.name = (namedBefore before).free (Name.candidate (namedBefore before) e.toRoute) := by
  obtain ⟨rest, hnames⟩ := Name.uniqueNames_append_cons (before.map Endpoint.toRoute)
    (after.map Endpoint.toRoute) e.toRoute
  rw [methodNames, List.map_append, List.map_cons, hnames] at h
  -- As many names were chosen before as there are endpoints before.
  have hlength : (Name.uniqueNames (before.map Endpoint.toRoute)).length = before.length := by
    rw [Name.length_uniqueNames, List.length_map]
  have hat := congrArg (·[before.length]?) h
  simp only [List.getElem?_map] at hat
  rw [← hlength, List.getElem?_append_right (Nat.le_refl _), Nat.sub_self, List.getElem?_cons_zero,
    hlength, Option.map_eq_some_iff] at hat
  exact hat

/-- Which names of a client are identifiers. -/
structure ProperNames (d : Document) (es : List Endpoint) (made : ClientContext × TypesContext) :
    Prop where
  /-- A method is named by its own endpoint and those before it. -/
  methods : ∀ before e after, es = before ++ e :: after →
    ∃ m, made.1.methods[before.length]? = some m ∧ m.name ∉ reserved ∧
      (Proper m.name ↔ ∀ s ∈ Name.sources (namedBefore before) e.toRoute, ¬ EndsLine s)
  arguments : List.Forall₂ (fun e m => ∃ body,
      m.signature = (e.signatureWith (ofDocument d).typeNames body).text ∧
      (∀ n ∈ e.takenNames.2, Proper n ∧ n ∉ reserved) ∧
      ∀ a ∈ e.arguments (ofDocument d).typeNames,
        (Proper a.name ↔ ¬ EndsLine a.parameter.name) ∧ a.name ∉ reserved) es made.1.methods
  /-- The names of component schemas are identifiers unless their texts are to blame, and those
  of records always are. -/
  declarations : ∀ declaration ∈ made.2.declarations, Proper declaration.name ↔
    ∀ p ∈ (ofDocument d).typeNames, p.2 = declaration.name → ¬ EndsLine p.1

/-- The names of a client that was made are proper as far as the texts let them: methods by the
names before them, arguments by their parameters, and declarations by `Named`. -/
theorem properNames_of_gives {httpClientImport typesImport : String}
    {made : ClientContext × TypesContext}
    (hg : (contexts es httpClientImport typesImport).Gives (ofDocument d) made b) :
    ProperNames d es made := by
  obtain ⟨b₂, hclient, htypes⟩ := gives_contexts_iff.mp hg
  obtain ⟨b₁, hall, hms, -⟩ := gives_clientContext hclient
  have hnamed₁ : Named d b₁ := hall.keeps (keeps_named_declareAll d) (named_ofDocument d)
  have hnamed : Named d b₂ := hms.keeps ((recordStable_named d).methods _) hnamed₁
  have hdeclarations : made.2.declarations = b₂.declarations := by
    obtain ⟨hmade, -⟩ := gives_typesContext (complete_of_gives_clientContext hclient)
    rw [Except.ok.inj (htypes.1.symm.trans hmade)]
  refine ⟨?_, ?_, ?_⟩
  · -- Methods: named in the order of the endpoints, by what is taken at their turn.
    rintro before e after rfl
    obtain ⟨m, hm, hname⟩ := exists_name_of_append (name_of_gives_methods hms)
    refine ⟨m, hm, ?_, ?_⟩
    · rw [hname]
      exact Name.free_not_mem_reserved _ (Name.candidate_not_mem_reserved _ _)
    · rw [hname, Name.proper_name_iff]
  · -- Arguments: each stands for a parameter, but for the body, whose name is fixed.
    refine forall₂_of_zip_methodNames ((methodWith_of_gives_methods hms).imp ?_)
    rintro p m ⟨body, result, rfl⟩
    rw [hnamed₁.typeNames]
    refine ⟨body, rfl, fun n hn => ?_, fun a ha =>
      proper_argument_iff (stands_nameArguments _ _ _ a ha)⟩
    rw [Endpoint.eq_body_of_takenNames hn]
    exact ⟨Name.proper_of_isIdentifier (by decide) (by decide), by decide⟩
  · rw [hdeclarations]
    intro declaration hmem
    have hiff := proper_claimAll_iff (d.schemas.map Prod.fst) ⟨builtinNames⟩
    constructor
    · intro h p hp he
      exact (hiff p hp).mp (he ▸ h)
    · intro h
      -- Only component schemas can have a line feed at the end of their names.
      rcases List.mem_append.mp hmem with hcache | hrecord
      · obtain ⟨p, hp, he⟩ := hnamed.cache declaration hcache
        exact he ▸ (hiff p hp).mpr (h p hp he)
      · exact hnamed.hoisted declaration hrecord

/-- The identifiers made of a text are proper ones, also with a number after them, unless the text
passes for an identifier by what stands before its final line feed; a value never gets the name of
a reserved word. So the names of a client are identifiers as far as the texts that they are made
of let them. -/
theorem identifiers_proper_iff (s : String) (r : Name.Registry) (d : Document)
    (es : List Endpoint) (httpClientImport typesImport : String) :
    (∀ name ∈ [toIdentifier s, toTypeIdentifier s, (r.claim (toIdentifier s)).1,
      (r.claim (toTypeIdentifier s)).1], Proper name ↔ ¬ EndsLine s) ∧
    (∀ name ∈ [toIdentifier s, (r.claim (toIdentifier s)).1], name ∉ reserved) ∧
    ∀ made b, (contexts es httpClientImport typesImport).Gives (ofDocument d) made b →
      ProperNames d es made := by
  refine ⟨?_, ?_, fun made b hg => properNames_of_gives hg⟩
  · simp [Name.Registry.claim, Name.proper_free_iff, Name.proper_toIdentifier_iff,
      Name.proper_toTypeIdentifier_iff]
  · simp [Name.Registry.claim, Name.toIdentifier_not_mem_reserved, Name.free_not_mem_reserved]

/-- A name that is taken, and two schemas and a record that ask for one name. -/
theorem identifiers_of_pets :
    Proper ((⟨["pets"]⟩ : Name.Registry).claim (toIdentifier "pets")).1 ∧
    ∃ made b, (contexts [petsEndpoint] "./http-client" "./types").Gives (ofDocument petsDocument)
        made b ∧ ProperNames petsDocument [petsEndpoint] made ∧
      made.2.declarations.map Declaration.name
        = ["PetsGetResponse", "PetsGetResponse2", "PetsGetResponse3"] := by
  have hrun : ((contexts [petsEndpoint] "./http-client" "./types").run
        (ofDocument petsDocument)).2.outcome.map
          (fun made => made.2.declarations.map Declaration.name)
      = .ok ["PetsGetResponse", "PetsGetResponse2", "PetsGetResponse3"] := by
    decide +kernel
  obtain ⟨made, b, hg, hnames⟩ := exists_gives_of_map hrun
  obtain ⟨hproper, -, hclient⟩ := identifiers_proper_iff "pets" ⟨["pets"]⟩ petsDocument
    [petsEndpoint] "./http-client" "./types"
  exact ⟨(hproper _ (by simp)).mpr (by decide), made, b, hg, hclient made b hg, hnames⟩

/-- A line feed after an identifier stays, with or without a number behind it. -/
theorem line_feed_kept :
    toIdentifier "abc\n" = "abc\n" ∧ ¬ Proper (toIdentifier "abc\n") ∧
      toTypeIdentifier "Abc\n" = "Abc\n" ∧ ¬ Proper (toTypeIdentifier "Abc\n") ∧
      ((⟨["abc\n"]⟩ : Name.Registry).claim (toIdentifier "abc\n")).1 = "abc\n2" := by
  have hlower : EndsLine "abc\n" := by decide
  have hupper : EndsLine "Abc\n" := by decide
  rw [hlower.toIdentifier_eq, hupper.toTypeIdentifier_eq]
  exact ⟨rfl, hlower.not_proper, rfl, hupper.not_proper, by decide +kernel⟩

end Builder

end TypedClient
