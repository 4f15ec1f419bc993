import TypedClient.Proofs.Client.TypeNames

/-!
# `TypedClient.Proofs.Client.Appending`: more endpoints after those there are

Names are handed out in the order of the endpoints, methods are made in that order, and making one
adds its records after those there are. So a client for more endpoints begins with the client for
the first of them: no name changes, and no declaration moves.

* `Builder.gives_clientContext_append`: what a builder does for the first endpoints it does for
  them alone.
* `Builder.Continues`: one client and its types begin with another one and its types.
* `Builder.appended_continues`: they do, if endpoints are appended.
-/

set_option autoImplicit false

namespace TypedClient

open Work

namespace Builder

variable {b b' : Builder} {xs ys : List Endpoint} {httpClientImport typesImport : String}

/-! ### Names and methods -/

/-- Names for more endpoints begin with the names for the first of them, since each name is chosen
from those before it. -/
theorem methodNames_append (xs ys : List Endpoint) :
    ∃ more, methodNames (xs ++ ys) = methodNames xs ++ more := by
  rw [methodNames, List.map_append, Name.uniqueNames_append]
  exact ⟨_, rfl⟩

/-- Component schemas are declared before any method is made. -/
theorem recordStable_cache (b : Builder) : RecordStable fun b' => b'.cache = b.cache where
  name _ _ _ _ h := h
  record _ _ _ _ _ h := h

/-- Making methods only adds declarations at the end: the component schemas stay where they are, and
hoisted records come after the ones there are. -/
theorem declarations_prefix_of_gives_methods {ps : List (Endpoint × String)} {ms : List Method}
    (hg : (methods ps).Gives b ms b') : b.declarations <+: b'.declarations := by
  have hcache : b'.cache = b.cache := hg.keeps ((recordStable_cache b).methods ps) rfl
  have hext : b.Extends b' := hg.keeps ((stable_extends b).methods ps) (Extends.refl b)
  rw [declarations, declarations, hcache]
  exact (List.prefix_append_right_inj _).mpr hext.hoisted

/-- The builder that makes the methods of all endpoints has made those of the first ones on its
way, and nothing else. -/
theorem gives_clientContext_append {c : ClientContext}
    (hg : (clientContext (xs ++ ys) httpClientImport typesImport).Gives b c b') :
    ∃ c₁ b₁, (clientContext xs httpClientImport typesImport).Gives b c₁ b₁ ∧
      c₁.methods <+: c.methods ∧ b₁.declarations <+: b'.declarations := by
  obtain ⟨b₀, ms, hall, hms, rfl⟩ := gives_clientContext_iff.mp hg
  obtain ⟨more, hnames⟩ := methodNames_append xs ys
  rw [hnames, List.zip_append (length_methodNames xs).symm] at hms
  -- The methods of the first endpoints are made first, by a builder that knows no others.
  obtain ⟨b₁, ms₁, ms₂, h₁, h₂, rfl⟩ := gives_methods_append_iff.mp hms
  exact ⟨_, b₁, gives_clientContext_iff.mpr ⟨b₀, ms₁, hall, h₁, rfl⟩, List.prefix_append _ _,
    declarations_prefix_of_gives_methods h₂⟩

/-! ### The client and its types -/

/-- The types are what the builder of the client has declared. All components were declared for the
client, so building the types has nothing left to do. -/
theorem gives_contexts_iff_declarations {es : List Endpoint}
    {made : ClientContext × TypesContext} :
    (contexts es httpClientImport typesImport).Gives b made b' ↔
      (clientContext es httpClientImport typesImport).Gives b made.1 b' ∧
        made.2 = ⟨b'.document.title, b'.document.version, b'.declarations⟩ := by
  rw [gives_contexts_iff]
  constructor
  · rintro ⟨b₁, hclient, htypes⟩
    -- Listing the types has one outcome, which is known.
    obtain ⟨heq, rfl⟩ := htypes.unique
      (gives_typesContext (complete_of_gives_clientContext hclient))
    exact ⟨hclient, heq⟩
  · rintro ⟨hclient, heq⟩
    exact ⟨b', hclient, heq ▸ gives_typesContext (complete_of_gives_clientContext hclient)⟩

/-- A client and its types begin with another one and its types. -/
structure Continues (short long : ClientContext × TypesContext) : Prop where
  methods : short.1.methods <+: long.1.methods
  typeImports : short.1.typeImports <+: long.1.typeImports
  declarations : short.2.declarations <+: long.2.declarations

/-- A client continues another one if its methods and declarations do; the names that it imports are
those of the declarations, so they follow. -/
theorem continues_of_clientContext {d : Document} {c c₁ : ClientContext} {b₁ : Builder}
    (hc : (clientContext (xs ++ ys) httpClientImport typesImport).Gives (ofDocument d) c b')
    (hc₁ : (clientContext xs httpClientImport typesImport).Gives (ofDocument d) c₁ b₁)
    (hmethods : c₁.methods <+: c.methods) (hdeclarations : b₁.declarations <+: b'.declarations) :
    Continues (c₁, ⟨b₁.document.title, b₁.document.version, b₁.declarations⟩)
      (c, ⟨b'.document.title, b'.document.version, b'.declarations⟩) := by
  obtain ⟨-, -, -, -, -, -, himports⟩ := gives_clientContext hc
  obtain ⟨-, -, -, -, -, -, himports₁⟩ := gives_clientContext hc₁
  refine ⟨hmethods, ?_, hdeclarations⟩
  rw [himports, himports₁]
  exact hdeclarations.map Declaration.name

/-- Appending endpoints renames nothing. Wherever a client can be made for some endpoints, with a
method for each of them in their order, one can be made for the first of them, and all its methods
and declarations are the first ones there. -/
theorem appended_continues (d : Document) (xs ys : List Endpoint)
    (httpClientImport typesImport : String) (long : ClientContext × TypesContext) (b' : Builder)
    (hg : (contexts (xs ++ ys) httpClientImport typesImport).Gives (ofDocument d) long b') :
    List.Forall₂
      (fun p m => ∃ body result,
        m = p.1.methodWith (ofDocument d).typeNames p.2 body result)
      ((xs ++ ys).zip (methodNames (xs ++ ys))) long.1.methods ∧
    (∃ short b, (contexts xs httpClientImport typesImport).Gives (ofDocument d) short b) ∧
    ∀ short b, (contexts xs httpClientImport typesImport).Gives (ofDocument d) short b →
      Continues short long := by
  obtain ⟨c, types⟩ := long
  obtain ⟨hc, rfl⟩ := gives_contexts_iff_declarations.mp hg
  obtain ⟨c₁, b₁, hc₁, hmethods, hdeclarations⟩ := gives_clientContext_append hc
  -- The work for the first endpoints goes through, since it did on the way.
  have hshort : (contexts xs httpClientImport typesImport).Gives (ofDocument d)
      (c₁, ⟨b₁.document.title, b₁.document.version, b₁.declarations⟩) b₁ :=
    gives_contexts_iff_declarations.mpr ⟨hc₁, rfl⟩
  refine ⟨?_, ⟨_, b₁, hshort⟩, fun short b h => ?_⟩
  · obtain ⟨b₀, hall, hms, -⟩ := gives_clientContext hc
    have hext : (ofDocument d).Extends b₀ :=
      hall.keeps (stable_extends _).declareAll (Extends.refl _)
    -- The builder that makes the methods has the type names that it started with.
    rw [← hext.typeNames]
    exact methodWith_of_gives_methods hms
  · -- There is only one way for the work to go.
    rw [(h.unique hshort).1]
    exact continues_of_clientContext hc hc₁ hmethods hdeclarations

/-- Here the endpoint that is appended asks for the names of the one before it. -/
theorem appended_continues_clashing :
    ∃ long b', (contexts ([petsEndpoint] ++ [petsEndpoint]) "./http-client" "./types").Gives
        (ofDocument petsDocument) long b' ∧
      long.1.methods.map Method.name = ["getPets", "getPets2"] ∧
      long.2.declarations.map Declaration.name
        = ["PetsGetResponse", "PetsGetResponse2", "PetsGetResponse3", "PetsGetResponse4"] ∧
      ∃ short b, (contexts [petsEndpoint] "./http-client" "./types").Gives (ofDocument petsDocument)
        short b ∧ Continues short long := by
  have hrun : ((contexts ([petsEndpoint] ++ [petsEndpoint]) "./http-client" "./types").run
      (ofDocument petsDocument)).2.outcome.map (fun made =>
        (made.1.methods.map Method.name, made.2.declarations.map Declaration.name))
      = .ok (["getPets", "getPets2"],
          ["PetsGetResponse", "PetsGetResponse2", "PetsGetResponse3", "PetsGetResponse4"]) := by
    decide +kernel
  obtain ⟨long, b', hg, hnames⟩ := exists_gives_of_map hrun
  obtain ⟨hmethods, hdeclarations⟩ := Prod.mk.inj hnames
  obtain ⟨-, ⟨short, b, hshort⟩, hall⟩ := appended_continues petsDocument [petsEndpoint]
    [petsEndpoint] "./http-client" "./types" long b' hg
  exact ⟨long, b', hg, hmethods, hdeclarations, short, b, hshort, hall short b hshort⟩

end Builder

end TypedClient
