import TypedClient.Proofs.Client.Method

/-!
# `TypedClient.Proofs.Client.TypeNames`: the names of a client's types

The names of component schemas are handed out when a builder is made, those of records
while methods are made, in whatever order the builder is called. All of them come from one
registry, which also knows the names that the client's files declare themselves.

* `Builder.Distinct`: no type name is given twice, and the registry knows all of them. It
  holds of a new builder and is `Stable`.
* `Builder.distinct_after`: the names after any calls are distinct, and a client made then
  imports what the file of type declarations declares, the records of its methods included.
-/

set_option autoImplicit false

namespace TypedClient

open Work

namespace Builder

variable {b b' : Builder}

/-- The names of the types that a builder has named. -/
def typeSpace (b : Builder) : List String :=
  b.typeNames.map Prod.snd ++ b.hoisted.map Declaration.name

/-- No type has the name of another one or of what the client's files declare, and the
registry knows all these names. -/
structure Distinct (b : Builder) : Prop where
  nodup : (builtinNames ++ b.typeSpace).Nodup
  taken : ∀ n ∈ builtinNames ++ b.typeSpace, n ∈ b.registry.taken

/-! ### A new builder -/

/-- One step of handing out names for schemas: the first name, and the others from the registry that
knows it. -/
theorem claimAll_cons (r : Name.Registry) (name : String) (rest : List String) :
    claimAll r (name :: rest) =
      ((name, r.free (Name.toTypeIdentifier name)) ::
          (claimAll (r.claim (Name.toTypeIdentifier name)).2 rest).1,
        (claimAll (r.claim (Name.toTypeIdentifier name)).2 rest).2) := rfl

/-- Names that are handed out in a row are distinct, also from those taken before. -/
theorem nodup_claimAll (names : List String) :
    ∀ r : Name.Registry, r.taken.Nodup →
      (r.taken ++ (claimAll r names).1.map Prod.snd).Nodup := by
  induction names with
  | nil =>
    intro r hr
    simpa [claimAll] using hr
  | cons name rest ih =>
    intro r hr
    have hfree := r.free_not_mem (Name.toTypeIdentifier name)
    -- The name is free, so the induction goes on from a registry that knows it as well.
    have h := ih (r.claim (Name.toTypeIdentifier name)).2 (List.nodup_cons.mpr ⟨hfree, hr⟩)
    rw [claimAll_cons, List.map_cons]
    exact (List.perm_middle.nodup_iff).mpr h

/-- The registry that is left knows the names from before and all that were handed out. -/
theorem taken_claimAll (names : List String) :
    ∀ r : Name.Registry, ∀ n ∈ r.taken ++ (claimAll r names).1.map Prod.snd,
      n ∈ (claimAll r names).2.taken := by
  induction names with
  | nil =>
    intro r n hn
    simpa [claimAll] using hn
  | cons name rest ih =>
    intro r n hn
    rw [claimAll_cons, List.map_cons] at hn
    exact ih _ n ((List.perm_middle.mem_iff).mp hn)

/-- The names of a new builder are distinct. The names of the client's own files are taken first,
and then those of the component schemas. -/
theorem distinct_ofDocument (d : Document) : (ofDocument d).Distinct where
  nodup := by
    have h := nodup_claimAll (d.schemas.map Prod.fst) ⟨builtinNames⟩ (by decide)
    simpa [typeSpace, ofDocument] using h
  taken n hn := by
    refine taken_claimAll (d.schemas.map Prod.fst) ⟨builtinNames⟩ n ?_
    simpa [typeSpace, ofDocument] using hn

/-! ### Every piece of work -/

/-- A record gets a name that is not taken. -/
theorem recordName_not_mem (b : Builder) (e : Endpoint) (suffix : String) :
    b.recordName e suffix ∉ b.registry.taken :=
  b.registry.free_not_mem _

/-- Every piece of work keeps the names distinct. Declarations of component schemas use names that
were given before, and only a record gets a new one. -/
theorem stable_distinct : Stable Distinct where
  declaration _ _ _ _ h := ⟨h.nodup, h.taken⟩
  name b e suffix _ h := ⟨h.nodup, fun n hn => List.mem_cons_of_mem _ (h.taken n hn)⟩
  record b e suffix _ schema h := by
    -- The new name is free, and the registry knows all names that were given before.
    have hnew : builtinNames ++ (b.withRecord (b.recordName e suffix) schema).typeSpace
        = (builtinNames ++ b.typeSpace) ++ [b.recordName e suffix] := by
      simp [typeSpace, withRecord, withName, declaration]
    refine ⟨?_, fun n hn => ?_⟩
    · rw [hnew, List.nodup_append]
      refine ⟨h.nodup, List.nodup_singleton _, fun n hn m hm => ?_⟩
      rw [List.mem_singleton.mp hm]
      rintro rfl
      exact b.recordName_not_mem e suffix (h.taken _ hn)
    · -- The registry gets the new name with the record.
      rw [hnew, List.mem_append] at hn
      rcases hn with hn | hn
      · exact List.mem_cons_of_mem _ (h.taken n hn)
      · exact List.mem_cons.mpr (.inl (List.mem_singleton.mp hn))

/-- A call on a builder. -/
inductive Call where
  | declareSchema (name : String)
  | declareAll
  | method (e : Endpoint) (name : String)
  | typesContext

/-- The builder after a call, whether it succeeds or fails. A schema that the document does
not hold cannot be declared. -/
def Call.apply (b : Builder) : Call → Builder
  | declareSchema name => match b.document.schemas.lookup name with
    | some schema => ((Builder.declareSchema name schema).run b).1
    | none => b
  | declareAll => (Builder.declareAll.run b).1
  | method e name => ((Builder.method e name).run b).1
  | typesContext => (Builder.typesContext.run b).1

/-- The builder after calls. -/
def after (b : Builder) (calls : List Call) : Builder := calls.foldl Call.apply b

/-- What is stable holds after a call, also after one that fails. -/
theorem Stable.apply {P : Builder → Prop} (hP : Stable P) (c : Call) (hb : P b) :
    P (c.apply b) := by
  cases c with
  | declareSchema name =>
    cases hl : b.document.schemas.lookup name with
    | none => simpa only [Call.apply, hl] using hb
    | some schema => simpa only [Call.apply, hl] using hP.declareSchema name schema b hb
  | declareAll => exact hP.declareAll b hb
  | method e name => exact hP.method e name b hb
  | typesContext => exact hP.typesContext b hb

/-- What is stable holds after any calls, by induction on them. -/
theorem Stable.after {P : Builder → Prop} (hP : Stable P) (calls : List Call) (hb : P b) :
    P (b.after calls) := by
  induction calls generalizing b with
  | nil => exact hb
  | cons c rest ih => exact ih (hP.apply c hb)

/-! ### The client and its types -/

/-- The records that a method takes and returns are imported: if the body of the endpoint
is one, the signature gives it an imported type, and so it is for the result. -/
structure Imported (names : TypeNames) (imports : List String) (e : Endpoint) (m : Method) :
    Prop where
  body : ∃ bodyType, m.signature = (e.signatureWith names bodyType).text ∧
    ∀ schema, e.bodySchema = some schema → schema.isRecord = true → bodyType ∈ imports
  result : ∀ schema, e.successSchema = .ok (some schema) → schema.isRecord = true →
    m.returnType ∈ imports

/-- Records are declared under the names that they were hoisted under. -/
theorem mem_declaredNames {d : Declaration} (h : d ∈ b.hoisted) : d.name ∈ b.declaredNames :=
  List.mem_map_of_mem (List.mem_append_right _ h)

/-- An endpoint whose body has a schema has a body, and so a name for it. -/
theorem takenNames_of_bodySchema {e : Endpoint} {schema : Schema}
    (h : e.bodySchema = some schema) : ∃ n, e.takenNames.2 = some n := by
  unfold Endpoint.bodySchema at h
  unfold Endpoint.takenNames
  cases hr : e.requestBody with
  | none => simp [hr] at h
  | some r => exact ⟨_, rfl⟩

/-- A record that a builder has declared stays declared, so the methods made by it may be
looked at from any later builder. -/
theorem imported_of_gives_method {e : Endpoint} {name : String} {m : Method} {b₁ b₂ : Builder}
    (hm : (method e name).Gives b₁ m b₂) (hlater : b₂.Extends b') :
    Imported b₁.typeNames b'.declaredNames e m := by
  obtain ⟨-, body, b₃, success, result, hbody, hsuccess, hresult, rfl⟩ := gives_method_iff.mp hm
  have hext : b₃.Extends b₂ :=
    hresult.keeps ((stable_extends b₃).schemaType e success (by decide)) (Extends.refl b₃)
  refine ⟨⟨body, rfl, fun schema hs hr => ?_⟩, fun schema hs hr => ?_⟩
  · -- The record of the body is hoisted before the result is looked at, and stays.
    obtain ⟨n, hn⟩ := takenNames_of_bodySchema hs
    simp only [bodyType, hn, hs] at hbody
    obtain ⟨d, hd, rfl⟩ := gives_schemaType_record hr hbody
    exact mem_declaredNames ((hext.trans hlater).hoisted.subset hd)
  · rw [hsuccess] at hs
    cases hs
    obtain ⟨d, hd, rfl⟩ := gives_schemaType_record hr hresult
    exact mem_declaredNames (hlater.hoisted.subset hd)

/-- The types of a client are told apart by their names whatever the builder was called
for, and the client imports exactly the types that are declared. -/
theorem distinct_after (d : Document) (calls : List Call) :
    let b := (ofDocument d).after calls
    b.typeSpace.Nodup ∧ (∀ n ∈ b.typeSpace, n ∉ builtinNames) ∧
    ∀ (es : List Endpoint) (httpClientImport typesImport : String) (c : ClientContext)
      (b' : Builder), (clientContext es httpClientImport typesImport).Gives b c b' →
      ∃ types, typesContext.Gives b' types b' ∧
        c.typeImports = types.declarations.map Declaration.name ∧
        (∀ record ∈ b'.hoisted, record.name ∈ c.typeImports) ∧
        List.Forall₂ (Imported b.typeNames c.typeImports) es c.methods := by
  intro b
  have hdistinct : b.Distinct := stable_distinct.after calls (distinct_ofDocument d)
  obtain ⟨-, hnodup, hnew⟩ := List.nodup_append.mp hdistinct.nodup
  refine ⟨hnodup, fun n hn hbuiltin => hnew n hbuiltin n hn rfl, ?_⟩
  intro es httpClientImport typesImport c b' hg
  obtain ⟨b₁, hall, hms, -, -, -, himports⟩ := gives_clientContext hg
  -- Names of types are all given at the start, so the builder in between has the same ones.
  have hstart : b.Extends b₁ := hall.keeps (stable_extends b).declareAll (Extends.refl b)
  have hlater : b₁.Extends b' :=
    hms.keeps ((stable_extends b₁).methods _) (Extends.refl b₁)
  refine ⟨_, gives_typesContext (complete_of_gives_clientContext hg), himports,
    fun record hr => ?_, ?_⟩
  · rw [himports]
    exact mem_declaredNames hr
  · -- Each method was made somewhere between the two builders, with the same type names.
    refine forall₂_of_zip_methodNames ((gives_methods hms).imp ?_)
    rintro p m ⟨b₂, b₃, h₂, hm, h₃⟩
    have := imported_of_gives_method hm h₃
    rwa [h₂.typeNames, hstart.typeNames, ← himports] at this

/-- A record with one property. -/
def petSchema : Schema := .record (.cons "name" (.unknown "") .nil) [] ""

/-- Two schemas whose names make one identifier, which is also that of a record. -/
def petsDocument : Document where
  title := "Pets"
  version := "1"
  description := ""
  servers := []
  graph := ⟨#[]⟩
  paths := []
  components := []
  schemas := [("PetsGetResponse", .unknown ""), ("Pets-Get-Response", petSchema)]
  nodup_names := by decide

/-- An endpoint that returns a record of its own. -/
def petsEndpoint : Endpoint where
  path := "/pets"
  method := "GET"
  operationId := none
  summary := ""
  description := ""
  tags := []
  parameters := []
  requestBody := none
  responses := [("200", ⟨"", [("application/json", petSchema)]⟩)]

/-- Two schemas and the records of two runs of one method ask for the same identifier, and each gets
a number of its own. -/
theorem distinct_clashing :
    ∃ c b' types,
      (clientContext [petsEndpoint] "./http-client" "./types").Gives
        ((ofDocument petsDocument).after [.method petsEndpoint "list", .declareAll]) c b' ∧
      typesContext.Gives b' types b' ∧
      c.typeImports = types.declarations.map Declaration.name ∧
      c.typeImports
        = ["PetsGetResponse", "PetsGetResponse2", "PetsGetResponse3", "PetsGetResponse4"] ∧
      c.methods.map Method.returnType = ["PetsGetResponse4"] := by
  have hrun : ((clientContext [petsEndpoint] "./http-client" "./types").run
      ((ofDocument petsDocument).after [.method petsEndpoint "list", .declareAll])).2.outcome.map
        (fun c => (c.typeImports, c.methods.map Method.returnType))
      = .ok (["PetsGetResponse", "PetsGetResponse2", "PetsGetResponse3", "PetsGetResponse4"],
          ["PetsGetResponse4"]) := by
    decide +kernel
  cases hc : ((clientContext [petsEndpoint] "./http-client" "./types").run
      ((ofDocument petsDocument).after [.method petsEndpoint "list", .declareAll])).2.outcome with
  | error f =>
    rw [hc] at hrun
    cases hrun
  | ok c =>
    rw [hc] at hrun
    obtain ⟨himports, htypes⟩ := Prod.mk.inj (Except.ok.inj hrun)
    obtain ⟨types, ht, heq, -, -⟩ := (distinct_after petsDocument
      [.method petsEndpoint "list", .declareAll]).2.2 _ _ _ c _ ⟨hc, rfl⟩
    exact ⟨c, _, types, ⟨hc, rfl⟩, ht, heq, himports, htypes⟩

end Builder

end TypedClient
