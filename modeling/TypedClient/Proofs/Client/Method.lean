import TypedClient.Client.Method
import TypedClient.Proofs.Client.Declaration
import TypedClient.Proofs.Name.Method

/-!
# `TypedClient.Proofs.Client.Method`: what making a method comes to

A method is a function of its endpoint, of the names of component schemas and of two types
that the builder has to find out: that of the body and that of the result. All else that
the builder does is to declare records and to take notes.

* `Endpoint.methodWith`: the method as that function.
* `Builder.gives_method_iff`, `Builder.of_fails_method`: when the builder makes it, and
  when it fails.
* `Builder.gives_clientContext`: the client is made of one method for each endpoint.
* `Builder.contexts`: the client and after it the types, by one builder.
-/

set_option autoImplicit false

namespace TypedClient

open Work

namespace Endpoint

/-- The arguments of the method for the endpoint. -/
def arguments (e : Endpoint) (names : TypeNames) : List Argument :=
  nameArguments names e.takenNames.1 e.surfacedParameters

/-- The list of arguments of the method, given the type of the body. -/
def signatureWith (e : Endpoint) (names : TypeNames) (bodyType : String) : Signature where
  required := (e.arguments names).filter (·.parameter.required)
  body := e.takenNames.2.map fun n => (n, bodyType, e.requestBody.any RequestBody.required)
  optional := (e.arguments names).filter (!·.parameter.required)

/-- The call that the method makes. -/
def callWith (e : Endpoint) (names : TypeNames) : Call where
  url := Url.expression e.path (pathArguments (e.arguments names))
  payload :=
    if payloadVerbs.contains (Text.lower e.method) then some (e.takenNames.2.getD "undefined")
    else none
  query := (e.arguments names).filter (·.parameter.location = .query)
  headers := (e.arguments names).filter (·.parameter.location = .header)

/-- The method of the endpoint under a name, given the types of body and result. -/
def methodWith (e : Endpoint) (names : TypeNames) (name bodyType returnType : String) :
    Method where
  name := name
  verb := Text.lower e.method
  method := e.method
  path := e.path
  signature := (e.signatureWith names bodyType).text
  returnType := returnType
  callArguments := (e.callWith names).text
  doc := methodDoc e (e.arguments names)
  tags := e.tags

end Endpoint

namespace Builder

variable {b b' : Builder} {e : Endpoint} {name : String} {m : Method} {f : Failure}

/-- The type of the body of an endpoint that has one. -/
def bodyType (e : Endpoint) : Work Builder String :=
  match e.takenNames.2 with
  | none => pure ""
  | some _ => schemaType e e.bodySchema "Body"

/-- Making a method is to note what is odd about its parameters, and to find its types. -/
theorem method_eq (e : Endpoint) (name : String) : method e name = (do
    let names := (← Work.state).typeNames
    Work.ofLogged e.notePlaceholders
    Work.ofLogged (e.noteParameters names e.allParameters)
    let body ← bodyType e
    let success ← Work.ofLogged (Logged.ofExcept e.successSchema)
    let result ← schemaType e success "Response"
    pure (e.methodWith names name body result)) := by
  -- Both sides name the body and the parameters from the same registry; only the body may be
  -- missing.
  rcases h : e.takenNames with ⟨taken, bodyName⟩
  simp only [method, bodyType, Endpoint.methodWith, Endpoint.arguments, Endpoint.signatureWith,
    Endpoint.callWith, h]
  cases bodyName <;> rfl

/-- A builder makes the method of an endpoint exactly if the types of its parameters can be noted
and those of body and result be found; the method is then the one that these types give. -/
theorem gives_method_iff : (method e name).Gives b m b' ↔
    (e.noteParameters b.typeNames e.allParameters).outcome = .ok () ∧
      ∃ body b₁ success result, (bodyType e).Gives b body b₁ ∧ e.successSchema = .ok success ∧
        (schemaType e success "Response").Gives b₁ result b' ∧
        m = e.methodWith b.typeNames name body result := by
  rw [method_eq]
  simp only [gives_bind_iff, gives_state_iff, gives_ofLogged_iff, gives_pure_iff,
    Logged.outcome_ofExcept]
  constructor
  · rintro ⟨_, _, ⟨rfl, rfl⟩, _, _, ⟨-, rfl⟩, _, _, ⟨hnote, rfl⟩, body, b₁, hbody, success, _,
      ⟨hsuccess, rfl⟩, result, _, hresult, rfl, rfl⟩
    exact ⟨hnote, body, b₁, success, result, hbody, hsuccess, hresult, rfl⟩
  · rintro ⟨hnote, body, b₁, success, result, hbody, hsuccess, hresult, rfl⟩
    exact ⟨_, _, ⟨rfl, rfl⟩, (), _, ⟨rfl, rfl⟩, (), _, ⟨hnote, rfl⟩, body, b₁, hbody, success, _,
      ⟨hsuccess, rfl⟩, result, _, hresult, rfl, rfl⟩

/-- Making a method fails where the type of a parameter cannot be written, or that of the
body, or where it cannot be found out what a success is, or its type cannot be written. -/
theorem of_fails_method (h : (method e name).Fails b f) :
    (e.noteParameters b.typeNames e.allParameters).outcome = .error f ∨
      (bodyType e).Fails b f ∨ e.successSchema = .error f ∨
      ∃ b₁ success, e.successSchema = .ok success ∧
        (schemaType e success "Response").Fails b₁ f := by
  rw [method_eq] at h
  simp only [fails_bind_iff, gives_state_iff, gives_ofLogged_iff, fails_ofLogged_iff,
    not_fails_pure, not_fails_state, Logged.outcome_ofExcept, false_or, and_false, exists_false,
    or_false] at h
  obtain ⟨_, _, ⟨rfl, rfl⟩, hplaceholders | ⟨_, _, ⟨-, rfl⟩, h⟩⟩ := h
  · -- Placeholders are only noted, which does not fail.
    cases hplaceholders
  · rcases h with hnote | ⟨_, _, ⟨-, rfl⟩, hbody | ⟨_, b₁, -, hsuccess | ⟨success, _, h, hresult⟩⟩⟩
    · exact .inl hnote
    · exact .inr (.inl hbody)
    · exact .inr (.inr (.inl hsuccess))
    · exact .inr (.inr (.inr ⟨_, success, h.1, hresult⟩))

/-! ### Several methods -/

/-- Finding the type of a body keeps what names and records keep. -/
theorem RecordStable.bodyType {P : Builder → Prop} (hP : RecordStable P) (e : Endpoint) :
    (bodyType e).Keeps P := by
  unfold Builder.bodyType
  cases e.takenNames.2 with
  | none => exact keeps_pure _
  | some n => exact hP.schemaType e e.bodySchema (by decide)

/-- Making a method keeps what names and records keep, since its only steps that change the builder
find a type. -/
theorem RecordStable.method {P : Builder → Prop} (hP : RecordStable P) (e : Endpoint)
    (name : String) : (method e name).Keeps P := by
  rw [method_eq]
  -- The steps in their order: looking at the builder and taking notes change nothing.
  refine keeps_state_bind fun b hb => ?_
  refine Keeps.bind (keeps_ofLogged _) (fun _ => ?_) b hb
  refine Keeps.bind (keeps_ofLogged _) fun _ => ?_
  refine (hP.bodyType e).bind fun body => ?_
  refine Keeps.bind (keeps_ofLogged _) fun success => ?_
  exact (hP.schemaType e success (by decide)).bind fun result => keeps_pure _

/-- Making methods in a row keeps what names and records keep, by induction on the row. -/
theorem RecordStable.methods {P : Builder → Prop} (hP : RecordStable P)
    (ps : List (Endpoint × String)) : (methods ps).Keeps P := by
  induction ps with
  | nil => exact keeps_pure _
  | cons p rest ih =>
    exact (hP.method p.1 p.2).bind fun m => ih.bind fun ms => keeps_pure _

/-- Making methods for two lists in a row is making those of the first and then, with the builder
that it leaves, those of the second. -/
theorem gives_methods_append_iff {ps qs : List (Endpoint × String)} {ms : List Method} :
    (methods (ps ++ qs)).Gives b ms b' ↔ ∃ b₁ ms₁ ms₂, (methods ps).Gives b ms₁ b₁ ∧
      (methods qs).Gives b₁ ms₂ b' ∧ ms = ms₁ ++ ms₂ := by
  -- By induction on the first list; the builder in between is the one that its last method leaves.
  induction ps generalizing b b' ms with
  | nil =>
    simp only [List.nil_append, methods, gives_pure_iff]
    constructor
    · exact fun h => ⟨b, [], ms, ⟨rfl, rfl⟩, h, rfl⟩
    · rintro ⟨_, _, _, ⟨rfl, rfl⟩, h, rfl⟩
      exact h
  | cons p rest ih =>
    simp only [List.cons_append, methods, gives_bind_iff, gives_pure_iff, ih]
    constructor
    · rintro ⟨m, b₁, hm, _, _, ⟨b₂, ms₁, ms₂, h₁, h₂, rfl⟩, rfl, rfl⟩
      exact ⟨b₂, m :: ms₁, ms₂, ⟨m, b₁, hm, ms₁, b₂, h₁, rfl, rfl⟩, h₂, rfl⟩
    · rintro ⟨_, _, ms₂, ⟨m, b₁, hm, ms₁, b₂, h₁, rfl, rfl⟩, h₂, rfl⟩
      exact ⟨m, b₁, hm, ms₁ ++ ms₂, b', ⟨b₂, ms₁, ms₂, h₁, h₂, rfl⟩, rfl, rfl⟩

/-- Of several methods each is made by a builder on the way from the first to the last. -/
theorem gives_methods {ps : List (Endpoint × String)} {ms : List Method}
    (hg : (methods ps).Gives b ms b') :
    List.Forall₂ (fun p m => ∃ b₁ b₂, b.Extends b₁ ∧ (method p.1 p.2).Gives b₁ m b₂ ∧
      b₂.Extends b') ps ms := by
  induction ps generalizing b ms with
  | nil =>
    obtain ⟨rfl, -⟩ := gives_pure_iff.mp hg
    exact .nil
  | cons p rest ih =>
    obtain ⟨m, b₁, hm, hg⟩ := gives_bind_iff.mp hg
    obtain ⟨ms, b₂, hms, hg⟩ := gives_bind_iff.mp hg
    obtain ⟨rfl, rfl⟩ := gives_pure_iff.mp hg
    -- The first method is made by the builder itself. The others are made by builders that extend
    -- the one it leaves, and so extend the builder as well.
    have hfirst := hm.keeps ((stable_extends b).method p.1 p.2) (Extends.refl b)
    have hrest := hms.keeps ((stable_extends b₁).methods rest) (Extends.refl b₁)
    refine .cons ⟨b, b₁, Extends.refl b, hm, hrest⟩ ((ih hms).imp ?_)
    rintro p m ⟨b₃, b₄, h₃, hm, h₄⟩
    exact ⟨b₃, b₄, hfirst.trans h₃, hm, h₄⟩

/-- The component schemas have the names that they had at the start. -/
theorem methodWith_of_gives_methods {ps : List (Endpoint × String)} {ms : List Method}
    (hg : (methods ps).Gives b ms b') :
    List.Forall₂ (fun p m => ∃ body result, m = p.1.methodWith b.typeNames p.2 body result)
      ps ms := by
  refine (gives_methods hg).imp ?_
  rintro p m ⟨b₁, b₂, hext, hm, -⟩
  obtain ⟨-, body, -, -, result, -, -, -, rfl⟩ := gives_method_iff.mp hm
  exact ⟨body, result, by rw [hext.typeNames]⟩

/-! ### The client -/

/-- The names of the methods of endpoints. -/
def methodNames (es : List Endpoint) : List String := Name.uniqueNames (es.map Endpoint.toRoute)

/-- Every endpoint gets a name for its method. -/
theorem length_methodNames (es : List Endpoint) : (methodNames es).length = es.length := by
  rw [methodNames, Name.length_uniqueNames, List.length_map]

/-- What holds of endpoints with their names holds of the endpoints. -/
theorem forall₂_of_zip_methodNames {R : Endpoint → Method → Prop} {es : List Endpoint}
    {ms : List Method} (h : List.Forall₂ (fun p m => R p.1 m) (es.zip (methodNames es)) ms) :
    List.Forall₂ R es ms := by
  have hes : (es.zip (methodNames es)).map Prod.fst = es :=
    List.map_fst_zip (Nat.le_of_eq (length_methodNames es).symm)
  rw [← hes]
  exact List.forall₂_map_left_iff.mpr h

/-- The methods that are made have the names that were chosen, in the order of the endpoints. -/
theorem name_of_gives_methods {es : List Endpoint} {ms : List Method}
    (hg : (methods (es.zip (methodNames es))).Gives b ms b') :
    ms.map Method.name = methodNames es := by
  have hnames : List.Forall₂ (fun p m => p.2 = m.name) (es.zip (methodNames es)) ms :=
    (methodWith_of_gives_methods hg).imp fun p m ⟨_, _, hm⟩ => by rw [hm]; rfl
  -- As every method has the name that it is paired with, the two lists of names are equal.
  have hsame : List.Forall₂ Eq ((es.zip (methodNames es)).map Prod.snd) (ms.map Method.name) :=
    List.forall₂_map_left_iff.mpr (List.forall₂_map_right_iff.mpr hnames)
  rw [List.forall₂_eq_eq_eq] at hsame
  rw [← hsame, List.map_snd_zip (Nat.le_of_eq (length_methodNames es))]

/-- The client that a builder stands for once its methods are made. -/
def clientWith (b : Builder) (httpClientImport typesImport : String) (methods : List Method) :
    ClientContext where
  title := b.document.title
  version := b.document.version
  description := Comment.lines [b.document.description]
  clientClass := clientClass
  transport := transportInterface
  httpClientImport := httpClientImport
  typesImport := typesImport
  typeImports := b.declaredNames
  baseUrl := textLiteral (b.document.servers.head?.getD "")
  methods := methods

/-- A client is made by declaring everything and then making one method for each endpoint; what else
it says is taken from the builder that is left. -/
theorem gives_clientContext_iff {es : List Endpoint} {httpClientImport typesImport : String}
    {c : ClientContext} : (clientContext es httpClientImport typesImport).Gives b c b' ↔
      ∃ b₁ ms, declareAll.Gives b () b₁ ∧ (methods (es.zip (methodNames es))).Gives b₁ ms b' ∧
        c = b'.clientWith httpClientImport typesImport ms := by
  unfold clientContext
  simp only [gives_bind_iff, gives_state_iff, gives_ofLogged_iff, gives_pure_iff]
  constructor
  · rintro ⟨_, b₁, hall, _, _, ⟨-, rfl⟩, ms, _, hms, _, _, ⟨rfl, rfl⟩, rfl, rfl⟩
    exact ⟨b₁, ms, hall, hms, rfl⟩
  · rintro ⟨b₁, ms, hall, hms, rfl⟩
    exact ⟨(), b₁, hall, (), b₁, ⟨rfl, rfl⟩, ms, b', hms, b', b', ⟨rfl, rfl⟩, rfl, rfl⟩

/-- The parts of a client that later results need, apart from those that never vary. -/
theorem gives_clientContext {es : List Endpoint} {httpClientImport typesImport : String}
    {c : ClientContext} (hg : (clientContext es httpClientImport typesImport).Gives b c b') :
    ∃ b₁, declareAll.Gives b () b₁ ∧
      (methods (es.zip (methodNames es))).Gives b₁ c.methods b' ∧
      c.title = b'.document.title ∧ c.version = b'.document.version ∧
      c.description = Comment.lines [b'.document.description] ∧
      c.typeImports = b'.declaredNames := by
  obtain ⟨b₁, ms, hall, hms, rfl⟩ := gives_clientContext_iff.mp hg
  exact ⟨b₁, hall, hms, rfl, rfl, rfl, rfl⟩

/-- What declarations, names and records keep holds of the builder that has made a client. -/
theorem Stable.of_gives_clientContext {P : Builder → Prop} (hP : Stable P) {es : List Endpoint}
    {httpClientImport typesImport : String} {c : ClientContext}
    (hg : (clientContext es httpClientImport typesImport).Gives b c b') (hb : P b) : P b' := by
  obtain ⟨b₁, hall, hms, -⟩ := gives_clientContext hg
  exact hms.keeps (hP.methods _) (hall.keeps hP.declareAll hb)

/-- The builder that has made a client is complete: everything was declared first, and methods take
nothing back. -/
theorem complete_of_gives_clientContext {es : List Endpoint} {httpClientImport typesImport : String}
    {c : ClientContext} (hg : (clientContext es httpClientImport typesImport).Gives b c b') :
    b'.Complete := by
  obtain ⟨b₁, hall, hms, -⟩ := gives_clientContext hg
  exact (gives_declareAll hall).of_extends
    (hms.keeps ((stable_extends b₁).methods _) (Extends.refl b₁))

/-- The client, and after it the types, so that the records of its methods are declared. -/
def contexts (es : List Endpoint) (httpClientImport typesImport : String) :
    Work Builder (ClientContext × TypesContext) := do
  let client ← clientContext es httpClientImport typesImport
  let types ← typesContext
  pure (client, types)

/-- Making the contexts is making the client and then the types with the builder that it leaves. -/
theorem gives_contexts_iff {es : List Endpoint} {httpClientImport typesImport : String}
    {made : ClientContext × TypesContext} :
    (contexts es httpClientImport typesImport).Gives b made b' ↔
      ∃ b₁, (clientContext es httpClientImport typesImport).Gives b made.1 b₁ ∧
        typesContext.Gives b₁ made.2 b' := by
  unfold contexts
  simp only [gives_bind_iff, gives_pure_iff]
  constructor
  · rintro ⟨client, b₁, hclient, types, _, htypes, rfl, rfl⟩
    exact ⟨b₁, hclient, htypes⟩
  · rintro ⟨b₁, hclient, htypes⟩
    exact ⟨made.1, b₁, hclient, made.2, b', htypes, rfl, rfl⟩

end Builder

end TypedClient
