import TypedClient.Proofs.Client.Arguments

/-!
# `TypedClient.Proofs.Client.Signature`: the list of arguments of a method

A list of arguments shows each parameter of an endpoint once, cookies left out, each
placeholder of the path that no parameter declares once, and the body if there is one. All of
them draw their names from one registry, so no two have one name.

* `Signature.Entry`, `Signature.listed`: what a list of arguments shows, and in which order.
* `Endpoint.Listing`: how a list of arguments shows those of an endpoint.
* `Builder.lists_arguments`: every method lists the arguments of its endpoint.
-/

set_option autoImplicit false

namespace TypedClient

/-- An argument in a list of arguments. -/
structure Signature.Entry where
  ident : String
  optional : Bool
  type : String
deriving DecidableEq

/-- The argument as it is written in the list, with a mark if it need not be given. -/
def Signature.Entry.text (x : Signature.Entry) : String :=
  x.ident ++ (if x.optional then "?: " else ": ") ++ x.type

/-- How the list of arguments shows an argument. -/
def Argument.listed (a : Argument) : Signature.Entry := ⟨a.name, !a.parameter.required, a.type⟩

namespace Signature

/-- What a list of arguments shows: required ones, then the body, then optional ones. -/
def listed (arguments : List Argument) (body : Option Entry) : List Entry :=
  (arguments.filter (·.parameter.required)).map Argument.listed ++ body.toList ++
    (arguments.filter (!·.parameter.required)).map Argument.listed

variable {arguments : List Argument} {body : Option Entry}

/-- Each argument is listed once, and so is the body. -/
theorem listed_perm (arguments : List Argument) (body : Option Entry) :
    (listed arguments body).Perm (body.toList ++ arguments.map Argument.listed) := by
  have hsplit := List.filter_append_perm (·.parameter.required) arguments
  -- Moving the body to the front brings the two halves of the arguments together again.
  calc listed arguments body
    _ = (arguments.filter (·.parameter.required)).map Argument.listed ++ (body.toList ++
          (arguments.filter (!·.parameter.required)).map Argument.listed) := by
      rw [listed, List.append_assoc]
    _ |>.Perm (body.toList ++ ((arguments.filter (·.parameter.required)).map Argument.listed ++
          (arguments.filter (!·.parameter.required)).map Argument.listed)) :=
      List.perm_append_comm_assoc _ _ _
    _ |>.Perm (body.toList ++ arguments.map Argument.listed) := by
      rw [← List.map_append]
      exact (hsplit.map _).append_left _

/-- What need not be given comes last. -/
theorem pairwise_listed (arguments : List Argument) (body : Option Entry) :
    (listed arguments body).Pairwise fun x y => x.optional = true → y.optional = true := by
  have hrequired : ∀ x ∈ (arguments.filter (·.parameter.required)).map Argument.listed,
      x.optional = false := by
    intro x hx
    obtain ⟨a, ha, rfl⟩ := List.mem_map.mp hx
    simpa [Argument.listed] using (List.mem_filter.mp ha).2
  have hoptional : ∀ x ∈ (arguments.filter (!·.parameter.required)).map Argument.listed,
      x.optional = true := by
    intro x hx
    obtain ⟨a, ha, rfl⟩ := List.mem_map.mp hx
    simpa [Argument.listed] using (List.mem_filter.mp ha).2
  have hlast : (body.toList ++ (arguments.filter (!·.parameter.required)).map
      Argument.listed).Pairwise fun x y => x.optional = true → y.optional = true := by
    have hrest := List.pairwise_of_forall_mem_list fun x _ y hy (_ : x.optional = true) =>
      hoptional y hy
    cases body with
    | none => exact hrest
    | some x => exact List.pairwise_cons.mpr ⟨fun y hy _ => hoptional y hy, hrest⟩
  -- Whatever stands in the first part has to be given, so it asks nothing of what comes after.
  rw [listed, List.append_assoc, List.pairwise_append]
  refine ⟨List.pairwise_of_forall_mem_list fun x hx _ _ h => ?_, hlast, fun x hx _ _ h => ?_⟩
  · simp [hrequired x hx] at h
  · simp [hrequired x hx] at h

end Signature

/-! ### Names -/

/-- Arguments get distinct names that are not taken. -/
theorem fresh_nameArguments (names : TypeNames) (ps : List Parameter) : ∀ r : Name.Registry,
    ((nameArguments names r ps).map Argument.name).Nodup ∧
      ∀ a ∈ nameArguments names r ps, a.name ∉ r.taken := by
  induction ps with
  | nil => exact fun _ => ⟨List.nodup_nil, List.forall_mem_nil _⟩
  | cons p rest ih =>
    intro r
    obtain ⟨hnodup, hfresh⟩ := ih (r.claim (Name.toIdentifier p.name)).2
    simp only [nameArguments, List.map_cons, List.nodup_cons, List.forall_mem_cons]
    -- The name claimed first is taken when the others are claimed.
    refine ⟨⟨fun hmem => ?_, hnodup⟩, r.free_not_mem _, fun a ha hmem => ?_⟩
    · obtain ⟨a, ha, hname⟩ := List.mem_map.mp hmem
      exact hfresh a ha (hname ▸ List.mem_cons_self)
    · exact hfresh a ha (List.mem_cons_of_mem _ hmem)

/-- An argument is named after its parameter and has the type of it. -/
structure Argument.Stands (a : Argument) (names : TypeNames) : Prop where
  name : a.name = Name.toIdentifier a.parameter.name ∨
    ∃ k, a.name = Name.Registry.numbered (Name.toIdentifier a.parameter.name) k
  type : a.type = typeText (some names) a.parameter.schema 1

/-- Every argument is named after its own parameter and typed by its schema. -/
theorem stands_nameArguments (names : TypeNames) (ps : List Parameter) : ∀ r : Name.Registry,
    ∀ a ∈ nameArguments names r ps, a.Stands names := by
  induction ps with
  | nil => exact fun _ => List.forall_mem_nil _
  | cons p rest ih =>
    exact fun r => List.forall_mem_cons.mpr
      ⟨{ name := r.free_eq (Name.toIdentifier p.name), type := rfl }, ih _⟩

namespace Endpoint

/-- The names that are taken before the parameters are named. -/
theorem taken_takenNames (e : Endpoint) :
    e.takenNames.1.taken = e.takenNames.2.toList ++ methodLocals := by
  unfold takenNames
  cases e.requestBody <;> rfl

/-- The body is named before anything else but what the methods use, which is not `body`. -/
theorem eq_body_of_takenNames {e : Endpoint} {n : String} (h : e.takenNames.2 = some n) :
    n = "body" := by
  unfold takenNames at h
  cases hbody : e.requestBody with
  | none => simp [hbody] at h
  | some b =>
    simp only [hbody, Option.some.injEq] at h
    rw [← h]
    decide

/-- The body in the list of arguments. -/
def listedBody (e : Endpoint) (bodyType : String) : Option Signature.Entry :=
  e.takenNames.2.map fun n => ⟨n, !e.requestBody.any RequestBody.required, bodyType⟩

/-- How a list of arguments shows those of the endpoint: each parameter but cookies, each
placeholder that no parameter declares, and the body. -/
structure Listing (e : Endpoint) (names : TypeNames) (m : Method) (arguments : List Argument)
    (body : Option Signature.Entry) : Prop where
  signature : m.signature
    = ", ".intercalate ((Signature.listed arguments body).map Signature.Entry.text)
  nodup : ((Signature.listed arguments body).map Signature.Entry.ident).Nodup
  not_response : "response" ∉ (Signature.listed arguments body).map Signature.Entry.ident
  pairwise : (Signature.listed arguments body).Pairwise fun x y =>
    x.optional = true → y.optional = true
  cut : PathTemplate.Leftmost e.path.toList (PathTemplate.ofString e.path)
  nodup_placeholders : e.undeclaredPlaceholders.Nodup
  mem_placeholders : ∀ n, n ∈ e.undeclaredPlaceholders ↔
    n ∈ (PathTemplate.ofString e.path).names ∧ ∀ p ∈ e.parameters, p.key ≠ (n, .path)
  parameters : arguments.map Argument.parameter = e.parameters.filter (·.location ≠ .cookie) ++
    e.undeclaredPlaceholders.map placeholderParameter
  stands : ∀ a ∈ arguments, a.Stands names
  body : body.map Signature.Entry.optional = e.requestBody.map (!·.required)

/-- A placeholder is undeclared exactly if the path has it and no parameter of the path has its
name. -/
theorem mem_undeclaredPlaceholders {e : Endpoint} {n : String} : n ∈ e.undeclaredPlaceholders ↔
    n ∈ (PathTemplate.ofString e.path).names ∧ ∀ p ∈ e.parameters, p.key ≠ (n, .path) := by
  have hdeclared : (∃ p ∈ e.parameters, p.fills n = true) ↔
      ∃ p ∈ e.parameters, p.key = (n, .path) := by
    simp only [Parameter.fills, decide_eq_true_eq]
  simp only [undeclaredPlaceholders, List.mem_eraseDups, List.mem_filter, Bool.not_eq_true',
    ← Bool.not_eq_true, List.contains_iff_mem, declared_iff, hdeclared, not_exists, not_and]

/-- The parameters that are surfaced are those that are no cookies, and one for each placeholder
that is not declared. -/
theorem surfacedParameters_eq (e : Endpoint) : e.surfacedParameters =
    e.parameters.filter (·.location ≠ .cookie) ++
      e.undeclaredPlaceholders.map placeholderParameter := by
  -- What stands in for a placeholder is a parameter of the path, so it is not filtered out.
  have hstand : ∀ p ∈ e.undeclaredPlaceholders.map placeholderParameter,
      decide (p.location ≠ .cookie) = true := by
    intro p hp
    obtain ⟨n, -, rfl⟩ := List.mem_map.mp hp
    rfl
  rw [surfacedParameters, allParameters, List.filter_append, List.filter_eq_self.mpr hstand]

/-- The entries of a list of arguments are the texts of what it lists. The two ways of marking what
need not be given agree. -/
theorem entries_signatureWith (e : Endpoint) (names : TypeNames) (bodyType : String) :
    (e.signatureWith names bodyType).entries
      = (Signature.listed (e.arguments names) (e.listedBody bodyType)).map
          Signature.Entry.text := by
  have hargument : Signature.Entry.text ∘ Argument.listed = Argument.declared := by
    funext a
    cases h : a.parameter.required <;>
      simp [Argument.listed, Signature.Entry.text, Argument.declared, h]
  simp only [Signature.entries, signatureWith, Signature.listed, listedBody, List.map_append,
    List.map_map, hargument]
  cases e.takenNames.2 with
  | none => rfl
  | some n => cases h : e.requestBody.any RequestBody.required <;> simp [Signature.Entry.text]

/-- The names in the list of arguments: that of the body, and those of the arguments. -/
theorem idents_listed (e : Endpoint) (names : TypeNames) (bodyType : String) :
    ((Signature.listed (e.arguments names) (e.listedBody bodyType)).map
      Signature.Entry.ident).Perm
        (e.takenNames.2.toList ++ (e.arguments names).map Argument.name) := by
  have hidents := (Signature.listed_perm (e.arguments names) (e.listedBody bodyType)).map
    Signature.Entry.ident
  have hbody : (e.listedBody bodyType).toList.map Signature.Entry.ident
      = e.takenNames.2.toList := by
    unfold listedBody
    cases e.takenNames.2 <;> rfl
  rwa [List.map_append, hbody, List.map_map] at hidents

/-- The list of arguments of a method shows those of the endpoint. -/
theorem listing_methodWith (e : Endpoint) (names : TypeNames)
    (name bodyType returnType : String) :
    e.Listing names (e.methodWith names name bodyType returnType) (e.arguments names)
      (e.listedBody bodyType) := by
  obtain ⟨hnodup, hfresh⟩ := fresh_nameArguments names e.surfacedParameters e.takenNames.1
  rw [taken_takenNames] at hfresh
  have hidents := e.idents_listed names bodyType
  refine {
    signature := ?_
    nodup := hidents.nodup_iff.mpr (List.nodup_append'.mpr ⟨?_, hnodup, ?_⟩)
    not_response := fun hmem => ?_
    pairwise := Signature.pairwise_listed _ _
    cut := PathTemplate.leftmost_ofString e.path
    nodup_placeholders := nodup_eraseDups _
    mem_placeholders := fun n => mem_undeclaredPlaceholders
    parameters := ?_
    stands := stands_nameArguments names e.surfacedParameters e.takenNames.1
    body := ?_ }
  · rw [← entries_signatureWith]
    rfl
  · cases e.takenNames.2 with
    | none => exact List.nodup_nil
    | some n => exact List.nodup_singleton n
  · -- The name of the body is taken when the parameters are named.
    intro n hbody hname
    obtain ⟨a, ha, rfl⟩ := List.mem_map.mp hname
    exact hfresh a ha (List.mem_append_left _ hbody)
  · rcases List.mem_append.mp (hidents.mem_iff.mp hmem) with hbody | hname
    · rw [Option.mem_toList] at hbody
      exact absurd (eq_body_of_takenNames hbody) (by decide)
    · obtain ⟨a, ha, hname⟩ := List.mem_map.mp hname
      exact hfresh a ha (List.mem_append_right _ (hname ▸ List.mem_singleton_self _))
  · rw [← surfacedParameters_eq]
    exact parameter_nameArguments names _ _
  · unfold listedBody takenNames
    cases e.requestBody <;> rfl

end Endpoint

/-- Every method lists the arguments of its endpoint: no two under one name, none under the
name of the local variable, and what need not be given last. -/
theorem Builder.lists_arguments {e : Endpoint} {b b' : Builder} {name : String} {m : Method}
    (hm : (Builder.method e name).Gives b m b') :
    ∃ arguments body, e.Listing b.typeNames m arguments body := by
  obtain ⟨-, bodyType, -, -, returnType, -, -, -, rfl⟩ := gives_method_iff.mp hm
  exact ⟨_, _, e.listing_methodWith b.typeNames name bodyType returnType⟩

/-- An endpoint whose parameters have names alike, with a cookie, a placeholder that no
parameter declares, and a body that need not be sent. -/
def mixedEndpoint : Endpoint where
  path := "/x/\x7bid\x7d/\x7bbody\x7d/\x7bid\x7d"
  method := "GET"
  operationId := none
  summary := ""
  description := ""
  tags := []
  parameters := [
    ⟨"x-y", .query, false, .unknown "", ""⟩,
    ⟨"session", .cookie, true, .unknown "", ""⟩,
    ⟨"response", .header, true, .unknown "", ""⟩,
    ⟨"x y", .query, true, .unknown "", ""⟩,
    ⟨"id", .path, true, .unknown "", ""⟩]
  requestBody := some ⟨false, []⟩
  responses := []

/-- Names alike are numbered, the local variable and the body keep theirs, and the cookie is left
out. -/
theorem Builder.lists_arguments_mixed :
    ∃ m b', (Builder.method mixedEndpoint "read").Gives (ofDocument default) m b' ∧
      m.signature = "response2: any, xY2: any, id: any, body2: string, body?: any, xY?: any" ∧
      ∃ arguments body, mixedEndpoint.Listing (ofDocument default).typeNames m arguments body := by
  have hrun : ((Builder.method mixedEndpoint "read").run (ofDocument default)).2.outcome.map
      Method.signature
        = .ok "response2: any, xY2: any, id: any, body2: string, body?: any, xY?: any" := by
    decide +kernel
  obtain ⟨m, b', hm, hsignature⟩ := Work.exists_gives_of_map hrun
  exact ⟨m, b', hm, hsignature, lists_arguments hm⟩

end TypedClient
