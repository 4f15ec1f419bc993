import TypedClient.Proofs.Client.Call

/-!
# `TypedClient.Proofs.Client.Usage`: where a method uses its arguments

The arguments that a method lists and those that its call uses are made from different data:
parameters and placeholders, the path, the verb, the body. They agree, but for two cases. A
parameter that the document puts into the path has no place if the path has no placeholder of
its name, and a body has none if the verb sends nothing.

* `Argument.UsedIn`, `Endpoint.Usage`: the places of arguments, and how a call fills them.
* `Builder.uses_arguments`: every method uses its arguments so.
* `Builder.body_of_deletion_unused`: a deletion takes a body that it does not send.
-/

set_option autoImplicit false

namespace TypedClient

/-- Different arguments are encoded by different expressions, so the address tells which one it
holds. -/
theorem Url.encodedArgument_injective {n n' : String} (h : encodedArgument n = encodedArgument n') :
    n = n' :=
  (String.append_right_inj _).mp ((String.append_left_inj _).mp h)

/-- The address of the transport is no argument. -/
theorem Url.encodedArgument_ne_baseUrl (n : String) : encodedArgument n ≠ "this.baseUrl" := by
  intro h
  have hfirst : (encodedArgument n).toList.head? = some 'e' := by
    show ("encodeURIComponent(String(" ++ n ++ "))").toList.head? = _
    rw [String.append_assoc, String.toList_append, List.head?_append]
    rfl
  rw [h] at hfirst
  exact absurd hfirst (by decide)

/-- Where an argument belongs: an argument of the path into the address, others into their
option under the name of their parameter. -/
def Argument.UsedIn (a : Argument) (r : Call.Reading) : Prop :=
  match a.parameter.location with
  | .path => .substitution (Url.encodedArgument a.name) ∈ r.url
  | .query => a.binding "params" ∈ r.bindings
  | .header => a.binding "headers" ∈ r.bindings
  | .cookie => False

namespace Endpoint

variable {e : Endpoint} {names : TypeNames}

/-- The parameter of an argument is one that is surfaced, and so no cookie. -/
theorem mem_surfacedParameters {a : Argument} (ha : a ∈ e.arguments names) :
    a.parameter ∈ e.surfacedParameters := by
  rw [← parameter_nameArguments names e.surfacedParameters e.takenNames.1]
  exact List.mem_map_of_mem ha

/-- Arguments are legible where no parameter's name ends its line: their own names are then
identifiers, with or without a number. -/
theorem legible_arguments (names : TypeNames)
    (h : ∀ p ∈ e.surfacedParameters, ¬ Name.EndsLine p.name) :
    ∀ a ∈ e.arguments names, a.Legible := by
  intro a ha
  have hkey := h _ (mem_surfacedParameters ha)
  refine { name := ?_, key := hkey }
  have hstands := stands_nameArguments names e.surfacedParameters e.takenNames.1 a ha
  rcases hstands.name with hn | ⟨k, hn⟩
  · rw [hn]
    exact Name.proper_toIdentifier hkey
  · rw [hn]
    exact Name.proper_numbered (Name.proper_toIdentifier hkey) k

/-- Arguments are told apart by their parameters. -/
theorem nodup_key_arguments (names : TypeNames)
    (he : (e.parameters.map Parameter.key).Nodup) :
    ((e.arguments names).map fun a => a.parameter.key).Nodup := by
  have hmap : (e.arguments names).map (fun a => a.parameter.key)
      = e.surfacedParameters.map Parameter.key := by
    rw [← parameter_nameArguments names e.surfacedParameters e.takenNames.1, List.map_map]
    rfl
  rw [hmap, surfacedParameters_eq, List.map_append, List.nodup_append']
  -- A placeholder gets a parameter only if no declared one fills it, so the two kinds share no key.
  refine ⟨he.sublist (List.filter_sublist.map _), ?_, fun k hk hk' => ?_⟩
  · rw [List.map_map]
    exact (nodup_eraseDups _).map fun n n' h => (Prod.mk.inj h).1
  · obtain ⟨p, hp, rfl⟩ := List.mem_map.mp hk
    obtain ⟨q, hq, hkey⟩ := List.mem_map.mp hk'
    obtain ⟨n, hn, rfl⟩ := List.mem_map.mp hq
    exact (mem_undeclaredPlaceholders.mp hn).2 p (List.mem_of_mem_filter hp) hkey.symm

/-- The argument for a placeholder is the one whose parameter fills it. -/
theorem exists_argumentName (names : TypeNames) (he : (e.parameters.map Parameter.key).Nodup)
    {step : List Char × List Char} (hstep : step ∈ (PathTemplate.ofString e.path).steps) :
    ∃ a ∈ e.arguments names, e.argumentName names step.1 = a.name ∧
      ∀ a' ∈ e.arguments names, a'.parameter.fills (String.ofList step.1) = true ↔ a' = a := by
  obtain ⟨a, ha⟩ := exists_argument names he (List.mem_map_of_mem hstep)
  have hmem : ∀ a', a' ∈ e.arguments names ∧ a'.parameter.fills (String.ofList step.1) = true ↔
      a' = a := by
    intro a'
    -- That exactly one argument fills the placeholder is known as a list with one element.
    have hone : a' ∈ (e.arguments names).filter (·.parameter.fills (String.ofList step.1)) ↔
        a' = a := by
      rw [ha, List.mem_singleton]
    rwa [List.mem_filter] at hone
  have hname : e.argumentName names step.1 = a.name := by
    unfold argumentName
    rw [ha]
    rfl
  exact ⟨a, ((hmem a).mpr rfl).1, hname, fun a' ha' => by rw [← hmem, and_iff_right ha']⟩

/-- What is put into the address: the base address, and the arguments for the placeholders. -/
theorem substitution_mem_denoted {expression : String} {ident : List Char → String}
    {t : PathTemplate} : .substitution expression ∈ Url.denoted ident t ↔
      expression = "this.baseUrl" ∨
        ∃ step ∈ t.steps, expression = Url.encodedArgument (ident step.1) := by
  have hdenoted : Url.denoted ident t = .substitution "this.baseUrl" :: t.lead.map .char ++
      t.steps.flatMap fun s =>
        .substitution (Url.encodedArgument (ident s.1)) :: s.2.map .char := rfl
  -- The texts between the placeholders substitute nothing.
  have htext : ∀ cs : List Char, TemplateLiteral.Piece.substitution expression ∉ cs.map .char := by
    intro cs hmem
    obtain ⟨c, -, hc⟩ := List.mem_map.mp hmem
    cases hc
  rw [hdenoted, List.mem_append, List.mem_cons, List.mem_flatMap, or_iff_left (htext t.lead),
    TemplateLiteral.Piece.substitution.injEq]
  refine or_congr_right (exists_congr fun step => and_congr_right fun _ => ?_)
  rw [List.mem_cons, or_iff_left (htext step.2), TemplateLiteral.Piece.substitution.injEq]

/-- An argument of the path is in the address if the path has a placeholder for it. -/
theorem mem_denoted_iff (he : (e.parameters.map Parameter.key).Nodup) {a : Argument}
    (ha : a ∈ e.arguments names) (hpath : a.parameter.location = .path) :
    .substitution (Url.encodedArgument a.name)
        ∈ Url.denoted (e.argumentName names) (PathTemplate.ofString e.path) ↔
      a.parameter.name ∈ (PathTemplate.ofString e.path).names := by
  have hnodup := (fresh_nameArguments names e.surfacedParameters e.takenNames.1).1
  have hfills : ∀ n, a.parameter.fills n = true ↔ a.parameter.name = n := by
    intro n
    simp [Parameter.fills, Parameter.key, hpath]
  rw [substitution_mem_denoted, or_iff_right (Url.encodedArgument_ne_baseUrl _),
    PathTemplate.names, List.mem_map]
  refine exists_congr fun step => and_congr_right fun hstep => ?_
  -- The argument that fills the placeholder is the only one that is encoded by its name.
  obtain ⟨a', ha', hname, honly⟩ := exists_argumentName names he hstep
  rw [hname, eq_comm (a := String.ofList _), ← hfills, honly a ha]
  constructor
  · intro h
    exact List.inj_on_of_nodup_map hnodup ha ha' (Url.encodedArgument_injective h)
  · rintro rfl
    rfl

/-- Arguments in one location are told apart by the names of their parameters. -/
theorem nodup_name_arguments (names : TypeNames) (he : (e.parameters.map Parameter.key).Nodup)
    (l : Location) :
    (((e.arguments names).filter (·.parameter.location = l)).map
      fun a => a.parameter.name).Nodup := by
  have hkeys := (nodup_key_arguments names he).sublist
    ((List.filter_sublist (p := (·.parameter.location = l))).map _)
  -- In one location the key is the name and the location, so names are told apart as keys are.
  have hmap : ((e.arguments names).filter (·.parameter.location = l)).map (·.parameter.key)
      = (((e.arguments names).filter (·.parameter.location = l)).map (·.parameter.name)).map
        (·, l) := by
    rw [List.map_map]
    refine List.map_congr_left fun a ha => ?_
    have hlocation : a.parameter.location = l := by simpa using (List.mem_filter.mp ha).2
    exact Prod.ext rfl hlocation
  rw [hmap] at hkeys
  exact hkeys.of_map _

/-- How a call uses the arguments of the endpoint and the body that is listed. -/
structure Usage (e : Endpoint) (names : TypeNames) (arguments : List Argument)
    (body : Option Signature.Entry) (r : Call.Reading) : Prop where
  url : r.url = Url.denoted (e.argumentName names) (PathTemplate.ofString e.path)
  bindings : r.bindings =
    (arguments.filter (·.parameter.location = .query)).map (Argument.binding "params") ++
      (arguments.filter (·.parameter.location = .header)).map (Argument.binding "headers")
  /-- No name is given twice in one option. -/
  nodup : (r.bindings.map fun b => (b.option, b.name)).Nodup
  /-- An argument is in its place, but one of the path only if the path has a place for it. -/
  argument : ∀ a ∈ arguments, a.UsedIn r ↔ (a.parameter.location = .path →
    a.parameter.name ∈ (PathTemplate.ofString e.path).names)
  /-- The body is sent by the verbs that send something. -/
  body : ∀ x ∈ body, r.payload = some x.ident ↔ Text.lower e.method ∈ payloadVerbs

/-- The call uses the arguments as their places ask: those of the path in the address, the others in
their options, and the body as payload if the verb sends one. -/
theorem usage_callWith (he : (e.parameters.map Parameter.key).Nodup) (bodyType : String) :
    e.Usage names (e.arguments names) (e.listedBody bodyType)
      ⟨Url.denoted (e.argumentName names) (PathTemplate.ofString e.path),
        (e.callWith names).payload,
        (e.callWith names).query.map (Argument.binding "params") ++
          (e.callWith names).headers.map (Argument.binding "headers")⟩ := by
  refine { url := rfl, bindings := rfl, nodup := ?_, argument := fun a ha => ?_, body := ?_ }
  · -- Two parameters may share a name, but not in one location.
    have hkeys : ∀ (option : String) (l : Location),
        (((e.arguments names).filter (·.parameter.location = l)).map
          ((fun b => (b.option, b.name)) ∘ Argument.binding option)).Nodup := by
      intro option l
      have hnames := (nodup_name_arguments names he l).map
        (f := fun n => (option, n)) fun n n' h => (Prod.mk.inj h).2
      rwa [List.map_map] at hnames
    rw [List.map_append, List.map_map, List.map_map, List.nodup_append']
    refine ⟨hkeys _ _, hkeys _ _, fun k hk hk' => ?_⟩
    obtain ⟨a, -, rfl⟩ := List.mem_map.mp hk
    obtain ⟨a', -, hkey⟩ := List.mem_map.mp hk'
    -- One option is not the other, so what is in both would need them to be one.
    have hoption : "headers" = "params" := (Prod.mk.inj hkey).1
    exact absurd hoption (by decide)
  · have hsurfaced : a.parameter.location ≠ .cookie := by
      simpa using (List.mem_filter.mp (mem_surfacedParameters ha)).2
    -- Where an argument goes is decided by its location alone.
    have hfilter : ∀ l, a.parameter.location = l →
        a ∈ (e.arguments names).filter (·.parameter.location = l) := fun l hl =>
      List.mem_filter.mpr ⟨ha, decide_eq_true hl⟩
    unfold Argument.UsedIn
    cases hlocation : a.parameter.location with
    | path => simpa using mem_denoted_iff he ha hlocation
    | query =>
      refine iff_of_true (List.mem_append_left _ (List.mem_map_of_mem (hfilter _ hlocation))) ?_
      rintro ⟨⟩
    | header =>
      refine iff_of_true (List.mem_append_right _ (List.mem_map_of_mem (hfilter _ hlocation))) ?_
      rintro ⟨⟩
    | cookie => exact absurd hlocation hsurfaced
  · intro x hx
    obtain ⟨n, hn, rfl⟩ := Option.map_eq_some_iff.mp hx
    simp [callWith, hn]

/-- What is sent is the body, or stands for none. -/
theorem proper_payload {w : String} (h : w ∈ (e.callWith names).payload) : Name.Proper w := by
  have hbody : Name.Proper "body" := Name.proper_of_isIdentifier (by decide) (by decide)
  have hnone : Name.Proper "undefined" := Name.proper_of_isIdentifier (by decide) (by decide)
  unfold callWith at h
  dsimp only at h
  split at h
  · obtain rfl : e.takenNames.2.getD "undefined" = w := by simpa using h
    cases hn : e.takenNames.2 with
    | none => exact hnone
    | some n =>
      obtain rfl := eq_body_of_takenNames hn
      exact hbody
  · cases h

end Endpoint

/-- Every method uses the arguments that it lists, each in its place and under the name of its
parameter, except those of the path without a placeholder and a body where nothing is sent.
No name may have a line feed at its end, which would be read as no part of it. -/
theorem Builder.uses_arguments {g : Graph} {components : Components} {path method : String}
    {shared operation : Value} {e : Endpoint} {b b' : Builder} {name : String} {m : Method}
    (he : (Endpoint.read g components path method shared operation).outcome = .ok e)
    (hm : (Builder.method e name).Gives b m b')
    (hnames : ∀ p ∈ e.surfacedParameters, ¬ Name.EndsLine p.name) :
    ∃ arguments body r, e.Listing b.typeNames m arguments body ∧
      Call.Reading.read m.callArguments.toList = some r ∧
      e.Usage b.typeNames arguments body r := by
  obtain ⟨-, -, hkeys⟩ := Endpoint.of_read_eq_ok he
  obtain ⟨-, bodyType, -, -, returnType, -, -, -, rfl⟩ := gives_method_iff.mp hm
  -- The text of the call is read by readers of its own, which know nothing of the endpoint; then
  -- what they read is compared with what it was made of.
  have hread := Call.read_text (c := e.callWith b.typeNames)
    (fun rest => Url.read_expression (e.supplied b.typeNames hkeys))
    (fun w hw => Endpoint.proper_payload hw) fun a ha => by
      refine Endpoint.legible_arguments b.typeNames hnames a ?_
      rcases List.mem_append.mp ha with h | h <;> exact List.mem_of_mem_filter h
  exact ⟨_, _, _, e.listing_methodWith b.typeNames name bodyType returnType, hread,
    e.usage_callWith hkeys bodyType⟩

/-- An operation with an argument in every place. Two parameters share a name, and the name of
another one is none that an argument can have. -/
def fullGraph : Graph where
  nodes := #[
    .map [(.text "parameters", .node 1), (.text "requestBody", .node 5)],
    .list [.node 2, .node 3, .node 4],
    .map [(.text "name", .text "x-y"), (.text "in", .text "query")],
    .map [(.text "name", .text "id"), (.text "in", .text "query")],
    .map [(.text "name", .text "id"), (.text "in", .text "header")],
    .map []]

/-- The endpoint that the graph is read as. -/
def fullEndpoint : Endpoint where
  path := "/a/\x7bid\x7d"
  method := "POST"
  operationId := none
  summary := ""
  description := ""
  tags := []
  parameters := [
    ⟨"x-y", .query, false, .unknown "", ""⟩,
    ⟨"id", .query, false, .unknown "", ""⟩,
    ⟨"id", .header, false, .unknown "", ""⟩]
  requestBody := some ⟨false, []⟩
  responses := []

/-- What the call of the endpoint is to be read as. -/
def fullReading : Call.Reading where
  url := [.substitution "this.baseUrl", .char '/', .char 'a', .char '/',
    .substitution "encodeURIComponent(String(id3))"]
  payload := some "body"
  bindings := [⟨"params", "x-y", "xY"⟩, ⟨"params", "id", "id"⟩, ⟨"headers", "id", "id2"⟩]

/-- All places at once: two parameters of one name in different options, a name that has to be put
into quotes, a placeholder without a declaration, and a body. -/
theorem Builder.uses_arguments_full :
    (Endpoint.read fullGraph .absent fullEndpoint.path "post" .null (.node 0)).outcome
        = .ok fullEndpoint ∧
      (∀ p ∈ fullEndpoint.surfacedParameters, ¬ Name.EndsLine p.name) ∧
      ∃ m b' arguments body, (Builder.method fullEndpoint "add").Gives (ofDocument default) m b' ∧
        m.signature = "id3: string, body?: any, xY?: any, id?: any, id2?: any" ∧
        fullEndpoint.Listing (ofDocument default).typeNames m arguments body ∧
        Call.Reading.read m.callArguments.toList = some fullReading ∧
        fullEndpoint.Usage (ofDocument default).typeNames arguments body fullReading := by
  have he : (Endpoint.read fullGraph .absent fullEndpoint.path "post" .null (.node 0)).outcome
      = .ok fullEndpoint := rfl
  have hnames : ∀ p ∈ fullEndpoint.surfacedParameters, ¬ Name.EndsLine p.name := by
    decide +kernel
  have hrun : ((Builder.method fullEndpoint "add").run (ofDocument default)).2.outcome.map
        (fun m => (m.signature, Call.Reading.read m.callArguments.toList))
      = .ok ("id3: string, body?: any, xY?: any, id?: any, id2?: any", some fullReading) := by
    decide +kernel
  refine ⟨he, hnames, ?_⟩
  obtain ⟨m, b', hm, hmade⟩ := Work.exists_gives_of_map hrun
  obtain ⟨hsignature, hfull⟩ := Prod.mk.inj hmade
  obtain ⟨arguments, body, r, hlisting, hread, husage⟩ := uses_arguments he hm hnames
  obtain rfl : r = fullReading := Option.some.inj (hread.symm.trans hfull)
  exact ⟨m, b', arguments, body, hm, hsignature, hlisting, hread, husage⟩

/-- An operation with a body. -/
def bodyGraph : Graph where
  nodes := #[.map [(.text "requestBody", .node 1)], .map [(.text "content", .node 2)], .map []]

/-- A deletion with a body. -/
def bodyEndpoint : Endpoint where
  path := "/a"
  method := "DELETE"
  operationId := none
  summary := ""
  description := ""
  tags := []
  parameters := []
  requestBody := some ⟨false, []⟩
  responses := []

/-- The body of a deletion is an argument of its method, and the call leaves it out. -/
theorem Builder.body_of_deletion_unused :
    (Endpoint.read bodyGraph .absent bodyEndpoint.path "delete" .null (.node 0)).outcome
        = .ok bodyEndpoint ∧
      ∃ m b', (Builder.method bodyEndpoint "deleteA").Gives (ofDocument default) m b' ∧
        m.signature = "body?: any" ∧
        Call.Reading.read m.callArguments.toList
          = some ⟨[.substitution "this.baseUrl", .char '/', .char 'a'], none, []⟩ := by
  have hrun : ((Builder.method bodyEndpoint "deleteA").run (ofDocument default)).2.outcome.map
        (fun m => (m.signature, Call.Reading.read m.callArguments.toList))
      = .ok ("body?: any",
          some ⟨[.substitution "this.baseUrl", .char '/', .char 'a'], none, []⟩) := by
    decide +kernel
  refine ⟨rfl, ?_⟩
  obtain ⟨m, b', hm, hmade⟩ := Work.exists_gives_of_map hrun
  obtain ⟨hsignature, hread⟩ := Prod.mk.inj hmade
  exact ⟨m, b', hm, hsignature, hread⟩

end TypedClient
