import Mathlib.Data.List.Nodup
import TypedClient.Proofs.Client.Method
import TypedClient.Proofs.Client.Url
import TypedClient.Proofs.Endpoint.Reading
import TypedClient.Proofs.Name.Identifier

/-!
# `TypedClient.Proofs.Client.Arguments`: the argument for each placeholder

The arguments of a method are the parameters of its endpoint, in order, under names of
their own. If no two parameters have one name and one location, then every placeholder of
the path has exactly one argument: that of the parameter that declares it, or that of the
parameter that stands for a placeholder without a declaration.

* `Endpoint.exists_argument`: the argument of a placeholder.
* `Builder.denotes_path`: the first argument of the call that a method makes is read as the
  path of its endpoint, with those arguments in the place of the placeholders.
-/

set_option autoImplicit false

namespace TypedClient

/-! ### Lists without repetitions -/

/-- Leaving repetitions out leaves no repetitions. The induction is on the length, since each step
goes on with a filtered list. -/
theorem nodup_eraseDups {α : Type} [BEq α] [LawfulBEq α] (l : List α) : l.eraseDups.Nodup := by
  induction h : l.length using Nat.strongRecOn generalizing l with
  | ind n ih =>
    cases l with
    | nil => exact List.nodup_nil
    | cons a as =>
      rw [List.eraseDups_cons, List.nodup_cons]
      have hlen : (as.filter fun b => !b == a).length < n := by
        have := List.length_filter_le (fun b => !b == a) as
        simp only [List.length_cons] at h
        omega
      exact ⟨by simp [List.mem_eraseDups], ih _ hlen _ rfl⟩

/-- Of several things no two of which look alike, one looks like a given one. -/
theorem filter_eq_singleton {α β : Type} [DecidableEq β] {f : α → β} {l : List α} {a : α}
    (hl : (l.map f).Nodup) (ha : a ∈ l) : (l.filter fun b => f b = f a) = [a] := by
  induction l with
  | nil => cases ha
  | cons b l ih =>
    rw [List.map_cons, List.nodup_cons] at hl
    rcases List.mem_cons.mp ha with rfl | ha
    · rw [List.filter_cons_of_pos (by simp), List.cons.injEq]
      refine ⟨rfl, List.filter_eq_nil_iff.mpr fun b hb => ?_⟩
      have hne : f b ≠ f a := fun h => hl.1 (h ▸ List.mem_map_of_mem hb)
      simpa using hne
    · have hne : f b ≠ f a := fun h => hl.1 (h ▸ List.mem_map_of_mem ha)
      rw [List.filter_cons_of_neg (by simpa using hne), ih hl.2 ha]

/-! ### Arguments and parameters -/

/-- There is one argument for each parameter, in the same order. -/
theorem parameter_nameArguments (names : TypeNames) (ps : List Parameter) :
    ∀ r : Name.Registry, (nameArguments names r ps).map Argument.parameter = ps := by
  induction ps with
  | nil => exact fun _ => rfl
  | cons p rest ih => exact fun r => congrArg (p :: ·) (ih _)

/-- The names of arguments are made of characters of names, whatever their parameters are called. -/
theorem isNameChar_nameArguments (names : TypeNames) (ps : List Parameter) :
    ∀ r : Name.Registry, ∀ a ∈ nameArguments names r ps, ∀ c ∈ a.name.toList,
      Name.isNameChar c = true := by
  induction ps with
  | nil => exact fun _ a ha => nomatch ha
  | cons p rest ih =>
    intro r a ha
    rcases List.mem_cons.mp ha with rfl | ha
    · exact Name.isNameChar_free (Name.isNameChar_toIdentifier p.name)
    · exact ih _ a ha

/-- The parameter is the one of the path with a name. -/
def Parameter.fills (p : Parameter) (placeholder : String) : Bool := p.key = (placeholder, .path)

namespace Endpoint

variable {e : Endpoint} {n : String}

/-- The parameters that fill a placeholder are declared, or stand for it. -/
theorem filter_fills_surfacedParameters (e : Endpoint) (n : String) :
    e.surfacedParameters.filter (·.fills n)
      = e.parameters.filter (·.fills n) ++
        (e.undeclaredPlaceholders.filter (· = n)).map placeholderParameter := by
  have hcookie : ∀ p : Parameter, (p.fills n && decide (p.location ≠ .cookie)) = p.fills n := by
    intro p
    cases hp : p.fills n with
    | false => rfl
    | true =>
      have : p.location = .path := (Prod.mk.inj (of_decide_eq_true hp)).2
      simp [this]
  have hstands : ∀ m : String, (placeholderParameter m).fills n = decide (m = n) := by
    intro m
    simp [Parameter.fills, Parameter.key, placeholderParameter]
  simp only [surfacedParameters, List.filter_filter, hcookie]
  simp only [allParameters, List.filter_append, List.filter_map, Function.comp_def, hstands]

/-- A name is declared by a parameter of the path. -/
theorem declared_iff : n ∈ (e.parameters.filter (·.location = .path)).map Parameter.name ↔
    ∃ p ∈ e.parameters, p.fills n = true := by
  simp only [List.mem_map, List.mem_filter, decide_eq_true_eq, Parameter.fills, Parameter.key,
    Prod.mk.injEq]
  exact exists_congr fun p => by tauto

/-- One parameter fills each placeholder. -/
theorem exists_filler (he : (e.parameters.map Parameter.key).Nodup)
    (hn : n ∈ (PathTemplate.ofString e.path).names) :
    ∃ p, e.surfacedParameters.filter (·.fills n) = [p] := by
  rw [filter_fills_surfacedParameters]
  by_cases hdeclared : ∃ p ∈ e.parameters, p.fills n = true
  · obtain ⟨p, hp, hfills⟩ := hdeclared
    have hkey : p.key = (n, .path) := of_decide_eq_true hfills
    have hown : e.parameters.filter (·.fills n) = [p] := by
      simpa only [Parameter.fills, hkey] using filter_eq_singleton he hp
    -- What is declared needs no parameter that stands for it.
    have hnone : e.undeclaredPlaceholders.filter (· = n) = [] := by
      refine List.filter_eq_nil_iff.mpr fun m hm hmn => ?_
      obtain rfl : m = n := of_decide_eq_true hmn
      simp only [undeclaredPlaceholders, List.mem_eraseDups, List.mem_filter] at hm
      have := declared_iff.mpr ⟨p, hp, hfills⟩
      simp_all
    exact ⟨p, by rw [hown, hnone]; rfl⟩
  · have hown : e.parameters.filter (·.fills n) = [] :=
      List.filter_eq_nil_iff.mpr fun p hp hfills => hdeclared ⟨p, hp, hfills⟩
    have hmem : n ∈ e.undeclaredPlaceholders := by
      rw [← declared_iff] at hdeclared
      simpa [undeclaredPlaceholders, List.mem_eraseDups, hn] using hdeclared
    -- A placeholder that the path has twice is listed once.
    have hone : e.undeclaredPlaceholders.filter (· = n) = [n] := by
      refine filter_eq_singleton (f := id) ?_ hmem
      simpa [undeclaredPlaceholders] using nodup_eraseDups _
    exact ⟨placeholderParameter n, by rw [hown, hone]; rfl⟩

/-- One argument fills each placeholder. -/
theorem exists_argument (names : TypeNames) (he : (e.parameters.map Parameter.key).Nodup)
    (hn : n ∈ (PathTemplate.ofString e.path).names) :
    ∃ a, (e.arguments names).filter (·.parameter.fills n) = [a] := by
  obtain ⟨p, hp⟩ := exists_filler he hn
  have hmap : ((e.arguments names).filter (·.parameter.fills n)).map Argument.parameter = [p] := by
    rw [← hp, ← parameter_nameArguments names e.surfacedParameters e.takenNames.1, List.filter_map]
    rfl
  obtain ⟨a, ha, -⟩ := List.map_eq_singleton_iff.mp hmap
  exact ⟨a, ha⟩

/-- The argument that fills a placeholder is found under its name. -/
theorem lookup_pathArguments {arguments : List Argument} {a : Argument}
    (ha : arguments.filter (·.parameter.fills n) = [a]) :
    (pathArguments arguments).lookup n = some a.name := by
  have hmem : ∀ b, b ∈ arguments ∧ b.parameter.fills n = true ↔ b = a := by
    intro b
    have hb : b ∈ arguments.filter (·.parameter.fills n) ↔ b = a := by rw [ha, List.mem_singleton]
    rwa [List.mem_filter] at hb
  rw [pathArguments, Assoc.lookup_ofList]
  obtain ⟨hargument, hfills⟩ := (hmem a).mpr rfl
  have hkey := Prod.mk.inj (of_decide_eq_true hfills)
  -- A table keeps the last entry of a key, but here there is only one.
  refine Assoc.lookup_eq_some_of_forall ?_ fun entry hentry hname => ?_
  · rw [List.mem_reverse, List.mem_map]
    exact ⟨a, List.mem_filter.mpr ⟨hargument, by simp [hkey.2]⟩, by rw [hkey.1]⟩
  · rw [List.mem_reverse, List.mem_map] at hentry
    obtain ⟨b, hb, rfl⟩ := hentry
    obtain ⟨hb, hpath⟩ := List.mem_filter.mp hb
    have hfills' : b.parameter.fills n = true :=
      decide_eq_true (Prod.ext hname (of_decide_eq_true hpath))
    rw [(hmem b).mp ⟨hb, hfills'⟩]

/-- The name of the argument that fills a placeholder. -/
def argumentName (e : Endpoint) (names : TypeNames) (placeholder : List Char) : String :=
  (((e.arguments names).filter (·.parameter.fills (String.ofList placeholder))).head?.map
    Argument.name).getD ""

/-- The names of arguments are no end of a substitution. -/
theorem not_mem_name {names : TypeNames} {a : Argument} (ha : a ∈ e.arguments names) :
    '\x7d' ∉ a.name.toList := by
  intro h
  have := isNameChar_nameArguments names e.surfacedParameters e.takenNames.1 a ha _ h
  exact absurd this (by decide)

/-- The arguments that a method puts into its address are there, for every placeholder. -/
theorem supplied (names : TypeNames) (he : (e.parameters.map Parameter.key).Nodup) :
    Url.Supplied (pathArguments (e.arguments names)) (e.argumentName names)
      (PathTemplate.ofString e.path).steps := by
  intro step hstep
  obtain ⟨a, ha⟩ := exists_argument names he (List.mem_map_of_mem hstep)
  have hname : e.argumentName names step.1 = a.name := by
    unfold argumentName
    rw [ha]
    rfl
  rw [hname]
  have hmem : a ∈ (e.arguments names).filter (·.parameter.fills (String.ofList step.1)) := by
    rw [ha]
    exact List.mem_singleton_self a
  exact ⟨lookup_pathArguments ha, not_mem_name (List.mem_of_mem_filter hmem)⟩

end Endpoint

namespace Signature

/-- The entries of the list of arguments. -/
def entries (s : Signature) : List String :=
  s.required.map Argument.declared ++
    (s.body.map fun (name, type, required) =>
      name ++ (if required then ": " else "?: ") ++ type).toList ++
    s.optional.map Argument.declared

/-- One entry is for the parameter of the path with a name, and it declares `ident`. -/
def Declares (s : Signature) (placeholder ident : String) : Prop :=
  ∃ a, (s.required ++ s.optional).filter (·.parameter.fills placeholder) = [a] ∧
    a.declared ∈ s.entries ∧ a.name = ident

end Signature

/-- The list of arguments declares one argument for each placeholder, and that is the one whose name
the address has in its place. -/
theorem Endpoint.declares_signatureWith {e : Endpoint} (names : TypeNames) (bodyType : String)
    (he : (e.parameters.map Parameter.key).Nodup) {step : List Char × List Char}
    (hstep : step ∈ (PathTemplate.ofString e.path).steps) :
    (e.signatureWith names bodyType).Declares (String.ofList step.1)
      (e.argumentName names step.1) := by
  obtain ⟨a, ha⟩ := e.exists_argument names he (List.mem_map_of_mem hstep)
  have hboth : ((e.signatureWith names bodyType).required ++
      (e.signatureWith names bodyType).optional).filter
        (·.parameter.fills (String.ofList step.1)) = [a] := by
    -- The one argument is among the required ones or among the optional ones.
    simp only [signatureWith, List.filter_append]
    rw [List.filter_comm, ha, List.filter_comm, ha]
    cases hr : a.parameter.required <;> simp [hr]
  have hmem : a ∈ (e.signatureWith names bodyType).required ++
      (e.signatureWith names bodyType).optional := by
    refine List.mem_of_mem_filter (p := (·.parameter.fills (String.ofList step.1))) ?_
    rw [hboth]
    exact List.mem_singleton_self a
  refine ⟨a, hboth, ?_, ?_⟩
  · unfold Signature.entries
    rcases List.mem_append.mp hmem with h | h
    · exact List.mem_append_left _ (List.mem_append_left _ (List.mem_map_of_mem h))
    · exact List.mem_append_right _ (List.mem_map_of_mem h)
  · unfold argumentName
    rw [ha]
    rfl

/-- The call of a method begins with one template literal that denotes the path of the
endpoint: the base address, the text of the path verbatim, and for each placeholder the
argument that the signature declares for it, encoded. -/
def Endpoint.AddressedBy (e : Endpoint) (names : TypeNames) (m : Method) : Prop :=
  ∃ (bodyType url : String) (others : List String) (ident : List Char → String),
    m.signature = ", ".intercalate (e.signatureWith names bodyType).entries ∧
    m.callArguments = ", ".intercalate (url :: others) ∧
    PathTemplate.Leftmost e.path.toList (PathTemplate.ofString e.path) ∧
    (∀ step ∈ (PathTemplate.ofString e.path).steps,
      (e.signatureWith names bodyType).Declares (String.ofList step.1) (ident step.1)) ∧
    ∀ rest, TemplateLiteral.read (url.toList ++ rest)
      = some (Url.denoted ident (PathTemplate.ofString e.path), rest)

/-- Every method of an endpoint that is read from a document calls the endpoint's path. -/
theorem Builder.denotes_path {g : Graph} {components : Components} {path method : String}
    {shared operation : Value} {e : Endpoint} {b b' : Builder} {name : String} {m : Method}
    (he : (Endpoint.read g components path method shared operation).outcome = .ok e)
    (hm : (Builder.method e name).Gives b m b') : e.AddressedBy b.typeNames m := by
  obtain ⟨-, -, hkeys⟩ := Endpoint.of_read_eq_ok he
  obtain ⟨-, bodyType, -, -, -, -, -, -, rfl⟩ := gives_method_iff.mp hm
  refine ⟨bodyType, (e.callWith b.typeNames).url, _, e.argumentName b.typeNames, rfl, rfl,
    PathTemplate.leftmost_ofString e.path, fun step hstep => ?_, fun rest => ?_⟩
  · exact e.declares_signatureWith b.typeNames bodyType hkeys hstep
  · exact Url.read_expression (e.supplied b.typeNames hkeys)

/-- An operation with one parameter of the path. -/
def seamGraph : Graph where
  nodes := #[
    .map [(.text "parameters", .node 1)],
    .list [.node 2],
    .map [(.text "name", .text "id"), (.text "in", .text "path")]]

/-- A path in which all that has to be escaped meets a placeholder. One of its placeholders
has no declaration. -/
def seamEndpoint : Endpoint where
  path := "/p$\x7bid\x7d`\\\x7by z\x7d"
  method := "GET"
  operationId := none
  summary := ""
  description := ""
  tags := []
  parameters := [⟨"id", .path, true, .unknown "", ""⟩]
  requestBody := none
  responses := []

/-- The address is read as the path, although a dollar sign stands right before a placeholder, and a
backtick and a backslash right behind it. -/
theorem Builder.denotes_path_seams :
    (Endpoint.read seamGraph .absent seamEndpoint.path "get" .null (.node 0)).outcome
        = .ok seamEndpoint ∧
      ∃ m b', (Builder.method seamEndpoint "read").Gives (ofDocument default) m b' ∧
        m.signature = "id: any, yZ: string" ∧
        TemplateLiteral.read m.callArguments.toList = some ([
          .substitution "this.baseUrl", .char '/', .char 'p', .char '$',
          .substitution "encodeURIComponent(String(id))", .char '`', .char '\\',
          .substitution "encodeURIComponent(String(yZ))"], []) ∧
        seamEndpoint.AddressedBy (ofDocument default).typeNames m := by
  have he : (Endpoint.read seamGraph .absent seamEndpoint.path "get" .null (.node 0)).outcome
      = .ok seamEndpoint := rfl
  have hrun : ((Builder.method seamEndpoint "read").run (ofDocument default)).2.outcome.map
        (fun m => (m.signature, TemplateLiteral.read m.callArguments.toList))
      = .ok ("id: any, yZ: string", some ([
          .substitution "this.baseUrl", .char '/', .char 'p', .char '$',
          .substitution "encodeURIComponent(String(id))", .char '`', .char '\\',
          .substitution "encodeURIComponent(String(yZ))"], [])) := by
    decide +kernel
  refine ⟨he, ?_⟩
  cases hm : ((Builder.method seamEndpoint "read").run (ofDocument default)).2.outcome with
  | error f =>
    rw [hm] at hrun
    cases hrun
  | ok m =>
    rw [hm] at hrun
    obtain ⟨hsignature, hread⟩ := Prod.mk.inj (Except.ok.inj hrun)
    exact ⟨m, _, ⟨hm, rfl⟩, hsignature, hread, denotes_path he ⟨hm, rfl⟩⟩

end TypedClient
