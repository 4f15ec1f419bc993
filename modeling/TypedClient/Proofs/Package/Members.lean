import TypedClient.Proofs.Client.Signature
import TypedClient.Proofs.Client.TypeNames
import TypedClient.Proofs.Endpoint.Reading
import TypedClient.Proofs.Name.Spelling
import TypedClient.Proofs.Package.Comments

/-!
# `TypedClient.Proofs.Package.Members`: the members of the class and what methods use

The class of a client has a constructor, two properties and the methods. Methods are told apart from
each other, and arguments from the body and from the local variable of a method. But the names of
the other members are kept from no method, and those of the functions that encode a path from no
argument. They are given away where a document asks for them, by the id of an operation or by the
name of a parameter.

* `ClientContext.members`, `Package.declares_members`: the members, in the order of the text.
* `bodyWords`: the names that the body of a method may use.
* `Builder.members_nodup_iff`: when the members are distinct, and which arguments have the name of
  something that the body uses. `Builder.members_clash`: a client in which this goes wrong.
-/

set_option autoImplicit false

namespace TypedClient

open Work
open Name (toIdentifier baseName isNamed uniqueNames)

/-- The members that the class has beside its methods. -/
def classMembers : List String := ["constructor", "http", "baseUrl"]

/-- The members of the class, in order. -/
def ClientContext.members (c : ClientContext) : List String :=
  classMembers ++ c.methods.map Method.name

/-- The names that the body of a method may use besides its arguments: its local variable, and the
functions that encode the arguments of the path. -/
def bodyWords : List String := methodLocals ++ ["encodeURIComponent", "String"]

/-! ### The class -/

namespace Package

/-- One of the lines begins with a member of the name: the constructor, a property or a method. -/
def Declares (name : String) (lines : List String) : Prop :=
  ∃ lead ∈ ["  ", "    private readonly ", "  async "], ∃ mark ∈ ["(", ": "], ∃ rest,
    lead ++ name ++ mark ++ rest ∈ lines

/-- Lines of groups in a row are the texts of the groups in a row. -/
theorem unlines_flatten (groups : List (List String)) :
    unlines groups.flatten = String.join (groups.map unlines) := by
  induction groups with
  | nil => rfl
  | cons ls rest ih => rw [List.flatten_cons, unlines_append, ih, List.map_cons, String.join_cons]

/-- The text of a method is lines, one of which declares it. -/
theorem exists_methodText (m : Method) :
    ∃ lines, methodText m = unlines lines ∧ Declares m.name lines := by
  refine ⟨_, rfl, "  async ", by decide, "(", by decide,
    m.signature ++ "): Promise<" ++ m.returnType ++ "> \x7b", ?_⟩
  simp [String.append_assoc]

/-- A property with what stands behind its name. -/
theorem declares_property {name : String} {lines : List String} (line rest : String)
    (hline : "    private readonly " ++ name ++ ": " = line) (h : line ++ rest ∈ lines) :
    Declares name lines :=
  ⟨"    private readonly ", by decide, ": ", by decide, rest, by rwa [hline]⟩

/-- The text of the class declares its members in their order, each in a group of lines of its own:
the constructor and its two properties, and after them the methods. -/
theorem declares_members (c : ClientContext) : ∃ start groups,
    clientText c = unlines (start ++ groups.flatten ++ ["\x7d"]) ∧
      List.Forall₂ Declares c.members groups := by
  -- What stands before the class depends on the document, and declares no member.
  obtain ⟨start, hstart⟩ : ∃ start, clientText c = unlines (start ++ [
      "  constructor(",
      "    private readonly http: " ++ c.transport ++ ",",
      "    private readonly baseUrl: string = " ++ c.baseUrl ++ ",",
      "  ) \x7b\x7d"]) ++ String.join (c.methods.map methodText) ++ "\x7d\n" := by
    unfold clientText
    dsimp only
    rw [List.append_cons _ "", List.append_cons _ ("export class " ++ c.clientClass ++ " \x7b")]
    exact ⟨_, rfl⟩
  -- Each method is a group of lines of its own.
  choose lines hlines hdeclares using exists_methodText
  refine ⟨start, ["  constructor("] :: ["    private readonly http: " ++ c.transport ++ ","] ::
    ["    private readonly baseUrl: string = " ++ c.baseUrl ++ ",", "  ) \x7b\x7d"] ::
      c.methods.map lines, ?_, ?_⟩
  · have hmethods : String.join (c.methods.map methodText)
        = unlines (c.methods.map lines).flatten := by
      rw [unlines_flatten, List.map_map, funext hlines]
      rfl
    rw [hstart, hmethods, List.flatten_cons, List.flatten_cons, List.flatten_cons]
    simp only [unlines_append]
    simp [unlines, String.append_assoc]
  · refine .cons ?_ (.cons ?_ (.cons ?_ ?_))
    · exact ⟨"  ", by decide, "(", by decide, "", by decide⟩
    · exact declares_property "    private readonly http: " (c.transport ++ ",") (by decide)
        (by rw [← String.append_assoc]; exact List.mem_cons_self)
    · exact declares_property "    private readonly baseUrl: " ("string = " ++ (c.baseUrl ++ ","))
        (by decide) (by rw [← String.append_assoc, ← String.append_assoc]; exact List.mem_cons_self)
    · exact List.forall₂_map_left_iff.mpr (List.forall₂_map_right_iff.mpr
        (List.forall₂_same.mpr fun m _ => hdeclares m))

end Package

/-! ### Methods -/

/-- The HTTP methods begin with other letters than the members of the class. -/
theorem exists_head_of_mem_httpMethods {method : String} (h : method ∈ httpMethods) :
    ∃ c, (Text.lower method).toList.head? = some c ∧ c.isLower = true ∧
      ∀ w ∈ classMembers, w.toList.head? ≠ some c := by
  have hall : httpMethods.all (fun m => (Text.lower m).toList.head?.any fun c =>
      c.isLower && classMembers.all fun w => w.toList.head? != some c) = true := by
    decide +kernel
  have hmethod := List.all_eq_true.mp hall method h
  simp only [Option.any_eq_true, Bool.and_eq_true, List.all_eq_true, bne_iff_ne] at hmethod
  exact hmethod

/-- The name of an operation that the document gives none begins with another letter than the
members of the class. -/
theorem head?_baseName_ne {r : Route} (hmethod : r.method ∈ httpMethods)
    (hnamed : isNamed r = false) {w : String} (hw : w ∈ classMembers) :
    (baseName r).toList.head? ≠ w.toList.head? := by
  obtain ⟨c, hc, hlower, hother⟩ := exists_head_of_mem_httpMethods hmethod
  have hne : Text.lower r.method ≠ "" := by
    intro hempty
    rw [hempty] at hc
    cases hc
  -- The name is the verb and what is made of the path behind it.
  have hname : (Name.methodName r).toList.head? = some c := by
    rw [Name.methodName_of_not_isNamed hnamed, Name.head?_append hne, hc]
  rw [baseName, Name.head?_toIdentifier hname hlower]
  exact (hother w hw).symm

namespace Builder

variable {d : Document} {b b' : Builder} {es : List Endpoint} {e : Endpoint} {w : String}

/-- A method has the name of another member exactly if the document names an operation like it. -/
theorem mem_methodNames_iff (hes : ∀ e ∈ es, e.method ∈ httpMethods) (hw : w ∈ classMembers) :
    w ∈ methodNames es ↔ ∃ e ∈ es, ∃ id ∈ e.operationId, toIdentifier id = w := by
  have hdigit : Name.endsInDigit w = false := by
    have hall : classMembers.all (!Name.endsInDigit ·) = true := by decide
    simpa using List.all_eq_true.mp hall w hw
  -- A name that is made of method and path begins with the method, so it can be left out.
  have hroutes : ∀ r ∈ es.map Endpoint.toRoute, isNamed r = false →
      (baseName r).toList.head? ≠ w.toList.head? := by
    intro r hr hnamed
    obtain ⟨e, he, rfl⟩ := List.mem_map.mp hr
    exact head?_baseName_ne (hes e he) hnamed hw
  rw [methodNames, Name.mem_uniqueNames_iff hdigit hroutes]
  constructor
  · rintro ⟨r, hr, hnamed, hbase⟩
    obtain ⟨e, he, rfl⟩ := List.mem_map.mp hr
    obtain ⟨id, hid, -, hname⟩ := Name.isNamed_iff.mp hnamed
    exact ⟨e, he, id, hid, by rw [← hbase, baseName, hname]⟩
  · rintro ⟨e, he, id, hid, hid'⟩
    -- An empty id is made into no member of the class.
    have hne : id ≠ "" := by
      rintro rfl
      rw [← hid'] at hw
      exact absurd hw (by decide)
    have hname := Name.methodName_of_id hid hne
    exact ⟨e.toRoute, List.mem_map_of_mem he, Name.isNamed_iff.mpr ⟨id, hid, hne, hname⟩,
      by rw [baseName, hname, hid']⟩

/-- The names of methods are distinct among themselves, as they are handed out one after the
other. -/
theorem nodup_methodNames (es : List Endpoint) : (methodNames es).Nodup := by
  have h := Name.nodup_takenAfter (es.map Endpoint.toRoute) ⟨[]⟩ List.nodup_nil
  rwa [Name.taken_takenAfter_nil, List.nodup_reverse] at h

/-- The members are distinct exactly if no method has the name of another member. -/
theorem nodup_members_iff {c : ClientContext} (hes : ∀ e ∈ es, e.method ∈ httpMethods)
    (hnames : c.methods.map Method.name = methodNames es) :
    c.members.Nodup ↔ ∀ e ∈ es, ∀ id ∈ e.operationId, toIdentifier id ∉ classMembers := by
  have hnodup := nodup_methodNames es
  have hclass : classMembers.Nodup := by decide
  rw [ClientContext.members, hnames, List.nodup_append']
  simp only [hclass, hnodup, true_and, List.Disjoint]
  -- The one way a member can be there twice is that a method has its name.
  constructor
  · intro h e he id hid hmem
    exact h hmem ((mem_methodNames_iff hes hmem).mpr ⟨e, he, id, hid, rfl⟩)
  · intro h w hw hname
    obtain ⟨e, he, id, hid, rfl⟩ := (mem_methodNames_iff hes hw).mp hname
    exact h e he id hid hw

/-! ### Arguments -/

/-- The names of arguments are those that a registry hands out for the names of the parameters. -/
theorem map_name_nameArguments (names : TypeNames) (ps : List Parameter) :
    ∀ r : Name.Registry, (nameArguments names r ps).map Argument.name
      = r.handedOut (ps.map fun p => toIdentifier p.name) := by
  induction ps with
  | nil => exact fun _ => rfl
  | cons p rest ih =>
    intro r
    rw [nameArguments, List.map_cons, List.map_cons, ih]
    rfl

/-- An argument has the name of a function that the body uses exactly if a parameter is named like
it, and none has the name of the local variable. -/
theorem mem_idents_iff (e : Endpoint) (names : TypeNames) (bodyType : String)
    (hw : w ∈ bodyWords) :
    w ∈ (Signature.listed (e.arguments names) (e.listedBody bodyType)).map Signature.Entry.ident ↔
      w ∉ methodLocals ∧ ∃ p ∈ e.surfacedParameters, toIdentifier p.name = w := by
  have hdigit : Name.endsInDigit w = false := by
    have hall : bodyWords.all (!Name.endsInDigit ·) = true := by decide
    simpa using List.all_eq_true.mp hall w hw
  -- The body has a name of its own, which is none of these.
  have hbody : w ∉ e.takenNames.2.toList := by
    intro h
    rw [Option.mem_toList] at h
    rw [Endpoint.eq_body_of_takenNames h] at hw
    exact absurd hw (by decide)
  rw [(e.idents_listed names bodyType).mem_iff, List.mem_append, or_iff_right hbody,
    Endpoint.arguments, map_name_nameArguments]
  -- The local variable is taken before the parameters are named, the functions are not.
  by_cases hlocal : w ∈ methodLocals
  · have htaken : w ∈ e.takenNames.1.taken := by
      rw [Endpoint.taken_takenNames]
      exact List.mem_append_right _ hlocal
    exact iff_of_false (Name.Registry.not_mem_handedOut _ _ htaken) fun h => h.1 hlocal
  · have hfree : w ∉ e.takenNames.1.taken := by
      rw [Endpoint.taken_takenNames, List.mem_append, not_or]
      exact ⟨hbody, hlocal⟩
    rw [Name.Registry.mem_handedOut_iff hdigit _ _ hfree]
    simp [hlocal]

/-- What the list of arguments of a method names: of the names that its body uses, those that a
parameter asks for, but not the local variable. -/
structure Shadows (e : Endpoint) (names : TypeNames) (m : Method) (body : Option Signature.Entry) :
    Prop where
  signature : m.signature = ", ".intercalate
    ((Signature.listed (e.arguments names) body).map Signature.Entry.text)
  idents : ∀ w ∈ bodyWords,
    (w ∈ (Signature.listed (e.arguments names) body).map Signature.Entry.ident ↔
      w ∉ methodLocals ∧ ∃ p ∈ e.surfacedParameters, toIdentifier p.name = w)

/-- The method that is made for an endpoint lists arguments of the names that its parameters ask
for. -/
theorem shadows_methodWith (e : Endpoint) (names : TypeNames) (name bodyType returnType : String) :
    Shadows e names (e.methodWith names name bodyType returnType) (e.listedBody bodyType) where
  signature := by
    rw [← Endpoint.entries_signatureWith]
    rfl
  idents _ hw := mem_idents_iff e names bodyType hw

/-! ### The client -/

/-- Methods are distinct, and the client declares them as members of a class. The members are
distinct exactly if the document names no operation like one of the other members. No argument has
the name of the local variable of a method; one has the name of a function that encodes arguments of
the path exactly if its parameter has. -/
theorem members_nodup_iff (d : Document) (es : List Endpoint) (hes : d.endpoints.outcome = .ok es)
    (httpClientImport typesImport : String) (b b' : Builder) (c : ClientContext)
    (hg : (clientContext es httpClientImport typesImport).Gives b c b') :
    (∃ start groups, Package.clientText c = Package.unlines (start ++ groups.flatten ++ ["\x7d"]) ∧
      List.Forall₂ Package.Declares c.members groups) ∧
    (c.methods.map Method.name).Nodup ∧
    (c.members.Nodup ↔ ∀ e ∈ es, ∀ id ∈ e.operationId, toIdentifier id ∉ classMembers) ∧
    List.Forall₂ (fun e m => ∃ body, Shadows e b.typeNames m body) es c.methods := by
  obtain ⟨b₁, hall, hms, -⟩ := gives_clientContext hg
  have hmethods : ∀ e ∈ es, e.method ∈ httpMethods := Endpoint.method_of_readAll hes
  have hnames := name_of_gives_methods hms
  have hstart : b₁.typeNames = b.typeNames :=
    (hall.keeps (stable_extends b).declareAll (Extends.refl b)).typeNames
  refine ⟨Package.declares_members c, hnames ▸ nodup_methodNames es,
    nodup_members_iff hmethods hnames, forall₂_of_zip_methodNames
      ((methodWith_of_gives_methods hms).imp ?_)⟩
  rintro p m ⟨body, result, rfl⟩
  rw [hstart]
  exact ⟨_, shadows_methodWith p.1 b.typeNames p.2 body result⟩

/-- A document that names an operation like a property of the class, and a parameter of its path
like a function. -/
def clashingDocument : Document :=
  { petsDocument with
    graph := ⟨#[.map [(.text "get", .node 1)], .map [(.text "operationId", .text "base-url")]]⟩
    paths := [("/pets/\x7bString\x7d", .node 0)] }

/-- The endpoints of that document, and the client for them. -/
theorem exists_client_of_clashing : ∃ es c b', clashingDocument.endpoints.outcome = .ok es ∧
    (clientContext es "./http-client" "./types").Gives (ofDocument clashingDocument) c b' ∧
    c.members = ["constructor", "http", "baseUrl", "baseUrl"] ∧
    c.methods.map (fun m => (m.signature, m.callArguments)) = [("String: string",
      "`$\x7bthis.baseUrl\x7d/pets/$\x7bencodeURIComponent(String(String))\x7d`")] := by
  have hrun : (clashingDocument.endpoints.outcome >>= fun es =>
      ((clientContext es "./http-client" "./types").run (ofDocument clashingDocument)).2.outcome.map
        fun c => (c.members, c.methods.map fun m => (m.signature, m.callArguments)))
      = .ok (["constructor", "http", "baseUrl", "baseUrl"], [("String: string",
          "`$\x7bthis.baseUrl\x7d/pets/$\x7bencodeURIComponent(String(String))\x7d`")]) := by
    decide +kernel
  obtain ⟨es, hes, hclient⟩ := bind_eq_ok_iff.mp hrun
  obtain ⟨c, b', hg, hmade⟩ := exists_gives_of_map hclient
  obtain ⟨hmembers, hmethods⟩ := Prod.mk.inj hmade
  exact ⟨es, c, b', hes, hg, hmembers, hmethods⟩

/-- The condition is not met here: the id `base-url` is made into the name of a property. -/
theorem members_nodup_iff_clashing : ∃ es c b', clashingDocument.endpoints.outcome = .ok es ∧
    (clientContext es "./http-client" "./types").Gives (ofDocument clashingDocument) c b' ∧
    (c.methods.map Method.name).Nodup ∧
    ¬ (∀ e ∈ es, ∀ id ∈ e.operationId, toIdentifier id ∉ classMembers) := by
  obtain ⟨es, c, b', hes, hg, hmembers, -⟩ := exists_client_of_clashing
  obtain ⟨-, hmethods, hiff, -⟩ := members_nodup_iff clashingDocument es hes "./http-client"
    "./types" (ofDocument clashingDocument) b' c hg
  refine ⟨es, c, b', hes, hg, hmethods, fun h => ?_⟩
  have hnodup := hiff.mpr h
  rw [hmembers] at hnodup
  exact absurd hnodup (by decide)

/-- Two members of the class have one name, and a method calls its argument. -/
theorem members_clash : ∃ es c b', clashingDocument.endpoints.outcome = .ok es ∧
    (clientContext es "./http-client" "./types").Gives (ofDocument clashingDocument) c b' ∧
    ¬ c.members.Nodup ∧
    c.methods.map (fun m => (m.signature, m.callArguments)) = [("String: string",
      "`$\x7bthis.baseUrl\x7d/pets/$\x7bencodeURIComponent(String(String))\x7d`")] := by
  obtain ⟨es, c, b', hes, hg, hmembers, hmethods⟩ := exists_client_of_clashing
  refine ⟨es, c, b', hes, hg, ?_, hmethods⟩
  rw [hmembers]
  decide

end Builder

end TypedClient
