import TypedClient.Package.Layout
import TypedClient.Proofs.Client.Comment

/-!
# `TypedClient.Proofs.Package.Comments`: the comments of a package

The file of type declarations and the file of the client are comments with code between
them. A comment is made of lines, and it ends where it is meant to exactly if none of its
lines closes it.

* `Package.typesPieces`, `Package.clientPieces`: the two files, taken apart into comments
  and code.
* `Builder.Documented`: no comment of a declaration is closed by one of its lines. It holds
  of a new builder and is `Stable`.
* `Package.contained_render_iff`: which comments of the two files end where they are meant
  to, for all files that a document and its endpoints are rendered to.
-/

set_option autoImplicit false

namespace TypedClient

open Work Comment

namespace Package

/-- A piece of a file: a comment, or what stands between comments. -/
inductive Piece where
  | comment (text : String)
  | code (text : String)

/-- What a piece writes into its file. -/
def Piece.text : Piece → String
  | comment text => text
  | code text => text

/-- The file that pieces make up. -/
def joined (pieces : List Piece) : String := String.join (pieces.map Piece.text)

/-- Every comment among the pieces ends where its piece ends. -/
def Contained (pieces : List Piece) : Prop := ∀ text, .comment text ∈ pieces → IsComment text

/-! ### The pieces of a file -/

/-- What every header says last. -/
def generatedNote : String := "Generated by tsclientgen. Do not edit by hand."

/-- The first line of the header of the declarations. -/
def typesHeadline (c : TypesContext) : String :=
  "Type declarations for " ++ titleOr c.title "the API" ++ versionSuffix c.version ++ "."

/-- The first line of the header of the client. -/
def clientHeadline (c : ClientContext) : String :=
  titleOr c.title "API" ++ " client" ++
    (if c.version = "" then "" else " (" ++ c.version ++ ")") ++ "."

/-- The pieces of a declaration. Its comment is written only where the schema has a description. -/
def declarationPieces (d : Declaration) : List Piece :=
  [.code "\n"] ++ (if d.doc.isEmpty then [] else [.comment (framed "" d.doc), .code "\n"]) ++
    [.code (unlines [match d.kind with
      | .interface => "export interface " ++ d.name ++ " " ++ d.body
      | .typeAlias => "export type " ++ d.name ++ " = " ++ d.body ++ ";"])]

/-- The pieces of the declarations: a header, every declaration, and an empty export when there is
none, which makes the file a module. -/
def typesPieces (c : TypesContext) : List Piece :=
  [.comment (framed "" [typesHeadline c, "", generatedNote]), .code ("\n" ++ unlines [])] ++
    c.declarations.flatMap declarationPieces ++
    [.code (if c.declarations.isEmpty then unlines ["", "export \x7b\x7d;"] else "")]

/-- The pieces of a method: its comment and its code. -/
def methodPieces (m : Method) : List Piece :=
  [.code "\n", .code "  ", .comment (framed "  " m.doc), .code ("\n" ++ unlines [
    "  async " ++ m.name ++ "(" ++ m.signature ++ "): Promise<" ++ m.returnType ++ "> \x7b",
    "    const response = await this.http." ++ m.verb ++ "(" ++ m.callArguments ++ ");",
    "    return response.data;",
    "  \x7d"])]

/-- The pieces of the client: a header with the description of the document, the class and its
methods. -/
def clientPieces (c : ClientContext) : List Piece :=
  [.comment (framed "" ([clientHeadline c] ++ c.description ++ ["", generatedNote])),
    .code ("\n" ++ unlines ([
    "",
    "import type \x7b " ++ c.transport ++ " \x7d from " ++ textLiteral c.httpClientImport ++ ";"] ++
    (if c.typeImports.isEmpty then [] else
      ["import type \x7b"] ++ c.typeImports.map (fun name => "  " ++ name ++ ",") ++
      ["\x7d from " ++ textLiteral c.typesImport ++ ";"]) ++ [
    "",
    "export class " ++ c.clientClass ++ " \x7b",
    "  constructor(",
    "    private readonly http: " ++ c.transport ++ ",",
    "    private readonly baseUrl: string = " ++ c.baseUrl ++ ",",
    "  ) \x7b\x7d"]))] ++
    c.methods.flatMap methodPieces ++ [.code "\x7d\n"]

/-- Pieces in a row make up their files in a row. -/
theorem joined_append (ps qs : List Piece) : joined (ps ++ qs) = joined ps ++ joined qs := by
  simp [joined]

/-- Pieces that are made for every member of a list make up the texts of all of them. -/
theorem joined_flatMap {α : Type} (f : α → List Piece) (l : List α) :
    joined (l.flatMap f) = String.join (l.map fun a => joined (f a)) := by
  induction l with
  | nil => rfl
  | cons a rest ih => rw [List.flatMap_cons, joined_append, ih, List.map_cons, String.join_cons]

/-- Lines in a row are texts in a row, since every line has a line feed of its own. -/
theorem unlines_append (ls ms : List String) : unlines (ls ++ ms) = unlines ls ++ unlines ms := by
  simp [unlines]

/-- The pieces of a declaration are its text. There is a comment only if there is something to say,
which is the case split of the text as well. -/
theorem joined_declarationPieces (d : Declaration) :
    joined (declarationPieces d) = declarationText d := by
  unfold declarationPieces declarationText
  rw [joined_append, joined_append, unlines_append, unlines_append]
  -- With and without a comment, for an interface and for an alias.
  split <;> cases d.kind <;> simp [joined, unlines, Piece.text, block_eq]

/-- The pieces of a method are its text. -/
theorem joined_methodPieces (m : Method) : joined (methodPieces m) = methodText m := by
  simp [joined, methodPieces, methodText, unlines, Piece.text, block_eq, String.append_assoc]

/-- A line that ends in a full stop is not empty. -/
theorem blockLine_append_dot (line : String) :
    blockLine "" (line ++ ".") = " * " ++ line ++ "." := by
  simp [blockLine, ← String.append_assoc]

/-- The headline of the types as it stands in the text, which joins it with the frame of the comment
in another grouping. -/
theorem blockLine_typesHeadline (c : TypesContext) : blockLine "" (typesHeadline c)
    = " * Type declarations for " ++ titleOr c.title "the API"
        ++ versionSuffix c.version ++ "." := by
  have hlead : " * " ++ "Type declarations for " = " * Type declarations for " := by decide
  unfold typesHeadline
  rw [blockLine_append_dot, ← hlead]
  simp only [String.append_assoc]

/-- The headline of the client as it stands in the text; see `blockLine_typesHeadline`. -/
theorem blockLine_clientHeadline (c : ClientContext) : blockLine "" (clientHeadline c)
    = " * " ++ titleOr c.title "API" ++ " client" ++
      (if c.version = "" then "" else " (" ++ c.version ++ ")") ++ "." := by
  unfold clientHeadline
  rw [blockLine_append_dot]
  simp only [String.append_assoc]

/-- The note of a header as it stands in the text. -/
theorem blockLine_generatedNote : blockLine "" generatedNote = generatedLine := by
  decide

/-- An empty line of a comment has no blank at its end. -/
theorem blockLine_empty : blockLine "" "" = " *" := by
  decide

/-- A comment with line feeds after it is lines with a line feed after each. -/
theorem unlines_comment (lines rest : List String) :
    unlines (["/**"] ++ lines.map (blockLine "") ++ [" */"] ++ rest)
      = joined [.comment (framed "" lines), .code ("\n" ++ unlines rest)] := by
  have hopen : "/**\n" = "/**" ++ "\n" := by decide
  simp only [unlines, framed, hopen, joined, Piece.text, List.map_cons, List.map_nil,
    List.map_append, List.map_map, Function.comp_def, String.join_append, String.join_cons,
    String.join_nil, ← String.append_assoc, String.append_empty]

/-- The pieces of the types are the whole file, so what is said of its comments is said of the
file. -/
theorem joined_typesPieces (c : TypesContext) : joined (typesPieces c) = typesText c := by
  unfold typesPieces typesText
  rw [joined_append, joined_append, joined_flatMap, funext joined_declarationPieces,
    ← unlines_comment]
  simp only [List.map_cons, List.map_nil, blockLine_typesHeadline, blockLine_empty,
    blockLine_generatedNote, List.cons_append, List.nil_append]
  simp [joined, Piece.text]

/-- The pieces of the client are the whole file. -/
theorem joined_clientPieces (c : ClientContext) : joined (clientPieces c) = clientText c := by
  unfold clientPieces clientText
  rw [joined_append, joined_append, joined_flatMap, funext joined_methodPieces,
    ← unlines_comment]
  simp only [List.map_cons, List.map_nil, List.map_append, blockLine_clientHeadline,
    blockLine_empty, blockLine_generatedNote, List.cons_append, List.nil_append, List.append_assoc]
  simp [joined, Piece.text]

/-! ### Where the comments of a file end -/

variable {ps qs : List Piece} {text : String}

/-- Nothing has no comment that ends early. -/
theorem contained_nil : Contained [] := fun _ h => nomatch h

/-- Pieces in a row end where they should exactly if both parts do: a comment is judged by itself,
as it stands. -/
theorem contained_append_iff : Contained (ps ++ qs) ↔ Contained ps ∧ Contained qs := by
  simp only [Contained, List.mem_append, or_imp, forall_and]

/-- Code has no comment that could end early. -/
theorem contained_code_cons_iff : Contained (.code text :: ps) ↔ Contained ps := by
  simp [Contained]

/-- A comment in front of pieces has to end where it should, and so have those behind it. -/
theorem contained_comment_cons_iff :
    Contained (.comment text :: ps) ↔ IsComment text ∧ Contained ps := by
  simp [Contained]

/-- Pieces that are made for every member of a list end where they should exactly if those of each
member do. -/
theorem contained_flatMap_iff {α : Type} {f : α → List Piece} {l : List α} :
    Contained (l.flatMap f) ↔ ∀ a ∈ l, Contained (f a) := by
  induction l with
  | nil => simp [contained_nil]
  | cons a rest ih => rw [List.flatMap_cons, contained_append_iff, ih, List.forall_mem_cons]

/-- A title closes a comment exactly if it does so itself: the default that takes the place of an
empty one has no asterisk. -/
theorem closes_titleOr_iff (title : String) {fallback : String}
    (h : '*' ∉ fallback.toList) :
    Closes (titleOr title fallback).toList ↔ Closes title.toList := by
  unfold titleOr
  split
  · subst title
    simp [not_closes_of_not_mem h, not_closes_nil]
  · rfl

/-- The headline of the types closes the header exactly if the title or the version does. The blanks
between the parts keep an asterisk at the end of one from meeting a slash in the next. -/
theorem closes_typesHeadline_iff (c : TypesContext) :
    Closes (typesHeadline c).toList ↔ Closes c.title.toList ∨ Closes c.version.toList := by
  have hlead : ¬ Closes "Type declarations for".toList := not_closes_of_not_mem (by decide)
  have hchars : (typesHeadline c).toList = "Type declarations for".toList ++ ' ' ::
      ((titleOr c.title "the API").toList ++ (versionSuffix c.version).toList ++ '.' :: []) := by
    unfold typesHeadline
    simp
  rw [hchars, closes_append_cons_iff (by decide) (by decide), or_iff_right hlead,
    closes_append_cons_iff (by decide) (by decide), or_iff_left not_closes_nil,
    ← closes_titleOr_iff c.title (show '*' ∉ "the API".toList by decide)]
  -- An empty version is left out together with the blank before it.
  unfold versionSuffix
  split
  · rename_i hversion
    simp [hversion, not_closes_nil]
  · rw [show (" " ++ c.version).toList = ' ' :: c.version.toList by simp,
      closes_append_cons_iff (by decide) (by decide)]

/-- The headline of the client closes the header exactly if the title or the version does; here the
version stands in brackets, which keep it apart as blanks do. -/
theorem closes_clientHeadline_iff (c : ClientContext) :
    Closes (clientHeadline c).toList ↔ Closes c.title.toList ∨ Closes c.version.toList := by
  have hclient : ¬ Closes "client".toList := not_closes_of_not_mem (by decide)
  have hchars : (clientHeadline c).toList = (titleOr c.title "API").toList ++ ' ' ::
      ("client".toList ++ (if c.version = "" then "" else " (" ++ c.version ++ ")").toList ++
        '.' :: []) := by
    unfold clientHeadline
    simp
  rw [hchars, closes_append_cons_iff (by decide) (by decide),
    closes_append_cons_iff (by decide) (by decide), or_iff_left not_closes_nil,
    ← closes_titleOr_iff c.title (show '*' ∉ "API".toList by decide)]
  -- Without a version the brackets are left out as well.
  split
  · rename_i hversion
    rw [hversion, String.toList_empty, List.append_nil]
    simp only [hclient, not_closes_nil, or_false]
  · rw [show (" (" ++ c.version ++ ")").toList
        = ' ' :: ([] ++ '(' :: (c.version.toList ++ ')' :: [])) by simp,
      closes_append_cons_iff (by decide) (by decide), or_iff_right hclient,
      closes_append_cons_iff (by decide) (by decide), or_iff_right not_closes_nil,
      closes_append_cons_iff (by decide) (by decide), or_iff_left not_closes_nil]

/-- An empty line closes nothing. -/
theorem not_closes_empty : ¬ Closes "".toList := by
  decide

/-- The note of a header closes nothing. -/
theorem not_closes_generatedNote : ¬ Closes generatedNote.toList :=
  not_closes_of_not_mem (by decide)

/-- A declaration whose comment is made of lines that do not close it ends where it should. -/
theorem contained_declarationPieces (d : Declaration) (h : ∀ line ∈ d.doc, ¬ Closes line.toList) :
    Contained (declarationPieces d) := by
  unfold declarationPieces
  rw [contained_append_iff, contained_append_iff, contained_code_cons_iff,
    contained_code_cons_iff]
  refine ⟨⟨contained_nil, ?_⟩, contained_nil⟩
  split
  · exact contained_nil
  · rw [contained_comment_cons_iff, contained_code_cons_iff]
    exact ⟨(isComment_framed_iff (by decide) d.doc).mpr h, contained_nil⟩

/-- The comments of the types end where they should exactly if title and version do not close the
header. Those of the declarations do anyway, which is what the hypothesis says. -/
theorem contained_typesPieces_iff (c : TypesContext)
    (h : ∀ d ∈ c.declarations, ∀ line ∈ d.doc, ¬ Closes line.toList) :
    Contained (typesPieces c) ↔ ¬ Closes c.title.toList ∧ ¬ Closes c.version.toList := by
  have hdeclarations : Contained (c.declarations.flatMap declarationPieces) :=
    contained_flatMap_iff.mpr fun d hd => contained_declarationPieces d (h d hd)
  -- What is left of the file is the header and code.
  unfold typesPieces
  rw [contained_append_iff, contained_append_iff, contained_comment_cons_iff,
    contained_code_cons_iff, contained_code_cons_iff, isComment_framed_iff not_closes_empty,
    ← not_or, ← closes_typesHeadline_iff]
  simp only [hdeclarations, contained_nil, and_true, List.forall_mem_cons, not_closes_empty,
    not_closes_generatedNote, not_false_eq_true, List.not_mem_nil, IsEmpty.forall_iff,
    implies_true]

/-- The comment above a method ends where it should exactly if none of its lines closes it. -/
theorem contained_methodPieces_iff (m : Method) :
    Contained (methodPieces m) ↔ ∀ line ∈ m.doc, ¬ Closes line.toList := by
  unfold methodPieces
  rw [contained_code_cons_iff, contained_code_cons_iff, contained_comment_cons_iff,
    contained_code_cons_iff, isComment_framed_iff (by decide)]
  exact and_iff_left contained_nil

/-- The comments of the client end where they should exactly if title and version do not close the
header and no line above a method closes its comment. -/
theorem contained_clientPieces_iff (c : ClientContext)
    (h : ∀ line ∈ c.description, ¬ Closes line.toList) :
    Contained (clientPieces c) ↔
      (¬ Closes c.title.toList ∧ ¬ Closes c.version.toList) ∧
        ∀ m ∈ c.methods, ∀ line ∈ m.doc, ¬ Closes line.toList := by
  unfold clientPieces
  rw [contained_append_iff, contained_append_iff, contained_comment_cons_iff,
    contained_code_cons_iff, contained_code_cons_iff, contained_flatMap_iff,
    isComment_framed_iff not_closes_empty, ← not_or, ← closes_clientHeadline_iff]
  simp only [contained_methodPieces_iff, contained_nil, and_true, List.forall_mem_append,
    List.forall_mem_cons, not_closes_empty, not_closes_generatedNote, not_false_eq_true,
    List.not_mem_nil, IsEmpty.forall_iff, implies_true]
  exact and_congr_left' (and_iff_left h)

end Package

/-! ### What a builder documents -/

namespace Builder

variable {b b' : Builder}

/-- No comment of a declaration is closed by one of its lines. -/
def Documented (b : Builder) : Prop :=
  ∀ d ∈ b.declarations, ∀ line ∈ d.doc, ¬ Closes line.toList

/-- A new builder has declared nothing. -/
theorem documented_ofDocument (d : Document) : (ofDocument d).Documented :=
  fun _ h => nomatch h

/-- Descriptions are made harmless before they become lines of a comment, so no line of a
declaration closes it. -/
theorem not_closes_declaration (b : Builder) (name : String) (schema : Schema) :
    ∀ line ∈ (b.declaration name schema).doc, ¬ Closes line.toList :=
  fun _ => not_closes_of_mem_lines

/-- Whatever a builder adds, a declaration or a record, its comment is one of
`not_closes_declaration`. A name that is handed out adds no declaration. -/
theorem stable_documented : Stable Documented where
  declaration b name schema _ h := by
    -- A schema is declared behind the schemas and before the records.
    have hnew : (b.withDeclaration name schema).declarations = b.cache.values ++
        [b.declaration ((b.typeNames.lookup name).getD name) schema] ++ b.hoisted := by
      simp [declarations, withDeclaration, Cache.values]
    rw [Documented, declarations, List.forall_mem_append] at h
    rw [Documented, hnew, List.forall_mem_append, List.forall_mem_append, List.forall_mem_singleton]
    exact ⟨⟨h.1, b.not_closes_declaration _ schema⟩, h.2⟩
  name _ _ _ _ h := h
  record b e suffix _ schema h := by
    have hnew : (b.withRecord (b.recordName e suffix) schema).declarations
        = b.declarations ++ [b.declaration (b.recordName e suffix) schema] := by
      simp [declarations, withRecord, withName]
    rw [Documented, hnew, List.forall_mem_append, List.forall_mem_singleton]
    exact ⟨h, b.not_closes_declaration _ schema⟩

/-- The comments above the methods of a client are made from its endpoints. -/
theorem doc_of_gives_methods {ps : List (Endpoint × String)} {ms : List Method}
    (hg : (methods ps).Gives b ms b') :
    List.Forall₂ (fun p m => m.doc = methodDoc p.1 (p.1.arguments b.typeNames)) ps ms := by
  refine (methodWith_of_gives_methods hg).imp ?_
  rintro p m ⟨_, _, rfl⟩
  rfl

end Builder

namespace Package

variable {d : Document} {es : List Endpoint} {settings : Settings} {files : List GeneratedFile}

/-- The client and the types that a builder makes of a document and its endpoints. -/
def Contexts (d : Document) (es : List Endpoint) (settings : Settings) (client : ClientContext)
    (types : TypesContext) : Prop :=
  ∃ typesImport b, (Builder.contexts es settings.httpClientImport typesImport).Gives
    (Builder.ofDocument d) (client, types) b

/-- The check for files of one name lets all of them through as they are, or none. -/
theorem of_distinct_eq_ok {given : List GeneratedFile} (h : distinct given = .ok files) :
    files = given := by
  unfold distinct at h
  split at h
  · cases h
  · exact (Except.ok.inj h).symm

/-- The first two files are the text of the types and the text of the client. -/
theorem of_render_eq_ok (h : (render d es settings).outcome = .ok files) :
    ∃ client types, Contexts d es settings client types ∧
      ∃ rest, files = ⟨typesFile, typesText types⟩ :: ⟨clientFile, clientText client⟩ :: rest := by
  unfold render at h
  obtain ⟨transport, -, h⟩ := Logged.bind_ok_iff.mp h
  -- A transport of another package is noted, one of this package has to be imported.
  cases transport with
  | none =>
    simp only [Option.isNone_none, ↓reduceIte, Logged.bind_ok_iff, Logged.outcome_ofExcept] at h
    obtain ⟨_, -, typesImport, -, made, hmade, _, -, _, -, _, -, _, -, h⟩ := h
    exact ⟨made.1, made.2, ⟨typesImport, _, hmade, rfl⟩, _, of_distinct_eq_ok h⟩
  | some path =>
    simp only [Option.isNone_some, Bool.false_eq_true, ↓reduceIte, Logged.bind_ok_iff,
      Logged.outcome_ofExcept] at h
    obtain ⟨typesImport, -, made, hmade, _, -, _, -, _, -, _, -, h⟩ := h
    exact ⟨made.1, made.2, ⟨typesImport, _, hmade, rfl⟩, _, of_distinct_eq_ok h⟩

variable {client : ClientContext} {types : TypesContext}

open Builder in
/-- What the contexts say is that of the document, and what a builder documents. -/
theorem of_contexts (h : Contexts d es settings client types) :
    (client.title = d.title ∧ client.version = d.version) ∧
    (types.title = d.title ∧ types.version = d.version) ∧
    client.description = Comment.lines [d.description] ∧
    (∀ declaration ∈ types.declarations, ∀ line ∈ declaration.doc, ¬ Closes line.toList) ∧
    ∃ names, List.Forall₂ (fun e m => m.doc = methodDoc e (e.arguments names)) es
      client.methods := by
  obtain ⟨typesImport, b', h⟩ := h
  obtain ⟨b, hclient, htypes⟩ := gives_contexts_iff.mp h
  obtain ⟨b₁, -, hms, htitle, hversion, hdescription, -⟩ := gives_clientContext hclient
  have hdocument : b.document = d :=
    ((stable_extends _).of_gives_clientContext hclient (Extends.refl _)).document
  have hdocumented := stable_documented.of_gives_clientContext hclient (documented_ofDocument d)
  -- The builder has nothing left to declare, so the types are what it holds.
  obtain rfl : (⟨b.document.title, b.document.version, b.declarations⟩ : TypesContext) = types :=
    Except.ok.inj
      ((gives_typesContext (complete_of_gives_clientContext hclient)).1.symm.trans htypes.1)
  rw [hdocument] at htitle hversion hdescription ⊢
  refine ⟨⟨htitle, hversion⟩, ⟨rfl, rfl⟩, hdescription, hdocumented, b₁.typeNames, ?_⟩
  exact forall₂_of_zip_methodNames (doc_of_gives_methods hms)

/-- No HTTP method has an asterisk, so that the line of a route can be closed by its path only. -/
theorem not_closes_httpMethods : ∀ method ∈ httpMethods, ¬ Closes method.toList := by
  decide +kernel

/-- The comments above methods end where they are meant to exactly if no path closes them. -/
theorem documented_methods_iff {names : TypeNames} {ms : List Method}
    (hmethod : ∀ e ∈ es, e.method ∈ httpMethods)
    (hdocs : List.Forall₂ (fun e m => m.doc = methodDoc e (e.arguments names)) es ms) :
    (∀ m ∈ ms, ∀ line ∈ m.doc, ¬ Closes line.toList) ↔ ∀ e ∈ es, ¬ Closes e.path.toList := by
  induction hdocs with
  | nil => simp
  | @cons e m es ms hdoc _ ih =>
    -- Only the path of the route is the document's own.
    have hroute : ¬ Closes e.method.toList :=
      not_closes_httpMethods _ (hmethod e List.mem_cons_self)
    rw [List.forall_mem_cons, List.forall_mem_cons, hdoc, closes_methodDoc_iff,
      ih fun e he => hmethod e (List.mem_cons_of_mem _ he)]
    simp [hroute]

/-- A comment of the types or of the client is closed early only by the title or the version
of the document, or by the path of an endpoint in the line that names its route. Nothing
else that a document says can close one. -/
theorem contained_render_iff (hes : d.endpoints.outcome = .ok es)
    (hfiles : (render d es settings).outcome = .ok files) :
    ∃ client types, Contexts d es settings client types ∧
      (∃ rest, files = ⟨typesFile, joined (typesPieces types)⟩ ::
        ⟨clientFile, joined (clientPieces client)⟩ :: rest) ∧
      (∀ declaration ∈ types.declarations, ∀ line ∈ declaration.doc, ¬ Closes line.toList) ∧
      (∀ line ∈ client.description, ¬ Closes line.toList) ∧
      List.Forall₂ (fun e m => ∀ line ∈ m.doc, Closes line.toList →
        line = e.method ++ " " ++ e.path ∧ Closes e.path.toList) es client.methods ∧
      (Contained (typesPieces types) ↔ ¬ Closes d.title.toList ∧ ¬ Closes d.version.toList) ∧
      (Contained (clientPieces client) ↔
        (¬ Closes d.title.toList ∧ ¬ Closes d.version.toList) ∧
          ∀ e ∈ es, ¬ Closes e.path.toList) := by
  obtain ⟨client, types, hcontexts, rest, hrest⟩ := of_render_eq_ok hfiles
  obtain ⟨hclient, htypes, hdescription, hdocumented, names, hdocs⟩ := of_contexts hcontexts
  have hmethod : ∀ e ∈ es, e.method ∈ httpMethods := Endpoint.method_of_readAll hes
  have hlines : ∀ line ∈ client.description, ¬ Closes line.toList := by
    rw [hdescription]
    exact fun _ => not_closes_of_mem_lines
  refine ⟨client, types, hcontexts, ⟨rest, ?_⟩, hdocumented, hlines, ?_, ?_, ?_⟩
  · rw [joined_typesPieces, joined_clientPieces, hrest]
  · -- A line above a method that closes is that of the route.
    refine ((List.forall₂_and_left es client.methods).mpr ⟨hmethod, hdocs⟩).imp ?_
    rintro e m ⟨he, hdoc⟩ line hline hcloses
    rw [hdoc] at hline
    obtain rfl := eq_route_of_closes hline hcloses
    exact ⟨rfl, ((closes_route_iff _ _).mp hcloses).resolve_left (not_closes_httpMethods _ he)⟩
  · rw [contained_typesPieces_iff types hdocumented, htypes.1, htypes.2]
  · rw [contained_clientPieces_iff client hlines, hclient.1, hclient.2,
      documented_methods_iff hmethod hdocs]

/-- A document with one operation and texts that a client shows. -/
def textsDocument (title description summary path : String) : Document where
  title := title
  version := "1"
  description := description
  servers := []
  graph := ⟨#[.map [(.text "get", .node 1)], .map [(.text "summary", .text summary)]]⟩
  paths := [(path, .node 0)]
  components := []
  schemas := []
  nodup_names := List.nodup_nil

/-- The endpoint of the operation. -/
def textsEndpoint (summary path : String) : Endpoint where
  path := path
  method := "GET"
  operationId := none
  summary := summary
  description := ""
  tags := []
  parameters := []
  requestBody := none
  responses := []

/-- Settings as they are when only the output directory is given. -/
def plainSettings : Settings := ⟨Path.ofString "out", defaultPackageName, defaultHttpClientImport⟩

/-- Descriptions may hold the end of a comment. -/
theorem contained_render_described :
    let d := textsDocument "Pets" "ends */ here" "all */ pets" "/pets"
    let e := textsEndpoint "all */ pets" "/pets"
    d.endpoints.outcome = .ok [e] ∧
    ∃ files client types, (render d [e] plainSettings).outcome = .ok files ∧
      Contexts d [e] plainSettings client types ∧
      Contained (typesPieces types) ∧ Contained (clientPieces client) := by
  intro d e
  have hes : d.endpoints.outcome = .ok [e] := rfl
  have hok : (render d [e] plainSettings).outcome.isOk = true := by decide +kernel
  obtain ⟨files, hfiles⟩ := exists_of_isOk hok
  obtain ⟨client, types, hcontexts, -, -, -, -, htypes, hclient⟩ :=
    contained_render_iff hes hfiles
  have htitle : ¬ Closes d.title.toList ∧ ¬ Closes d.version.toList := by decide +kernel
  have hpath : ¬ Closes e.path.toList := by decide +kernel
  exact ⟨hes, files, client, types, hfiles, hcontexts, htypes.mpr htitle,
    hclient.mpr ⟨htitle, List.forall_mem_singleton.mpr hpath⟩⟩

/-- A title closes the header of the types, and a path the comment above its method. -/
theorem title_and_route_close :
    let d := textsDocument "A */ B" "" "" "/a*/b"
    let e := textsEndpoint "" "/a*/b"
    d.endpoints.outcome = .ok [e] ∧
    ∃ files client types, (render d [e] plainSettings).outcome = .ok files ∧
      Contexts d [e] plainSettings client types ∧
      ¬ Contained (typesPieces types) ∧
      ∃ m ∈ client.methods, ∃ line ∈ m.doc, Closes line.toList := by
  intro d e
  have hes : d.endpoints.outcome = .ok [e] := rfl
  have hok : (render d [e] plainSettings).outcome.isOk = true := by decide +kernel
  obtain ⟨files, hfiles⟩ := exists_of_isOk hok
  obtain ⟨client, types, hcontexts, -⟩ := of_render_eq_ok hfiles
  obtain ⟨-, htypes, -, hdocumented, names, hdocs⟩ := of_contexts hcontexts
  have htitle : Closes d.title.toList := by decide +kernel
  have hpath : Closes e.path.toList := by decide +kernel
  obtain ⟨m, _, hdoc, -, hms⟩ := List.forall₂_cons_left_iff.mp hdocs
  refine ⟨hes, files, client, types, hfiles, hcontexts, ?_, m, ?_,
    e.method ++ " " ++ e.path, ?_, ?_⟩
  · rw [contained_typesPieces_iff types hdocumented, htypes.1]
    exact fun h => h.1 htitle
  · rw [hms]
    exact List.mem_cons_self
  · rw [hdoc]
    exact route_mem_methodDoc e _
  · exact (closes_route_iff _ _).mpr (.inr hpath)

end Package

end TypedClient
