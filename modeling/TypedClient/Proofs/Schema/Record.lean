import Mathlib.Data.List.DropRight
import TypedClient.Proofs.Assoc
import TypedClient.Proofs.Client.TypeNames
import TypedClient.Proofs.Schema.Enumeration

/-!
# `TypedClient.Proofs.Schema.Record`: the members of a record type

A record type lists its members between braces: a name, the mark of what may be left out, a colon,
a type and a semicolon. The types may be records themselves, and names and enumerations may hold
any text. This module reads the members of a record back, without the functions that write it: a
semicolon ends a member if it stands in no inner braces and in no quotes, and the types that are
written have no other one.

Reading goes in two steps. The first finds what stands in front of the colon of each member, and
tells apart whatever can be written there. The second makes a name of it, as TypeScript does: a name
without quotes ends where it is followed by a blank or a line feed. A property whose name is an
identifier with a line feed behind it is written without quotes, so it is read by another name.

* `RecordType.heads`, `RecordType.read`: what stands in front of the colons of a record type, and
  its members.
* `RecordType.Leads`: what reading a text does, wherever it stands. `passes_typeText`: reading a
  type ends where it began.
* `RecordType.heads_typeText`, `RecordType.headOf_injective`: the properties of a record are told
  apart.
* `RecordType.read_typeText`: the type of a record is read as its properties, up to such line feeds.
* `record_unambiguous`: records with one type have the same properties, and require the same. They
  are the members that the type is read as, exactly if no name passes for an identifier in spite of
  a line feed.
-/

set_option autoImplicit false

namespace TypedClient

open Name (isNameChar)
open TypedClient.Symbol (Shows Solid)

/-- A member of a record type. -/
structure Member where
  name : String
  required : Bool
deriving DecidableEq

namespace RecordType

/-- Where a reader stands. -/
inductive Place where
  /-- In front of a member, or of the brace after the last one. -/
  | between
  /-- In front of the colon of a member, whose symbols so far are in reverse. -/
  | inName (run : List Symbol)
  /-- In the type of a member, inside of so many braces. -/
  | inType (depth : Nat)

/-- A blank or a line feed. -/
def isBlank (s : Symbol) : Bool := s = .char ' ' || s = .char '\n'

/-- What stands in front of the colon of each member, after the opening brace of a record type. -/
def headsFrom : Place → List Symbol → Option (List (List Symbol))
  | _, [] => none
  | .between, s :: ss =>
    if isBlank s then headsFrom .between ss
    else if s = .char '\x7d' then if ss.isEmpty then some [] else none
    else headsFrom (.inName [s]) ss
  | .inName run, s :: ss =>
    if s = .char ':' then (headsFrom (.inType 0) ss).map (run.reverse :: ·)
    else headsFrom (.inName (s :: run)) ss
  | .inType depth, s :: ss =>
    if s = .char '\x7b' then headsFrom (.inType (depth + 1)) ss
    else if s = .char '\x7d' then headsFrom (.inType (depth - 1)) ss
    else if s = .char ';' && depth = 0 then headsFrom .between ss
    else headsFrom (.inType depth) ss

/-- What stands in front of the colon of each member of a record type. -/
def heads (type : String) : Option (List (List Symbol)) :=
  match Symbol.read type.toList with
  | some (.char '\x7b' :: ss) => headsFrom .between ss
  | _ => none

/-- The character that a symbol is, if it is one. -/
def char? : Symbol → Option Char
  | .char c => some c
  | .text _ => none

/-- The name that symbols stand for: a text in quotes, or an identifier without quotes. -/
def name? : List Symbol → Option String
  | [.text s] => some s
  | ss => ((ss.mapM char?).filter fun cs => Name.ProperChars cs).map String.ofList

/-- The member that has these symbols in front of its colon. The name, and the mark of what may be
left out, end where blanks or a line feed begin, and those are part of neither. -/
def member? (head : List Symbol) : Option Member :=
  let head := head.rdropWhile isBlank
  if head.getLast? = some (.char '?') then
    (name? (head.dropLast.rdropWhile isBlank)).map (⟨·, false⟩)
  else (name? head).map (⟨·, true⟩)

/-- The members of a record type, if each of them has a name. -/
def read (type : String) : Option (List Member) := (heads type).bind (·.mapM member?)

variable {p q r : Place} {s t name : String} {xs ys : List (List Symbol)} {depth : Nat}

/-! ### What reading a text does -/

/-- Reading the text, wherever it stands, leads from one place to another and passes what stands in
front of the colons of some members. -/
def Leads (p : Place) (s : String) (xs : List (List Symbol)) (q : Place) : Prop :=
  ∃ ss, Shows s ss ∧ ∀ rest, headsFrom p (ss ++ rest) = (headsFrom q rest).map (xs ++ ·)

/-- Reading two texts in a row leads from where the first one begins to where the second one
leads. -/
theorem Leads.append (hs : Leads p s xs q) (ht : Leads q t ys r) :
    Leads p (s ++ t) (xs ++ ys) r := by
  obtain ⟨ss, hshows, hss⟩ := hs
  obtain ⟨ts, hshows', hts⟩ := ht
  refine ⟨ss ++ ts, hshows.append hshows', fun rest => ?_⟩
  rw [List.append_assoc, hss, hts, Option.map_map]
  simp [Function.comp_def]

/-- Reading nothing leads nowhere. -/
theorem leads_empty (p : Place) : Leads p "" [] p :=
  ⟨[], fun rest => by simp, fun rest => by simp⟩

/-- One character leads where its step leads, if it is no quote. A quote is no symbol of its own. -/
theorem leads_char {c : Char} (hc : c ≠ '\'')
    (h : ∀ rest, headsFrom p (.char c :: rest) = (headsFrom q rest).map (xs ++ ·)) :
    Leads p (String.singleton c) xs q := by
  refine ⟨[.char c], ?_, h⟩
  have hshows : Shows (String.singleton c) ((String.singleton c).toList.map .char) :=
    Symbol.shows_chars (by simpa using hc.symm)
  simpa using hshows

/-- Texts that pass nothing pass nothing together. -/
@[simp] theorem flatMap_no_heads {α : Type} (l : List α) :
    l.flatMap (fun _ => ([] : List (List Symbol))) = [] :=
  List.flatMap_eq_nil_iff.mpr fun _ _ => rfl

/-- Texts that lead back to where they begin do so one after the other, and what they pass is passed
in that order. So the lines of a record can be looked at one by one. -/
theorem leads_intercalate {α : Type} {l : List α} {f : α → String} {g : α → List (List Symbol)}
    {sep : String} (hsep : Leads p sep [] p) (h : ∀ a ∈ l, Leads p (f a) (g a) p) :
    Leads p (sep.intercalate (l.map f)) (l.flatMap g) p := by
  induction l with
  | nil => exact leads_empty p
  | cons a rest ih =>
    obtain ⟨ha, hrest⟩ := List.forall_mem_cons.mp h
    cases rest with
    | nil => simpa using ha
    | cons b rest =>
      rw [List.map_cons, List.map_cons, String.intercalate_cons_cons, List.flatMap_cons]
      simpa using (ha.append hsep).append (ih hrest)

/-- In front of a member the reader stays where it is while there are blanks or line feeds. -/
theorem headsFrom_blanks {cs : List Char} {rest : List Symbol}
    (h : ∀ c ∈ cs, c = ' ' ∨ c = '\n') :
    headsFrom .between (cs.map .char ++ rest) = headsFrom .between rest := by
  induction cs with
  | nil => rfl
  | cons c cs ih =>
    obtain ⟨hc, hcs⟩ := List.forall_mem_cons.mp h
    rw [List.map_cons, List.cons_append, headsFrom, if_pos (by simpa [isBlank] using hc), ih hcs]

/-- In front of a member blanks and line feeds count for nothing, so how deep a record is indented
makes no difference. -/
theorem leads_blanks (h : ∀ c ∈ s.toList, c = ' ' ∨ c = '\n') :
    Leads .between s [] .between := by
  have hquote : '\'' ∉ s.toList := fun hc => by simpa using h _ hc
  exact ⟨s.toList.map .char, Symbol.shows_chars hquote, fun rest => by simp [headsFrom_blanks h]⟩

/-! ### Types -/

/-- Reading the text inside of a type passes no member and ends as deep as it began. -/
def Passes (s : String) : Prop := ∀ depth, Leads (.inType depth) s [] (.inType depth)

/-- Two texts in a row are passed in a type if each of them is. -/
theorem Passes.append (hs : Passes s) (ht : Passes t) : Passes (s ++ t) :=
  fun depth => (hs depth).append (ht depth)

/-- What is neither a brace nor a semicolon leaves a reader inside of a type where it is. -/
theorem headsFrom_inType {ss rest : List Symbol}
    (h : ∀ c ∈ [';', '\x7b', '\x7d'], .char c ∉ ss) :
    headsFrom (.inType depth) (ss ++ rest) = headsFrom (.inType depth) rest := by
  induction ss with
  | nil => rfl
  | cons s ss ih =>
    have hs : ∀ c ∈ [';', '\x7b', '\x7d'], s ≠ .char c := fun c hc heq =>
      h c hc (heq ▸ List.mem_cons_self)
    rw [List.cons_append, headsFrom, if_neg (hs _ (by decide)), if_neg (hs _ (by decide)),
      if_neg (by simp [hs ';' (by decide)]),
      ih fun c hc hmem => h c hc (List.mem_cons_of_mem s hmem)]

/-- Nothing but a brace or a semicolon counts in a type. Those in a text in quotes are no symbols of
their own, so texts are passed whatever they hold. -/
theorem passes_of_shows {ss : List Symbol} (hs : Shows s ss)
    (h : ∀ c ∈ [';', '\x7b', '\x7d'], .char c ∉ ss) : Passes s :=
  fun depth => ⟨ss, hs, fun rest => by simp [headsFrom_inType h]⟩

/-- What separates no parts of a type is passed in one. -/
theorem passes_of_solid (h : Solid s) : Passes s :=
  passes_of_shows h.shows fun c hc hmem =>
    h.char c hmem ((by decide : [';', '\x7b', '\x7d'] ⊆ Symbol.separators) hc)

/-- The characters that count in a type. -/
def marks : List Char := ['\'', ';', '\x7b', '\x7d']

/-- A text with none of the characters that count is passed. The quote is among them, since it would
begin a text that might not end. -/
theorem passes_of_chars (h : s.toList.all (fun c => !marks.contains c) = true) : Passes s := by
  have hfree : ∀ c ∈ marks, c ∉ s.toList := fun c hc hs => by
    have hmark := List.all_eq_true.mp h c hs
    rw [List.contains_iff_mem.mpr hc] at hmark
    cases hmark
  exact passes_of_shows (Symbol.shows_chars (hfree _ List.mem_cons_self))
    fun c hc => by simpa using hfree c (List.mem_cons_of_mem _ hc)

/-- Texts that are passed, with a text between them that is passed, are passed together. -/
theorem passes_intercalate {sep : String} {parts : List String} (hsep : Passes sep)
    (h : ∀ part ∈ parts, Passes part) : Passes (sep.intercalate parts) := by
  intro depth
  simpa using leads_intercalate (f := id) (g := fun _ => []) (hsep depth)
    fun part hpart => h part hpart depth

/-- A brace inside of a type opens another record, whose semicolons are its own. -/
theorem leads_openBrace (depth : Nat) : Leads (.inType depth) "\x7b" [] (.inType (depth + 1)) :=
  leads_char (c := '\x7b') (by decide) fun rest => by simp [headsFrom]

/-- A brace that closes closes the innermost record. -/
theorem leads_closeBrace (depth : Nat) : Leads (.inType (depth + 1)) "\x7d" [] (.inType depth) :=
  leads_char (c := '\x7d') (by decide) fun rest => by simp [headsFrom]

/-- A semicolon inside of inner braces is passed like any other character. -/
theorem leads_innerSemicolon (depth : Nat) :
    Leads (.inType (depth + 1)) ";" [] (.inType (depth + 1)) :=
  leads_char (c := ';') (by decide) fun rest => by simp [headsFrom]

/-- A semicolon outside of inner braces ends a member. -/
theorem leads_semicolon : Leads (.inType 0) ";" [] .between :=
  leads_char (c := ';') (by decide) fun rest => by simp [headsFrom]

/-! ### Names -/

/-- The names of a table are made of characters of names. -/
def ProperNames (names : TypeNames) : Prop :=
  ∀ entry ∈ names, ∀ c ∈ entry.2.toList, isNameChar c = true

/-- No character that means something to the reader is a character of names. -/
theorem not_mem_of_isNameChar (h : ∀ c ∈ s.toList, isNameChar c = true) :
    ∀ c ∈ '\'' :: ':' :: '?' :: Symbol.separators, c ∉ s.toList := by
  have hmarks : ('\'' :: ':' :: '?' :: Symbol.separators).all (!isNameChar ·) = true := by decide
  intro c hc hs
  simpa [h c hs] using List.all_eq_true.mp hmarks c hc

/-- A name has nothing in it that separates parts of a type, be it an identifier with a line feed
behind it. -/
theorem solid_of_isNameChar (h : ∀ c ∈ s.toList, isNameChar c = true) : Solid s :=
  Symbol.solid_of_chars (List.all_eq_true.mpr fun c hc =>
    Symbol.isPlain_of (by decide) (h c hc))

/-- The names that are handed out for schemas are made of characters of names, whatever the schemas
are called and whatever was handed out before. -/
theorem properNames_claimAll (schemas : List String) :
    ∀ r : Name.Registry, ProperNames (Builder.claimAll r schemas).1 := by
  induction schemas with
  | nil => exact fun r => List.forall_mem_nil _
  | cons schema rest ih =>
    intro r
    rw [Builder.claimAll_cons]
    exact List.forall_mem_cons.mpr
      ⟨Name.isNameChar_free (Name.isNameChar_toTypeIdentifier schema), ih _⟩

/-- The names in the table of a builder hold only characters of identifiers and line feeds: they are
handed out at its start and never change. -/
theorem properNames_ofDocument (d : Document) :
    ProperNames (Builder.ofDocument d).typeNames :=
  properNames_claimAll (d.schemas.map Prod.fst) _

/-- The type of a reference is a name, or stands for everything: the name that was handed out for a
component schema, or one that is made of the reference itself. -/
theorem solid_referenceType {table : TypeNames} (h : ProperNames table) (pointer : String) :
    Solid (referenceType (some table) pointer) := by
  unfold referenceType
  dsimp only
  split
  · exact Symbol.solid_of_chars (by decide)
  · split
    · rename_i declared hlookup
      exact solid_of_isNameChar (h _ (Assoc.mem_of_lookup hlookup))
    · exact solid_of_isNameChar (Name.isNameChar_toTypeIdentifier _)

/-- The symbols that the name of a property is written with. -/
def keySymbols (name : String) : List Symbol :=
  if Name.isIdentifier name then name.toList.map .char else [.text name]

/-- The name of a property is written with the characters of the name, or with one text. -/
theorem shows_propertyKey (name : String) : Shows (propertyKey name) (keySymbols name) := by
  unfold propertyKey keySymbols
  split
  · rename_i h
    exact Symbol.shows_chars
      (not_mem_of_isNameChar (Name.isNameChar_of_isIdentifier h) _ (by decide))
  · exact Symbol.shows_textLiteral name

/-- No symbol of a name means anything to the reader: what passes for an identifier has no such
character, and what does not is a text. -/
theorem not_mem_keySymbols (name : String) {c : Char}
    (hc : c ∈ '\'' :: ':' :: '?' :: Symbol.separators) : .char c ∉ keySymbols name := by
  unfold keySymbols
  split
  · rename_i h
    simpa using not_mem_of_isNameChar (Name.isNameChar_of_isIdentifier h) c hc
  · simp

/-- A name does not begin with what may stand in front of a member, so none of it is passed over as
indentation. An empty name is a text, and a line feed can only be the last character of what is
written without quotes. -/
theorem exists_keySymbols (name : String) :
    ∃ s ss, keySymbols name = s :: ss ∧ s ≠ .char '\n' := by
  unfold keySymbols
  split
  · rename_i h
    unfold Name.isIdentifier at h
    cases hname : name.toList with
    | nil => simp [hname, Name.isIdentifierChars] at h
    | cons c cs =>
      refine ⟨.char c, cs.map .char, rfl, ?_⟩
      -- Only the last character of an identifier may be a line feed.
      rintro ⟨rfl⟩
      rw [hname, Name.isIdentifierChars] at h
      simp [show Name.isIdentifierStart '\n' = false by decide] at h
  · exact ⟨_, _, rfl, by simp⟩

/-- The mark behind the name of a property. -/
def markOf (required : Bool) : String := if required then "" else "?"

/-- The symbols of the mark behind the name of a property. -/
def markSymbols (required : Bool) : List Symbol := if required then [] else [.char '?']

/-- What a member has in front of its colon. -/
def headOf (m : Member) : List Symbol :=
  keySymbols m.name ++ markSymbols m.required

/-- In front of a colon every other symbol belongs to what stands there. -/
theorem headsFrom_inName {run ss rest : List Symbol} (h : .char ':' ∉ ss) :
    headsFrom (.inName run) (ss ++ rest) = headsFrom (.inName (ss.reverse ++ run)) rest := by
  induction ss generalizing run with
  | nil => rfl
  | cons s ss ih =>
    rw [List.mem_cons, not_or] at h
    rw [List.cons_append, headsFrom, if_neg (Ne.symm h.1), ih h.2, List.reverse_cons,
      List.append_assoc, List.singleton_append]

/-- The name of a property begins a member, and the reader stands in front of its colon with the
symbols of the name. -/
theorem leads_propertyKey (name : String) :
    Leads .between (propertyKey name) [] (.inName (keySymbols name).reverse) := by
  refine ⟨keySymbols name, shows_propertyKey name, fun rest => ?_⟩
  obtain ⟨s, ss, hkey, hline⟩ := exists_keySymbols name
  have hfree : ∀ c ∈ '\'' :: ':' :: '?' :: Symbol.separators, .char c ∉ s :: ss :=
    fun c hc => hkey ▸ not_mem_keySymbols name hc
  have hfirst : ∀ c ∈ '\'' :: ':' :: '?' :: Symbol.separators, s ≠ .char c :=
    fun c hc hs => hfree c hc (hs ▸ List.mem_cons_self)
  -- The first symbol begins a member, and no symbol after it ends the name.
  rw [hkey, List.cons_append, headsFrom,
    if_neg (by simp [isBlank, hline, hfirst ' ' (by decide)]), if_neg (hfirst _ (by decide)),
    headsFrom_inName fun hc => hfree ':' (by decide) (List.mem_cons_of_mem s hc)]
  simp

/-- The mark behind a name is one more symbol in front of the colon. -/
theorem leads_mark (run : List Symbol) (required : Bool) :
    Leads (.inName run) (markOf required) []
      (.inName ((markSymbols required).reverse ++ run)) := by
  cases required with
  | true => exact leads_empty _
  | false => exact leads_char (c := '?') (by decide) fun rest => by simp [headsFrom, markSymbols]

/-- The colon ends what stands in front of it, and the type begins. -/
theorem leads_colon (run : List Symbol) :
    Leads (.inName run) ": " [run.reverse] (.inType 0) := by
  have hcolon : Leads (.inName run) ":" [run.reverse] (.inType 0) :=
    leads_char (c := ':') (by decide) fun rest => by simp [headsFrom]
  have hblank : Passes " " := passes_of_chars (by decide)
  exact hcolon.append (hblank 0)

/-! ### Lines -/

/-- The line of a property whose type is given. -/
def line (indent : Int) (name : String) (required : Bool) (type : String) : String :=
  indentation indent ++ propertyKey name ++ markOf required ++ ": " ++ type ++ ";"

/-- Each property is one line of its own, which depends on the other properties in nothing. -/
theorem fieldLines_eq (names : Option TypeNames) (required : List String) (indent : Int) :
    ∀ fields : Fields, fieldLines names required fields indent = fields.toList.map fun field =>
      line indent field.1 (required.contains field.1) (typeText names field.2 indent)
  | .nil => rfl
  | .cons name schema rest => by
    rw [fieldLines, fieldLines_eq names required indent rest]
    rfl

/-- Lines are indented with blanks. -/
theorem eq_of_mem_indentation {c : Char} {indent : Int} (hc : c ∈ (indentation indent).toList) :
    c = ' ' := by
  rw [indentation, String.toList_ofList] at hc
  exact List.eq_of_mem_replicate hc

/-- In a type indentation is passed. -/
theorem passes_indentation (indent : Int) : Passes (indentation indent) :=
  passes_of_chars (List.all_eq_true.mpr fun _ hc => by rw [eq_of_mem_indentation hc]; decide)

/-- In front of a member indentation is passed. -/
theorem leads_indentation (indent : Int) : Leads .between (indentation indent) [] .between :=
  leads_blanks fun _ hc => .inl (eq_of_mem_indentation hc)

/-- The line of a property is passed inside of the braces of another record: its semicolon is deeper
than those that end members. -/
theorem leads_innerLine {type : String} (htype : Passes type) (indent : Int) (name : String)
    (required : Bool) (depth : Nat) :
    Leads (.inType (depth + 1)) (line indent name required type) [] (.inType (depth + 1)) := by
  have hkey : Passes (propertyKey name) := passes_of_shows (shows_propertyKey name) fun c hc =>
    not_mem_keySymbols name ((by decide : [';', '\x7b', '\x7d'] ⊆ _) hc)
  have hmark : Passes (markOf required) := by
    cases required <;> exact passes_of_chars (by decide)
  have hcolon : Passes ": " := passes_of_chars (by decide)
  have hstart := (((passes_indentation indent).append hkey).append hmark).append hcolon
  exact (hstart.append htype (depth + 1)).append (leads_innerSemicolon depth)

/-- The line of a property is a member of the record that it stands in, with the name of the
property and the mark in front of the colon. -/
theorem leads_line {type : String} (htype : Passes type) (indent : Int) (name : String)
    (required : Bool) :
    Leads .between (line indent name required type) [headOf ⟨name, required⟩] .between := by
  have hhead := leads_colon ((markSymbols required).reverse ++ (keySymbols name).reverse)
  rw [List.reverse_append, List.reverse_reverse, List.reverse_reverse] at hhead
  exact (((((leads_indentation indent).append (leads_propertyKey name)).append
    (leads_mark _ required)).append hhead).append (htype 0)).append leads_semicolon

/-- What stands between the braces of a record. -/
def body (lines : List String) (indent : Int) : String :=
  "\n" ++ "\n".intercalate lines ++ "\n" ++ indentation indent

/-- A record is a body between braces. -/
theorem recordText_eq (lines : List String) (indent : Int) :
    recordText lines indent = "\x7b" ++ body lines indent ++ "\x7d" := by
  rw [recordText, body, show "\x7b\n" = "\x7b" ++ "\n" by rfl]
  simp only [String.append_assoc]

/-- The lines between the braces of a record are read in turn, wherever a line feed and indentation
are passed. This is used in two places: in front of members, and inside of the type of another
record's member. -/
theorem leads_body {α : Type} {l : List α} {f : α → String} {g : α → List (List Symbol)}
    {indent : Int} (hfeed : Leads p "\n" [] p) (hindentation : Leads p (indentation indent) [] p)
    (h : ∀ a ∈ l, Leads p (f a) (g a) p) : Leads p (body (l.map f) indent) (l.flatMap g) p := by
  simpa [body] using
    ((hfeed.append (leads_intercalate hfeed h)).append hfeed).append hindentation

/-! ### The type of a schema -/

/-- The type of a scalar or an enumeration is passed, for neither words nor literals hold a brace or
a semicolon outside of quotes. -/
theorem passes_primitive {names : Option TypeNames} {type format : Option String}
    {members : Option (List Value)} {description : String} {indent : Int} :
    Passes (typeText names (.primitive type format members description) indent) := by
  cases members with
  | none => exact passes_of_solid (solid_scalarType type)
  | some members =>
    by_cases hnone : members.filterMap Value.literal? = []
    · rw [typeText_of_no_literals hnone]
      exact passes_of_solid (solid_scalarType type)
    · rw [typeText_of_literals hnone]
      exact passes_intercalate (passes_of_chars (by decide))
        fun l hl => passes_of_solid (solid_of_mem_literals hl)

mutual

/-- A type is passed, whatever it is part of. By induction over the schema: what a type holds of
records is one brace deeper, and everything else has no braces. -/
theorem passes_typeText {table : TypeNames} (h : ProperNames table) (schema : Schema)
    (indent : Int) : Passes (typeText (some table) schema indent) := by
  cases schema with
  | primitive type format members description => exact passes_primitive
  | array items description =>
    have hitems := passes_typeText h items indent
    have hopen : Passes "Array<" := passes_of_chars (by decide)
    have hclose : Passes ">" := passes_of_chars (by decide)
    exact (hopen.append hitems).append hclose
  | anyArray description =>
    exact passes_of_chars (s := unknownType ++ "[]") (by decide)
  | record fields required description =>
    rw [typeText]
    split
    · exact passes_of_chars (by decide)
    · -- The lines are one brace deeper, so their semicolons end no member of what is around them.
      intro depth
      -- Line feeds and indentation are passed at any depth.
      have hfeed : Passes "\n" := passes_of_chars (by decide)
      have hbody := leads_body (g := fun _ => []) (hfeed (depth + 1))
        (passes_indentation indent (depth + 1)) fun field hfield =>
          leads_innerLine (passes_types h fields (indent + 1) field hfield) (indent + 1) field.1
            (required.contains field.1) depth
      rw [recordText_eq, fieldLines_eq]
      simpa using ((leads_openBrace depth).append hbody).append (leads_closeBrace depth)
  | anyRecord required description =>
    exact passes_of_chars (s := openRecordType) (by decide)
  | reference pointer description => exact passes_of_solid (solid_referenceType h pointer)
  | unknown description => exact passes_of_chars (s := unknownType) (by decide)

/-- The types of all properties of a record are passed. -/
theorem passes_types {table : TypeNames} (h : ProperNames table) (fields : Fields) (indent : Int) :
    ∀ field ∈ fields.toList, Passes (typeText (some table) field.2 indent) := by
  cases fields with
  | nil => exact List.forall_mem_nil _
  | cons name schema rest =>
    exact List.forall_mem_cons.mpr ⟨passes_typeText h schema indent, passes_types h rest indent⟩

end

/-! ### Records -/

/-- The members of a record whose properties have these names. -/
def members (names required : List String) : List Member :=
  names.map fun name => ⟨name, required.contains name⟩

/-- Lists of members are equal only if they have the same names in the same order and require the
same of them. -/
theorem of_members_eq {names names' required required' : List String}
    (h : members names required = members names' required') :
    names = names' ∧ ∀ name ∈ names, (name ∈ required ↔ name ∈ required') := by
  have hnames : names = names' := by
    simpa [members, Function.comp_def] using congrArg (List.map Member.name) h
  subst hnames
  refine ⟨rfl, fun name hname => ?_⟩
  have hmember := List.map_inj_left.mp h name hname
  simpa using hmember

/-- The type of a record is read as one member for each property, in order, with the name in front
of the colon as it is written. This holds of every name, since nothing is made of the names yet. -/
theorem heads_typeText {table : TypeNames} (h : ProperNames table) {fields : Fields}
    (hne : fields.isEmpty = false) (required : List String) (description : String) (indent : Int) :
    heads (typeText (some table) (.record fields required description) indent)
      = some ((members (fields.toList.map Prod.fst) required).map headOf) := by
  obtain ⟨ss, hshows, hss⟩ := leads_body (leads_blanks (s := "\n") (by simp))
    (leads_indentation indent) fun field hfield =>
      leads_line (passes_types h fields (indent + 1) field hfield) (indent + 1) field.1
        (required.contains field.1)
  have hopen : Shows "\x7b" [.char '\x7b'] := Symbol.shows_chars (by decide)
  have hclose : Shows "\x7d" [.char '\x7d'] := Symbol.shows_chars (by decide)
  rw [typeText, hne, if_neg Bool.false_ne_true, recordText_eq, fieldLines_eq, heads,
    ((hopen.append hshows).append hclose).read_eq]
  -- What is left is the body and the brace after it, which ends the reading.
  show headsFrom .between (ss ++ [.char '\x7d']) = _
  rw [hss, ← List.map_eq_flatMap]
  simp [headsFrom, isBlank, members, Function.comp_def]

/-! ### Names that are read back -/

/-- The name that a property is read back by: its own, or what stands in front of its line feed if
it passes for an identifier in spite of one. -/
def nameRead (name : String) : String :=
  if Name.EndsLine name then String.ofList name.toList.dropLast else name

/-- A name is read back by itself exactly if it does not pass for an identifier with a line feed. -/
theorem nameRead_eq_iff {name : String} : nameRead name = name ↔ ¬ Name.EndsLine name := by
  unfold nameRead
  split
  · rename_i hline
    -- One character is missing from what is read.
    refine iff_of_false (fun heq => ?_) (not_not_intro hline)
    have hlength := congrArg List.length hline.dropLast_append
    rw [← String.toList_ofList (l := name.toList.dropLast), heq] at hlength
    simp at hlength
  · rename_i hline
    exact iff_of_true rfl hline

/-- Characters are characters. -/
theorem mapM_char? (cs : List Char) : (cs.map Symbol.char).mapM char? = some cs := by
  have hall : cs.mapM (char? ∘ .char) = some (cs.map id) := List.mapM_pure
  rw [List.mapM_map, hall, List.map_id]

/-- An identifier is read as a name to its end, for it ends in no blank and no line feed. -/
theorem rdropWhile_of_properChars {cs : List Char} (h : Name.ProperChars cs) :
    (cs.map Symbol.char).rdropWhile isBlank = cs.map .char := by
  refine List.rdropWhile_eq_self_iff.mpr fun hne => ?_
  have hlast := h.isIdentifierChar _ (List.getLast_mem (by simpa using hne))
  rw [List.getLast_map (by simpa using hne)]
  intro hblank
  simp only [isBlank, Bool.or_eq_true, decide_eq_true_eq, Symbol.char.injEq] at hblank
  rcases hblank with heq | heq <;> rw [heq] at hlast <;> exact absurd hlast (by decide)

/-- An identifier without quotes is a name. -/
theorem name?_of_properChars {cs : List Char} (h : Name.ProperChars cs) :
    name? (cs.map .char) = some (String.ofList cs) := by
  -- The first symbol is a character, so the symbols are not a text in quotes.
  have hsymbols : name? (cs.map .char)
      = (((cs.map Symbol.char).mapM char?).filter fun cs => Name.ProperChars cs).map
          String.ofList := by
    obtain ⟨c, rest, rfl, -⟩ := h
    rfl
  rw [hsymbols, mapM_char?, Option.filter_some, if_pos (decide_eq_true h), Option.map_some]

/-- A name is read back from where it is written, up to a line feed at its end. In quotes it is read
back whatever it is; without quotes it is an identifier, or one with a line feed that is taken for
the end of the name. -/
theorem name?_keySymbols (name : String) :
    name? ((keySymbols name).rdropWhile isBlank) = some (nameRead name) := by
  unfold keySymbols nameRead
  split
  · rename_i hident
    split
    · rename_i hline
      have hproper := hline.properChars_dropLast
      -- The line feed is the only character that is dropped.
      have hchars : (name.toList.map Symbol.char).rdropWhile isBlank
          = name.toList.dropLast.map .char := by
        rw [← hline.dropLast_append, List.map_append, List.map_singleton,
          List.rdropWhile_concat_pos _ _ _ (by decide), hline.dropLast_append,
          rdropWhile_of_properChars hproper]
      rw [hchars, name?_of_properChars hproper]
    · rename_i hline
      have hproper := Name.proper_of_isIdentifier hident hline
      rw [rdropWhile_of_properChars hproper, name?_of_properChars hproper, String.ofList_toList]
  · rename_i hident
    rw [if_neg fun hline => hident hline.1]
    rfl

/-- What stands in front of a colon is read as the name and the mark, with the name up to a line
feed. The mark is never taken for the last character of a name, and no name for the mark. -/
theorem member?_headOf (m : Member) :
    member? (headOf m) = some ⟨nameRead m.name, m.required⟩ := by
  obtain ⟨name, required⟩ := m
  have hmark : .char '?' ∉ keySymbols name := not_mem_keySymbols name (by decide)
  cases required with
  -- The mark is the last symbol, and what is in front of it is the name.
  | false =>
    simp [member?, headOf, markSymbols, List.rdropWhile_concat_neg, isBlank, name?_keySymbols]
  -- Without a mark, the last symbol is one of the name.
  | true =>
    have hlast : ((keySymbols name).rdropWhile isBlank).getLast? ≠ some (.char '?') := fun h =>
      hmark ((List.rdropWhile_prefix _ _).subset (List.mem_of_getLast? h))
    simp [member?, headOf, markSymbols, hlast, name?_keySymbols]

/-- All members of a record have names, so reading them never fails. -/
theorem mapM_member? (ms : List Member) :
    (ms.map headOf).mapM member? = some (ms.map fun m => ⟨nameRead m.name, m.required⟩) := by
  rw [List.mapM_map, show member? ∘ headOf = _ from funext member?_headOf]
  exact List.mapM_pure

/-- The type of a record is read as its properties, each by the name that can be read back. -/
theorem read_typeText {table : TypeNames} (h : ProperNames table) {fields : Fields}
    (hne : fields.isEmpty = false) (required : List String) (description : String) (indent : Int) :
    read (typeText (some table) (.record fields required description) indent)
      = some ((members (fields.toList.map Prod.fst) required).map fun m =>
          ⟨nameRead m.name, m.required⟩) := by
  rw [read, heads_typeText h hne, Option.bind_some, mapM_member?]

/-- Different names are written differently: in quotes and without quotes are told apart, and within
each kind the name is there as it is. -/
theorem keySymbols_injective : Function.Injective keySymbols := by
  intro name name' h
  unfold keySymbols at h
  split at h <;> split at h
  · exact String.toList_injective (List.map_injective_iff.mpr (fun _ _ h => by cases h; rfl) h)
  · -- Characters are no text, and there may be none of them.
    cases hchars : name.toList <;> simp [hchars] at h
  · cases hchars : name'.toList <;> simp [hchars] at h
  · cases h
    rfl

/-- What stands in front of a colon is written for one name only, and says whether it is required.
This holds of names with a line feed too: they are told apart as they are written, though not as
they are read. -/
theorem headOf_injective : Function.Injective headOf := by
  have hmark : ∀ name, .char '?' ∉ keySymbols name :=
    fun name => not_mem_keySymbols name (by decide)
  rintro ⟨name, required⟩ ⟨name', required'⟩ h
  -- The mark is there on both sides or on neither: no name has one.
  cases required <;> cases required' <;>
    simp only [headOf, markSymbols, ↓reduceIte, List.append_nil, Bool.false_eq_true] at h
  · rw [keySymbols_injective (List.append_cancel_right h)]
  · exact absurd (h ▸ List.mem_append_right _ List.mem_cons_self) (hmark name')
  · exact absurd (h ▸ List.mem_append_right _ List.mem_cons_self) (hmark name)
  · rw [keySymbols_injective h]

/-- A union of literals does not begin like a record. -/
theorem head?_union_ne {ls : List String} (h : ∀ l ∈ ls, Solid l) :
    (" | ".intercalate ls).toList.head? ≠ some '\x7b' := by
  cases ls with
  | nil => simp
  | cons l rest =>
    obtain ⟨hl, -⟩ := List.forall_mem_cons.mp h
    have hne := hl.head?_ne (c := '\x7b') (by decide)
    cases rest with
    | nil => simpa using hne
    | cons l' rest =>
      rw [String.intercalate_cons_cons]
      cases hcs : l.toList with
      | nil => simp [hcs]
      | cons c cs => simpa [hcs] using hne

/-- What is read as members begins with a brace. -/
theorem head?_of_isSome_read {s : String} (h : (read s).isSome = true) :
    s.toList.head? = some '\x7b' := by
  obtain ⟨ms, hread⟩ := Option.isSome_iff_exists.mp h
  obtain ⟨xs, hheads, -⟩ := Option.bind_eq_some_iff.mp hread
  unfold heads at hheads
  split at hheads
  · rename_i hsymbols
    exact Symbol.head?_of_read hsymbols
  · cases hheads

/-- The type of what is no record does not begin like one. -/
theorem head?_typeText_ne {table : TypeNames} (h : ProperNames table) {schema : Schema}
    (hr : schema.isRecord = false) (depth : Int) :
    (typeText (some table) schema depth).toList.head? ≠ some '\x7b' := by
  cases schema with
  | primitive type format members description =>
    cases members with
    | none => exact (solid_scalarType type).head?_ne (by decide)
    | some members =>
      by_cases hnone : members.filterMap Value.literal? = []
      · rw [typeText_of_no_literals hnone]
        exact (solid_scalarType type).head?_ne (by decide)
      · rw [typeText_of_literals hnone]
        exact head?_union_ne fun l hl => solid_of_mem_literals hl
  | array items description => simp [typeText]
  | anyArray description => simp [typeText, unknownType]
  | record fields required description =>
    have he : fields.isEmpty = true := by simpa [Schema.isRecord] using hr
    simp [typeText, he, openRecordType]
  | anyRecord required description => simp [typeText, openRecordType]
  | reference pointer description => exact (solid_referenceType h pointer).head?_ne (by decide)
  | unknown description => simp [typeText, unknownType]

/-- The types of records are those that open with a brace, and those that are read as members. So
what a declaration is can be told from its text. -/
theorem braced_typeText {table : TypeNames} (h : ProperNames table) (schema : Schema)
    (depth : Int) :
    ((typeText (some table) schema depth).toList.head? = some '\x7b' ↔ schema.isRecord = true) ∧
    ((read (typeText (some table) schema depth)).isSome = true ↔ schema.isRecord = true) := by
  cases hr : schema.isRecord with
  | false =>
    have hne := head?_typeText_ne h hr depth
    exact ⟨iff_of_false hne Bool.false_ne_true,
      iff_of_false (fun hread => hne (head?_of_isSome_read hread)) Bool.false_ne_true⟩
  | true =>
    cases schema with
    -- A record with properties is written between braces and read by them.
    | record fields required description =>
      have he : fields.isEmpty = false := by simpa [Schema.isRecord] using hr
      have hread := congrArg Option.isSome (read_typeText h he required description depth)
      exact ⟨iff_of_true (head?_of_isSome_read hread) rfl, iff_of_true hread rfl⟩
    | primitive | array | anyArray | anyRecord | reference | unknown => cases hr

variable {d : Document} {hint : Option String} {fields : Fields} {required : List String}
  {description text : String} {depth : Int}

/-- The type that a document's record is resolved to is read as what stands in front of its members'
colons. -/
theorem heads_of_resolvedType (hne : fields.isEmpty = false)
    (h : (resolvedType (some (Builder.ofDocument d).typeNames) hint
      (.record fields required description) depth).outcome = .ok text) :
    heads text = some ((members (fields.toList.map Prod.fst) required).map headOf) := by
  obtain ⟨-, rfl⟩ := outcome_resolvedType_eq_ok_iff.mp h
  exact heads_typeText (properNames_ofDocument d) hne required description depth

/-- The type that a document's record is resolved to is read as its properties, each by the name
that can be read back. -/
theorem read_of_resolvedType (hne : fields.isEmpty = false)
    (h : (resolvedType (some (Builder.ofDocument d).typeNames) hint
      (.record fields required description) depth).outcome = .ok text) :
    read text = some ((members (fields.toList.map Prod.fst) required).map fun m =>
      ⟨nameRead m.name, m.required⟩) := by
  obtain ⟨-, rfl⟩ := outcome_resolvedType_eq_ok_iff.mp h
  exact read_typeText (properNames_ofDocument d) hne required description depth

/-- The type that a document's record is resolved to is read as its properties exactly if none of
their names passes for an identifier with a line feed. -/
theorem read_of_resolvedType_iff (hne : fields.isEmpty = false)
    (h : (resolvedType (some (Builder.ofDocument d).typeNames) hint
      (.record fields required description) depth).outcome = .ok text) :
    read text = some (members (fields.toList.map Prod.fst) required) ↔
      ∀ name ∈ fields.toList.map Prod.fst, ¬ Name.EndsLine name := by
  rw [read_of_resolvedType hne h, Option.some_inj, members, List.map_map, List.map_inj_left]
  simp [nameRead_eq_iff]

end RecordType

/-- The type of a record is read as its properties exactly if none of their names passes for an
identifier in spite of a line feed. Such a name is written without quotes, and is read without its
line feed. Whatever the names are, records with one type have the same properties in the same
order, and require the same of them. -/
theorem record_unambiguous (d : Document) (depth : Int) :
    (∀ (hint : Option String) (fields : Fields) (required : List String)
        (description text : String), fields.isEmpty = false →
      (resolvedType (some (Builder.ofDocument d).typeNames) hint
        (.record fields required description) depth).outcome = .ok text →
      (RecordType.read text = some (RecordType.members (fields.toList.map Prod.fst) required) ↔
        ∀ name ∈ fields.toList.map Prod.fst, ¬ Name.EndsLine name)) ∧
    ∀ (hint hint' : Option String) (fields fields' : Fields) (required required' : List String)
        (description description' text : String),
      fields.isEmpty = false → fields'.isEmpty = false →
      (resolvedType (some (Builder.ofDocument d).typeNames) hint
        (.record fields required description) depth).outcome = .ok text →
      (resolvedType (some (Builder.ofDocument d).typeNames) hint'
        (.record fields' required' description') depth).outcome = .ok text →
      fields.toList.map Prod.fst = fields'.toList.map Prod.fst ∧
        ∀ name ∈ fields.toList.map Prod.fst, (name ∈ required ↔ name ∈ required') := by
  refine ⟨fun _ _ _ _ _ hne htext => RecordType.read_of_resolvedType_iff hne htext, ?_⟩
  intro hint hint' fields fields' required required' description description' text hne hne' htext
    htext'
  -- The reading of names may lose a line feed, so the members are compared as they are written.
  have hheads := RecordType.heads_of_resolvedType hne htext
  rw [RecordType.heads_of_resolvedType hne' htext'] at hheads
  exact RecordType.of_members_eq
    (List.map_injective_iff.mpr RecordType.headOf_injective (Option.some.inj hheads)).symm

/-- The type of a record with a property that is not what its type is read as: the line feed of its
name is taken for one between the name and the mark behind it. -/
theorem record_misread_line_feed :
    (resolvedType (some (Builder.ofDocument Builder.petsDocument).typeNames) none
      (.record (.cons "abc\n" (.primitive (some "string") none none "") .nil) [] "") 0).outcome
        = .ok "\x7b\n  abc\n?: string;\n\x7d" ∧
    RecordType.read "\x7b\n  abc\n?: string;\n\x7d" = some [⟨"abc", false⟩] ∧
    RecordType.members ["abc\n"] [] ≠ [⟨"abc", false⟩] := by
  have htext : (resolvedType (some (Builder.ofDocument Builder.petsDocument).typeNames) none
      (.record (.cons "abc\n" (.primitive (some "string") none none "") .nil) [] "") 0).outcome
        = .ok "\x7b\n  abc\n?: string;\n\x7d" := by
    decide +kernel
  refine ⟨htext, ?_, by decide⟩
  rw [RecordType.read_of_resolvedType rfl htext]
  decide +kernel

/-- Properties whose names and types hold what members are written with. -/
def quotedFields (number : String) : Fields :=
  .cons "a; b?: any" (.primitive none none (some [.text "\x7d; c: '", .null]) "")
    (.cons "pet" (.record (.cons "id" (.primitive (some number) none none "") .nil) ["id"] "")
      (.cons "owner" (.reference "#/components/schemas/Pets-Get-Response" "") .nil))

/-- Two records have one type, in which a name looks like two members and an enumeration like the
end of the record. -/
theorem record_unambiguous_quoted :
    ∃ text,
      (resolvedType (some (Builder.ofDocument Builder.petsDocument).typeNames) none
        (.record (quotedFields "integer") ["x", "pet"] "") 1).outcome = .ok text ∧
      (resolvedType (some (Builder.ofDocument Builder.petsDocument).typeNames) (some "Pet")
        (.record (quotedFields "number") ["pet"] "A pet.") 1).outcome = .ok text ∧
      RecordType.read text
        = some [⟨"a; b?: any", false⟩, ⟨"pet", true⟩, ⟨"owner", false⟩] ∧
      (∀ name ∈ ["a; b?: any", "pet", "owner"], (name ∈ ["x", "pet"] ↔ name ∈ ["pet"])) := by
  obtain ⟨text, htext, htext'⟩ : ∃ text,
      (resolvedType (some (Builder.ofDocument Builder.petsDocument).typeNames) none
        (.record (quotedFields "integer") ["x", "pet"] "") 1).outcome = .ok text ∧
      (resolvedType (some (Builder.ofDocument Builder.petsDocument).typeNames) (some "Pet")
        (.record (quotedFields "number") ["pet"] "A pet.") 1).outcome = .ok text :=
    ⟨_, rfl, by decide +kernel⟩
  have h := record_unambiguous Builder.petsDocument 1
  exact ⟨text, htext, htext', (h.1 none _ _ "" text (by decide) htext).mpr (by decide),
    (h.2 none (some "Pet") _ _ _ _ "" "A pet." text (by decide) (by decide) htext htext').2⟩

end TypedClient
