import TypedClient.Proofs.Name.Identifier
import TypedClient.Proofs.Schema.Quotes

/-!
# `TypedClient.Proofs.Client.Tokens`: the tokens of what a client is written in

The arguments of a call and the members of a record are written with words, texts in single
quotes and a few marks, and blanks between them. This module reads such writing back into
tokens, without the functions that write it.

* `Token.read`: the tokens that characters are made of.
* `Token.Shows`: a text that is read as given tokens wherever it stands.
* `Token.shows_textLiteral`, `Token.shows_propertyKey`: the literal of a text is one token
  that stands for that text, and so is the name of a property.
-/

set_option autoImplicit false

namespace TypedClient

/-- A token: a word, a text in single quotes or a mark between them. -/
inductive Token where
  | word (s : String)
  /-- A text in single quotes. -/
  | text (s : String)
  | mark (c : Char)
deriving DecidableEq

/-- What holds of nothing and of two texts that are joined holds of any number of them. The relation
is between a text and a list, so that it can say what the text is read as; the readers of types and
of calls both use it. -/
theorem intercalate_induction {α β : Type} {R : String → List β → Prop} {sep : String}
    {between : List β} (hempty : R "" [])
    (hjoin : ∀ {s t ss ts}, R s ss → R t ts → R (s ++ sep ++ t) (ss ++ between ++ ts))
    {l : List α} {f : α → String} {g : α → List β} (h : ∀ a ∈ l, R (f a) (g a)) :
    R (sep.intercalate (l.map f)) (between.intercalate (l.map g)) := by
  induction l with
  | nil => exact hempty
  | cons a l ih =>
    obtain ⟨ha, hl⟩ := List.forall_mem_cons.mp h
    cases l with
    | nil => simpa using ha
    | cons b l =>
      rw [List.map_cons, List.map_cons, List.map_cons, List.map_cons,
        String.intercalate_cons_cons, List.intercalate_cons_cons]
      exact hjoin ha (ih hl)

namespace Token

/-- The characters that are tokens of their own. -/
def marks : List Char := ['\x7b', '\x7d', ':', ',']

/-- Where a reader stands. The characters of a word so far are in reverse. -/
inductive Place where
  | between
  | inWord (run : List Char)
  | inText (q : Quote)

/-- Tokens in front of those that are read. -/
def before (ts : List Token) (r : Option (List Token)) : Option (List Token) := r.map (ts ++ ·)

/-- The tokens that characters are made of. Words begin like identifiers, and quotes are read as
texts in quotes are. -/
def readFrom : Place → List Char → Option (List Token)
  | .between, [] => some []
  | .between, c :: cs =>
    if c = ' ' then readFrom .between cs
    else if marks.contains c then before [.mark c] (readFrom .between cs)
    else if c = '\'' then readFrom (.inText .start) cs
    else if Name.isIdentifierStart c then readFrom (.inWord [c]) cs
    else none
  | .inWord run, [] => some [.word (String.ofList run.reverse)]
  | .inWord run, c :: cs =>
    if Name.isIdentifierChar c then readFrom (.inWord (c :: run)) cs
    else if c = ' ' then before [.word (String.ofList run.reverse)] (readFrom .between cs)
    else if marks.contains c then
      before [.word (String.ofList run.reverse), .mark c] (readFrom .between cs)
    else none
  | .inText _, [] => none
  | .inText q, c :: cs =>
    match q.step c with
    | none => none
    | some (.on q) => readFrom (.inText q) cs
    | some (.closed s) => before [.text s] (readFrom .between cs)

/-- The tokens that characters are made of, when none of them is left over. -/
def read (cs : List Char) : Option (List Token) := readFrom .between cs

/-- Nothing in front of what is read leaves it as it is. -/
@[simp] theorem before_nil (r : Option (List Token)) : before [] r = r := by
  simp [before]

/-- Tokens in front of tokens stand in that order, and a reading that fails still does. -/
theorem before_before (ts us : List Token) (r : Option (List Token)) :
    before ts (before us r) = before (ts ++ us) r := by
  simp [before, Function.comp_def]

variable {cs rest : List Char} {s t p : String} {ts us : List Token} {c : Char}

/-! ### Blanks and marks -/

/-- Characters between words and texts: blanks and marks. -/
def Gap (cs : List Char) : Prop := ∀ c ∈ cs, c = ' ' ∨ c ∈ marks

instance (cs : List Char) : Decidable (Gap cs) := List.decidableBAll _ cs

/-- The tokens of characters between words and texts. -/
def gapTokens (cs : List Char) : List Token := (cs.filter (· ≠ ' ')).map .mark

/-- Blanks and marks are read on their own, whatever comes after them. Blanks are no tokens. -/
theorem read_gap (h : Gap cs) : read (cs ++ rest) = before (gapTokens cs) (read rest) := by
  induction cs with
  | nil => simp [gapTokens]
  | cons c cs ih =>
    obtain ⟨hc, hcs⟩ := List.forall_mem_cons.mp h
    have ih : readFrom .between (cs ++ rest) = before (gapTokens cs) (readFrom .between rest) :=
      ih hcs
    -- A blank is passed, and a mark is a token.
    rcases hc with rfl | hc
    · simpa [read, readFrom, gapTokens] using ih
    · have hblank : c ≠ ' ' := by
        rintro rfl
        exact absurd hc (by decide)
      simp [read, readFrom, gapTokens, hc, hblank, ih, before_before]

/-- Nothing, or something that ends a word. -/
def Ends (cs : List Char) : Prop := Gap cs.head?.toList

/-- A word ends where there is nothing more. -/
theorem ends_nil : Ends [] := List.forall_mem_nil _

/-- A word ends where blanks or marks come next. -/
theorem ends_append (h : Gap cs) (hne : cs ≠ []) : Ends (cs ++ rest) := by
  cases cs with
  | nil => exact absurd rfl hne
  | cons c cs => simpa [Ends, Gap] using (List.forall_mem_cons.mp h).1

/-! ### Texts that are read as given tokens -/

/-- The text is read as the tokens, whatever comes after it, if that ends a word. -/
def Shows (s : String) (ts : List Token) : Prop :=
  ∀ rest, Ends rest → read (s.toList ++ rest) = before ts (read rest)

/-- A text that is read as given tokens wherever it stands is read so by itself. -/
theorem Shows.read_eq (h : Shows s ts) : read s.toList = some ts := by
  simpa [read, readFrom, before] using h [] ends_nil

/-- Nothing is read as no tokens. -/
theorem shows_empty : Shows "" [] := fun rest _ => by simp

/-- Texts with a gap between them are read one after the other. Without a gap two words would be
one, which is why, unlike the symbols of a type, tokens are not read text by text. -/
theorem Shows.append (hs : Shows s ts) (ht : Shows t us) (hp : Gap p.toList) (hne : p ≠ "") :
    Shows (s ++ p ++ t) (ts ++ gapTokens p.toList ++ us) := by
  intro rest hrest
  have hends : Ends (p.toList ++ (t.toList ++ rest)) :=
    ends_append hp (by simpa using hne)
  -- The gap ends the first text, and what comes after everything ends the second one.
  rw [String.toList_append, String.toList_append, List.append_assoc, List.append_assoc,
    hs _ hends, read_gap hp, ht rest hrest, before_before, before_before, List.append_assoc]

/-- Several texts with commas between them are read one after the other. -/
theorem shows_intercalate {α : Type} {l : List α} {f : α → String} {g : α → List Token}
    (h : ∀ a ∈ l, Shows (f a) (g a)) :
    Shows (", ".intercalate (l.map f)) ([mark ','].intercalate (l.map g)) :=
  intercalate_induction shows_empty
    (fun hs ht => hs.append ht (p := ", ") (by decide) (by decide)) h

/-! ### Words -/

/-- Neither a blank nor a mark is a character of an identifier, so a word ends there. -/
theorem not_isIdentifierChar_of_gap (h : c = ' ' ∨ c ∈ marks) :
    Name.isIdentifierChar c = false := by
  have hall : (' ' :: marks).all (!Name.isIdentifierChar ·) = true := by decide
  simpa using List.all_eq_true.mp hall c (List.mem_cons.mpr h)

/-- A word is read on to where it ends. -/
theorem readFrom_inWord (run : List Char) (h : ∀ c ∈ cs, Name.isIdentifierChar c = true)
    (hrest : Ends rest) : readFrom (.inWord run) (cs ++ rest)
      = before [.word (String.ofList (run.reverse ++ cs))] (read rest) := by
  induction cs generalizing run with
  | nil =>
    cases rest with
    | nil => simp [readFrom, read, before]
    | cons c rest =>
      have hgap : c = ' ' ∨ c ∈ marks := hrest c List.mem_cons_self
      have hend := not_isIdentifierChar_of_gap hgap
      rcases hgap with rfl | hc
      · simp [readFrom, read, hend]
      · have hblank : c ≠ ' ' := by
          rintro rfl
          exact absurd hc (by decide)
        simp [readFrom, read, hend, hblank, hc, before_before]
  | cons c cs ih =>
    obtain ⟨hc, hcs⟩ := List.forall_mem_cons.mp h
    rw [List.cons_append, readFrom, if_pos hc, ih _ hcs, List.reverse_cons, List.append_assoc,
      List.singleton_append]

/-- An identifier is read as a word, if something ends it. It has to be a proper one: one with a
line feed behind it is not read at all. -/
theorem shows_word (h : Name.Proper s) : Shows s [.word s] := by
  intro rest hrest
  obtain ⟨c, cs, hs, hc, hcs⟩ := h
  have hchar : Name.isIdentifierChar c = true := Name.isIdentifierChar_of_isIdentifierStart hc
  have hgap : ¬ (c = ' ' ∨ c ∈ marks) := fun h => by
    simp [not_isIdentifierChar_of_gap h] at hchar
  have hquote : c ≠ '\'' := by
    rintro rfl
    exact absurd hc (by decide)
  rw [not_or] at hgap
  -- The first character begins a word, and the rest of the identifier is read on from there.
  have hrun := readFrom_inWord [c] hcs hrest
  simp only [read, hs, List.cons_append, readFrom, hgap, List.contains_iff_mem, hquote, hc,
    ↓reduceIte, hrun]
  rw [← String.ofList_toList (s := s), hs]
  rfl

/-! ### Texts -/

/-- The literal of a text is a token that stands for the text. -/
theorem shows_textLiteral (s : String) : Shows (textLiteral s) [.text s] := by
  intro rest hrest
  rw [toList_textLiteral_append]
  exact Quote.read_literal (fun q => readFrom (.inText q))
    (fun s cs => before [.text s] (read cs)) (fun h => by rw [readFrom, h])
    (fun h => by rw [readFrom, h]; rfl) s rest

/-- The token that the name of a property is written as. -/
def ofKey (name : String) : Token := if Name.isIdentifier name then .word name else .text name

/-- The name that a token stands for in front of a colon. -/
def name? : Token → Option String
  | .word s => some s
  | .text s => some s
  | .mark _ => none

/-- The token that the name of a property is written as stands for that name, in quotes or
without. -/
theorem name?_ofKey (name : String) : (ofKey name).name? = some name := by
  unfold ofKey
  split <;> rfl

/-- The name of a property is written as one token that stands for it, unless it passes for an
identifier with a line feed: then it is written without quotes, and the line feed is part of no
token. -/
theorem shows_propertyKey (h : ¬ Name.EndsLine s) : Shows (propertyKey s) [ofKey s] := by
  unfold propertyKey ofKey
  split
  · rename_i hident
    exact shows_word (Name.proper_of_isIdentifier hident h)
  · exact shows_textLiteral s

end Token

end TypedClient
