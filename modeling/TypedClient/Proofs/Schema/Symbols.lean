import TypedClient.Proofs.Client.Tokens

/-!
# `TypedClient.Proofs.Schema.Symbols`: what a type is written with

A type is written with characters, some of which separate its parts, and with texts in single
quotes, inside of which nothing separates anything. This module tells the two apart, without the
functions that write types: what is a bar, a brace or a blank in a text is no bar, brace or blank
of the type.

* `Symbol.read`: the symbols that characters are made of.
* `Symbol.Shows`: a text that is read as given symbols wherever it stands.
* `Symbol.shows_textLiteral`: the literal of a text is one symbol, which stands for that text and
  ends where the literal ends.
* `Symbol.Solid`: a text in which nothing separates parts of a type.
-/

set_option autoImplicit false

namespace TypedClient

/-- A symbol of a type: a character outside of quotes, or a whole text in single quotes. -/
inductive Symbol where
  | char (c : Char)
  /-- A text in single quotes. -/
  | text (s : String)
deriving DecidableEq

namespace Symbol

/-- Symbols in front of those that are read. -/
def before (ss : List Symbol) (r : Option (List Symbol)) : Option (List Symbol) := r.map (ss ++ ·)

/-- The symbols that characters are made of, inside of quotes or outside. Inside of quotes nothing
is a symbol of its own before they are closed. -/
def readFrom : Option Quote → List Char → Option (List Symbol)
  | none, [] => some []
  | none, '\'' :: cs => readFrom (some .start) cs
  | none, c :: cs => before [.char c] (readFrom none cs)
  | some _, [] => none
  | some q, c :: cs =>
    match q.step c with
    | none => none
    | some (.on q) => readFrom (some q) cs
    | some (.closed s) => before [.text s] (readFrom none cs)

/-- The symbols that characters are made of, when every quote is closed. -/
def read (cs : List Char) : Option (List Symbol) := readFrom none cs

/-- The characters that a symbol is written with. -/
def written : Symbol → List Char
  | char c => [c]
  | text s => (textLiteral s).toList

/-- Nothing in front of what is read leaves it as it is. -/
@[simp] theorem before_nil (r : Option (List Symbol)) : before [] r = r := by
  simp [before]

/-- Symbols in front of symbols stand in that order, and a reading that fails still does. -/
theorem before_before (ss ts : List Symbol) (r : Option (List Symbol)) :
    before ss (before ts r) = before (ss ++ ts) r := by
  simp [before, Function.comp_def]

variable {cs rest : List Char} {s t : String} {ss ts : List Symbol} {c : Char}

/-! ### Texts that are read as given symbols -/

/-- The text is read as the symbols, whatever comes after it. -/
def Shows (s : String) (ss : List Symbol) : Prop :=
  ∀ rest, read (s.toList ++ rest) = before ss (read rest)

/-- A text that is read as given symbols wherever it stands is read so by itself. -/
theorem Shows.read_eq (h : Shows s ss) : read s.toList = some ss := by
  simpa [read, readFrom, before] using h []

/-- Texts in a row are read one after the other: the first one does not depend on what comes
next. -/
theorem Shows.append (hs : Shows s ss) (ht : Shows t ts) : Shows (s ++ t) (ss ++ ts) := by
  intro rest
  rw [String.toList_append, List.append_assoc, hs, ht, before_before]

/-- Several texts with a text between them are read one after the other, each followed by the
symbols of that text but the last. -/
theorem shows_intercalate {α : Type} {l : List α} {f : α → String} {g : α → List Symbol}
    {sep : String} (hsep : Shows sep ss) (h : ∀ a ∈ l, Shows (f a) (g a)) :
    Shows (sep.intercalate (l.map f)) (ss.intercalate (l.map g)) :=
  -- Nothing is read as nothing, and two texts around the one between them are read in a row.
  intercalate_induction (fun rest => by simp) (fun hs ht => (hs.append hsep).append ht) h

/-- Characters outside of quotes stand for themselves. -/
theorem read_chars (h : '\'' ∉ cs) : read (cs ++ rest) = before (cs.map .char) (read rest) := by
  induction cs with
  | nil => simp
  | cons c cs ih =>
    rw [List.mem_cons, not_or] at h
    have hstep : read (c :: (cs ++ rest)) = before [.char c] (read (cs ++ rest)) := by
      rw [read, readFrom]
      · rfl
      · exact Ne.symm h.1
    rw [List.cons_append, hstep, ih h.2, before_before]
    rfl

/-- A text without quotes is read as its own characters. -/
theorem shows_chars (h : '\'' ∉ s.toList) : Shows s (s.toList.map .char) :=
  fun _ => read_chars h

/-! ### Texts in quotes -/

/-- The literal of a text is a symbol that stands for the text, whatever the text holds, be it
quotes or backslashes or what separates the parts of a type. -/
theorem shows_textLiteral (s : String) : Shows (textLiteral s) [.text s] := by
  intro rest
  rw [toList_textLiteral_append]
  exact Quote.read_literal (fun q => readFrom (some q))
    (fun s cs => before [.text s] (read cs)) (fun h => by rw [readFrom, h])
    (fun h => by rw [readFrom, h]; rfl) s rest

/-- Inside of quotes the next symbol is a text, wherever in the text the reader stands. -/
theorem readFrom_quoted_ne (cs : List Char) : ∀ q, readFrom (some q) cs ≠ some (.char c :: ss) := by
  induction cs with
  | nil => exact fun _ h => nomatch h
  | cons d cs ih =>
    intro q h
    -- The next character may not stand there, or stays in the quotes, or closes them.
    rw [readFrom] at h
    split at h
    · cases h
    · exact ih _ h
    · -- The quotes are closed here, so the text in them comes before what follows.
      obtain ⟨_, -, h⟩ := Option.map_eq_some_iff.mp h
      cases h

/-- What is read as a character first begins with it. So whether a type is a record can be told from
its first character as well as from its symbols. -/
theorem head?_of_read (h : read cs = some (.char c :: ss)) : cs.head? = some c := by
  cases cs with
  | nil => cases h
  | cons d cs =>
    by_cases hd : d = '\''
    · subst hd
      exact absurd h (readFrom_quoted_ne cs .start)
    · rw [← List.singleton_append, read_chars (by simpa using Ne.symm hd)] at h
      obtain ⟨_, -, h⟩ := Option.map_eq_some_iff.mp h
      cases h
      rfl

/-! ### Texts without separators -/

/-- The symbols of a text, none if it has no reading. -/
def ofString (s : String) : List Symbol := (read s.toList).getD []

/-- The symbols of a text are those that it is read as wherever it stands. -/
theorem Shows.ofString_eq (h : Shows s ss) : ofString s = ss := by
  rw [ofString, h.read_eq, Option.getD_some]

/-- The characters that separate the parts of a type, outside of quotes. -/
def separators : List Char := [' ', '|', ';', '\x7b', '\x7d']

/-- The text is read wherever it stands, is written as it is read, and nothing in it separates
parts of a type. -/
structure Solid (s : String) : Prop where
  shows : Shows s (ofString s)
  written : (ofString s).flatMap written = s.toList
  char : ∀ c, .char c ∈ ofString s → c ∉ separators

/-- The character is no quote and separates nothing. -/
def isPlain (c : Char) : Bool := !('\'' :: separators).contains c

/-- A plain character is neither a quote nor a separator. -/
theorem isPlain_iff : isPlain c = true ↔ c ∉ '\'' :: separators := by
  rw [isPlain, Bool.not_eq_true', ← Bool.not_eq_true, List.contains_iff_mem]

/-- A kind of characters to which no quote and no separator belongs is plain. The kinds are those of
figures and of names, and the condition is checked by going through the few separators. -/
theorem isPlain_of {p : Char → Bool} (hp : ('\'' :: separators).all (!p ·) = true)
    (h : p c = true) : isPlain c = true := by
  refine isPlain_iff.mpr fun hc => ?_
  simpa [h] using List.all_eq_true.mp hp c hc

/-- A text of plain characters has nothing in it that separates parts of a type. -/
theorem solid_of_chars (h : s.toList.all isPlain = true) : Solid s := by
  have hplain : ∀ c ∈ s.toList, c ∉ '\'' :: separators :=
    fun c hc => isPlain_iff.mp (List.all_eq_true.mp h c hc)
  have hshows := shows_chars fun hquote => hplain _ hquote List.mem_cons_self
  have hs := hshows.ofString_eq
  refine ⟨hs ▸ hshows, ?_, fun c hc hsep => ?_⟩
  · rw [hs, List.flatMap_map]
    exact List.flatMap_singleton' _
  · rw [hs] at hc
    exact hplain c (by simpa using hc) (List.mem_cons_of_mem _ hsep)

/-- The literal of a text has nothing in it that separates parts of a type: it is one symbol, and
that is no character. -/
theorem solid_textLiteral (s : String) : Solid (textLiteral s) := by
  have hs := (shows_textLiteral s).ofString_eq
  refine ⟨hs ▸ shows_textLiteral s, ?_, fun c hc => ?_⟩
  · rw [hs]
    simp [written]
  · rw [hs] at hc
    simp at hc

/-- A text in which nothing separates parts of a type begins with no separator. The empty text is
one of them, which is why this is about a first character that need not be there. -/
theorem Solid.head?_ne (h : Solid s) (hc : c ∈ separators) : s.toList.head? ≠ some c := by
  have hquote : c ≠ '\'' := by
    rintro rfl
    exact absurd hc (by decide)
  -- The text is written as it is read, so its first character is that of its first symbol.
  rw [← h.written]
  cases hs : ofString s with
  | nil => simp
  | cons x ss =>
    cases x with
    | text t => simpa [Symbol.written, textLiteral] using hquote.symm
    | char d =>
      have hd := h.char d (by simp [hs])
      simp only [List.flatMap_cons, Symbol.written, List.singleton_append, List.head?_cons,
        Option.some.injEq, ne_eq]
      rintro rfl
      exact hd hc

end Symbol

end TypedClient
