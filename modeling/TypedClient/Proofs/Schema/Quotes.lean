import TypedClient.Schema.Literal

/-!
# `TypedClient.Proofs.Schema.Quotes`: what stands in single quotes

Types and calls are written with literals of texts. This module says how such a literal is read,
one character at a time and without the function that writes it: a backslash makes the next
character stand for itself or for a line end, an unescaped quote ends the text, and no line ends
inside of one. The readers of types and of calls differ in what they make of everything else, and
take these steps wherever they are inside of quotes.

* `Quote.step`: what one character does inside of quotes.
* `Quote.read_literal`: a reader that takes these steps reads the literal of a text as that text.
-/

set_option autoImplicit false

namespace TypedClient

/-- The character that stands for itself, or for a line end, after a backslash. -/
def unescaped? : Char → Option Char
  | '\\' => some '\\'
  | '\'' => some '\''
  | 'n' => some '\n'
  | 'r' => some '\r'
  | _ => none

/-- A place inside of quotes. The characters of the text so far are in reverse. -/
inductive Quote where
  | plain (run : List Char)
  /-- Behind a backslash. -/
  | escaped (run : List Char)
deriving DecidableEq

namespace Quote

/-- The place behind the opening quote. -/
def start : Quote := plain []

/-- What a character does inside of quotes. -/
inductive Step where
  | on (q : Quote)
  /-- The quotes are closed, and this is the text in them. -/
  | closed (s : String)
deriving DecidableEq

/-- The step of a character, if it may stand there. -/
def step : Quote → Char → Option Step
  | escaped run, c => (unescaped? c).map fun c => .on (plain (c :: run))
  | plain run, c =>
    if c = '\\' then some (.on (escaped run))
    else if c = '\'' then some (.closed (String.ofList run.reverse))
    else if c = '\n' || c = '\r' then none
    else some (.on (plain (c :: run)))

end Quote

variable {c : Char}

/-- A character of a literal is escaped, or it stands for itself. In the second case it is none of
those that mean something inside of quotes, so a reader takes it for what it is. -/
theorem literalChar_cases (c : Char) :
    (∃ e, unescaped? e = some c ∧ literalChar c = ['\\', e]) ∨
      literalChar c = [c] ∧ c ≠ '\\' ∧ c ≠ '\'' ∧ c ≠ '\n' ∧ c ≠ '\r' := by
  unfold literalChar
  split
  · rename_i h
    exact .inl ⟨'\\', by rw [h]; rfl, rfl⟩
  · split
    · rename_i h
      exact .inl ⟨'\'', by rw [h]; rfl, rfl⟩
    · split
      · rename_i h
        exact .inl ⟨'n', by rw [h]; rfl, rfl⟩
      · split
        · rename_i h
          exact .inl ⟨'r', by rw [h]; rfl, rfl⟩
        · rename_i hbackslash hquote hline hreturn
          exact .inr ⟨rfl, hbackslash, hquote, hline, hreturn⟩

/-- The literal of a text, with what comes after it: a quote, the characters each in its place,
and a quote. -/
theorem toList_textLiteral_append (s : String) (rest : List Char) :
    (textLiteral s).toList ++ rest = '\'' :: (s.toList.flatMap literalChar ++ '\'' :: rest) := by
  simp [textLiteral]

/-- No line ends inside of a literal: both characters that end lines are escaped. So what is written
with literals is as many lines as it would be without them. -/
theorem not_mem_textLiteral (hc : c = '\n' ∨ c = '\r') (s : String) :
    c ∉ (textLiteral s).toList := by
  have hescaped : unescaped? c = none ∧ c ≠ '\\' ∧ c ≠ '\'' := by
    rcases hc with rfl | rfl <;> decide
  have hchar : ∀ d, c ∉ literalChar d := by
    intro d hd
    obtain ⟨e, he, heq⟩ | ⟨heq, -, -, hline, hreturn⟩ := literalChar_cases d
    · rw [heq, List.mem_cons, List.mem_singleton, or_iff_right hescaped.2.1] at hd
      rw [← hd, hescaped.1] at he
      cases he
    · rw [heq, List.mem_singleton] at hd
      subst hd
      exact hc.elim hline hreturn
  simp [textLiteral, hescaped.2.2, hchar]

namespace Quote

section Reader

-- A reader inside of quotes, and what it does with the text once they are closed.
variable {α : Type} (inside : Quote → List Char → Option α) (after : String → List Char → Option α)

/-- A character is read back from its place in a literal, whether it is escaped there or not. -/
theorem read_literalChar
    (hon : ∀ {q q' c cs}, step q c = some (.on q') → inside q (c :: cs) = inside q' cs)
    (run rest : List Char) :
    inside (plain run) (literalChar c ++ rest) = inside (plain (c :: run)) rest := by
  obtain ⟨e, he, hescaped⟩ | ⟨hself, hbackslash, hquote, hline, hreturn⟩ := literalChar_cases c
  · have hbackslash : step (plain run) '\\' = some (.on (escaped run)) := rfl
    have hchar : step (escaped run) e = some (.on (plain (c :: run))) := by rw [step, he]; rfl
    rw [hescaped, List.cons_append, List.singleton_append, hon hbackslash, hon hchar]
  · rw [hself, List.singleton_append]
    exact hon (by simp [step, hbackslash, hquote, hline, hreturn])

/-- A reader that takes these steps inside of quotes reads the literal of a text as that text, and
goes on right behind the literal. What the reader does with the text is its own matter, so the lemma
serves the tokens of a call and the symbols of a type alike. -/
theorem read_literal
    (hon : ∀ {q q' c cs}, step q c = some (.on q') → inside q (c :: cs) = inside q' cs)
    (hclosed : ∀ {q s c cs}, step q c = some (.closed s) → inside q (c :: cs) = after s cs)
    (s : String) (rest : List Char) :
    inside start (s.toList.flatMap literalChar ++ '\'' :: rest) = after s rest := by
  suffices ∀ cs run, inside (plain run) (cs.flatMap literalChar ++ '\'' :: rest)
      = after (String.ofList (run.reverse ++ cs)) rest by
    rw [start, this, List.reverse_nil, List.nil_append, String.ofList_toList]
  intro cs
  induction cs with
  | nil =>
    intro run
    rw [List.flatMap_nil, List.nil_append, List.append_nil]
    exact hclosed rfl
  | cons c cs ih =>
    -- The character joins those that have been read, which are in reverse.
    intro run
    rw [List.flatMap_cons, List.append_assoc, read_literalChar inside hon, ih, List.reverse_cons,
      List.append_assoc, List.singleton_append]

end Reader

end Quote

end TypedClient
