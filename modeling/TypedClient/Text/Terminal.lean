/-!
# `TypedClient.Text.Terminal`: text with control sequences of a terminal

A control sequence is an escape character and an opening bracket, then digits, semicolons
and question marks, then an ASCII letter. A terminal acts on it instead of showing it.
Sequences are looked for once, from left to right, so what stands around one may form
another when it is gone.

* `visible`: the text without its control sequences.
-/

set_option autoImplicit false

namespace TypedClient.Text

/-- The character that opens a control sequence. -/
def escape : Char := '\u001b'

/-- A character between the bracket and the letter of a control sequence. -/
def isParameter (c : Char) : Bool := c.isDigit || c = ';' || c = '?'

/-- What follows a control sequence, of which the escape character is before. -/
def afterSequence? : List Char → Option (List Char)
  | '[' :: rest => match rest.dropWhile isParameter with
    | c :: after => if c.isAlpha then some after else none
    | [] => none
  | _ => none

/-- What follows a control sequence is shorter than what follows its first character. -/
theorem length_lt_of_afterSequence? {cs after : List Char} (h : afterSequence? cs = some after) :
    after.length < cs.length := by
  unfold afterSequence? at h
  split at h
  · next rest =>
    have bound := (List.dropWhile_sublist isParameter (l := rest)).length_le
    split at h
    · next c tail eq =>
      rw [eq] at bound
      split at h
      · cases h
        simp only [List.length_cons] at bound ⊢
        omega
      · cases h
    · cases h
  · cases h

/-- The characters outside of control sequences. -/
def visibleChars : List Char → List Char
  | [] => []
  | c :: rest =>
    if c = escape then
      match h : afterSequence? rest with
      | some after =>
        have := length_lt_of_afterSequence? h
        visibleChars after
      -- An escape character that opens no sequence is kept.
      | none => c :: visibleChars rest
    else c :: visibleChars rest
termination_by cs => cs.length
decreasing_by all_goals simp only [List.length_cons]; omega

/-- The text without its control sequences. -/
def visible (s : String) : String := String.ofList (visibleChars s.toList)

end TypedClient.Text
