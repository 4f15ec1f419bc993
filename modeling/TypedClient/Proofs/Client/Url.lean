import TypedClient.Client.Url

/-!
# `TypedClient.Proofs.Client.Url`: what an address denotes

An address is written as a template literal. This module says how such a literal is read
back, and which cut of a path is meant, both without the functions that write addresses.

* `PathTemplate.Leftmost`: the cut of a text at its leftmost placeholders, one after the
  other. `PathTemplate.leftmost_ofString`: that is how paths are cut.
* `TemplateLiteral.read`: a template literal as JavaScript reads it.
* `Url.read_expression`: the address of a path is read as the base address, the text of
  the path verbatim, and one encoded argument for each placeholder.
-/

set_option autoImplicit false

namespace TypedClient

namespace PathTemplate

/-- The characters begin with a placeholder: an opening brace, a name, a closing brace. -/
structure Begins (cs name rest : List Char) : Prop where
  eq : cs = '\x7b' :: name ++ '\x7d' :: rest
  ne_nil : name ≠ []
  inside : ∀ c ∈ name, c ≠ '\x7d' ∧ c ≠ '/'

/-- The text cut at its placeholders, which are taken as far to the left as they can be. -/
inductive Leftmost : List Char → PathTemplate → Prop
  | nil : Leftmost [] ⟨[], []⟩
  | char {c : Char} {cs : List Char} {t : PathTemplate} :
    (∀ name rest, ¬ Begins (c :: cs) name rest) → Leftmost cs t → Leftmost (c :: cs) (t.prepend [c])
  | placeholder {cs name rest : List Char} {t : PathTemplate} :
    Begins cs name rest → Leftmost rest t → Leftmost cs ⟨[], (name, t.lead) :: t.steps⟩

variable {cs run rest name : List Char} {t : PathTemplate} {c : Char}

/-- Only an opening brace begins a placeholder. -/
theorem not_begins_of_ne (h : c ≠ '\x7b') : ¬ Begins (c :: cs) name rest := by
  intro hb
  exact h (List.cons.inj hb.eq).1

/-- Before a slash or the end of the text nothing closes a placeholder. -/
theorem not_begins_of_unclosed (hc : '\x7d' ∉ run) (hrest : ∀ d ∈ rest.head?, d = '/') :
    ¬ Begins (c :: (run ++ rest)) name cs := by
  rintro ⟨heq, -, hinside⟩
  have htail : run ++ rest = name ++ '\x7d' :: cs := (List.cons.inj heq).2
  rcases List.append_eq_append_iff.mp htail with ⟨mid, rfl, hmid⟩ | ⟨mid, rfl, hmid⟩
  · -- The name goes on after `run`, so it holds the slash unless it ends there.
    cases mid with
    | nil =>
      rw [List.nil_append] at hmid
      have := hrest '\x7d' (by simp [hmid])
      exact absurd this (by decide)
    | cons d mid =>
      have hd := hrest d (by simp [hmid])
      exact (hinside d (by simp)).2 hd
  · cases mid with
    | nil =>
      rw [List.nil_append] at hmid
      have := hrest '\x7d' (by simp [← hmid])
      exact absurd this (by decide)
    | cons d mid =>
      have hd := (List.cons.inj hmid).1
      exact hc (by simp [← hd])

/-- Text before a slash or the end in which nothing is closed is kept as it is. -/
theorem Leftmost.unclosed (hc : '\x7d' ∉ run) (hrest : ∀ d ∈ rest.head?, d = '/')
    (h : Leftmost rest t) : Leftmost (run ++ rest) (t.prepend run) := by
  induction run with
  | nil => exact h
  | cons d run ih =>
    rw [List.mem_cons, not_or] at hc
    exact .char (fun _ _ => not_begins_of_unclosed hc.2 hrest) (ih hc.2)

/-- What is held since an opening brace closes nothing. -/
theorem not_mem_held (hrun : ∀ c ∈ run, c ≠ '\x7d' ∧ c ≠ '/') :
    '\x7d' ∉ '\x7b' :: run.reverse := by
  rw [List.mem_cons, List.mem_reverse]
  rintro (h | h)
  · exact absurd h (by decide)
  · exact (hrun _ h).1 rfl

/-- A pair of braces with nothing between them is text. -/
theorem not_begins_empty : ¬ Begins ('\x7b' :: '\x7d' :: cs) name rest := by
  rintro ⟨heq, hne, hinside⟩
  cases name with
  | nil => exact hne rfl
  | cons d name =>
    have hd : '\x7d' = d := by simpa using (List.cons.inj (List.cons.inj heq).2).1
    exact (hinside d (by simp)).1 hd.symm

/-- What is held since an opening brace is still part of the text, and may be the name of
a placeholder. -/
theorem leftmost_cut (cs : List Char) :
    Leftmost cs (cut none cs) ∧
      ∀ run : List Char, (∀ c ∈ run, c ≠ '\x7d' ∧ c ≠ '/') →
        Leftmost ('\x7b' :: run.reverse ++ cs) (cut (some run) cs) := by
  induction cs with
  | nil =>
    refine ⟨.nil, fun run hrun => ?_⟩
    have hend : ∀ d ∈ ([] : List Char).head?, d = '/' := by simp
    simpa [cut, prepend] using Leftmost.unclosed (not_mem_held hrun) hend .nil
  | cons c cs ih =>
    obtain ⟨hnone, hsome⟩ := ih
    refine ⟨?_, fun run hrun => ?_⟩
    · simp only [cut]
      split
      · rename_i h
        simpa [h] using hsome [] (by simp)
      · rename_i h
        exact .char (fun _ _ => not_begins_of_ne h) hnone
    · simp only [cut]
      split
      · rename_i h
        subst h
        split
        · rename_i hempty
          rw [List.isEmpty_iff.mp hempty]
          exact .char (t := (cut none cs).prepend ['\x7d']) (fun _ _ => not_begins_empty)
            (.char (fun _ _ => not_begins_of_ne (by decide)) hnone)
        · rename_i hne
          refine .placeholder ⟨rfl, ?_, fun d hd => hrun d (List.mem_reverse.mp hd)⟩ hnone
          simpa using hne
      · split
        · rename_i h
          subst h
          -- A slash ends what is held, so it all goes back to the text.
          have hslash : Leftmost ('/' :: cs) ((cut none cs).prepend ['/']) :=
            .char (fun _ _ => not_begins_of_ne (by decide)) hnone
          simpa [prepend] using Leftmost.unclosed (not_mem_held hrun) (by simp) hslash
        · rename_i hclose hslash
          have h := hsome (c :: run) (List.forall_mem_cons.mpr ⟨⟨hclose, hslash⟩, hrun⟩)
          simpa using h

/-- A path is cut at its leftmost placeholders. -/
theorem leftmost_ofString (s : String) : Leftmost s.toList (ofString s) :=
  (leftmost_cut s.toList).1

end PathTemplate

namespace TemplateLiteral

/-- What a template literal is made of: characters that stand for themselves, and
expressions whose values are put in. -/
inductive Piece where
  | char (c : Char)
  | substitution (expression : String)
deriving DecidableEq

/-- The pieces of a template literal after its opening backtick, and the characters after
its closing one. `inside` are the characters of a substitution so far, in reverse. A
backslash makes the next character stand for itself, and a substitution runs to the next
closing brace. -/
def readFrom : (inside : Option (List Char)) → List Char → Option (List Piece × List Char)
  | _, [] => none
  | some run, '\x7d' :: cs =>
    (readFrom none cs).map fun r => (.substitution (String.ofList run.reverse) :: r.1, r.2)
  | some run, c :: cs => readFrom (some (c :: run)) cs
  | none, '`' :: cs => some ([], cs)
  | none, '\\' :: c :: cs => (readFrom none cs).map fun r => (.char c :: r.1, r.2)
  | none, '$' :: '\x7b' :: cs => readFrom (some []) cs
  | none, c :: cs => (readFrom none cs).map fun r => (.char c :: r.1, r.2)

/-- The pieces of the template literal that characters begin with, and the characters
after it. -/
def read : List Char → Option (List Piece × List Char)
  | '`' :: cs => readFrom none cs
  | _ => none

/-- Pieces in front of those that are read. -/
def before (ps : List Piece) (r : Option (List Piece × List Char)) :
    Option (List Piece × List Char) :=
  r.map fun r => (ps ++ r.1, r.2)

/-- Nothing in front changes nothing. -/
@[simp] theorem before_nil (r : Option (List Piece × List Char)) : before [] r = r := by
  simp [before]

/-- Pieces in front of pieces are those of both, in order. -/
theorem before_before (ps qs : List Piece) (r : Option (List Piece × List Char)) :
    before ps (before qs r) = before (ps ++ qs) r := by
  simp [before, Function.comp_def]

variable {cs rest inside : List Char} {c : Char}

/-- A character stands for itself unless it ends the literal, escapes the next one or opens a
substitution, which takes a brace behind a dollar sign. -/
theorem readFrom_char (hbacktick : c ≠ '`') (hbackslash : c ≠ '\\')
    (hdollar : c = '$' → rest.head? ≠ some '\x7b') :
    readFrom none (c :: rest) = before [.char c] (readFrom none rest) := by
  rw [readFrom]
  · rfl
  · exact hbacktick
  · exact fun _ _ h _ => hbackslash h
  · rintro cs hc rfl
    exact hdollar hc rfl

/-- Inside a substitution everything up to the closing brace is its expression. -/
theorem readFrom_substitution (run : List Char) (h : '\x7d' ∉ inside) :
    readFrom (some run) (inside ++ '\x7d' :: rest)
      = before [.substitution (String.ofList (run.reverse ++ inside))] (readFrom none rest) := by
  induction inside generalizing run with
  | nil => simp [readFrom, before]
  | cons d inside ih =>
    rw [List.mem_cons, not_or] at h
    have hstep : readFrom (some run) (d :: (inside ++ '\x7d' :: rest))
        = readFrom (some (d :: run)) (inside ++ '\x7d' :: rest) := by
      rw [readFrom.eq_def]
      split <;> simp_all
    rw [List.cons_append, hstep, ih (d :: run) h.2, List.reverse_cons, List.append_assoc,
      List.singleton_append]

/-! ### Escaped text -/

/-- Escaped text begins with a brace only if the text does, so escaping makes no dollar sign before
it open anything. -/
theorem head?_escapeChars (h : cs.head? ≠ some '\x7b') :
    (Url.escapeChars cs).head? ≠ some '\x7b' := by
  fun_cases Url.escapeChars cs with
  | case1 => simp
  | case2 => simp
  | case3 => simp
  | case4 => simpa using h
  | case5 => decide

/-- A backslash makes the character behind it stand for itself, whatever that is. -/
theorem readFrom_backslash :
    readFrom none ('\\' :: c :: rest) = before [.char c] (readFrom none rest) := rfl

/-- Escaped text is read back verbatim. What follows must not begin with a brace, or a
dollar sign at the end of the text would open a substitution. -/
theorem readFrom_escapeChars (cs : List Char) (hrest : rest.head? ≠ some '\x7b') :
    readFrom none (Url.escapeChars cs ++ rest)
      = before (cs.map .char) (readFrom none rest) := by
  fun_induction Url.escapeChars cs with
  | case1 cs ih =>
    rw [List.cons_append, List.cons_append, readFrom_backslash, ih, before_before]
    rfl
  | case2 cs ih =>
    rw [List.cons_append, List.cons_append, readFrom_backslash, ih, before_before]
    rfl
  | case3 cs ih =>
    rw [List.cons_append, List.cons_append, readFrom_backslash, List.cons_append,
      readFrom_char (by decide) (by decide) (by simp), ih, before_before, before_before]
    rfl
  | case4 c cs hbackslash hbacktick hdollar ih =>
    -- A dollar sign stays as it is unless a brace follows it, here or after the text.
    have hnext : c = '$' → (Url.escapeChars cs ++ rest).head? ≠ some '\x7b' := by
      intro hc
      rw [List.head?_append]
      cases cs with
      | nil => simpa [Url.escapeChars] using hrest
      | cons d cs =>
        have hd : (d :: cs).head? ≠ some '\x7b' := by
          rintro hd
          obtain rfl : d = '\x7b' := by simpa using hd
          exact hdollar cs hc rfl
        have := head?_escapeChars hd
        cases he : (Url.escapeChars (d :: cs)).head? with
        | none => simpa [he] using hrest
        | some x => simpa [he] using this
    rw [List.cons_append, readFrom_char hbacktick hbackslash hnext, ih, before_before]
    rfl
  | case5 => simp

end TemplateLiteral

namespace Url

open TemplateLiteral

/-- What the address of a path is to be read as, given the arguments that the placeholders
stand for: the base address, then the path with an encoded argument for each placeholder. -/
def denoted (ident : List Char → String) (t : PathTemplate) : List Piece :=
  .substitution "this.baseUrl" :: t.lead.map .char ++
    t.steps.flatMap fun s =>
      .substitution ("encodeURIComponent(String(" ++ ident s.1 ++ "))") :: s.2.map .char

variable {arguments : List (String × String)} {ident : List Char → String}

/-- A substitution is read as its expression, if that has no closing brace. -/
theorem readFrom_substitutionOf {expression : String} {rest : List Char}
    (h : '\x7d' ∉ expression.toList) :
    readFrom none ((substitution expression).toList ++ rest)
      = before [.substitution expression] (readFrom none rest) := by
  have hchars : (substitution expression).toList ++ rest
      = '$' :: '\x7b' :: (expression.toList ++ '\x7d' :: rest) := by
    simp [substitution]
  rw [hchars]
  show readFrom (some []) _ = _
  rw [readFrom_substitution [] h]
  simp

/-- The expression that encodes an argument has no closing brace if the name has none. -/
theorem not_mem_encodedArgument {name : String} (h : '\x7d' ∉ name.toList) :
    '\x7d' ∉ (encodedArgument name).toList := by
  show '\x7d' ∉ ("encodeURIComponent(String(" ++ name ++ "))").toList
  rw [String.toList_append, String.toList_append, List.mem_append, List.mem_append]
  rintro ((hlead | hname) | hend)
  · exact absurd hlead (by decide)
  · exact h hname
  · exact absurd hend (by decide)

/-- The arguments have one for each placeholder, and no name of one holds a closing brace. -/
def Supplied (arguments : List (String × String)) (ident : List Char → String)
    (steps : List (List Char × List Char)) : Prop :=
  ∀ s ∈ steps, arguments.lookup (String.ofList s.1) = some (ident s.1) ∧
    '\x7d' ∉ (ident s.1).toList

/-- What stands for the placeholders and the text after each of them. -/
def tail (arguments : List (String × String)) (steps : List (List Char × List Char)) : List Char :=
  (String.join (steps.map fun s =>
    placeholder arguments s.1 ++ String.ofList (escapeChars s.2))).toList

/-- The text for the placeholders from one on: its substitution, the escaped text behind it, and the
rest. -/
theorem tail_cons {s : List Char × List Char} {steps : List (List Char × List Char)}
    (h : arguments.lookup (String.ofList s.1) = some (ident s.1)) :
    tail arguments (s :: steps) = (substitution (encodedArgument (ident s.1))).toList ++
      (escapeChars s.2 ++ tail arguments steps) := by
  have hplaceholder : placeholder arguments s.1 = substitution (encodedArgument (ident s.1)) := by
    simp only [placeholder, h]
  simp only [tail, List.map_cons, String.join_cons, hplaceholder, String.toList_append,
    String.toList_ofList, List.append_assoc]

/-- No text before a placeholder is followed by a brace: its substitution begins with a
dollar sign. -/
theorem head?_tail {steps : List (List Char × List Char)} {rest : List Char}
    (h : Supplied arguments ident steps) :
    (tail arguments steps ++ '`' :: rest).head? ≠ some '\x7b' := by
  cases steps with
  | nil => simp [tail, String.join]
  | cons s steps => simp [tail_cons (h s List.mem_cons_self).1, substitution]

/-- The placeholders and the text behind each are read back to the end of the literal, by induction
on the placeholders. -/
theorem readFrom_tail {steps : List (List Char × List Char)} {rest : List Char}
    (h : Supplied arguments ident steps) :
    readFrom none (tail arguments steps ++ '`' :: rest)
      = some (steps.flatMap fun s =>
          .substitution (encodedArgument (ident s.1)) :: s.2.map .char, rest) := by
  induction steps with
  | nil => rfl
  | cons s steps ih =>
    obtain ⟨⟨hlookup, hbrace⟩, hsteps⟩ := List.forall_mem_cons.mp h
    rw [tail_cons hlookup, List.append_assoc, List.append_assoc,
      readFrom_substitutionOf (not_mem_encodedArgument hbrace),
      readFrom_escapeChars _ (head?_tail hsteps), ih hsteps, before_before]
    simp [before]

/-- The address of a path is a template literal that denotes the path. -/
theorem read_expression {path : String} {rest : List Char}
    (h : Supplied arguments ident (PathTemplate.ofString path).steps) :
    read ((expression path arguments).toList ++ rest)
      = some (denoted ident (PathTemplate.ofString path), rest) := by
  have hchars : (expression path arguments).toList ++ rest
      = '`' :: ((substitution "this.baseUrl").toList ++
        (escapeChars (PathTemplate.ofString path).lead ++
          (tail arguments (PathTemplate.ofString path).steps ++ '`' :: rest))) := by
    simp [expression, tail]
  rw [hchars]
  show readFrom none _ = _
  rw [readFrom_substitutionOf (by decide), readFrom_escapeChars _ (head?_tail h),
    readFrom_tail h, before_before]
  rfl

end Url

end TypedClient
