import TypedClient.Proofs.Client.Arguments

/-!
# `TypedClient.Proofs.Client.Comment`: comments end where they are meant to

A comment ends at the first `*/` after its opening. What a document says is made into lines
in which there is none, so a block comment of such lines ends at its last line. One line of
the comment above a method is made otherwise: the one that names the route.

* `Comment.Closes`: characters that hold the end of a comment.
* `Comment.IsComment`: a text that is one comment, whatever follows it.
* `Comment.isComment_framed_iff`: the block comment of lines is one comment exactly if none
  of the lines closes it.
* `closes_methodDoc_iff`: the comment above a method is closed early exactly if the path of
  its endpoint does that, or its HTTP method.
-/

set_option autoImplicit false

namespace TypedClient

namespace Comment

/-- The characters hold the end of a comment. -/
def Closes (cs : List Char) : Prop := ['*', '/'] <:+: cs

instance (cs : List Char) : Decidable (Closes cs) := inferInstanceAs (Decidable (_ <:+: _))

/-- What follows the first end of a comment. -/
def afterEnd? : List Char → Option (List Char)
  | '*' :: '/' :: rest => some rest
  | _ :: rest => afterEnd? rest
  | [] => none

/-- The text opens a comment, and the comment ends with the text, whatever follows. -/
def IsComment (s : String) : Prop :=
  ∃ body, s.toList = '/' :: '*' :: body ∧ ∀ rest, afterEnd? (body ++ rest) = some rest

variable {a b cs : List Char} {c : Char}

/-! ### Where characters meet -/

/-- Nothing holds no end of a comment. -/
theorem not_closes_nil : ¬ Closes [] := by
  decide

/-- One more character in front makes an end only if it is an asterisk right before a slash. -/
theorem closes_cons_iff : Closes (c :: cs) ↔ (c = '*' ∧ cs.head? = some '/') ∨ Closes cs := by
  unfold Closes
  rw [List.infix_cons_iff]
  refine or_congr_left ?_
  cases cs <;> simp [eq_comm]

/-- A character that is no part of an end keeps what is on its two sides apart. -/
theorem closes_append_cons_iff (hstar : c ≠ '*') (hslash : c ≠ '/') :
    Closes (a ++ c :: b) ↔ Closes a ∨ Closes b := by
  induction a with
  | nil =>
    rw [List.nil_append, closes_cons_iff]
    simp [hstar, not_closes_nil]
  | cons d a ih =>
    rw [List.cons_append, closes_cons_iff, closes_cons_iff, ih, or_assoc]
    cases a with
    | nil => simp [hslash]
    | cons d' a => simp

/-- Without an asterisk there is no end of a comment, which settles all fixed texts. -/
theorem not_closes_of_not_mem (h : '*' ∉ cs) : ¬ Closes cs := by
  rintro ⟨before, after, rfl⟩
  exact h (by simp)

/-- The end of a comment is the first one exactly if nothing before it is one. -/
theorem afterEnd?_eq_some_iff (cs rest : List Char) :
    afterEnd? (cs ++ '*' :: '/' :: rest) = some rest ↔ ¬ Closes cs := by
  induction cs with
  | nil => simp [afterEnd?, not_closes_nil]
  | cons d cs ih =>
    rw [closes_cons_iff, not_or, ← ih]
    by_cases hd : d = '*' ∧ cs.head? = some '/'
    · -- The rest after the earlier end is longer than the rest that is asked for.
      obtain ⟨rfl, hhead⟩ := hd
      obtain ⟨cs, rfl⟩ := List.head?_eq_some_iff.mp hhead
      have hlen : cs ++ '*' :: '/' :: rest ≠ rest := fun h => by
        have := congrArg List.length h
        simp only [List.length_append, List.length_cons] at this
        omega
      simp [afterEnd?, hlen]
    · -- A star as the last of `cs` may not meet the end behind it, which begins with a star.
      have hstep : afterEnd? (d :: cs ++ '*' :: '/' :: rest)
          = afterEnd? (cs ++ '*' :: '/' :: rest) := by
        rw [List.cons_append, afterEnd?]
        rintro after rfl he
        refine hd ⟨rfl, ?_⟩
        cases cs with
        | nil => simp at he
        | cons d' cs =>
          rw [List.cons_append, List.cons.injEq] at he
          rw [he.1]
          rfl
      rw [hstep]
      exact (and_iff_right hd).symm

/-! ### Lines -/

/-- Making characters harmless keeps the first one, so an asterisk before them does not get a slash
behind it. -/
theorem head?_defuseChars (cs : List Char) : (defuseChars cs).head? = cs.head? := by
  unfold defuseChars
  split <;> rfl

/-- Characters that have been made harmless hold no end of a comment: a backslash stands in every
one that there was, and none comes up anew. -/
theorem not_closes_defuseChars (cs : List Char) : ¬ Closes (defuseChars cs) := by
  fun_induction defuseChars cs with
  | case1 rest ih => simp [closes_cons_iff, ih]
  | case2 c rest hend ih =>
    rw [closes_cons_iff, head?_defuseChars]
    rintro (⟨rfl, hhead⟩ | h)
    · -- An asterisk before a slash would have been the case before this one.
      obtain ⟨after, rfl⟩ := List.head?_eq_some_iff.mp hhead
      exact hend after rfl rfl
    · exact ih h
  | case3 => exact not_closes_nil

/-- Every line of a text is made harmless by itself, so none of them closes a comment. -/
theorem not_closes_of_mem_linesOf {part line : String} (h : line ∈ linesOf part) :
    ¬ Closes line.toList := by
  obtain ⟨raw, -, rfl⟩ := List.mem_map.mp h
  rw [defuse, String.toList_ofList]
  exact not_closes_defuseChars _

/-- No line that is made of the texts of a document closes the comment it stands in. -/
theorem not_closes_of_mem_lines {parts : List String} {line : String} (h : line ∈ lines parts) :
    ¬ Closes line.toList := by
  suffices hall : ∀ before : List String, (∀ l ∈ before, ¬ Closes l.toList) →
      ∀ l ∈ parts.foldl (fun before part => if part = "" then before
        else before ++ (if before.isEmpty then [] else [""]) ++ linesOf part) before,
      ¬ Closes l.toList from hall [] (List.forall_mem_nil _) line h
  clear h
  induction parts with
  | nil => exact fun before h => h
  | cons part rest ih =>
    intro before hbefore
    rw [List.foldl_cons]
    refine ih _ ?_
    split
    · exact hbefore
    · refine List.forall_mem_append.mpr ⟨List.forall_mem_append.mpr ⟨hbefore, ?_⟩,
        fun l => not_closes_of_mem_linesOf⟩
      split
      · exact List.forall_mem_nil _
      · simp [not_closes_nil]

/-! ### Block comments -/

/-- A block comment after its first indentation. -/
def framed (indent : String) (lines : List String) : String :=
  "/**\n" ++ String.join (lines.map (blockLine indent · ++ "\n")) ++ indent ++ " */"

/-- Lines set apart by line feeds are lines with a line feed after each, up to the last. -/
theorem intercalate_lines (lines : List String) (last : String) :
    "\n".intercalate (lines ++ [last]) = String.join (lines.map (· ++ "\n")) ++ last := by
  induction lines with
  | nil => simp
  | cons line rest ih =>
    rw [List.cons_append, String.intercalate_cons_of_ne_nil (by simp), ih, List.map_cons,
      String.join_cons, ← String.append_assoc]

/-- A block comment is its frame after the indentation of the first line. -/
theorem block_eq (indent : String) (lines : List String) :
    block indent lines = indent ++ framed indent lines := by
  rw [block, intercalate_lines, List.singleton_append, List.map_cons, List.map_map,
    String.join_cons, framed]
  simp [String.append_assoc, Function.comp_def]

/-- The frame around a line adds no end of a comment, as blanks stand on both sides of its
asterisk. -/
theorem closes_blockLine_iff {indent line : String} (h : ¬ Closes indent.toList) :
    Closes (blockLine indent line).toList ↔ Closes line.toList := by
  have hstar : ¬ Closes ['*'] := by decide
  rw [blockLine]
  split
  · subst line
    rw [show (indent ++ " *" ++ "").toList = indent.toList ++ ' ' :: ['*'] by simp,
      closes_append_cons_iff (by decide) (by decide)]
    simp [h, hstar, not_closes_nil]
  · rw [show (indent ++ " *" ++ (" " ++ line)).toList
        = indent.toList ++ ' ' :: (['*'] ++ ' ' :: line.toList) by simp,
      closes_append_cons_iff (by decide) (by decide),
      closes_append_cons_iff (by decide) (by decide)]
    simp [h, hstar]

/-- The line feeds keep lines apart, and the last line from what follows. -/
theorem closes_lines_append_iff (lines : List String) (cs : List Char) :
    Closes ((String.join (lines.map (· ++ "\n"))).toList ++ cs) ↔
      (∃ line ∈ lines, Closes line.toList) ∨ Closes cs := by
  induction lines with
  | nil => simp
  | cons line rest ih =>
    rw [List.map_cons, String.join_cons, String.toList_append, String.toList_append,
      List.append_assoc, List.append_assoc]
    show Closes (line.toList ++ '\n' :: (_ ++ cs)) ↔ _
    rw [closes_append_cons_iff (by decide) (by decide), ih]
    simp [or_assoc]

/-- A text with the marks of a comment at its two ends is one comment exactly if no end comes before
the last. -/
theorem isComment_iff {s : String} {inner : List Char}
    (h : s.toList = '/' :: '*' :: (inner ++ ['*', '/'])) : IsComment s ↔ ¬ Closes inner := by
  rw [IsComment, h]
  constructor
  · rintro ⟨_, hbody, hend⟩
    rw [List.cons.injEq, List.cons.injEq] at hbody
    obtain ⟨-, -, rfl⟩ := hbody
    have := hend []
    rw [List.append_nil] at this
    exact (afterEnd?_eq_some_iff inner []).mp this
  · intro hcloses
    refine ⟨_, rfl, fun rest => ?_⟩
    rw [List.append_assoc]
    exact (afterEnd?_eq_some_iff inner rest).mpr hcloses

/-- A block comment ends with its last line exactly if no line closes it. -/
theorem isComment_framed_iff {indent : String} (h : ¬ Closes indent.toList)
    (lines : List String) :
    IsComment (framed indent lines) ↔ ∀ line ∈ lines, ¬ Closes line.toList := by
  have hstar : ¬ Closes ['*'] := by decide
  have hframed : (framed indent lines).toList = '/' :: '*' :: ((['*'] ++ '\n' ::
      ((String.join ((lines.map (blockLine indent)).map (· ++ "\n"))).toList ++
        (indent.toList ++ ' ' :: []))) ++ ['*', '/']) := by
    simp [framed, Function.comp_def]
  rw [isComment_iff hframed, closes_append_cons_iff (by decide) (by decide),
    closes_lines_append_iff, closes_append_cons_iff (by decide) (by decide)]
  simp [h, hstar, not_closes_nil, closes_blockLine_iff h]

end Comment

open Comment

/-! ### The comment above a method -/

/-- The characters of names are no asterisks. -/
theorem not_closes_of_isNameChar {cs : List Char} (h : ∀ c ∈ cs, Name.isNameChar c = true) :
    ¬ Closes cs :=
  not_closes_of_not_mem fun hstar => absurd (h '*' hstar) (by decide)

/-- The line of an argument closes no comment: its name is made of characters of names, and its text
is a line made of the document. -/
theorem not_closes_of_docLine? {a : Argument} {line : String}
    (hname : ∀ c ∈ a.name.toList, Name.isNameChar c = true) (h : a.docLine? = some line) :
    ¬ Closes line.toList := by
  obtain ⟨text, htext, rfl⟩ := Option.map_eq_some_iff.mp h
  have hline := not_closes_of_mem_lines (List.mem_of_mem_head? htext)
  rw [show ("@param " ++ a.name ++ " " ++ text).toList
      = "@param".toList ++ ' ' :: (a.name.toList ++ ' ' :: text.toList) by simp,
    closes_append_cons_iff (by decide) (by decide),
    closes_append_cons_iff (by decide) (by decide)]
  simp only [not_or]
  exact ⟨by decide, not_closes_of_isNameChar hname, hline⟩

/-- The line that names the route closes the comment if a part of the route does. -/
theorem closes_route_iff (method path : String) :
    Closes (method ++ " " ++ path).toList ↔ Closes method.toList ∨ Closes path.toList := by
  rw [show (method ++ " " ++ path).toList = method.toList ++ ' ' :: path.toList by simp,
    closes_append_cons_iff (by decide) (by decide)]

/-- The line that names the route is always there. -/
theorem route_mem_methodDoc (e : Endpoint) (arguments : List Argument) :
    e.method ++ " " ++ e.path ∈ methodDoc e arguments := by
  simp [methodDoc]

/-- No other line than the one that names the route closes the comment above a method. -/
theorem eq_route_of_closes {e : Endpoint} {names : TypeNames} {line : String}
    (h : line ∈ methodDoc e (e.arguments names)) (hc : Closes line.toList) :
    line = e.method ++ " " ++ e.path := by
  -- Summary and description, an empty line, the route, a line for each argument.
  simp only [methodDoc, List.mem_append, List.mem_singleton, List.mem_filterMap] at h
  rcases h with ((h | h) | h) | ⟨a, ha, h⟩
  · exact absurd hc (not_closes_of_mem_lines h)
  · split at h
    · cases h
    · rw [List.mem_singleton.mp h] at hc
      exact absurd hc not_closes_nil
  · exact h
  · exact absurd hc (not_closes_of_docLine? (isNameChar_nameArguments names _ _ a ha) h)

/-- The comment above a method ends where it should exactly if neither the HTTP method nor the path
of its endpoint closes it, whatever summary, description and parameters say. -/
theorem closes_methodDoc_iff (e : Endpoint) (names : TypeNames) :
    (∀ line ∈ methodDoc e (e.arguments names), ¬ Closes line.toList) ↔
      ¬ Closes e.method.toList ∧ ¬ Closes e.path.toList := by
  rw [← not_or, ← closes_route_iff]
  constructor
  · exact fun h => h _ (route_mem_methodDoc e _)
  · intro h line hline hc
    exact h (eq_route_of_closes hline hc ▸ hc)

end TypedClient
