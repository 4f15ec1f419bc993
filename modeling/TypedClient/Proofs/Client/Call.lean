import TypedClient.Proofs.Client.Signature
import TypedClient.Proofs.Client.Tokens

/-!
# `TypedClient.Proofs.Client.Call`: what the call of a method is read as

The arguments of a call are an address, a payload, and a record of options, each a record
itself. This module says how such a text is read, and that a call is read as it is meant if
its names are words: no name can be taken for a mark, or for a part of its neighbour.

* `Call.Reading`, `Call.Reading.read`: what the arguments of a call are read as.
* `Call.read_text`: the reading of the text of a call.
-/

set_option autoImplicit false

namespace TypedClient

open Token (Shows)

namespace Call

/-- A value in the options of a call: the option that it is in, its name there, and the
expression that it is given by. -/
structure Binding where
  option : String
  name : String
  value : String
deriving DecidableEq

/-- The values in the options of a call, from inside an option on. `placed` says that a value
has just been read, so that another one needs a comma in front. -/
def readBindings : (placed : Bool) → (option : String) → List Token → Option (List Binding)
  | false, option, key :: .mark ':' :: .word value :: ts =>
    key.name?.bind fun name =>
      (readBindings true option ts).map fun bs => ⟨option, name, value⟩ :: bs
  | false, option, .word value :: ts =>
    -- A name alone stands for the value of that name.
    (readBindings true option ts).map fun bs => ⟨option, value, value⟩ :: bs
  | true, option, .mark ',' :: ts => readBindings false option ts
  | true, _, [.mark '\x7d', .mark '\x7d'] => some []
  | true, _, .mark '\x7d' :: .mark ',' :: .word option :: .mark ':' :: .mark '\x7b' :: ts =>
    readBindings false option ts
  | _, _, _ => none

/-- What the arguments of a call are read as. -/
structure Reading where
  url : List TemplateLiteral.Piece
  payload : Option String
  bindings : List Binding
deriving DecidableEq

/-- What comes after the address: a payload, and options, or one of them, or nothing. -/
def Reading.ofTokens (url : List TemplateLiteral.Piece) : List Token → Option Reading
  | [] => some ⟨url, none, []⟩
  | [.mark ',', .word w] => some ⟨url, some w, []⟩
  | .mark ',' :: .mark '\x7b' :: .word option :: .mark ':' :: .mark '\x7b' :: ts =>
    (readBindings false option ts).map (⟨url, none, ·⟩)
  | .mark ',' :: .word w :: .mark ',' :: .mark '\x7b' :: .word option :: .mark ':' ::
      .mark '\x7b' :: ts =>
    (readBindings false option ts).map (⟨url, some w, ·⟩)
  | _ => none

/-- The arguments of a call: an address, and what comes after it. -/
def Reading.read (cs : List Char) : Option Reading := do
  let (url, rest) ← TemplateLiteral.read cs
  let tokens ← Token.read rest
  ofTokens url tokens

end Call

/-- The tokens of an argument in a record. -/
def Argument.tokens (a : Argument) : List Token :=
  if a.parameter.name = a.name then [.word a.name]
  else [.ofKey a.parameter.name, .mark ':', .word a.name]

/-- What an argument in an option is read as. -/
def Argument.binding (option : String) (a : Argument) : Call.Binding :=
  ⟨option, a.parameter.name, a.name⟩

/-- The argument and its parameter have names that are read as what they are. -/
structure Argument.Legible (a : Argument) : Prop where
  name : Name.Proper a.name
  key : ¬ Name.EndsLine a.parameter.name

/-- An argument in a record is read as its tokens: its name alone, or the name of its parameter, a
colon and its own name. -/
theorem Argument.Legible.shows_entry {a : Argument} (h : a.Legible) : Shows a.entry a.tokens := by
  unfold entry tokens
  split
  · exact Token.shows_word h.name
  · exact (Token.shows_propertyKey h.key).append (Token.shows_word h.name) (by decide) (by decide)

namespace Call

/-- An option with its arguments. -/
abbrev Group := String × List Argument

/-- An option as it stands in a call: its name, and its arguments between braces. -/
def Group.text (g : Group) : String :=
  g.1 ++ ": \x7b " ++ ", ".intercalate (g.2.map Argument.entry) ++ " \x7d"

/-- The tokens of an option with its arguments. -/
def Group.tokens (g : Group) : List Token :=
  [.word g.1] ++ [.mark ':', .mark '\x7b'] ++ [.mark ','].intercalate (g.2.map Argument.tokens) ++
    [.mark '\x7d']

/-- The values that an option sends, each under its key. -/
def Group.bindings (g : Group) : List Binding := g.2.map (Argument.binding g.1)

/-- The options of the call that have arguments. -/
def groups (c : Call) : List Group :=
  [("params", c.query), ("headers", c.headers)].filter (!·.2.isEmpty)

/-- An option is read as its tokens: its name, and the arguments between braces with commas between
them. -/
theorem Group.shows_text {g : Group} (hkey : Name.Proper g.1) (h : ∀ a ∈ g.2, a.Legible) :
    Shows g.text g.tokens := by
  have hentries : Shows (", ".intercalate (g.2.map Argument.entry))
      ([.mark ','].intercalate (g.2.map Argument.tokens)) :=
    Token.shows_intercalate fun a ha => (h a ha).shows_entry
  have hopened := (Token.shows_word hkey).append hentries (p := ": \x7b ") (by decide) (by decide)
  simpa [text, tokens, Token.gapTokens] using
    hopened.append Token.shows_empty (p := " \x7d") (by decide) (by decide)

/-! ### Options -/

/-- What stands after a value: a comma, or the end of its option. -/
def Follows (ts : List Token) : Prop := ∃ c us, ts = .mark c :: us ∧ c ≠ ':'

/-- A value is read off its tokens, whether it is given with a key or without. What follows must be
no colon, or a name alone would be taken for a key. -/
theorem readBindings_tokens {option : String} {a : Argument} {ts : List Token} (h : Follows ts) :
    readBindings false option (a.tokens ++ ts)
      = (readBindings true option ts).map (a.binding option :: ·) := by
  obtain ⟨c, us, rfl, hc⟩ := h
  unfold Argument.tokens Argument.binding
  split
  · rename_i hname
    rw [List.singleton_append, readBindings, hname]
    rintro _ _ heq
    cases heq
    exact hc rfl
  · simp only [List.cons_append, List.nil_append, readBindings, Token.name?_ofKey, Option.bind_some]

/-- The values of an option are read one after the other. -/
theorem readBindings_intercalate {option : String} {ts : List Token} (args : List Argument) :
    ∀ a : Argument, readBindings false option
        ([.mark ','].intercalate ((a :: args).map Argument.tokens) ++ .mark '\x7d' :: ts)
      = (readBindings true option (.mark '\x7d' :: ts)).map
          ((a :: args).map (Argument.binding option) ++ ·) := by
  induction args with
  | nil =>
    intro a
    rw [List.map_singleton, List.intercalate_singleton,
      readBindings_tokens ⟨_, _, rfl, by decide⟩]
    rfl
  | cons b args ih =>
    intro a
    rw [List.map_cons, List.map_cons, List.intercalate_cons_cons, ← List.map_cons,
      List.append_assoc, List.append_assoc, List.singleton_append,
      readBindings_tokens ⟨_, _, rfl, by decide⟩]
    show (readBindings false option _).map _ = _
    rw [ih b, Option.map_map]
    rfl

/-- The tokens after those of an option, to the end of the options. -/
def remainingTokens : List Group → List Token
  | [] => [.mark '\x7d']
  | g :: gs => .mark ',' :: .word g.1 :: .mark ':' :: .mark '\x7b' ::
      ([.mark ','].intercalate (g.2.map Argument.tokens) ++ .mark '\x7d' :: remainingTokens gs)

/-- The tokens of the record of the options. -/
def recordTokens (gs : List Group) : List Token :=
  .mark '\x7b' :: ([.mark ','].intercalate (gs.map Group.tokens) ++ [.mark '\x7d'])

/-- The record of the options begins with the key of the first one. -/
theorem recordTokens_cons (gs : List Group) : ∀ g : Group,
    recordTokens (g :: gs) = .mark '\x7b' :: .word g.1 :: .mark ':' :: .mark '\x7b' ::
      ([.mark ','].intercalate (g.2.map Argument.tokens) ++
        .mark '\x7d' :: remainingTokens gs) := by
  induction gs with
  | nil =>
    intro g
    simp [recordTokens, Group.tokens, remainingTokens]
  | cons h gs ih =>
    intro g
    have htail : [.mark ','].intercalate ((h :: gs).map Group.tokens) ++ [.mark '\x7d'] = _ :=
      (List.cons.inj (ih h)).2
    rw [recordTokens, List.map_cons, List.map_cons, List.intercalate_cons_cons, ← List.map_cons,
      List.append_assoc, List.append_assoc, htail]
    simp [Group.tokens, remainingTokens]

/-- The values of several options are read in the order of the options, which takes each of them to
have a value. This is by induction on the options. -/
theorem readBindings_groups (gs : List Group) : ∀ g : Group, (∀ h ∈ g :: gs, h.2 ≠ []) →
    readBindings false g.1 ([.mark ','].intercalate (g.2.map Argument.tokens) ++
        .mark '\x7d' :: remainingTokens gs)
      = some ((g :: gs).flatMap Group.bindings) := by
  induction gs with
  | nil =>
    rintro ⟨option, args⟩ hne
    obtain ⟨a, args, rfl⟩ := List.exists_cons_of_ne_nil (hne _ List.mem_cons_self)
    rw [readBindings_intercalate]
    simp [remainingTokens, readBindings, Group.bindings]
  | cons h gs ih =>
    rintro ⟨option, args⟩ hne
    obtain ⟨hargs, hrest⟩ := List.forall_mem_cons.mp hne
    obtain ⟨a, args, rfl⟩ := List.exists_cons_of_ne_nil hargs
    rw [readBindings_intercalate]
    show (readBindings false h.1 _).map _ = _
    rw [ih h hrest]
    rfl

/-! ### The call -/

/-- What comes after the address, with its tokens: the payload, and the record of the
options. -/
def others (c : Call) : List (String × List Token) :=
  c.payload.toList.map (fun w => (w, [.word w])) ++
    if c.groups.isEmpty then [] else
      [("\x7b " ++ ", ".intercalate (c.groups.map Group.text) ++ " \x7d", recordTokens c.groups)]

/-- The text of a call is its address and then the other parts, each with a comma in front. -/
theorem text_eq (c : Call) :
    c.text = c.url ++ ", ".intercalate ((("", []) :: c.others).map Prod.fst) := by
  have hsplit : ∀ (url : String) (l : List String),
      ", ".intercalate (url :: l) = url ++ ", ".intercalate ("" :: l) := by
    intro url l
    cases l with
    | nil => simp
    | cons a l => simp [String.intercalate_cons_cons, String.append_assoc]
  have hoptions : Call.option "params" c.query ++ Call.option "headers" c.headers
      = c.groups.map Group.text := by
    unfold groups
    cases c.query <;> cases c.headers <;> rfl
  have hempty : (c.groups.map Group.text).isEmpty = c.groups.isEmpty := by
    cases c.groups <;> rfl
  -- An empty part after the address leaves the comma in front of whatever comes next.
  rw [text, hoptions, hempty, List.append_assoc, List.singleton_append, hsplit, List.map_cons]
  unfold others
  split <;> simp [Function.comp_def]

/-- The parts after the address are read as their tokens, if the payload is a word and the arguments
are legible. -/
theorem shows_others {c : Call} (hpayload : ∀ w ∈ c.payload, Name.Proper w)
    (hargs : ∀ a ∈ c.query ++ c.headers, a.Legible) : ∀ o ∈ c.others, Shows o.1 o.2 := by
  have hgroup : ∀ g ∈ c.groups, Shows g.text g.tokens := by
    intro g hg
    obtain ⟨hquery, hheaders⟩ := List.forall_mem_append.mp hargs
    have hparams : Name.Proper "params" := Name.proper_of_isIdentifier (by decide) (by decide)
    have hkey : Name.Proper "headers" := Name.proper_of_isIdentifier (by decide) (by decide)
    rcases List.mem_cons.mp (List.mem_of_mem_filter hg) with rfl | hg
    · exact Group.shows_text hparams hquery
    · obtain rfl := List.mem_singleton.mp hg
      exact Group.shows_text hkey hheaders
  unfold others
  rw [List.forall_mem_append]
  constructor
  · intro o ho
    obtain ⟨w, hw, rfl⟩ := List.mem_map.mp ho
    exact Token.shows_word (hpayload w (Option.mem_toList.mp hw))
  · split
    · exact List.forall_mem_nil _
    · have hopened := Token.shows_empty.append (Token.shows_intercalate hgroup) (p := "\x7b ")
        (by decide) (by decide)
      intro o ho
      obtain rfl := List.mem_singleton.mp ho
      simpa [recordTokens, Token.gapTokens] using
        hopened.append Token.shows_empty (p := " \x7d") (by decide) (by decide)

/-- The values in the options are those of the query and then those of the headers. An option
without arguments is not written and has no values either. -/
theorem bindings_groups (c : Call) : c.groups.flatMap Group.bindings
    = c.query.map (Argument.binding "params") ++ c.headers.map (Argument.binding "headers") := by
  unfold groups
  cases c.query <;> cases c.headers <;> simp [Group.bindings]

/-- The tokens after the address are taken for the payload and the options. -/
theorem ofTokens_others (c : Call) (url : List TemplateLiteral.Piece) :
    Reading.ofTokens url ([.mark ','].intercalate ((("", []) :: c.others).map Prod.snd))
      = some ⟨url, c.payload, c.groups.flatMap Group.bindings⟩ := by
  unfold others
  -- An option without arguments would be read as nothing, but none is written.
  have hnonempty : ∀ g ∈ c.groups, g.2 ≠ [] := by
    intro g hg
    simpa using (List.mem_filter.mp hg).2
  cases hgroups : c.groups with
  | nil =>
    cases c.payload with
    | none => rfl
    | some w => rfl
  | cons g gs =>
    rw [hgroups] at hnonempty
    have hread := readBindings_groups gs g hnonempty
    cases c.payload with
    | none => simp [recordTokens_cons, Reading.ofTokens, hread]
    | some w => simp [recordTokens_cons, Reading.ofTokens, hread]

/-- A call is read as it is meant: the address, then the payload, then each argument in its
option under the name of its parameter. -/
theorem read_text {c : Call} {pieces : List TemplateLiteral.Piece}
    (hurl : ∀ rest, TemplateLiteral.read (c.url.toList ++ rest) = some (pieces, rest))
    (hpayload : ∀ w ∈ c.payload, Name.Proper w)
    (hargs : ∀ a ∈ c.query ++ c.headers, a.Legible) :
    Reading.read c.text.toList = some ⟨pieces, c.payload,
      c.query.map (Argument.binding "params") ++ c.headers.map (Argument.binding "headers")⟩ := by
  have hshows : Shows (", ".intercalate ((("", []) :: c.others).map Prod.fst))
      ([.mark ','].intercalate ((("", []) :: c.others).map Prod.snd)) :=
    Token.shows_intercalate
      (List.forall_mem_cons.mpr ⟨Token.shows_empty, shows_others hpayload hargs⟩)
  simp only [Reading.read, text_eq, String.toList_append, hurl, hshows.read_eq,
    Option.bind_eq_bind, Option.bind_some, ofTokens_others, bindings_groups]

end Call

end TypedClient
