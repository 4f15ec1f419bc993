import TypedClient.Proofs.Decimal.Shortest
import TypedClient.Proofs.Schema.Symbols
import TypedClient.Schema.Reading
import TypedClient.Schema.TypeText

/-!
# `TypedClient.Proofs.Schema.Enumeration`: what the type of an enumeration admits

The members of an enumeration that have literals become a union, and the bars of a union stand
outside of quotes, so its alternatives are those literals again. A member without a literal is not
among them: where another member has one it is left out, and where none has one the declared type
stands for all of them.

* `alternatives`: the alternatives of a type, as they are written.
* `Admits`: a type admits a value.
* `admits_member_iff`: the members that the type of an enumeration admits.
* `enumeration_unambiguous`: which text a literal stands for, and that the type of an enumeration
  of texts, integers, booleans and null says what its members are.
-/

set_option autoImplicit false

namespace TypedClient

open TypedClient.Symbol (Shows Solid)

variable {v w : Value} {l text : String} {names : Option TypeNames} {hint : Option String}
  {schema : Schema} {depth : Int}

/-! ### Literals -/

/-- The literals that are words. -/
def literalWords : List String := ["null", "true", "false", "NaN", "Infinity", "-Infinity"]

/-- The literal of a value is that of a text, or a word, or a number. Dates, bytes and collections
have no literal. -/
theorem literal_cases (h : v.literal? = some l) :
    (∃ s, v = .text s ∧ l = textLiteral s) ∨ l ∈ literalWords ∨
      ∀ c ∈ l.toList, isFigure c = true := by
  cases v with
  | null => exact .inr (.inl (by simp_all [Value.literal?, literalWords]))
  | bool b => exact .inr (.inl (by cases b <;> simp_all [Value.literal?, literalWords]))
  | int i =>
    cases h
    exact .inr (.inr fun c hc => isFigure_of_mem_toString hc)
  | float x =>
    cases h
    -- A double is named, with a sign or without, or has digits.
    rcases Binary64.text_cases literalNames x with hx | hx | hx | hx
    · exact .inr (.inl (by rw [hx]; decide))
    · exact .inr (.inl (by rw [hx]; decide))
    · exact .inr (.inl (by rw [hx]; decide))
    · exact .inr (.inr hx)
  | text s =>
    cases h
    exact .inl ⟨s, rfl, rfl⟩
  | date d => cases h
  | timestamp t => cases h
  | bytes bs => cases h
  | node id => cases h

/-- Nothing in a literal separates alternatives or members, so a union of literals can be taken
apart at its bars. -/
theorem solid_literal (h : v.literal? = some l) : Solid l := by
  rcases literal_cases h with ⟨s, -, rfl⟩ | hword | hfigures
  · exact Symbol.solid_textLiteral s
  · have hwords : literalWords.all (fun w => w.toList.all Symbol.isPlain) = true := by decide
    exact Symbol.solid_of_chars (List.all_eq_true.mp hwords l hword)
  · exact Symbol.solid_of_chars (List.all_eq_true.mpr fun c hc =>
      Symbol.isPlain_of (by decide) (hfigures c hc))

/-- No literal is the type that admits everything. So a union of literals never admits a value only
because of how some literal is spelled. -/
theorem literal_ne_unknownType (h : v.literal? = some l) : l ≠ unknownType := by
  rintro rfl
  rcases literal_cases h with ⟨s, -, hs⟩ | hword | hfigures
  · have hquote : '\'' ∈ unknownType.toList := by
      rw [hs]
      simp [textLiteral]
    exact absurd hquote (by decide)
  · exact absurd hword (by decide)
  · exact absurd (hfigures 'a' (by decide)) (by decide)

/-! ### Alternatives -/

/-- The alternatives of a type: what stands between its bars, without the blanks outside of
texts. -/
def alternatives (type : String) : List String :=
  match Symbol.read type.toList with
  | none => []
  | some ss => ((ss.filter (· ≠ .char ' ')).splitOn (.char '|')).map fun alternative =>
      String.ofList (alternative.flatMap Symbol.written)

/-- Leaving elements out of parts with a separator between them is leaving them out of the parts and
of the separator. -/
theorem filter_intercalate {α : Type} (p : α → Bool) (sep : List α) (parts : List (List α)) :
    (sep.intercalate parts).filter p = (sep.filter p).intercalate (parts.map (·.filter p)) := by
  induction parts with
  | nil => rfl
  | cons part rest ih =>
    cases rest with
    | nil => simp
    | cons next rest =>
      rw [List.intercalate_cons_cons, List.filter_append, List.filter_append, ih, List.map_cons,
        List.map_cons, List.map_cons, List.intercalate_cons_cons]

/-- The alternatives of a union are the texts that it was made of, in their order and as often.
There has to be one: what is written for none would be read as one empty alternative. -/
theorem alternatives_intercalate {ls : List String} (hne : ls ≠ []) (h : ∀ l ∈ ls, Solid l) :
    alternatives (" | ".intercalate ls) = ls := by
  have hbar : Shows " | " [.char ' ', .char '|', .char ' '] := Symbol.shows_chars (by decide)
  have hread := (Symbol.shows_intercalate hbar fun l hl => (h l hl).shows).read_eq
  rw [List.map_id'] at hread
  -- Without blanks the symbols are those of the alternatives with one bar between them.
  have hfilter : (ls.map Symbol.ofString).map (·.filter (· ≠ .char ' '))
      = ls.map Symbol.ofString := by
    rw [List.map_map]
    refine List.map_congr_left fun l hl => List.filter_eq_self.mpr fun s hs => ?_
    rw [decide_eq_true_eq]
    rintro rfl
    exact (h l hl).char ' ' hs (by decide)
  -- No alternative has a bar of its own, so splitting at bars undoes the joining.
  have hsplit : List.splitOn (.char '|') ([.char '|'].intercalate (ls.map Symbol.ofString))
      = ls.map Symbol.ofString := by
    refine List.splitOn_intercalate _ (fun ss hss => ?_) (by simpa using hne)
    obtain ⟨l, hl, rfl⟩ := List.mem_map.mp hss
    exact fun hbar => (h l hl).char '|' hbar (by decide)
  have hwritten : (ls.map Symbol.ofString).map
      (fun alternative => String.ofList (alternative.flatMap Symbol.written)) = ls := by
    rw [List.map_map]
    refine (List.map_congr_left fun l hl => ?_).trans (List.map_id ls)
    rw [Function.comp_apply, (h l hl).written, String.ofList_toList, id_eq]
  rw [alternatives, hread]
  dsimp only
  rw [filter_intercalate, hfilter]
  exact (congrArg _ hsplit).trans hwritten

/-- A type in which nothing separates alternatives is its only one. -/
theorem alternatives_of_solid (h : Solid l) : alternatives l = [l] := by
  simpa using alternatives_intercalate (List.cons_ne_nil l []) (by simpa using h)

/-! ### What the type of an enumeration admits -/

/-- The scalar type that a value belongs to. -/
def Value.scalarKind? : Value → Option String
  | .text _ => some "string"
  | .int _ | .float _ => some "number"
  | .bool _ => some "boolean"
  | _ => none

/-- The type admits the value: one of its alternatives admits everything, or is the scalar type or
the literal of the value. -/
def Admits (type : String) (v : Value) : Prop :=
  ∃ alternative ∈ alternatives type, alternative = unknownType ∨
    v.scalarKind? = some alternative ∨ v.literal? = some alternative

/-- Only a type that admits everything admits a value without a literal, for such a value has no
scalar type either. -/
theorem admits_iff_of_literal_eq_none {type : String} (h : v.literal? = none) :
    Admits type v ↔ unknownType ∈ alternatives type := by
  have hkind : v.scalarKind? = none := by
    cases v <;> first | rfl | cases h
  simp [Admits, h, hkind]

/-- The type that is declared for scalars is a word, and nothing in it separates alternatives. -/
theorem solid_scalarType (type : Option String) : Solid (scalarType type) := by
  unfold scalarType
  split <;> exact Symbol.solid_of_chars (by decide)

/-- The type that is declared for scalars is its only alternative. -/
theorem alternatives_scalarType (type : Option String) :
    alternatives (scalarType type) = [scalarType type] :=
  alternatives_of_solid (solid_scalarType type)

/-- The declared type stands for everything exactly if it is missing or is none of the scalar
types. -/
theorem scalarType_eq_unknownType_iff {type : Option String} :
    scalarType type = unknownType ↔ ∀ t ∈ type, t ∉ Schema.scalarTypes := by
  unfold scalarType
  split
  · simp [unknownType, Schema.scalarTypes]
  · simp [unknownType, Schema.scalarTypes]
  · simp [unknownType, Schema.scalarTypes]
  · simp [unknownType, Schema.scalarTypes]
  · rename_i hstring hnumber hinteger hboolean
    refine iff_of_true rfl fun t ht hmem => ?_
    simp only [Schema.scalarTypes, List.mem_cons, List.not_mem_nil, or_false] at hmem
    rcases hmem with rfl | rfl | rfl | rfl
    · exact hstring ht
    · exact hnumber ht
    · exact hinteger ht
    · exact hboolean ht

/-- A type is resolved if its schema can be written, and what it is resolved to is its text.
Resolving takes notes besides, which have no part in the text. -/
theorem outcome_resolvedType_eq_ok_iff : (resolvedType names hint schema depth).outcome = .ok text ↔
    (noteType names hint schema).outcome = .ok () ∧ text = typeText names schema depth := by
  simp only [resolvedType, Logged.outcome_bind, bind_eq_ok_iff, Logged.outcome_pure,
    Except.ok.injEq]
  exact ⟨fun ⟨_, hnote, htext⟩ => ⟨hnote, htext.symm⟩,
    fun ⟨hnote, htext⟩ => ⟨(), hnote, htext.symm⟩⟩

variable {type format : Option String} {members : List Value} {description : String}

/-- An enumeration none of whose members has a literal has the declared type, as if it were no
enumeration. -/
theorem typeText_of_no_literals (h : members.filterMap Value.literal? = []) :
    typeText names (.primitive type format (some members) description) depth = scalarType type := by
  simp [typeText, unionText?, h]

/-- An enumeration with a literal is the union of its literals, and the declared type has no part in
it. -/
theorem typeText_of_literals (h : members.filterMap Value.literal? ≠ []) :
    typeText names (.primitive type format (some members) description) depth
      = " | ".intercalate (members.filterMap Value.literal?) := by
  cases hl : members.filterMap Value.literal? with
  | nil => exact absurd hl h
  | cons l ls => simp [typeText, unionText?, hl]

/-- Nothing in the literal of a member separates alternatives. -/
theorem solid_of_mem_literals (h : l ∈ members.filterMap Value.literal?) : Solid l := by
  obtain ⟨v, -, hv⟩ := List.mem_filterMap.mp h
  exact solid_literal hv

/-- The alternatives of the type of an enumeration are the literals of its members, if there are
any. This is where the bars between them and the bars in texts are told apart. -/
theorem alternatives_typeText (h : members.filterMap Value.literal? ≠ []) :
    alternatives (typeText names (.primitive type format (some members) description) depth)
      = members.filterMap Value.literal? := by
  rw [typeText_of_literals h, alternatives_intercalate h fun l hl => solid_of_mem_literals hl]

/-- The type of an enumeration is resolved unless an integer is too long, and it admits the members
that have literals, and all members if none has a literal and no scalar type is declared. A member
without a literal is left out of a union on purpose, since nothing could be written for it. -/
theorem admits_member_iff :
    (members.all Value.fits = true → ∃ text, (resolvedType names hint
      (.primitive type format (some members) description) depth).outcome = .ok text) ∧
    ∀ text, (resolvedType names hint (.primitive type format (some members) description)
        depth).outcome = .ok text →
      ∀ v ∈ members, (Admits text v ↔ v.literal?.isSome = true ∨
        (∀ w ∈ members, w.literal? = none) ∧ ∀ t ∈ type, t ∉ Schema.scalarTypes) := by
  refine ⟨fun hfits => ?_, fun text htext v hv => ?_⟩
  · -- What can be written is resolved.
    refine ⟨_, outcome_resolvedType_eq_ok_iff.mpr ⟨?_, rfl⟩⟩
    simp only [noteType, Option.getD_some, hfits, ↓reduceIte, Logged.outcome_pure]
  · -- Either the declared type stands for all members, or the union is that of the literals.
    obtain ⟨-, rfl⟩ := outcome_resolvedType_eq_ok_iff.mp htext
    by_cases hnone : members.filterMap Value.literal? = []
    · have hall : ∀ w ∈ members, w.literal? = none := List.filterMap_eq_nil_iff.mp hnone
      rw [typeText_of_no_literals hnone, admits_iff_of_literal_eq_none (hall v hv),
        alternatives_scalarType, List.mem_singleton, eq_comm, scalarType_eq_unknownType_iff,
        hall v hv]
      exact ⟨fun h => .inr ⟨hall, h⟩, fun h => h.elim (fun hsome => nomatch hsome) And.right⟩
    · have hsome : ¬ ∀ w ∈ members, w.literal? = none := fun hall =>
        hnone (List.filterMap_eq_nil_iff.mpr hall)
      rw [or_iff_left fun h => hsome h.1]
      cases hl : v.literal? with
      | none =>
        rw [admits_iff_of_literal_eq_none hl, alternatives_typeText hnone]
        refine iff_of_false (fun hmem => ?_) (by simp)
        obtain ⟨w, -, hw⟩ := List.mem_filterMap.mp hmem
        exact literal_ne_unknownType hw rfl
      | some l =>
        refine iff_of_true ⟨l, ?_, .inr (.inr hl)⟩ rfl
        rw [alternatives_typeText hnone]
        exact List.mem_filterMap.mpr ⟨v, hv, hl⟩

/-- An enumeration of a text and a mapping. -/
def mixedEnumeration : Graph :=
  ⟨#[.map [(.text "enum", .node 1)], .list [.text "a", .node 2], .map [(.text "b", .int 1)]]⟩

/-- Of a text, a boolean and a mapping the first two are admitted. -/
theorem admits_member_of_mixed :
    ∃ text, (resolvedType none none (.primitive (some "string") none
        (some [.text "a", .bool true, .node 2]) "") 0).outcome = .ok text ∧
      Admits text (.text "a") ∧ Admits text (.bool true) ∧ ¬ Admits text (.node 2) := by
  have h := @admits_member_iff none none 0 (some "string") none
    [.text "a", .bool true, .node 2] ""
  obtain ⟨text, htext⟩ := h.1 (by decide)
  have hiff := h.2 text htext
  exact ⟨text, htext, (hiff (.text "a") (by decide)).mpr (.inl rfl),
    (hiff (.bool true) (by decide)).mpr (.inl rfl), fun hadmits =>
      ((hiff (.node 2) (by decide)).mp hadmits).elim (fun h => nomatch h)
        fun h => nomatch h.1 (.text "a") (by decide)⟩

/-- A mapping beside a text is no alternative of the type. -/
theorem mapping_left_out : ∃ schema text,
    Schema.read mixedEnumeration (.node 0) = .ok schema ∧
      schema = .primitive none none (some [.text "a", .node 2]) "" ∧
      (resolvedType none none schema 0).outcome = .ok text ∧ ¬ Admits text (.node 2) := by
  -- Nothing is left of the mapping: the type has one alternative, which is a text.
  refine ⟨.primitive none none (some [.text "a", .node 2]) "", "'a'", rfl, rfl, rfl, ?_⟩
  rintro ⟨a, ha, h⟩
  have halternatives : alternatives "'a'" = ["'a'"] := by decide
  rw [halternatives, List.mem_singleton] at ha
  subst ha
  revert h
  decide

/-! ### What the type of an enumeration says -/

/-- A text, an integer, a boolean or null. -/
def Value.isDiscrete : Value → Bool
  | .text _ | .int _ | .bool _ | .null => true
  | _ => false

/-- The integer that its digits stand for, which a minus sign may stand in front of. -/
def integerOfDigits : List Char → Int
  | '-' :: digits => -(Nat.ofDigitChars 10 digits 0 : Int)
  | digits => Nat.ofDigitChars 10 digits 0

/-- The value that the literal of a text, an integer, a boolean or null stands for. -/
def Value.ofLiteral (l : String) : Value :=
  if l = "null" then .null
  else if l = "true" then .bool true
  else if l = "false" then .bool false
  else match Symbol.read l.toList with
    | some [.text s] => .text s
    | _ => .int (integerOfDigits l.toList)

/-- An integer is read back from its text. -/
theorem integerOfDigits_toString (i : Int) : integerOfDigits (toString i).toList = i := by
  have hrepr : toString i = i.repr := rfl
  rw [hrepr]
  cases i with
  | ofNat n =>
    rw [Int.repr, Nat.toList_repr, integerOfDigits]
    · simp
    · -- A minus sign is no digit.
      intro digits hdigits
      have hminus : '-' ∈ Nat.toDigits 10 n := hdigits ▸ List.mem_cons_self
      exact absurd (Nat.isDigit_of_mem_toDigits (by decide) (by decide) hminus) (by decide)
  -- The sign comes first, and the digits are those of the absolute value.
  | negSucc n =>
    rw [Int.repr, String.toList_append, Nat.toList_repr]
    show -(Nat.ofDigitChars 10 (Nat.toDigits 10 (n + 1)) 0 : Int) = _
    simp [Int.negSucc_eq]

/-- What has no quotes is the literal of no text. -/
theorem textLiteral_ne {s : String} (h : '\'' ∉ l.toList) : textLiteral s ≠ l := by
  rintro rfl
  simp [textLiteral] at h

/-- What has a character that is no figure is no integer. -/
theorem toString_ne {i : Int} {c : Char} (hc : c ∈ l.toList) (h : isFigure c = false) :
    toString i ≠ l := by
  rintro rfl
  rw [isFigure_of_mem_toString hc] at h
  cases h

/-- A literal stands for the value that it was made of. This is about texts, integers, booleans and
null; the figures of a double would have to be read by a reader of their own. -/
theorem ofLiteral_of_literal (hv : v.isDiscrete = true) (h : v.literal? = some l) :
    Value.ofLiteral l = v := by
  cases v with
  | null =>
    cases h
    rfl
  -- The words for booleans are looked at before anything else.
  | bool b => cases b <;> cases h <;> rfl
  | int i =>
    cases h
    have hquote : '\'' ∉ (toString i).toList := fun hc =>
      absurd (isFigure_of_mem_toString hc) (by decide)
    rw [Value.ofLiteral, if_neg (toString_ne (c := 'n') (by decide) (by decide)),
      if_neg (toString_ne (c := 't') (by decide) (by decide)),
      if_neg (toString_ne (c := 'f') (by decide) (by decide)),
      (Symbol.shows_chars hquote).read_eq]
    split
    · rename_i s hchars
      cases (toString i).toList <;> simp at hchars
    · rw [integerOfDigits_toString]
  | text s =>
    cases h
    -- The words have no quotes.
    rw [Value.ofLiteral, if_neg (textLiteral_ne (by decide)), if_neg (textLiteral_ne (by decide)),
      if_neg (textLiteral_ne (by decide)), (Symbol.shows_textLiteral s).read_eq]
  | _ => cases hv

/-- The members of an enumeration are what the alternatives of its type stand for, so nothing about
them is lost in the type. -/
theorem map_ofLiteral_alternatives (hne : members ≠ [])
    (h : ∀ v ∈ members, v.isDiscrete = true) :
    (alternatives (typeText names (.primitive type format (some members) description)
      depth)).map Value.ofLiteral = members := by
  -- Each member has a literal, which stands for it.
  have hread : ∀ v ∈ members, v.literal?.map Value.ofLiteral = some v := by
    intro v hv
    have hdiscrete := h v hv
    obtain ⟨l, hl⟩ : ∃ l, v.literal? = some l := by
      cases v <;> first | exact ⟨_, rfl⟩ | cases hdiscrete
    rw [hl, Option.map_some, ofLiteral_of_literal hdiscrete hl]
  have hliterals : members.filterMap Value.literal? ≠ [] := by
    obtain ⟨v, hv⟩ := List.exists_mem_of_ne_nil _ hne
    intro hnil
    have hsome := hread v hv
    rw [List.filterMap_eq_nil_iff.mp hnil v hv] at hsome
    cases hsome
  rw [alternatives_typeText hliterals, List.map_filterMap]
  exact (List.filterMap_congr hread).trans List.filterMap_some

/-- The literal of a text is one symbol that stands for the text, and no line ends in it. The type
of an enumeration of texts, integers, booleans and null says which members there are, in which
order and how often. -/
theorem enumeration_unambiguous :
    (∀ s, (Value.text s).literal? = some (textLiteral s) ∧
      '\n' ∉ (textLiteral s).toList ∧ '\r' ∉ (textLiteral s).toList ∧
      Symbol.read (textLiteral s).toList = some [.text s]) ∧
    ∀ (names names' : Option TypeNames) (hint hint' : Option String) (depth depth' : Int)
      (type type' format format' : Option String) (members members' : List Value)
      (description description' text : String),
      members ≠ [] → members' ≠ [] →
      (∀ v ∈ members, v.isDiscrete = true) → (∀ v ∈ members', v.isDiscrete = true) →
      (resolvedType names hint (.primitive type format (some members) description)
        depth).outcome = .ok text →
      (resolvedType names' hint' (.primitive type' format' (some members') description')
        depth').outcome = .ok text →
      members = members' := by
  refine ⟨fun s => ⟨rfl, not_mem_textLiteral (.inl rfl) s,
    not_mem_textLiteral (.inr rfl) s, (Symbol.shows_textLiteral s).read_eq⟩, ?_⟩
  intro names names' hint hint' depth depth' type type' format format' members members'
    description description' text hne hne' hdiscrete hdiscrete' htext htext'
  obtain ⟨-, rfl⟩ := outcome_resolvedType_eq_ok_iff.mp htext
  obtain ⟨-, hsame⟩ := outcome_resolvedType_eq_ok_iff.mp htext'
  have hmembers' : (alternatives (typeText names' (.primitive type' format' (some members')
      description') depth')).map Value.ofLiteral = members' :=
    map_ofLiteral_alternatives hne' hdiscrete'
  rwa [← hsame, map_ofLiteral_alternatives hne hdiscrete] at hmembers'

/-- A bar and a quote inside of a text, a boolean beside the integer that it counts for, and an
integer twice. -/
def quotedMembers : List Value := [.text "a' | 1", .bool true, .int 1, .int 1, .null]

/-- A text may hold a bar and a quote and is still one alternative, and members that are equal as
keys are told apart. -/
theorem enumeration_unambiguous_quoted :
    Symbol.read (textLiteral "a' | 1").toList = some [.text "a' | 1"] ∧
    ∃ (members : List Value) (text : String),
      (resolvedType none none (.primitive none none (some quotedMembers) "") 0).outcome
        = .ok text ∧
      (resolvedType (some []) (some "sizes") (.primitive (some "string") none
        (some (.text "a' | 1" :: members)) "The sizes.") 2).outcome = .ok text ∧
      quotedMembers = .text "a' | 1" :: members := by
  obtain ⟨members, text, hdiscrete, htext, htext'⟩ :
      ∃ (members : List Value) (text : String), (∀ v ∈ members, v.isDiscrete = true) ∧
        (resolvedType none none (.primitive none none (some quotedMembers) "") 0).outcome
          = .ok text ∧
        (resolvedType (some []) (some "sizes") (.primitive (some "string") none
          (some (.text "a' | 1" :: members)) "The sizes.") 2).outcome = .ok text :=
    ⟨[.bool true, .int 1, .int 1, .null], "'a\\' | 1' | true | 1 | 1 | null", by decide,
      by decide +kernel, by decide +kernel⟩
  exact ⟨(enumeration_unambiguous.1 "a' | 1").2.2.2, members, text, htext, htext',
    enumeration_unambiguous.2 none (some []) none (some "sizes") 0 2 none (some "string") none none
      quotedMembers _ "" "The sizes." text (by decide) (by simp) (by decide)
      (List.forall_mem_cons.mpr ⟨rfl, hdiscrete⟩) htext htext'⟩

end TypedClient
