import TypedClient.Name.Identifier
import TypedClient.Proofs.Name.Registry

/-!
# `TypedClient.Proofs.Name.Identifier`: the characters of identifiers

Whatever the text is that an identifier is made of, it holds nothing but letters, digits,
underscores and dollar signs, and perhaps the line feed of a text that was kept.

* `isNameChar_toIdentifier`, `isNameChar_toTypeIdentifier`: the characters of the identifiers made
  of a text.
* `isNameChar_free`: numbering a name adds no other character.
* `proper_toIdentifier_iff`, `proper_toTypeIdentifier_iff`: identifiers are proper ones, unless
  they are made of a text with such a line feed.
* `proper_free_iff`: handing out a name neither makes it an identifier nor spoils it.
* `toIdentifier_not_mem_reserved`, `free_not_mem_reserved`: no reserved word is handed out.
-/

set_option autoImplicit false

namespace TypedClient.Name

/-- A character that a name handed out may hold. -/
def isNameChar (c : Char) : Bool := isIdentifierChar c || c = '\n'

/-- Characters of identifiers are characters of names. -/
theorem isNameChar_of_isIdentifierChar {c : Char} (h : isIdentifierChar c = true) :
    isNameChar c = true := by
  simp [isNameChar, h]

/-- What an identifier may start with may also stand inside of it. Digits are what the converse
fails for. -/
theorem isIdentifierChar_of_isIdentifierStart {c : Char} (h : isIdentifierStart c = true) :
    isIdentifierChar c = true := by
  simp only [isIdentifierStart, Bool.or_eq_true] at h
  simp only [isIdentifierChar, Char.isAlphanum, Bool.or_eq_true]
  tauto

/-! ### Case -/

/-- Identifiers are written in ASCII: letters and digits of other scripts take no part in them. This
is what lets the facts about case below be checked character by character. -/
theorem toNat_lt_of_isIdentifierChar {c : Char} (h : isIdentifierChar c = true) :
    c.toNat < 128 := by
  have hkind : (((c.isUpper || c.isLower) || c.isDigit) || decide (c = '_') ||
      decide (c = '$')) = true := h
  simp only [Bool.or_eq_true, decide_eq_true_eq] at hkind
  rcases hkind with (((h | h) | h) | rfl) | rfl
  · have hle : c.val ≤ 'Z'.val := (of_decide_eq_true h).2
    exact Nat.lt_of_le_of_lt hle (by decide)
  · have hle : c.val ≤ 'z'.val := of_decide_eq_true (Bool.and_eq_true_iff.mp h).2
    exact Nat.lt_of_le_of_lt hle (by decide)
  · have hle : c.val ≤ '9'.val := of_decide_eq_true (Bool.and_eq_true_iff.mp h).2
    exact Nat.lt_of_le_of_lt hle (by decide)
  · decide
  · decide

/-- What holds of each character of ASCII holds of the characters of identifiers. There are few of
them, so it is checked one by one. -/
theorem of_ascii {p : Char → Prop} (hascii : ∀ n < 128, p (Char.ofNat n)) {c : Char}
    (h : isIdentifierChar c = true) : p c := by
  have hc := hascii c.toNat (toNat_lt_of_isIdentifierChar h)
  rwa [Char.ofNat_toNat] at hc

/-- A capital letter made of a character of identifiers is one itself. Outside of ASCII a capital
can be two characters, but no such letter gets here. -/
theorem isIdentifierChar_toUpper {c : Char} (h : isIdentifierChar c = true) :
    isIdentifierChar c.toUpper = true := by
  have hascii : ∀ n < 128, isIdentifierChar (Char.ofNat n) = true →
      isIdentifierChar (Char.ofNat n).toUpper = true := by
    decide +kernel
  exact of_ascii (p := fun c => isIdentifierChar c = true → isIdentifierChar c.toUpper = true)
    hascii h h

/-- The small letter of a character of identifiers is one as well. -/
theorem isIdentifierChar_toLower {c : Char} (h : isIdentifierChar c = true) :
    isIdentifierChar c.toLower = true := by
  have hascii : ∀ n < 128, isIdentifierChar (Char.ofNat n) = true →
      isIdentifierChar (Char.ofNat n).toLower = true := by
    decide +kernel
  exact of_ascii (p := fun c => isIdentifierChar c = true → isIdentifierChar c.toLower = true)
    hascii h h

/-- A word with its first character capitalized is made of the same kind of characters. -/
theorem isIdentifierChar_capitalizeChars {cs : List Char}
    (h : ∀ c ∈ cs, isIdentifierChar c = true) :
    ∀ c ∈ Text.capitalizeChars cs, isIdentifierChar c = true := by
  cases cs with
  | nil => exact h
  | cons d rest =>
    have hd := h d List.mem_cons_self
    simp only [Text.capitalizeChars, Text.upperChar, toNat_lt_of_isIdentifierChar hd, ↓reduceIte,
      List.singleton_append, List.forall_mem_cons]
    exact ⟨isIdentifierChar_toUpper hd, fun c hc => h c (List.mem_cons_of_mem _ hc)⟩

/-- A word of characters of identifiers is one still when its first character is made small. -/
theorem isIdentifierChar_uncapitalizeChars {cs : List Char}
    (h : ∀ c ∈ cs, isIdentifierChar c = true) :
    ∀ c ∈ uncapitalizeChars cs, isIdentifierChar c = true := by
  cases cs with
  | nil => exact h
  | cons d rest =>
    have hd := h d List.mem_cons_self
    simp only [uncapitalizeChars, Text.lowerChar, toNat_lt_of_isIdentifierChar hd, ↓reduceIte,
      List.singleton_append, List.forall_mem_cons]
    exact ⟨isIdentifierChar_toLower hd, fun c hc => h c (List.mem_cons_of_mem _ hc)⟩

/-! ### Words -/

/-- The words of a text are runs of characters of identifiers, the one that has been begun
included. -/
theorem isIdentifierChar_wordsFrom (cs : List Char) :
    ∀ {word : List Char}, (∀ c ∈ word, isIdentifierChar c = true) →
      ∀ w ∈ wordsFrom word cs, ∀ c ∈ w, isIdentifierChar c = true := by
  induction cs with
  | nil =>
    intro word hword w hw
    simp only [wordsFrom] at hw
    split at hw
    · cases hw
    · rw [List.mem_singleton.mp hw]
      simpa using hword
  | cons d rest ih =>
    intro word hword w hw
    simp only [wordsFrom] at hw
    split at hw
    · rename_i hd
      exact ih (List.forall_mem_cons.mpr ⟨hd, hword⟩) w hw
    · split at hw
      · exact ih (List.forall_mem_nil _) w hw
      · rcases List.mem_cons.mp hw with rfl | hw
        · simpa using hword
        · exact ih (List.forall_mem_nil _) w hw

/-- No word of a text holds another character than one of an identifier, whatever the text holds. -/
theorem isIdentifierChar_words (s : String) :
    ∀ w ∈ words s, ∀ c ∈ w, isIdentifierChar c = true :=
  isIdentifierChar_wordsFrom s.toList (List.forall_mem_nil _)

/-! ### Identifiers -/

/-- A text that passes for an identifier holds no other character than a line feed: the test looks
at all characters, but lets a last line feed pass. -/
theorem isNameChar_of_isIdentifier {s : String} (h : isIdentifier s = true) :
    ∀ c ∈ s.toList, isNameChar c = true := by
  unfold isIdentifier at h
  cases hs : s.toList with
  | nil => exact List.forall_mem_nil _
  | cons d rest =>
    rw [hs] at h
    simp only [isIdentifierChars, Bool.and_eq_true, Bool.or_eq_true, List.all_eq_true,
      decide_eq_true_eq] at h
    obtain ⟨hd, hrest⟩ := h
    have hstart : isNameChar d = true :=
      isNameChar_of_isIdentifierChar (isIdentifierChar_of_isIdentifierStart hd)
    refine List.forall_mem_cons.mpr ⟨hstart, fun c hc => ?_⟩
    -- Either nothing else comes after the first character, or a line feed comes last.
    rcases hrest with hall | ⟨hlast, hinit⟩
    · exact isNameChar_of_isIdentifierChar (hall c hc)
    · rw [← List.dropLast_append_getLast? '\n' hlast] at hc
      rcases List.mem_append.mp hc with hc | hc
      · exact isNameChar_of_isIdentifierChar (hinit c hc)
      · rw [List.mem_singleton.mp hc]
        decide

/-- A number is written in digits. -/
theorem isDigit_of_mem_toString {k : Nat} {d : Char} (h : d ∈ (toString k).toList) :
    d.isDigit = true := by
  rw [Nat.toString_eq_repr, Nat.toList_repr] at h
  exact Nat.isDigit_of_mem_toDigits (by decide) (by decide) h

/-- Numbering a name adds characters of identifiers only. -/
theorem isIdentifierChar_of_mem_toString {k : Nat} {d : Char} (h : d ∈ (toString k).toList) :
    isIdentifierChar d = true := by
  simp [isIdentifierChar, Char.isAlphanum, isDigit_of_mem_toString h]

/-- Numbering a name adds no other character than those a name may hold. -/
theorem isNameChar_free {r : Registry} {name : String}
    (h : ∀ c ∈ name.toList, isNameChar c = true) :
    ∀ c ∈ (r.free name).toList, isNameChar c = true := by
  rcases r.free_eq name with he | ⟨k, he⟩
  · rwa [he]
  · rw [he, Registry.numbered, String.toList_append]
    exact List.forall_mem_append.mpr ⟨h, fun c hc =>
      isNameChar_of_isIdentifierChar (isIdentifierChar_of_mem_toString hc)⟩

/-! ### Proper identifiers -/

/-- The characters are a start of an identifier and characters that may follow it. -/
def ProperChars (cs : List Char) : Prop :=
  ∃ c rest, cs = c :: rest ∧ isIdentifierStart c = true ∧ ∀ d ∈ rest, isIdentifierChar d = true

/-- The text is an identifier. -/
def Proper (s : String) : Prop := ProperChars s.toList

/-- The text passes for an identifier because of what stands before its final line feed. -/
def EndsLine (s : String) : Prop := isIdentifier s = true ∧ s.toList.getLast? = some '\n'

instance (s : String) : Decidable (EndsLine s) := inferInstanceAs (Decidable (_ ∧ _))

instance : DecidablePred ProperChars
  | [] => isFalse fun ⟨_, _, h, _⟩ => nomatch h
  | c :: rest =>
    decidable_of_iff (isIdentifierStart c = true ∧ rest.all isIdentifierChar = true)
      ⟨fun ⟨hc, hrest⟩ => ⟨c, rest, rfl, hc, List.all_eq_true.mp hrest⟩,
        fun ⟨_, _, heq, hc, hrest⟩ => by cases heq; exact ⟨hc, List.all_eq_true.mpr hrest⟩⟩

variable {cs : List Char} {s : String}

/-- An identifier stays one with characters of identifiers after it, be they digits. -/
theorem ProperChars.append {ds : List Char} (h : ProperChars cs)
    (hds : ∀ d ∈ ds, isIdentifierChar d = true) : ProperChars (cs ++ ds) := by
  obtain ⟨c, rest, rfl, hc, hrest⟩ := h
  exact ⟨c, rest ++ ds, rfl, hc, List.forall_mem_append.mpr ⟨hrest, hds⟩⟩

/-- A text that is an identifier stays one with characters of identifiers after it. -/
theorem Proper.append {t : String} (h : Proper s) (ht : ∀ d ∈ t.toList, isIdentifierChar d = true) :
    Proper (s ++ t) := by
  rw [Proper, String.toList_append]
  exact ProperChars.append h ht

/-- A text that passes for an identifier is one, or is one with a line feed after it. The condition
is needed: the test for identifiers lets a last line feed pass. -/
theorem proper_of_isIdentifier (h : isIdentifier s = true) (hs : ¬ EndsLine s) : Proper s := by
  unfold isIdentifier at h
  cases hchars : s.toList with
  | nil => simp [hchars, isIdentifierChars] at h
  | cons c rest =>
    have hlast : ¬ (c :: rest).getLast? = some '\n' := fun hlast =>
      hs ⟨h, hchars ▸ hlast⟩
    rw [hchars] at h
    simp only [isIdentifierChars, Bool.and_eq_true, Bool.or_eq_true, List.all_eq_true,
      decide_eq_true_eq] at h
    obtain ⟨hc, hall | ⟨hline, -⟩⟩ := h
    · exact ⟨c, rest, hchars, hc, hall⟩
    · exact absurd (by rw [List.getLast?_cons, hline]; rfl) hlast

/-- Words are not empty, as a run ends only where it has begun. -/
theorem ne_nil_of_mem_wordsFrom (cs : List Char) :
    ∀ {word : List Char}, ∀ w ∈ wordsFrom word cs, w ≠ [] := by
  induction cs with
  | nil =>
    intro word w hw
    simp only [wordsFrom] at hw
    split at hw
    · cases hw
    · rw [List.mem_singleton.mp hw]
      simp_all
  | cons d rest ih =>
    intro word w hw
    simp only [wordsFrom] at hw
    split at hw
    · exact ih w hw
    · split at hw
      · exact ih w hw
      · rcases List.mem_cons.mp hw with rfl | hw
        · simp_all
        · exact ih w hw

/-- Making the first character small leaves something. This would be clear for one character in
place of another, but in general case changes the number of characters. -/
theorem ne_nil_of_uncapitalizeChars (h : ∀ c ∈ cs, isIdentifierChar c = true) (hne : cs ≠ []) :
    uncapitalizeChars cs ≠ [] := by
  cases cs with
  | nil => exact absurd rfl hne
  | cons d rest =>
    simp [uncapitalizeChars, Text.lowerChar,
      toNat_lt_of_isIdentifierChar (h d List.mem_cons_self)]

/-- Making the first character large leaves something too. -/
theorem ne_nil_of_capitalizeChars (h : ∀ c ∈ cs, isIdentifierChar c = true) (hne : cs ≠ []) :
    Text.capitalizeChars cs ≠ [] := by
  cases cs with
  | nil => exact absurd rfl hne
  | cons d rest =>
    simp [Text.capitalizeChars, Text.upperChar,
      toNat_lt_of_isIdentifierChar (h d List.mem_cons_self)]

/-- Identifier characters make an identifier once a digit in front is guarded: a digit is the only
one of them that an identifier may not start with. -/
theorem properChars_guardDigit (h : ∀ c ∈ cs, isIdentifierChar c = true) (hne : cs ≠ []) :
    ProperChars (guardDigit cs) := by
  cases cs with
  | nil => exact absurd rfl hne
  | cons c rest =>
    obtain ⟨hc, hrest⟩ := List.forall_mem_cons.mp h
    unfold guardDigit
    split
    · exact ⟨'_', c :: rest, rfl, by decide, h⟩
    · rename_i hdigit
      refine ⟨c, rest, rfl, ?_, hrest⟩
      simp only [List.head?_cons, Option.any_some, Bool.not_eq_true] at hdigit
      simpa [isIdentifierChar, isIdentifierStart, Char.isAlphanum, hdigit] using hc

/-- The identifier made of a text is one, unless the text is kept with a line feed. Either the text
is kept, or it has no words and an underscore is made, or the words are put together and perhaps
guarded against a digit in front and against being a reserved word. -/
theorem proper_toIdentifier (hs : ¬ EndsLine s) : Proper (toIdentifier s) := by
  unfold toIdentifier
  split
  · rename_i h
    rw [Bool.and_eq_true] at h
    exact proper_of_isIdentifier h.1 hs
  · split
    · -- There are no words at all.
      exact ⟨'_', [], rfl, by decide, List.forall_mem_nil _⟩
    · rename_i first rest hwords
      have hword := isIdentifierChar_words s
      have hmem : first ∈ words s := by
        rw [hwords]
        exact List.mem_cons_self
      have hfirst : first ≠ [] := ne_nil_of_mem_wordsFrom s.toList first hmem
      rw [hwords, List.forall_mem_cons] at hword
      have hname : Proper (String.ofList
          (guardDigit (uncapitalizeChars first ++ rest.flatMap Text.capitalizeChars))) := by
        rw [Proper, String.toList_ofList]
        refine properChars_guardDigit (List.forall_mem_append.mpr
          ⟨isIdentifierChar_uncapitalizeChars hword.1, fun c hc => ?_⟩) ?_
        · obtain ⟨w, hw, hc⟩ := List.mem_flatMap.mp hc
          exact isIdentifierChar_capitalizeChars (hword.2 w hw) c hc
        · simp [ne_nil_of_uncapitalizeChars hword.1 hfirst]
      dsimp only
      split
      · -- A reserved word gets an underscore behind it.
        refine hname.append fun d hd => ?_
        rw [show d = '_' by simpa using hd]
        decide
      · exact hname

/-- A numbered identifier is one. -/
theorem proper_numbered (h : Proper s) (k : Nat) : Proper (Registry.numbered s k) :=
  h.append fun _ hd => isIdentifierChar_of_mem_toString hd

/-- The type identifier made of a text is one, with the same exception. It differs from the other
identifier in the case of its first word and in that reserved words are not looked for. -/
theorem proper_toTypeIdentifier (hs : ¬ EndsLine s) : Proper (toTypeIdentifier s) := by
  unfold toTypeIdentifier
  split
  · rename_i h
    exact proper_of_isIdentifier h hs
  · split
    · -- There are no words at all.
      exact ⟨'_', [], rfl, by decide, List.forall_mem_nil _⟩
    · rename_i hwords
      have hword := isIdentifierChar_words s
      obtain ⟨first, rest, hcons⟩ := List.exists_cons_of_ne_nil hwords
      have hfirst : first ≠ [] := ne_nil_of_mem_wordsFrom s.toList first (by
        rw [← words, hcons]
        exact List.mem_cons_self)
      have hcapital : Text.capitalizeChars first ≠ [] :=
        ne_nil_of_capitalizeChars (hword first (by simp [hcons])) hfirst
      rw [Proper, String.toList_ofList]
      refine properChars_guardDigit (fun c hc => ?_) (by simp [hcons, hcapital])
      obtain ⟨w, hw, hc⟩ := List.mem_flatMap.mp hc
      exact isIdentifierChar_capitalizeChars (hword w hw) c hc

/-! ### Which texts are made proper identifiers -/

/-- All characters of an identifier are characters of identifiers, the first one among them. -/
theorem ProperChars.isIdentifierChar (h : ProperChars cs) :
    ∀ c ∈ cs, isIdentifierChar c = true := by
  obtain ⟨c, rest, rfl, hc, hrest⟩ := h
  exact List.forall_mem_cons.mpr ⟨isIdentifierChar_of_isIdentifierStart hc, hrest⟩

/-- A text that is kept with its line feed holds one. -/
theorem EndsLine.mem (hs : EndsLine s) : '\n' ∈ s.toList := List.mem_of_getLast? hs.2

/-- Such a text is no identifier, as no line feed is a character of one. -/
theorem EndsLine.not_proper (hs : EndsLine s) : ¬ Proper s := fun h =>
  absurd (h.isIdentifierChar '\n' hs.mem) (by decide)

/-- The line feed is the last character, behind all others. -/
theorem EndsLine.dropLast_append (hs : EndsLine s) : s.toList.dropLast ++ ['\n'] = s.toList :=
  List.dropLast_append_getLast? '\n' hs.2

/-- What stands in front of the line feed is an identifier of its own, so such a text looks like
another name wherever a line feed ends one. -/
theorem EndsLine.properChars_dropLast (hs : EndsLine s) : ProperChars s.toList.dropLast := by
  have hident : isIdentifierChars s.toList = true := hs.1
  cases hchars : s.toList with
  | nil => simp [hchars, isIdentifierChars] at hident
  | cons c rest =>
    rw [hchars] at hident
    simp only [isIdentifierChars, Bool.and_eq_true, Bool.or_eq_true, List.all_eq_true,
      decide_eq_true_eq] at hident
    obtain ⟨hc, hall | ⟨hline, hinit⟩⟩ := hident
    · -- Without a line feed the text would be an identifier as it is.
      exact absurd ⟨c, rest, hchars, hc, hall⟩ hs.not_proper
    · have hne : rest ≠ [] := by
        rintro rfl
        cases hline
      exact ⟨c, rest.dropLast, List.dropLast_cons_of_ne_nil hne, hc, hinit⟩

/-- Reserved words are made of small letters, so any other character keeps a text apart from them.
That the capital that begins a part, a digit and an underscore do so is all that is needed below. -/
theorem not_mem_reserved_of_mem {c : Char} (hc : c ∈ s.toList) (h : c.isLower = false) :
    s ∉ reserved := by
  have hlower : (reserved.all fun w => w.toList.all Char.isLower) = true := by decide +kernel
  intro hs
  rw [List.all_eq_true.mp (List.all_eq_true.mp hlower s hs) c hc] at h
  cases h

/-- A text that passes for an identifier because of what stands before its line feed is kept as it
is. It is not taken for a reserved word, even if it is one but for the line feed. -/
theorem EndsLine.toIdentifier_eq (hs : EndsLine s) : toIdentifier s = s := by
  have hreserved : s ∉ reserved := not_mem_reserved_of_mem hs.mem (by decide)
  rw [toIdentifier, if_pos (by simp [hs.1, hreserved])]

/-- A text that passes for an identifier because of what stands before its line feed is kept as a
type identifier too. -/
theorem EndsLine.toTypeIdentifier_eq (hs : EndsLine s) : toTypeIdentifier s = s :=
  if_pos hs.1

/-- The identifier made of a text is one exactly if the text does not pass for one with a line feed.
So `proper_toIdentifier` asks for no more than it has to. -/
theorem proper_toIdentifier_iff : Proper (toIdentifier s) ↔ ¬ EndsLine s :=
  ⟨fun h hs => hs.not_proper (hs.toIdentifier_eq ▸ h), proper_toIdentifier⟩

/-- The type identifier made of a text is an identifier exactly if the text does not pass for one
with a line feed. -/
theorem proper_toTypeIdentifier_iff : Proper (toTypeIdentifier s) ↔ ¬ EndsLine s :=
  ⟨fun h hs => hs.not_proper (hs.toTypeIdentifier_eq ▸ h), proper_toTypeIdentifier⟩

/-- The identifier made of a text holds only characters of identifiers, and perhaps a line feed that
was kept. -/
theorem isNameChar_toIdentifier (s : String) :
    ∀ c ∈ (toIdentifier s).toList, isNameChar c = true := by
  by_cases hs : EndsLine s
  · rw [hs.toIdentifier_eq]
    exact isNameChar_of_isIdentifier hs.1
  · exact fun c hc =>
      isNameChar_of_isIdentifierChar ((proper_toIdentifier hs).isIdentifierChar c hc)

/-- The type identifier made of a text holds only characters of identifiers, and perhaps a line feed
that was kept. -/
theorem isNameChar_toTypeIdentifier (s : String) :
    ∀ c ∈ (toTypeIdentifier s).toList, isNameChar c = true := by
  by_cases hs : EndsLine s
  · rw [hs.toTypeIdentifier_eq]
    exact isNameChar_of_isIdentifier hs.1
  · exact fun c hc =>
      isNameChar_of_isIdentifierChar ((proper_toTypeIdentifier hs).isIdentifierChar c hc)

/-- The identifier made of a text is not empty, even for a text without words. -/
theorem toIdentifier_ne_empty (s : String) : toIdentifier s ≠ "" := by
  by_cases hs : EndsLine s
  · rw [hs.toIdentifier_eq]
    rintro rfl
    exact absurd hs (by decide)
  · intro hempty
    obtain ⟨c, rest, hchars, -⟩ := proper_toIdentifier hs
    simp [hempty] at hchars

/-- Two texts make an identifier exactly if the first is one and the second adds characters of
identifiers. The first one must not be empty, or the second would have to begin the identifier. -/
theorem proper_append_iff {t : String} (hs : s ≠ "") :
    Proper (s ++ t) ↔ Proper s ∧ ∀ d ∈ t.toList, isIdentifierChar d = true := by
  refine ⟨fun h => ?_, fun h => h.1.append h.2⟩
  obtain ⟨c, rest, hchars, hc, hrest⟩ := h
  rw [String.toList_append] at hchars
  obtain ⟨first, tail, htail⟩ := List.exists_cons_of_ne_nil (l := s.toList) (by simpa using hs)
  rw [htail, List.cons_append] at hchars
  obtain ⟨rfl, rfl⟩ := List.cons.inj hchars
  rw [List.forall_mem_append] at hrest
  exact ⟨⟨first, tail, htail, hc, hrest.1⟩, hrest.2⟩

/-- A digit neither starts an identifier nor stands in a reserved word, so a number at the end of a
name can neither make an identifier of it nor make it a reserved word. -/
theorem of_isDigit {d : Char} (h : d.isDigit = true) :
    isIdentifierStart d = false ∧ d.isLower = false := by
  have hascii : ∀ n < 128, (Char.ofNat n).isDigit = true →
      isIdentifierStart (Char.ofNat n) = false ∧ (Char.ofNat n).isLower = false := by
    decide +kernel
  have hd : isIdentifierChar d = true := by simp [isIdentifierChar, Char.isAlphanum, h]
  exact of_ascii (p := fun d => d.isDigit = true → isIdentifierStart d = false ∧ d.isLower = false)
    hascii hd h

/-- A number has a digit. -/
theorem exists_mem_toString (k : Nat) : ∃ d, d ∈ (toString k).toList := by
  rw [Nat.toString_eq_repr, Nat.toList_repr]
  exact List.exists_mem_of_ne_nil _ (Nat.toDigits_ne_nil)

/-- Numbering a name neither makes it an identifier nor spoils it. -/
theorem proper_numbered_iff (k : Nat) : Proper (Registry.numbered s k) ↔ Proper s := by
  refine ⟨fun h => ?_, fun h => proper_numbered h k⟩
  by_cases hs : s = ""
  · -- The number alone starts with a digit.
    obtain ⟨c, rest, hchars, hc, -⟩ := h
    rw [Registry.numbered, hs, String.empty_append] at hchars
    have hdigit := isDigit_of_mem_toString (k := k) (hchars ▸ List.mem_cons_self)
    rw [(of_isDigit hdigit).1] at hc
    cases hc
  · exact ((proper_append_iff hs).mp h).1

/-- The name handed out for a name is an identifier exactly if the name is one, whatever has been
handed out before. -/
theorem proper_free_iff (r : Registry) (s : String) : Proper (r.free s) ↔ Proper s := by
  rcases r.free_eq s with he | ⟨k, he⟩
  · rw [he]
  · rw [he, proper_numbered_iff]

/-! ### Reserved words -/

/-- The identifier made of a text is no reserved word: one that is kept was compared with them, and
one that is made and turns out to be reserved gets an underscore. -/
theorem toIdentifier_not_mem_reserved (s : String) : toIdentifier s ∉ reserved := by
  unfold toIdentifier
  split
  · rename_i h
    simp only [Bool.and_eq_true, Bool.not_eq_true', List.contains_eq_mem,
      decide_eq_false_iff_not] at h
    exact h.2
  · split
    · decide
    · dsimp only
      split
      · -- The underscore keeps the word apart from all reserved ones.
        exact not_mem_reserved_of_mem (c := '_') (by simp) (by decide)
      · rename_i h
        simpa using h

/-- No numbered name is a reserved word, whatever the name. -/
theorem numbered_not_mem_reserved (s : String) (k : Nat) : Registry.numbered s k ∉ reserved := by
  obtain ⟨d, hd⟩ := exists_mem_toString k
  refine not_mem_reserved_of_mem (c := d) ?_ (of_isDigit (isDigit_of_mem_toString hd)).2
  rw [Registry.numbered, String.toList_append]
  exact List.mem_append_right _ hd

/-- Handing out a name makes no reserved word of a name that is none. -/
theorem free_not_mem_reserved (r : Registry) (h : s ∉ reserved) : r.free s ∉ reserved := by
  rcases r.free_eq s with he | ⟨k, he⟩
  · rwa [he]
  · rw [he]
    exact numbered_not_mem_reserved s k

end TypedClient.Name
