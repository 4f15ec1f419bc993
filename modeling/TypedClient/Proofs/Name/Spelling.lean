import TypedClient.Proofs.Name.Method

/-!
# `TypedClient.Proofs.Name.Spelling`: which texts are made a given name

A registry changes a name by a number at its end, and an identifier is made of a text by case and
by leaving characters out. So a name that ends in no digit is handed out only where a text asks for
it, and it can be told from a given name which texts ask for it.

* `Registry.free_eq_iff`, `Registry.mem_handedOut_iff`: who gets a name that ends in no digit.
* `toTypeIdentifier_append`: what is put after a text stands at the end of its type identifier.
* `toTypeIdentifier_eq_iff`: the texts that a word is made of.
* `head?_toIdentifier`, `mem_uniqueNames_iff`: a route gets a name that begins as no HTTP method
  does only if the document gives it this name.
-/

set_option autoImplicit false

namespace TypedClient.Name

variable {s w : String} {r : Registry} {c : Char} {cs word : List Char}

/-! ### Numbers -/

/-- The name ends in a digit. -/
def endsInDigit (s : String) : Bool := s.toList.getLast?.any Char.isDigit

/-- A numbered name ends in a digit, so it is never one of the names that this module is about. -/
theorem endsInDigit_numbered (s : String) (k : Nat) :
    endsInDigit (Registry.numbered s k) = true := by
  obtain ⟨d, hd⟩ := exists_mem_toString k
  have hne : (toString k).toList ≠ [] := List.ne_nil_of_mem hd
  rw [endsInDigit, Registry.numbered, String.toList_append, List.getLast?_append,
    List.getLast?_eq_some_getLast hne]
  exact isDigit_of_mem_toString (List.getLast_mem hne)

/-- A name that ends in no digit is handed out to those who ask for it while it is free, and to
nobody else. -/
theorem Registry.free_eq_iff (hw : endsInDigit w = false) :
    r.free s = w ↔ s = w ∧ w ∉ r.taken := by
  constructor
  · rintro rfl
    rcases r.free_eq s with he | ⟨k, he⟩
    · exact ⟨he.symm, r.free_not_mem s⟩
    · rw [he, endsInDigit_numbered] at hw
      cases hw
  · rintro ⟨rfl, hs⟩
    exact Registry.free_of_not_mem hs

/-- A name that ends in no digit is handed out in a row of claims exactly if it is asked for in the
row. -/
theorem Registry.mem_handedOut_iff (hw : endsInDigit w = false) (names : List String) :
    ∀ r : Registry, w ∉ r.taken → (w ∈ r.handedOut names ↔ w ∈ names) := by
  induction names with
  | nil => exact fun _ _ => Iff.rfl
  | cons s rest ih =>
    intro r hr
    rw [Registry.handedOut_cons, Registry.claim_fst, List.mem_cons, List.mem_cons]
    by_cases hs : s = w
    · have hfree : r.free s = w := (Registry.free_eq_iff hw).mpr ⟨hs, hr⟩
      exact iff_of_true (.inl hfree.symm) (.inl hs.symm)
    · -- Another name was asked for, so this one is still free.
      have hfree : r.free s ≠ w := fun h => hs ((Registry.free_eq_iff hw).mp h).1
      have htaken : w ∉ (r.claim s).2.taken := by
        rw [Registry.claim, List.mem_cons, not_or]
        exact ⟨Ne.symm hfree, hr⟩
      rw [ih _ htaken, or_iff_right (Ne.symm hfree), or_iff_right (Ne.symm hs)]

/-- Names that are taken are not handed out. This needs no condition on the digits. -/
theorem Registry.not_mem_handedOut (names : List String) :
    ∀ r : Registry, w ∈ r.taken → w ∉ r.handedOut names := by
  induction names with
  | nil => exact fun _ _ => List.not_mem_nil
  | cons s rest ih =>
    intro r hr
    rw [Registry.handedOut_cons, Registry.claim_fst, List.mem_cons, not_or]
    exact ⟨fun h => r.free_not_mem s (h ▸ hr), ih _ (List.mem_cons_of_mem _ hr)⟩

/-! ### Words -/

/-- A text of characters of identifiers is one word. -/
theorem wordsFrom_of_all (h : ∀ c ∈ cs, isIdentifierChar c = true) (hne : word.reverse ++ cs ≠ []) :
    wordsFrom word cs = [word.reverse ++ cs] := by
  induction cs generalizing word with
  | nil => simpa [wordsFrom] using hne
  | cons c cs ih =>
    obtain ⟨hc, hcs⟩ := List.forall_mem_cons.mp h
    rw [wordsFrom, if_pos hc, ih hcs (by simp)]
    simp

/-- Characters of identifiers at the end of a text are the end of its last word. What comes in front
of them may belong to that word or not, so it is left open how much of the word is theirs. -/
theorem wordsFrom_append (h : ∀ c ∈ word, isIdentifierChar c = true) {ds : List Char}
    (hds : ∀ d ∈ ds, isIdentifierChar d = true) (hne : ds ≠ []) (cs : List Char) :
    ∃ ws u, wordsFrom word (cs ++ ds) = ws ++ [u ++ ds] ∧ ∀ c ∈ u, isIdentifierChar c = true := by
  induction cs generalizing word with
  | nil => exact ⟨[], word.reverse, by simp [wordsFrom_of_all hds, hne], by simpa using h⟩
  | cons c cs ih =>
    rw [List.cons_append, wordsFrom]
    -- The character belongs to the run at hand, or it ends one.
    split
    · rename_i hc
      exact ih (List.forall_mem_cons.mpr ⟨hc, h⟩)
    · obtain ⟨ws, u, hws, hu⟩ := ih (List.forall_mem_nil _)
      split
      · exact ⟨ws, u, hws, hu⟩
      · -- A run that ends here is a word of its own, in front of the others.
        exact ⟨word.reverse :: ws, u, by rw [hws, List.cons_append], hu⟩

/-- The first word of a text that begins with a character of a word begins with it. -/
theorem exists_wordsFrom (hne : word ≠ []) (cs : List Char) :
    ∃ u ws, wordsFrom word cs = (word.reverse ++ u) :: ws := by
  induction cs generalizing word with
  | nil => exact ⟨[], [], by simp [wordsFrom, hne]⟩
  | cons c cs ih =>
    rw [wordsFrom]
    split
    · obtain ⟨u, ws, hws⟩ := ih (List.cons_ne_nil c word)
      exact ⟨c :: u, ws, by simpa using hws⟩
    · rw [if_neg (by simpa using hne)]
      exact ⟨[], wordsFrom [] cs, by simp⟩

/-- A word is capitalized by its first character alone, as characters of identifiers have one
capital. -/
theorem capitalizeChars_cons (h : isIdentifierChar c = true) :
    Text.capitalizeChars (c :: cs) = c.toUpper :: cs := by
  simp [Text.capitalizeChars, Text.upperChar, toNat_lt_of_isIdentifierChar h]

/-- A capitalized character of an identifier is no small letter. Digits and marks are not small
letters to begin with. -/
theorem isLower_toUpper (h : isIdentifierChar c = true) : c.toUpper.isLower = false := by
  have hascii : ∀ n < 128, isIdentifierChar (Char.ofNat n) = true →
      (Char.ofNat n).toUpper.isLower = false := by
    decide +kernel
  exact of_ascii (p := fun c => isIdentifierChar c = true → c.toUpper.isLower = false) hascii h h

/-- Guarding against a digit puts something in front and changes nothing at the end. -/
theorem suffix_guardDigit (cs : List Char) : cs <:+ guardDigit cs := by
  unfold guardDigit
  split
  · exact List.suffix_cons '_' cs
  · exact List.suffix_refl cs

/-- A capitalised word after a text stands at the end of the type identifier, whatever the text is.
Records are named like this, after their endpoint and what they are of. -/
theorem toTypeIdentifier_append (t : String) (hw : ∀ c ∈ w.toList, isIdentifierChar c = true)
    (hcapital : Text.capitalizeChars w.toList = w.toList) (hne : w ≠ "") :
    w.toList <:+ (toTypeIdentifier (t ++ w)).toList := by
  unfold toTypeIdentifier
  split
  · simp
  · obtain ⟨ws, u, hws, hu⟩ := wordsFrom_append (List.forall_mem_nil _) hw (by simpa using hne)
      t.toList
    have hwords : words (t ++ w) = ws ++ [u ++ w.toList] := by
      rw [words, String.toList_append, hws]
    have hlast : w.toList <:+ Text.capitalizeChars (u ++ w.toList) := by
      -- If the word has nothing in front of it, it is capitalized already.
      cases u with
      | nil => simp [hcapital]
      | cons c u =>
        rw [List.cons_append, capitalizeChars_cons (hu c List.mem_cons_self), ← List.cons_append]
        exact List.suffix_append _ _
    split
    · rename_i hnone
      simp [hwords] at hnone
    · rw [hwords, String.toList_ofList, List.flatMap_append, List.flatMap_singleton]
      exact (hlast.trans (List.suffix_append _ _)).trans (suffix_guardDigit _)

/-! ### Texts that are made a word -/

/-- A letter and then small letters. -/
def isWord (s : String) : Bool :=
  match s.toList with
  | [] => false
  | c :: rest => c.isAlpha && rest.all Char.isLower

/-- The text is the word, or it is no identifier and holds the word alone, perhaps with a small
letter in front. -/
def Spells (s w : String) : Prop :=
  s = w ∨ isIdentifier s = false ∧ ∃ word, words s = [word] ∧ Text.capitalizeChars word = w.toList

/-- Small letters are letters. -/
theorem isAlpha_of_isLower (hc : c.isLower = true) : c.isAlpha = true := by
  show (c.isUpper || c.isLower) = true
  rw [hc, Bool.or_true]

/-- A word is a letter and small letters after it. -/
theorem isWord_cases (hw : isWord w = true) : ∃ c rest, w.toList = c :: rest ∧ c.isAlpha = true ∧
    ∀ d ∈ rest, d.isLower = true := by
  unfold isWord at hw
  cases hchars : w.toList with
  | nil => simp [hchars] at hw
  | cons c rest =>
    rw [hchars] at hw
    simp only [Bool.and_eq_true, List.all_eq_true] at hw
    exact ⟨c, rest, rfl, hw.1, hw.2⟩

/-- A word is an identifier. -/
theorem isIdentifier_of_isWord (hw : isWord w = true) : isIdentifier w = true := by
  obtain ⟨c, rest, hchars, hc, hrest⟩ := isWord_cases hw
  have hall : rest.all isIdentifierChar = true := List.all_eq_true.mpr fun d hd => by
    simp [isIdentifierChar, Char.isAlphanum, isAlpha_of_isLower (hrest d hd)]
  simp [isIdentifier, hchars, isIdentifierChars, isIdentifierStart, hc, hall]

/-- No letter is a digit. -/
theorem not_isDigit_of_isAlpha (hc : c.isAlpha = true) : c.isDigit = false := by
  cases hd : c.isDigit with
  | false => rfl
  | true =>
    have hstart : isIdentifierStart c = true := by simp [isIdentifierStart, hc]
    rw [(of_isDigit hd).1] at hstart
    cases hstart

/-- A word ends in no digit, so the facts about such names hold of it. -/
theorem endsInDigit_of_isWord (hw : isWord w = true) : endsInDigit w = false := by
  obtain ⟨c, rest, hchars, hc, hrest⟩ := isWord_cases hw
  have hall : ∀ d ∈ w.toList, d.isDigit = false := by
    rw [hchars, List.forall_mem_cons]
    exact ⟨not_isDigit_of_isAlpha hc, fun d hd =>
      not_isDigit_of_isAlpha (isAlpha_of_isLower (hrest d hd))⟩
  unfold endsInDigit
  cases hlast : w.toList.getLast? with
  | none => rfl
  | some d => exact hall d (List.mem_of_getLast? hlast)

/-- Guarding against a digit makes a word only of the word itself: a guarded text begins with an
underscore. -/
theorem guardDigit_eq_iff (hw : isWord w = true) : guardDigit cs = w.toList ↔ cs = w.toList := by
  obtain ⟨c, rest, hchars, hc, -⟩ := isWord_cases hw
  unfold guardDigit
  rw [hchars]
  split
  · rename_i hdigit
    constructor
    · rintro ⟨⟩
      exact absurd hc (by decide)
    · rintro rfl
      simp [not_isDigit_of_isAlpha hc] at hdigit
  · rfl

/-- Only one word is made a word, since a second one would begin with no small letter, and small
letters are what a word has behind its first one. -/
theorem flatMap_capitalizeChars_eq_iff (hw : isWord w = true) {ws : List (List Char)}
    (hws : ∀ u ∈ ws, u ≠ [] ∧ ∀ c ∈ u, isIdentifierChar c = true) :
    ws.flatMap Text.capitalizeChars = w.toList ↔
      ∃ word, ws = [word] ∧ Text.capitalizeChars word = w.toList := by
  obtain ⟨c, rest, hchars, -, hrest⟩ := isWord_cases hw
  constructor
  · intro h
    cases ws with
    | nil => simp [hchars] at h
    | cons first ws =>
      cases ws with
      | nil => exact ⟨first, rfl, by simpa using h⟩
      | cons second ws =>
        obtain ⟨hfirst, hsecond, -⟩ : _ ∧ _ ∧ _ := by simpa only [List.forall_mem_cons] using hws
        obtain ⟨d, first, rfl⟩ := List.exists_cons_of_ne_nil hfirst.1
        obtain ⟨e, second, rfl⟩ := List.exists_cons_of_ne_nil hsecond.1
        have hd := hfirst.2 d List.mem_cons_self
        have he := hsecond.2 e List.mem_cons_self
        rw [List.flatMap_cons, List.flatMap_cons, capitalizeChars_cons hd, capitalizeChars_cons he,
          hchars, List.cons_append] at h
        -- The second word's first letter would be a small letter of the word.
        have hmem : e.toUpper ∈ rest := by
          rw [← (List.cons.inj h).2]
          simp
        have hlower := hrest _ hmem
        rw [isLower_toUpper he] at hlower
        cases hlower
  · rintro ⟨word, rfl, hword⟩
    simpa using hword

/-- The type identifier of a text is a word exactly if the text spells it. So it can be told from
the names in a document whether some name of TypeScript is declared anew. -/
theorem toTypeIdentifier_eq_iff (hw : isWord w = true) : toTypeIdentifier s = w ↔ Spells s w := by
  unfold toTypeIdentifier Spells
  cases hs : isIdentifier s with
  | true => simp
  | false =>
    have hne : s ≠ w := by
      rintro rfl
      rw [isIdentifier_of_isWord hw] at hs
      cases hs
    have hwords : ∀ u ∈ words s, u ≠ [] ∧ ∀ c ∈ u, isIdentifierChar c = true :=
      fun u hu => ⟨ne_nil_of_mem_wordsFrom s.toList u hu, isIdentifierChar_words s u hu⟩
    rw [or_iff_right hne, if_neg Bool.false_ne_true, and_iff_right rfl]
    split
    · rename_i hnone
      refine iff_of_false (fun h => ?_) (by simp [hnone])
      rw [← h] at hw
      exact absurd hw (by decide)
    · rw [← flatMap_capitalizeChars_eq_iff hw hwords, ← guardDigit_eq_iff hw, ← String.toList_inj,
        String.toList_ofList]

/-! ### Methods -/

/-- What is put after a text that is not empty leaves its first character alone. -/
theorem head?_append {t : String} (h : s ≠ "") : (s ++ t).toList.head? = s.toList.head? := by
  obtain ⟨c, rest, hchars⟩ := List.exists_cons_of_ne_nil (l := s.toList) (by simpa using h)
  simp [hchars]

/-- A small letter in front of a text stands in front of its identifier. It begins the first word,
and neither case nor the guards against digits and reserved words touch it. -/
theorem head?_toIdentifier (hs : s.toList.head? = some c) (hc : c.isLower = true) :
    (toIdentifier s).toList.head? = some c := by
  have halpha := isAlpha_of_isLower hc
  have hchar : isIdentifierChar c = true := by simp [isIdentifierChar, Char.isAlphanum, halpha]
  obtain ⟨rest, hchars⟩ : ∃ rest, s.toList = c :: rest := List.head?_eq_some_iff.mp hs
  have hwords : ∃ u ws, words s = (c :: u) :: ws := by
    rw [words, hchars, wordsFrom, if_pos hchar]
    simpa using exists_wordsFrom (List.cons_ne_nil c []) rest
  have hlower : c.toLower = c := by
    have hascii : ∀ n < 128, (Char.ofNat n).isLower = true →
        (Char.ofNat n).toLower = Char.ofNat n := by
      decide +kernel
    exact of_ascii (p := fun c => c.isLower = true → c.toLower = c) hascii hchar hc
  obtain ⟨u, ws, hws⟩ := hwords
  have hname : (guardDigit (uncapitalizeChars (c :: u) ++ ws.flatMap Text.capitalizeChars)).head?
      = some c := by
    simp [guardDigit, uncapitalizeChars, Text.lowerChar, toNat_lt_of_isIdentifierChar hchar, hlower,
      not_isDigit_of_isAlpha halpha]
  unfold toIdentifier
  split
  · -- The text is kept.
    exact hs
  · rw [hws]
    dsimp only
    split
    · rw [head?_append, String.toList_ofList, hname]
      intro hempty
      rw [← String.toList_inj, String.toList_ofList] at hempty
      rw [hempty] at hname
      cases hname
    · rw [String.toList_ofList, hname]

/-- What a route puts in begins as the name that it has by itself, and so does its name: parameters
and numbers are added at the end. -/
theorem head?_name (taken : Registry) (r : Route) :
    (taken.free (candidate taken r)).toList.head? = (baseName r).toList.head? := by
  have hne : baseName r ≠ "" := toIdentifier_ne_empty _
  have hcandidate : ∃ t, candidate taken r = baseName r ++ t := by
    unfold candidate
    dsimp only
    split
    · exact ⟨_, rfl⟩
    · exact ⟨"", by simp [baseName]⟩
  obtain ⟨t, ht⟩ := hcandidate
  have hlong : baseName r ++ t ≠ "" := by simp [hne]
  rcases taken.free_eq (candidate taken r) with he | ⟨k, he⟩
  · rw [he, ht, head?_append hne]
  · rw [he, Registry.numbered, ht, head?_append hlong, head?_append hne]

/-- A name that the document gives is taken as it is, if it is not empty. -/
theorem methodName_of_id {r : Route} {id : String} (hid : r.operationId = some id) (hne : id ≠ "") :
    methodName r = id := by
  simp [methodName, hid]

/-- The document names a route exactly if it gives it a name that is not empty. -/
theorem isNamed_iff {r : Route} :
    isNamed r = true ↔ ∃ id, r.operationId = some id ∧ id ≠ "" ∧ methodName r = id := by
  constructor
  · intro h
    obtain ⟨id, hid, hne⟩ := (by simpa [isNamed, Option.any_eq_true] using h :
      ∃ id, r.operationId = some id ∧ id ≠ "")
    exact ⟨id, hid, hne, methodName_of_id hid hne⟩
  · rintro ⟨id, hid, hne, -⟩
    simp [isNamed, hid, hne]

/-- An operation that the document gives no name is named after its method and path, so its name
begins as its method does. -/
theorem methodName_of_not_isNamed {r : Route} (h : isNamed r = false) :
    methodName r = Text.lower r.method ++ typeName r.path := by
  cases hid : r.operationId with
  | none => simp [methodName, hid]
  | some id =>
    have hempty : id = "" := by simpa [isNamed, hid] using h
    simp [methodName, hid, hempty]

/-- A route that the document names puts in that name, taken or not. -/
theorem candidate_of_isNamed (taken : Registry) {r : Route} (h : isNamed r = true) :
    candidate taken r = baseName r := by
  simp [candidate, h, baseName]

/-- A name that begins as no route's own does is the name of a method only where the document gives
an operation this name. Such are the names of the class's members, none of which begins like an HTTP
method. -/
theorem mem_uniqueNames_iff (hw : endsInDigit w = false) {routes : List Route}
    (hhead : ∀ r ∈ routes, isNamed r = false → (baseName r).toList.head? ≠ w.toList.head?) :
    w ∈ uniqueNames routes ↔ ∃ r ∈ routes, isNamed r = true ∧ baseName r = w := by
  suffices h : ∀ taken : Registry, w ∉ taken.taken →
      (w ∈ (choicesFrom taken routes).map Choice.given ↔
        ∃ r ∈ routes, isNamed r = true ∧ baseName r = w) from h ⟨[]⟩ List.not_mem_nil
  induction routes with
  | nil => simp [choicesFrom]
  | cons r rest ih =>
    intro taken htaken
    obtain ⟨hr, hrest⟩ := List.forall_mem_cons.mp hhead
    rw [choicesFrom_cons, List.map_cons, List.mem_cons]
    -- The first route is given the name, or it is not and the name is free for the others.
    by_cases hgiven : taken.free (candidate taken r) = w
    · refine iff_of_true (.inl hgiven.symm) ⟨r, List.mem_cons_self, ?_⟩
      cases hnamed : isNamed r with
      | false => exact absurd (by rw [← head?_name taken r, hgiven]) (hr hnamed)
      | true =>
        rw [candidate_of_isNamed taken hnamed] at hgiven
        exact ⟨rfl, ((Registry.free_eq_iff hw).mp hgiven).1⟩
    · have hnext : w ∉ (taken.claim (candidate taken r)).2.taken := by
        rw [Registry.claim, List.mem_cons, not_or]
        exact ⟨Ne.symm hgiven, htaken⟩
      rw [ih hrest _ hnext, or_iff_right (Ne.symm hgiven), List.exists_mem_cons_iff]
      refine (or_iff_right ?_).symm
      -- A route that the document names so would have been given the name.
      rintro ⟨hnamed, hbase⟩
      rw [candidate_of_isNamed taken hnamed] at hgiven
      exact hgiven ((Registry.free_eq_iff hw).mpr ⟨hbase, htaken⟩)

end TypedClient.Name
