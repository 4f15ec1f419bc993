import TypedClient.Path
import TypedClient.Text.Lead

/-!
# `TypedClient.Proofs.Path`: texts cut at slashes

A text is cut at every slash, so no part of it holds one, and parts that hold none are what
the text made of them is cut into.

* `not_mem_of_mem_splitSlashes`: no part holds a slash.
* `splitSlashes_intercalate`, `intercalate_splitSlashes`: the parts that a text is made of.
* `Path.not_mem_name`, `Path.not_mem_stem`: neither does the last name of a path hold one, nor
  what is left of it without its suffix.
-/

set_option autoImplicit false

namespace TypedClient

variable {sep : Char} {cs rest part : List Char} {s t : String}

/-- A text without the separator is one part. -/
theorem splitOnChar_of_not_mem (h : sep ∉ cs) : splitOnChar sep cs = [cs] := by
  induction cs with
  | nil => rfl
  | cons c cs ih =>
    rw [List.mem_cons, not_or] at h
    rw [splitOnChar, if_neg (Ne.symm h.1), ih h.2]

/-- There is always a part: the empty text has one, which is empty. -/
theorem splitOnChar_ne_nil (sep : Char) (cs : List Char) : splitOnChar sep cs ≠ [] := by
  fun_cases splitOnChar sep cs <;> exact List.cons_ne_nil _ _

/-- A separator cuts a text wherever it stands, so what is on its two sides is cut on its own. This
is the only fact about the cutting of characters that what is said of texts with slashes needs. -/
theorem splitOnChar_append_cons (sep : Char) (cs rest : List Char) :
    splitOnChar sep (cs ++ sep :: rest) = splitOnChar sep cs ++ splitOnChar sep rest := by
  induction cs with
  | nil => simp [splitOnChar]
  | cons c cs ih =>
    obtain ⟨part, parts, hparts⟩ := List.exists_cons_of_ne_nil (splitOnChar_ne_nil sep cs)
    rw [hparts] at ih
    rw [List.cons_append, splitOnChar, splitOnChar, ih, hparts]
    split <;> rfl

/-- No part holds the separator. -/
theorem not_mem_of_mem_splitOnChar (h : part ∈ splitOnChar sep cs) : sep ∉ part := by
  induction cs generalizing part with
  | nil =>
    rw [List.mem_singleton.mp h]
    exact List.not_mem_nil
  | cons c cs ih =>
    rw [splitOnChar] at h
    split at h
    · rcases List.mem_cons.mp h with rfl | h
      · exact List.not_mem_nil
      · exact ih h
    · rename_i hc
      -- The character goes in front of the first part of what comes after it.
      have hcons : ∀ p : List Char, sep ∉ p → sep ∉ c :: p := fun p hp hmem =>
        (List.mem_cons.mp hmem).elim (fun he => hc he.symm) hp
      split at h
      · rw [List.mem_singleton.mp h]
        exact hcons [] List.not_mem_nil
      · rename_i first parts hparts
        rw [hparts] at ih
        rcases List.mem_cons.mp h with rfl | h
        · exact hcons first (ih List.mem_cons_self)
        · exact ih (List.mem_cons_of_mem _ h)

/-- No part of a text that is cut at slashes holds one. -/
theorem not_mem_of_mem_splitSlashes (h : s ∈ splitSlashes t) : '/' ∉ s.toList := by
  obtain ⟨part, hpart, rfl⟩ := List.mem_map.mp h
  rw [String.toList_ofList]
  exact not_mem_of_mem_splitOnChar hpart

/-- A text without a slash is its own part. -/
theorem splitSlashes_of_not_mem (h : '/' ∉ s.toList) : splitSlashes s = [s] := by
  rw [splitSlashes, splitOnChar_of_not_mem h, List.map_singleton, String.ofList_toList]

/-- A slash between two texts cuts them apart, whatever slashes they hold themselves. -/
theorem splitSlashes_append_slash (s t : String) :
    splitSlashes (s ++ "/" ++ t) = splitSlashes s ++ splitSlashes t := by
  have hchars : (s ++ "/" ++ t).toList = s.toList ++ '/' :: t.toList := by simp
  rw [splitSlashes, hchars, splitOnChar_append_cons, List.map_append]
  rfl

/-- What comes in front of the first slash is the first part. -/
theorem splitSlashes_append (h : '/' ∉ s.toList) :
    splitSlashes (s ++ "/" ++ t) = s :: splitSlashes t := by
  rw [splitSlashes_append_slash, splitSlashes_of_not_mem h, List.singleton_append]

/-- Parts without slashes are what the text made of them is cut into. There has to be one, for the
empty text has one part. With `intercalate_splitSlashes` this makes texts and lists of such parts
the same thing. -/
theorem splitSlashes_intercalate {parts : List String} (hne : parts ≠ [])
    (h : ∀ s ∈ parts, '/' ∉ s.toList) : splitSlashes ("/".intercalate parts) = parts := by
  -- A single part needs no separator, so the induction has a case of its own for it.
  induction parts with
  | nil => exact absurd rfl hne
  | cons s parts ih =>
    obtain ⟨hs, hparts⟩ := List.forall_mem_cons.mp h
    cases parts with
    | nil => rw [String.intercalate_singleton, splitSlashes_of_not_mem hs]
    | cons t parts =>
      rw [String.intercalate_cons_cons, splitSlashes_append hs, ih (List.cons_ne_nil _ _) hparts]

/-- The parts that a text is cut into make the text. This holds of all texts, those with slashes at
their ends or next to each other included, because empty parts are kept. -/
theorem intercalate_splitSlashes (s : String) : "/".intercalate (splitSlashes s) = s := by
  suffices ∀ cs : List Char,
      "/".intercalate ((splitOnChar '/' cs).map String.ofList) = String.ofList cs by
    rw [splitSlashes, this, String.ofList_toList]
  intro cs
  induction cs with
  | nil => rfl
  | cons c rest ih =>
    obtain ⟨part, parts, hparts⟩ := List.exists_cons_of_ne_nil (splitOnChar_ne_nil '/' rest)
    rw [hparts, List.map_cons] at ih
    rw [splitOnChar, hparts]
    split
    · rename_i hc
      rw [List.map_cons, List.map_cons, String.intercalate_cons_cons, ih, hc]
      simp
    · -- The character goes in front of the first part, and so of the text.
      have hcons : ∀ cs : List Char,
          String.ofList (c :: cs) = String.ofList [c] ++ String.ofList cs := fun cs => by simp
      rw [hcons rest, ← ih]
      dsimp only
      rw [List.map_cons, hcons part]
      cases parts with
      | nil => simp
      | cons next parts => simp [String.intercalate_cons_cons, String.append_assoc]

/-- A text has a part, be it empty. -/
theorem splitSlashes_ne_nil (s : String) : splitSlashes s ≠ [] := by
  rw [splitSlashes, ne_eq, List.map_eq_nil_iff]
  exact splitOnChar_ne_nil _ _

/-- A text leads to another one with a slash after it exactly if it has the first parts of the
other one, but not all of them. -/
theorem hasLead_slash_iff : Text.hasLead (s ++ "/") t = true ↔
    ∃ more, more ≠ [] ∧ splitSlashes t = splitSlashes s ++ more := by
  rw [Text.hasLead_iff]
  constructor
  · rintro ⟨rest, rfl⟩
    exact ⟨splitSlashes rest, splitSlashes_ne_nil rest, splitSlashes_append_slash s rest⟩
  · rintro ⟨more, hmore, hparts⟩
    refine ⟨"/".intercalate more, ?_⟩
    rw [← intercalate_splitSlashes t, hparts,
      String.intercalate_append_of_ne_nil (splitSlashes_ne_nil s) hmore, intercalate_splitSlashes,
      String.append_assoc]

/-- What is added to the last part is added to the text. So a suffix changes the last name of a path
and no other, which is how the files beside a target are named. -/
theorem intercalate_concat_append (sep n s : String) (names : List String) :
    sep.intercalate (names ++ [n ++ s]) = sep.intercalate (names ++ [n]) ++ s := by
  by_cases hnil : names = []
  · simp [hnil]
  · rw [String.intercalate_append_of_ne_nil hnil (by simp),
      String.intercalate_append_of_ne_nil hnil (by simp), String.intercalate_singleton,
      String.intercalate_singleton, String.append_assoc, String.append_assoc, String.append_assoc]

namespace Path

/-- No name that stands for itself is left out of a path: only empty names and single dots are. That
two dots are no such name either is not needed here, but it is what is known of names elsewhere. -/
theorem filter_isName {names : List String} (h : ∀ s ∈ names, s ≠ "" ∧ s ≠ "." ∧ s ≠ "..") :
    names.filter isName = names :=
  List.filter_eq_self.mpr fun s hs => by
    obtain ⟨hempty, hdot, -⟩ := h s hs
    simp [isName, hempty, hdot]

/-- The last name of a path holds no slash, since it is one of the parts that the path is cut
into. -/
theorem not_mem_name (s : String) : '/' ∉ (ofString s).name.toList := by
  unfold name
  cases hlast : (ofString s).names.getLast? with
  | none => exact List.not_mem_nil
  | some n =>
    exact not_mem_of_mem_splitSlashes (List.mem_filter.mp (List.mem_of_getLast? hlast)).1

/-- What is left of a name without its suffix is the beginning of the name. -/
theorem isPrefix_splitSuffix (name : List Char) : (splitSuffix name).1 <+: name := by
  unfold splitSuffix
  dsimp only
  split
  · exact List.take_prefix _ _
  · exact List.prefix_rfl

/-- Only a name with something in front of its last dot has a suffix. A name that is nothing but a
dot and what follows it, like that of a hidden file, has none. -/
theorem splitSuffix_snd_eq_nil {name : List Char} (h : (splitSuffix name).1 = []) :
    (splitSuffix name).2 = [] := by
  unfold splitSuffix at h ⊢
  dsimp only at h ⊢
  split at h
  · rename_i hdot
    simp only [Bool.and_eq_true, decide_eq_true_eq] at hdot
    -- A suffix is cut off behind at least one character, so nothing would be left to be empty.
    have hlen := congrArg List.length h
    rw [List.length_take, List.length_nil] at hlen
    omega
  · rename_i hdot
    rw [if_neg hdot]

/-- What is left of the last name of a path without its suffix holds no slash either. -/
theorem not_mem_stem (s : String) : '/' ∉ (ofString s).stem.toList := by
  rw [stem, String.toList_ofList]
  exact fun h => not_mem_name s ((isPrefix_splitSuffix _).subset h)

end Path

end TypedClient
