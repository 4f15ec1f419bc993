import TypedClient.Text.CaseTable
import TypedClient.Text.CharSet

/-!
# `TypedClient.Text.Case`: upper and lower case

Full case mappings: a character may become several (`ß` is `SS` in upper case), and a
capital sigma at the end of a word becomes `ς`. ASCII letters are handled apart from the
tables, so the mappings of ASCII text need no table to reason about.

* `upper`, `lower`: the mapping of a whole text.
* `capitalize`: the first character in upper case, the rest as it is.
-/

set_option autoImplicit false

namespace TypedClient.Text

/-- The image of a code point under the runs of a table, if a run holds it. -/
def CaseRun.map? (runs : List CaseRun) (code : Nat) : Option Nat :=
  (runs.find? fun r =>
    r.first ≤ code && code ≤ r.last && (code - r.first) % r.step == 0).map
      fun r => ((code : Int) + r.distance).toNat

/-- The upper case of one character. -/
def upperChar (c : Char) : List Char :=
  if c.toNat < 128 then [c.toUpper]
  else match CaseTable.upperExpansions.lookup c.toNat with
    | some codes => codes.map Char.ofNat
    | none => [((CaseRun.map? CaseTable.upperRuns c.toNat).map Char.ofNat).getD c]

/-- The lower case of one character that is not a capital sigma. -/
def lowerChar (c : Char) : List Char :=
  if c.toNat < 128 then [c.toLower]
  else if c = 'İ' then ['i', '\u0307']
  else [((CaseRun.map? CaseTable.lowerRuns c.toNat).map Char.ofNat).getD c]

/-- The nearest character that counts for a sigma, ignorable ones skipped, has case. -/
def nearestIsCased (cs : List Char) : Bool :=
  ((cs.dropWhile fun c => inRanges CaseTable.caseIgnorable c.toNat).head?).any
    fun c => inRanges CaseTable.cased c.toNat

/-- The lower case of the text after `before`, which is held in reverse. A capital sigma
is final when a cased letter stands before it and none after it. -/
def lowerFrom (before : List Char) : List Char → List Char
  | [] => []
  | c :: rest =>
    let image :=
      if c = 'Σ' then
        [if nearestIsCased before && !nearestIsCased rest then 'ς' else 'σ']
      else lowerChar c
    image ++ lowerFrom (c :: before) rest

/-- The text in upper case. -/
def upper (s : String) : String :=
  String.ofList (s.toList.flatMap upperChar)

/-- The text in lower case. -/
def lower (s : String) : String :=
  String.ofList (lowerFrom [] s.toList)

/-- The characters with the first one in upper case. -/
def capitalizeChars : List Char → List Char
  | [] => []
  | c :: rest => upperChar c ++ rest

/-- The text with its first character in upper case. -/
def capitalize (s : String) : String :=
  String.ofList (capitalizeChars s.toList)

end TypedClient.Text
