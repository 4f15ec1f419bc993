/-!
# `TypedClient.Text.Lead`: how a text starts

* `hasLead_iff`: a text has a lead exactly if it is the lead followed by something.
* `afterLead?_eq_some_iff`: cutting off a lead is the inverse of putting it in front.
-/

set_option autoImplicit false

namespace TypedClient.Text

/-- The text starts with another one. -/
def hasLead (lead s : String) : Bool := lead.toList.isPrefixOf s.toList

/-- The rest of a text after another one that it starts with. -/
def afterLead? (lead s : String) : Option String :=
  if hasLead lead s then some (String.ofList (s.toList.drop lead.length)) else none

theorem hasLead_iff {lead s : String} : hasLead lead s = true ↔ ∃ rest, s = lead ++ rest := by
  rw [hasLead, List.isPrefixOf_iff_prefix]
  constructor
  · rintro ⟨cs, h⟩
    exact ⟨String.ofList cs, String.toList_injective (by simp [← h])⟩
  · rintro ⟨rest, rfl⟩
    exact ⟨rest.toList, by simp⟩

theorem hasLead_of_append {lead more s : String} (h : hasLead (lead ++ more) s = true) :
    hasLead lead s = true := by
  obtain ⟨rest, rfl⟩ := hasLead_iff.mp h
  exact hasLead_iff.mpr ⟨more ++ rest, String.append_assoc⟩

/-- Of two leads of a text one leads the other. -/
theorem hasLead_or_hasLead {a b s : String} (ha : hasLead a s = true) (hb : hasLead b s = true) :
    hasLead a b = true ∨ hasLead b a = true := by
  simp only [hasLead, List.isPrefixOf_iff_prefix] at ha hb ⊢
  exact List.prefix_or_prefix_of_prefix ha hb

theorem afterLead?_eq_some_iff {lead s rest : String} :
    afterLead? lead s = some rest ↔ s = lead ++ rest := by
  constructor
  · intro h
    by_cases hs : hasLead lead s = true
    · obtain ⟨tail, rfl⟩ := hasLead_iff.1 hs
      simp [afterLead?, hs, ← String.length_toList] at h
      rw [← h]
    · simp [afterLead?, hs] at h
  · rintro rfl
    have hs : hasLead lead (lead ++ rest) = true := hasLead_iff.2 ⟨rest, rfl⟩
    simp [afterLead?, hs, ← String.length_toList]

end TypedClient.Text
