import Mathlib.Data.List.Basic
import TypedClient.Decimal.Shortest

/-!
# `TypedClient.Proofs.Decimal.Shortest`: the characters of a number

The text of a double is one of the names for what has no digits, or it is made of figures: digits,
signs, a point and the mark of the exponent. So nothing that separates numbers from what stands
around them occurs in one.

* `isFigure_of_mem_toString`: the text of an integer is made of figures.
* `Binary64.text_cases`: the text of a double is a name, or is made of figures.
-/

set_option autoImplicit false

namespace TypedClient

/-- A character that the digits of a number are written with. -/
def isFigure (c : Char) : Bool := c.isDigit || c = '-' || c = '+' || c = '.' || c = 'e'

/-- Digits are figures. -/
theorem isFigure_of_mem_toDigits {n : Nat} {c : Char} (h : c ∈ Nat.toDigits 10 n) :
    isFigure c = true := by
  simp [isFigure, Nat.isDigit_of_mem_toDigits (by decide) (by decide) h]

/-- The text of an integer is made of figures: its digits, and the sign if it is negative. -/
theorem isFigure_of_mem_toString {i : Int} {c : Char} (h : c ∈ (toString i).toList) :
    isFigure c = true := by
  have hrepr : toString i = i.repr := rfl
  rw [hrepr] at h
  cases i with
  | ofNat n =>
    rw [Int.repr, Nat.toList_repr] at h
    exact isFigure_of_mem_toDigits h
  | negSucc n =>
    rw [Int.repr, String.toList_append, Nat.toList_repr, List.mem_append] at h
    rcases h with h | h
    · obtain rfl : c = '-' := by simpa using h
      decide
    · exact isFigure_of_mem_toDigits h

namespace Binary64

/-- The digits that are chosen for a double are digits of a natural number, some of them left out at
one end. Which ones are chosen does not matter for this. -/
theorem isFigure_shortest (i : Interval) : ∀ c ∈ i.shortest.1, isFigure c = true := by
  intro c hc
  rw [Interval.shortest, List.mem_reverse] at hc
  have hdigits := (List.dropWhile_sublist _).mem hc
  exact isFigure_of_mem_toDigits (List.mem_reverse.mp hdigits)

/-- The zeros that the digits are filled up with are digits. -/
theorem isFigure_zeros (n : Nat) : ∀ c ∈ List.replicate n '0', isFigure c = true := by
  intro c hc
  rw [(List.mem_replicate.mp hc).2]
  decide

/-- Digits are placed among zeros, with a point, or with a point and an exponent. In each of the
three ways nothing but figures is added to them. -/
theorem isFigure_placeDigits {digits : List Char} (h : ∀ c ∈ digits, isFigure c = true)
    (place : Int) : ∀ c ∈ placeDigits digits place, isFigure c = true := by
  unfold placeDigits
  split
  · split
    · simp only [List.forall_mem_cons, List.forall_mem_append]
      exact ⟨by decide, by decide, isFigure_zeros _, h⟩
    · -- The point stands among the digits, with a zero behind it if it would be last.
      simp only [List.forall_mem_cons, List.forall_mem_append]
      refine ⟨⟨fun c hc => h c (List.mem_of_mem_take hc), isFigure_zeros _⟩, by decide, ?_⟩
      split
      · exact isFigure_zeros 1
      · exact fun c hc => h c (List.mem_of_mem_drop hc)
  · simp only [List.forall_mem_cons, List.forall_mem_append, padded]
    refine ⟨?_, by decide, ?_, isFigure_zeros _, fun c hc => isFigure_of_mem_toDigits hc⟩
    · -- The point stands after the first digit, if there are more.
      split
      · exact isFigure_zeros 1
      · exact h
      · rw [List.forall_mem_cons] at h ⊢
        exact ⟨h.1, List.forall_mem_cons.mpr ⟨by decide, h.2⟩⟩
    · split <;> decide

/-- The text of a double is one of the names for what has no digits, perhaps with a sign, or it is
made of figures. The names are a parameter, since messages and literals write them differently. -/
theorem text_cases (names : SpecialNames) (x : Binary64) :
    x.text names = names.nan ∨ x.text names = names.infinity ∨
      x.text names = "-" ++ names.infinity ∨ ∀ c ∈ (x.text names).toList, isFigure c = true := by
  have hsign : ∀ c ∈ (if x.isNegative then "-" else "").toList, isFigure c = true := by
    split <;> simp [isFigure]
  -- The cases are those of a double: not finite, zero, or with digits.
  unfold text
  dsimp only
  split
  · split
    · exact .inl rfl
    · cases x.isNegative with
      | true => exact .inr (.inr (.inl rfl))
      | false => exact .inr (.inl (String.empty_append))
  · refine .inr (.inr (.inr ?_))
    rw [String.toList_append, List.forall_mem_append]
    exact ⟨hsign, List.all_eq_true.mp (by decide)⟩
  · refine .inr (.inr (.inr ?_))
    rw [String.toList_append, String.toList_ofList, List.forall_mem_append]
    exact ⟨hsign, isFigure_placeDigits (isFigure_shortest _) _⟩

end Binary64

end TypedClient
