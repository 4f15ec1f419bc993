/-!
# `TypedClient.Assoc`: tables in order of first insertion

A table is a list of keys with values. `put` gives a key a value: a key that is already
there keeps its place and takes the new value, a new key goes to the end. Keys are told
apart by a test, so numbers of different kinds can be one key.

* `lookup_put`: a key has the value that was put last.
* `keys_put`: putting a value adds its key at the end, unless it is there.
* `nodup_keys_ofList`: no key of a table made of entries occurs twice.
-/

set_option autoImplicit false

namespace TypedClient.Assoc

/-- The table with a value for a key, keys being told apart by `same`. -/
def putBy {κ ν : Type} (same : κ → κ → Bool) : List (κ × ν) → κ → ν → List (κ × ν)
  | [], k, v => [(k, v)]
  | (k₀, v₀) :: rest, k, v =>
    if same k₀ k then (k₀, v) :: rest else (k₀, v₀) :: putBy same rest k v

/-- The table with a value for a key. -/
def put {κ ν : Type} [BEq κ] (table : List (κ × ν)) (k : κ) (v : ν) : List (κ × ν) :=
  putBy (· == ·) table k v

/-- The table that results from putting the entries one after the other. -/
def ofList {κ ν : Type} [BEq κ] (entries : List (κ × ν)) : List (κ × ν) :=
  entries.foldl (fun table e => put table e.1 e.2) []

section Lawful

variable {κ ν : Type} [BEq κ] [LawfulBEq κ]

theorem lookup_put (table : List (κ × ν)) (k k' : κ) (v : ν) :
    (put table k v).lookup k' = if k' == k then some v else table.lookup k' := by
  induction table with
  | nil => simp only [put, putBy, List.lookup_cons, List.lookup_nil]; cases k' == k <;> rfl
  | cons e rest ih =>
    obtain ⟨k₀, v₀⟩ := e
    by_cases h : k₀ = k
    · subst h
      simp only [put, putBy, beq_self_eq_true, ↓reduceIte, List.lookup_cons]
      cases k' == k₀ <;> rfl
    · simp only [put, putBy, beq_iff_eq, h, ↓reduceIte, List.lookup_cons] at ih ⊢
      cases hk : k' == k₀ with
      | false => exact ih
      | true =>
        have hne : (k' == k) = false := by
          rw [eq_of_beq hk]
          exact beq_false_of_ne h
        simp [hne]

theorem keys_put (table : List (κ × ν)) (k : κ) (v : ν) :
    (put table k v).map Prod.fst =
      if (table.map Prod.fst).contains k then table.map Prod.fst
      else table.map Prod.fst ++ [k] := by
  induction table with
  | nil => rfl
  | cons e rest ih =>
    obtain ⟨k₀, v₀⟩ := e
    by_cases h : k₀ = k
    · subst h
      simp [put, putBy]
    · have hne : (k == k₀) = false := beq_false_of_ne (Ne.symm h)
      simp only [put, putBy, beq_iff_eq, h, ↓reduceIte, List.map_cons, List.contains_cons, hne,
        Bool.false_or] at ih ⊢
      rw [ih]
      split <;> rfl

theorem nodup_keys_put {table : List (κ × ν)} (h : (table.map Prod.fst).Nodup) (k : κ) (v : ν) :
    ((put table k v).map Prod.fst).Nodup := by
  rw [keys_put]
  split
  · exact h
  · rename_i hk
    refine List.nodup_append.2 ⟨h, by simp, ?_⟩
    intro a ha b hb
    simp only [List.mem_singleton] at hb
    rintro rfl
    exact hk (by simpa [hb] using ha)

theorem nodup_keys_ofList (entries : List (κ × ν)) : ((ofList entries).map Prod.fst).Nodup := by
  suffices ∀ table : List (κ × ν), (table.map Prod.fst).Nodup →
      ((entries.foldl (fun table e => put table e.1 e.2) table).map Prod.fst).Nodup by
    exact this [] List.nodup_nil
  induction entries with
  | nil => exact fun _ h => h
  | cons e rest ih => exact fun table h => ih _ (nodup_keys_put h e.1 e.2)

end Lawful

end TypedClient.Assoc
