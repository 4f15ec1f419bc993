import Mathlib.Data.List.Nodup
import Mathlib.Data.List.Perm.Subperm
import Mathlib.Data.Nat.Init
import TypedClient.Name.Registry

/-!
# `TypedClient.Proofs.Name.Registry`: names are handed out once

The search of a registry always ends at a free name: the numbered names of one name are
distinct, and there is one more of them than there are taken names.

* `Registry.free_of_not_mem`, `Registry.free_of_mem`: the name that is handed out is the name
  that was asked for, or if it is taken that name with the least number that makes it free.
* `Registry.free_not_mem`: the name that is handed out is not taken.
* `Registry.Search`, `Registry.Search.le`: counting up to that number, and where it has ended.
* `Registry.handedOut_due`: what a row of claims is given, whatever was taken before.
-/

set_option autoImplicit false

namespace TypedClient.Name.Registry

/-- Different numbers make different names of one name, since a number can be told from its decimal
digits. -/
theorem numbered_injective {name : String} {k l : Nat} (h : numbered name k = numbered name l) :
    k = l := by
  have hchars : name.toList ++ (toString k).toList = name.toList ++ (toString l).toList := by
    simpa [numbered] using congrArg String.toList h
  -- The name in front is the same, so the digits are.
  have hdigits : Nat.toDigits 10 k = Nat.toDigits 10 l := by
    simpa only [Nat.toString_eq_repr, Nat.toList_repr] using List.append_cancel_left hchars
  simpa using congrArg (fun ds => Nat.ofDigitChars 10 ds 0) hdigits

/-- The names that are tried for a name that is taken. -/
def candidates (r : Registry) (name : String) : List String :=
  (List.range (r.taken.length + 1)).map fun k => numbered name (k + 2)

/-- The numbered names from two on are all different. -/
theorem nodup_numbered (name : String) (n : Nat) :
    ((List.range n).map fun k => numbered name (k + 2)).Nodup := by
  refine List.Nodup.map (fun k l h => ?_) List.nodup_range
  have := numbered_injective h
  omega

/-- Numbered names of one name are different, so no more of them are taken than there are taken
names. Both that a search ends and after how many steps it does come from this. -/
theorem le_length_of_numbered_mem {taken : List String} {name : String} {n : Nat}
    (h : ∀ k < n, numbered name (k + 2) ∈ taken) : n ≤ taken.length := by
  have hall : ((List.range n).map fun k => numbered name (k + 2)) ⊆ taken := by
    intro m hm
    obtain ⟨k, hk, rfl⟩ := List.mem_map.mp hm
    exact h k (List.mem_range.mp hk)
  have hlen := ((nodup_numbered name n).subperm hall).length_le
  rwa [List.length_map, List.length_range] at hlen

/-- There are more candidates than taken names, so one of them is free. -/
theorem exists_free_candidate (r : Registry) (name : String) :
    ∃ n ∈ r.candidates name, n ∉ r.taken := by
  by_contra hnone
  have hall : ∀ k < r.taken.length + 1, numbered name (k + 2) ∈ r.taken := fun k hk =>
    Classical.byContradiction fun hfree =>
      hnone ⟨_, List.mem_map_of_mem (List.mem_range.mpr hk), hfree⟩
  exact Nat.not_succ_le_self _ (le_length_of_numbered_mem hall)

/-- The name handed out for a taken name is the first candidate that is free. -/
theorem find?_candidates (r : Registry) (name : String) :
    ∃ n, (r.candidates name).find? (!r.contains ·) = some n := by
  obtain ⟨n, hn, hfree⟩ := r.exists_free_candidate name
  -- A search over a list finds something if there is something to find.
  refine Option.isSome_iff_exists.mp (List.find?_isSome.mpr ⟨n, hn, ?_⟩)
  simpa [contains] using hfree

variable {r : Registry} {name : String}

/-- A name that is not taken is handed out as it is. -/
theorem free_of_not_mem (h : name ∉ r.taken) : r.free name = name :=
  if_neg (by simpa [contains] using h)

/-- A name that is taken gets the least number from two on that makes it free. The search is over a
list of candidates, so that it ends by itself; this is what it comes to. -/
theorem free_of_mem (h : name ∈ r.taken) :
    ∃ k, 2 ≤ k ∧ r.free name = numbered name k ∧ numbered name k ∉ r.taken ∧
      ∀ j, 2 ≤ j → j < k → numbered name j ∈ r.taken := by
  obtain ⟨n, hn⟩ := r.find?_candidates name
  have hfree : r.free name = n := by
    rw [free, if_pos (by simpa [contains] using h), ← candidates, hn]
    rfl
  rw [candidates, List.find?_map, Option.map_eq_some_iff] at hn
  obtain ⟨k, hk, rfl⟩ := hn
  obtain ⟨hfirst, -, hearlier⟩ := List.find?_range_eq_some.mp hk
  refine ⟨k + 2, by omega, hfree, by simpa [contains] using hfirst, fun j hj hjk => ?_⟩
  have htaken := hearlier (j - 2) (by omega)
  simpa [contains, Nat.sub_add_cancel hj] using htaken

/-- The name that is handed out is not taken, whether it is numbered or not. -/
theorem free_not_mem (r : Registry) (name : String) : r.free name ∉ r.taken := by
  by_cases h : name ∈ r.taken
  · obtain ⟨k, -, hk, hfree, -⟩ := free_of_mem h
    rwa [hk]
  · rwa [free_of_not_mem h]

/-- The name that is handed out is the one that was asked for, or that one with a number. What a
number does not change, like the first characters, can be told from this alone. -/
theorem free_eq (r : Registry) (name : String) :
    r.free name = name ∨ ∃ k, r.free name = numbered name k := by
  by_cases h : name ∈ r.taken
  · obtain ⟨k, -, hk, -, -⟩ := free_of_mem h
    exact .inr ⟨k, hk⟩
  · exact .inl (free_of_not_mem h)

/-- A registry without repeated names stays one when a name is handed out. -/
theorem nodup_claim (h : r.taken.Nodup) (name : String) : (r.claim name).2.taken.Nodup :=
  List.nodup_cons.mpr ⟨r.free_not_mem name, h⟩

/-! ### Counting up to a free number -/

/-- Counting from the number `k` on ends at `l`: each number whose name is taken is passed by. -/
inductive Search (taken : List String) (name : String) : (k l : Nat) → Prop
  | stop {k : Nat} (h : numbered name k ∉ taken) : Search taken name k k
  | pass {k l : Nat} (h : numbered name k ∈ taken) (rest : Search taken name (k + 1) l) :
      Search taken name k l

variable {taken : List String} {k l : Nat}

/-- Where counting ends it ends at the least free number, and only there. So the relation `Search`,
which goes from one number to the next, and the minimum say the same. -/
theorem search_iff : Search taken name k l ↔
    k ≤ l ∧ numbered name l ∉ taken ∧ ∀ j, k ≤ j → j < l → numbered name j ∈ taken := by
  constructor
  · intro h
    induction h with
    | stop h => exact ⟨Nat.le_refl _, h, fun j hj hl => by omega⟩
    | pass h _ ih =>
      obtain ⟨hle, hfree, hearlier⟩ := ih
      refine ⟨by omega, hfree, fun j hj hl => ?_⟩
      rcases Nat.eq_or_lt_of_le hj with rfl | hj
      · exact h
      · exact hearlier j hj hl
  · rintro ⟨hle, hfree, hearlier⟩
    -- Counting is followed backwards from where it ends.
    induction hle using Nat.decreasingInduction with
    | self => exact .stop hfree
    | of_succ k hk ih =>
      exact .pass (hearlier k (Nat.le_refl k) hk) (ih fun j hj => hearlier j (by omega))

/-- The numbers passed by make names that are taken, so counting has ended after as many steps as
there are taken names. -/
theorem Search.le (h : Search taken name 2 l) : l ≤ taken.length + 2 := by
  obtain ⟨-, -, hearlier⟩ := search_iff.mp h
  have hpassed : l - 2 ≤ taken.length :=
    le_length_of_numbered_mem fun k hk => hearlier (k + 2) (by omega) (by omega)
  omega

/-! ### Claims in a row -/

/-- What claims of names in a row return, each made of the registry that the one before it left. -/
def handedOut (r : Registry) : List String → List String
  | [] => []
  | s :: rest => (r.claim s).1 :: (r.claim s).2.handedOut rest

/-- The registry once names in a row are claimed. -/
def claimedAfter (r : Registry) (names : List String) : Registry :=
  ⟨(r.handedOut names).reverse ++ r.taken⟩

/-- A claim returns the free name for the name that was asked for. -/
theorem claim_fst (r : Registry) (name : String) : (r.claim name).1 = r.free name := rfl

/-- The first claim is made of the registry at hand, the others of what it leaves. -/
theorem handedOut_cons (r : Registry) (name : String) (names : List String) :
    r.handedOut (name :: names) = (r.claim name).1 :: (r.claim name).2.handedOut names := rfl

/-- The registry after all claims is that after the later ones, made of what the first one
leaves. -/
theorem claimedAfter_cons (r : Registry) (name : String) (names : List String) :
    r.claimedAfter (name :: names) = (r.claim name).2.claimedAfter names := by
  simp [claimedAfter, handedOut_cons, claim]

/-- Claims in a row are the first ones and, of the registry that those leave, the later ones. So any
claim of a row can be looked at as the first one of a registry of its own. -/
theorem handedOut_append (names more : List String) : ∀ r : Registry,
    r.handedOut (names ++ more) = r.handedOut names ++ (r.claimedAfter names).handedOut more := by
  induction names with
  | nil => exact fun _ => rfl
  | cons name rest ih =>
    intro r
    rw [List.cons_append, handedOut_cons, handedOut_cons, claimedAfter_cons, ih, List.cons_append]

/-- Every claim is given a name. -/
theorem length_handedOut (names : List String) : ∀ r : Registry,
    (r.handedOut names).length = names.length := by
  induction names with
  | nil => exact fun _ => rfl
  | cons name rest ih => exact fun r => congrArg (· + 1) (ih _)

/-- A claim keeps what is taken and takes what it gives, so later claims are given neither. The two
halves are proved together: that names differ needs that none of the taken ones is given again. -/
theorem nodup_handedOut (names : List String) : ∀ r : Registry,
    (r.handedOut names).Nodup ∧ ∀ n ∈ r.handedOut names, n ∉ r.taken := by
  induction names with
  | nil => exact fun _ => ⟨List.nodup_nil, List.forall_mem_nil _⟩
  | cons name rest ih =>
    intro r
    obtain ⟨hnodup, hfree⟩ := ih (r.claim name).2
    refine ⟨List.nodup_cons.mpr ⟨fun h => hfree _ h List.mem_cons_self, hnodup⟩, ?_⟩
    exact List.forall_mem_cons.mpr
      ⟨r.free_not_mem name, fun n hn => mt (List.mem_cons_of_mem _) (hfree n hn)⟩

/-- The name that is due to a claim, given the names that are taken. -/
structure Due (taken : List String) (name given : String) : Prop where
  free : name ∉ taken → given = name
  /-- Counting from two on ends, and at the least number that makes the name free. -/
  numbered : name ∈ taken → ∃ k, Search taken name 2 k ∧ k ≤ taken.length + 2 ∧
    given = Registry.numbered name k ∧ given ∉ taken ∧
      ∀ j, 2 ≤ j → j < k → Registry.numbered name j ∈ taken

/-- What a single claim returns is what is due to it. -/
theorem due_free (r : Registry) (name : String) : Due r.taken name (r.free name) where
  free := free_of_not_mem
  numbered h := by
    obtain ⟨k, hk, heq, hfree, hearlier⟩ := free_of_mem h
    have hsearch : Search r.taken name 2 k := search_iff.mpr ⟨hk, hfree, hearlier⟩
    exact ⟨k, hsearch, hsearch.le, heq, heq ▸ hfree, hearlier⟩

/-- Which names are taken matters, and not in which order they were. -/
theorem Due.of_perm {taken' : List String} {given : String} (h : Due taken name given)
    (hperm : taken.Perm taken') : Due taken' name given where
  free hname := h.free (mt hperm.mem_iff.mp hname)
  numbered hname := by
    obtain ⟨k, hsearch, hle, heq, hfree, hearlier⟩ := h.numbered (hperm.mem_iff.mpr hname)
    simp only [search_iff, hperm.mem_iff, hperm.length_eq] at hsearch hle hfree hearlier ⊢
    exact ⟨k, hsearch, hle, heq, hfree, hearlier⟩

/-- Whatever names are taken at first, claims in a row are given different names that were not
taken, and each is given the name that is due to it after the claims before it. The row is split at
any of its claims, so this says of every claim what it returns. -/
theorem handedOut_due (taken : List String) :
    (∀ names, ((⟨taken⟩ : Registry).handedOut names).length = names.length ∧
      ((⟨taken⟩ : Registry).handedOut names).Nodup ∧
      ∀ n ∈ (⟨taken⟩ : Registry).handedOut names, n ∉ taken) ∧
    ∀ before name after, ∃ given rest,
      (⟨taken⟩ : Registry).handedOut (before ++ name :: after)
        = (⟨taken⟩ : Registry).handedOut before ++ given :: rest ∧
      Due (taken ++ (⟨taken⟩ : Registry).handedOut before) name given := by
  refine ⟨fun names => ⟨length_handedOut names _, nodup_handedOut names _⟩,
    fun before name after => ?_⟩
  have hdue := due_free ((⟨taken⟩ : Registry).claimedAfter before) name
  -- What the earlier claims have taken is noted in front, the last one first.
  refine ⟨_, _, handedOut_append before (name :: after) _, hdue.of_perm ?_⟩
  exact (List.perm_append_comm).trans ((List.reverse_perm _).append_left taken)

-- The first number that is tried was asked for as a name before.
example : (⟨["a"]⟩ : Registry).handedOut ["a2", "a", "a", "b"] = ["a2", "a3", "a4", "b"] := by
  decide +kernel

end TypedClient.Name.Registry
