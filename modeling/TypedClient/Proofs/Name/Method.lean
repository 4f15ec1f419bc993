import TypedClient.Name.Method
import TypedClient.Proofs.Name.Identifier

/-!
# `TypedClient.Proofs.Name.Method`: the name of each route

Names are given in the order of the routes, so the name of a route depends on the routes before
it and on nothing else. It is the identifier made of the name of the route, and after it perhaps
those made of its path parameters.

* `choicesFrom_append`: the names of some routes are the first names of those and more.
* `uniqueNames_append_cons`: the name of a route, given those before it.
* `Assigned`, `uniqueNames_assigned`: the name that a route is given, and that no name is given
  twice.
* `proper_name_iff`: the names that are proper identifiers.
-/

set_option autoImplicit false

namespace TypedClient.Name

variable {taken : Registry} {s : String}

/-! ### Routes in a row -/

/-- The names that are taken once routes are named. -/
def takenAfter (taken : Registry) (routes : List Route) : Registry :=
  ⟨((choicesFrom taken routes).map Choice.given).reverse ++ taken.taken⟩

/-- The first route is given what is free for the name that it puts in, and that name is taken for
the routes after it. -/
theorem choicesFrom_cons (taken : Registry) (r : Route) (routes : List Route) :
    choicesFrom taken (r :: routes) =
      ⟨r, methodName r, toIdentifier (methodName r), taken.free (candidate taken r)⟩ ::
        choicesFrom (taken.claim (candidate taken r)).2 routes := rfl

/-- What is taken once all routes are named is what the later ones take, after the first one. -/
theorem takenAfter_cons (taken : Registry) (r : Route) (routes : List Route) :
    takenAfter taken (r :: routes) = takenAfter (taken.claim (candidate taken r)).2 routes := by
  simp [takenAfter, choicesFrom_cons, Registry.claim]

/-- Routes in a row are named like the first ones and then, with the names of those taken, like the
later ones. The names of the later routes have no part in those of the earlier ones. -/
theorem choicesFrom_append (routes more : List Route) : ∀ taken : Registry,
    choicesFrom taken (routes ++ more)
      = choicesFrom taken routes ++ choicesFrom (takenAfter taken routes) more := by
  induction routes with
  | nil => exact fun _ => rfl
  | cons r rest ih =>
    intro taken
    rw [List.cons_append, choicesFrom_cons, choicesFrom_cons, takenAfter_cons, ih,
      List.cons_append]

/-- The names of some routes are the first names of those routes and more: a later route takes
nothing from an earlier one. -/
theorem uniqueNames_append (routes more : List Route) : uniqueNames (routes ++ more)
    = uniqueNames routes ++ (choicesFrom (takenAfter ⟨[]⟩ routes) more).map Choice.given := by
  rw [uniqueNames, choices, choicesFrom_append, List.map_append]
  rfl

/-- Any route of a row is given the name that is free for it after the routes before it. The names
after it are left open. -/
theorem uniqueNames_append_cons (before after : List Route) (r : Route) :
    ∃ rest, uniqueNames (before ++ r :: after) = uniqueNames before ++
      (takenAfter ⟨[]⟩ before).free (candidate (takenAfter ⟨[]⟩ before) r) :: rest :=
  ⟨_, uniqueNames_append before (r :: after)⟩

/-- Every route is given a name. -/
theorem length_uniqueNames (routes : List Route) :
    (uniqueNames routes).length = routes.length := by
  suffices ∀ taken : Registry, (choicesFrom taken routes).length = routes.length by
    simp [uniqueNames, choices, this]
  induction routes with
  | nil => exact fun _ => rfl
  | cons r rest ih => exact fun taken => congrArg (· + 1) (ih _)

/-! ### Which name a route is given -/

/-- The names of the parameters that are whole segments of a path. -/
def segmentParameters (path : String) : List String :=
  (splitSlashes path).filterMap segmentParameter?

/-- The name that a route has if nothing is in its way. -/
def baseName (r : Route) : String := toIdentifier (methodName r)

/-- The name that a route puts in for once its own is gone: with its path parameters, if it has
some and the document does not name the operation, and otherwise its own again. -/
def fallbackName (r : Route) : String :=
  if isNamed r = false ∧ segmentParameters r.path ≠ [] then
    baseName r ++ "By" ++
      "And".intercalate ((segmentParameters r.path).map fun p => Text.capitalize (toIdentifier p))
  else baseName r

/-- The name that is due to a route, given the names of the routes before it. -/
structure Assigned (earlier : List String) (r : Route) (name : String) : Prop where
  base : baseName r ∉ earlier → name = baseName r
  fallback : baseName r ∈ earlier → fallbackName r ∉ earlier → name = fallbackName r
  numbered : baseName r ∈ earlier → fallbackName r ∈ earlier →
    ∃ k, 2 ≤ k ∧ name = Registry.numbered (fallbackName r) k ∧ name ∉ earlier ∧
      ∀ j, 2 ≤ j → j < k → Registry.numbered (fallbackName r) j ∈ earlier

/-- A route whose own name is not taken puts in that name, whether the document names it or not. -/
theorem candidate_of_not_mem {r : Route} (h : baseName r ∉ taken.taken) :
    candidate taken r = baseName r := by
  have hfree : taken.contains (toIdentifier (methodName r)) = false := by
    simpa [Registry.contains, baseName] using h
  simp [candidate, hfree, baseName]

/-- A route whose own name is taken puts in its fallback: with the path parameters, if it has some
and the document does not name it, and otherwise its own name again. -/
theorem candidate_of_mem {r : Route} (h : baseName r ∈ taken.taken) :
    candidate taken r = fallbackName r := by
  have htaken : taken.contains (toIdentifier (methodName r)) = true := by
    simpa [Registry.contains, baseName] using h
  -- A name that the document gives stands by itself; only a number will tell it apart.
  cases hnamed : isNamed r with
  | true => simp [candidate, fallbackName, hnamed, baseName]
  | false =>
    -- Without parameters nothing is added, which the program says with an empty suffix.
    cases hparameters : segmentParameters r.path with
    | nil =>
      have hsuffix : parameterSuffix r.path = "" := by
        rw [parameterSuffix, ← segmentParameters, hparameters]
      simp [candidate, fallbackName, htaken, hnamed, hparameters, hsuffix, baseName]
    | cons p ps =>
      have hsuffix : parameterSuffix r.path = "By" ++
          "And".intercalate ((p :: ps).map fun p => Text.capitalize (toIdentifier p)) := by
        rw [parameterSuffix, ← segmentParameters, hparameters]
      simp [candidate, fallbackName, htaken, hnamed, hparameters, hsuffix, baseName,
        String.append_assoc]

/-- What is claimed for a route is the name that is due to it. The three cases of `Assigned` are
those in which its own name, its fallback or a number decides. -/
theorem assigned_free (taken : Registry) (r : Route) :
    Assigned taken.taken r (taken.free (candidate taken r)) where
  base h := by rw [candidate_of_not_mem h, Registry.free_of_not_mem h]
  fallback h hfree := by rw [candidate_of_mem h, Registry.free_of_not_mem hfree]
  numbered h hgone := by
    rw [candidate_of_mem h]
    obtain ⟨k, hk, heq, hfree, hleast⟩ := Registry.free_of_mem hgone
    exact ⟨k, hk, heq, heq ▸ hfree, hleast⟩

/-- Which names are taken matters for what is due, and not their order. Registries hold the last
name first. -/
theorem Assigned.of_reverse {earlier : List String} {r : Route} {name : String}
    (h : Assigned earlier.reverse r name) : Assigned earlier r name where
  base := by simpa using h.base
  fallback := by simpa using h.fallback
  numbered := by simpa using h.numbered

/-- The names taken by some routes are those that they are given, the last one first. -/
theorem taken_takenAfter_nil (routes : List Route) :
    (takenAfter ⟨[]⟩ routes).taken = (uniqueNames routes).reverse := by
  simp [takenAfter, uniqueNames, choices]

/-- No name is taken twice. -/
theorem nodup_takenAfter (routes : List Route) : ∀ taken : Registry, taken.taken.Nodup →
    (takenAfter taken routes).taken.Nodup := by
  induction routes with
  | nil => exact fun _ h => h
  | cons r rest ih =>
    intro taken h
    rw [takenAfter_cons]
    exact ih _ (Registry.nodup_claim h _)

/-- Each route is given one name, no two the same, and it is the one that is due to it after the
routes before it. Since the row may be split at any route, the last part speaks of each of them. -/
theorem uniqueNames_assigned :
    (∀ routes, (uniqueNames routes).length = routes.length ∧ (uniqueNames routes).Nodup) ∧
      ∀ before r after, ∃ name rest,
        uniqueNames (before ++ r :: after) = uniqueNames before ++ name :: rest ∧
          Assigned (uniqueNames before) r name := by
  refine ⟨fun routes => ⟨length_uniqueNames routes, ?_⟩, fun before r after => ?_⟩
  · have h := nodup_takenAfter routes ⟨[]⟩ List.nodup_nil
    rwa [taken_takenAfter_nil, List.nodup_reverse] at h
  · -- The route in the middle is the first one of those that are named after `before`.
    obtain ⟨rest, hnames⟩ := uniqueNames_append_cons before after r
    have hdue := assigned_free (takenAfter ⟨[]⟩ before) r
    rw [taken_takenAfter_nil] at hdue
    exact ⟨_, rest, hnames, hdue.of_reverse⟩

-- The fourth route finds its own name and the one with its parameter gone.
example : uniqueNames [⟨"/pets", "GET", none⟩, ⟨"/pets/{id}", "GET", none⟩,
    ⟨"/pets/{pet}/", "GET", some "get-pets"⟩, ⟨"/pets/{id}/", "GET", none⟩]
      = ["getPets", "getPetsById", "getPets2", "getPetsById2"] := by
  decide +kernel

/-! ### The texts that a name is made of -/

/-- The texts that the name given to a route is made of, given the names that are taken: the name
of the route, and the path parameters that tell it apart from an earlier one. -/
def sources (taken : Registry) (r : Route) : List String :=
  methodName r ::
    if toIdentifier (methodName r) ∈ taken ∧ isNamed r = false then segmentParameters r.path
    else []

/-- A path parameter adds characters of identifiers to a name exactly if it does not pass for an
identifier with a line feed. Capitalizing such a parameter leaves its line feed alone, as that is
not its first character. -/
theorem isIdentifierChar_capitalize_iff :
    (∀ c ∈ (Text.capitalize (toIdentifier s)).toList, isIdentifierChar c = true) ↔
      ¬ EndsLine s := by
  rw [Text.capitalize, String.toList_ofList]
  constructor
  · intro h hs
    rw [hs.toIdentifier_eq] at h
    obtain ⟨c, rest, hchars⟩ := List.exists_cons_of_ne_nil (List.ne_nil_of_mem hs.mem)
    have hline := hs.mem
    have hc : c ≠ '\n' := by
      rintro rfl
      have := hs.1
      simp [isIdentifier, hchars, isIdentifierChars, isIdentifierStart] at this
    rw [hchars, List.mem_cons, or_iff_right hc.symm] at hline
    -- Only the first character is capitalized.
    refine absurd (h '\n' ?_) (by decide)
    rw [hchars, Text.capitalizeChars]
    exact List.mem_append_right _ hline
  · intro hs
    exact isIdentifierChar_capitalizeChars (proper_toIdentifier hs).isIdentifierChar

/-- Parts that are put together with characters of identifiers in between make a text of such
characters exactly if each part is one. -/
theorem isIdentifierChar_intercalate_iff {sep : String}
    (hsep : ∀ c ∈ sep.toList, isIdentifierChar c = true) (parts : List String) :
    (∀ c ∈ (sep.intercalate parts).toList, isIdentifierChar c = true) ↔
      ∀ part ∈ parts, ∀ c ∈ part.toList, isIdentifierChar c = true := by
  induction parts with
  | nil => simp
  | cons part rest ih =>
    cases rest with
    | nil => simp
    | cons next rest =>
      rw [String.intercalate_cons_cons, String.toList_append, String.toList_append,
        List.forall_mem_append, List.forall_mem_append, ih, and_iff_left hsep]
      simp only [List.forall_mem_cons]

/-- What tells a route apart by its path parameters is made of characters of identifiers exactly if
no parameter passes for an identifier with a line feed. -/
theorem isIdentifierChar_parameterSuffix_iff (path : String) :
    (∀ c ∈ (parameterSuffix path).toList, isIdentifierChar c = true) ↔
      ∀ p ∈ segmentParameters path, ¬ EndsLine p := by
  unfold parameterSuffix segmentParameters
  split
  · rename_i hnone
    simp [hnone]
  · rename_i ps _
    have hby : ∀ c ∈ "By".toList, isIdentifierChar c = true := List.all_eq_true.mp (by decide)
    have hand : ∀ c ∈ "And".toList, isIdentifierChar c = true := List.all_eq_true.mp (by decide)
    rw [String.toList_append, List.forall_mem_append, and_iff_right hby,
      isIdentifierChar_intercalate_iff hand, List.forall_mem_map]
    exact forall₂_congr fun p _ => isIdentifierChar_capitalize_iff

/-- The name put in for a route is an identifier exactly if it is made of texts that do not pass for
identifiers by what stands before a line feed. Only the texts that take part count: parameters do
only where the route's own name is taken. -/
theorem proper_candidate_iff (taken : Registry) (r : Route) :
    Proper (candidate taken r) ↔ ∀ s ∈ sources taken r, ¬ EndsLine s := by
  have hne : toIdentifier (methodName r) ≠ "" := toIdentifier_ne_empty _
  have hmem : taken.contains (toIdentifier (methodName r)) = true ↔
      toIdentifier (methodName r) ∈ taken := List.contains_iff_mem
  unfold candidate sources
  rw [List.forall_mem_cons]
  -- The parameters take part exactly if the route's own name is taken and the document gives none.
  by_cases hasked : toIdentifier (methodName r) ∈ taken ∧ isNamed r = false
  · rw [if_pos (by simp [hmem.mpr hasked.1, hasked.2]), if_pos hasked, proper_append_iff hne,
      isIdentifierChar_parameterSuffix_iff, proper_toIdentifier_iff]
  · rw [if_neg (by simpa [hmem] using hasked), if_neg hasked, proper_toIdentifier_iff]
    exact (and_iff_left (List.forall_mem_nil _)).symm

/-- What a route puts in is no reserved word: its own name is none, and one with parameters holds a
capital. -/
theorem candidate_not_mem_reserved (taken : Registry) (r : Route) :
    candidate taken r ∉ reserved := by
  unfold candidate parameterSuffix
  dsimp only
  split
  · split
    · rw [String.append_empty]
      exact toIdentifier_not_mem_reserved _
    · exact not_mem_reserved_of_mem (c := 'B') (by simp) (by decide)
  · exact toIdentifier_not_mem_reserved _

/-- The name that a route is given is an identifier exactly if the texts that it is made of allow
it, whatever names are taken. A number at the end makes no difference. -/
theorem proper_name_iff (taken : Registry) (r : Route) :
    Proper (taken.free (candidate taken r)) ↔ ∀ s ∈ sources taken r, ¬ EndsLine s := by
  rw [proper_free_iff, proper_candidate_iff]

end TypedClient.Name
