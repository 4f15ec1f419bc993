import TypedClient.Package.ModulePath
import TypedClient.Proofs.Path

/-!
# `TypedClient.Proofs.Package.ModulePath`: collapsed segments

Collapsing takes the segments one after the other: `push` is what one of them does to those
before it. What is left are some `..` and after them segments that stand for themselves. Those
do to whatever they follow what the segments did that they come from, so either part of a list
may be collapsed before the list is.

* `ModulePath.push`, `ModulePath.normalize_eq_foldl`: collapsing as a fold.
* `ModulePath.Canonical`, `ModulePath.canonical_normalize`: the form that is reached.
* `ModulePath.foldl_push_normalize`, `ModulePath.normalize_append`: collapsing in stages.
* `ModulePath.normalize_canonical_form`: the form, the lists that have it, and collapsing the
  parts of a list first.
* `ModulePath.of_localModule?_eq_some`, `ModulePath.localModule?_eq`: the file that a relative
  specifier denotes.
-/

set_option autoImplicit false

namespace TypedClient.ModulePath

variable {segments stack : List String} {s segment : String}

/-- The segment stands for itself. -/
def Ordinary (segment : String) : Prop := isVoid segment = false ∧ segment ≠ ".."

instance : DecidablePred Ordinary := fun _ => inferInstanceAs (Decidable (_ ∧ _))

/-- The segments that do not stand for themselves are four texts. -/
theorem ordinary_iff : Ordinary segment ↔ segment ∉ ["", ".", "/", ".."] := by
  simp [Ordinary, isVoid, and_assoc]

/-- A segment vanishes, leads up or stands for itself: these are the cases of one step of
collapsing. -/
theorem void_or_up_or_ordinary (segment : String) :
    isVoid segment = true ∨ segment = ".." ∨ Ordinary segment := by
  cases hvoid : isVoid segment with
  | true => exact .inl rfl
  | false =>
    by_cases hup : segment = ".."
    · exact .inr (.inl hup)
    · exact .inr (.inr ⟨hvoid, hup⟩)

/-- A segment that stands for itself is a proper name of a file, as far as these three texts go. -/
theorem Ordinary.ne (h : Ordinary segment) : segment ≠ "" ∧ segment ≠ "." ∧ segment ≠ ".." := by
  have hmem := ordinary_iff.mp h
  simp only [List.mem_cons, List.not_mem_nil, or_false, not_or] at hmem
  exact ⟨hmem.1, hmem.2.1, hmem.2.2.2⟩

/-- A segment of a text holds no slash, so that of the four texts only three have to be ruled
out. -/
theorem ordinary_of_not_mem (hslash : '/' ∉ segment.toList) (h : segment ∉ ["", ".", ".."]) :
    Ordinary segment := by
  have hne : segment ≠ "/" := by
    rintro rfl
    exact hslash (by decide)
  rw [ordinary_iff]
  simp only [List.mem_cons, List.not_mem_nil, or_false, not_or] at h ⊢
  exact ⟨h.1, h.2.1, hne, h.2.2⟩

/-- Some `..`, and after them segments that stand for themselves. -/
def Canonical (segments : List String) : Prop :=
  ∃ n rest, segments = List.replicate n ".." ++ rest ∧ ∀ s ∈ rest, Ordinary s

/-- The canonical form with the segments that stand for themselves spelled out. -/
theorem canonical_iff : Canonical segments ↔ ∃ n own,
    segments = List.replicate n ".." ++ own ∧ ∀ s ∈ own, s ∉ ["", ".", "/", ".."] := by
  simp only [Canonical, ordinary_iff]

/-! ### One segment -/

/-- The segments before, the last one first, after one more segment. -/
def push (stack : List String) (segment : String) : List String :=
  if isVoid segment then stack
  else if segment = ".." then
    match stack with
    | [] => [".."]
    | top :: below => if top = ".." then ".." :: stack else below
  else segment :: stack

/-- A segment that vanishes leaves those before it as they are. -/
theorem push_of_isVoid (h : isVoid segment = true) : push stack segment = stack := by
  rw [push.eq_def, if_pos h]

/-- A segment that stands for itself is put behind those before it. -/
theorem Ordinary.push_eq (h : Ordinary segment) : push stack segment = segment :: stack := by
  rw [push.eq_def, if_neg (by simp [h.1]), if_neg h.2]

/-- A step up takes back the segment before it, if that stands for itself. -/
theorem Ordinary.push_up (h : Ordinary segment) : push (segment :: stack) ".." = stack := by
  rw [push.eq_def, if_neg (by decide), if_pos rfl]
  exact if_neg h.2

/-- Where there is nothing to take back, a `..` stays. -/
theorem push_replicate_up (n : Nat) :
    push (List.replicate n "..") ".." = List.replicate (n + 1) ".." := by
  cases n with
  | zero => rfl
  | succ n => rfl

/-- Collapsing from a stack on is the fold of `push`, by induction on the segments. The result is
turned round at the end, as the stack has the last segment first. -/
theorem normalizeFrom_eq_foldl (segments : List String) : ∀ stack : List String,
    normalizeFrom stack segments = (segments.foldl push stack).reverse := by
  induction segments with
  | nil => exact fun _ => rfl
  | cons segment rest ih =>
    intro stack
    -- Both make the same choice about the first segment.
    rw [List.foldl_cons, ← ih, normalizeFrom.eq_def, push.eq_def]
    dsimp only
    split
    · rfl
    · split
      · cases stack with
        | nil => rfl
        | cons top below =>
          dsimp only
          split <;> rfl
      · rfl

/-- Collapsing is the fold of `push` from nothing. -/
theorem normalize_eq_foldl (segments : List String) :
    normalize segments = (segments.foldl push []).reverse :=
  normalizeFrom_eq_foldl segments []

/-- The canonical form as it stands on the stack, with the steps up at the bottom. -/
theorem canonical_reverse_iff : Canonical stack.reverse ↔
    ∃ n rest, stack = rest ++ List.replicate n ".." ∧ ∀ s ∈ rest, Ordinary s := by
  constructor
  · rintro ⟨n, rest, h, hrest⟩
    refine ⟨n, rest.reverse, ?_, by simpa using hrest⟩
    rw [← List.reverse_reverse stack, h, List.reverse_append, List.reverse_replicate]
  · rintro ⟨n, rest, rfl, hrest⟩
    refine ⟨n, rest.reverse, ?_, by simpa using hrest⟩
    rw [List.reverse_append, List.reverse_replicate]

/-- A `..` takes back a segment that stands for itself, or is one more of those in front. -/
theorem canonical_push (h : Canonical stack.reverse) (segment : String) :
    Canonical (push stack segment).reverse := by
  obtain ⟨n, rest, rfl, hrest⟩ := canonical_reverse_iff.mp h
  -- Only a `..` looks at what is on the stack.
  rcases void_or_up_or_ordinary segment with hvoid | rfl | hordinary
  · rw [push_of_isVoid hvoid]
    exact h
  · cases rest with
    | nil =>
      rw [List.nil_append, push_replicate_up]
      exact canonical_reverse_iff.mpr ⟨n + 1, [], rfl, List.forall_mem_nil _⟩
    | cons top rest =>
      obtain ⟨htop, hrest⟩ := List.forall_mem_cons.mp hrest
      rw [List.cons_append, htop.push_up]
      exact canonical_reverse_iff.mpr ⟨n, rest, rfl, hrest⟩
  · rw [hordinary.push_eq]
    exact canonical_reverse_iff.mpr ⟨n, segment :: rest, rfl,
      List.forall_mem_cons.mpr ⟨hordinary, hrest⟩⟩

/-! ### All segments -/

/-- Whatever follows a canonical stack, what is reached is canonical; `canonical_push` is the
step. -/
theorem canonical_foldl_push (segments : List String) : ∀ {stack : List String},
    Canonical stack.reverse → Canonical (segments.foldl push stack).reverse := by
  induction segments with
  | nil => exact fun h => h
  | cons segment rest ih => exact fun h => ih (canonical_push h segment)

/-- Collapsing reaches a canonical form, since it begins with one. -/
theorem canonical_normalize (segments : List String) : Canonical (normalize segments) := by
  rw [normalize_eq_foldl]
  exact canonical_foldl_push segments ⟨0, [], rfl, List.forall_mem_nil _⟩

/-- One step puts nothing on the stack but its segment. -/
theorem mem_push (h : s ∈ push stack segment) : s ∈ stack ∨ s = segment := by
  unfold push at h
  split at h
  · exact .inl h
  · split at h
    · rename_i hup
      split at h
      · exact .inr (by simpa [hup] using h)
      · split at h
        · rcases List.mem_cons.mp h with rfl | h
          · exact .inr hup.symm
          · exact .inl h
        · exact .inl (List.mem_cons_of_mem _ h)
    · exact (List.mem_cons.mp h).symm

/-- Collapsing invents no segment. -/
theorem mem_normalize (h : s ∈ normalize segments) : s ∈ segments := by
  -- For the induction the stack may hold segments already.
  suffices ∀ stack : List String, s ∈ segments.foldl push stack → s ∈ stack ∨ s ∈ segments by
    rw [normalize_eq_foldl, List.mem_reverse] at h
    exact (this [] h).resolve_left List.not_mem_nil
  clear h
  induction segments with
  | nil => exact fun _ h => .inl h
  | cons segment rest ih =>
    intro stack h
    rcases ih _ h with h | h
    · rcases mem_push h with h | rfl
      · exact .inl h
      · exact .inr List.mem_cons_self
    · exact .inr (List.mem_cons_of_mem _ h)

/-- Segments that stand for themselves are all put on the stack. -/
theorem foldl_push_of_ordinary (h : ∀ s ∈ segments, Ordinary s) (stack : List String) :
    segments.foldl push stack = segments.reverse ++ stack := by
  induction segments generalizing stack with
  | nil => rfl
  | cons segment rest ih =>
    obtain ⟨hsegment, hrest⟩ := List.forall_mem_cons.mp h
    rw [List.foldl_cons, hsegment.push_eq, ih hrest, List.reverse_cons, List.append_assoc,
      List.singleton_append]

/-- One `..` for each of the segments before takes them all back. -/
theorem foldl_push_ups {taken : List String} (h : ∀ s ∈ taken, Ordinary s)
    (stack : List String) :
    (List.replicate taken.length "..").foldl push (taken ++ stack) = stack := by
  induction taken with
  | nil => rfl
  | cons top rest ih =>
    obtain ⟨htop, hrest⟩ := List.forall_mem_cons.mp h
    rw [List.length_cons, List.replicate_succ, List.foldl_cons, List.cons_append, htop.push_up,
      ih hrest]

/-- A step up behind segments that stand for themselves takes back the last one and no more. -/
theorem normalize_concat_up (h : ∀ s ∈ segments, Ordinary s) (hsegment : Ordinary segment) :
    normalize (segments ++ [segment] ++ [".."]) = segments := by
  rw [normalize_eq_foldl, List.foldl_append, List.foldl_append, foldl_push_of_ordinary h]
  simp only [List.foldl_cons, List.foldl_nil, List.append_nil, hsegment.push_eq,
    hsegment.push_up, List.reverse_reverse]

/-- Steps up with nothing before them all stay. -/
theorem foldl_push_replicate_up (n : Nat) :
    (List.replicate n "..").foldl push [] = List.replicate n ".." := by
  induction n with
  | zero => rfl
  | succ n ih =>
    rw [List.replicate_succ', List.foldl_append, ih, ← List.replicate_succ', List.foldl_cons,
      List.foldl_nil, push_replicate_up]

/-- What is canonical is left as it is: the steps up stay, and what stands for itself is kept. -/
theorem Canonical.normalize_eq (h : Canonical segments) : normalize segments = segments := by
  obtain ⟨n, rest, rfl, hrest⟩ := h
  rw [normalize_eq_foldl, List.foldl_append, foldl_push_replicate_up,
    foldl_push_of_ordinary hrest, List.reverse_append, List.reverse_reverse,
    List.reverse_replicate]

/-- Segments that all stand for themselves are canonical, without a step up. -/
theorem canonical_of_ordinary (h : ∀ s ∈ segments, Ordinary s) : Canonical segments :=
  ⟨0, segments, rfl, h⟩

/-- Canonical segments that do not begin with a `..` stand for themselves. -/
theorem Canonical.ordinary {first : String} {rest : List String}
    (h : Canonical (first :: rest)) (hfirst : first ≠ "..") :
    ∀ s ∈ first :: rest, Ordinary s := by
  obtain ⟨n, ordinary, heq, hordinary⟩ := h
  -- A `..` in front would be the first segment.
  cases n with
  | zero =>
    rw [heq]
    exact hordinary
  | succ n =>
    rw [List.replicate_succ, List.cons_append] at heq
    exact absurd (List.cons.inj heq).1 hfirst

/-! ### Collapsing in stages -/

/-- A segment may be collapsed with those in front of it before all of them follow others: what
a `..` takes back is the segment right in front of it either way. -/
theorem foldl_push_push (h : Canonical stack.reverse) (segment : String) (before : List String) :
    (push stack segment).reverse.foldl push before
      = push (stack.reverse.foldl push before) segment := by
  rw [List.foldl_reverse, List.foldl_reverse]
  rcases void_or_up_or_ordinary segment with hvoid | rfl | hordinary
  · rw [push_of_isVoid hvoid, push_of_isVoid hvoid]
  · obtain ⟨n, rest, rfl, hrest⟩ := canonical_reverse_iff.mp h
    cases rest with
    | nil =>
      -- Nothing here can be taken back, so the `..` itself meets what comes in front.
      rw [List.nil_append, push_replicate_up, List.replicate_succ, List.foldr_cons]
    | cons top rest =>
      have htop := (List.forall_mem_cons.mp hrest).1
      simp only [List.cons_append, List.foldr_cons, htop.push_eq, htop.push_up]
  · rw [hordinary.push_eq, List.foldr_cons]

/-- What is collapsed on a canonical stack may follow others before or after being collapsed. This
is by induction on the segments, with `foldl_push_push` as the step. -/
theorem foldl_push_foldl_push (segments before : List String) : ∀ {stack : List String},
    Canonical stack.reverse → (segments.foldl push stack).reverse.foldl push before
      = segments.foldl push (stack.reverse.foldl push before) := by
  induction segments with
  | nil => exact fun _ => rfl
  | cons segment rest ih =>
    intro stack h
    rw [List.foldl_cons, List.foldl_cons, ih (canonical_push h segment), foldl_push_push h]

/-- Whatever they follow, collapsed segments do the same to it as those that they come from. -/
theorem foldl_push_normalize (segments before : List String) :
    (normalize segments).foldl push before = segments.foldl push before := by
  rw [normalize_eq_foldl]
  exact foldl_push_foldl_push segments before ⟨0, [], rfl, List.forall_mem_nil _⟩

/-- Segments that are collapsed already may stand in for those that they come from. -/
theorem normalize_append (segments rest : List String) :
    normalize (segments ++ rest) = normalize (normalize segments ++ rest) := by
  simp only [normalize_eq_foldl (_ ++ _), List.foldl_append, foldl_push_normalize]

/-- The second of two lists may be collapsed before both are. This is the harder of the two
directions, as its steps up may lead out of it into the first list. -/
theorem normalize_append_normalize (segments rest : List String) :
    normalize (segments ++ normalize rest) = normalize (segments ++ rest) := by
  simp only [normalize_eq_foldl (_ ++ _), List.foldl_append, foldl_push_normalize]

/-- A segment that vanishes does so in the middle of others as well. -/
theorem normalize_append_cons_of_isVoid (h : isVoid segment = true) (rest : List String) :
    normalize (segments ++ segment :: rest) = normalize (segments ++ rest) := by
  simp only [normalize_eq_foldl, List.foldl_append, List.foldl_cons, push_of_isVoid h]

/-- Collapsed segments have a canonical form: some `..`, and after them segments of which none is
empty, `.`, `/` or `..`. The lists of this form are those that collapsing leaves as they are, and
two lists one after the other collapse to what they collapse to after each of them was. -/
theorem normalize_canonical_form (segments rest : List String) :
    (∃ n own, normalize segments = List.replicate n ".." ++ own ∧
      ∀ s ∈ own, s ∉ ["", ".", "/", ".."]) ∧
    (normalize segments = segments ↔ ∃ n own, segments = List.replicate n ".." ++ own ∧
      ∀ s ∈ own, s ∉ ["", ".", "/", ".."]) ∧
    normalize (segments ++ rest) = normalize (normalize segments ++ normalize rest) := by
  refine ⟨canonical_iff.mp (canonical_normalize segments), ?_, ?_⟩
  · rw [← canonical_iff]
    exact ⟨fun h => h ▸ canonical_normalize segments, Canonical.normalize_eq⟩
  · rw [normalize_append_normalize, ← normalize_append]

/-- What is left of the steps up of one part takes back segments of the part in front of it. -/
example : normalize (["src", ".", "lib"] ++ ["a", "..", "..", "..", "", "..", "b"]) = ["..", "b"] ∧
    normalize ["a", "..", "..", "..", "", "..", "b"] = ["..", "..", "..", "b"] := by
  decide

/-! ### The file of a module -/

/-- Taking a suffix off brings in no slash. -/
theorem not_mem_withoutSuffix (h : '/' ∉ segment.toList) :
    '/' ∉ (withoutSuffix segment).toList := by
  unfold withoutSuffix
  dsimp only
  split
  · exact Path.not_mem_stem segment
  · exact h

/-- The suffix of a module makes a segment of whatever stands in front of it. -/
theorem ordinary_append_suffix (name : String) : Ordinary (name ++ ".ts") := by
  rw [ordinary_iff]
  intro hmem
  have hshort : ∀ t ∈ ["", ".", "/", ".."], t.length < ".ts".length := by decide
  have hlength := hshort _ hmem
  rw [String.length_append] at hlength
  omega

/-- The file that a relative specifier denotes: the collapsed segments stand for themselves,
and the last one has the suffix of a module, whatever the specifier is like. -/
theorem of_localModule?_eq_some {source specifier path : String}
    (hsource : ∀ s ∈ directory source, '/' ∉ s.toList)
    (h : localModule? source specifier = some path) :
    ∃ init last, normalize (directory source ++ splitSlashes specifier) = init ++ [last] ∧
      splitSlashes path = init ++ [withoutSuffix last ++ ".ts"] ∧
      ∀ s ∈ splitSlashes path, Ordinary s := by
  unfold localModule? at h
  split at h
  · split at h
    · cases h
    · rename_i first rest hnormal
      split at h
      · cases h
      · rename_i hfirst
        have hordinary : ∀ s ∈ first :: rest, Ordinary s :=
          (hnormal ▸ canonical_normalize _).ordinary hfirst
        have hslash : ∀ s ∈ first :: rest, '/' ∉ s.toList := by
          intro s hs
          rw [← hnormal] at hs
          rcases List.mem_append.mp (mem_normalize hs) with hs | hs
          · exact hsource s hs
          · exact not_mem_of_mem_splitSlashes hs
        obtain ⟨init, last, hconcat⟩ : ∃ init last, first :: rest = init ++ [last] :=
          ⟨_, _, (List.dropLast_concat_getLast (List.cons_ne_nil first rest)).symm⟩
        simp only [hconcat, List.getLast?_concat, Option.getD_some, List.dropLast_concat,
          Option.some.injEq, ← intercalate_concat_append] at h
        rw [hconcat, List.forall_mem_append, List.forall_mem_singleton] at hordinary hslash
        -- Only the last segment changes: its suffix comes off, and one is put on.
        have hsplit : splitSlashes path = init ++ [withoutSuffix last ++ ".ts"] := by
          rw [← h]
          refine splitSlashes_intercalate (by simp) (List.forall_mem_append.mpr ⟨hslash.1, ?_⟩)
          rw [List.forall_mem_singleton, String.toList_append, List.mem_append, not_or]
          exact ⟨not_mem_withoutSuffix hslash.2, by decide⟩
        refine ⟨init, last, hconcat ▸ hnormal, hsplit, ?_⟩
        rw [hsplit, List.forall_mem_append, List.forall_mem_singleton]
        exact ⟨hordinary.1, ordinary_append_suffix _⟩
  · cases h

/-- What makes a specifier relative is a segment that does not stand for itself. -/
theorem exists_not_ordinary (h : isRelative s = true) :
    ∃ segment ∈ splitSlashes s, ¬ Ordinary segment := by
  -- A relative specifier begins with one of two leads, each of which is a segment and a slash.
  rcases Bool.or_eq_true_iff.mp h with h | h
  · obtain ⟨rest, rfl⟩ := Text.hasLead_iff.mp h
    refine ⟨".", ?_, by decide⟩
    rw [show "./" = "." ++ "/" from rfl, splitSlashes_append (by decide)]
    exact List.mem_cons_self
  · obtain ⟨rest, rfl⟩ := Text.hasLead_iff.mp h
    refine ⟨"..", ?_, by decide⟩
    rw [show "../" = ".." ++ "/" from rfl, splitSlashes_append (by decide)]
    exact List.mem_cons_self

/-- A specifier whose segments collapse to those of a file denotes it. -/
theorem localModule?_eq {source specifier last : String} {init : List String}
    (hrelative : isRelative specifier = true)
    (h : normalize (directory source ++ splitSlashes specifier) = init ++ [last])
    (hordinary : ∀ s ∈ init ++ [last], Ordinary s) :
    localModule? source specifier
      = some ("/".intercalate (init ++ [withoutSuffix last ++ ".ts"])) := by
  obtain ⟨first, rest, hcons⟩ : ∃ first rest, init ++ [last] = first :: rest :=
    List.exists_cons_of_ne_nil (by simp)
  have hfirst : first ≠ ".." := (hordinary first (by simp [hcons])).2
  rw [localModule?, if_pos hrelative, h, hcons]
  dsimp only
  rw [if_neg hfirst, ← hcons, List.getLast?_concat, Option.getD_some, List.dropLast_concat,
    intercalate_concat_append]

/-- There is something in front of a suffix. -/
theorem withoutSuffix_ne_empty (h : segment ≠ "") : withoutSuffix segment ≠ "" := by
  unfold withoutSuffix
  dsimp only
  split
  · rename_i hsuffix
    intro hstem
    -- With nothing in front the dot begins a name and no suffix.
    have hfirst : (Path.splitSuffix (Path.ofString segment).name.toList).1 = [] := by
      simpa [Path.stem] using hstem
    rw [Path.suffix, Path.splitSuffix_snd_eq_nil hfirst] at hsuffix
    exact absurd hsuffix (by decide)
  · exact h

end TypedClient.ModulePath
