import Mathlib.Algebra.Group.Nat.Defs
import TypedClient.Json.Reader
import TypedClient.Proofs.Assoc
import TypedClient.Proofs.Value.Text

/-!
# `TypedClient.Proofs.Json.Reader`: what documents written in JSON hold

A text in JSON gives mappings that are keyed by text, and its integers have no more digits
than are read, so that they can be written again.

* `Json.fits_of_mem_tokens`: the scalars among the tokens of a text can be written.
* `Json.Sound`: what holds of a document while it is being read. Each token keeps it.
* `Json.sound_of_read`: the graph that a text gives is keyed by text and writable.
-/

set_option autoImplicit false

namespace TypedClient

namespace Text

/-- The value of a digit is below ten, also if the digit is of another script. Such digits are found
in a table of zeros, and only a zero and the nine characters after it are taken for digits. -/
theorem lt_of_decimalValue? {c : Char} {d : Nat} (h : decimalValue? c = some d) : d < 10 := by
  unfold decimalValue? at h
  split at h
  · -- The digits that are most common are compared without the table.
    rename_i hdigit
    cases h
    have hle : c.val ≤ '9'.val := of_decide_eq_true (Bool.and_eq_true_iff.mp hdigit).2
    have : c.toNat ≤ '9'.toNat := hle
    have hnine : '9'.toNat = '0'.toNat + 9 := rfl
    omega
  · obtain ⟨z, hz, rfl⟩ := Option.map_eq_some_iff.mp h
    have := List.find?_some hz
    simp only [Bool.and_eq_true, decide_eq_true_eq] at this
    omega

/-- The number of digits bounds the number. Leading zeros count as digits, so this is a bound and
not the length of the number. -/
theorem ofDigits_lt {base : Nat} {digits : List Nat} (h : ∀ d ∈ digits, d < base) :
    ofDigits base digits < base ^ digits.length := by
  -- A digit is added to a number that is read already, so the induction needs any such number.
  suffices hall : ∀ n, digits.foldl (fun n d => n * base + d) n < (n + 1) * base ^ digits.length by
    simpa [ofDigits] using hall 0
  induction digits with
  | nil => simp
  | cons d rest ih =>
    intro n
    obtain ⟨hd, hrest⟩ := List.forall_mem_cons.mp h
    have hstep : n * base + d + 1 ≤ (n + 1) * base := by
      rw [Nat.add_mul, Nat.one_mul]
      omega
    calc rest.foldl (fun n d => n * base + d) (n * base + d)
        < (n * base + d + 1) * base ^ rest.length := ih hrest _
      _ ≤ (n + 1) * base * base ^ rest.length := Nat.mul_le_mul_right _ hstep
      _ = (n + 1) * base ^ (d :: rest).length := by
        rw [List.length_cons, Nat.pow_succ, Nat.mul_assoc, Nat.mul_comm base]

end Text

namespace Json

/-! ### Tokens -/

/-- A number of so many digits is below that power of ten. Characters that are no digits are left
out, which makes the number smaller. -/
theorem natOf_lt (digits : List Char) : natOf digits < 10 ^ digits.length := by
  have hlen : (digits.filterMap Text.decimalValue?).length ≤ digits.length :=
    List.length_filterMap_le _ _
  refine Nat.lt_of_lt_of_le (Text.ofDigits_lt fun d hd => ?_)
    (Nat.pow_le_pow_right (by decide) hlen)
  obtain ⟨c, -, hc⟩ := List.mem_filterMap.mp hd
  exact Text.lt_of_decimalValue? hc

/-- The token is no scalar, or one that can be written. -/
def Token.Fits (t : Token) : Prop := ∀ v, t = .scalar v → v.fits = true

/-- An integer that is read has no more digits than can be written again, whatever its sign. So the
limit on reading and the limit on writing are one, and a document that is read can be written. -/
theorem fits_integer {digits : List Char} (h : ¬ Text.maxDecimalDigits < digits.length)
    (negative : Bool) :
    (Value.int (if negative then -(natOf digits : Int) else natOf digits)).fits = true := by
  have habs : (if negative then -(natOf digits : Int) else natOf digits).natAbs = natOf digits := by
    cases negative <;> simp
  simp only [Value.fits, habs, decide_eq_true_eq]
  unfold integerLimit
  -- The limit is kept as a name, since the power itself is too long to compute with.
  generalize Text.maxDecimalDigits = k at h ⊢
  exact Nat.lt_of_lt_of_le (natOf_lt digits)
    (Nat.pow_le_pow_right (by decide) (Nat.le_of_not_lt h))

/-- A number among the tokens can be written: an integer that is too long is no scalar but a fault,
and what has a fraction or an exponent is a double. -/
theorem fits_number (negative : Bool) (cs : List Char) : (number negative cs).1.Fits := by
  unfold number
  split
  -- The two cases differ in whether there is a fraction or an exponent.
  all_goals
    dsimp only
    split
    · exact fun v hv => nomatch hv
    · split
      · split
        · exact fun v hv => nomatch hv
        · rename_i hlen
          intro v hv
          cases hv
          exact fits_integer hlen negative
      · intro v hv
        cases hv
        rfl

/-- The words for truth values, null and the numbers without digits can be written. -/
theorem fits_words : ∀ w ∈ words, w.2.fits = true := by
  decide

/-- The token that characters begin with can be written, if it is a scalar. -/
theorem fits_token (cs : List Char) : (token cs).1.Fits := by
  unfold token
  split
  · exact fun v hv => nomatch hv
  · exact fun v hv => nomatch hv
  · exact fun v hv => nomatch hv
  · exact fun v hv => nomatch hv
  · exact fun v hv => nomatch hv
  · exact fun v hv => nomatch hv
  · -- A quote begins a text, which is a token of its own kind.
    split <;> exact fun v hv => nomatch hv
  · -- What is left is a number, with a sign or without.
    split
    · rename_i v rest hword
      intro w hw
      cases hw
      -- The scalar is that of one of the words.
      obtain ⟨word, hmem, hword⟩ := List.exists_of_findSome?_eq_some hword
      obtain ⟨_, -, hword⟩ := Option.map_eq_some_iff.mp hword
      cases hword
      exact fits_words word hmem
    · split
      · exact fits_number true _
      · exact fits_number false _

/-- Each scalar among the tokens of a text fits. The induction is on the count of tokens that there
is at most, and runs over all texts, since each token leaves another one. -/
theorem fits_of_mem_tokens {cs : List Char} : ∀ t ∈ tokens cs, t.Fits := by
  suffices hall : ∀ fuel cs, ∀ t ∈ tokensWithin fuel cs, t.Fits from hall _ cs
  intro fuel
  induction fuel with
  | zero => exact fun _ _ h => nomatch h
  | succ fuel ih =>
    intro cs t ht
    unfold tokensWithin at ht
    split at ht
    · cases ht
    · split at ht
      · rw [List.mem_singleton.mp ht]
        exact fun v hv => nomatch hv
      · rename_i htoken
        -- The token is the first one, or one of those after it.
        rcases List.mem_cons.mp ht with rfl | ht
        · have := fits_token (cs.dropWhile isSpace)
          rwa [htoken] at this
        · exact ih _ t ht

/-! ### Reading -/

/-- The node is keyed by text and holds nothing that cannot be written. -/
def Clean (node : Node) : Prop :=
  (∀ v ∈ node.values, v.fits = true) ∧ ∀ k ∈ node.keys, k.text?.isSome = true

/-- What an open collection holds can be written, and its keys so far are text. -/
def Frame.Clean : Frame → Prop
  | .list items => ∀ v ∈ items, v.fits = true
  | .map entries _ => ∀ e ∈ entries, e.1.text?.isSome = true ∧ e.2.fits = true

/-- The key that a value is about to be put under is text. -/
def Frame.Keyed : Frame → Prop
  | .list _ => True
  | .map _ key => key.text?.isSome = true

/-- What holds of a document while it is being read. A mapping that was just opened has no
key yet, so the innermost collection has one only where no first key is due. -/
structure Sound (r : Reading) : Prop where
  nodes : ∀ node ∈ r.nodes.toList, Clean node
  frames : ∀ frame ∈ r.frames, frame.Clean
  outer : ∀ frame ∈ r.frames.tail, frame.Keyed
  inner : r.expectation ≠ .keyOrEnd → ∀ frame ∈ r.frames.head?, frame.Keyed

variable {r r' : Reading} {t : Token} {v : Value}

/-- Nothing is read at the start, so nothing is there to be unsound. -/
theorem sound_start : Sound Reading.start where
  nodes _ h := nomatch h
  frames _ h := nomatch h
  outer _ h := nomatch h
  inner _ _ h := nomatch h

/-- A value that can be written may be completed where a key is there for it. It becomes the root,
or the next item of a list, or the value of the key that a mapping waits with. -/
theorem Sound.complete (h : Sound r) (hv : v.fits = true)
    (hkey : ∀ frame ∈ r.frames.head?, frame.Keyed) : Sound (r.complete v) := by
  obtain ⟨hnodes, hframes, houter, -⟩ := h
  unfold Reading.complete
  split
  · -- No collection is open: the value is the root.
    rename_i hnone
    rw [hnone] at hframes houter hkey
    exact ⟨hnodes, hnone ▸ hframes, hnone ▸ houter, fun _ => hnone ▸ hkey⟩
  · -- The innermost collection is a list, which the value joins.
    rename_i items outer hsome
    rw [hsome, List.forall_mem_cons] at hframes
    rw [hsome] at houter
    refine ⟨hnodes, List.forall_mem_cons.mpr ⟨?_, hframes.2⟩, houter, fun _ frame hframe => ?_⟩
    · exact List.forall_mem_cons.mpr ⟨hv, hframes.1⟩
    · cases hframe
      trivial
  · -- It is a mapping, which has the value under the key that it waits with.
    rename_i entries key outer hsome
    rw [hsome, List.forall_mem_cons] at hframes
    rw [hsome] at houter hkey
    have hthere : key.text?.isSome = true := hkey _ rfl
    refine ⟨hnodes, List.forall_mem_cons.mpr ⟨fun e he => ?_, hframes.2⟩, houter,
      fun _ frame hframe => ?_⟩
    · -- A key that is put a second time keeps its place, and is the text that it was.
      rcases Assoc.mem_of_mem_putBy he with he | ⟨hvalue, he | ⟨-, he⟩⟩
      · exact hframes.1 e he
      · exact ⟨he ▸ hthere, hvalue ▸ hv⟩
      · obtain ⟨e', he', hkeys⟩ := List.mem_map.mp he
        exact ⟨hkeys ▸ (hframes.1 e' he').1, hvalue ▸ hv⟩
    · cases hframe
      exact hthere

/-- A key that is a text is no integer, so it can be written. -/
theorem fits_of_isText {k : Value} (h : k.text?.isSome = true) : k.fits = true := by
  cases k <;> simp_all [Value.text?, Value.fits]

/-- Closing the innermost collection makes a node of what it holds. What is around it had a key
ready for it before it was opened, which is why `outer` is about all collections but the
innermost. -/
theorem Sound.close (h : Sound r) {node : Node} {frame : Frame} {outer : List Frame}
    (hframes : r.frames = frame :: outer) (hnode : Clean node) : Sound (r.close node outer) := by
  obtain ⟨hnodes, hclean, houter, -⟩ := h
  rw [hframes] at hclean houter
  have hhead : ∀ frame ∈ outer.head?, frame.Keyed :=
    fun frame hframe => houter frame (List.mem_of_mem_head? hframe)
  refine Sound.complete ⟨?_, ?_, ?_, fun _ => hhead⟩ rfl hhead
  · rw [Array.toList_push, List.forall_mem_append, List.forall_mem_singleton]
    exact ⟨hnodes, hnode⟩
  · exact fun frame hframe => hclean frame (List.mem_cons_of_mem _ hframe)
  · exact fun frame hframe => houter frame (List.mem_of_mem_tail hframe)

/-- A bracket or a brace that closes a collection keeps the document sound. -/
theorem Sound.takeEnd (h : Sound r) (hr : r.takeEnd t = .ok r') : Sound r' := by
  unfold Reading.takeEnd at hr
  split at hr
  · rename_i items outer hframes
    cases hr
    refine h.close hframes ⟨fun v hv => ?_, fun _ hk => nomatch hk⟩
    have hclean := h.frames _ (hframes ▸ List.mem_cons_self)
    exact hclean v (List.mem_reverse.mp hv)
  · -- The entries of a mapping are values and keys, and a key is a text.
    rename_i entries key outer hframes
    cases hr
    have hclean := h.frames _ (hframes ▸ List.mem_cons_self)
    refine h.close hframes ⟨fun v hv => ?_, fun k hk => ?_⟩
    · obtain ⟨e, he, hv⟩ := List.mem_flatMap.mp hv
      simp only [List.mem_cons, List.not_mem_nil, or_false] at hv
      rcases hv with rfl | rfl
      · exact fits_of_isText (hclean e he).1
      · exact (hclean e he).2
    · obtain ⟨e, he, rfl⟩ := List.mem_map.mp hk
      exact (hclean e he).1
  · cases hr

/-- The key of a mapping is a text, as nothing else is taken for one. -/
theorem Sound.takeKey (h : Sound r) (hr : r.takeKey t = .ok r') : Sound r' := by
  unfold Reading.takeKey at hr
  split at hr
  · rename_i entries key outer s hframes
    cases hr
    obtain ⟨hnodes, hclean, houter, -⟩ := h
    rw [hframes, List.forall_mem_cons] at hclean
    rw [hframes] at houter
    refine ⟨hnodes, List.forall_mem_cons.mpr ⟨hclean.1, hclean.2⟩, houter, fun _ frame hframe => ?_⟩
    cases hframe
    rfl
  · cases hr

/-- A value keeps the document sound where one is due: a scalar is completed at once, and a
collection is opened, inside of those that wait for it with a key. -/
theorem Sound.takeValue (h : Sound r) (hexpected : r.expectation ≠ .keyOrEnd) (ht : t.Fits)
    (hr : r.takeValue t = .ok r') : Sound r' := by
  have hkeyed := h.inner hexpected
  -- Whatever is opened now is inside of collections that all have a key ready.
  have hall : ∀ frame ∈ r.frames, frame.Keyed := by
    cases hframes : r.frames with
    | nil => exact List.forall_mem_nil _
    | cons frame outer =>
      have houter := h.outer
      rw [hframes] at hkeyed houter
      exact List.forall_mem_cons.mpr ⟨hkeyed frame rfl, houter⟩
  unfold Reading.takeValue at hr
  split at hr
  · cases hr
    exact h.complete rfl hkeyed
  · cases hr
    exact h.complete (ht _ rfl) hkeyed
  · cases hr
    refine ⟨h.nodes, List.forall_mem_cons.mpr ⟨List.forall_mem_nil _, h.frames⟩, hall,
      fun _ frame hframe => ?_⟩
    cases hframe
    trivial
  · -- A mapping that is opened waits for its first key.
    cases hr
    exact ⟨h.nodes, List.forall_mem_cons.mpr ⟨List.forall_mem_nil _, h.frames⟩, hall,
      fun hne => absurd rfl hne⟩
  · cases hr
  · cases hr

/-- One token keeps the document sound, whatever is expected. There is a case for each expectation,
and a token that is not expected ends the reading. -/
theorem Sound.take (h : Sound r) (ht : t.Fits) (hr : r.take t = .ok r') : Sound r' := by
  -- What is expected next matters only where no key is there yet.
  have hmove : ∀ {expectation : Expectation}, r.expectation ≠ .keyOrEnd →
      Sound { r with expectation := expectation } := fun hexpected =>
    ⟨h.nodes, h.frames, h.outer, fun _ => h.inner hexpected⟩
  unfold Reading.take at hr
  split at hr
  · rename_i hexpected
    exact h.takeValue (by simp [hexpected]) ht hr
  · rename_i hexpected
    split at hr
    · exact h.takeEnd hr
    · exact h.takeValue (by simp [hexpected]) ht hr
  · exact h.takeKey hr
  · split at hr
    · exact h.takeEnd hr
    · exact h.takeKey hr
  · rename_i hexpected
    split at hr
    · cases hr
      exact hmove (by simp [hexpected])
    · cases hr
  · rename_i hexpected
    split at hr
    · split at hr
      · cases hr
        exact hmove (by simp [hexpected])
      · cases hr
        exact hmove (by simp [hexpected])
    · exact h.takeEnd hr
  · cases hr

/-- A row of tokens keeps the document sound, by what one of them does. -/
theorem Sound.foldlM {ts : List Token} (h : Sound r) (ht : ∀ t ∈ ts, t.Fits)
    (hr : ts.foldlM Reading.take r = .ok r') : Sound r' := by
  induction ts generalizing r with
  | nil =>
    cases hr
    exact h
  | cons t rest ih =>
    obtain ⟨hfirst, hrest⟩ := List.forall_mem_cons.mp ht
    rw [List.foldlM_cons] at hr
    obtain ⟨next, hnext, hr⟩ := bind_eq_ok_iff.mp hr
    exact ih (h.take hfirst hnext) hrest hr

/-- The graph that a text in JSON gives is keyed by text, and everything in it can be written. So of
the causes for which a document cannot be read those two are left to YAML. -/
theorem sound_of_read {s : String} {d : Data} (h : read s = .ok d) :
    d.graph.TextKeyed ∧ d.graph.Writable := by
  obtain ⟨r, hr, h⟩ := bind_eq_ok_iff.mp h
  have hsound := sound_start.foldlM (fun t => fits_of_mem_tokens t) hr
  split at h
  · cases h
    exact ⟨fun node hnode => (hsound.nodes node hnode).2,
      fun node hnode => (hsound.nodes node hnode).1⟩
  · cases h

end Json

end TypedClient
