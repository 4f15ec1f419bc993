import TypedClient.Log

/-!
# `TypedClient.Proofs.Log`: what computations with notes and work come to

The notes that a computation takes have no part in what comes of it. Work changes a state
besides, and what it has changed stays when it fails. Four things are said of work: what
it gives if it succeeds, that it fails, what it keeps in either case, and what it does not look
at. Each is put together along `>>=`.

* `Logged.bind_ok_iff`, `Logged.bind_error_iff`: the outcome of two computations in a row.
* `Work.Gives`: from a state, work succeeds with a result and leaves a state.
* `Work.Fails`: from a state, work fails.
* `Work.Keeps`: work leaves a property of the state as it was, also when it fails.
* `Work.Respects`: work does not look at what related states differ in.
-/

set_option autoImplicit false

namespace TypedClient

/-- A success has a result, which most statements about a computation speak of by name. -/
theorem exists_of_isOk {ε α : Type} {x : Except ε α} (h : x.isOk = true) : ∃ a, x = .ok a := by
  cases x with
  | error e => cases h
  | ok a => exact ⟨a, rfl⟩

/-! ### Results in a row -/

section MapM

variable {ε α β : Type} {f : α → Except ε β} {l : List α} {bs : List β} {e : ε}

/-- What is made of a result fails exactly if the result does. -/
theorem bind_pure_eq_error_iff {x : Except ε α} {k : α → β} :
    (do let a ← x; pure (k a)) = .error e ↔ x = .error e := by
  rw [bind_eq_error_iff]
  refine or_iff_left ?_
  rintro ⟨_, -, h⟩
  cases h

/-- One of several results that fail together fails, and with the same failure: the first one that
does, though which one it is does not matter where this is used. -/
theorem exists_of_mapM_eq_error (h : l.mapM f = .error e) : ∃ a ∈ l, f a = .error e := by
  induction l with
  | nil => cases h
  | cons a rest ih =>
    simp only [List.mapM_cons, bind_eq_error_iff] at h
    rcases h with h | ⟨b, -, h | ⟨bs, -, h⟩⟩
    · exact ⟨a, List.mem_cons_self, h⟩
    · obtain ⟨a', ha', h⟩ := ih h
      exact ⟨a', List.mem_cons_of_mem _ ha', h⟩
    · cases h

/-- Each of several results comes from one of the arguments. With `exists_result_of_mapM_eq_ok` this
carries a property that holds of one step to all that a list of steps makes. -/
theorem exists_of_mem_of_mapM_eq_ok {b : β} (h : l.mapM f = .ok bs) (hb : b ∈ bs) :
    ∃ a ∈ l, f a = .ok b := by
  induction l generalizing bs with
  | nil =>
    cases h
    cases hb
  | cons a rest ih =>
    simp only [List.mapM_cons, bind_eq_ok_iff] at h
    obtain ⟨b', hb', bs, hbs, h⟩ := h
    cases h
    -- The result is that of the first argument, or one of the others.
    rcases List.mem_cons.mp hb with rfl | hb
    · exact ⟨a, List.mem_cons_self, hb'⟩
    · obtain ⟨a', ha', h⟩ := ih hbs hb
      exact ⟨a', List.mem_cons_of_mem _ ha', h⟩

/-- Each argument has one of the results: where all steps succeed together, none of them is left
out. -/
theorem exists_result_of_mapM_eq_ok {a : α} (h : l.mapM f = .ok bs) (ha : a ∈ l) :
    ∃ b ∈ bs, f a = .ok b := by
  induction l generalizing bs with
  | nil => cases ha
  | cons a' rest ih =>
    simp only [List.mapM_cons, bind_eq_ok_iff] at h
    obtain ⟨b, hb, bs, hbs, h⟩ := h
    cases h
    rcases List.mem_cons.mp ha with rfl | ha
    · exact ⟨b, List.mem_cons_self, hb⟩
    · obtain ⟨b', hb', h⟩ := ih hbs ha
      exact ⟨b', List.mem_cons_of_mem _ hb', h⟩

end MapM

/-- Several steps have no result together exactly if one of them has none. Unlike failures, which
are told apart, there is only one way of having no result, so this is an equivalence. -/
theorem mapM_eq_none_iff {α β : Type} {g : α → Option β} {l : List α} :
    l.mapM g = none ↔ ∃ a ∈ l, g a = none := by
  induction l with
  | nil => simp
  | cons a rest ih =>
    rw [List.mapM_cons]
    cases ha : g a <;> cases hrest : rest.mapM g <;> simp_all

namespace Logged

variable {α β : Type} {x : Logged α} {f : α → Logged β} {b : β} {e : Failure}

/-- Two computations in a row succeed exactly if both do, the second one on the result of the first.
The notes of the first have no part in that. -/
theorem bind_ok_iff :
    (x >>= f).outcome = .ok b ↔ ∃ a, x.outcome = .ok a ∧ (f a).outcome = .ok b := by
  rw [outcome_bind, bind_eq_ok_iff]

/-- Two computations in a row fail exactly if the first one does, or else the second one on its
result. -/
theorem bind_error_iff : (x >>= f).outcome = .error e ↔
    x.outcome = .error e ∨ ∃ a, x.outcome = .ok a ∧ (f a).outcome = .error e := by
  rw [outcome_bind, bind_eq_error_iff]

/-- What goes on after a success takes its notes after those of the success. After a failure there
is nothing that goes on, and the notes are those of the failure alone. -/
theorem notes_bind_ok {a : α} (h : x.outcome = .ok a) :
    (x >>= f).notes = x.notes ++ (f a).notes := by
  rcases x with ⟨outcome, notes⟩
  cases h
  rfl

end Logged

namespace Work

variable {σ α β : Type} {s t : σ} {a : α} {b : β} {e : Failure}

/-- From the state `s` the work succeeds with the result `a` and leaves the state `t`. -/
def Gives (x : Work σ α) (s : σ) (a : α) (t : σ) : Prop :=
  (x.run s).2.outcome = .ok a ∧ (x.run s).1 = t

/-- From the state `s` the work fails. -/
def Fails (x : Work σ α) (s : σ) (e : Failure) : Prop := (x.run s).2.outcome = .error e

/-- The work leaves a state with the property if it begins in one. -/
def Keeps (x : Work σ α) (P : σ → Prop) : Prop := ∀ s, P s → P (x.run s).1

/-- The outcome of work in a row. The second part begins with the state that the first one leaves,
which is why the run of the first stands in what the second is given. -/
theorem outcome_run_bind (x : Work σ α) (f : α → Work σ β) (s : σ) :
    ((x >>= f).run s).2.outcome
      = (x.run s).2.outcome >>= fun a => ((f a).run (x.run s).1).2.outcome := by
  rcases hx : x.run s with ⟨t, outcome, notes⟩
  -- What comes next runs only after a success, so the two outcomes are two equations of a run.
  cases outcome with
  | error e => rw [run_bind_error hx]; rfl
  | ok a => rw [run_bind_ok hx]; rfl

/-- The state that work in a row leaves. A failure of the first part ends the work, but what the
part has changed until then stays. -/
theorem fst_run_bind (x : Work σ α) (f : α → Work σ β) (s : σ) :
    ((x >>= f).run s).1 = match (x.run s).2.outcome with
      | .ok a => ((f a).run (x.run s).1).1
      | .error _ => (x.run s).1 := by
  rcases hx : x.run s with ⟨t, outcome, notes⟩
  cases outcome with
  | error e => rw [run_bind_error hx]
  | ok a => rw [run_bind_ok hx]

/-! ### Success -/

/-- Work in a row gives a result by way of a result and a state in between. Statements about what a
method or a declaration gives are taken apart with this, one part after the other. -/
theorem gives_bind_iff {x : Work σ α} {f : α → Work σ β} :
    (x >>= f).Gives s b t ↔ ∃ a u, x.Gives s a u ∧ (f a).Gives u b t := by
  unfold Gives
  rw [outcome_run_bind, fst_run_bind]
  -- The first part decides whether there is a second one.
  cases (x.run s).2.outcome with
  | error e =>
    constructor
    · rintro ⟨h, -⟩
      cases h
    · rintro ⟨a, u, ⟨h, -⟩, -⟩
      cases h
  | ok a =>
    constructor
    · exact fun h => ⟨a, _, ⟨rfl, rfl⟩, h⟩
    · rintro ⟨a', u, ⟨h, rfl⟩, hf⟩
      cases h
      exact hf

/-- Work gives one result from a state and leaves one state, so two accounts of a run can be
compared. -/
theorem Gives.unique {x : Work σ α} {a' : α} {t' : σ} (h : x.Gives s a t) (h' : x.Gives s a' t') :
    a = a' ∧ t = t' :=
  ⟨Except.ok.inj (h.1.symm.trans h'.1), h.2.symm.trans h'.2⟩

/-- A run that ends with a result of a certain look gives such a result. Runs on fixed inputs are
evaluated for a part of their result only, which is what this is for. -/
theorem exists_gives_of_map {x : Work σ α} {f : α → β} (h : (x.run s).2.outcome.map f = .ok b) :
    ∃ a t, x.Gives s a t ∧ f a = b := by
  cases houtcome : (x.run s).2.outcome with
  | error e =>
    rw [houtcome] at h
    cases h
  | ok a =>
    rw [houtcome] at h
    exact ⟨a, _, ⟨houtcome, rfl⟩, Except.ok.inj h⟩

/-- Work that does nothing gives its result in every state, and leaves the state as it is. -/
@[simp] theorem gives_pure_iff {a' : α} : (pure a : Work σ α).Gives s a' t ↔ a = a' ∧ s = t := by
  simp [Gives]

/-- Looking at the state gives the state itself. -/
@[simp] theorem gives_state_iff {s' : σ} : (state : Work σ σ).Gives s s' t ↔ s = s' ∧ s = t := by
  simp [Gives]

/-- A change leaves the changed state. Its result says nothing. -/
@[simp] theorem gives_change_iff {f : σ → σ} {u : Unit} :
    (change f).Gives s u t ↔ f s = t := by
  simp [Gives]

/-- A computation that takes notes is work that does not touch the state. -/
@[simp] theorem gives_ofLogged_iff {x : Logged α} :
    (ofLogged x).Gives s a t ↔ x.outcome = .ok a ∧ s = t := by
  simp [Gives]

/-! ### Failure -/

/-- Work in a row fails exactly if the first part fails, or gives a result and a state on which the
second part fails. -/
theorem fails_bind_iff {x : Work σ α} {f : α → Work σ β} :
    (x >>= f).Fails s e ↔ x.Fails s e ∨ ∃ a u, x.Gives s a u ∧ (f a).Fails u e := by
  unfold Fails Gives
  rw [outcome_run_bind, bind_eq_error_iff]
  refine or_congr_right (exists_congr fun a => ?_)
  constructor
  · exact fun ⟨ha, hf⟩ => ⟨_, ⟨ha, rfl⟩, hf⟩
  · rintro ⟨u, ⟨ha, rfl⟩, hf⟩
    exact ⟨ha, hf⟩

/-- Work that does nothing does not fail. -/
@[simp] theorem not_fails_pure : ¬ (pure a : Work σ α).Fails s e := by
  simp [Fails]

/-- Looking at the state does not fail. -/
@[simp] theorem not_fails_state : ¬ (state : Work σ σ).Fails s e := by
  simp [Fails]

/-- A change does not fail, so all failures of work come from computations in it. -/
@[simp] theorem not_fails_change {f : σ → σ} : ¬ (change f).Fails s e := by
  simp [Fails]

/-- A computation that takes notes fails as work exactly if it fails by itself. -/
@[simp] theorem fails_ofLogged_iff {x : Logged α} :
    (ofLogged x).Fails s e ↔ x.outcome = .error e := by
  simp [Fails]

/-! ### What is kept -/

variable {P : σ → Prop}

/-- Work in a row keeps what its parts keep. The second part has to keep it for every result of the
first, and nothing is asked about failures: a state that the first part leaves in failing has the
property as well. -/
theorem Keeps.bind {x : Work σ α} {f : α → Work σ β} (hx : x.Keeps P)
    (hf : ∀ a, (f a).Keeps P) : (x >>= f).Keeps P := by
  intro s hs
  rw [fst_run_bind]
  cases (x.run s).2.outcome with
  | error e => exact hx s hs
  | ok a => exact hf a _ (hx s hs)

/-- Work that looks at the state may use that it has the property. `Keeps.bind` would not do here,
since the work that comes of another state than the one at hand need not keep anything. -/
theorem keeps_state_bind {f : σ → Work σ β} (hf : ∀ s, P s → P ((f s).run s).1) :
    (state >>= f).Keeps P := by
  intro s hs
  rw [fst_run_bind]
  exact hf s hs

/-- Work that does nothing keeps every property. -/
theorem keeps_pure (a : α) : (pure a : Work σ α).Keeps P := fun _ hs => hs

/-- A computation that takes notes keeps every property, whether it fails or not. -/
theorem keeps_ofLogged (x : Logged α) : (ofLogged x : Work σ α).Keeps P := fun _ hs => hs

/-- What work keeps holds of the state that it leaves along with its result. -/
theorem Gives.keeps {x : Work σ α} (h : x.Gives s a t) (hx : x.Keeps P) (hs : P s) : P t :=
  h.2 ▸ hx s hs

/-! ### What is not looked at -/

variable {R : σ → σ → Prop}

/-- From related states the work has the same result and leaves related states, so it does not
look at what the states differ in. -/
def Respects (x : Work σ α) (R : σ → σ → Prop) : Prop :=
  ∀ s t, R s t → (x.run s).2.outcome = (x.run t).2.outcome ∧ R (x.run s).1 (x.run t).1

/-- Work in a row looks at nothing that its parts do not look at. The results of the first part are
the same from related states, so the second part is the same work on either side. -/
theorem Respects.bind {x : Work σ α} {f : α → Work σ β} (hx : x.Respects R)
    (hf : ∀ a, (f a).Respects R) : (x >>= f).Respects R := by
  intro s t hst
  obtain ⟨houtcome, hnext⟩ := hx s t hst
  rw [outcome_run_bind, outcome_run_bind, fst_run_bind, fst_run_bind, houtcome]
  -- By now the two sides agree on whether the first part succeeds, and on its result.
  cases (x.run t).2.outcome with
  | error e => exact ⟨rfl, hnext⟩
  | ok a =>
    exact hf a _ _ hnext

/-- Work that looks at the state may look at what related states have in common: the work that comes
of either state has to be the same work. -/
theorem respects_state_bind {f : σ → Work σ β}
    (hf : ∀ s t, R s t → f s = f t ∧ (f s).Respects R) : (state >>= f).Respects R := by
  intro s t hst
  obtain ⟨heq, hrespects⟩ := hf s t hst
  rw [outcome_run_bind, outcome_run_bind, fst_run_bind, fst_run_bind]
  show ((f s).run s).2.outcome = ((f t).run t).2.outcome ∧ R ((f s).run s).1 ((f t).run t).1
  -- Both states make the same work, so one account of what it looks at will do.
  rw [← heq]
  exact hrespects s t hst

/-- A change that takes related states to related ones looks at nothing else. -/
theorem respects_change {f : σ → σ} (hf : ∀ s t, R s t → R (f s) (f t)) :
    (change f).Respects R := fun s t hst => ⟨rfl, hf s t hst⟩

/-- Work that does nothing does not look at the state. -/
theorem respects_pure (a : α) : (pure a : Work σ α).Respects R := fun _ _ hst => ⟨rfl, hst⟩

/-- A computation that takes notes does not look at the state. -/
theorem respects_ofLogged (x : Logged α) : (ofLogged x : Work σ α).Respects R :=
  fun _ _ hst => ⟨rfl, hst⟩

end Work

end TypedClient
