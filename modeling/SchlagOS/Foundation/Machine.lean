import SchlagOS.Foundation.Outcome

/-!
# Machines and their runs

A machine takes labelled steps that may fail.  `Reach` collects the states of
the runs all of whose steps satisfy a condition on the state before the step;
an invariant is proved once, for one step.  A history is accepted by an
abstract machine when each of its events is allowed in turn.
-/

namespace SchlagOS.Foundation

variable {ε : Type*}

/-! ## Runs -/

structure Machine (σ ι ε : Type*) where
  enabled : σ → ι → Prop
  step : ι → σ → Except ε σ

variable {σ ι : Type*} (M : Machine σ ι ε)

/-- The states of the runs from `start` whose steps all satisfy `ok`. -/
inductive Reach (start : σ) (ok : σ → ι → Prop) : σ → Prop where
  | start : Reach start ok start
  | step {s s' : σ} {l : ι} : Reach start ok s → M.enabled s l → ok s l →
      M.step l s = .ok s' → Reach start ok s'

variable {M} {start s : σ} {ok ok' : σ → ι → Prop}

theorem Reach.invariant {I : σ → Prop} (h : Reach M start ok s) (hstart : I start)
    (hstep : ∀ s l s', Reach M start ok s → I s → M.enabled s l → ok s l →
      M.step l s = .ok s' → I s') : I s := by
  induction h with
  | start => exact hstart
  | step hreach henabled hok hrun ih => exact hstep _ _ _ hreach ih henabled hok hrun

/-- An invariant for which one step is proved by `Meets`. -/
theorem Reach.meets {I : σ → Prop} {bad : σ → ι → ε → Prop} (h : Reach M start ok s)
    (hstart : I start)
    (hstep : ∀ s l, I s → M.enabled s l → ok s l → Meets (M.step l s) I (bad s l)) :
    I s :=
  h.invariant hstart fun s l _ _ hs henabled hok hrun =>
    (hstep s l hs henabled hok).of_ok hrun

theorem Reach.mono (h : Reach M start ok s) (himp : ∀ s l, ok s l → ok' s l) :
    Reach M start ok' s := by
  induction h with
  | start => exact .start
  | step _ henabled hok hrun ih => exact .step ih henabled (himp _ _ hok) hrun

/-- A run satisfies a further condition on its steps that follows from an invariant. -/
theorem Reach.strengthen {I : σ → Prop} (h : Reach M start ok s) (hstart : I start)
    (himp : ∀ s l, I s → ok s l → ok' s l)
    (hstep : ∀ s l s', I s → M.enabled s l → ok s l → M.step l s = .ok s' → I s') :
    Reach M start ok' s ∧ I s := by
  induction h with
  | start => exact ⟨.start, hstart⟩
  | step _ henabled hok hrun ih =>
      obtain ⟨hreach, hI⟩ := ih
      exact ⟨hreach.step henabled (himp _ _ hI hok) hrun, hstep _ _ _ hI henabled hok hrun⟩

/-- Run the steps of a list, as long as they are allowed, and test the last state. -/
def checkRun (M : Machine σ ι ε) [∀ s l, Decidable (M.enabled s l)] (ok : σ → ι → Prop)
    [∀ s l, Decidable (ok s l)] (test : σ → Bool) (s : σ) : List ι → Bool
  | [] => test s
  | l :: rest =>
      decide (M.enabled s l) && (decide (ok s l) &&
        match M.step l s with
        | .ok s' => checkRun M ok test s' rest
        | .error _ => false)

theorem Reach.of_checkRun [∀ s l, Decidable (M.enabled s l)] [∀ s l, Decidable (ok s l)]
    {test : σ → Bool} {steps : List ι} (hstart : Reach M start ok s)
    (h : checkRun M ok test s steps = true) : ∃ s', Reach M start ok s' ∧ test s' = true := by
  induction steps generalizing s with
  | nil => exact ⟨s, hstart, h⟩
  | cons l rest ih =>
      unfold checkRun at h
      rw [Bool.and_eq_true, Bool.and_eq_true, decide_eq_true_eq, decide_eq_true_eq] at h
      obtain ⟨henabled, hok, hrest⟩ := h
      cases hrun : M.step l s with
      | error e =>
          rw [hrun] at hrest
          cases hrest
      | ok s' =>
          rw [hrun] at hrest
          exact ih (hstart.step henabled hok hrun) hrest

/-! ## Observers -/

/-- The machine with an observer that takes notes of the steps and leaves them alone. -/
def Machine.observing {ω : Type*} (M : Machine σ ι ε) (note : ι → σ → σ → ω → ω) :
    Machine (σ × ω) ι ε where
  enabled := fun x l => M.enabled x.1 l
  step := fun l x => (M.step l x.1).map fun s' => (s', note l x.1 s' x.2)

section Observing

variable {ω : Type*} {note : ι → σ → σ → ω → ω} {w w' : ω}

theorem Machine.observing_step {l : ι} {x : σ × ω}
    (h : (M.observing note).step l (s, w) = .ok x) :
    ∃ s', M.step l s = .ok s' ∧ x = (s', note l s s' w) := by
  change (M.step l s).map _ = .ok x at h
  cases hrun : M.step l s with
  | error e =>
      rw [hrun] at h
      cases h
  | ok s' =>
      rw [hrun] at h
      cases h
      exact ⟨s', rfl, rfl⟩

instance [∀ s l, Decidable (M.enabled s l)] (x : σ × ω) (l : ι) :
    Decidable ((M.observing note).enabled x l) :=
  inferInstanceAs (Decidable (M.enabled x.1 l))

/-- What holds of the notes in every run. -/
theorem Reach.observed {I : σ → ω → Prop}
    (h : Reach (M.observing note) (start, w) (fun x => ok x.1) (s, w')) (hstart : I start w)
    (hstep : ∀ s l s' w, Reach M start ok s → I s w → M.enabled s l → ok s l →
      M.step l s = .ok s' → I s' (note l s s' w)) :
    Reach M start ok s ∧ I s w' := by
  refine h.invariant (I := fun x => Reach M start ok x.1 ∧ I x.1 x.2) ⟨.start, hstart⟩ ?_
  rintro ⟨s, w⟩ l x - ⟨hreach, hI⟩ henabled hok hrun
  obtain ⟨s', hrun', rfl⟩ := Machine.observing_step hrun
  exact ⟨hreach.step henabled hok hrun', hstep s l s' w hreach hI henabled hok hrun'⟩

end Observing

/-! ## Two runs -/

/-- The run that takes the steps of the list leads from `s` to the last state. -/
inductive Path (M : Machine σ ι ε) : σ → List ι → σ → Prop where
  | nil (s : σ) : Path M s [] s
  | cons {s s' s'' : σ} {l : ι} {steps : List ι} : M.enabled s l → M.step l s = .ok s' →
      Path M s' steps s'' → Path M s (l :: steps) s''

/-- Two states with the same runs: related states all along, and the same errors. -/
structure LockStep (M : Machine σ ι ε) (R : σ → σ → Prop) (s t : σ) : Prop where
  forth : ∀ steps s', Path M s steps s' → ∃ t', Path M t steps t' ∧ R s' t'
  back : ∀ steps t', Path M t steps t' → ∃ s', Path M s steps s' ∧ R s' t'
  fails : ∀ steps s' t' l e, Path M s steps s' → Path M t steps t' →
    (M.enabled s' l ∧ M.step l s' = .error e ↔ M.enabled t' l ∧ M.step l t' = .error e)

theorem Path.unique {steps : List ι} {t t' : σ} (h : Path M s steps t) (h' : Path M s steps t') :
    t = t' := by
  induction h with
  | nil s =>
      cases h'
      rfl
  | cons _ hrun _ ih =>
      cases h' with
      | cons _ hrun' hrest =>
          rw [hrun, Except.ok.injEq] at hrun'
          subst hrun'
          exact ih hrest

theorem Path.snoc {steps : List ι} {t t' : σ} {l : ι} (h : Path M s steps t)
    (henabled : M.enabled t l) (hrun : M.step l t = .ok t') : Path M s (steps ++ [l]) t' := by
  induction h with
  | nil s => exact .cons henabled hrun (.nil t')
  | cons hfirst hrun' _ ih => exact .cons hfirst hrun' (ih henabled hrun)

theorem Path.of_checkRun [∀ s l, Decidable (M.enabled s l)] {test : σ → Bool} {steps : List ι}
    (h : checkRun M (fun _ _ => True) test s steps = true) :
    ∃ t, Path M s steps t ∧ test t = true := by
  induction steps generalizing s with
  | nil => exact ⟨s, .nil s, h⟩
  | cons l rest ih =>
      unfold checkRun at h
      rw [Bool.and_eq_true, decide_eq_true_eq, decide_true, Bool.true_and] at h
      obtain ⟨henabled, hrest⟩ := h
      cases hrun : M.step l s with
      | error e =>
          rw [hrun] at hrest
          cases hrest
      | ok s' =>
          rw [hrun] at hrest
          obtain ⟨t, hpath, htest⟩ := ih hrest
          exact ⟨t, .cons henabled hrun hpath, htest⟩

/-- Induction over the steps of a run from its first state on. -/
theorem Path.induct {P : List ι → σ → Prop} {steps : List ι} {t : σ} (h : Path M s steps t)
    (hnil : P [] s)
    (hsnoc : ∀ steps t l t', Path M s steps t → P steps t → M.enabled t l →
      M.step l t = .ok t' → P (steps ++ [l]) t') : P steps t := by
  induction h generalizing P with
  | nil s => exact hnil
  | @cons s s' t l steps henabled hrun _ ih =>
      refine ih (P := fun steps t => P (l :: steps) t) ?_ fun steps t k t' hpath => ?_
      · exact hsnoc [] s l s' (.nil s) hnil henabled hrun
      · exact hsnoc (l :: steps) t k t' (.cons henabled hrun hpath)

/-- When no run has more than `n` steps, every supply of steps leads to a state in which the
next one is not allowed, or fails. -/
theorem Path.ends {n : Nat} (hbound : ∀ steps t, Path M s steps t → steps.length ≤ n)
    (next : Nat → ι) : ∃ k t, Path M s ((List.range k).map next) t ∧
      (¬M.enabled t (next k) ∨ ∃ e, M.step (next k) t = .error e) := by
  by_contra hnot
  push Not at hnot
  have hruns : ∀ k, ∃ t, Path M s ((List.range k).map next) t := by
    intro k
    induction k with
    | zero => exact ⟨s, .nil s⟩
    | succ k ih =>
        obtain ⟨t, hpath⟩ := ih
        obtain ⟨henabled, hok⟩ := hnot k t hpath
        cases hrun : M.step (next k) t with
        | error e => exact absurd hrun (hok e)
        | ok t' =>
            refine ⟨t', ?_⟩
            rw [List.range_succ, List.map_append]
            exact hpath.snoc henabled hrun
  obtain ⟨t, hpath⟩ := hruns (n + 1)
  have hlength := hbound _ t hpath
  rw [List.length_map, List.length_range] at hlength
  omega

/-- The rule for a relation that one step keeps. -/
theorem LockStep.of_coupled {R : σ → σ → Prop}
    (henabled : ∀ s t l, R s t → (M.enabled t l ↔ M.enabled s l))
    (hstep : ∀ s t l, R s t → Coupled R (M.step l s) (M.step l t)) {s t : σ} (h : R s t) :
    LockStep M R s t := by
  have hforth : ∀ steps s t s', R s t → Path M s steps s' → ∃ t', Path M t steps t' ∧ R s' t' := by
    intro steps s t s' h hpath
    induction hpath generalizing t with
    | nil => exact ⟨t, .nil t, h⟩
    | @cons s s₁ s' l _ hs hrun _ ih =>
        have hcoupled := hstep s t l h
        rw [hrun] at hcoupled
        obtain ⟨t₁, hrun', h₁⟩ := hcoupled.of_ok
        obtain ⟨t', hpath', h'⟩ := ih t₁ h₁
        exact ⟨t', .cons ((henabled s t l h).mpr hs) hrun' hpath', h'⟩
  have hback : ∀ steps s t t', R s t → Path M t steps t' → ∃ s', Path M s steps s' ∧ R s' t' := by
    intro steps s t t' h hpath
    induction hpath generalizing s with
    | nil => exact ⟨s, .nil s, h⟩
    | @cons t t₁ t' l _ ht hrun _ ih =>
        have hcoupled := hstep s t l h
        rw [hrun] at hcoupled
        obtain ⟨s₁, hrun', h₁⟩ := hcoupled.ok_of
        obtain ⟨s', hpath', h'⟩ := ih s₁ h₁
        exact ⟨s', .cons ((henabled s t l h).mp ht) hrun' hpath', h'⟩
  refine ⟨fun steps s' => hforth steps s t s' h, fun steps t' => hback steps s t t' h, ?_⟩
  intro steps s' t' l e hs ht
  obtain ⟨t'', ht', h'⟩ := hforth steps s t s' h hs
  obtain rfl := ht.unique ht'
  rw [henabled s' t' l h', (hstep s' t' l h').error_iff]

/-! ## Histories -/

variable {ω : Type*}

/-- The abstract state after a history, if every event of it was allowed. -/
def accept (allow : α → ω → Option α) (a : α) (history : List ω) : Option α :=
  history.foldlM allow a

theorem accept_append (allow : α → ω → Option α) (a : α) (history later : List ω) :
    accept allow a (history ++ later) =
      (accept allow a history).bind fun b => accept allow b later := by
  simp [accept, List.foldlM_append, Option.bind_eq_bind]

@[simp] theorem accept_nil (allow : α → ω → Option α) (a : α) :
    accept allow a [] = some a := rfl

@[simp] theorem accept_cons (allow : α → ω → Option α) (a : α) (event : ω)
    (later : List ω) :
    accept allow a (event :: later) =
      (allow a event).bind fun b => accept allow b later := rfl

end SchlagOS.Foundation
