import Mathlib.Data.List.Basic

/-!
# Fallible operations

Operations that return a result or fail, assertions in them, and the
correctness statement `Meets`: a result has one property, an error the other.
The equivalences for `Meets` reduce the statement about a sequence of
operations to statements about its parts.  `Coupled` compares two sequences of
operations in the same way.
-/

namespace SchlagOS.Foundation

universe u

variable {ε : Type*} {α β : Type u}

theorem bind_eq_ok {x : Except ε α} {f : α → Except ε β} {b : β} :
    (x >>= f) = .ok b ↔ ∃ a, x = .ok a ∧ f a = .ok b := by
  cases x with
  | error e =>
      constructor
      · intro h
        cases h
      · rintro ⟨a, ha, -⟩
        cases ha
  | ok a =>
      constructor
      · intro h
        exact ⟨a, rfl, h⟩
      · rintro ⟨a', ha, h⟩
        cases ha
        exact h

@[simp] theorem pure_eq_ok (a : α) : (pure a : Except ε α) = .ok a := rfl

@[simp] theorem ok_bind (a : α) (f : α → Except ε β) :
    (Except.ok a >>= f) = f a := rfl

@[simp] theorem error_bind (e : ε) (f : α → Except ε β) :
    (Except.error e >>= f) = .error e := rfl

/-- An assertion. -/
def require (c : Prop) [Decidable c] (e : ε) : Except ε Unit :=
  if c then .ok () else .error e

@[simp] theorem require_eq_ok {c : Prop} [Decidable c] {e : ε} {u : Unit} :
    require c e = .ok u ↔ c := by
  unfold require
  split <;> simp_all

@[simp] theorem require_eq_error {c : Prop} [Decidable c] {e e' : ε} :
    require c e = .error e' ↔ ¬c ∧ e = e' := by
  unfold require
  split <;> simp_all

theorem require_pos {c : Prop} [Decidable c] {e : ε} (h : c) :
    require c e = .ok () := if_pos h

/-- The value of an operation that cannot go on without one. -/
def demand (o : Option α) (e : ε) : Except ε α :=
  match o with
  | some a => .ok a
  | none => .error e

@[simp] theorem demand_some (a : α) (e : ε) : demand (some a) e = .ok a := rfl

@[simp] theorem demand_none (e : ε) : demand (none : Option α) e = .error e := rfl

@[simp] theorem demand_eq_ok {o : Option α} {e : ε} {a : α} :
    demand o e = .ok a ↔ o = some a := by
  cases o <;> simp [demand]

@[simp] theorem demand_eq_error {o : Option α} {e e' : ε} :
    demand o e = .error e' ↔ o = none ∧ e = e' := by
  cases o <;> simp [demand]

/-! ## Correctness -/

/-- A result of `x` satisfies `good`, an error of `x` satisfies `bad`. -/
def Meets (x : Except ε α) (good : α → Prop) (bad : ε → Prop) : Prop :=
  match x with
  | .ok a => good a
  | .error e => bad e

variable {good good' : α → Prop} {bad bad' : ε → Prop}

@[simp] theorem meets_ok (a : α) : Meets (.ok a) good bad ↔ good a := Iff.rfl

@[simp] theorem meets_pure (a : α) : Meets (pure a : Except ε α) good bad ↔ good a :=
  Iff.rfl

@[simp] theorem meets_error (e : ε) : Meets (.error e) good bad ↔ bad e := Iff.rfl

@[simp] theorem meets_bind {x : Except ε α} {f : α → Except ε β} {good : β → Prop} :
    Meets (x >>= f) good bad ↔ Meets x (fun a => Meets (f a) good bad) bad := by
  cases x with
  | error e => exact Iff.rfl
  | ok a => exact Iff.rfl

@[simp] theorem meets_require {c : Prop} [Decidable c] {e : ε} {good : Unit → Prop} :
    Meets (require c e) good bad ↔ (c → good ()) ∧ (¬c → bad e) := by
  unfold require
  split
  · simp_all
  · simp_all

@[simp] theorem meets_demand {o : Option α} {e : ε} :
    Meets (demand o e) good bad ↔ (∀ a, o = some a → good a) ∧ (o = none → bad e) := by
  cases o with
  | none => simp
  | some a => simp

theorem meets_ite {c : Prop} [Decidable c] {x y : Except ε α} :
    Meets (if c then x else y) good bad ↔
      (c → Meets x good bad) ∧ (¬c → Meets y good bad) := by
  split
  · simp_all
  · simp_all

theorem Meets.mono {x : Except ε α} (h : Meets x good bad)
    (hgood : ∀ a, good a → good' a) (hbad : ∀ e, bad e → bad' e) :
    Meets x good' bad' := by
  cases x with
  | error e => exact hbad e h
  | ok a => exact hgood a h

theorem Meets.of_ok {x : Except ε α} {a : α} (h : Meets x good bad) (hx : x = .ok a) :
    good a := by
  rwa [hx] at h

theorem Meets.of_error {x : Except ε α} {e : ε} (h : Meets x good bad)
    (hx : x = .error e) : bad e := by
  rwa [hx] at h

theorem Meets.exists_ok {x : Except ε α} (h : Meets x good fun _ => False) :
    ∃ a, x = .ok a ∧ good a := by
  cases x with
  | error e => exact h.elim
  | ok a => exact ⟨a, rfl, h⟩

/-! ## Errors under another name -/

section MapError

variable {ε' : Type*} {x : Except ε α} {f : ε → ε'} {a : α}

theorem meets_mapError {bad' : ε' → Prop} :
    Meets (x.mapError f) good bad' ↔ Meets x good fun e => bad' (f e) := by
  cases x with
  | error e => exact Iff.rfl
  | ok a => exact Iff.rfl

theorem mapError_ok (a : α) (f : ε → ε') : (Except.ok a : Except ε α).mapError f = .ok a := rfl

theorem mapError_eq_ok : x.mapError f = .ok a ↔ x = .ok a := by
  cases x with
  | error e =>
      constructor
      · intro h
        cases h
      · intro h
        cases h
  | ok b => exact Iff.of_eq (by rw [Except.mapError, Except.ok.injEq, Except.ok.injEq])

end MapError

/-! ## Results only -/

/-- Every result of `x` satisfies `good`, and nothing is said about its errors. -/
def Yields (x : Except ε α) (good : α → Prop) : Prop := Meets x good fun _ => True

namespace Yields

variable {x y : Except ε α} {f : α → Except ε β} {result : β → Prop}

theorem of_ok {a : α} (h : Yields x good) (hx : x = .ok a) : good a := Meets.of_ok h hx

theorem bind (h : Yields x good) (hf : ∀ a, good a → Yields (f a) result) :
    Yields (x >>= f) result := by
  cases x with
  | error e => trivial
  | ok a => exact hf a h

/-- A computation whose result does not matter. -/
theorem skip (x : Except ε α) (hf : ∀ a, Yields (f a) result) : Yields (x >>= f) result := by
  cases x with
  | error e => trivial
  | ok a => exact hf a

theorem ite {c : Prop} [Decidable c] (hpos : c → Yields x good) (hneg : ¬c → Yields y good) :
    Yields (if c then x else y) good := meets_ite.mpr ⟨hpos, hneg⟩

theorem mono (h : Yields x good) (hgood : ∀ a, good a → good' a) : Yields x good' :=
  Meets.mono h hgood fun _ he => he

end Yields

/-! ## Tests of outcomes -/

/-- Whether there is a result, and it passes the test. -/
def okAnd (test : α → Bool) : Except ε α → Bool
  | .ok a => test a
  | .error _ => false

/-- Whether there is an error, and it passes the test. -/
def errorAnd (test : ε → Bool) : Except ε α → Bool
  | .ok _ => false
  | .error e => test e

theorem okAnd_iff {test : α → Bool} {x : Except ε α} :
    okAnd test x = true ↔ ∃ a, x = .ok a ∧ test a = true := by
  cases x with
  | error e => simp [okAnd]
  | ok a => simp [okAnd]

theorem errorAnd_iff {test : ε → Bool} {x : Except ε α} :
    errorAnd test x = true ↔ ∃ e, x = .error e ∧ test e = true := by
  cases x with
  | error e => simp [errorAnd]
  | ok a => simp [errorAnd]

/-! ## Two computations -/

/-- `x` and `y` have related results or the same error. -/
def Coupled (R : α → β → Prop) (x : Except ε α) (y : Except ε β) : Prop :=
  match x, y with
  | .ok a, .ok b => R a b
  | .error e, .error e' => e = e'
  | _, _ => False

namespace Coupled

variable {γ δ : Type u} {R : γ → δ → Prop} {Q : α → β → Prop} {x : Except ε α} {y : Except ε β}

theorem ok {a : α} {b : β} (h : Q a b) : Coupled Q (.ok a : Except ε α) (.ok b) := h

theorem error (e : ε) : Coupled Q (.error e) (.error e) := rfl

theorem of_ok {a : α} (h : Coupled Q (.ok a : Except ε α) y) : ∃ b, y = .ok b ∧ Q a b := by
  cases y with
  | error e => exact False.elim h
  | ok b => exact ⟨b, rfl, h⟩

theorem ok_of {b : β} (h : Coupled Q x (.ok b : Except ε β)) : ∃ a, x = .ok a ∧ Q a b := by
  cases x with
  | error e => exact False.elim h
  | ok a => exact ⟨a, rfl, h⟩

theorem error_iff {e : ε} (h : Coupled Q x y) : x = .error e ↔ y = .error e := by
  cases x with
  | error e' =>
      cases y with
      | error e'' =>
          obtain rfl : e' = e'' := h
          rw [Except.error.injEq, Except.error.injEq]
      | ok b => exact False.elim h
  | ok a =>
      cases y with
      | error e' => exact False.elim h
      | ok b => exact iff_of_false (fun hx => by cases hx) fun hy => by cases hy

theorem refl {S : α → α → Prop} (h : ∀ a, S a a) (x : Except ε α) : Coupled S x x := by
  cases x with
  | error e => exact rfl
  | ok a => exact h a

theorem mono {Q' : α → β → Prop} (h : Coupled Q x y) (himp : ∀ a b, Q a b → Q' a b) :
    Coupled Q' x y := by
  cases x with
  | error e =>
      cases y with
      | error e' => exact h
      | ok b => exact h
  | ok a =>
      cases y with
      | error e' => exact h
      | ok b => exact himp a b h

/-- Two computations whose results and errors are known. -/
theorem of_meets {bad bad' : ε → Prop} {good : α → Prop} {good' : β → Prop}
    (hx : Meets x good bad) (hy : Meets y good' bad') (hok : ∀ a b, good a → good' b → Q a b)
    (herror : ∀ e e', bad e → bad' e' → e = e') (hleft : ∀ a e, good a → ¬bad' e)
    (hright : ∀ e b, bad e → ¬good' b) : Coupled Q x y := by
  cases x with
  | error e =>
      cases y with
      | error e' => exact herror e e' hx hy
      | ok b => exact hright e b hx hy
  | ok a =>
      cases y with
      | error e' => exact hleft a e' hx hy
      | ok b => exact hok a b hx hy

theorem bind {f : α → Except ε γ} {g : β → Except ε δ} (h : Coupled Q x y)
    (hfg : ∀ a b, Q a b → Coupled R (f a) (g b)) : Coupled R (x >>= f) (y >>= g) := by
  cases x with
  | error e =>
      cases y with
      | error e' => exact h
      | ok b => exact False.elim h
  | ok a =>
      cases y with
      | error e' => exact False.elim h
      | ok b => exact hfg a b h

/-- The same computation in front of two continuations. -/
theorem front {f : α → Except ε γ} {g : α → Except ε δ} (x : Except ε α)
    (hfg : ∀ a, Coupled R (f a) (g a)) : Coupled R (x >>= f) (x >>= g) := by
  cases x with
  | error e => exact rfl
  | ok a => exact hfg a

theorem branch {c d : Prop} [Decidable c] [Decidable d] {x' : Except ε α} {y' : Except ε β}
    (hiff : d ↔ c) (hpos : c → Coupled Q x y) (hneg : ¬c → Coupled Q x' y') :
    Coupled Q (if c then x else x') (if d then y else y') := by
  by_cases hc : c
  · rw [if_pos hc, if_pos (hiff.mpr hc)]
    exact hpos hc
  · rw [if_neg hc, if_neg fun hd => hc (hiff.mp hd)]
    exact hneg hc

theorem ite {c : Prop} [Decidable c] {x' : Except ε α} {y' : Except ε β}
    (hpos : c → Coupled Q x y) (hneg : ¬c → Coupled Q x' y') :
    Coupled Q (if c then x else x') (if c then y else y') :=
  branch Iff.rfl hpos hneg

end Coupled

end SchlagOS.Foundation
