import SchlagOS.Foundation.ArrayStack
import Mathlib.Data.List.Perm.Basic

/-!
# Sweeping an array

A loop runs over an array with a fill count and takes out the entries of some
kind.  It puts the last entry in the place of each, so it looks at that place
again and its bound gets smaller.  `Sweep` is the run of such a loop from an
index on; every run ends, and it takes out the entries of that kind and no others.
-/

namespace SchlagOS.Foundation

variable {α : Type*}

/-- The loop takes out `out`, in this order, and leaves the array `s'`. -/
inductive Sweep (take : α → Bool) (filler : α) :
    Nat → ArrayStack α → List α → ArrayStack α → Prop
  | stop {i : Nat} {s : ArrayStack α} (hi : s.count ≤ i) : Sweep take filler i s [] s
  | take {i : Nat} {s s' : ArrayStack α} {out : List α} (hi : i < s.count)
      (htake : take (s.cells i) = true)
      (hrest : Sweep take filler i (s.replaceByLast filler i) out s') :
      Sweep take filler i s (s.cells i :: out) s'
  | skip {i : Nat} {s s' : ArrayStack α} {out : List α} (hi : i < s.count)
      (hskip : take (s.cells i) = false) (hrest : Sweep take filler (i + 1) s out s') :
      Sweep take filler i s out s'

variable {take : α → Bool} {filler : α} {i : Nat} {s s' : ArrayStack α} {out : List α}

@[simp] theorem ArrayStack.count_replaceByLast (s : ArrayStack α) (filler : α) (i : Nat) :
    (s.replaceByLast filler i).count = s.count - 1 := rfl

theorem ArrayStack.cells_replaceByLast_of_lt (s : ArrayStack α) (filler : α) {i j : Nat}
    (hj : j < i) (hi : i < s.count) : (s.replaceByLast filler i).cells j = s.cells j := by
  unfold replaceByLast
  dsimp only
  rw [Function.update_of_ne (by omega), Function.update_of_ne (by omega)]

theorem ArrayStack.cells_replaceByLast_last (s : ArrayStack α) (filler : α) (i : Nat) :
    (s.replaceByLast filler i).cells (s.count - 1) = filler :=
  Function.update_self _ _ _

theorem ArrayStack.cells_replaceByLast_of_le (s : ArrayStack α) (filler : α) {i j : Nat}
    (hi : i < s.count) (hj : s.count ≤ j) : (s.replaceByLast filler i).cells j = s.cells j := by
  unfold replaceByLast
  dsimp only
  rw [Function.update_of_ne (by omega), Function.update_of_ne (by omega)]

/-- Each turn moves the index on or shortens the array, so the loop ends. -/
theorem exists_sweep (take : α → Bool) (filler : α) (i : Nat) (s : ArrayStack α) :
    ∃ out s', Sweep take filler i s out s' := by
  induction hleft : s.count - i generalizing i s with
  | zero => exact ⟨[], s, .stop (by omega)⟩
  | succ left ih =>
      have hi : i < s.count := by omega
      cases htake : take (s.cells i) with
      | true =>
          have hshorter : (s.replaceByLast filler i).count - i = left := by
            rw [ArrayStack.count_replaceByLast]
            omega
          obtain ⟨out, s', hrest⟩ := ih i (s.replaceByLast filler i) hshorter
          exact ⟨s.cells i :: out, s', .take hi htake hrest⟩
      | false =>
          obtain ⟨out, s', hrest⟩ := ih (i + 1) s (by omega)
          exact ⟨out, s', .skip hi htake hrest⟩

/-- What is taken out, what is left, and what stands in the cells that were given up. -/
structure Swept (take : α → Bool) (filler : α) (s : ArrayStack α) (out : List α)
    (s' : ArrayStack α) : Prop where
  taken : out.Perm (s.entries.filter take)
  kept : s'.entries.Perm (s.entries.filter fun x => !take x)
  vacated : ∀ j, s'.count ≤ j → j < s.count → s'.cells j = filler
  beyond : ∀ j, s.count ≤ j → s'.cells j = s.cells j

/-- The entries in front of the index are those that the loop has left in. -/
theorem Sweep.swept_from (h : Sweep take filler i s out s')
    (hpassed : ∀ j, j < i → j < s.count → take (s.cells j) = false) :
    Swept take filler s out s' := by
  induction h with
  | @stop i s hi =>
      have hnone : ∀ x ∈ s.entries, take x = false := by
        intro x hx
        obtain ⟨j, hj, rfl⟩ := List.mem_map.mp hx
        rw [List.mem_range] at hj
        exact hpassed j (by omega) hj
      refine ⟨?_, ?_, fun j hle hlt => by omega, fun _ _ => rfl⟩
      · rw [List.filter_eq_nil_iff.mpr fun x hx => by simp [hnone x hx]]
      · rw [List.filter_eq_self.mpr fun x hx => by simp [hnone x hx]]
  | @take i s s' out hi htake hrest ih =>
      have hswept := ih fun j hj _ => by
        rw [s.cells_replaceByLast_of_lt filler hj hi]
        exact hpassed j hj (by omega)
      have hperm := s.perm_replaceByLast filler hi
      have hcount := s.count_replaceByLast filler i
      constructor
      · have hfilter := hperm.filter take
        rw [List.filter_cons_of_pos htake] at hfilter
        exact (hswept.taken.cons _).trans hfilter.symm
      · have hfilter := hperm.filter fun x => !take x
        rw [List.filter_cons_of_neg (by simp [htake])] at hfilter
        exact hswept.kept.trans hfilter.symm
      · intro j hle hlt
        by_cases hj : j < s.count - 1
        · exact hswept.vacated j hle hj
        · have hlast : j = s.count - 1 := by omega
          rw [hswept.beyond j (by omega), hlast, s.cells_replaceByLast_last]
      · intro j hj
        rw [hswept.beyond j (by omega), s.cells_replaceByLast_of_le filler hi hj]
  | @skip i s s' out hi hskip hrest ih =>
      refine ih fun j hj hlt => ?_
      rcases Nat.lt_succ_iff_lt_or_eq.mp hj with hlt' | rfl
      · exact hpassed j hlt' hlt
      · exact hskip

/-- A sweep of the whole array. -/
theorem Sweep.swept (h : Sweep take filler 0 s out s') : Swept take filler s out s' :=
  h.swept_from fun j hj _ => absurd hj (Nat.not_lt_zero j)

theorem Swept.mem_out (h : Swept take filler s out s') (x : α) :
    x ∈ out ↔ x ∈ s.entries ∧ take x = true := by
  rw [h.taken.mem_iff, List.mem_filter]

end SchlagOS.Foundation
