import SchlagOS.Kernel.Process
import SchlagOS.Invariant.Ready
import Mathlib.Data.List.Perm.Basic

/-!
# The pending lists

A process that died is in `pids_to_zombify` until `zombify` deallocates it, and
in `pids_to_destroy` from the moment it is sealed until `destroy` resets its
slot.  Both lists are taken from the end, but the running process is never
taken.
-/

namespace SchlagOS

open Foundation

/-! ## Taking a pending pid -/

private theorem swapEnds_perm {stack : ArrayStack Int} {r : Int} (hcount : stack.count ≠ 0)
    (hone : stack.count ≠ 1) (hlast : stack.cells (stack.count - 1) = r) :
    ∃ first middle, stack.entries = first :: (middle ++ [r]) ∧
      stack.swapEnds.entries = r :: (middle ++ [first]) := by
  have hne : stack.entries ≠ [] := by rwa [Ne, stack.entries_eq_nil]
  have hlength := stack.length_entries
  obtain ⟨first, rest, hrest⟩ := List.exists_cons_of_ne_nil hne
  rw [hrest, List.length_cons] at hlength
  have hne' : rest ≠ [] := by
    rintro rfl
    simp at hlength
    omega
  have hr : rest.getLast hne' = r := by
    have := stack.getLast_entries hne
    simp only [hrest] at this
    rw [List.getLast_cons hne', hlast] at this
    exact this
  have hsplit : stack.entries = first :: (rest.dropLast ++ [r]) := by
    rw [hrest, ← hr, List.dropLast_append_getLast hne']
  exact ⟨first, rest.dropLast, hsplit, stack.entries_swapEnds hsplit⟩

theorem takePending_eq_none {stack : ArrayStack Int} {r : Int}
    (h : takePending stack (some r) = none) : ∀ p ∈ stack.entries, p = r := by
  unfold takePending at h
  dsimp only at h
  split_ifs at h with hcount hr hone
  · rw [← stack.entries_eq_nil] at hcount
    simp [hcount]
  · have hlast := stack.entries_eq_concat hcount processNotFoundCode
    have hnil : (stack.shrink processNotFoundCode).entries = [] := by
      rw [ArrayStack.entries_eq_nil]
      simp [ArrayStack.shrink, hone]
    rw [hlast, hnil]
    intro p hp
    rw [List.nil_append, List.mem_singleton] at hp
    rw [hp]
    exact (Option.some.inj hr).symm

/-- The pid that is taken is not the running one. -/
theorem takePending_perm {stack stack' : ArrayStack Int} {r p : Int}
    (hnodup : stack.entries.Nodup)
    (h : takePending stack (some r) = some (p, stack')) :
    stack.entries.Perm (p :: stack'.entries) ∧ p ≠ r := by
  unfold takePending at h
  dsimp only at h
  split_ifs at h with hcount hr hone
  · simp only [Option.some.injEq, Prod.mk.injEq] at h hr
    obtain ⟨hp, rfl⟩ := h
    obtain ⟨first, middle, hsplit, hswap⟩ := swapEnds_perm hcount hone hr.symm
    have hcount' : stack.swapEnds.count ≠ 0 := hcount
    have hlast := stack.swapEnds.entries_eq_concat hcount' processNotFoundCode
    rw [hp, hswap, ← List.cons_append] at hlast
    obtain ⟨hrest, hfirst⟩ := List.append_inj' hlast rfl
    rw [List.singleton_inj] at hfirst
    rw [hsplit] at hnodup ⊢
    constructor
    · rw [← hfirst, ← hrest]
      exact List.Perm.cons _ (List.perm_append_singleton r middle)
    · rw [← hfirst]
      rintro rfl
      simp at hnodup
  · simp only [Option.some.injEq, Prod.mk.injEq] at h
    obtain ⟨rfl, rfl⟩ := h
    have hlast := stack.entries_eq_concat hcount processNotFoundCode
    constructor
    · rw [hlast]
      exact List.perm_append_singleton _ _
    · intro heq
      exact hr (by rw [heq])

/-- Where the running process is not pending, the last pid is taken. -/
theorem takePending_last {stack stack' : ArrayStack Int} {r p : Int}
    (hr : r ∉ stack.entries) (h : takePending stack (some r) = some (p, stack')) :
    stack.entries = stack'.entries ++ [p] := by
  unfold takePending at h
  dsimp only at h
  split_ifs at h with hcount heq
  · have hlast := stack.entries_eq_concat hcount processNotFoundCode
    refine absurd ?_ hr
    rw [hlast, Option.some.inj heq]
    simp
  · have hlast := stack.entries_eq_concat hcount processNotFoundCode
    simp only [Option.some.injEq, Prod.mk.injEq] at h
    obtain ⟨rfl, rfl⟩ := h
    exact hlast

/-! ## The lists -/

structure Pending (state : Int → ProcessState) (dead isSealed : Int → Bool)
    (toZombify toDestroy : List Int) (r : Int) : Prop where
  nodup_zombify : toZombify.Nodup
  mem_zombify : ∀ p, p ∈ toZombify ↔ state p = .zombie ∧ dead p = false
  dead_zombie : ∀ p, dead p = true → state p = .zombie
  nodup_destroy : toDestroy.Nodup
  mem_destroy : ∀ p, p ∈ toDestroy ↔ isSealed p = true
  sealed_zombie : ∀ p, isSealed p = true → state p = .zombie
  sealed_ne : ∀ p, isSealed p = true → p ≠ r
  running_alive : dead r = false

namespace Pending

variable {state state' : Int → ProcessState} {dead isSealed : Int → Bool}
  {toZombify toDestroy rest : List Int} {r p : Int}

theorem congr (h : Pending state dead isSealed toZombify toDestroy r)
    (hstate : ∀ p, state' p = .zombie ↔ state p = .zombie) :
    Pending state' dead isSealed toZombify toDestroy r where
  nodup_zombify := h.nodup_zombify
  mem_zombify p := by rw [h.mem_zombify, hstate]
  dead_zombie p hp := (hstate p).mpr (h.dead_zombie p hp)
  nodup_destroy := h.nodup_destroy
  mem_destroy := h.mem_destroy
  sealed_zombie p hp := (hstate p).mpr (h.sealed_zombie p hp)
  sealed_ne := h.sealed_ne
  running_alive := h.running_alive

theorem move (h : Pending state dead isSealed toZombify toDestroy r) {b : ProcessState}
    (hp : state p ≠ .zombie) (hb : b ≠ .zombie) :
    Pending (Function.update state p b) dead isSealed toZombify toDestroy r :=
  h.congr (update_eq_iff hp hb)

theorem dead_eq_false (h : Pending state dead isSealed toZombify toDestroy r)
    (hp : state p ≠ .zombie) : dead p = false := by
  cases hdead : dead p with
  | false => rfl
  | true => exact absurd (h.dead_zombie p hdead) hp

theorem sealed_eq_false (h : Pending state dead isSealed toZombify toDestroy r)
    (hp : state p ≠ .zombie) : isSealed p = false := by
  cases hsealed : isSealed p with
  | false => rfl
  | true => exact absurd (h.sealed_zombie p hsealed) hp

/-- The rule of `request_zombify`. -/
theorem die (h : Pending state dead isSealed toZombify toDestroy r)
    (hp : state p ≠ .zombie) :
    Pending (Function.update state p .zombie) dead isSealed (toZombify ++ [p]) toDestroy
      r where
  nodup_zombify := by
    rw [List.nodup_append]
    refine ⟨h.nodup_zombify, List.nodup_singleton p, fun x hx y hy heq => hp ?_⟩
    rw [← List.mem_singleton.mp hy, ← heq]
    exact ((h.mem_zombify x).mp hx).1
  mem_zombify x := by
    rw [List.mem_append, h.mem_zombify, List.mem_singleton]
    by_cases hx : x = p
    · subst hx
      simp [h.dead_eq_false hp]
    · simp [hx]
  dead_zombie x hx := by
    by_cases hxp : x = p
    · simp [hxp]
    · simpa [hxp] using h.dead_zombie x hx
  nodup_destroy := h.nodup_destroy
  mem_destroy := h.mem_destroy
  sealed_zombie x hx := by
    by_cases hxp : x = p
    · simp [hxp]
    · simpa [hxp] using h.sealed_zombie x hx
  sealed_ne := h.sealed_ne
  running_alive := h.running_alive

/-- The rule of `deallocate` on the pid that was taken. -/
theorem bury (h : Pending state dead isSealed toZombify toDestroy r)
    (hperm : toZombify.Perm (p :: rest)) (hr : p ≠ r) :
    Pending state (Function.update dead p true) isSealed rest toDestroy r where
  nodup_zombify := ((hperm.nodup_iff.mp h.nodup_zombify).of_cons)
  mem_zombify x := by
    have hx := (hperm.mem_iff (a := x)).symm.trans (h.mem_zombify x)
    have hnot := (List.nodup_cons.mp (hperm.nodup_iff.mp h.nodup_zombify)).1
    by_cases hxp : x = p
    · subst hxp
      simp [hnot]
    · simpa [hxp] using hx
  dead_zombie x hx := by
    by_cases hxp : x = p
    · rw [hxp]
      exact ((h.mem_zombify p).mp (hperm.mem_iff.mpr (by simp))).1
    · rw [Function.update_of_ne hxp] at hx
      exact h.dead_zombie x hx
  nodup_destroy := h.nodup_destroy
  mem_destroy := h.mem_destroy
  sealed_zombie := h.sealed_zombie
  sealed_ne := h.sealed_ne
  running_alive := by rw [Function.update_of_ne (Ne.symm hr), h.running_alive]

/-- The rule of `request_destroy`. -/
theorem close (h : Pending state dead isSealed toZombify toDestroy r)
    (hp : state p = .zombie) (hsealed : isSealed p = false) (hr : p ≠ r) :
    Pending state dead (Function.update isSealed p true) toZombify (toDestroy ++ [p])
      r where
  nodup_zombify := h.nodup_zombify
  mem_zombify := h.mem_zombify
  dead_zombie := h.dead_zombie
  nodup_destroy := by
    rw [List.nodup_append]
    refine ⟨h.nodup_destroy, List.nodup_singleton p, fun x hx y hy heq => ?_⟩
    rw [heq, List.mem_singleton.mp hy, h.mem_destroy, hsealed] at hx
    exact absurd hx (by decide)
  mem_destroy x := by
    rw [List.mem_append, h.mem_destroy, List.mem_singleton]
    by_cases hx : x = p
    · simp [hx]
    · simp [hx]
  sealed_zombie x hx := by
    by_cases hxp : x = p
    · rwa [hxp]
    · rw [Function.update_of_ne hxp] at hx
      exact h.sealed_zombie x hx
  sealed_ne x hx := by
    by_cases hxp : x = p
    · rwa [hxp]
    · rw [Function.update_of_ne hxp] at hx
      exact h.sealed_ne x hx
  running_alive := h.running_alive

/-- The rule of `destroy` on the pid that was taken. -/
theorem reset (h : Pending state dead isSealed toZombify toDestroy r)
    (hperm : toDestroy.Perm (p :: rest)) (hdead : dead p = true) (hr : p ≠ r) :
    Pending (Function.update state p .unset) (Function.update dead p false)
      (Function.update isSealed p false) toZombify rest r where
  nodup_zombify := h.nodup_zombify
  mem_zombify x := by
    rw [h.mem_zombify]
    by_cases hx : x = p
    · subst hx
      simp [hdead]
    · simp [hx]
  dead_zombie x hx := by
    by_cases hxp : x = p
    · simp [hxp] at hx
    · rw [Function.update_of_ne hxp] at hx ⊢
      exact h.dead_zombie x hx
  nodup_destroy := (hperm.nodup_iff.mp h.nodup_destroy).of_cons
  mem_destroy x := by
    have hx := (hperm.mem_iff (a := x)).symm.trans (h.mem_destroy x)
    have hnot := (List.nodup_cons.mp (hperm.nodup_iff.mp h.nodup_destroy)).1
    by_cases hxp : x = p
    · subst hxp
      simp [hnot]
    · simpa [hxp] using hx
  sealed_zombie x hx := by
    by_cases hxp : x = p
    · simp [hxp] at hx
    · rw [Function.update_of_ne hxp] at hx ⊢
      exact h.sealed_zombie x hx
  sealed_ne x hx := by
    by_cases hxp : x = p
    · rwa [hxp]
    · rw [Function.update_of_ne hxp] at hx
      exact h.sealed_ne x hx
  running_alive := by rw [Function.update_of_ne (Ne.symm hr), h.running_alive]

theorem switch (h : Pending state dead isSealed toZombify toDestroy r)
    (hp : state p ≠ .zombie) : Pending state dead isSealed toZombify toDestroy p where
  nodup_zombify := h.nodup_zombify
  mem_zombify := h.mem_zombify
  dead_zombie := h.dead_zombie
  nodup_destroy := h.nodup_destroy
  mem_destroy := h.mem_destroy
  sealed_zombie := h.sealed_zombie
  sealed_ne x hx heq := by
    rw [heq, h.sealed_eq_false hp] at hx
    exact absurd hx (by decide)
  running_alive := h.dead_eq_false hp

end Pending

end SchlagOS
