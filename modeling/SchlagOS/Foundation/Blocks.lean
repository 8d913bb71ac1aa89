import Mathlib.Data.List.Nodup
import Mathlib.Logic.Function.Basic

/-!
# Allocators and the holders of their blocks

An allocator hands out blocks at fresh addresses and takes them back.  `Owns`
says that the blocks that live are those that some holder has, each held once,
so that a holder's block can be released and nothing is lost.
-/

namespace SchlagOS.Foundation

/-- The blocks an allocator has handed out, as (address, length); addresses
are not handed out twice. -/
structure Blocks where
  next : Nat
  live : List (Nat × Nat)
  deriving DecidableEq, Repr

def Blocks.allocate (b : Blocks) (length : Nat) : Nat × Blocks :=
  (b.next, { next := b.next + 1, live := (b.next, length) :: b.live })

/-- `none` when no block of this length lives at the address. -/
def Blocks.release (b : Blocks) (address length : Nat) : Option Blocks :=
  if (address, length) ∈ b.live then
    some { b with live := b.live.erase (address, length) }
  else none

variable {ι : Type*}

structure Owns (holder : ι → Option (Nat × Nat)) (b : Blocks) : Prop where
  fresh : ∀ block ∈ b.live, block.1 < b.next
  nodup : b.live.Nodup
  mem_iff : ∀ block, block ∈ b.live ↔ ∃ i, holder i = some block
  once : ∀ i j block, holder i = some block → holder j = some block → i = j

namespace Owns

variable {holder holder' : ι → Option (Nat × Nat)} {b b' : Blocks} {i : ι} {length : Nat}

theorem congr (h : Owns holder b) (hholder : ∀ i, holder' i = holder i) : Owns holder' b := by
  have heq : holder' = holder := funext hholder
  rwa [heq]

theorem empty (next : Nat) : Owns (fun _ : ι => none) { next := next, live := [] } where
  fresh := by simp
  nodup := List.nodup_nil
  mem_iff := by simp
  once := by simp

theorem later (h : Owns holder b) :
    Owns holder { b with next := b.next + 1 } :=
  { h with fresh := fun block hblock => Nat.lt_succ_of_lt (h.fresh block hblock) }

variable [DecidableEq ι]

theorem allocate (h : Owns holder b) (hi : holder i = none) (length : Nat) :
    Owns (Function.update holder i (some (b.next, length))) (b.allocate length).2 := by
  have hnew : ∀ j, holder j ≠ some (b.next, length) := by
    intro j hj
    have hlt := h.fresh _ ((h.mem_iff _).mpr ⟨j, hj⟩)
    exact Nat.lt_irrefl _ hlt
  constructor
  · intro block hblock
    rcases List.mem_cons.mp hblock with rfl | hold
    · exact Nat.lt_succ_self b.next
    · exact Nat.lt_succ_of_lt (h.fresh block hold)
  · refine List.nodup_cons.mpr ⟨fun hmem => ?_, h.nodup⟩
    obtain ⟨j, hj⟩ := (h.mem_iff _).mp hmem
    exact hnew j hj
  · intro block
    change block ∈ (b.next, length) :: b.live ↔ _
    rw [List.mem_cons, h.mem_iff]
    constructor
    · rintro (rfl | ⟨j, hj⟩)
      · exact ⟨i, Function.update_self _ _ _⟩
      · have hji : j ≠ i := by
          rintro rfl
          rw [hi] at hj
          cases hj
        exact ⟨j, by rwa [Function.update_of_ne hji]⟩
    · rintro ⟨j, hj⟩
      by_cases hji : j = i
      · subst hji
        rw [Function.update_self, Option.some_inj] at hj
        exact .inl hj.symm
      · rw [Function.update_of_ne hji] at hj
        exact .inr ⟨j, hj⟩
  · intro j k block hj hk
    by_cases hji : j = i
    · by_cases hki : k = i
      · rw [hji, hki]
      · rw [hji, Function.update_self, Option.some_inj] at hj
        rw [Function.update_of_ne hki, ← hj] at hk
        exact absurd hk (hnew k)
    · rw [Function.update_of_ne hji] at hj
      by_cases hki : k = i
      · rw [hki, Function.update_self, Option.some_inj] at hk
        rw [← hk] at hj
        exact absurd hj (hnew j)
      · rw [Function.update_of_ne hki] at hk
        exact h.once j k block hj hk

/-- The block of a holder can be released, and only that block goes. -/
theorem release (h : Owns holder b) {address : Nat}
    (hi : holder i = some (address, length)) :
    ∃ b', b.release address length = some b' ∧ Owns (Function.update holder i none) b' := by
  have hmem : (address, length) ∈ b.live := (h.mem_iff _).mpr ⟨i, hi⟩
  refine ⟨_, if_pos hmem, ?_⟩
  constructor
  · exact fun block hblock => h.fresh block (List.mem_of_mem_erase hblock)
  · exact h.nodup.erase _
  · intro block
    rw [h.nodup.mem_erase_iff, h.mem_iff]
    constructor
    · rintro ⟨hne, j, hj⟩
      have hji : j ≠ i := by
        rintro rfl
        rw [hi, Option.some_inj] at hj
        exact hne hj.symm
      exact ⟨j, by rwa [Function.update_of_ne hji]⟩
    · rintro ⟨j, hj⟩
      by_cases hji : j = i
      · rw [hji, Function.update_self] at hj
        cases hj
      · rw [Function.update_of_ne hji] at hj
        refine ⟨fun heq => hji ?_, j, hj⟩
        rw [heq] at hj
        exact h.once j i _ hj hi
  · intro j k block hj hk
    by_cases hji : j = i
    · rw [hji, Function.update_self] at hj
      cases hj
    · by_cases hki : k = i
      · rw [hki, Function.update_self] at hk
        cases hk
      · rw [Function.update_of_ne hji] at hj
        rw [Function.update_of_ne hki] at hk
        exact h.once j k block hj hk

end Owns

/-- A block that was just allocated can be given back, and the allocator is as
before but for the address it hands out next. -/
theorem Blocks.release_allocate (b : Blocks) (length : Nat) :
    (b.allocate length).2.release (b.allocate length).1 length =
      some { b with next := b.next + 1 } := by
  unfold Blocks.allocate Blocks.release
  simp

end SchlagOS.Foundation
