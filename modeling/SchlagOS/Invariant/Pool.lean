import SchlagOS.Kernel.Calls
import Mathlib.Data.List.Nodup
import Mathlib.Data.List.Perm.Subperm

/-!
# Identifier pools

The ring between the consume index and the release index holds the identifiers
that are not in use, each once, and the count is that of the others.  The rules
are those of `process_table_register` and `message_queue_table_register` and of
their counterparts.
-/

namespace SchlagOS

open Foundation

structure Pool (capacity : Nat) (ring : LockedRing Int) (count : Nat)
    (free : Int → Prop) : Prop where
  holds : ring.Holds capacity (ring.toList capacity (capacity - count))
  count_le : count ≤ capacity
  nodup : (ring.toList capacity (capacity - count)).Nodup
  mem_iff : ∀ x, x ∈ ring.toList capacity (capacity - count) ↔ free x

namespace Pool

variable {capacity : Nat} {ring : LockedRing Int} {count : Nat} {free : Int → Prop}

theorem length_toList (capacity : Nat) (ring : LockedRing Int) (count : Nat) :
    (ring.toList capacity count).length = count := by
  simp [LockedRing.toList]

private theorem of_holds {xs : List Int} (hholds : ring.Holds capacity xs)
    (hcount : count + xs.length = capacity) (hnodup : xs.Nodup)
    (hmem : ∀ x, x ∈ xs ↔ free x) : Pool capacity ring count free := by
  have hlength : capacity - count = xs.length := by omega
  have hlist : ring.toList capacity (capacity - count) = xs := by
    rw [hlength, hholds.toList_eq]
  constructor
  · rwa [hlist]
  · omega
  · rwa [hlist]
  · rwa [hlist]

theorem congr {free' : Int → Prop} (h : Pool capacity ring count free)
    (hfree : ∀ x, free' x ↔ free x) : Pool capacity ring count free' where
  holds := h.holds
  count_le := h.count_le
  nodup := h.nodup
  mem_iff x := by rw [h.mem_iff, hfree]

/-- When an identifier is in use, the count is not 0. -/
theorem count_pos (h : Pool capacity ring count free) (all : List Int)
    (hlength : all.length = capacity) (hfree : ∀ x, free x → x ∈ all) {x : Int}
    (hx : x ∈ all) (hnot : ¬free x) : 0 < count := by
  have hsub : ring.toList capacity (capacity - count) ⊆ all.erase x := by
    intro y hy
    have hy' := (h.mem_iff y).mp hy
    have hne : y ≠ x := fun heq => hnot (heq ▸ hy')
    exact (List.mem_erase_of_ne hne).mpr (hfree y hy')
  have hle := (List.subperm_of_subset h.nodup hsub).length_le
  rw [length_toList, List.length_erase_of_mem hx, hlength] at hle
  have hpos := List.length_pos_of_mem hx
  omega

/-- The counter counts the identifiers in use. -/
theorem length_used (h : Pool capacity ring count free) {all : List Int} {used : Int → Bool}
    (hnodup : all.Nodup) (hlength : all.length = capacity)
    (hfree : ∀ x, free x ↔ x ∈ all ∧ used x = false) : (all.filter used).length = count := by
  have hperm : (all.filter fun x => !used x).Perm (ring.toList capacity (capacity - count)) := by
    refine (List.perm_ext_iff_of_nodup (hnodup.filter _) h.nodup).mpr fun x => ?_
    simp [h.mem_iff, hfree]
  have hrest := hperm.length_eq
  have hsplit := List.length_eq_length_filter_add (l := all) used
  have hle := h.count_le
  rw [length_toList] at hrest
  omega

/-- The ring that holds all identifiers. -/
theorem full {buffer : Nat → Int} (hpos : 0 < capacity)
    (hinj : ∀ i j, i < capacity → j < capacity → buffer i = buffer j → i = j)
    (hfree : ∀ x, free x ↔ ∃ i, i < capacity ∧ buffer i = x) :
    Pool capacity { buffer := buffer, consume := 0, produce := LockedRing.locked } 0 free := by
  have hlist : LockedRing.toList capacity
      { buffer := buffer, consume := 0, produce := LockedRing.locked } (capacity - 0) =
      (List.range capacity).map buffer := by
    unfold LockedRing.toList
    apply List.map_congr_left
    intro i hi
    have hlt : i < capacity := by simpa using hi
    have hmod : (0 + i) % capacity = i := by
      rw [Nat.zero_add, Nat.mod_eq_of_lt hlt]
    exact congrArg buffer hmod
  constructor
  · rw [hlist]
    refine ⟨0, hpos, by simp, by simp, fun _ => rfl, fun _ => .inr rfl, ?_⟩
    intro i hi
    have hlt : i < capacity := by simpa using hi
    simp [Nat.mod_eq_of_lt hlt]
  · exact Nat.zero_le capacity
  · rw [hlist]
    refine List.Nodup.map_on ?_ List.nodup_range
    intro i hi j hj heq
    exact hinj i j (List.mem_range.mp hi) (List.mem_range.mp hj) heq
  · intro x
    rw [hlist, hfree]
    simp

theorem pop (h : Pool capacity ring count free) (hcount : count < capacity) :
    ∃ x ring', ring.pop capacity = some (x, ring') ∧ free x ∧
      ring.toList capacity (capacity - count) =
        x :: ring'.toList capacity (capacity - (count + 1)) ∧
      Pool capacity ring' (count + 1) fun y => free y ∧ y ≠ x := by
  have hholds := h.holds
  have hnodup := h.nodup
  have hmem := h.mem_iff
  have hlength := length_toList capacity ring (capacity - count)
  revert hholds hnodup hmem hlength
  cases ring.toList capacity (capacity - count) with
  | nil =>
      intro _ _ _ hlength
      simp at hlength
      omega
  | cons x xs =>
      intro hholds hnodup hmem hlength
      obtain ⟨ring', hpop, hring'⟩ := hholds.pop
      rw [List.nodup_cons] at hnodup
      rw [List.length_cons] at hlength
      have hcount' : capacity - (count + 1) = xs.length := by omega
      refine ⟨x, ring', hpop, (hmem x).mp (by simp), ?_,
        of_holds hring' (by omega) hnodup.2 ?_⟩
      · rw [hcount', hring'.toList_eq]
      · intro y
        rw [← hmem y, List.mem_cons]
        constructor
        · intro hy
          exact ⟨.inr hy, fun heq => hnodup.1 (heq ▸ hy)⟩
        · rintro ⟨hy | hy, hne⟩
          · exact absurd hy hne
          · exact hy

theorem push (h : Pool capacity ring count free) {x : Int} (hx : ¬free x)
    (hcount : 0 < count) :
    ∃ ring', ring.push capacity x = some ring' ∧
      ring'.toList capacity (capacity - uint32Pred count) =
        ring.toList capacity (capacity - count) ++ [x] ∧
      Pool capacity ring' (uint32Pred count) fun y => free y ∨ y = x := by
  have hle := h.count_le
  have hlength := length_toList capacity ring (capacity - count)
  obtain ⟨ring', hpush, hring'⟩ := h.holds.push (x := x) (by omega)
  have hpred : uint32Pred count = count - 1 := by
    unfold uint32Pred
    split <;> omega
  have hcount' : capacity - uint32Pred count =
      (ring.toList capacity (capacity - count) ++ [x]).length := by
    rw [List.length_append, hlength, hpred, List.length_singleton]
    omega
  refine ⟨ring', hpush, ?_, of_holds hring' ?_ ?_ ?_⟩
  · rw [hcount', hring'.toList_eq]
  · rw [List.length_append, hlength, hpred, List.length_singleton]
    omega
  · rw [List.nodup_append]
    refine ⟨h.nodup, List.nodup_singleton x, fun y hy z hz heq => hx ?_⟩
    rw [← h.mem_iff, ← List.mem_singleton.mp hz, ← heq]
    exact hy
  · intro y
    rw [List.mem_append, h.mem_iff, List.mem_singleton]

end Pool

end SchlagOS
