import Mathlib.Data.List.Basic
import Mathlib.Logic.Function.Basic

/-!
# Rings with locked indices

A ring of `capacity` cells with a consume and a produce index.  No count is
stored: the produce index is locked at -1 when the ring is full and the consume
index when it is empty.  A ring that was never used may also be empty with both
indices on the same cell.
-/

namespace SchlagOS.Foundation

structure LockedRing (α : Type*) where
  buffer : Nat → α
  consume : Int
  produce : Int

namespace LockedRing

variable {α : Type*}

def locked : Int := -1

/-- Write at the produce index; `none` when it is locked. -/
def push (capacity : Nat) (r : LockedRing α) (x : α) : Option (LockedRing α) :=
  if r.produce = locked then none
  else
    let consume := if r.consume = locked then r.produce else r.consume
    let produce := (r.produce + 1) % capacity
    some {
      buffer := Function.update r.buffer r.produce.toNat x
      consume := consume
      produce := if produce = consume then locked else produce }

/-- Read at the consume index; `none` when it is locked. -/
def pop (capacity : Nat) (r : LockedRing α) : Option (α × LockedRing α) :=
  if r.consume = locked then none
  else
    let produce := if r.produce = locked then r.consume else r.produce
    let consume := (r.consume + 1) % capacity
    some (r.buffer r.consume.toNat,
      { buffer := r.buffer
        consume := if consume = produce then locked else consume
        produce := produce })

def toList (capacity : Nat) (r : LockedRing α) (count : Nat) : List α :=
  (List.range count).map fun i => r.buffer ((r.consume.toNat + i) % capacity)

/-- From the cell `start` on, the ring holds `xs` in the order of popping. -/
structure HoldsFrom (capacity : Nat) (r : LockedRing α) (start : Nat) (xs : List α) :
    Prop where
  start_lt : start < capacity
  length_le : xs.length ≤ capacity
  produce : r.produce =
    if xs.length = capacity then locked else ((start + xs.length) % capacity : Nat)
  consume : xs ≠ [] → r.consume = start
  consume_nil : xs = [] → r.consume = locked ∨ r.consume = start
  cells : ∀ i (h : i < xs.length), r.buffer ((start + i) % capacity) = xs[i]

def Holds (capacity : Nat) (r : LockedRing α) (xs : List α) : Prop :=
  ∃ start, HoldsFrom capacity r start xs

/-! ## Cells of the ring -/

private theorem index_eq {capacity start i : Nat} (hs : start < capacity)
    (hi : i ≤ capacity) :
    (start + i) % capacity =
      if start + i < capacity then start + i else start + i - capacity := by
  split_ifs with hlt
  · exact Nat.mod_eq_of_lt hlt
  · rw [Nat.mod_eq_sub_mod (by omega), Nat.mod_eq_of_lt (by omega)]

private theorem index_injective {capacity start i j : Nat} (hs : start < capacity)
    (hi : i < capacity) (hj : j < capacity)
    (h : (start + i) % capacity = (start + j) % capacity) : i = j := by
  rw [index_eq hs (Nat.le_of_lt hi), index_eq hs (Nat.le_of_lt hj)] at h
  split at h <;> split at h <;> omega

private theorem index_wraps {capacity start n : Nat} (hs : start < capacity)
    (hn : n ≤ capacity) (hpos : 0 < n) :
    (start + n) % capacity = start ↔ n = capacity := by
  rw [index_eq hs hn]
  split <;> omega

private theorem index_succ {capacity start i : Nat} :
    ((start + 1) % capacity + i) % capacity = (start + (i + 1)) % capacity := by
  rw [Nat.mod_add_mod]
  congr 1
  omega

private theorem cast_index_succ (capacity p : Nat) :
    ((p : Int) + 1) % (capacity : Int) = ((p + 1) % capacity : Nat) := by
  push_cast
  rfl

private theorem cast_ne_locked (n : Nat) : (n : Int) ≠ locked := by
  simp only [locked]
  omega

/-! ## Readings of the indices -/

theorem Holds.capacity_pos {capacity : Nat} {r : LockedRing α} {xs : List α}
    (h : Holds capacity r xs) : 0 < capacity := by
  obtain ⟨start, h⟩ := h
  exact Nat.zero_lt_of_lt h.start_lt

theorem Holds.length_le {capacity : Nat} {r : LockedRing α} {xs : List α}
    (h : Holds capacity r xs) : xs.length ≤ capacity := by
  obtain ⟨start, h⟩ := h
  exact h.length_le

theorem Holds.produce_locked_iff {capacity : Nat} {r : LockedRing α} {xs : List α}
    (h : Holds capacity r xs) : r.produce = locked ↔ xs.length = capacity := by
  obtain ⟨start, h⟩ := h
  rw [h.produce]
  split_ifs with hfull
  · exact iff_of_true rfl hfull
  · exact iff_of_false (cast_ne_locked _) hfull

theorem Holds.consume_locked_iff {capacity : Nat} {r : LockedRing α} {xs : List α}
    (h : Holds capacity r xs) :
    (r.consume = locked ∨ r.consume = r.produce) ↔ xs = [] := by
  obtain ⟨start, h⟩ := h
  constructor
  · intro hconsume
    by_contra hne
    have hlen : 0 < xs.length := List.length_pos_iff.mpr hne
    rw [h.consume hne] at hconsume
    rcases hconsume with hconsume | hconsume
    · exact cast_ne_locked _ hconsume
    · rw [h.produce] at hconsume
      split_ifs at hconsume with hfull
      · exact cast_ne_locked _ hconsume
      · have hwrap := (index_wraps h.start_lt h.length_le hlen).mp
          (Int.ofNat.inj hconsume).symm
        exact hfull hwrap
  · rintro rfl
    rcases h.consume_nil rfl with hconsume | hconsume
    · exact .inl hconsume
    · right
      have hpos := Nat.zero_lt_of_lt h.start_lt
      rw [hconsume, h.produce, if_neg (by simp; omega)]
      simp [Nat.mod_eq_of_lt h.start_lt]

theorem Holds.toList_eq {capacity : Nat} {r : LockedRing α} {xs : List α}
    (h : Holds capacity r xs) : r.toList capacity xs.length = xs := by
  obtain ⟨start, h⟩ := h
  apply List.ext_getElem
  · simp [toList]
  · intro i hi hi'
    have hne : xs ≠ [] := List.ne_nil_of_length_pos (Nat.zero_lt_of_lt hi')
    simp [toList, h.consume hne, h.cells i hi']

/-! ## Pushing and popping -/

theorem Holds.push {capacity : Nat} {r : LockedRing α} {xs : List α} {x : α}
    (h : Holds capacity r xs) (hspace : xs.length < capacity) :
    ∃ r', r.push capacity x = some r' ∧ Holds capacity r' (xs ++ [x]) := by
  obtain ⟨start, h⟩ := h
  set p := (start + xs.length) % capacity with hp
  have hproduce : r.produce = (p : Int) := by
    rw [h.produce, if_neg (Nat.ne_of_lt hspace)]
  have hconsume :
      (if r.consume = locked then r.produce else r.consume) = (start : Int) := by
    by_cases hne : xs = []
    · have hstart : p = start := by
        subst hne
        simpa [hp] using Nat.mod_eq_of_lt h.start_lt
      rcases h.consume_nil hne with hc | hc
      · rw [if_pos hc, hproduce, hstart]
      · rw [hc, if_neg (cast_ne_locked _)]
    · rw [h.consume hne, if_neg (cast_ne_locked _)]
  have hnext : ((p : Int) + 1) % (capacity : Int) =
      ((start + (xs.length + 1)) % capacity : Nat) := by
    rw [cast_index_succ, hp, Nat.mod_add_mod, Nat.add_assoc]
  refine ⟨_, if_neg (by rw [hproduce]; exact cast_ne_locked _), start, ?_⟩
  constructor
  · exact h.start_lt
  · rw [List.length_append, List.length_singleton]
    exact hspace
  · change (if (r.produce + 1) % (capacity : Int) =
        (if r.consume = locked then r.produce else r.consume) then locked
      else (r.produce + 1) % (capacity : Int)) = _
    rw [hconsume, hproduce, hnext, List.length_append, List.length_singleton]
    simp only [Int.ofNat_inj, index_wraps h.start_lt hspace (Nat.succ_pos _)]
  · intro _
    exact hconsume
  · simp
  · intro i hi
    simp only [hproduce, Int.toNat_natCast]
    rw [List.length_append, List.length_singleton] at hi
    by_cases hlast : i = xs.length
    · subst hlast
      simp [← hp]
    · have hi' : i < xs.length := by omega
      have hne : (start + i) % capacity ≠ p := by
        intro heq
        exact hlast (index_injective h.start_lt (Nat.lt_trans hi' hspace) hspace heq)
      rw [Function.update_of_ne hne, h.cells i hi', List.getElem_append_left hi']

theorem Holds.pop {capacity : Nat} {r : LockedRing α} {x : α} {xs : List α}
    (h : Holds capacity r (x :: xs)) :
    ∃ r', r.pop capacity = some (x, r') ∧ Holds capacity r' xs := by
  obtain ⟨start, h⟩ := h
  have hconsume : r.consume = (start : Int) := h.consume (by simp)
  have hlength := h.length_le
  rw [List.length_cons] at hlength
  have hproduce : (if r.produce = locked then r.consume else r.produce) =
      ((start + (xs.length + 1)) % capacity : Nat) := by
    rw [h.produce, hconsume, List.length_cons]
    by_cases hfull : xs.length + 1 = capacity
    · rw [if_pos hfull, if_pos rfl,
        (index_wraps h.start_lt hlength (Nat.succ_pos _)).mpr hfull]
    · rw [if_neg hfull, if_neg (cast_ne_locked _)]
  have hfirst : r.buffer start = x := by
    have := h.cells 0 (by simp)
    simpa [Nat.mod_eq_of_lt h.start_lt] using this
  have hcatch : (start + 1) % capacity = (start + (xs.length + 1)) % capacity ↔
      xs = [] := by
    constructor
    · intro heq
      rw [index_eq h.start_lt (by omega), index_eq h.start_lt hlength] at heq
      have hlen : xs.length = 0 := by
        split at heq <;> split at heq <;> omega
      exact List.length_eq_zero_iff.mp hlen
    · rintro rfl
      rfl
  have hpop : r.pop capacity = some (x,
      { buffer := r.buffer
        consume := if xs = [] then locked else ((start + 1) % capacity : Nat)
        produce := ((start + (xs.length + 1)) % capacity : Nat) }) := by
    rw [LockedRing.pop, if_neg (by rw [hconsume]; exact cast_ne_locked _)]
    simp only [hproduce]
    simp only [hconsume, Int.toNat_natCast, hfirst, cast_index_succ, Int.ofNat_inj,
      hcatch]
  refine ⟨_, hpop, (start + 1) % capacity, ?_⟩
  · constructor
    · exact Nat.mod_lt _ (Nat.zero_lt_of_lt h.start_lt)
    · omega
    · rw [if_neg (Nat.ne_of_lt hlength), index_succ]
    · intro hne
      simp [hne]
    · intro hnil
      simp [hnil]
    · intro i hi
      simp only [index_succ]
      exact h.cells (i + 1) (Nat.succ_lt_succ hi)

end LockedRing

end SchlagOS.Foundation
