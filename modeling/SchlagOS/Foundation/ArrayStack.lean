import Mathlib.Data.List.Basic
import Mathlib.Data.List.Nodup
import Mathlib.Logic.Function.Basic

/-!
# Arrays with a fill count

An array of which the first `count` cells are in use.  The cells from `count`
on hold a filler and are no part of the contents.
-/

namespace SchlagOS.Foundation

structure ArrayStack (α : Type*) where
  cells : Nat → α
  count : Nat

namespace ArrayStack

variable {α : Type*}

def entries (s : ArrayStack α) : List α := (List.range s.count).map s.cells

def push (s : ArrayStack α) (x : α) : ArrayStack α where
  cells := Function.update s.cells s.count x
  count := s.count + 1

/-- Give up the last entry and put the filler in its cell. -/
def shrink (s : ArrayStack α) (filler : α) : ArrayStack α where
  cells := Function.update s.cells (s.count - 1) filler
  count := s.count - 1

/-- Overwrite the entry at `i` by the last one and shrink. -/
def replaceByLast (s : ArrayStack α) (filler : α) (i : Nat) : ArrayStack α :=
  let cells := Function.update s.cells i (s.cells (s.count - 1))
  { cells := Function.update cells (s.count - 1) filler
    count := s.count - 1 }

/-- Exchange the first and the last entry. -/
def swapEnds (s : ArrayStack α) : ArrayStack α :=
  let last := s.cells (s.count - 1)
  { s with
    cells := Function.update (Function.update s.cells (s.count - 1) (s.cells 0)) 0 last }

@[simp] theorem length_entries (s : ArrayStack α) : s.entries.length = s.count := by
  simp [entries]

theorem getElem_entries (s : ArrayStack α) {i : Nat} (h : i < s.entries.length) :
    s.entries[i] = s.cells i := by
  simp [entries]

theorem entries_eq_nil (s : ArrayStack α) : s.entries = [] ↔ s.count = 0 := by
  rw [← List.length_eq_zero_iff, length_entries]

@[simp] theorem entries_push (s : ArrayStack α) (x : α) :
    (s.push x).entries = s.entries ++ [x] := by
  simp only [entries, push, List.range_succ, List.map_append, List.map_singleton,
    Function.update_self]
  congr 1
  apply List.map_congr_left
  intro i hi
  exact Function.update_of_ne (Nat.ne_of_lt (List.mem_range.mp hi)) _ _

@[simp] theorem entries_shrink (s : ArrayStack α) (filler : α) :
    (s.shrink filler).entries = s.entries.dropLast := by
  apply List.ext_getElem
  · simp [shrink]
  · intro i hi hi'
    have hlt : i < s.count - 1 := by simpa [shrink] using hi
    rw [getElem_entries, List.getElem_dropLast, getElem_entries]
    exact Function.update_of_ne (Nat.ne_of_lt hlt) _ _

theorem getLast_entries (s : ArrayStack α) (h : s.entries ≠ []) :
    s.entries.getLast h = s.cells (s.count - 1) := by
  rw [List.getLast_eq_getElem, getElem_entries, length_entries]

theorem entries_eq_concat (s : ArrayStack α) (h : s.count ≠ 0) (filler : α) :
    s.entries = (s.shrink filler).entries ++ [s.cells (s.count - 1)] := by
  have hne : s.entries ≠ [] := by
    rwa [Ne, entries_eq_nil]
  rw [entries_shrink, ← getLast_entries s hne, List.dropLast_append_getLast hne]

theorem entries_update (s : ArrayStack α) (i : Nat) (x : α) :
    entries { s with cells := Function.update s.cells i x } = s.entries.set i x := by
  apply List.ext_getElem
  · simp
  · intro j hj hj'
    rw [getElem_entries, List.getElem_set]
    by_cases hij : i = j
    · subst hij
      simp
    · rw [if_neg hij, getElem_entries]
      exact Function.update_of_ne (Ne.symm hij) _ _

theorem entries_swapEnds (s : ArrayStack α) {first last : α} {middle : List α}
    (h : s.entries = first :: (middle ++ [last])) :
    s.swapEnds.entries = last :: (middle ++ [first]) := by
  have hcount : s.count = middle.length + 2 := by
    have := congrArg List.length h
    simpa using this
  have hfirst : s.cells 0 = first := by
    have := getElem_entries s (i := 0) (by simp [hcount])
    simpa [h] using this.symm
  have hlast : s.cells (s.count - 1) = last := by
    have := getLast_entries s (by simp [h])
    simpa [h] using this.symm
  have hswap : s.swapEnds.entries =
      (s.entries.set (s.count - 1) (s.cells 0)).set 0 (s.cells (s.count - 1)) := by
    rw [swapEnds, ← entries_update, ← entries_update]
  rw [hswap, hfirst, hlast, h, hcount]
  simp

/-- What replacing by the last entry does to the entries from `i` on. -/
theorem entries_replaceByLast (s : ArrayStack α) (filler : α) {kept : List α} {x : α}
    {rest : List α} (h : s.entries = kept ++ x :: rest) :
    (s.replaceByLast filler kept.length).entries =
      kept ++ rest.getLast?.toList ++ rest.dropLast := by
  have hcount : s.count = kept.length + rest.length + 1 := by
    have := congrArg List.length h
    simp at this
    omega
  have hreplace : (s.replaceByLast filler kept.length).entries =
      (s.entries.set kept.length (s.cells (s.count - 1))).dropLast := by
    rw [← entries_update, ← entries_shrink _ filler]
    rfl
  have hlast : s.cells (s.count - 1) = rest.getLast?.getD x := by
    have := getLast_entries s (by simp [h])
    rw [← this]
    rcases List.eq_nil_or_concat rest with rfl | ⟨front, z, rfl⟩ <;> simp [h]
  rw [hreplace, hlast, h]
  rcases List.eq_nil_or_concat rest with rfl | ⟨front, z, rfl⟩
  · simp
  · have hdrop : ((z :: front) ++ [z]).dropLast = z :: front := List.dropLast_concat
    rw [List.cons_append] at hdrop
    simp [hdrop]

theorem cells_mem (s : ArrayStack α) {i : Nat} (h : i < s.count) : s.cells i ∈ s.entries := by
  have hlength : i < s.entries.length := by
    rwa [length_entries]
  rw [← getElem_entries s hlength]
  exact List.getElem_mem hlength

/-- Replacing by the last entry takes out one entry. -/
theorem perm_replaceByLast (s : ArrayStack α) (filler : α) {i : Nat} (h : i < s.count) :
    s.entries.Perm (s.cells i :: (s.replaceByLast filler i).entries) := by
  have hlength : i < s.entries.length := by
    rwa [length_entries]
  have hsplit : s.entries = s.entries.take i ++ s.cells i :: s.entries.drop (i + 1) := by
    rw [← getElem_entries s hlength, List.getElem_cons_drop, List.take_append_drop]
  have hreplace := s.entries_replaceByLast filler hsplit
  have htake : (s.entries.take i).length = i := by
    rw [List.length_take]
    omega
  rw [htake] at hreplace
  rw [hreplace]
  generalize s.entries.take i = kept at hsplit
  generalize s.entries.drop (i + 1) = rest at hsplit
  rw [hsplit]
  rcases List.eq_nil_or_concat rest with rfl | ⟨front, z, rfl⟩
  · simp
  · rw [List.concat_eq_append, List.getLast?_concat, List.dropLast_concat, Option.toList_some,
      List.append_assoc]
    exact (List.perm_middle).trans (List.Perm.cons _ (List.Perm.append_left _
      (List.perm_append_singleton z front)))

end ArrayStack

end SchlagOS.Foundation
