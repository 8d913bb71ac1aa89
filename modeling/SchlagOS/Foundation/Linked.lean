import Mathlib.Data.List.Chain
import Mathlib.Data.List.Nodup
import Mathlib.Logic.Function.Basic

/-!
# Doubly linked sequences of addresses

`Linked next prev row` says that two neighbours of `row` point at each other.
A circular list with a sentinel is the row `head :: xs ++ [head]`; a list that
ends in a null pointer is the row `null :: xs ++ [null]`, where the fields of
`null` are the first and last pointers of the list's header.  Inserting and
unlinking are the two pairs of pointer writes every such list makes.
-/

namespace SchlagOS.Foundation

variable {κ : Type*}

def Linked (next prev : κ → κ) (row : List κ) : Prop :=
  row.IsChain fun a b => next a = b ∧ prev b = a

/-- Reads of `next` happen everywhere but at the end of the row, reads of
`prev` everywhere but at its start. -/
theorem Linked.congr {next prev next' prev' : κ → κ} {row : List κ}
    (h : Linked next prev row)
    (hnext : ∀ a ∈ row.dropLast, next' a = next a)
    (hprev : ∀ b ∈ row.tail, prev' b = prev b) :
    Linked next' prev' row := by
  induction row with
  | nil => exact .nil
  | cons a row ih =>
      cases row with
      | nil => exact .singleton _
      | cons b row =>
          simp only [Linked, List.isChain_cons_cons] at h ⊢
          simp only [List.dropLast_cons_cons, List.tail_cons,
            List.forall_mem_cons] at hnext hprev
          refine ⟨⟨hnext.1.trans h.1.1, hprev.1.trans h.1.2⟩,
            ih h.2 hnext.2 ?_⟩
          simpa using hprev.2

theorem linked_split {next prev : κ → κ} {before after : List κ} {c : κ} :
    Linked next prev (before ++ c :: after) ↔
      Linked next prev (before ++ [c]) ∧ Linked next prev (c :: after) :=
  List.isChain_split

theorem Linked.next_eq {next prev : κ → κ} {after : List κ} {a b : κ}
    (before : List κ) (h : Linked next prev (before ++ a :: b :: after)) : next a = b :=
  (List.isChain_cons_cons.mp (linked_split.mp h).2).1.1

theorem Linked.prev_eq {next prev : κ → κ} {after : List κ} {a b : κ}
    (before : List κ) (h : Linked next prev (before ++ a :: b :: after)) : prev b = a :=
  (List.isChain_cons_cons.mp (linked_split.mp h).2).1.2

variable [DecidableEq κ]

/-- The four writes that link `new` in between the neighbours `a` and `b`. -/
theorem Linked.insert {next prev next' prev' : κ → κ} {before after : List κ}
    {a b new : κ}
    (h : Linked next prev (before ++ a :: b :: after))
    (hdrop : (before ++ a :: b :: after).dropLast.Nodup)
    (htail : (before ++ a :: b :: after).tail.Nodup)
    (hnew : new ∉ before ++ a :: b :: after)
    (hnextNew : next' new = b) (hprevNew : prev' new = a)
    (hnext : ∀ y, y ≠ new → next' y = Function.update next a new y)
    (hprev : ∀ y, y ≠ new → prev' y = Function.update prev b new y) :
    Linked next' prev' (before ++ a :: new :: b :: after) := by
  have hsplit := linked_split.mp h
  have hrest := List.isChain_cons_cons.mp hsplit.2
  simp only [List.mem_append, List.mem_cons, not_or] at hnew
  have hdrop' : (before ++ a :: (b :: after).dropLast).Nodup := by
    simpa [List.dropLast_append] using hdrop
  have htail' : ((before ++ [a]).tail ++ b :: after).Nodup := by
    cases before <;> simpa using htail
  rw [List.nodup_append] at hdrop' htail'
  rw [linked_split]
  refine ⟨?_, ?_⟩
  · refine Linked.congr hsplit.1 ?_ ?_
    · intro x hx
      have hx : x ∈ before := by simpa using hx
      have hxa : x ≠ a := hdrop'.2.2 x hx a (by simp)
      have hxn : x ≠ new := fun h => hnew.1 (h ▸ hx)
      simp [hnext x hxn, hxa]
    · intro x hx
      have hxb : x ≠ b := htail'.2.2 x hx b (by simp)
      have hxn : x ≠ new := by
        rintro rfl
        have := List.mem_of_mem_tail hx
        simp at this
        tauto
      simp [hprev x hxn, hxb]
  · refine List.isChain_cons_cons.mpr ⟨?_, List.isChain_cons_cons.mpr ⟨?_, ?_⟩⟩
    · simp [hnext a (Ne.symm hnew.2.1), hprevNew]
    · simp [hnextNew, hprev b (Ne.symm hnew.2.2.1)]
    · refine Linked.congr hrest.2 ?_ ?_
      · intro x hx
        have hxa : x ≠ a := by
          rintro rfl
          exact (List.nodup_cons.mp hdrop'.2.1).1 hx
        have hxn : x ≠ new := by
          rintro rfl
          have := (List.dropLast_sublist _).subset hx
          simp at this
          tauto
        simp [hnext x hxn, hxa]
      · intro x hx
        have hx : x ∈ after := by simpa using hx
        have hxb : x ≠ b := by
          rintro rfl
          exact (List.nodup_cons.mp htail'.2.1).1 hx
        have hxn : x ≠ new := fun h => hnew.2.2.2 (h ▸ hx)
        simp [hprev x hxn, hxb]

/-- The two writes that take `x` out of the row; whatever the row's other
addresses hold afterwards agrees with them. -/
theorem Linked.unlink {next prev next' prev' : κ → κ} {before after : List κ}
    {a x b : κ}
    (h : Linked next prev (before ++ a :: x :: b :: after))
    (hdrop : (before ++ a :: x :: b :: after).dropLast.Nodup)
    (htail : (before ++ a :: x :: b :: after).tail.Nodup)
    (hnext : ∀ y, y ≠ x → next' y = Function.update next a b y)
    (hprev : ∀ y, y ≠ x → prev' y = Function.update prev b a y) :
    Linked next' prev' (before ++ a :: b :: after) := by
  have hsplit := linked_split.mp h
  have hrest := List.isChain_cons_cons.mp hsplit.2
  have hrest' := List.isChain_cons_cons.mp hrest.2
  have hdrop' : (before ++ a :: x :: (b :: after).dropLast).Nodup := by
    simpa [List.dropLast_append] using hdrop
  have htail' : ((before ++ [a]).tail ++ x :: b :: after).Nodup := by
    cases before <;> simpa using htail
  rw [List.nodup_append] at hdrop' htail'
  have hax : a ≠ x := by
    rintro rfl
    simp at hdrop'
  have hbx : b ≠ x := by
    rintro rfl
    simp at htail'
  rw [linked_split]
  refine ⟨?_, ?_⟩
  · refine Linked.congr hsplit.1 ?_ ?_
    · intro y hy
      have hy : y ∈ before := by simpa using hy
      have hya : y ≠ a := hdrop'.2.2 y hy a (by simp)
      have hyx : y ≠ x := hdrop'.2.2 y hy x (by simp)
      simp [hnext y hyx, hya]
    · intro y hy
      have hyx : y ≠ x := htail'.2.2 y hy x (by simp)
      have hyb : y ≠ b := htail'.2.2 y hy b (by simp)
      simp [hprev y hyx, hyb]
  · refine List.isChain_cons_cons.mpr ⟨?_, ?_⟩
    · simp [hnext a hax, hprev b hbx]
    · refine Linked.congr hrest'.2 ?_ ?_
      · intro y hy
        have hya : y ≠ a := by
          rintro rfl
          simp [hy] at hdrop'
        have hyx : y ≠ x := by
          rintro rfl
          simp [hy] at hdrop'
        simp [hnext y hyx, hya]
      · intro y hy
        have hy : y ∈ after := by simpa using hy
        have hyb : y ≠ b := by
          rintro rfl
          exact (List.nodup_cons.mp (List.nodup_cons.mp htail'.2.1).2).1 hy
        have hyx : y ≠ x := by
          rintro rfl
          exact (List.nodup_cons.mp htail'.2.1).1 (List.mem_cons_of_mem _ hy)
        simp [hprev y hyx, hyb]

end SchlagOS.Foundation
