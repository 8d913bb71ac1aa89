import SchlagOS.Foundation.Linked
import Mathlib.Data.List.Sort
import Mathlib.Data.List.TakeWhile

/-!
# Intrusive circular lists with a sentinel

The elements carry their own link fields, so an element is linked in at most
one such list.  A null link marks an element outside the list: adding checks
for it and deleting checks against it.  The operations write pointers; `Holds`
ties the pointers to the list of elements they represent, in the order in which
`next` leads through them.
-/

namespace SchlagOS.Foundation

inductive LinkRef (ι : Type*) where
  | null
  | head
  | elem (i : ι)
  deriving DecidableEq, Repr

structure LinkQueue (ι : Type*) where
  prev : LinkRef ι → LinkRef ι
  next : LinkRef ι → LinkRef ι

namespace LinkQueue

variable {ι : Type*} [DecidableEq ι]

def empty : LinkQueue ι where
  prev ref := if ref = .head then .head else .null
  next ref := if ref = .head then .head else .null

/-- Advance at least once, then on as long as the element reached is `below`. -/
def seek (q : LinkQueue ι) (below : ι → Bool) : Nat → LinkRef ι → LinkRef ι
  | 0, current => current
  | fuel + 1, current =>
      match q.next current with
      | .elem i => if below i then seek q below fuel (.elem i) else .elem i
      | other => other

def link (q : LinkQueue ι) (x : ι) (before current : LinkRef ι) : LinkQueue ι where
  next := Function.update (Function.update q.next (.elem x) current) before (.elem x)
  prev := Function.update (Function.update q.prev (.elem x) before) current (.elem x)

def unlink (q : LinkQueue ι) (x before after : LinkRef ι) : LinkQueue ι where
  next := Function.update (Function.update q.next before after) x .null
  prev := Function.update (Function.update q.prev after before) x .null

/-- `none` when `x` is already linked. -/
def add (q : LinkQueue ι) (below : ι → Bool) (fuel : Nat) (x : ι) :
    Option (LinkQueue ι) :=
  if q.prev (.elem x) = .null ∧ q.next (.elem x) = .null then
    let current := q.seek below fuel .head
    some (q.link x (q.prev current) current)
  else none

/-- `none` when `x` is not linked. -/
def del (q : LinkQueue ι) (x : ι) : Option (LinkQueue ι) :=
  if q.prev (.elem x) ≠ .null ∧ q.next (.elem x) ≠ .null then
    some (q.unlink (.elem x) (q.prev (.elem x)) (q.next (.elem x)))
  else none

/-- Reset the link fields of `x` without touching its neighbours. -/
def clear (q : LinkQueue ι) (x : ι) : LinkQueue ι where
  next := Function.update q.next (.elem x) .null
  prev := Function.update q.prev (.elem x) .null

def elem? : LinkRef ι → Option ι
  | .elem i => some i
  | _ => none

def top (q : LinkQueue ι) : Option ι :=
  if q.next .head = .head then none else elem? (q.prev .head)

def out (q : LinkQueue ι) : Option ι × LinkQueue ι :=
  if q.next .head = .head then (none, q)
  else
    (elem? (q.prev .head),
      q.unlink (q.prev .head) (q.prev (q.prev .head)) .head)

def walk (q : LinkQueue ι) : Nat → LinkRef ι → List ι
  | 0, _ => []
  | fuel + 1, current =>
      match q.next current with
      | .elem i => i :: walk q fuel (.elem i)
      | _ => []

def toList (q : LinkQueue ι) (fuel : Nat) : List ι := q.walk fuel .head

/-! ## The list the links represent -/

def row (xs : List ι) : List (LinkRef ι) := .head :: (xs.map .elem ++ [.head])

def lastRef (xs : List ι) : LinkRef ι := (xs.map LinkRef.elem).getLast?.getD .head

def firstRef (xs : List ι) : LinkRef ι := (xs.map LinkRef.elem).head?.getD .head

structure Holds (q : LinkQueue ι) (xs : List ι) : Prop where
  linked : Linked q.next q.prev (row xs)
  nodup : xs.Nodup
  unlinked : ∀ i ∉ xs, q.next (.elem i) = .null ∧ q.prev (.elem i) = .null

omit [DecidableEq ι] in
theorem nodup_row {xs : List ι} (h : xs.Nodup) :
    (row xs).dropLast.Nodup ∧ (row xs).tail.Nodup := by
  have hmap : (xs.map LinkRef.elem).Nodup :=
    h.map fun _ _ => LinkRef.elem.inj
  constructor
  · rw [row, ← List.cons_append, List.dropLast_concat, List.nodup_cons]
    exact ⟨by simp, hmap⟩
  · simp only [row, List.tail_cons]
    rw [List.nodup_append]
    exact ⟨hmap, by simp, by simp⟩

theorem empty_holds : Holds (empty : LinkQueue ι) [] where
  linked := by simp [row, Linked, empty]
  nodup := List.nodup_nil
  unlinked := by simp [empty]

omit [DecidableEq ι] in
/-- A row splits between the neighbours of any cut. -/
private theorem row_split (before after : List ι) :
    ∃ front back,
      row (before ++ after) = front ++ lastRef before :: firstRef after :: back ∧
      ∀ x, row (before ++ x :: after) =
        front ++ lastRef before :: .elem x :: firstRef after :: back := by
  obtain ⟨front, hfront⟩ : ∃ front,
      LinkRef.head :: before.map LinkRef.elem = front ++ [lastRef before] := by
    rcases List.eq_nil_or_concat before with rfl | ⟨front, a, rfl⟩
    · exact ⟨[], rfl⟩
    · exact ⟨.head :: front.map .elem, by simp [lastRef]⟩
  obtain ⟨back, hback⟩ : ∃ back,
      after.map LinkRef.elem ++ [LinkRef.head] = firstRef after :: back := by
    cases after with
    | nil => exact ⟨[], rfl⟩
    | cons b back => exact ⟨back.map .elem ++ [.head], rfl⟩
  refine ⟨front, back, ?_, fun x => ?_⟩
  · rw [row, List.map_append, List.append_assoc, ← List.cons_append, hfront,
      hback, List.append_assoc, List.singleton_append]
  · rw [row, List.map_append, List.append_assoc, ← List.cons_append, hfront,
      List.map_cons, List.cons_append, hback, List.append_assoc,
      List.singleton_append]

omit [DecidableEq ι] in
/-- The pointers around an element of the list. -/
theorem Holds.around {q : LinkQueue ι} {before after : List ι} {x : ι}
    (h : Holds q (before ++ x :: after)) :
    q.prev (.elem x) = lastRef before ∧ q.next (.elem x) = firstRef after := by
  obtain ⟨front, back, -, hrow⟩ := row_split before after
  have hlinked := h.linked
  rw [hrow] at hlinked
  refine ⟨hlinked.prev_eq _, ?_⟩
  rw [← List.singleton_append, ← List.append_assoc] at hlinked
  exact hlinked.next_eq _

omit [DecidableEq ι] in
/-- The pointers on both sides of any cut of the list. -/
theorem Holds.across {q : LinkQueue ι} {before after : List ι}
    (h : Holds q (before ++ after)) :
    q.prev (firstRef after) = lastRef before := by
  obtain ⟨front, back, hrow, -⟩ := row_split before after
  have hlinked := h.linked
  rw [hrow] at hlinked
  exact hlinked.prev_eq _

omit [DecidableEq ι] in
theorem Holds.linked_iff {q : LinkQueue ι} {xs : List ι} (h : Holds q xs) (x : ι) :
    x ∈ xs ↔ q.prev (.elem x) ≠ .null ∧ q.next (.elem x) ≠ .null := by
  constructor
  · intro hx
    obtain ⟨before, after, rfl⟩ := List.append_of_mem hx
    obtain ⟨hprev, hnext⟩ := h.around
    rw [hprev, hnext]
    constructor
    · rcases List.eq_nil_or_concat before with rfl | ⟨front, a, rfl⟩ <;>
        simp [lastRef]
    · cases after <;> simp [firstRef]
  · intro hx
    by_contra hnot
    exact hx.1 (h.unlinked x hnot).2

omit [DecidableEq ι] in
private theorem walk_linked {q : LinkQueue ι} {xs : List ι} {current : LinkRef ι}
    {fuel : Nat}
    (h : Linked q.next q.prev (current :: (xs.map .elem ++ [.head])))
    (hfuel : xs.length < fuel) :
    q.walk fuel current = xs := by
  induction xs generalizing current fuel with
  | nil =>
      obtain ⟨fuel, rfl⟩ := Nat.exists_eq_succ_of_ne_zero (Nat.ne_zero_of_lt hfuel)
      have hnext := h.next_eq []
      simp [walk, hnext]
  | cons x xs ih =>
      obtain ⟨fuel, rfl⟩ := Nat.exists_eq_succ_of_ne_zero (Nat.ne_zero_of_lt hfuel)
      have hnext := h.next_eq []
      have htail := ih (List.isChain_cons_cons.mp h).2 (Nat.lt_of_succ_lt_succ hfuel)
      simp [walk, hnext, htail]

omit [DecidableEq ι] in
theorem Holds.toList_eq {q : LinkQueue ι} {xs : List ι} {fuel : Nat}
    (h : Holds q xs) (hfuel : xs.length < fuel) : q.toList fuel = xs :=
  walk_linked h.linked hfuel

/-! ## Adding -/

/-- Where `add` puts an element: in front of the first one that is not `below`. -/
def place (below : ι → Bool) (x : ι) (xs : List ι) : List ι :=
  xs.takeWhile below ++ x :: xs.dropWhile below

omit [DecidableEq ι] in
private theorem seek_linked {q : LinkQueue ι} {below : ι → Bool} {xs : List ι}
    {current : LinkRef ι} {fuel : Nat}
    (h : Linked q.next q.prev (current :: (xs.map .elem ++ [.head])))
    (hfuel : xs.length < fuel) :
    q.seek below fuel current = firstRef (xs.dropWhile below) := by
  induction xs generalizing current fuel with
  | nil =>
      obtain ⟨fuel, rfl⟩ := Nat.exists_eq_succ_of_ne_zero (Nat.ne_zero_of_lt hfuel)
      have hnext := h.next_eq []
      simp [seek, hnext, firstRef]
  | cons x xs ih =>
      obtain ⟨fuel, rfl⟩ := Nat.exists_eq_succ_of_ne_zero (Nat.ne_zero_of_lt hfuel)
      have hnext := h.next_eq []
      have htail := ih (List.isChain_cons_cons.mp h).2 (Nat.lt_of_succ_lt_succ hfuel)
      cases hx : below x <;> simp [seek, hnext, hx, htail, firstRef]

theorem Holds.link {q : LinkQueue ι} {before after : List ι} {x : ι}
    (h : Holds q (before ++ after)) (hx : x ∉ before ++ after) :
    Holds (q.link x (lastRef before) (firstRef after)) (before ++ x :: after) := by
  obtain ⟨front, back, hrow, hrow'⟩ := row_split before after
  have hlinked := h.linked
  have hnodup := nodup_row h.nodup
  have hmem : ∀ i, LinkRef.elem i ∈ row (before ++ after) ↔ i ∈ before ++ after := by
    simp [row]
  rw [hrow] at hlinked hnodup
  simp only [hrow] at hmem
  have hne : ∀ i ∉ before ++ after,
      LinkRef.elem i ≠ lastRef before ∧ LinkRef.elem i ≠ firstRef after := by
    intro i hi
    constructor
    · intro heq
      exact hi ((hmem i).mp (by simp [heq]))
    · intro heq
      exact hi ((hmem i).mp (by simp [heq]))
  constructor
  · rw [hrow']
    refine hlinked.insert hnodup.1 hnodup.2 (mt (hmem x).mp hx) ?_ ?_ ?_ ?_
    · simp [LinkQueue.link, (hne x hx).1]
    · simp [LinkQueue.link, (hne x hx).2]
    · intro y hy
      simp [LinkQueue.link, Function.update_apply, hy]
    · intro y hy
      simp [LinkQueue.link, Function.update_apply, hy]
  · have hperm : (before ++ x :: after).Perm (x :: (before ++ after)) :=
      List.perm_middle
    exact hperm.nodup_iff.mpr (List.nodup_cons.mpr ⟨hx, h.nodup⟩)
  · intro i hi
    have hix : i ≠ x := by
      rintro rfl
      simp at hi
    have hi' : i ∉ before ++ after := by
      intro hmem'
      apply hi
      simp only [List.mem_append, List.mem_cons] at hmem' ⊢
      tauto
    simp [LinkQueue.link, hix, hne i hi', h.unlinked i hi']

theorem Holds.add {q : LinkQueue ι} {xs : List ι} {fuel : Nat} {x : ι} (h : Holds q xs)
    (hx : x ∉ xs) (hfuel : xs.length < fuel) (below : ι → Bool) :
    ∃ q', q.add below fuel x = some q' ∧ Holds q' (place below x xs) := by
  have hunlinked := h.unlinked x hx
  have hsplit : xs.takeWhile below ++ xs.dropWhile below = xs :=
    List.takeWhile_append_dropWhile
  have hprev : q.prev (firstRef (xs.dropWhile below)) = lastRef (xs.takeWhile below) :=
    Holds.across (by rwa [hsplit])
  refine ⟨_, if_pos ⟨hunlinked.2, hunlinked.1⟩, ?_⟩
  rw [seek_linked h.linked hfuel, hprev]
  exact Holds.link (by rwa [hsplit]) (by rwa [hsplit])

/-! ## Deleting -/

theorem Holds.unlink {q : LinkQueue ι} {before after : List ι} {x : ι}
    (h : Holds q (before ++ x :: after)) :
    Holds (q.unlink (.elem x) (q.prev (.elem x)) (q.next (.elem x)))
      (before ++ after) := by
  obtain ⟨front, back, hrow, hrow'⟩ := row_split before after
  have hlinked := h.linked
  have hnodup := nodup_row h.nodup
  have haround := h.around
  have hmem : ∀ i, LinkRef.elem i ∈ row (before ++ after) ↔ i ∈ before ++ after := by
    simp [row]
  simp only [hrow] at hmem
  rw [hrow'] at hlinked hnodup
  rw [haround.1, haround.2]
  have hperm : (before ++ x :: after).Perm (x :: (before ++ after)) :=
    List.perm_middle
  constructor
  · rw [hrow]
    refine hlinked.unlink hnodup.1 hnodup.2 ?_ ?_
    · intro y hy
      simp [LinkQueue.unlink, hy]
    · intro y hy
      simp [LinkQueue.unlink, hy]
  · exact (List.nodup_cons.mp (hperm.nodup_iff.mp h.nodup)).2
  · intro i hi
    by_cases hix : i = x
    · subst hix
      simp [LinkQueue.unlink]
    · have hlast : LinkRef.elem i ≠ lastRef before := by
        intro heq
        exact hi ((hmem i).mp (by simp [heq]))
      have hfirst : LinkRef.elem i ≠ firstRef after := by
        intro heq
        exact hi ((hmem i).mp (by simp [heq]))
      have hi' : i ∉ before ++ x :: after := by
        rw [hperm.mem_iff, List.mem_cons, not_or]
        exact ⟨hix, hi⟩
      simp [LinkQueue.unlink, hix, hlast, hfirst, h.unlinked i hi']

theorem Holds.del {q : LinkQueue ι} {xs : List ι} {x : ι}
    (h : Holds q xs) (hx : x ∈ xs) :
    ∃ q', q.del x = some q' ∧ Holds q' (xs.erase x) := by
  have hlinked := (h.linked_iff x).mp hx
  obtain ⟨before, after, hnot, rfl, herase⟩ := List.exists_erase_eq hx
  refine ⟨_, if_pos hlinked, ?_⟩
  rw [herase]
  exact h.unlink

theorem Holds.del_eq_none {q : LinkQueue ι} {xs : List ι} {x : ι}
    (h : Holds q xs) (hx : x ∉ xs) : q.del x = none := by
  simp [LinkQueue.del, h.unlinked x hx]

theorem Holds.clear {q : LinkQueue ι} {xs : List ι} {x : ι}
    (h : Holds q xs) (hx : x ∉ xs) : q.clear x = q := by
  have hunlinked := h.unlinked x hx
  have hnext : Function.update q.next (.elem x) .null = q.next := by
    rw [← hunlinked.1, Function.update_eq_self]
  have hprev : Function.update q.prev (.elem x) .null = q.prev := by
    rw [← hunlinked.2, Function.update_eq_self]
  simp [LinkQueue.clear, hnext, hprev]

/-! ## The element at the end -/

omit [DecidableEq ι] in
theorem Holds.isEmpty_iff {q : LinkQueue ι} {xs : List ι} (h : Holds q xs) :
    q.next .head = .head ↔ xs = [] := by
  have hlinked := h.linked
  cases xs with
  | nil => simpa using hlinked.next_eq []
  | cons x xs => simp [hlinked.next_eq []]

omit [DecidableEq ι] in
private theorem Holds.prev_head {q : LinkQueue ι} {xs : List ι} {x : ι}
    (h : Holds q (xs ++ [x])) : q.prev .head = .elem x := by
  have h' : Holds q ((xs ++ [x]) ++ []) := by simpa using h
  simpa [firstRef, lastRef] using h'.across

theorem Holds.top_eq {q : LinkQueue ι} {xs : List ι} (h : Holds q xs) :
    q.top = xs.getLast? := by
  rcases List.eq_nil_or_concat xs with rfl | ⟨front, x, rfl⟩
  · simp [LinkQueue.top, h.isEmpty_iff]
  · rw [List.concat_eq_append] at h ⊢
    simp [LinkQueue.top, h.isEmpty_iff, h.prev_head, elem?]

theorem Holds.out_eq {q : LinkQueue ι} {xs : List ι} (h : Holds q xs) :
    q.out.1 = xs.getLast? ∧ Holds q.out.2 xs.dropLast := by
  rcases List.eq_nil_or_concat xs with rfl | ⟨front, x, rfl⟩
  · simpa [LinkQueue.out, h.isEmpty_iff] using h
  · rw [List.concat_eq_append] at h ⊢
    have hnext : q.next (.elem x) = .head := by simpa [firstRef] using h.around.2
    have hunlink := h.unlink
    rw [hnext] at hunlink
    simpa [LinkQueue.out, h.isEmpty_iff, h.prev_head, elem?] using hunlink

/-! ## Order -/

omit [DecidableEq ι] in
theorem mem_place {below : ι → Bool} {x y : ι} {xs : List ι} :
    y ∈ place below x xs ↔ y = x ∨ y ∈ xs := by
  have hsplit := List.takeWhile_append_dropWhile (p := below) (l := xs)
  rw [place]
  conv_rhs => rw [← hsplit]
  simp only [List.mem_append, List.mem_cons]
  tauto

omit [DecidableEq ι] in
theorem place_append {below : ι → Bool} {x : ι} {front back : List ι}
    (hfront : ∀ y ∈ front, below y = true) (hback : ∀ y ∈ back, below y = false) :
    place below x (front ++ back) = front ++ x :: back := by
  have hnone : back.takeWhile below = [] ∧ back.dropWhile below = back := by
    cases back with
    | nil => exact ⟨rfl, rfl⟩
    | cons y back => simp [hback y (by simp)]
  rw [place, List.takeWhile_append_of_pos hfront, List.dropWhile_append_of_pos hfront,
    hnone.1, hnone.2, List.append_nil]

omit [DecidableEq ι] in
/-- Adding by priority keeps a list sorted by priority. -/
theorem sorted_place {β : Type*} [LinearOrder β] {prio : ι → β} {x : ι} {xs : List ι}
    (h : xs.Pairwise fun a b => prio a ≤ prio b) :
    (place (fun i => decide (prio i < prio x)) x xs).Pairwise
      fun a b => prio a ≤ prio b := by
  induction xs with
  | nil => simp [place]
  | cons y xs ih =>
      rw [List.pairwise_cons] at h
      by_cases hy : prio y < prio x
      · have hplace : place (fun i => decide (prio i < prio x)) x (y :: xs) =
            y :: place (fun i => decide (prio i < prio x)) x xs := by
          simp [place, hy]
        rw [hplace, List.pairwise_cons]
        refine ⟨?_, ih h.2⟩
        intro z hz
        rcases mem_place.mp hz with rfl | hz
        · exact hy.le
        · exact h.1 z hz
      · have hplace : place (fun i => decide (prio i < prio x)) x (y :: xs) =
            x :: y :: xs := by
          simp [place, hy]
        rw [hplace, List.pairwise_cons, List.pairwise_cons]
        refine ⟨?_, h⟩
        intro z hz
        rcases List.mem_cons.mp hz with rfl | hz
        · exact not_lt.mp hy
        · exact (not_lt.mp hy).trans (h.1 z hz)

end LinkQueue

end SchlagOS.Foundation
