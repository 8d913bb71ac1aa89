import SchlagOS.Foundation.Linked
import Mathlib.Data.List.TakeWhile
import Mathlib.Data.List.DropRight
import Mathlib.Order.Lattice

/-!
# Heap-allocated doubly linked lists with a header

The header holds the first and last pointers and a size; the nodes live in an
arena whose freed cells are handed out again last-in first-out.  The null
pointer plays the sentinel: its `next` is the header's `first` and its
`previous` the header's `last`, so that the C idiom "if null then update the
header else update the node" is one write.
-/

namespace SchlagOS.Foundation

structure Node (α : Type*) where
  content : α
  previous : Option Nat
  next : Option Nat
  deriving Repr

structure NodeList (α : Type*) where
  cells : Nat → Option (Node α)
  first : Option Nat
  last : Option Nat
  size : Nat
  free : List Nat
  brk : Nat

namespace NodeList

variable {α : Type*}

def empty : NodeList α where
  cells _ := none
  first := none
  last := none
  size := 0
  free := []
  brk := 0

def content? (q : NodeList α) (a : Nat) : Option α := (q.cells a).map Node.content

def next (q : NodeList α) : Option Nat → Option Nat
  | none => q.first
  | some a => (q.cells a).bind Node.next

def previous (q : NodeList α) : Option Nat → Option Nat
  | none => q.last
  | some a => (q.cells a).bind Node.previous

def setNext (q : NodeList α) (source target : Option Nat) : NodeList α :=
  match source with
  | none => { q with first := target }
  | some a =>
      { q with
        cells := Function.update q.cells a
          ((q.cells a).map fun node => { node with next := target }) }

def setPrevious (q : NodeList α) (source target : Option Nat) : NodeList α :=
  match source with
  | none => { q with last := target }
  | some a =>
      { q with
        cells := Function.update q.cells a
          ((q.cells a).map fun node => { node with previous := target }) }

def freshAddress (q : NodeList α) : Nat := q.free.head?.getD q.brk

def allocate (q : NodeList α) (node : Node α) : NodeList α :=
  { q with
    cells := Function.update q.cells q.freshAddress (some node)
    free := q.free.tail
    brk := if q.free = [] then q.brk + 1 else q.brk }

def release (q : NodeList α) (a : Nat) : NodeList α :=
  { q with cells := Function.update q.cells a none, free := a :: q.free }

/-- Walk back from `current` until a node satisfies `stop`; the second result
is the node visited just before, in walking order. -/
def seekBack (q : NodeList α) (stop : α → Bool) :
    Nat → Option Nat → Option Nat → Option Nat × Option Nat
  | 0, current, visited => (current, visited)
  | _ + 1, none, visited => (none, visited)
  | fuel + 1, some a, visited =>
      if (q.content? a).any stop then (some a, visited)
      else seekBack q stop fuel (q.previous (some a)) (some a)

/-- Insert behind the last node that satisfies `stop`. -/
def addBehind (q : NodeList α) (stop : α → Bool) (content : α) : NodeList α :=
  let (current, visited) := q.seekBack stop (q.size + 1) q.last none
  let new := q.freshAddress
  let q := q.allocate ⟨content, current, visited⟩
  let q := q.setNext current (some new)
  let q := q.setPrevious visited (some new)
  { q with size := q.size + 1 }

def seekForward (q : NodeList α) (found : α → Bool) : Nat → Option Nat → Option Nat
  | 0, _ => none
  | _ + 1, none => none
  | fuel + 1, some a =>
      if (q.content? a).any found then some a
      else seekForward q found fuel (q.next (some a))

def unlink (q : NodeList α) (a : Nat) (before after : Option Nat) : NodeList α :=
  let q := q.setNext before after
  let q := q.setPrevious after before
  let q := q.release a
  { q with size := q.size - 1 }

/-- Take out the first node whose content satisfies `found`. -/
def removeFirstWith (q : NodeList α) (found : α → Bool) : Option (α × NodeList α) :=
  match q.seekForward found (q.size + 1) q.first with
  | none => none
  | some a =>
      (q.content? a).map fun content =>
        (content, q.unlink a (q.previous (some a)) (q.next (some a)))

/-- Take out the first node; `none` is a read through a null `first`. -/
def removeFirst (q : NodeList α) : Option (α × NodeList α) :=
  q.first.bind fun a =>
    (q.content? a).map fun content =>
      (content, q.unlink a none (q.next (some a)))

def walk (q : NodeList α) : Nat → Option Nat → List α
  | 0, _ => []
  | _ + 1, none => []
  | fuel + 1, some a => (q.content? a).toList ++ walk q fuel (q.next (some a))

def toList (q : NodeList α) : List α := q.walk (q.size + 1) q.first

/-! ## The list the nodes represent -/

def refs (ps : List (Nat × α)) : List (Option Nat) := ps.map fun p => some p.1

def row (ps : List (Nat × α)) : List (Option Nat) := none :: (refs ps ++ [none])

def lastRef (ps : List (Nat × α)) : Option Nat := ps.getLast?.map Prod.fst

def firstRef (ps : List (Nat × α)) : Option Nat := ps.head?.map Prod.fst

@[simp] theorem lastRef_concat (ps : List (Nat × α)) (p : Nat × α) :
    lastRef (ps ++ [p]) = some p.1 := by
  simp [lastRef]

@[simp] theorem firstRef_cons (p : Nat × α) (ps : List (Nat × α)) :
    firstRef (p :: ps) = some p.1 := rfl

/-- The nodes at the addresses of `ps`, in this order, hold its contents. -/
structure HoldsAt (q : NodeList α) (ps : List (Nat × α)) : Prop where
  linked : Linked q.next q.previous (row ps)
  nodup : (ps.map Prod.fst).Nodup
  contents : ∀ p ∈ ps, q.content? p.1 = some p.2
  size : q.size = ps.length
  live : ∀ p ∈ ps, p.1 < q.brk ∧ p.1 ∉ q.free
  free_nodup : q.free.Nodup
  free_below : ∀ a ∈ q.free, a < q.brk

def Holds (q : NodeList α) (xs : List α) : Prop :=
  ∃ ps, q.HoldsAt ps ∧ ps.map Prod.snd = xs

theorem empty_holdsAt : (empty : NodeList α).HoldsAt [] where
  linked := by simp [row, refs, Linked, empty, next, previous]
  nodup := List.nodup_nil
  contents := by simp
  size := rfl
  live := by simp
  free_nodup := List.nodup_nil
  free_below := by simp [empty]

theorem empty_holds : (empty : NodeList α).Holds [] := ⟨[], empty_holdsAt, rfl⟩

theorem nodup_row {ps : List (Nat × α)} (h : (ps.map Prod.fst).Nodup) :
    (row ps).dropLast.Nodup ∧ (row ps).tail.Nodup := by
  have hmap : (refs ps).Nodup := by
    have := h.map (f := some) fun _ _ => Option.some.inj
    simpa [refs, Function.comp_def] using this
  constructor
  · rw [row, ← List.cons_append, List.dropLast_concat, List.nodup_cons]
    exact ⟨by simp [refs], hmap⟩
  · simp only [row, List.tail_cons]
    rw [List.nodup_append]
    refine ⟨hmap, by simp, ?_⟩
    rintro a ha b hb rfl
    simp only [List.mem_singleton] at hb
    subst hb
    simp [refs] at ha

/-- A row splits between the neighbours of any cut. -/
private theorem row_split (before after : List (Nat × α)) :
    ∃ front back,
      row (before ++ after) = front ++ lastRef before :: firstRef after :: back ∧
      ∀ p, row (before ++ p :: after) =
        front ++ lastRef before :: some p.1 :: firstRef after :: back := by
  obtain ⟨front, hfront⟩ : ∃ front,
      none :: refs before = front ++ [lastRef before] := by
    rcases List.eq_nil_or_concat before with rfl | ⟨front, a, rfl⟩
    · exact ⟨[], rfl⟩
    · exact ⟨none :: refs front, by simp [lastRef, refs]⟩
  obtain ⟨back, hback⟩ : ∃ back, refs after ++ [none] = firstRef after :: back := by
    cases after with
    | nil => exact ⟨[], rfl⟩
    | cons b back => exact ⟨refs back ++ [none], rfl⟩
  have happend : ∀ ps : List (Nat × α),
      row (before ++ ps) = front ++ lastRef before :: (refs ps ++ [none]) := by
    intro ps
    rw [row, refs, List.map_append, List.append_assoc, ← List.cons_append]
    change (none :: refs before) ++ (refs ps ++ [none]) = _
    rw [hfront, List.append_assoc, List.singleton_append]
  refine ⟨front, back, ?_, fun p => ?_⟩
  · rw [happend, hback]
  · rw [happend]
    change front ++ lastRef before :: some p.1 :: (refs after ++ [none]) = _
    rw [hback]

theorem HoldsAt.around {q : NodeList α} {before after : List (Nat × α)}
    {p : Nat × α} (h : q.HoldsAt (before ++ p :: after)) :
    q.previous (some p.1) = lastRef before ∧ q.next (some p.1) = firstRef after := by
  obtain ⟨front, back, -, hrow⟩ := row_split before after
  have hlinked := h.linked
  rw [hrow] at hlinked
  refine ⟨hlinked.prev_eq _, ?_⟩
  rw [← List.singleton_append, ← List.append_assoc] at hlinked
  exact hlinked.next_eq _

theorem HoldsAt.first_eq {q : NodeList α} {ps : List (Nat × α)}
    (h : q.HoldsAt ps) : q.first = firstRef ps := by
  have hlinked := h.linked
  cases ps with
  | nil => exact hlinked.next_eq []
  | cons p ps => exact hlinked.next_eq []

theorem HoldsAt.last_eq {q : NodeList α} {ps : List (Nat × α)}
    (h : q.HoldsAt ps) : q.last = lastRef ps := by
  obtain ⟨front, back, hrow, -⟩ := row_split ps []
  have hlinked := h.linked
  rw [List.append_nil] at hrow
  rw [hrow] at hlinked
  exact hlinked.prev_eq _

private theorem HoldsAt.walk_eq {q : NodeList α} {after : List (Nat × α)}
    {fuel : Nat} (before : List (Nat × α)) (h : q.HoldsAt (before ++ after)) (hfuel : after.length < fuel) :
    q.walk fuel (firstRef after) = after.map Prod.snd := by
  induction after generalizing before fuel with
  | nil =>
      obtain ⟨fuel, rfl⟩ := Nat.exists_eq_succ_of_ne_zero (Nat.ne_zero_of_lt hfuel)
      rfl
  | cons p after ih =>
      obtain ⟨fuel, rfl⟩ := Nat.exists_eq_succ_of_ne_zero (Nat.ne_zero_of_lt hfuel)
      have hcontent := h.contents p (by simp)
      have hnext := h.around.2
      have htail := ih (before ++ [p]) (by simpa using h)
        (Nat.lt_of_succ_lt_succ hfuel)
      simp [firstRef] at hnext htail ⊢
      simp [walk, hcontent, hnext, htail]

theorem HoldsAt.toList_eq {q : NodeList α} {ps : List (Nat × α)}
    (h : q.HoldsAt ps) : q.toList = ps.map Prod.snd := by
  rw [toList, h.first_eq]
  exact HoldsAt.walk_eq [] h (by simp [h.size])

theorem Holds.toList_eq {q : NodeList α} {xs : List α} (h : q.Holds xs) :
    q.toList = xs := by
  obtain ⟨ps, hps, rfl⟩ := h
  exact hps.toList_eq

theorem Holds.size_eq {q : NodeList α} {xs : List α} (h : q.Holds xs) :
    q.size = xs.length := by
  obtain ⟨ps, hps, rfl⟩ := h
  simpa using hps.size

/-! ## Writing one field -/

theorem next_setNext (q : NodeList α) (source target : Option Nat)
    (hlive : ∀ a, source = some a → (q.cells a).isSome) :
    (q.setNext source target).next = Function.update q.next source target := by
  funext ref
  cases source with
  | none => cases ref <;> simp [setNext, next]
  | some a =>
      obtain ⟨node, hnode⟩ := Option.isSome_iff_exists.mp (hlive a rfl)
      cases ref with
      | none => simp [setNext, next]
      | some b =>
          by_cases hb : b = a
          · subst hb
            simp [setNext, next, hnode]
          · simp [setNext, next, hb]

theorem previous_setPrevious (q : NodeList α) (source target : Option Nat)
    (hlive : ∀ a, source = some a → (q.cells a).isSome) :
    (q.setPrevious source target).previous =
      Function.update q.previous source target := by
  funext ref
  cases source with
  | none => cases ref <;> simp [setPrevious, previous]
  | some a =>
      obtain ⟨node, hnode⟩ := Option.isSome_iff_exists.mp (hlive a rfl)
      cases ref with
      | none => simp [setPrevious, previous]
      | some b =>
          by_cases hb : b = a
          · subst hb
            simp [setPrevious, previous, hnode]
          · simp [setPrevious, previous, hb]

@[simp] theorem previous_setNext (q : NodeList α) (source target : Option Nat) :
    (q.setNext source target).previous = q.previous := by
  funext ref
  cases source with
  | none => cases ref <;> simp [setNext, previous]
  | some a =>
      cases ref with
      | none => simp [setNext, previous]
      | some b =>
          by_cases hb : b = a
          · subst hb
            cases hcell : q.cells b <;> simp [setNext, previous, hcell]
          · simp [setNext, previous, hb]

@[simp] theorem next_setPrevious (q : NodeList α) (source target : Option Nat) :
    (q.setPrevious source target).next = q.next := by
  funext ref
  cases source with
  | none => cases ref <;> simp [setPrevious, next]
  | some a =>
      cases ref with
      | none => simp [setPrevious, next]
      | some b =>
          by_cases hb : b = a
          · subst hb
            cases hcell : q.cells b <;> simp [setPrevious, next, hcell]
          · simp [setPrevious, next, hb]

@[simp] theorem content?_setNext (q : NodeList α) (source target : Option Nat)
    (a : Nat) : (q.setNext source target).content? a = q.content? a := by
  cases source with
  | none => rfl
  | some b =>
      by_cases hb : a = b
      · subst hb
        cases hcell : q.cells a <;> simp [setNext, content?, hcell]
      · simp [setNext, content?, hb]

@[simp] theorem content?_setPrevious (q : NodeList α) (source target : Option Nat)
    (a : Nat) : (q.setPrevious source target).content? a = q.content? a := by
  cases source with
  | none => rfl
  | some b =>
      by_cases hb : a = b
      · subst hb
        cases hcell : q.cells a <;> simp [setPrevious, content?, hcell]
      · simp [setPrevious, content?, hb]

theorem isSome_setNext (q : NodeList α) (source target : Option Nat) (a : Nat) :
    ((q.setNext source target).cells a).isSome = (q.cells a).isSome := by
  have := congrArg Option.isSome (content?_setNext q source target a)
  simpa [content?] using this

@[simp] theorem allocate_size (q : NodeList α) (node : Node α) :
    (q.allocate node).size = q.size := rfl

@[simp] theorem setNext_size (q : NodeList α) (source target : Option Nat) :
    (q.setNext source target).size = q.size := by
  cases source <;> rfl

@[simp] theorem setNext_free (q : NodeList α) (source target : Option Nat) :
    (q.setNext source target).free = q.free := by
  cases source <;> rfl

@[simp] theorem setNext_brk (q : NodeList α) (source target : Option Nat) :
    (q.setNext source target).brk = q.brk := by
  cases source <;> rfl

@[simp] theorem setPrevious_size (q : NodeList α) (source target : Option Nat) :
    (q.setPrevious source target).size = q.size := by
  cases source <;> rfl

@[simp] theorem setPrevious_free (q : NodeList α) (source target : Option Nat) :
    (q.setPrevious source target).free = q.free := by
  cases source <;> rfl

@[simp] theorem setPrevious_brk (q : NodeList α) (source target : Option Nat) :
    (q.setPrevious source target).brk = q.brk := by
  cases source <;> rfl

@[simp] theorem next_withSize (q : NodeList α) (size : Nat) :
    { q with size := size }.next = q.next := by
  funext ref
  cases ref <;> rfl

@[simp] theorem previous_withSize (q : NodeList α) (size : Nat) :
    { q with size := size }.previous = q.previous := by
  funext ref
  cases ref <;> rfl

/-! ## Adding -/

private theorem HoldsAt.seekBack_eq {q : NodeList α} {stop : α → Bool}
    {before after : List (Nat × α)} {fuel : Nat}
    (h : q.HoldsAt (before ++ after)) (hfuel : before.length < fuel) :
    q.seekBack stop fuel (lastRef before) (firstRef after) =
      (lastRef (before.rdropWhile fun p => !stop p.2),
        firstRef (before.rtakeWhile (fun p => !stop p.2) ++ after)) := by
  induction before using List.reverseRecOn generalizing after fuel with
  | nil =>
      obtain ⟨fuel, rfl⟩ := Nat.exists_eq_succ_of_ne_zero (Nat.ne_zero_of_lt hfuel)
      simp [seekBack, lastRef]
  | append_singleton before p ih =>
      obtain ⟨fuel, rfl⟩ := Nat.exists_eq_succ_of_ne_zero (Nat.ne_zero_of_lt hfuel)
      have hholds : q.HoldsAt (before ++ p :: after) := by simpa using h
      have hcontent := hholds.contents p (by simp)
      have hprevious := hholds.around.1
      have htail := ih hholds (by simpa using hfuel)
      cases hstop : stop p.2 with
      | true =>
          rw [List.rdropWhile_concat_neg _ _ _ (by simp [hstop]),
            List.rtakeWhile_concat_neg _ _ _ (by simp [hstop])]
          simp [seekBack, hcontent, hstop]
      | false =>
          rw [List.rdropWhile_concat_pos _ _ _ (by simp [hstop]),
            List.rtakeWhile_concat_pos _ _ _ (by simp [hstop]),
            List.append_assoc, List.singleton_append, ← htail]
          simp [seekBack, hcontent, hstop, hprevious]

theorem freshAddress_fresh {q : NodeList α} {ps : List (Nat × α)}
    (h : q.HoldsAt ps) : ∀ p ∈ ps, p.1 ≠ q.freshAddress := by
  intro p hp heq
  have hlive := h.live p hp
  rw [heq, freshAddress] at hlive
  cases hfree : q.free with
  | nil => simp [hfree] at hlive
  | cons a free => simp [hfree] at hlive

theorem next_allocate (q : NodeList α) (node : Node α) :
    (q.allocate node).next = Function.update q.next (some q.freshAddress) node.next := by
  funext ref
  cases ref with
  | none => simp [allocate, next]
  | some a =>
      by_cases ha : a = q.freshAddress
      · subst ha
        simp [allocate, next]
      · simp [allocate, next, ha]

theorem previous_allocate (q : NodeList α) (node : Node α) :
    (q.allocate node).previous =
      Function.update q.previous (some q.freshAddress) node.previous := by
  funext ref
  cases ref with
  | none => simp [allocate, previous]
  | some a =>
      by_cases ha : a = q.freshAddress
      · subst ha
        simp [allocate, previous]
      · simp [allocate, previous, ha]

theorem content?_allocate (q : NodeList α) (node : Node α) :
    (q.allocate node).content? =
      Function.update q.content? q.freshAddress (some node.content) := by
  funext a
  by_cases ha : a = q.freshAddress
  · subst ha
    simp [allocate, content?]
  · simp [allocate, content?, ha]

private theorem lastRef_mem {ps : List (Nat × α)} {a : Nat}
    (h : lastRef ps = some a) : ∃ p ∈ ps, p.1 = a := by
  rcases List.eq_nil_or_concat ps with rfl | ⟨front, p, rfl⟩
  · simp [lastRef] at h
  · exact ⟨p, by simp, by simpa using h⟩

private theorem firstRef_mem {ps : List (Nat × α)} {a : Nat}
    (h : firstRef ps = some a) : ∃ p ∈ ps, p.1 = a := by
  cases ps with
  | nil => simp [firstRef] at h
  | cons p ps => exact ⟨p, by simp, by simpa using h⟩

private theorem HoldsAt.isSome_cells {q : NodeList α} {ps : List (Nat × α)}
    (h : q.HoldsAt ps) {p : Nat × α} (hp : p ∈ ps) : (q.cells p.1).isSome := by
  have := congrArg Option.isSome (h.contents p hp)
  simpa [content?] using this

/-- The arena stays sound when the fresh address is handed out. -/
private theorem HoldsAt.allocate_arena {q : NodeList α} {ps : List (Nat × α)}
    (h : q.HoldsAt ps) (node : Node α) :
    let q' := q.allocate node
    (∀ p ∈ ps, p.1 < q'.brk ∧ p.1 ∉ q'.free) ∧
      (q.freshAddress < q'.brk ∧ q.freshAddress ∉ q'.free) ∧
      q'.free.Nodup ∧ ∀ a ∈ q'.free, a < q'.brk := by
  have hlive := h.live
  have hnodup := h.free_nodup
  have hbelow := h.free_below
  cases hfree : q.free with
  | nil =>
      simp only [allocate, freshAddress, hfree, if_true, List.head?_nil,
        Option.getD_none, List.tail_nil]
      refine ⟨fun p hp => ⟨Nat.lt_succ_of_lt (hlive p hp).1, by simp⟩, ?_⟩
      simp
  | cons a free =>
      simp only [hfree, List.nodup_cons, List.forall_mem_cons] at hnodup hbelow hlive
      simp only [allocate, freshAddress, hfree, List.head?_cons, Option.getD_some,
        List.tail_cons, reduceCtorEq, if_false]
      refine ⟨fun p hp => ⟨(hlive p hp).1, ?_⟩, ⟨hbelow.1, hnodup.1⟩, hnodup.2,
        hbelow.2⟩
      exact fun hmem => (hlive p hp).2 (List.mem_cons_of_mem _ hmem)

/-- The pointer writes that link a freshly allocated node into a cut. -/
theorem HoldsAt.link {q : NodeList α} {before after : List (Nat × α)} (content : α)
    (h : q.HoldsAt (before ++ after)) :
    { (((q.allocate ⟨content, lastRef before, firstRef after⟩).setNext
          (lastRef before) (some q.freshAddress)).setPrevious
          (firstRef after) (some q.freshAddress)) with size := q.size + 1 }.HoldsAt
      (before ++ (q.freshAddress, content) :: after) := by
  have hfresh := freshAddress_fresh h
  have harena := h.allocate_arena ⟨content, lastRef before, firstRef after⟩
  generalize hA : q.allocate ⟨content, lastRef before, firstRef after⟩ = A at harena ⊢
  have hcontents : A.content? =
      Function.update q.content? q.freshAddress (some content) := by
    rw [← hA, content?_allocate]
  have hcells : ∀ p ∈ before ++ after, (A.cells p.1).isSome := by
    intro p hp
    have hcontent := congrFun hcontents p.1
    rw [Function.update_of_ne (hfresh p hp), h.contents p hp] at hcontent
    have := congrArg Option.isSome hcontent
    simpa [content?] using this
  have hnext := next_setNext A (lastRef before) (some q.freshAddress) (by
    intro a ha
    obtain ⟨p, hp, rfl⟩ := lastRef_mem ha
    exact hcells p (List.mem_append_left _ hp))
  have hprevious := previous_setPrevious
    (A.setNext (lastRef before) (some q.freshAddress))
    (firstRef after) (some q.freshAddress) (by
      intro a ha
      obtain ⟨p, hp, rfl⟩ := firstRef_mem ha
      rw [isSome_setNext]
      exact hcells p (List.mem_append_right _ hp))
  have hAnext : A.next =
      Function.update q.next (some q.freshAddress) (firstRef after) := by
    rw [← hA, next_allocate]
  have hAprevious : A.previous =
      Function.update q.previous (some q.freshAddress) (lastRef before) := by
    rw [← hA, previous_allocate]
  have hlast : some q.freshAddress ≠ lastRef before := by
    intro heq
    obtain ⟨p, hp, hpa⟩ := lastRef_mem heq.symm
    exact hfresh p (List.mem_append_left _ hp) hpa
  have hfirst : some q.freshAddress ≠ firstRef after := by
    intro heq
    obtain ⟨p, hp, hpa⟩ := firstRef_mem heq.symm
    exact hfresh p (List.mem_append_right _ hp) hpa
  have hperm : (before ++ (q.freshAddress, content) :: after).Perm
      ((q.freshAddress, content) :: (before ++ after)) := List.perm_middle
  constructor
  · obtain ⟨front, back, hrow, hrow'⟩ := row_split before after
    have hlinked := h.linked
    have hnodup := nodup_row h.nodup
    rw [hrow']
    rw [hrow] at hlinked hnodup
    have hnew : some q.freshAddress ∉ row (before ++ after) := by
      intro hmem
      simp only [row, refs, List.mem_cons, List.mem_append, List.mem_map,
        reduceCtorEq, List.not_mem_nil, or_false, false_or, Option.some.injEq] at hmem
      obtain ⟨p, hp, hpa⟩ := hmem
      exact hfresh p (List.mem_append.mpr hp) hpa
    rw [hrow] at hnew
    refine hlinked.insert hnodup.1 hnodup.2 hnew ?_ ?_ ?_ ?_
    · rw [next_withSize, next_setPrevious, hnext, Function.update_of_ne hlast, hAnext,
        Function.update_self]
    · rw [previous_withSize, hprevious, Function.update_of_ne hfirst,
        previous_setNext, hAprevious, Function.update_self]
    · intro y hy
      rw [next_withSize, next_setPrevious, hnext, hAnext]
      simp [Function.update_apply, hy]
    · intro y hy
      rw [previous_withSize, hprevious, previous_setNext, hAprevious]
      simp [Function.update_apply, hy]
  · rw [(hperm.map Prod.fst).nodup_iff, List.map_cons, List.nodup_cons]
    refine ⟨?_, h.nodup⟩
    intro hmem
    obtain ⟨p, hp, hpa⟩ := List.mem_map.mp hmem
    exact hfresh p hp hpa
  · intro p hp
    change NodeList.content? (NodeList.setPrevious _ _ _) p.1 = _
    rw [content?_setPrevious, content?_setNext, hcontents]
    rcases List.mem_cons.mp (hperm.mem_iff.mp hp) with rfl | hp
    · simp
    · rw [Function.update_of_ne (hfresh p hp), h.contents p hp]
  · simp [h.size]
    omega
  · intro p hp
    simp only [setPrevious_brk, setPrevious_free, setNext_brk, setNext_free]
    rcases List.mem_cons.mp (hperm.mem_iff.mp hp) with rfl | hp
    · exact harena.2.1
    · exact harena.1 p hp
  · simpa using harena.2.2.1
  · simpa using harena.2.2.2

/-- `addBehind` puts the new content behind the last one that satisfies `stop`. -/
theorem HoldsAt.addBehind {q : NodeList α} {ps : List (Nat × α)} (h : q.HoldsAt ps)
    (stop : α → Bool) (content : α) :
    (q.addBehind stop content).HoldsAt
      (ps.rdropWhile (fun p => !stop p.2) ++
        (q.freshAddress, content) :: ps.rtakeWhile fun p => !stop p.2) := by
  have hsplit : ps.rdropWhile (fun p => !stop p.2) ++
      ps.rtakeWhile (fun p => !stop p.2) = ps := List.rdropWhile_append_rtakeWhile
  have hall : q.HoldsAt (ps ++ []) := by simpa using h
  have hseek : q.seekBack stop (q.size + 1) (lastRef ps) (firstRef []) = _ :=
    hall.seekBack_eq (by simp [h.size])
  rw [List.append_nil] at hseek
  have hcut : q.HoldsAt (ps.rdropWhile (fun p => !stop p.2) ++
      ps.rtakeWhile fun p => !stop p.2) := by rwa [hsplit]
  have hlink := hcut.link content
  simp only [NodeList.addBehind, h.last_eq]
  rw [show (none : Option Nat) = firstRef ([] : List (Nat × α)) from rfl, hseek]
  simpa using hlink

/-- Where `addBehind` puts a content. -/
def place (stop : α → Bool) (content : α) (xs : List α) : List α :=
  xs.rdropWhile (fun x => !stop x) ++ content :: xs.rtakeWhile fun x => !stop x

private theorem map_rdropWhile {β : Type*} (f : β → α) (p : α → Bool) (xs : List β) :
    (xs.rdropWhile fun x => p (f x)).map f = (xs.map f).rdropWhile p := by
  simp [List.rdropWhile, ← List.map_reverse, List.dropWhile_map, Function.comp_def]

private theorem map_rtakeWhile {β : Type*} (f : β → α) (p : α → Bool) (xs : List β) :
    (xs.rtakeWhile fun x => p (f x)).map f = (xs.map f).rtakeWhile p := by
  simp [List.rtakeWhile, ← List.map_reverse, List.takeWhile_map, Function.comp_def]

theorem map_snd_place (stop : α → Bool) (a : Nat) (content : α) (ps : List (Nat × α)) :
    (ps.rdropWhile (fun p => !stop p.2) ++
      (a, content) :: ps.rtakeWhile fun p => !stop p.2).map Prod.snd =
      place stop content (ps.map Prod.snd) := by
  rw [place, ← map_rdropWhile Prod.snd, ← map_rtakeWhile Prod.snd]
  simp

theorem Holds.addBehind {q : NodeList α} {xs : List α} (h : q.Holds xs) (stop : α → Bool)
    (content : α) : (q.addBehind stop content).Holds (place stop content xs) := by
  obtain ⟨ps, hps, rfl⟩ := h
  exact ⟨_, hps.addBehind stop content, map_snd_place stop _ content ps⟩

theorem perm_place (stop : α → Bool) (content : α) (xs : List α) :
    (place stop content xs).Perm (content :: xs) := by
  have hsplit : xs.rdropWhile (fun x => !stop x) ++ xs.rtakeWhile (fun x => !stop x) =
      xs := List.rdropWhile_append_rtakeWhile
  conv_rhs => rw [← hsplit]
  exact List.perm_middle

theorem mem_place {stop : α → Bool} {content x : α} {xs : List α} :
    x ∈ place stop content xs ↔ x = content ∨ x ∈ xs := by
  rw [(perm_place _ _ _).mem_iff, List.mem_cons]

theorem pairwise_place {R : α → α → Prop} {stop : α → Bool} {content : α} {xs : List α}
    (h : xs.Pairwise R) (hfront : ∀ a ∈ xs.rdropWhile (fun x => !stop x), R a content)
    (hback : ∀ b ∈ xs.rtakeWhile (fun x => !stop x), R content b) :
    (place stop content xs).Pairwise R := by
  have hsplit : xs.rdropWhile (fun x => !stop x) ++ xs.rtakeWhile (fun x => !stop x) =
      xs := List.rdropWhile_append_rtakeWhile
  rw [← hsplit, List.pairwise_append] at h
  rw [place, List.pairwise_append, List.pairwise_cons]
  refine ⟨h.1, ⟨hback, h.2.1⟩, fun a ha b hb => ?_⟩
  rcases List.mem_cons.mp hb with rfl | hb
  · exact hfront a ha
  · exact h.2.2 a ha b hb

section Sorted

variable {β : Type*} [LinearOrder β] {prio : α → β} {content : α} {xs : List α}

/-- In a sorted list the contents that stay in front have a higher priority. -/
theorem lt_of_mem_front (h : xs.Pairwise fun a b => prio b ≤ prio a) {a : α}
    (ha : a ∈ xs.rdropWhile fun x => !decide (prio content < prio x)) :
    prio content < prio a := by
  set low : α → Bool := fun x => !decide (prio content < prio x) with hlow
  have hne : xs.rdropWhile low ≠ [] := List.ne_nil_of_mem ha
  have hlast : prio content < prio ((xs.rdropWhile low).getLast hne) := by
    simpa [hlow] using List.rdropWhile_last_not low xs hne
  have hpairs := h.sublist (List.rdropWhile_prefix low xs).sublist
  rw [← List.dropLast_append_getLast hne, List.pairwise_append] at hpairs
  rw [← List.dropLast_append_getLast hne, List.mem_append, List.mem_singleton] at ha
  rcases ha with ha | rfl
  · exact hlast.trans_le (hpairs.2.2 a ha _ (by simp))
  · exact hlast

theorem le_of_mem_back {b : α}
    (hb : b ∈ xs.rtakeWhile fun x => !decide (prio content < prio x)) :
    prio b ≤ prio content := by
  simpa using List.mem_rtakeWhile_imp hb

/-- Adding behind every higher priority keeps a list sorted downwards. -/
theorem sorted_place (h : xs.Pairwise fun a b => prio b ≤ prio a) :
    (place (fun x => decide (prio content < prio x)) content xs).Pairwise
      fun a b => prio b ≤ prio a :=
  pairwise_place h (fun _ ha => (lt_of_mem_front h ha).le) fun _ hb => le_of_mem_back hb

end Sorted

/-! ## Removing -/

theorem HoldsAt.unlink {q : NodeList α} {before after : List (Nat × α)} {p : Nat × α}
    (h : q.HoldsAt (before ++ p :: after)) :
    (q.unlink p.1 (lastRef before) (firstRef after)).HoldsAt (before ++ after) ∧
      (q.unlink p.1 (lastRef before) (firstRef after)).freshAddress = p.1 := by
  have hperm : (before ++ p :: after).Perm (p :: (before ++ after)) :=
    List.perm_middle
  have hsub : ∀ r ∈ before ++ after, r ∈ before ++ p :: after := fun r hr =>
    hperm.mem_iff.mpr (List.mem_cons_of_mem _ hr)
  have hnodup' := h.nodup
  rw [(hperm.map Prod.fst).nodup_iff, List.map_cons, List.nodup_cons] at hnodup'
  have hne : ∀ r ∈ before ++ after, r.1 ≠ p.1 := by
    intro r hr heq
    exact hnodup'.1 (heq ▸ List.mem_map_of_mem hr)
  have hnext := next_setNext q (lastRef before) (firstRef after) (by
    intro a ha
    obtain ⟨r, hr, rfl⟩ := lastRef_mem ha
    exact h.isSome_cells (by simp [hr]))
  have hprevious := previous_setPrevious (q.setNext (lastRef before) (firstRef after))
    (firstRef after) (lastRef before) (by
      intro a ha
      obtain ⟨r, hr, rfl⟩ := firstRef_mem ha
      rw [isSome_setNext]
      exact h.isSome_cells (by simp [hr]))
  refine ⟨?_, by simp [NodeList.unlink, release, freshAddress]⟩
  constructor
  · obtain ⟨front, back, hrow, hrow'⟩ := row_split before after
    have hlinked := h.linked
    have hnodup := nodup_row h.nodup
    rw [hrow]
    rw [hrow'] at hlinked hnodup
    refine hlinked.unlink hnodup.1 hnodup.2 ?_ ?_
    · intro y hy
      have hrelease : (q.unlink p.1 (lastRef before) (firstRef after)).next y =
          ((q.setNext (lastRef before) (firstRef after)).setPrevious
            (firstRef after) (lastRef before)).next y := by
        cases y with
        | none => rfl
        | some b => simp_all [NodeList.unlink, release, next]
      rw [hrelease, next_setPrevious, hnext]
    · intro y hy
      have hrelease : (q.unlink p.1 (lastRef before) (firstRef after)).previous y =
          ((q.setNext (lastRef before) (firstRef after)).setPrevious
            (firstRef after) (lastRef before)).previous y := by
        cases y with
        | none => rfl
        | some b => simp_all [NodeList.unlink, release, previous]
      rw [hrelease, hprevious, previous_setNext]
  · exact hnodup'.2
  · intro r hr
    have hcontent : (q.unlink p.1 (lastRef before) (firstRef after)).content? r.1 =
        ((q.setNext (lastRef before) (firstRef after)).setPrevious
          (firstRef after) (lastRef before)).content? r.1 := by
      simp [NodeList.unlink, release, content?, hne r hr]
    rw [hcontent, content?_setPrevious, content?_setNext, h.contents r (hsub r hr)]
  · simp [NodeList.unlink, release, h.size]
  · intro r hr
    have hlive := h.live r (hsub r hr)
    simpa [NodeList.unlink, release, hne r hr] using hlive
  · have hp := (h.live p (by simp)).2
    simpa [NodeList.unlink, release] using ⟨hp, h.free_nodup⟩
  · have hp := (h.live p (by simp)).1
    simpa [NodeList.unlink, release] using ⟨hp, h.free_below⟩

private theorem HoldsAt.seekForward_eq {q : NodeList α} {found : α → Bool}
    {after : List (Nat × α)} {fuel : Nat} (before : List (Nat × α))
    (h : q.HoldsAt (before ++ after)) (hfuel : after.length < fuel) :
    q.seekForward found fuel (firstRef after) =
      firstRef (after.dropWhile fun p => !found p.2) := by
  induction after generalizing before fuel with
  | nil =>
      obtain ⟨fuel, rfl⟩ := Nat.exists_eq_succ_of_ne_zero (Nat.ne_zero_of_lt hfuel)
      rfl
  | cons p after ih =>
      obtain ⟨fuel, rfl⟩ := Nat.exists_eq_succ_of_ne_zero (Nat.ne_zero_of_lt hfuel)
      have hcontent := h.contents p (by simp)
      have hnext := h.around.2
      have htail := ih (before ++ [p]) (by simpa using h)
        (Nat.lt_of_succ_lt_succ hfuel)
      cases hfound : found p.2 <;>
        simp [seekForward, hcontent, hfound, hnext, htail]

theorem HoldsAt.removeFirstWith {q : NodeList α} {found : α → Bool}
    {before after : List (Nat × α)} {p : Nat × α}
    (h : q.HoldsAt (before ++ p :: after))
    (hbefore : ∀ r ∈ before, found r.2 = false) (hp : found p.2 = true) :
    ∃ q', q.removeFirstWith found = some (p.2, q') ∧ q'.HoldsAt (before ++ after) ∧
      q'.freshAddress = p.1 := by
  have hseek : q.seekForward found (q.size + 1) (firstRef (before ++ p :: after)) = _ :=
    HoldsAt.seekForward_eq [] h (by simp [h.size])
  have hdrop : (before ++ p :: after).dropWhile (fun r => !found r.2) = p :: after := by
    rw [List.dropWhile_append_of_pos (by simpa using hbefore)]
    simp [hp]
  rw [hdrop] at hseek
  have hunlink := h.unlink
  rw [← h.around.1, ← h.around.2] at hunlink
  refine ⟨_, ?_, hunlink⟩
  simp [NodeList.removeFirstWith, h.first_eq, hseek, h.contents p]

theorem HoldsAt.removeFirstWith_eq_none {q : NodeList α} {found : α → Bool}
    {ps : List (Nat × α)} (h : q.HoldsAt ps)
    (hps : ∀ r ∈ ps, found r.2 = false) : q.removeFirstWith found = none := by
  have hseek : q.seekForward found (q.size + 1) (firstRef ps) = _ :=
    HoldsAt.seekForward_eq [] h (by simp [h.size])
  have hdrop : ps.dropWhile (fun r => !found r.2) = [] := by
    simpa [List.dropWhile_eq_nil_iff] using hps
  rw [hdrop] at hseek
  rw [NodeList.removeFirstWith, h.first_eq, hseek]
  rfl

theorem Holds.removeFirstWith {q : NodeList α} {found : α → Bool} {xs : List α}
    {x : α} (h : q.Holds xs) (hx : xs.find? found = some x) :
    ∃ q', q.removeFirstWith found = some (x, q') ∧ q'.Holds (xs.eraseP found) := by
  obtain ⟨ps, hps, rfl⟩ := h
  obtain ⟨hfound, front, back, hsplit, hfront⟩ := List.find?_eq_some_iff_append.mp hx
  obtain ⟨before, rest, rfl, rfl, hrest⟩ := List.map_eq_append_iff.mp hsplit
  obtain ⟨p, after, rfl, rfl, rfl⟩ := List.map_eq_cons_iff.mp hrest
  have hbefore : ∀ r ∈ before, found r.2 = false := fun r hr => by
    simpa using hfront r.2 (List.mem_map_of_mem hr)
  obtain ⟨q', hremove, hholds, -⟩ := hps.removeFirstWith hbefore hfound
  refine ⟨q', hremove, before ++ after, hholds, ?_⟩
  rw [hsplit, List.eraseP_append_right _ (by simpa using hfront),
    List.eraseP_cons_of_pos hfound, List.map_append]

theorem Holds.removeFirstWith_eq_none {q : NodeList α} {found : α → Bool} {xs : List α}
    (h : q.Holds xs) (hxs : ∀ x ∈ xs, found x = false) :
    q.removeFirstWith found = none := by
  obtain ⟨ps, hps, rfl⟩ := h
  exact hps.removeFirstWith_eq_none fun r hr => hxs r.2 (List.mem_map_of_mem hr)

theorem Holds.removeFirst {q : NodeList α} {x : α} {xs : List α}
    (h : q.Holds (x :: xs)) : ∃ q', q.removeFirst = some (x, q') ∧ q'.Holds xs := by
  obtain ⟨ps, hps, hmap⟩ := h
  obtain ⟨p, after, rfl, rfl, rfl⟩ := List.map_eq_cons_iff.mp hmap
  have hps' : q.HoldsAt ([] ++ p :: after) := hps
  have hunlink := hps'.unlink.1
  have hnext := hps'.around.2
  refine ⟨_, ?_, after, hunlink, rfl⟩
  simp [NodeList.removeFirst, hps.first_eq, hps.contents p, hnext, lastRef]

/-! ## What all nodes have in common -/

/-- The content of every cell in use has the property. -/
def Every (Q : α → Prop) (q : NodeList α) : Prop :=
  ∀ a content, q.content? a = some content → Q content

variable {Q : α → Prop} {q : NodeList α}

theorem Every.empty : (NodeList.empty : NodeList α).Every Q := by
  intro a content hcontent
  cases hcontent

theorem Every.congr {q' : NodeList α} (h : q.Every Q) (hq : q'.content? = q.content?) :
    q'.Every Q := by
  intro a content hcontent
  rw [hq] at hcontent
  exact h a content hcontent

theorem Every.addBehind (h : q.Every Q) (stop : α → Bool) {content : α} (hQ : Q content) :
    (q.addBehind stop content).Every Q := by
  unfold NodeList.addBehind
  generalize q.seekBack stop (q.size + 1) q.last none = found
  have hcontents : (q.allocate ⟨content, found.1, found.2⟩).Every Q := by
    intro a other hother
    rw [content?_allocate, Function.update_apply] at hother
    split at hother
    · exact Option.some.inj hother ▸ hQ
    · exact h a other hother
  refine hcontents.congr (funext fun a => ?_)
  exact (content?_setPrevious _ _ _ a).trans (content?_setNext _ _ _ a)

theorem Every.unlink (h : q.Every Q) (a : Nat) (before after : Option Nat) :
    (q.unlink a before after).Every Q := by
  intro b content hcontent
  by_cases hb : b = a
  · subst hb
    simp [NodeList.unlink, release, content?] at hcontent
  · have hkept : (q.unlink a before after).content? b =
        ((q.setNext before after).setPrevious after before).content? b := by
      simp [NodeList.unlink, release, content?, hb]
    rw [hkept, content?_setPrevious, content?_setNext] at hcontent
    exact h b content hcontent

theorem Every.removeFirstWith {q' : NodeList α} (h : q.Every Q) {found : α → Bool}
    {content : α} (hremove : q.removeFirstWith found = some (content, q')) :
    Q content ∧ q'.Every Q := by
  unfold NodeList.removeFirstWith at hremove
  cases hseek : q.seekForward found (q.size + 1) q.first with
  | none =>
      rw [hseek] at hremove
      cases hremove
  | some a =>
      rw [hseek] at hremove
      obtain ⟨other, hother, heq⟩ := Option.map_eq_some_iff.mp hremove
      obtain ⟨rfl, rfl⟩ := Prod.mk.inj heq
      exact ⟨h a other hother, h.unlink a _ _⟩

theorem Every.removeFirst {q' : NodeList α} (h : q.Every Q) {content : α}
    (hremove : q.removeFirst = some (content, q')) : Q content ∧ q'.Every Q := by
  unfold NodeList.removeFirst at hremove
  rw [Option.bind_eq_some_iff] at hremove
  obtain ⟨a, -, hremove⟩ := hremove
  rw [Option.map_eq_some_iff] at hremove
  obtain ⟨other, hother, heq⟩ := hremove
  obtain ⟨rfl, rfl⟩ := Prod.mk.inj heq
  exact ⟨h a other hother, h.unlink a _ _⟩

end NodeList

end SchlagOS.Foundation
