import SchlagOS.Kernel.State

/-!
# The stacks of the processes

Each process in use that has not been deallocated holds a kernel stack, and all
but process 1 a user stack too; the allocators have handed out these blocks and
no others.  The rules are those of `start`, `deallocate` and `destroy`.
-/

namespace SchlagOS

open Foundation

/-- The stacks of the processes and the blocks of the two allocators. -/
structure Stacks where
  kernelStack : Int → Option Nat
  userStack : Int → Option Nat
  userStackSize : Int → Nat
  kernelBlocks : Blocks
  userBlocks : Blocks

def Kernel.stackData (s : Kernel) : Stacks where
  kernelStack := fun p => (s.data p).kernelStack
  userStack := fun p => (s.data p).userStack
  userStackSize := fun p => (s.data p).userStackSize
  kernelBlocks := s.kernelBlocks
  userBlocks := s.userBlocks

namespace Stacks

def kernelHolder (st : Stacks) (state : Int → ProcessState) (p : Int) : Option (Nat × Nat) :=
  if state p = .unset then none else (st.kernelStack p).map fun a => (a, kernelStackSize)

def userHolder (st : Stacks) (state : Int → ProcessState) (p : Int) : Option (Nat × Nat) :=
  if state p = .unset then none else (st.userStack p).map fun a => (a, st.userStackSize p)

/-- A new process gets its stacks. -/
def give (st : Stacks) (p : Int) (size : Nat) : Stacks where
  kernelStack := Function.update st.kernelStack p (some st.kernelBlocks.next)
  userStack := Function.update st.userStack p (some st.userBlocks.next)
  userStackSize := Function.update st.userStackSize p size
  kernelBlocks := (st.kernelBlocks.allocate kernelStackSize).2
  userBlocks := (st.userBlocks.allocate size).2

/-- The slot holds no stack any more. -/
def clear (st : Stacks) (p : Int) : Stacks :=
  { st with
    kernelStack := Function.update st.kernelStack p none
    userStack := Function.update st.userStack p none
    userStackSize := Function.update st.userStackSize p 0 }

/-- Both stacks of a process are released. -/
def free (st : Stacks) (p : Int) : Stacks :=
  { st.clear p with
    kernelBlocks := { st.kernelBlocks with
      live := st.kernelBlocks.live.erase ((st.kernelStack p).getD 0, kernelStackSize) }
    userBlocks := { st.userBlocks with
      live := st.userBlocks.live.erase ((st.userStack p).getD 0, st.userStackSize p) } }

/-- The slot of a `start` that fails: nothing is handed out in the end. -/
structure Wasted (st st' : Stacks) (p : Int) : Prop where
  kernelStack : ∀ x, x ≠ p → st'.kernelStack x = st.kernelStack x
  userStack : ∀ x, x ≠ p → st'.userStack x = st.userStack x
  userStackSize : ∀ x, x ≠ p → st'.userStackSize x = st.userStackSize x
  kernelBlocks : st'.kernelBlocks = st.kernelBlocks ∨
    st'.kernelBlocks = { st.kernelBlocks with next := st.kernelBlocks.next + 1 }
  userBlocks : st'.userBlocks = st.userBlocks

end Stacks

structure Backed (state : Int → ProcessState) (dead : Int → Bool) (st : Stacks) : Prop where
  kernel : Owns (st.kernelHolder state) st.kernelBlocks
  user : Owns (st.userHolder state) st.userBlocks
  kernelStack : ∀ p, state p ≠ .unset → dead p = false → st.kernelStack p ≠ none
  userStack : ∀ p, p ≠ 1 → state p ≠ .unset → dead p = false →
    st.userStack p ≠ none ∧ st.userStackSize p ≠ 0
  freed : ∀ p, dead p = true →
    st.kernelStack p = none ∧ st.userStack p = none ∧ st.userStackSize p = 0

namespace Backed

variable {state state' : Int → ProcessState} {dead : Int → Bool} {st st' : Stacks} {p : Int}

theorem congr (h : Backed state dead st) (hstate : ∀ x, state' x = .unset ↔ state x = .unset) :
    Backed state' dead st where
  kernel := h.kernel.congr fun x => by simp only [Stacks.kernelHolder, hstate]
  user := h.user.congr fun x => by simp only [Stacks.userHolder, hstate]
  kernelStack x hx := h.kernelStack x fun heq => hx ((hstate x).mpr heq)
  userStack x hone hx := h.userStack x hone fun heq => hx ((hstate x).mpr heq)
  freed := h.freed

theorem give (h : Backed state dead st) (hp : state p = .unset) {b : ProcessState}
    (hb : b ≠ .unset) {size : Nat} (hsize : size ≠ 0) :
    Backed (Function.update state p b) (Function.update dead p false) (st.give p size) where
  kernel := by
    have hnone : st.kernelHolder state p = none := if_pos hp
    refine (h.kernel.allocate hnone kernelStackSize).congr fun x => ?_
    by_cases hx : x = p
    · subst hx
      simp [Stacks.kernelHolder, Stacks.give, hb]
    · simp [Stacks.kernelHolder, Stacks.give, hx]
  user := by
    have hnone : st.userHolder state p = none := if_pos hp
    refine (h.user.allocate hnone size).congr fun x => ?_
    by_cases hx : x = p
    · subst hx
      simp [Stacks.userHolder, Stacks.give, hb]
    · simp [Stacks.userHolder, Stacks.give, hx]
  kernelStack x hx halive := by
    by_cases hxp : x = p
    · simp [Stacks.give, hxp]
    · rw [Function.update_of_ne hxp] at hx halive
      simpa [Stacks.give, hxp] using h.kernelStack x hx halive
  userStack x hone hx halive := by
    by_cases hxp : x = p
    · simp [Stacks.give, hxp, hsize]
    · rw [Function.update_of_ne hxp] at hx halive
      simpa [Stacks.give, hxp] using h.userStack x hone hx halive
  freed x hx := by
    by_cases hxp : x = p
    · simp [hxp] at hx
    · rw [Function.update_of_ne hxp] at hx
      simpa [Stacks.give, hxp] using h.freed x hx

theorem waste (h : Backed state dead st) (hp : state p = .unset)
    (hwasted : st.Wasted st' p) : Backed state (Function.update dead p false) st' where
  kernel := by
    have hholder : ∀ x, st'.kernelHolder state x = st.kernelHolder state x := by
      intro x
      by_cases hx : x = p
      · simp [Stacks.kernelHolder, hx, hp]
      · simp [Stacks.kernelHolder, hwasted.kernelStack x hx]
    rcases hwasted.kernelBlocks with heq | heq
    · rw [heq]
      exact h.kernel.congr hholder
    · rw [heq]
      exact h.kernel.later.congr hholder
  user := by
    rw [hwasted.userBlocks]
    refine h.user.congr fun x => ?_
    by_cases hx : x = p
    · simp [Stacks.userHolder, hx, hp]
    · simp [Stacks.userHolder, hwasted.userStack x hx, hwasted.userStackSize x hx]
  kernelStack x hx halive := by
    have hxp : x ≠ p := fun heq => hx (heq ▸ hp)
    rw [Function.update_of_ne hxp] at halive
    rw [hwasted.kernelStack x hxp]
    exact h.kernelStack x hx halive
  userStack x hone hx halive := by
    have hxp : x ≠ p := fun heq => hx (heq ▸ hp)
    rw [Function.update_of_ne hxp] at halive
    rw [hwasted.userStack x hxp, hwasted.userStackSize x hxp]
    exact h.userStack x hone hx halive
  freed x hx := by
    by_cases hxp : x = p
    · simp [hxp] at hx
    · rw [Function.update_of_ne hxp] at hx
      rw [hwasted.kernelStack x hxp, hwasted.userStack x hxp, hwasted.userStackSize x hxp]
      exact h.freed x hx

/-- Both releases of `deallocate` find their blocks. -/
theorem releases (h : Backed state dead st) (hone : p ≠ 1) (hused : state p ≠ .unset)
    (halive : dead p = false) :
    (∃ a, st.kernelStack p = some a ∧
      st.kernelBlocks.release a kernelStackSize = some (st.free p).kernelBlocks) ∧
    ∃ a, st.userStack p = some a ∧ st.userStackSize p ≠ 0 ∧
      st.userBlocks.release a (st.userStackSize p) = some (st.free p).userBlocks := by
  obtain ⟨a, ha⟩ := Option.ne_none_iff_exists'.mp (h.kernelStack p hused halive)
  obtain ⟨huser, hsize⟩ := h.userStack p hone hused halive
  obtain ⟨u, hu⟩ := Option.ne_none_iff_exists'.mp huser
  constructor
  · refine ⟨a, ha, ?_⟩
    have hmem : (a, kernelStackSize) ∈ st.kernelBlocks.live :=
      (h.kernel.mem_iff _).mpr ⟨p, by simp [Stacks.kernelHolder, hused, ha]⟩
    unfold Blocks.release Stacks.free
    rw [if_pos hmem, ha, Option.getD_some]
  · refine ⟨u, hu, hsize, ?_⟩
    have hmem : (u, st.userStackSize p) ∈ st.userBlocks.live :=
      (h.user.mem_iff _).mpr ⟨p, by simp [Stacks.userHolder, hused, hu]⟩
    unfold Blocks.release Stacks.free
    rw [if_pos hmem, hu, Option.getD_some]

theorem free (h : Backed state dead st) (hone : p ≠ 1) (hused : state p ≠ .unset)
    (halive : dead p = false) : Backed state (Function.update dead p true) (st.free p) := by
  obtain ⟨⟨a, ha, hkernel⟩, u, hu, -, huser⟩ := h.releases hone hused halive
  have hkernelHolder : st.kernelHolder state p = some (a, kernelStackSize) := by
    simp [Stacks.kernelHolder, hused, ha]
  have huserHolder : st.userHolder state p = some (u, st.userStackSize p) := by
    simp [Stacks.userHolder, hused, hu]
  constructor
  · obtain ⟨b, hb, howns⟩ := h.kernel.release hkernelHolder
    rw [hkernel, Option.some_inj] at hb
    rw [hb]
    refine howns.congr fun x => ?_
    by_cases hx : x = p
    · subst hx
      simp [Stacks.kernelHolder, Stacks.free, Stacks.clear]
    · simp [Stacks.kernelHolder, Stacks.free, Stacks.clear, hx]
  · obtain ⟨b, hb, howns⟩ := h.user.release huserHolder
    rw [huser, Option.some_inj] at hb
    rw [hb]
    refine howns.congr fun x => ?_
    by_cases hx : x = p
    · subst hx
      simp [Stacks.userHolder, Stacks.free, Stacks.clear]
    · simp [Stacks.userHolder, Stacks.free, Stacks.clear, hx]
  · intro x hx hxalive
    by_cases hxp : x = p
    · simp [hxp] at hxalive
    · rw [Function.update_of_ne hxp] at hxalive
      simpa [Stacks.free, Stacks.clear, hxp] using h.kernelStack x hx hxalive
  · intro x hx1 hx hxalive
    by_cases hxp : x = p
    · simp [hxp] at hxalive
    · rw [Function.update_of_ne hxp] at hxalive
      simpa [Stacks.free, Stacks.clear, hxp] using h.userStack x hx1 hx hxalive
  · intro x hx
    by_cases hxp : x = p
    · simp [Stacks.free, Stacks.clear, hxp]
    · rw [Function.update_of_ne hxp] at hx
      simpa [Stacks.free, Stacks.clear, hxp] using h.freed x hx

/-- `destroy` finds no stacks. -/
theorem clear_eq (h : Backed state dead st) (hdead : dead p = true) : st.clear p = st := by
  obtain ⟨hkernel, huser, hsize⟩ := h.freed p hdead
  have hkernel' : Function.update st.kernelStack p none = st.kernelStack := by
    rw [← hkernel, Function.update_eq_self]
  have huser' : Function.update st.userStack p none = st.userStack := by
    rw [← huser, Function.update_eq_self]
  have hsize' : Function.update st.userStackSize p 0 = st.userStackSize := by
    rw [← hsize, Function.update_eq_self]
  unfold Stacks.clear
  rw [hkernel', huser', hsize']

/-- The slot is reset. -/
theorem clear (h : Backed state dead st) (hdead : dead p = true) :
    Backed (Function.update state p .unset) (Function.update dead p false) (st.clear p) := by
  obtain ⟨hkernel, huser, hsize⟩ := h.freed p hdead
  rw [h.clear_eq hdead]
  constructor
  · refine h.kernel.congr fun x => ?_
    by_cases hx : x = p
    · simp [Stacks.kernelHolder, hx, hkernel]
    · simp [Stacks.kernelHolder, hx]
  · refine h.user.congr fun x => ?_
    by_cases hx : x = p
    · simp [Stacks.userHolder, hx, huser]
    · simp [Stacks.userHolder, hx]
  · intro x hx halive
    by_cases hxp : x = p
    · simp [hxp] at hx
    · rw [Function.update_of_ne hxp] at hx halive
      exact h.kernelStack x hx halive
  · intro x hone hx halive
    by_cases hxp : x = p
    · simp [hxp] at hx
    · rw [Function.update_of_ne hxp] at hx halive
      exact h.userStack x hone hx halive
  · intro x hx
    by_cases hxp : x = p
    · simp [hxp] at hx
    · rw [Function.update_of_ne hxp] at hx
      exact h.freed x hx

end Backed

end SchlagOS
