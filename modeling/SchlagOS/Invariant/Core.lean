import SchlagOS.Invariant.Family
import SchlagOS.Invariant.Pending
import SchlagOS.Invariant.Pool
import SchlagOS.Invariant.View
import SchlagOS.Invariant.Waiters

/-!
# The invariant of the process table

All parts together, for a state in which process `r` runs, and one rule for
each thing the kernel does to the tables.  Between the rules of one call the
stack of the running process may be ahead or behind, so `call` is changed by
rules of its own.
-/

namespace SchlagOS

open Foundation

/-- The array `pids_waiting` holds the sleeping processes, each once. -/
def Sleepers (state : Int → ProcessState) (sleeping : List Int) : Prop :=
  sleeping.Nodup ∧ ∀ p, p ∈ sleeping ↔ state p = .sleeping

theorem Sleepers.move {state : Int → ProcessState} {sleeping : List Int} {p : Int}
    {b : ProcessState} (h : Sleepers state sleeping) (hp : state p ≠ .sleeping)
    (hb : b ≠ .sleeping) : Sleepers (Function.update state p b) sleeping := by
  refine ⟨h.1, fun x => ?_⟩
  rw [h.2, update_eq_iff hp hb]

theorem Sleepers.leave {state : Int → ProcessState} {sleeping rest : List Int} {p : Int}
    {b : ProcessState} (h : Sleepers state sleeping) (hperm : sleeping.Perm (p :: rest))
    (hb : b ≠ .sleeping) : Sleepers (Function.update state p b) rest := by
  have hnodup := List.nodup_cons.mp (hperm.nodup_iff.mp h.1)
  refine ⟨hnodup.2, fun x => ?_⟩
  have hx := (hperm.mem_iff (a := x)).symm.trans (h.2 x)
  by_cases hxp : x = p
  · subst hxp
    simp [hnodup.1, hb]
  · simpa [hxp] using hx

theorem Sleepers.enter {state : Int → ProcessState} {sleeping : List Int} {p : Int}
    (h : Sleepers state sleeping) (hp : state p ≠ .sleeping) :
    Sleepers (Function.update state p .sleeping) (sleeping ++ [p]) := by
  constructor
  · rw [List.nodup_append]
    refine ⟨h.1, List.nodup_singleton p, fun x hx y hy heq => hp ?_⟩
    rw [← List.mem_singleton.mp hy, ← heq, ← h.2]
    exact hx
  · intro x
    rw [List.mem_append, h.2, List.mem_singleton]
    by_cases hx : x = p
    · subst hx
      simp
    · simp [hx]

def freePid (state : Int → ProcessState) (p : Int) : Prop := IsPid p ∧ state p = .unset

def freeFid (queues : Int → MessageQueue) (fid : Int) : Prop :=
  (0 ≤ fid ∧ fid < nbQueue) ∧ (queues fid).allocated = false

structure Core (v : View) (r : Int) (except : Int → Prop) : Prop where
  running : v.running = some r
  used : ∀ p, v.state p ≠ .unset → IsPid p ∧ v.pid p = p
  self : v.state r ≠ .unset
  awake : v.state r ≠ .waiting
  alone : ∀ p, v.state p = .running → p = r
  init : v.state 1 = .running ∨ v.state 1 = .waiting ∨ v.state 1 = .zombie
  ready : ReadyQueue v.state v.priority v.processQueue
  pending : Pending v.state v.dead v.isSealed v.toZombify v.toDestroy r
  family : Family v.state v.father v.childs
  closed : DeadClosed v.childs v.dead v.isSealed except
  waits : Waits v.state v.father v.code v.dead v.isSealed v.call v.toZombify r
  locked : Locked v.state v.priority v.call v.queues
  pidPool : Pool processTableMaxSize v.pids v.currentSize (freePid v.state)
  fidPool : Pool nbQueue v.fids v.nbQueues (freeFid v.queues)
  sleepers : Sleepers v.state v.sleeping

namespace Core

variable {v : View} {r p c o : Int} {except : Int → Prop}

theorem isPid (h : Core v r except) (hp : v.state p ≠ .unset) : IsPid p := (h.used p hp).1

theorem pid_eq (h : Core v r except) (hp : v.state p ≠ .unset) : v.pid p = p :=
  (h.used p hp).2

/-- A process that is in use changes its state.  The parts that depend on more
than its being in use are given. -/
theorem move (h : Core v r except) {b : ProcessState} {code : Int → Int}
    {call : Int → List Frame} {toZombify sleeping : List Int}
    {processQueue : LinkQueue Int} {queues : Int → MessageQueue}
    (hused : v.state p ≠ .unset) (hb : b ≠ .unset) (hself : p = r → b ≠ .waiting)
    (halone : b = .running → p = r)
    (hinit : p = 1 → b = .running ∨ b = .waiting ∨ b = .zombie)
    (hready : ReadyQueue (Function.update v.state p b) v.priority processQueue)
    (hpending : Pending (Function.update v.state p b) v.dead v.isSealed toZombify
      v.toDestroy r)
    (hwaits : Waits (Function.update v.state p b) v.father code v.dead v.isSealed call
      toZombify r)
    (hlocked : Locked (Function.update v.state p b) v.priority call queues)
    (hqueues : ∀ fid, (queues fid).allocated = (v.queues fid).allocated)
    (hsleep : Sleepers (Function.update v.state p b) sleeping) :
    Core { v with
      state := Function.update v.state p b
      code := code
      call := call
      toZombify := toZombify
      sleeping := sleeping
      processQueue := processQueue
      queues := queues } r except where
  running := h.running
  used x hx := by
    by_cases hxp : x = p
    · rw [hxp]
      exact h.used p hused
    · exact h.used x (by simpa [hxp] using hx)
  self := by
    by_cases hrp : r = p
    · subst hrp
      simpa using hb
    · simpa [hrp] using h.self
  awake := by
    by_cases hrp : r = p
    · subst hrp
      simpa using hself rfl
    · simpa [hrp] using h.awake
  alone x hx := by
    by_cases hxp : x = p
    · subst hxp
      exact halone (by simpa using hx)
    · exact h.alone x (by simpa [hxp] using hx)
  init := by
    by_cases hp1 : 1 = p
    · subst hp1
      simpa using hinit rfl
    · simpa [hp1] using h.init
  ready := hready
  pending := hpending
  family := h.family.move hused hb
  closed := h.closed
  waits := hwaits
  locked := hlocked
  pidPool := h.pidPool.congr fun x => by
    unfold freePid
    rw [update_eq_iff hused hb]
  fidPool := h.fidPool.congr fun fid => by
    unfold freeFid
    rw [hqueues]
  sleepers := hsleep

/-! ## Deaths -/

/-- `request_zombify`. -/
theorem die (h : Core v r except) (hused : v.state p ≠ .unset)
    (hzombie : v.state p ≠ .zombie) (hr : v.state r ≠ .blockedByChild)
    {processQueue : LinkQueue Int} {queues : Int → MessageQueue} {sleeping : List Int}
    (hready : ReadyQueue (Function.update v.state p .zombie) v.priority processQueue)
    (hlocked : Locked (Function.update v.state p .zombie) v.priority v.call queues)
    (hqueues : ∀ fid, (queues fid).allocated = (v.queues fid).allocated)
    (hsleep : Sleepers (Function.update v.state p .zombie) sleeping) :
    Core { v with
      state := Function.update v.state p .zombie
      toZombify := v.toZombify ++ [p]
      processQueue := processQueue
      queues := queues
      sleeping := sleeping } r except :=
  h.move hused (by decide) (fun _ => by decide) (fun heq => by cases heq)
    (fun _ => .inr (.inr rfl)) hready (h.pending.die hzombie) (h.waits.die hr p) hlocked
    hqueues hsleep

/-- `deallocate` on the pid taken from the first list. -/
theorem bury (h : Core v r fun _ => False) {rest : List Int}
    (hperm : v.toZombify.Perm (p :: rest)) (hr : p ≠ r) :
    Core { v with dead := Function.update v.dead p true, toZombify := rest } r
      fun x => x = p :=
  { h with
    pending := h.pending.bury hperm hr
    closed := h.closed.bury p
    waits := h.waits.bury (fun _ hx => hperm.mem_iff.mpr (List.mem_cons_of_mem _ hx)) p }

/-- `request_destroy` on a zombie. -/
theorem close (h : Core v r except) (hzombie : v.state c = .zombie)
    (hsealed : v.isSealed c = false) (hr : c ≠ r)
    (hfather : ∀ frame, (v.state (v.father c)).Active →
      (v.call (v.father c)).head? = some frame → frame.isWaitpid = false) :
    Core { v with
      isSealed := Function.update v.isSealed c true
      toDestroy := v.toDestroy ++ [c] } r except :=
  { h with
    pending := h.pending.close hzombie hsealed hr
    closed := h.closed.close c
    waits := h.waits.close hfather }

/-- A living child of a process that is being cleaned up goes over to process 1. -/
theorem adopt (h : Core v r except) (ho : o ≠ 1) (hc : c ∈ v.childs o)
    (halive : v.dead c = false) {childs : Int → List Int}
    (hchilds : ∀ x, x ≠ 1 → x ≠ o → childs x = v.childs x)
    (herase : childs o = (v.childs o).erase c) :
    Core { v with father := Function.update v.father c 1, childs := childs } r except :=
  { h with
    family := h.family.adopt ho hc hchilds herase
    closed := h.closed.adopt hchilds herase
    waits := h.waits.adopt halive }

/-- `zombify` wakes the father of the process. -/
theorem wake (h : Core v r except) (hblocked : v.state (v.father c) = .blockedByChild)
    (hdead : v.dead c = true) (hsealed : v.isSealed c = false) (hr : v.father c ≠ r)
    (hmatch : v.code (v.father c) < 0 ∨ v.code (v.father c) = c)
    {processQueue : LinkQueue Int}
    (hready : ReadyQueue (Function.update v.state (v.father c) .waiting) v.priority
      processQueue) :
    Core { v with
      state := Function.update v.state (v.father c) .waiting
      code := Function.update v.code (v.father c) c
      processQueue := processQueue } r except := by
  have hne : ∀ b : ProcessState, b ≠ .blockedByChild → v.state (v.father c) ≠ b :=
    fun b hb heq => hb (heq.symm.trans hblocked)
  exact h.move (hne _ (by decide)) (by decide) (fun heq => absurd heq hr)
    (fun heq => by cases heq) (fun _ => .inr (.inl rfl)) hready
    (h.pending.move (hne _ (by decide)) (by decide))
    (h.waits.wake hblocked hdead hsealed hr hmatch)
    (h.locked.moveState (hne _ (by decide)) (by decide)) (fun _ => rfl)
    (h.sleepers.move (hne _ (by decide)) (by decide))

/-- The end of `zombify`: the children that are left are dead and sealed. -/
theorem all (h : Core v r fun x => x = p)
    (hchilds : p ≠ 1 → ∀ c ∈ v.childs p, v.dead c = true ∧ v.isSealed c = true) :
    Core v r fun _ => False :=
  { h with closed := h.closed.all hchilds }

/-- `destroy` on the pid taken from the second list. -/
theorem reset (h : Core v r fun _ => False) {rest : List Int} {pids : LockedRing Int}
    {childs : Int → List Int} {father pid' code priority : Int} {frames : List Frame}
    (hperm : v.toDestroy.Perm (p :: rest)) (hdead : v.dead p = true) (hone : p ≠ 1)
    (hnil : v.childs p = [])
    (hchilds : ∀ x, x ≠ 1 → x ≠ v.father p → childs x = v.childs x)
    (herase : childs (v.father p) = (v.childs (v.father p)).erase p)
    (hframes : ∀ frame, frames.head? = some frame → frame.isWaitpid = false)
    (hpool : Pool processTableMaxSize pids (uint32Pred v.currentSize)
      fun x => freePid v.state x ∨ x = p) :
    Core { v with
      state := Function.update v.state p .unset
      pid := Function.update v.pid p pid'
      father := Function.update v.father p father
      childs := childs
      priority := Function.update v.priority p priority
      dead := Function.update v.dead p false
      isSealed := Function.update v.isSealed p false
      code := Function.update v.code p code
      call := Function.update v.call p frames
      pids := pids
      currentSize := uint32Pred v.currentSize
      toDestroy := rest } r fun _ => False := by
  have hsealed : v.isSealed p = true :=
    (h.pending.mem_destroy p).mp (hperm.mem_iff.mpr (by simp))
  have hzombie := h.pending.sealed_zombie p hsealed
  have hr := h.pending.sealed_ne p hsealed
  have hne : ∀ b : ProcessState, b ≠ .zombie → v.state p ≠ b :=
    fun b hb heq => hb (heq.symm.trans hzombie)
  have hnot : p ∉ v.toZombify := by
    rw [h.pending.mem_zombify, hdead]
    simp
  constructor
  · exact h.running
  · intro x hx
    by_cases hxp : x = p
    · simp [hxp] at hx
    · simpa [hxp] using h.used x (by simpa [hxp] using hx)
  · simpa [Ne.symm hr] using h.self
  · simpa [Ne.symm hr] using h.awake
  · intro x hx
    by_cases hxp : x = p
    · simp [hxp] at hx
    · exact h.alone x (by simpa [hxp] using hx)
  · simpa [Ne.symm hone] using h.init
  · exact (h.ready.move (hne _ (by decide)) (by decide)).reprioritise
      (by simp) priority
  · exact h.pending.reset hperm hdead hr
  · exact h.family.reset (hne _ (by decide)) hone hnil hchilds herase
  · exact h.closed.reset h.family hchilds herase
  · exact (h.waits.reset hzombie hsealed hframes hnot).codeOf (by simp)
      (by rw [Function.update_self]; decide) code
  · exact ((h.locked.move (hne _ (by decide)) (by decide) frames).reprioritise
      (by simp) priority)
  · refine hpool.congr fun x => ?_
    unfold freePid
    by_cases hxp : x = p
    · subst hxp
      simp [h.isPid (hne _ (by decide))]
    · simp [hxp]
  · exact h.fidPool
  · exact h.sleepers.move (hne _ (by decide)) (by decide)

/-! ## Births -/

/-- The slot of a `start` that succeeds. -/
theorem start (h : Core v r except) (hp : freePid v.state p) (hr : v.state r = .running)
    (priority : Int) {pids : LockedRing Int} {processQueue : LinkQueue Int}
    (hpool : Pool processTableMaxSize pids (v.currentSize + 1)
      fun x => freePid v.state x ∧ x ≠ p)
    (hready : ReadyQueue (Function.update v.state p .waiting)
      (Function.update v.priority p priority) processQueue) :
    Core { v with
      state := Function.update v.state p .waiting
      pid := Function.update v.pid p p
      father := Function.update v.father p r
      childs := Function.update (Function.update v.childs p []) r (p :: v.childs r)
      priority := Function.update v.priority p priority
      dead := Function.update v.dead p false
      call := Function.update v.call p []
      pids := pids
      currentSize := v.currentSize + 1
      processQueue := processQueue } r except := by
  obtain ⟨hpid, hunset⟩ := hp
  have hne : ∀ b : ProcessState, b ≠ .unset → v.state p ≠ b :=
    fun b hb heq => hb (heq.symm.trans hunset)
  have hpr : p ≠ r := fun heq => hne .running (by decide) (heq ▸ hr)
  have hone : p ≠ 1 := by
    rintro rfl
    rcases h.init with h1 | h1 | h1 <;> exact hne _ (by decide) h1
  have hdead : v.dead p = false := h.pending.dead_eq_false (hne _ (by decide))
  have hdead' : Function.update v.dead p false = v.dead := by
    rw [← hdead, Function.update_eq_self]
  constructor
  · exact h.running
  · intro x hx
    by_cases hxp : x = p
    · simpa [hxp] using hpid
    · simpa [hxp] using h.used x (by simpa [hxp] using hx)
  · simpa [Ne.symm hpr] using h.self
  · simpa [Ne.symm hpr] using h.awake
  · intro x hx
    by_cases hxp : x = p
    · simp [hxp] at hx
    · exact h.alone x (by simpa [hxp] using hx)
  · simpa [Ne.symm hone] using h.init
  · exact hready
  · dsimp only
    rw [hdead']
    exact h.pending.move (hne _ (by decide)) (by decide)
  · exact h.family.start hunset hone (by decide) h.self
  · exact h.closed.start hdead h.pending.running_alive p
  · dsimp only
    rw [hdead']
    exact h.waits.start (hne _ (by decide)) hdead hpr (by decide) (by simp [hr]) r
  · exact (h.locked.reprioritise (hne _ (by decide)) priority).move (hne _ (by decide))
      (by decide) []
  · refine hpool.congr fun x => ?_
    unfold freePid
    by_cases hxp : x = p
    · simp [hxp]
    · simp [hxp]
  · exact h.fidPool
  · exact h.sleepers.move (hne _ (by decide)) (by decide)

/-- The slot of a `start` that fails for lack of memory keeps what was written to
it, but it is not in use. -/
theorem startFails (h : Core v r except) (hp : freePid v.state p)
    (hr : v.state r = .running) (priority : Int) {pids : LockedRing Int}
    (hpool : Pool processTableMaxSize pids v.currentSize (freePid v.state)) :
    Core { v with
      pid := Function.update v.pid p p
      father := Function.update v.father p r
      childs := Function.update v.childs p []
      priority := Function.update v.priority p priority
      dead := Function.update v.dead p false
      call := Function.update v.call p []
      pids := pids } r except := by
  obtain ⟨-, hunset⟩ := hp
  have hne : ∀ b : ProcessState, b ≠ .unset → v.state p ≠ b :=
    fun b hb heq => hb (heq.symm.trans hunset)
  have hpr : p ≠ r := fun heq => hne .running (by decide) (heq ▸ hr)
  have hone : p ≠ 1 := by
    rintro rfl
    rcases h.init with h1 | h1 | h1 <;> exact hne _ (by decide) h1
  have hdead : v.dead p = false := h.pending.dead_eq_false (hne _ (by decide))
  have hdead' : Function.update v.dead p false = v.dead := by
    rw [← hdead, Function.update_eq_self]
  have hchilds : Function.update v.childs p [] = v.childs := by
    rw [← h.family.childs_unset hunset hone, Function.update_eq_self]
  have hused : ∀ x, v.state x ≠ .unset → x ≠ p := fun x hx heq => hx (heq ▸ hunset)
  have hstate : Function.update v.state p .unset = v.state := by
    rw [← hunset, Function.update_eq_self]
  rw [hdead', hchilds]
  exact { h with
    used := by
      intro x hx
      simpa [hused x hx] using h.used x hx
    ready := h.ready.reprioritise (hne _ (by decide)) priority
    family := h.family.orphan hunset hone r
    waits := by
      have hwaits := h.waits.start (b := .unset) (hne _ (by decide)) hdead hpr (by decide)
        (by simp [hr]) r
      rwa [hstate] at hwaits
    locked := by
      have hlocked := (h.locked.reprioritise (hne _ (by decide)) priority).move (b := .unset)
        (hne _ (by decide)) (by decide) []
      rwa [hstate] at hlocked
    pidPool := hpool }

/-! ## The running process -/

/-- The running process goes on at another place. -/
theorem setCall (h : Core v r except) (hchild : v.state r ≠ .blockedByChild)
    (hmessage : v.state r ≠ .blockedByMessage) {frames : List Frame}
    (hframes : ∀ frame, frames.head? = some frame → frame.isWaitpid = false) :
    Core { v with call := Function.update v.call r frames } r except :=
  { h with
    waits := by
      have hwaits := h.waits.move hchild hchild hframes
      rwa [Function.update_eq_self] at hwaits
    locked := by
      have hlocked := h.locked.move hmessage hmessage frames
      rwa [Function.update_eq_self] at hlocked }

/-- The running process blocks. -/
theorem block (h : Core v r except) (hr : v.state r = .running) (hone : r ≠ 1)
    {b : ProcessState} {code : Int → Int} {frames : List Frame} {sleeping : List Int}
    {queues : Int → MessageQueue}
    (hb : b ≠ .unset ∧ b ≠ .waiting ∧ b ≠ .running ∧ b ≠ .zombie)
    (hwaits : Waits (Function.update v.state r b) v.father code v.dead v.isSealed
      (Function.update v.call r frames) v.toZombify r)
    (hlocked : Locked (Function.update v.state r b) v.priority
      (Function.update v.call r frames) queues)
    (hqueues : ∀ fid, (queues fid).allocated = (v.queues fid).allocated)
    (hsleep : Sleepers (Function.update v.state r b) sleeping) :
    Core { v with
      state := Function.update v.state r b
      code := code
      call := Function.update v.call r frames
      sleeping := sleeping
      queues := queues } r except :=
  h.move h.self hb.1 (fun _ => hb.2.1) (fun heq => absurd heq hb.2.2.1)
    (fun heq => absurd heq hone) (h.ready.move h.awake hb.2.1)
    (h.pending.move (by simp [hr]) hb.2.2.2) hwaits hlocked hqueues hsleep

/-- A process that is blocked becomes ready. -/
theorem unblock (h : Core v r except) (hused : v.state p ≠ .unset)
    (hzombie : v.state p ≠ .zombie) (hpr : p ≠ r) {sleeping : List Int}
    {processQueue : LinkQueue Int} {queues : Int → MessageQueue}
    (hready : ReadyQueue (Function.update v.state p .waiting) v.priority processQueue)
    (hwaits : Waits (Function.update v.state p .waiting) v.father v.code v.dead v.isSealed
      v.call v.toZombify r)
    (hlocked : Locked (Function.update v.state p .waiting) v.priority v.call queues)
    (hqueues : ∀ fid, (queues fid).allocated = (v.queues fid).allocated)
    (hsleep : Sleepers (Function.update v.state p .waiting) sleeping) :
    Core { v with
      state := Function.update v.state p .waiting
      sleeping := sleeping
      processQueue := processQueue
      queues := queues } r except :=
  h.move hused (by decide) (fun heq => absurd heq hpr) (fun heq => by cases heq)
    (fun _ => .inr (.inl rfl)) hready (h.pending.move hzombie (by decide)) hwaits hlocked
    hqueues hsleep

/-- `process_switch`. -/
theorem switch (h : Core v r except) {state : Int → ProcessState}
    {processQueue : LinkQueue Int} (hp : v.state p = .waiting) (hp' : state p = .running)
    (hr : state r = if v.state r = .running then .waiting else v.state r)
    (hother : ∀ x, x ≠ p → x ≠ r → state x = v.state x)
    (hready : ReadyQueue state v.priority processQueue) :
    Core { v with state := state, processQueue := processQueue, running := some p } p
      except := by
  have hpr : p ≠ r := fun heq => h.awake (heq ▸ hp)
  have hiff : ∀ b : ProcessState, b ≠ .running → b ≠ .waiting → ∀ x,
      state x = b ↔ v.state x = b := by
    intro b hrun hwait x
    by_cases hxp : x = p
    · rw [hxp, hp, hp']
      exact iff_of_false (Ne.symm hrun) (Ne.symm hwait)
    · by_cases hxr : x = r
      · rw [hxr, hr]
        split_ifs with hrunning
        · rw [hrunning]
          exact iff_of_false (Ne.symm hwait) (Ne.symm hrun)
        · rfl
      · rw [hother x hxp hxr]
  have hready' : ∀ x, state x = .waiting ∨ state x = .running ↔
      v.state x = .waiting ∨ v.state x = .running := by
    intro x
    by_cases hxp : x = p
    · rw [hxp, hp, hp']
      simp
    · by_cases hxr : x = r
      · rw [hxr, hr]
        split_ifs with hrunning
        · simp [hrunning]
        · rfl
      · rw [hother x hxp hxr]
  have hactive : ∀ x, (state x).Active ↔ (v.state x).Active := by
    intro x
    unfold ProcessState.Active
    rw [← or_assoc, ← or_assoc, hready' x, hiff .sleeping (by decide) (by decide) x]
  constructor
  · rfl
  · intro x hx
    exact h.used x fun heq => hx ((hiff .unset (by decide) (by decide) x).mpr heq)
  · simp [hp']
  · simp [hp']
  · intro x hx
    by_contra hxp
    by_cases hxr : x = r
    · dsimp only at hx
      rw [hxr, hr] at hx
      split at hx
      · cases hx
      · contradiction
    · dsimp only at hx
      rw [hother x hxp hxr] at hx
      exact hxr (h.alone x hx)
  · have hzombie := hiff .zombie (by decide) (by decide) 1
    rcases h.init with h1 | h1 | h1
    · rcases (hready' 1).mpr (.inr h1) with h1' | h1'
      · exact .inr (.inl h1')
      · exact .inl h1'
    · rcases (hready' 1).mpr (.inl h1) with h1' | h1'
      · exact .inr (.inl h1')
      · exact .inl h1'
    · exact .inr (.inr (hzombie.mpr h1))
  · exact hready
  · exact (h.pending.congr (hiff .zombie (by decide) (by decide))).switch
      (by rw [hp']; decide)
  · exact h.family.congr (hiff .unset (by decide) (by decide))
  · exact h.closed
  · exact (h.waits.congr (hiff .blockedByChild (by decide) (by decide)) hactive).switch
      (by rw [hp']; decide)
  · exact h.locked.congr (hiff .blockedByMessage (by decide) (by decide))
  · refine h.pidPool.congr fun x => ?_
    unfold freePid
    rw [hiff .unset (by decide) (by decide)]
  · exact h.fidPool
  · refine ⟨h.sleepers.1, fun x => ?_⟩
    rw [hiff .sleeping (by decide) (by decide)]
    exact h.sleepers.2 x

/-! ## Priorities and queues -/

theorem reprioritise (h : Core v r except) {priority : Int → Int}
    {processQueue : LinkQueue Int} {queues : Int → MessageQueue}
    (hready : ReadyQueue v.state priority processQueue)
    (hlocked : Locked v.state priority v.call queues)
    (hqueues : ∀ fid, (queues fid).allocated = (v.queues fid).allocated) :
    Core { v with priority := priority, processQueue := processQueue, queues := queues } r
      except :=
  { h with
    ready := hready
    locked := hlocked
    fidPool := h.fidPool.congr fun fid => by
      unfold freeFid
      rw [hqueues] }

theorem setQueues (h : Core v r except) {queues : Int → MessageQueue}
    {fids : LockedRing Int} {nbQueues : Nat}
    (hlocked : Locked v.state v.priority v.call queues)
    (hpool : Pool nbQueue fids nbQueues (freeFid queues)) :
    Core { v with queues := queues, fids := fids, nbQueues := nbQueues } r except :=
  { h with locked := hlocked, fidPool := hpool }

end Core

end SchlagOS
