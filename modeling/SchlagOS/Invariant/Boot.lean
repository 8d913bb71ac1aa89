import SchlagOS.Invariant.Run

/-!
# Booting

The state in which process 1 enters the body of `init`, and that the invariants
hold there.
-/

namespace SchlagOS

open Foundation

def initProcess : Process :=
  { noProcess with
    pid := 1
    fatherPid := processNotFoundCode
    state := .running
    priority := 1
    kernelStack := some 0
    executionContext := [.startReturn 1]
    returnCode := 0 }

def stdinQueue : MessageQueue :=
  { emptyMessageQueue with
    allocated := true
    ring := { buffer := fun _ => 0, consume := 0, produce := 0 }
    size := keyBufferSize
    lockedProcesses := .empty }

def booted : Kernel :=
  { powerOn with
    data := Function.update powerOn.data 1 initProcess
    pids := { powerOn.pids with consume := 1, produce := 0 }
    currentSize := 1
    runningProcess := some 1
    queues := Function.update powerOn.queues 0 stdinQueue
    fids := { powerOn.fids with consume := 1, produce := 0 }
    nbQueues := 1
    stdinFid := 0
    echoEnabled := true
    kernelBlocks := { next := 1, live := [(0, kernelStackSize)] }
    eax := 1
    history := [.created 0 keyBufferSize, .started processNotFoundCode 1] }

/-- The ready queue after process 1 went in and out. -/
private def passed : LinkQueue Int :=
  (((LinkQueue.empty.clear 1).link 1 .head .head).unlink (.elem 1) .head .head)

private theorem passed_eq : passed = .empty := by
  have hnext : passed.next = LinkQueue.empty.next := by
    funext a
    cases a with
    | null => rfl
    | head => rfl
    | elem i =>
        by_cases hi : i = 1
        · rw [hi]
          rfl
        · simp [passed, LinkQueue.unlink, LinkQueue.link, LinkQueue.clear, LinkQueue.empty, hi]
  have hprev : passed.prev = LinkQueue.empty.prev := by
    funext a
    cases a with
    | null => rfl
    | head => rfl
    | elem i =>
        by_cases hi : i = 1
        · rw [hi]
          rfl
        · simp [passed, LinkQueue.unlink, LinkQueue.link, LinkQueue.clear, LinkQueue.empty, hi]
  exact congrArg₂ LinkQueue.mk hprev hnext

theorem kernelStart_eq : kernelStart = .ok booted := by
  have hrun : ∃ a b c d e, kernelStart = .ok { booted with
      data := Function.update (Function.update (Function.update (Function.update (Function.update
        (Function.update powerOn.data 1 a) 1 b) 1 c) 1 d) 1 e) 1 initProcess
      processQueue := passed } := ⟨_, _, _, _, _, rfl⟩
  obtain ⟨a, b, c, d, e, hrun⟩ := hrun
  rw [hrun, passed_eq]
  simp only [Function.update_idem]
  rfl

/-! ## The invariants -/

@[simp] private theorem data_one : booted.data 1 = initProcess := rfl

private theorem data_other {p : Int} (hp : p ≠ 1) : booted.data p = noProcess :=
  Function.update_of_ne hp _ _

@[simp] private theorem queue_stdin : booted.queues 0 = stdinQueue := rfl

private theorem queue_other {fid : Int} (hfid : fid ≠ 0) :
    booted.queues fid = emptyMessageQueue := Function.update_of_ne hfid _ _

/-- A field of a slot, at process 1 and elsewhere. -/
private theorem field_eq {β : Type} (field : Process → β) (p : Int) :
    field (booted.data p) = if p = 1 then field initProcess else field noProcess := by
  split_ifs with hp
  · rw [hp, data_one]
  · rw [data_other hp]

@[simp] private theorem state_eq (p : Int) :
    booted.view.state p = if p = 1 then .running else .unset := field_eq Process.state p

@[simp] private theorem dead_eq (p : Int) : booted.view.dead p = false := by
  refine (field_eq Process.deallocated p).trans ?_
  split <;> rfl

@[simp] private theorem sealed_eq (p : Int) : booted.view.isSealed p = false := by
  refine (field_eq Process.sealed p).trans ?_
  split <;> rfl

@[simp] private theorem childs_eq (p : Int) : booted.view.childs p = [] := by
  refine (field_eq Process.childsPids p).trans ?_
  split <;> rfl

@[simp] theorem booted_call (p : Int) : booted.view.call p = [] := by
  have hstack : booted.stack p = [] := by
    unfold Kernel.stack
    by_cases hp : p = 1
    · rw [hp]
      rfl
    · have hne : booted.runningProcess ≠ some p := fun heq => hp (Option.some.inj heq).symm
      rw [if_neg hne, data_other hp]
      rfl
  exact congrArg base hstack

private theorem unused {p : Int} (hp : booted.view.state p ≠ .unset) : p = 1 := by
  by_contra hne
  simp [hne] at hp

private theorem stdin_waiters : stdinQueue.waiters = [] := NodeList.empty_holds.toList_eq

private theorem stdin_live : Live stdinQueue :=
  Live.created idle_emptyMessageQueue keyBufferSize (by decide) fun _ => 0

private theorem waiters_eq (fid : Int) : (booted.view.queues fid).waiters = [] := by
  change (booted.queues fid).waiters = []
  by_cases hfid : fid = 0
  · rw [hfid, queue_stdin]
    exact stdin_waiters
  · rw [queue_other hfid]
    exact idle_emptyMessageQueue.waiters

private theorem allocated_iff (fid : Int) : (booted.queues fid).allocated = true ↔ fid = 0 := by
  by_cases hfid : fid = 0
  · simp [hfid, stdinQueue]
  · simp [hfid, queue_other hfid, emptyMessageQueue]

private theorem booted_locked : Locked booted.view.state booted.view.priority
    booted.view.call booted.view.queues where
  live fid hfid := by
    rw [(allocated_iff fid).mp hfid]
    change Live (booted.queues 0)
    rw [queue_stdin]
    exact stdin_live
  idle fid hfid := by
    have hne : fid ≠ 0 := by
      rintro rfl
      have htrue := (allocated_iff 0).mpr rfl
      rw [show (booted.queues 0).allocated = false from hfid] at htrue
      cases htrue
    change Idle (booted.queues fid)
    rw [queue_other hne]
    exact idle_emptyMessageQueue
  range fid hfid := by
    rw [(allocated_iff fid).mp hfid]
    decide
  listed := by
    constructor
    · intro p
      simp only [state_eq, waiters_eq, List.not_mem_nil, false_and, exists_false, iff_false]
      split <;> decide
    · intro fid
      rw [waiters_eq]
      exact List.nodup_nil
    · intro fid fid' node node' hnode
      simp [waiters_eq] at hnode
    · intro fid node hnode
      simp [waiters_eq] at hnode
    · intro fid
      rw [waiters_eq]
      exact List.Pairwise.nil
  resume fid node hnode := by
    simp [waiters_eq] at hnode

private theorem booted_pidPool : Pool processTableMaxSize booted.view.pids
    booted.view.currentSize (freePid booted.view.state) := by
  have hfull : Pool processTableMaxSize powerOn.pids 0 IsPid := by
    refine Pool.full (by decide) ?_ fun x => ?_
    · intro i j _ _ heq
      have heq' : (i : Int) + 1 = j + 1 := heq
      omega
    unfold IsPid
    constructor
    · rintro ⟨hpos, hle⟩
      exact ⟨(x - 1).toNat, by omega, by omega⟩
    · rintro ⟨i, hi, rfl⟩
      omega
  obtain ⟨x, ring, hpop, -, -, hpool⟩ := hfull.pop (by decide)
  have hpop' : powerOn.pids.pop processTableMaxSize = some (1, booted.pids) := rfl
  rw [hpop', Option.some_inj, Prod.mk.injEq] at hpop
  obtain ⟨rfl, rfl⟩ := hpop
  refine hpool.congr fun p => ?_
  unfold freePid
  by_cases hp : p = 1
  · simp [hp]
  · simp [hp]

private theorem booted_fidPool : Pool nbQueue booted.view.fids booted.view.nbQueues
    (freeFid booted.view.queues) := by
  have hfull : Pool nbQueue powerOn.fids 0 fun fid => 0 ≤ fid ∧ fid < nbQueue := by
    refine Pool.full (by decide) (fun i j _ _ heq => Int.ofNat.inj heq) fun x => ?_
    constructor
    · rintro ⟨hpos, hlt⟩
      exact ⟨x.toNat, by omega, by omega⟩
    · rintro ⟨i, hi, rfl⟩
      omega
  obtain ⟨x, ring, hpop, -, -, hpool⟩ := hfull.pop (by decide)
  have hpop' : powerOn.fids.pop nbQueue = some (0, booted.fids) := rfl
  rw [hpop', Option.some_inj, Prod.mk.injEq] at hpop
  obtain ⟨rfl, rfl⟩ := hpop
  refine hpool.congr fun fid => ?_
  unfold freeFid
  change _ ∧ (booted.queues fid).allocated = false ↔ _
  rw [← Bool.not_eq_true, allocated_iff]

private theorem booted_backed :
    Backed booted.view.state booted.view.dead booted.stackData where
  kernel := by
    refine ((Owns.empty 0).allocate (i := (1 : Int)) rfl kernelStackSize).congr fun p => ?_
    unfold Stacks.kernelHolder
    rw [state_eq]
    by_cases hp : p = 1
    · rw [hp]
      rfl
    · rw [if_neg hp, if_pos rfl, Function.update_of_ne hp]
  user := by
    refine (Owns.empty 0).congr fun p => ?_
    have hnone : booted.stackData.userStack p = none :=
      (field_eq Process.userStack p).trans (by split <;> rfl)
    unfold Stacks.userHolder
    rw [hnone, Option.map_none, ite_self]
  kernelStack p hp _ := by
    rw [unused hp]
    exact Option.some_ne_none 0
  userStack p hone hp _ := absurd (unused hp) hone
  freed p hdead := by simp at hdead

theorem booted_safe : Safe booted 1 := by
  have hready : booted.view.processQueue.toList (processTableMaxSize + 1) = [] :=
    (LinkQueue.empty_holds).toList_eq (by decide)
  have hcore : Core booted.view 1 fun _ => False := by
    constructor
    · rfl
    · intro p hp
      rw [unused hp]
      exact ⟨isPid_one, rfl⟩
    · simp
    · simp
    · intro p hp
      refine unused fun hunset => ?_
      rw [hp] at hunset
      cases hunset
    · simp
    · constructor
      · rw [hready]
        exact LinkQueue.empty_holds
      · intro p
        rw [hready]
        simp only [state_eq, List.not_mem_nil, false_iff]
        split <;> decide
      · rw [hready]
        exact List.Pairwise.nil
      · intro p hp
        have hused : booted.view.state p ≠ .unset := by
          rw [hp]
          decide
        rw [unused hused]
        exact isPid_one
    · have hnil : booted.view.toZombify = [] ∧ booted.view.toDestroy = [] := ⟨rfl, rfl⟩
      rw [hnil.1, hnil.2]
      constructor
      case mem_zombify =>
        intro p
        simp only [state_eq, dead_eq, List.not_mem_nil, false_iff, and_true]
        split <;> decide
      all_goals simp
    · constructor
      · intro p hp hone
        exact absurd (unused hp) hone
      · simp
      · simp
      · intro p hp
        rw [unused hp]
        decide
      · rfl
    · intro o c _ _ hdead
      simp at hdead
    · constructor
      · intro p hp
        simp only [state_eq] at hp
        split at hp
        · cases hp
        · cases hp
      · simp
      · simp
      · simp
    · exact booted_locked
    · exact booted_pidPool
    · exact booted_fidPool
    · have hnil : booted.view.sleeping = [] := rfl
      rw [hnil]
      refine ⟨List.nodup_nil, fun p => ?_⟩
      simp only [state_eq, List.not_mem_nil, false_iff]
      split <;> decide
  refine ⟨⟨hcore, ?_, ?_, ?_, ?_, ?_, ?_, ?_⟩, ?_, ?_⟩
  · exact suspended_nil.executing
  · intro p hp hused
    exact absurd (unused hused) hp
  · intro frame hframe
    simp [Kernel.stack, booted, powerOn] at hframe
  · simp
  · simp
  · intro hphase
    exact absurd rfl hphase
  · intro hphase
    cases hphase
  · exact booted_backed
  · intro p frame q hframe
    simp at hframe

/-! ## Runs -/

variable {ok : Kernel → Step → Prop} {s : Kernel}

/-- The induction behind every invariant of a run: it holds where process 1 enters
`init`, and a step that does what `Moved` says preserves it. -/
theorem Running.induct {I : Kernel → Int → Prop} (h : Running ok s)
    (hok : ∀ s step, ok s step → Careful s step) (hstart : I booted 1)
    (hstep : ∀ s step s' r r', Safe s r → I s r → ok s step → Moved step s s' r r' →
      I s' r') : ∃ r, Safe s r ∧ I s r := by
  obtain ⟨start, hboot, hreach⟩ := h
  rw [kernelStart_eq, Except.ok.injEq] at hboot
  subst hboot
  refine hreach.invariant (I := fun s => ∃ r, Safe s r ∧ I s r) ⟨1, booted_safe, hstart⟩ ?_
  rintro s step s' - ⟨r, hsafe, hi⟩ henabled hs hrun
  obtain ⟨r', hmoved⟩ := (exec_meets hsafe henabled (hok s step hs)).of_ok hrun
  exact ⟨r', hmoved.safe, hstep s step s' r r' hsafe hi hs hmoved⟩

theorem Running.safe (h : Running ok s) (hok : ∀ s step, ok s step → Careful s step) :
    ∃ r, Safe s r := by
  obtain ⟨r, hsafe, -⟩ := h.induct (I := fun _ _ => True) hok trivial
    fun _ _ _ _ _ _ _ _ _ => trivial
  exact ⟨r, hsafe⟩

theorem Running.mono {ok' : Kernel → Step → Prop} (h : Running ok s)
    (himp : ∀ s step, ok s step → ok' s step) : Running ok' s := by
  obtain ⟨start, hboot, hreach⟩ := h
  exact ⟨start, hboot, hreach.mono himp⟩

theorem Running.next {s' : Kernel} {step : Step} (h : Running ok s)
    (henabled : step.enabled s) (hok : ok s step) (hrun : exec step s = .ok s') :
    Running ok s' := by
  obtain ⟨start, hboot, hreach⟩ := h
  exact ⟨start, hboot, hreach.step henabled hok hrun⟩

/-! ## Runs that are computed -/

/-- A step in which the allocators have memory. -/
def Event.step (event : Event) : Step := ⟨.available, event⟩

variable (ok) [∀ s step, Decidable (ok s step)]

/-- Run kernel code until the running process is in user mode, for at most `fuel` steps. -/
def toUser : Nat → Kernel → Option Kernel
  | 0, s => some s
  | fuel + 1, s =>
      if s.control = [] then some s
      else if ok s Event.kernel.step then
        match exec Event.kernel.step s with
        | .ok s' => toUser fuel s'
        | .error _ => none
      else none

/-- Make the steps one after the other, each as soon as a process is in user mode. -/
def play (s : Kernel) : List Step → Option Kernel
  | [] => some s
  | step :: rest =>
      if step.enabled s ∧ ok s step then
        match exec step s with
        | .ok s' => (toUser ok 100 s').bind fun s => play s rest
        | .error _ => none
      else none

variable {ok}

private theorem Running.of_toUser {fuel : Nat} {s' : Kernel} (h : Running ok s)
    (hrun : toUser ok fuel s = some s') : Running ok s' := by
  induction fuel generalizing s with
  | zero =>
      cases hrun
      exact h
  | succ fuel ih =>
      unfold toUser at hrun
      split_ifs at hrun with hcontrol hok
      · cases hrun
        exact h
      · cases hexec : exec Event.kernel.step s with
        | error e =>
            rw [hexec] at hrun
            cases hrun
        | ok s₁ =>
            rw [hexec] at hrun
            have henabled : Event.kernel.step.enabled s := hcontrol
            exact ih (h.next henabled hok hexec) hrun

private theorem Running.of_play {steps : List Step} {s' : Kernel} (h : Running ok s)
    (hrun : play ok s steps = some s') : Running ok s' := by
  induction steps generalizing s with
  | nil =>
      cases hrun
      exact h
  | cons step rest ih =>
      unfold play at hrun
      split_ifs at hrun with hstep
      cases hexec : exec step s with
      | error e =>
          rw [hexec] at hrun
          cases hrun
      | ok s₁ =>
          rw [hexec] at hrun
          obtain ⟨s₂, huser, hrun⟩ := Option.bind_eq_some_iff.mp hrun
          exact ih ((h.next hstep.1 hstep.2 hexec).of_toUser huser) hrun

/-- A run that goes on with steps that are played, and with the steps of a list. -/
theorem Running.played {test : Kernel → Bool} (h : Running ok s) (steps last : List Step)
    (htest : ((play ok s steps).any fun s => checkRun machine ok test s last) = true) :
    ∃ s', Running ok s' ∧ test s' = true := by
  cases hplay : play ok s steps with
  | none =>
      rw [hplay] at htest
      cases htest
  | some s' =>
      rw [hplay, Option.any_some] at htest
      obtain ⟨start, hboot, hreach⟩ := h.of_play hplay
      obtain ⟨s'', hreach', htest'⟩ := hreach.of_checkRun htest
      exact ⟨s'', ⟨start, hboot, hreach'⟩, htest'⟩

/-- A run from the start that is played, and goes on with the steps of a list. -/
theorem Running.computed {test : Kernel → Bool} (steps last : List Step)
    (h : ((play ok booted steps).any fun s => checkRun machine ok test s last) = true) :
    ∃ s, Running ok s ∧ test s = true :=
  Running.played ⟨booted, kernelStart_eq, .start⟩ steps last h

end SchlagOS
