import SchlagOS.Invariant.Run

/-!
# The clock and the deadlines

The counter of the clock and the delay of the scheduler change in the clock
interrupt only.  The deadline of a process changes when it calls `wait_clock`,
and when its slot is reset.
-/

namespace SchlagOS

open Foundation

variable {mem : Memory} {s : Kernel} {p : Int} {b : Nat × Nat × Nat}

/-- The clock, and the deadline of `p`. -/
def Kernel.timing (s : Kernel) (p : Int) : Nat × Nat × Nat :=
  (s.inter, s.schedulerDelay, (s.data p).sleepTime)

def Timed (p : Int) (b : Nat × Nat × Nat) (s : Kernel) : Prop := s.timing p = b

theorem Timed.update (h : Timed p b s) (q : Int) (f : Process → Process)
    (hf : ∀ x, (f x).sleepTime = x.sleepTime) : Timed p b (s.update q f) := by
  have hsleep : ((s.update q f).data p).sleepTime = (s.data p).sleepTime := by
    unfold Kernel.update
    dsimp only
    rw [Function.update_apply]
    split_ifs with hp
    · rw [hf, hp]
    · rfl
  unfold Timed Kernel.timing
  rw [hsleep]
  exact h

/-- A write to the slot of another process. -/
theorem Timed.other (h : Timed p b s) {q : Int} (hqp : q ≠ p) (f : Process → Process) :
    Timed p b (s.update q f) := by
  unfold Timed Kernel.timing Kernel.update
  dsimp only
  rw [Function.update_of_ne (Ne.symm hqp)]
  exact h

theorem Timed.store (h : Timed p b s) (destination : Destination) (value : Int) :
    Timed p b (s.store destination value) := by
  cases destination with
  | null => exact h
  | user address => exact h
  | receiver pid => exact h.update pid _ fun _ => rfl

/-! ## The process table -/

theorem queueAdd_timed (h : Timed p b s) (q : Int) : Yields (queueAdd s q) (Timed p b) :=
  .skip _ fun _ => h

theorem queueDel_timed (h : Timed p b s) (q : Int) : Yields (queueDel s q) (Timed p b) :=
  .skip _ fun _ => h

theorem register_timed (h : Timed p b s) :
    Yields (processTableRegister s) fun a => Timed p b a.2 :=
  .skip _ fun _ => h

theorem unregister_timed (h : Timed p b s) (q : Int) :
    Yields (processTableUnregister s q) (Timed p b) :=
  .skip _ fun _ => h

theorem addHead_timed (h : Timed p b s) (owner q : Int) :
    Yields (processChildListAddHead mem s owner q) (Timed p b) :=
  .skip _ fun _ => h.update owner _ fun _ => rfl

theorem childRemove_timed (h : Timed p b s) (owner q : Int) :
    Timed p b (processChildListRemove s owner q) := h.update owner _ fun _ => rfl

theorem notifyKilled_timed (h : Timed p b s) (q : Int) :
    Yields (messageQueuesNotifyProcessusKilled s q) (Timed p b) :=
  .skip _ fun _ => h

theorem requestZombify_timed (h : Timed p b s) (q : Int) :
    Yields (requestZombify s q) (Timed p b) := by
  have hend : ∀ s₁ : Kernel, Timed p b s₁ → Yields (do
      let s ← messageQueuesNotifyProcessusKilled s₁ q
      return s.update q fun p => { p with state := .zombie }) (Timed p b) := fun s₁ h₁ =>
    (notifyKilled_timed h₁ q).bind fun s₂ h₂ => h₂.update q _ fun _ => rfl
  unfold requestZombify
  refine .skip _ fun process => .skip _ fun _ => .skip _ fun stack => ?_
  dsimp only
  refine .ite (fun _ => ?_) fun _ => hend _ h
  have hstack : Timed p b { s with pidsToZombify := stack } := h
  exact (queueDel_timed hstack q).bind hend

theorem requestDestroy_timed (h : Timed p b s) (q : Int) :
    Yields (requestDestroy s q) (Timed p b) := by
  unfold requestDestroy
  refine .skip _ fun process => .skip _ fun _ => ?_
  dsimp only
  refine .skip _ fun stack => ?_
  have hmarked : Timed p b { s.update q fun p => { p with sealed := true } with
      pidsToDestroy := stack } :=
    h.update q (fun p => { p with sealed := true }) fun _ => rfl
  refine .ite (fun _ => .ite (fun _ => ?_) fun _ => notifyKilled_timed hmarked q) fun _ => hmarked
  exact (queueDel_timed hmarked q).bind fun s₁ h₁ => notifyKilled_timed h₁ q

theorem userStackFree_timed (h : Timed p b s) (stack : Option Nat) (size : Nat) :
    Yields (userStackFree s stack size) (Timed p b) :=
  .ite (fun _ => h) fun _ => .skip _ fun _ => .skip _ fun _ => h

theorem kernelStackFree_timed (h : Timed p b s) (stack : Option Nat) :
    Yields (kernelStackFree s stack) (Timed p b) :=
  .skip _ fun _ => .skip _ fun _ => h

theorem deallocate_timed (h : Timed p b s) (q : Int) :
    Yields (deallocate s q) (Timed p b) := by
  have hend : ∀ (s₁ : Kernel) (stack : Option Nat), Timed p b s₁ → Yields (do
      let s ← kernelStackFree s₁ stack
      return s.update q fun p => { p with kernelStack := none, deallocated := true })
      (Timed p b) := fun s₁ stack h₁ =>
    (kernelStackFree_timed h₁ stack).bind fun s₂ h₂ => h₂.update q _ fun _ => rfl
  unfold deallocate
  refine .skip _ fun _ => ?_
  dsimp only
  refine .ite (fun _ => ?_) fun _ => hend _ _ h
  exact (userStackFree_timed h _ _).bind fun s₁ h₁ => hend _ _ (h₁.update q _ fun _ => rfl)

theorem zombifyChildren_timed (h : Timed p b s) (q : Int) (cs : List Int) :
    Yields (zombifyChildren mem q cs s) (Timed p b) := by
  induction cs generalizing s with
  | nil => exact h
  | cons c rest ih =>
      unfold zombifyChildren
      refine .skip _ fun child => ?_
      dsimp only
      refine .ite (fun _ => ?_) fun _ => ?_
      · exact (requestDestroy_timed h _).bind fun s₁ h₁ => ih h₁
      · have hadopted := (childRemove_timed h q c).update c
          (fun p => { p with fatherPid := 1 }) fun _ => rfl
        exact (addHead_timed hadopted 1 freedPid).bind fun s₁ h₁ => ih h₁

theorem wakeFather_timed (h : Timed p b s) (q father : Int) :
    Yields (wakeFather s q father) (Timed p b) := by
  have hwoken := h.update father
    (fun p => { p with waitingCode := (s.data q).pid, state := .waiting }) fun _ => rfl
  exact .ite (fun _ => queueAdd_timed hwoken father) fun _ => h

theorem zombify_timed (h : Timed p b s) (q : Int) : Yields (zombify mem s q) (Timed p b) := by
  unfold zombify
  refine .skip _ fun _ => .skip _ fun process => .skip _ fun _ => ?_
  dsimp only
  refine .skip _ fun _ => (deallocate_timed h q).bind fun s₁ h₁ => ?_
  refine (zombifyChildren_timed h₁ q _).bind fun s₂ h₂ => ?_
  refine (wakeFather_timed h₂ q _).bind fun s₃ h₃ => ?_
  refine .ite (fun _ => ?_) fun _ => h₃
  exact (requestDestroy_timed h₃ q).bind fun s₄ h₄ => h₄

theorem destroyChildren_timed (h : Timed p b s) (q : Int) (cs : List Int) :
    Yields (destroyChildren mem q cs s) (Timed p b) := by
  induction cs generalizing s with
  | nil => exact h
  | cons c rest ih =>
      have hrest := h.update q (fun p => { p with childsPids := rest }) fun _ => rfl
      unfold destroyChildren
      dsimp only
      refine .skip _ fun child => .ite (fun _ => ?_) fun _ => ?_
      · exact (requestDestroy_timed hrest _).bind fun s₁ h₁ => ih h₁
      · have hadopted := hrest.update c (fun p => { p with fatherPid := 1 }) fun _ => rfl
        exact (addHead_timed hadopted 1 q).bind fun s₁ h₁ => ih h₁

/-- The slot of another process is reset. -/
theorem destroy_timed (h : Timed p b s) {q : Int} (hqp : q ≠ p) :
    Yields (destroy mem s q) (Timed p b) := by
  have hend : ∀ s₁ : Kernel, Timed p b s₁ → Timed p b ({ s₁.update q fun _ => noProcess with
      processQueue := s₁.processQueue.clear q }.record (.destroyed q)) := fun s₁ h₁ =>
    h₁.other hqp fun _ => noProcess
  unfold destroy
  refine .skip _ fun _ => .skip _ fun process => .skip _ fun _ => .skip _ fun _ => ?_
  dsimp only
  refine (destroyChildren_timed (childRemove_timed h _ q) q _).bind fun s₁ h₁ => ?_
  refine (unregister_timed h₁ q).bind fun s₂ h₂ => .ite (fun _ => ?_) fun _ => ?_
  · exact (deallocate_timed h₂ q).bind fun s₃ h₃ => hend s₃ h₃
  · exact .skip _ fun _ => hend s₂ h₂

theorem contextSwitch_timed (h : Timed p b s) (old new : Int) :
    Timed p b (contextSwitch s old new) :=
  h.update old (fun p => { p with executionContext := s.control }) fun _ => rfl

theorem processSwitch_timed (h : Timed p b s) (old new : Int) :
    Yields (processSwitch s old new) (Timed p b) := by
  have hnew : Timed p b { s.update new fun p => { p with state := .running } with
      runningProcess := some new } :=
    h.update new (fun p => { p with state := .running }) fun _ => rfl
  unfold processSwitch
  dsimp only
  refine .ite (fun _ => ?_) fun _ => contextSwitch_timed hnew old new
  have hold := hnew.update old (fun p => { p with state := .waiting }) fun _ => rfl
  exact (queueAdd_timed hold old).bind fun s₁ h₁ => contextSwitch_timed h₁ old new

theorem scheduleDecide_timed (h : Timed p b s) : Yields (scheduleDecide s) (Timed p b) := by
  have hout : Timed p b (queueOut s).2 := h
  unfold scheduleDecide
  dsimp only
  split
  · refine .skip _ fun first => contextSwitch_timed ?_ first first
    exact hout.update first (fun p => { p with state := .running }) fun _ => rfl
  · exact h
  · refine .ite (fun _ => h) fun _ => .skip _ fun new => ?_
    exact processSwitch_timed hout _ new

/-- A turn of a loop of `schedule`, in which the slot of another process may be reset. -/
theorem scheduleStep_timed (h : Timed p b s) {phase : SchedulePhase} {rest : List Frame}
    (hother : phase = .destroy → ∀ q stack,
      takePending s.pidsToDestroy (runningPid s) = some (q, stack) → q ≠ p) :
    Yields (scheduleStep mem s phase rest) (Timed p b) := by
  cases phase with
  | zombify =>
      refine zombifyTurn_meets (fun q stack _ => ?_) fun _ => h
      have hstack : Timed p b { s with pidsToZombify := stack } := h
      exact (zombify_timed hstack q).mono fun s₁ h₁ => h₁
  | destroy =>
      refine destroyTurn_meets (fun q stack htake => ?_) fun _ => h
      have hstack : Timed p b { s with pidsToDestroy := stack } := h
      exact destroy_timed hstack (hother rfl q stack htake)
  | decide =>
      have hrest : Timed p b { s with control := rest } := h
      exact scheduleDecide_timed hrest

theorem awake_timed (h : Timed p b s) (q : Int) :
    Yields (awake s q) fun a => Timed p b a.2 := by
  unfold awake
  refine .skip _ fun _ => ?_
  dsimp only
  have hwaiting : Timed p b ((s.record (.awoken q (s.data q).state)).update q
      fun p => { p with state := .waiting }) :=
    Timed.update (s := s.record _) h q _ fun _ => rfl
  exact (queueAdd_timed hwaiting q).bind fun s₁ h₁ => h₁

theorem blockByMessage_timed (h : Timed p b s) (q : Int) :
    Yields (blockByMessage s q) (Timed p b) := by
  have hblocked := h.update q (fun p => { p with state := .blockedByMessage }) fun _ => rfl
  exact .skip _ fun _ => .ite (fun _ => queueDel_timed hblocked q) fun _ => hblocked

/-! ## The primitives -/

theorem startReady_timed (h : Timed p b s) (father q priority : Int) :
    Yields (start.startReady s father q priority) (Timed p b) := by
  have hwaiting := h.update q (fun p => { p with state := .waiting }) fun _ => rfl
  refine (queueAdd_timed hwaiting q).bind fun s₁ h₁ => ?_
  exact .ite (fun _ => h₁) fun _ => h₁

theorem startStacks_timed (h : Timed p b s) (father q priority : Int) (stackSize : Nat) :
    Yields (start.startStacks mem s father q priority stackSize) (Timed p b) := by
  unfold start.startStacks
  refine .ite (fun _ => ?_) fun _ => ?_
  · dsimp only
    have hnone := h.update q (fun p => { p with kernelStack := none }) fun _ => rfl
    exact (unregister_timed hnone q).bind fun s₁ h₁ => h₁
  dsimp only
  have hkernel : Timed p b { s with kernelBlocks := (s.kernelBlocks.allocate kernelStackSize).2 } :=
    h
  have h₁ := hkernel.update q (fun p =>
    { p with kernelStack := some (s.kernelBlocks.allocate kernelStackSize).1 }) fun _ => rfl
  refine .ite (fun _ => .skip _ fun _ => ?_) fun _ => .skip _ fun _ => ?_
  · have h₂ := h₁.update q
      (fun p => { p with userStackSize := stackSize + userAdditionalStackSize }) fun _ => rfl
    refine .ite (fun _ => ?_) fun _ => ?_
    · have hnone := h₂.update q (fun p => { p with userStack := none }) fun _ => rfl
      refine (unregister_timed hnone q).bind fun s₃ h₃ => ?_
      exact (kernelStackFree_timed h₃ _).bind fun s₄ h₄ => h₄
    · refine .skip _ fun _ => (addHead_timed ?_ father q).bind fun s₄ h₄ =>
        startReady_timed h₄ father q priority
      exact Timed.update (s := { Kernel.update _ q _ with userBlocks := _ }) h₂ q _ fun _ => rfl
  · have h₂ := h₁.update q (fun p => { p with userStackSize := 0, userStack := none }) fun _ => rfl
    exact startReady_timed h₂ father q priority

theorem start_timed (h : Timed p b s) (stackSize : Nat) (priority : Int)
    (name : Option UserString) : Yields (start mem s stackSize priority name) (Timed p b) := by
  have hread : ∀ s₁ : Kernel, Timed p b s₁ → Timed p b (s₁.readName name) := by
    intro s₁ h₁
    cases name <;> exact h₁
  unfold start
  refine .ite (fun _ => h) fun _ => (register_timed h).bind fun ⟨q, s₁⟩ h₁ => ?_
  dsimp only
  refine .skip _ fun _ => startStacks_timed (hread _ ?_) _ _ _ _
  exact h₁.update q (fun p =>
    { p with
      pid := q, fatherPid := s₁.getpid, childsPids := [], priority := priority
      returnCode := 0, deallocated := false, executionContext := [] }) fun _ => rfl

theorem exit_timed (h : Timed p b s) (retval : Int) : Yields (exit s retval) (Timed p b) := by
  have hcode := h.update s.getpid (fun p => { p with returnCode := retval }) fun _ => rfl
  exact (requestZombify_timed hcode _).bind fun s₁ h₁ => h₁

theorem kill_timed (h : Timed p b s) (q : Int) : Yields (kill s q) (Timed p b) := by
  have hend : ∀ s₁ : Kernel, Timed p b s₁ → Yields (do
      let s ← requestZombify (s₁.update q fun p => { p with returnCode := 0 }) q
      return (s.record (.terminated q 0)).callSchedule [.ret 0]) (Timed p b) := by
    intro s₁ h₁
    have hcode := h₁.update q (fun p => { p with returnCode := 0 }) fun _ => rfl
    exact (requestZombify_timed hcode q).bind fun s₂ h₂ => h₂
  have hshrunk : Timed p b { s with pidsWaiting := s.pidsWaiting.shrink processNotFoundCode } := h
  unfold kill
  refine .ite (fun _ => h) fun _ => .skip _ fun process => ?_
  refine .ite (fun _ => h) fun _ => ?_
  dsimp only
  exact .ite (fun _ => .skip _ fun _ => hend _ hshrunk) fun _ => hend _ h

theorem waitpidReap_timed (h : Timed p b s) (request child : Int) (retvalp : Destination) :
    Yields (waitpidReap s request child retvalp) (Timed p b) :=
  (requestDestroy_timed (h.store retvalp _) child).bind fun _ h₁ => h₁

theorem waitpid_timed (h : Timed p b s) (request : Int) (retvalp : Destination) :
    Yields (waitpid s request retvalp) (Timed p b) := by
  have hblocked : ∀ code : Int, Timed p b (s.update s.getpid fun p =>
      { p with state := .blockedByChild, waitingCode := code }) := fun code =>
    h.update s.getpid _ fun _ => rfl
  unfold waitpid
  dsimp only
  refine .ite (fun _ => .skip _ fun ⟨zombie, nbChilds⟩ => ?_) fun _ => ?_
  · cases zombie with
    | some child => exact waitpidReap_timed h _ _ retvalp
    | none => exact .ite (fun _ => hblocked (-1)) fun _ => h
  · refine .ite (fun _ => h) fun _ => .skip _ fun process => .ite (fun _ => h) fun _ => ?_
    exact .ite (fun _ => waitpidReap_timed h _ _ retvalp) fun _ => hblocked request

theorem waitpidAnyResume_timed (h : Timed p b s) (request : Int) (retvalp : Destination) :
    Yields (waitpidAnyResume s request retvalp) (Timed p b) :=
  .skip _ fun _ => .skip _ fun _ => waitpidReap_timed h _ _ retvalp

/-- Another process sets its deadline. -/
theorem waitClock_timed (h : Timed p b s) (hother : s.getpid ≠ p) (clock : Nat) :
    Yields (waitClock s clock) (Timed p b) := by
  have hslept := h.other hother fun p => { p with state := .sleeping, sleepTime := clock }
  unfold waitClock
  exact .ite (fun _ => .skip _ fun _ => hslept) fun _ => h

theorem clockTickFrom_timed (h : Timed p b s) (turns i : Nat) (awaken : Bool) :
    Yields (clockTickFrom turns i awaken s) fun a => Timed p b a.2 := by
  induction turns generalizing s i awaken with
  | zero => exact h
  | succ turns ih =>
      unfold clockTickFrom
      refine .ite (fun _ => ?_) fun _ => h
      dsimp only
      refine .skip _ fun process => .ite (fun _ => ?_) fun _ => ih h _ _
      have hwoken : Timed p b { s.update (s.pidsWaiting.cells i)
            (fun p => { p with state := .waiting }) with
          pidsWaiting := s.pidsWaiting.replaceByLast processNotFoundCode i } :=
        h.update (s.pidsWaiting.cells i) (fun p => { p with state := .waiting }) fun _ => rfl
      exact (queueAdd_timed hwoken _).bind fun s₁ h₁ => ih h₁ _ _

theorem clockTick_timed (h : Timed p b s) : Yields (clockTick s) (Timed p b) := by
  refine (clockTickFrom_timed h _ _ _).bind fun ⟨awaken, s₁⟩ h₁ => ?_
  exact .ite (fun _ => h₁) fun _ => h₁

private theorem chprioReturn_timed (h : Timed p b s) (q newprio oldprio : Int) :
    Yields (if s.running.priority < newprio then
        (pure (s.callSchedule [.ret oldprio]) : Except Panic Kernel)
      else if s.getpid = q then do
        let next ← demand (queueTop s) .nullDereference
        if newprio < (s.data next).priority then return s.callSchedule [.ret oldprio]
        else return s.ret oldprio
      else return s.ret oldprio) (Timed p b) :=
  .ite (fun _ => h) fun _ => .ite
    (fun _ => .skip _ fun _ => .ite (fun _ => h) fun _ => h) fun _ => h

theorem notifyPriorityChanged_timed (h : Timed p b s) (q newprio : Int) :
    Yields (messageQueuesNotifyPriorityChanged mem s q newprio) (Timed p b) :=
  .skip _ fun _ => h

theorem chprio_timed (h : Timed p b s) (q newprio : Int) :
    Yields (chprio mem s q newprio) (Timed p b) := by
  have hnew := h.update q (fun p => { p with priority := newprio }) fun _ => rfl
  unfold chprio
  refine .ite (fun _ => h) fun _ => .ite (fun _ => h) fun _ => .skip _ fun process => ?_
  refine .ite (fun _ => h) fun _ => ?_
  dsimp only
  have hrequeue : ∀ s₁ : Kernel, Timed p b s₁ → Yields (if s₁.getpid ≠ q ∧
      process.state.isBlocked = false then do
        let s ← queueDel s₁ q
        let s ← queueAdd s q
        if s.running.priority < newprio then return s.callSchedule [.ret process.priority]
        else if s.getpid = q then do
          let next ← demand (queueTop s) .nullDereference
          if newprio < (s.data next).priority then return s.callSchedule [.ret process.priority]
          else return s.ret process.priority
        else return s.ret process.priority
      else if s₁.running.priority < newprio then return s₁.callSchedule [.ret process.priority]
      else if s₁.getpid = q then do
        let next ← demand (queueTop s₁) .nullDereference
        if newprio < (s₁.data next).priority then return s₁.callSchedule [.ret process.priority]
        else return s₁.ret process.priority
      else return s₁.ret process.priority) (Timed p b) := fun s₁ h₁ =>
    .ite (fun _ => (queueDel_timed h₁ q).bind fun s₂ h₂ => (queueAdd_timed h₂ q).bind
      fun s₃ h₃ => chprioReturn_timed h₃ q newprio _) fun _ => chprioReturn_timed h₁ q newprio _
  refine .ite (fun _ => ?_) fun _ => hrequeue _ hnew
  exact (notifyPriorityChanged_timed hnew q newprio).bind hrequeue

theorem clockSettings_timed (h : Timed p b s) (quartzp ticks : Int) :
    Timed p b (clockSettings s quartzp ticks) := (h.store _ _).store _ _

/-! ## The message queues -/

theorem releaseAll_timed (h : Timed p b s) (fid : Int) (turns : Nat) (needSchedule : Bool) :
    Yields (releaseAll fid turns needSchedule s) fun a => Timed p b a.2 := by
  induction turns generalizing s needSchedule with
  | zero => exact h
  | succ turns ih =>
      unfold releaseAll
      refine .ite (fun _ => .skip _ fun removed => ?_) fun _ => h
      have hset : Timed p b
          (setQueue s fid { s.queues fid with lockedProcesses := removed.2 }) := h
      refine (awake_timed (hset.store removed.1.destination (-1)) removed.1.pid).bind
        fun woken hwoken => ?_
      exact ih (s := { woken.2 with
        resetReleases := Function.update woken.2.resetReleases (removed.1.pid - 1) true }) hwoken _

theorem messageQueueReset_timed (h : Timed p b s) (fid : Int) :
    Yields (messageQueueReset s fid) fun a => Timed p b a.2.2 := by
  unfold messageQueueReset
  refine .ite (fun _ => h) fun _ => ?_
  exact (releaseAll_timed h fid _ _).bind fun ⟨needSchedule, s₁⟩ h₁ => .skip _ fun _ => h₁

theorem tableRegister_timed (h : Timed p b s) :
    Yields (messageQueueTableRegister s) fun a => Timed p b a.2 :=
  .skip _ fun _ => h

theorem tableUnregister_timed (h : Timed p b s) (fid : Int) :
    Yields (messageQueueTableUnregister s fid) (Timed p b) :=
  .skip _ fun _ => h

theorem pcreate_timed (h : Timed p b s) (count : Int) :
    Yields (pcreate mem s count) (Timed p b) := by
  unfold pcreate
  refine .ite (fun _ => h) fun _ => (tableRegister_timed h).bind fun ⟨fid, s₁⟩ h₁ => ?_
  dsimp only
  refine .ite (fun _ => ?_) fun _ => .skip _ fun _ => h₁
  have hset : Timed p b (setQueue s₁ fid { s₁.queues fid with allocated := false }) := h₁
  exact (tableUnregister_timed hset fid).bind fun s₂ h₂ => h₂

theorem pcount_timed (h : Timed p b s) (fid : Int) (count : Destination) :
    Timed p b (pcount s fid count) := by
  unfold pcount
  split
  · exact h
  · exact h.store count _

theorem preset_timed (h : Timed p b s) (fid : Int) : Yields (preset s fid) (Timed p b) :=
  (messageQueueReset_timed h fid).bind fun _ h₁ => .ite (fun _ => h₁) fun _ => h₁

theorem pdelete_timed (h : Timed p b s) (fid : Int) : Yields (pdelete s fid) (Timed p b) := by
  refine (messageQueueReset_timed h fid).bind fun ⟨result, needSchedule, s₁⟩ h₁ => ?_
  refine .ite (fun _ => h₁) fun _ => ?_
  have hset : Timed p b (setQueue s₁ fid emptyMessageQueue) := h₁
  exact (tableUnregister_timed hset fid).bind fun s₂ h₂ => .ite (fun _ => h₂) fun _ => h₂

/-- What `psend` and `preceive` do behind `awake`. -/
private theorem woken_timed (h : Timed p b s) (q : Int) :
    Yields (awake s q >>= fun a =>
      if a.1 then (pure (a.2.callSchedule [.ret 0]) : Except Panic Kernel)
      else pure (a.2.ret 0)) (Timed p b) :=
  (awake_timed h q).bind fun _ h₁ => .ite (fun _ => h₁) fun _ => h₁

theorem psend_timed (h : Timed p b s) (fid message : Int) :
    Yields (psend mem s fid message) (Timed p b) := by
  unfold psend
  refine .ite (fun _ => h) fun _ => .ite (fun _ => ?_) fun _ => .ite (fun _ => ?_) fun _ => ?_
  · refine .skip _ fun ⟨content, locked⟩ => ?_
    dsimp only
    have hset : Timed p b
        (setQueue s fid { s.queues fid with lockedProcesses := locked }) := h
    exact woken_timed (s := Kernel.record _ _) (hset.store content.destination message) content.pid
  · refine .skip _ fun priority => .skip _ fun locked => ?_
    have hset : Timed p b
        (setQueue s fid { s.queues fid with lockedProcesses := locked }) := h
    exact (blockByMessage_timed hset _).bind fun s₁ h₁ => h₁
  · exact .skip _ fun queue => h

theorem preceive_timed (h : Timed p b s) (fid : Int) (destination : Destination) :
    Yields (preceive mem s fid destination) (Timed p b) := by
  unfold preceive
  refine .ite (fun _ => h) fun _ => .ite (fun _ => ?_) fun _ => .ite (fun _ => ?_) fun _ => ?_
  · refine .skip _ fun ⟨received, queue⟩ => .skip _ fun ⟨content, locked⟩ => ?_
    refine .skip _ fun queue' => ?_
    dsimp only
    have hrecorded : Timed p b (((setQueue s fid queue').record
        (.received s.getpid fid received)).record
          (.taken s.getpid content.pid fid content.message)) := h
    exact woken_timed (hrecorded.store destination received) content.pid
  · refine .skip _ fun priority => .skip _ fun locked => ?_
    have hset : Timed p b
        (setQueue s fid { s.queues fid with lockedProcesses := locked }) := h
    exact (blockByMessage_timed hset _).bind fun s₁ h₁ => h₁
  · refine .skip _ fun ⟨received, queue⟩ => ?_
    exact Timed.store (s := (setQueue s fid queue).record (.received _ fid received)) h
      destination received

theorem messageResume_timed (h : Timed p b s) (q : Int) : Timed p b (messageResume s q) := by
  unfold messageResume
  split <;> exact h

/-! ## The keyboard -/

theorem keyboardData_timed (h : Timed p b s) (str : List Int) :
    Yields (keyboardData mem s str) (Timed p b) := by
  cases str with
  | nil => exact h
  | cons c rest =>
      refine .skip _ fun _ => .ite (fun _ => h) fun _ => ?_
      exact psend_timed (s := { s with control := .keyboardSent rest :: s.control }) h _ c

theorem keyboardSent_timed (h : Timed p b s) (rest : List Int) :
    Yields (keyboardSent s rest) (Timed p b) := .skip _ fun _ => h

theorem consRead_timed (h : Timed p b s) (str : Int) (length : Nat) :
    Yields (consRead s str length) (Timed p b) := .skip _ fun _ => h

theorem consReadNext_timed (h : Timed p b s) (str : Int) (length index : Nat) :
    Yields (consReadNext mem s str length index) (Timed p b) :=
  .ite (fun _ => preceive_timed
    (s := { s with control := .consReceived str length index :: s.control }) h _ _) fun _ => h

theorem consReceived_timed (h : Timed p b s) (str : Int) (length index : Nat) :
    Yields (consReceived s str length index) (Timed p b) :=
  .skip _ fun _ => .ite (fun _ => h) fun _ => .ite (fun _ => h) fun _ =>
    .ite (fun _ => h) fun _ => h

/-! ## One step -/

theorem syscallHandler_timed (h : Timed p b s) {call : Call}
    (hother : ∀ clock, call = .waitClock clock → s.getpid ≠ p) :
    Yields (syscallHandler mem s call) (Timed p b) := by
  cases call with
  | start program stackSize priority name =>
      exact .ite (fun _ => h) fun _ => start_timed h stackSize priority (some name)
  | exit retval => exact exit_timed h retval
  | kill pid => exact kill_timed h pid
  | waitpid pid retvalp => exact .ite (fun _ => h) fun _ => waitpid_timed h pid _
  | getpid => exact h
  | getprio pid => exact .skip _ fun _ => h
  | chprio pid newprio => exact chprio_timed h pid newprio
  | waitClock clock => exact waitClock_timed h (hother clock rfl) clock
  | currentClock => exact h
  | pcount fid count => exact .ite (fun _ => h) fun _ => pcount_timed h fid _
  | pcreate count => exact pcreate_timed h count
  | pdelete fid => exact pdelete_timed h fid
  | preceive fid message => exact .ite (fun _ => h) fun _ => preceive_timed h fid _
  | preset fid => exact preset_timed h fid
  | psend fid message => exact psend_timed h fid message
  | consRead str length => exact .ite (fun _ => h) fun _ => consRead_timed h str length
  | consEcho on => exact h
  | consWrite str size => exact .ite (fun _ => h) fun _ => h
  | clockSettings quartz ticks =>
      exact .ite (fun _ => h) fun _ => clockSettings_timed h quartz ticks

theorem kernelStep_timed (h : Timed p b s)
    (hother : phaseOf s.control = some .destroy → ∀ q stack,
      takePending s.pidsToDestroy (runningPid s) = some (q, stack) → q ≠ p) :
    Yields (kernelStep mem s) (Timed p b) := by
  unfold kernelStep
  cases hcontrol : s.control with
  | nil => exact h
  | cons frame rest =>
      have hrest : Timed p b { s with control := rest } := h
      dsimp only
      cases frame with
      | schedule phase =>
          refine scheduleStep_timed h fun hphase => hother ?_
          rw [hcontrol, hphase]
          rfl
      | startReturn pid => exact hrest
      | exitLoop => exact h
      | ret value => exact hrest
      | waitpidAny pid retvalp => exact waitpidAnyResume_timed hrest pid retvalp
      | waitpidOne pid retvalp => exact waitpidReap_timed hrest pid pid retvalp
      | psendResume pid => exact messageResume_timed hrest pid
      | preceiveResume pid => exact messageResume_timed hrest pid
      | clockTick => exact clockTick_timed hrest
      | keyboardData str => exact keyboardData_timed hrest str
      | keyboardSent str => exact keyboardSent_timed hrest str
      | consRead str length index => exact consReadNext_timed hrest str length index
      | consReceived str length index => exact consReceived_timed hrest str length index

/-- Only a step of the clock, or a step that `p` itself makes or that resets its slot, changes
the clock or the deadline of `p`. -/
theorem exec_timed {step : Step} {r : Int} (hsafe : Safe s r) (henabled : step.enabled s)
    (htick : step.event ≠ .tick) (hpr : s.control = [] → p ≠ r)
    (halive : s.view.state p ≠ .zombie)
    (h : Timed p b s) : Yields (exec step s) (Timed p b) := by
  have hcore := hsafe.inv.core
  obtain ⟨mem, event⟩ := step
  cases event with
  | init stackSize priority => exact start_timed h stackSize priority none
  | call call =>
      refine syscallHandler_timed h fun _ _ => ?_
      rw [hcore.getpid_eq]
      exact Ne.symm (hpr henabled.1)
  | tick => exact absurd rfl htick
  | key str => exact h
  | kernel =>
      refine kernelStep_timed h fun _ q stack htake => ?_
      rw [hcore.runningPid_eq] at htake
      have hperm := (takePending_perm hcore.pending.nodup_destroy htake).1
      have hmem : q ∈ s.view.toDestroy := hperm.mem_iff.mpr (by simp)
      have hzombie := hcore.pending.sealed_zombie q ((hcore.pending.mem_destroy q).mp hmem)
      rintro rfl
      exact halive hzombie

/-- The clock interrupt counts, and the scheduler has its turn at every second one. -/
theorem ticPit_timing (s : Kernel) (p : Int) : (ticPit s).timing p =
    ((s.inter + 1) % 2 ^ 32,
      if schedulerPeriod ≤ s.schedulerDelay + 1 then 0 else s.schedulerDelay + 1,
      (s.data p).sleepTime) := by
  unfold ticPit
  dsimp only
  split <;> rfl

end SchlagOS
