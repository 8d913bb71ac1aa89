import SchlagOS.Kernel.Machine

/-!
# Conditions that the code keeps

`Rules` is a condition on states that a few elementary changes keep, with the
frames, the addresses and the queues on which this depends.  Every function of
the kernel is made of these changes, so it keeps the condition too, whatever
the tables look like.
-/

namespace SchlagOS

open Foundation

/-- The part of a state that only the elementary changes of `Rules` touch. -/
structure Still (s s' : Kernel) : Prop where
  control : s'.control = s.control
  context : ∀ p, (s'.data p).executionContext = (s.data p).executionContext
  queues : s'.queues = s.queues
  accesses : s'.userAccesses = s.userAccesses
  resetReleases : s'.resetReleases = s.resetReleases
  stdinFid : s'.stdinFid = s.stdinFid
  runningProcess : s'.runningProcess = s.runningProcess

/-- A condition on states, with the frames that may be pushed, the addresses that may be
used, the nodes of the waiting lists, the queues that may be replaced and the processes
that may be released by a reset. -/
structure Rules where
  Holds : Kernel → Prop
  frame : Frame → Prop
  destination : Destination → Prop
  access : UserAccess → Prop
  node : Int → ProcessNodeContent → Prop
  spare : Int → Prop
  released : Int → Prop
  null : destination .null
  writes : ∀ {a : Int}, destination (.user a) → ∀ value, access (.writeWord a value)
  receives : ∀ {fid : Int} {content : ProcessNodeContent}, node fid content →
    destination content.destination
  reprioritised : ∀ {fid : Int} {content : ProcessNodeContent}, node fid content →
    ∀ priority, node fid { content with priority := priority }
  waiting : ∀ {s : Kernel}, Holds s → ∀ fid, (s.queues fid).lockedProcesses.Every (node fid)
  still : ∀ {s s' : Kernel}, Holds s → Still s s' → Holds s'
  write : ∀ {s : Kernel} (p : Int) (f : Process → Process), Holds s →
    ((f (s.data p)).executionContext = (s.data p).executionContext ∨
      (f (s.data p)).executionContext = []) → Holds (s.update p f)
  setQueues : ∀ {s : Kernel} {queues : Int → MessageQueue}, Holds s →
    (∀ fid, (queues fid).lockedProcesses.Every (node fid)) →
    (∀ fid, spare fid ∨ (queues fid).allocated = (s.queues fid).allocated ∧
      (queues fid).size = (s.queues fid).size) → Holds { s with queues := queues }
  touch : ∀ {s : Kernel} {accesses : List UserAccess}, Holds s →
    (∀ a ∈ accesses, access a) → Holds { s with userAccesses := s.userAccesses ++ accesses }
  push : ∀ {s : Kernel} {f : Frame}, Holds s → frame f →
    Holds { s with control := f :: s.control }
  release : ∀ {s : Kernel} {p : Int}, Holds s → released p →
    Holds { s with resetReleases := Function.update s.resetReleases (p - 1) true }
  resume : ∀ {s : Kernel}, Holds s → ∀ p,
    Holds { s with resetReleases := Function.update s.resetReleases (p - 1) false }

/-- The frames of the primitives may be pushed. -/
structure Rules.Calls (R : Rules) : Prop where
  schedule : R.frame (.schedule .zombify)
  startReturn : ∀ pid, R.frame (.startReturn pid)
  exitLoop : R.frame .exitLoop
  ret : ∀ value, R.frame (.ret value)
  waitpid : ∀ pid retvalp, R.destination retvalp →
    R.frame (.waitpidAny pid retvalp) ∧ R.frame (.waitpidOne pid retvalp)
  psendResume : ∀ pid, R.frame (.psendResume pid)
  preceiveResume : ∀ pid, R.frame (.preceiveResume pid)
  clockTick : R.frame .clockTick

/-- The assertions of kbd.c about the results of `pcount`, `psend` and `preceive`. -/
def Panic.ofConsole : Panic → Bool
  | .keyboardPcount => true
  | .keyboardPsend => true
  | .consReadPreceive => true
  | _ => false

def Elsewhere (e : Panic) : Prop := e.ofConsole = false

variable {R : Rules} {mem : Memory} {s s' : Kernel} {fid : Int}

def Rules.list (R : Rules) (fid : Int) : NodeList ProcessNodeContent → Prop :=
  NodeList.Every (R.node fid)

def Rules.bytes (R : Rules) (address : Int) (length : Nat) : Prop :=
  ∀ i : Nat, i < length → R.access (.readByte (address + i))

namespace Rules.Holds

theorem kept (h : R.Holds s) (hstill : Still s s') : R.Holds s' := R.still h hstill

theorem push (h : R.Holds s) (frame : Frame) (hframe : R.frame frame) :
    R.Holds { s with control := frame :: s.control } := R.push h hframe

theorem callSchedule (h : R.Holds s) (hcalls : R.Calls) {frame : Frame}
    (hframe : R.frame frame) : R.Holds (s.callSchedule [frame]) :=
  (h.push frame hframe).push (.schedule .zombify) hcalls.schedule

theorem record (h : R.Holds s) (event : HistoryEvent) : R.Holds (s.record event) :=
  h.kept ⟨rfl, fun _ => rfl, rfl, rfl, rfl, rfl, rfl⟩

theorem ret (h : R.Holds s) (value : Int) : R.Holds (s.ret value) :=
  h.kept ⟨rfl, fun _ => rfl, rfl, rfl, rfl, rfl, rfl⟩

/-- A write to the slot of a process that leaves its stack as it is. -/
theorem write (h : R.Holds s) (p : Int) {f : Process → Process}
    (hf : (f (s.data p)).executionContext = (s.data p).executionContext) :
    R.Holds (s.update p f) := R.write p f h (.inl hf)

theorem setQueue (h : R.Holds s) (fid : Int) (queue : MessageQueue)
    (hqueue : R.list fid queue.lockedProcesses)
    (hsame : R.spare fid ∨ queue.allocated = (s.queues fid).allocated ∧
      queue.size = (s.queues fid).size) : R.Holds (setQueue s fid queue) := by
  refine R.setQueues h (fun x => ?_) fun x => ?_
  · by_cases hx : x = fid
    · rw [hx, Function.update_self]
      exact hqueue
    · rw [Function.update_of_ne hx]
      exact R.waiting h x
  · by_cases hx : x = fid
    · rw [hx, Function.update_self]
      exact hsame
    · rw [Function.update_of_ne hx]
      exact .inr ⟨rfl, rfl⟩

theorem store (h : R.Holds s) {destination : Destination} (hd : R.destination destination)
    (value : Int) : R.Holds (s.store destination value) := by
  cases destination with
  | null => exact h
  | user address =>
      refine R.touch h fun a ha => ?_
      rw [List.mem_singleton.mp ha]
      exact R.writes hd value
  | receiver pid => exact h.write (f := fun p => { p with receiver := value }) pid rfl

theorem readBytes (h : R.Holds s) {address : Int} {length : Nat}
    (hbytes : R.bytes address length) : R.Holds (s.readBytes address length) := by
  refine R.touch h fun a ha => ?_
  obtain ⟨i, hi, rfl⟩ := List.mem_map.mp ha
  exact hbytes i (List.mem_range.mp hi)

end Rules.Holds

/-! ## The ready queue and the lists -/

theorem queueAdd_keeps (h : R.Holds s) (p : Int) : Meets (queueAdd s p) R.Holds Elsewhere := by
  unfold queueAdd
  rw [meets_bind, meets_demand]
  exact ⟨fun _ _ => h.kept ⟨rfl, fun _ => rfl, rfl, rfl, rfl, rfl, rfl⟩, fun _ => rfl⟩

theorem queueDel_keeps (h : R.Holds s) (p : Int) : Meets (queueDel s p) R.Holds Elsewhere := by
  unfold queueDel
  rw [meets_bind, meets_demand]
  exact ⟨fun _ _ => h.kept ⟨rfl, fun _ => rfl, rfl, rfl, rfl, rfl, rfl⟩, fun _ => rfl⟩

theorem addOnPriority_keeps {queue : NodeList ProcessNodeContent}
    {content : ProcessNodeContent} (h : R.list fid queue) (hnode : R.node fid content) :
    Meets (processQueueAddOnPriority mem queue content) (R.list fid) Elsewhere := by
  unfold processQueueAddOnPriority
  rw [meets_bind, meets_require]
  exact ⟨fun _ => h.addBehind _ hnode, fun _ => rfl⟩

theorem removeFirst_keeps {queue : NodeList ProcessNodeContent} (h : R.list fid queue) :
    Meets (processQueueRemoveFirst queue)
      (fun result => R.node fid result.1 ∧ R.list fid result.2) Elsewhere := by
  unfold processQueueRemoveFirst
  rw [meets_demand]
  exact ⟨fun result hresult => h.removeFirst hresult, fun _ => rfl⟩

private theorem visitQueues_keeps
    {visit : NodeList ProcessNodeContent → Except Panic (NodeList ProcessNodeContent)}
    (hvisit : ∀ fid queue, R.list fid queue → Meets (visit queue) (R.list fid) Elsewhere) (n : Nat)
    {queues : Int → MessageQueue} (h : ∀ fid, R.list fid (queues fid).lockedProcesses) :
    Meets (visitQueues visit n queues)
      (fun queues' => ∀ fid, R.list fid (queues' fid).lockedProcesses ∧
        (queues' fid).allocated = (queues fid).allocated ∧
        (queues' fid).size = (queues fid).size) Elsewhere := by
  induction n with
  | zero => exact fun fid => ⟨h fid, rfl, rfl⟩
  | succ n ih =>
      unfold visitQueues
      rw [meets_bind]
      refine ih.mono (fun queues' h' => ?_) fun _ he => he
      dsimp only
      rw [meets_ite]
      refine ⟨fun _ => ?_, fun _ => h'⟩
      rw [meets_bind]
      refine (hvisit n _ (h' n).1).mono (fun list hlist => ?_) fun _ he => he
      rw [meets_pure]
      intro fid
      by_cases hfid : fid = n
      · rw [hfid, Function.update_self]
        exact ⟨hlist, (h' n).2⟩
      · rw [Function.update_of_ne hfid]
        exact h' fid

private theorem changePriorityFrom_keeps (pid newPriority : Int) (fuel : Nat) (tmp : Option Nat)
    {queue : NodeList ProcessNodeContent} (h : R.list fid queue) :
    Meets (changePriorityFrom mem pid newPriority fuel tmp queue) (R.list fid) Elsewhere := by
  induction fuel generalizing tmp queue with
  | zero => exact h
  | succ fuel ih =>
      cases tmp with
      | none => exact h
      | some tmp =>
          unfold changePriorityFrom
          dsimp only
          rw [meets_ite]
          refine ⟨fun _ => ?_, fun _ => ih _ h⟩
          cases hremove : processQueueRemoveFirstWithPid queue pid with
          | none => exact ih _ h
          | some found =>
              obtain ⟨hnode, hlist⟩ := h.removeFirstWith hremove
              rw [meets_bind]
              exact (addOnPriority_keeps hlist (R.reprioritised hnode newPriority)).mono
                (fun _ h' => ih _ h') fun _ he => he

theorem notifyPriorityChanged_keeps (h : R.Holds s) (pid newPriority : Int) :
    Meets (messageQueuesNotifyPriorityChanged mem s pid newPriority) R.Holds
      Elsewhere := by
  unfold messageQueuesNotifyPriorityChanged
  rw [meets_bind]
  refine (visitQueues_keeps (fun fid queue hqueue => ?_) nbQueue (R.waiting h)).mono
    (fun queues hqueues => R.setQueues h (fun fid => (hqueues fid).1)
      fun fid => .inr (hqueues fid).2) fun _ he => he
  exact changePriorityFrom_keeps pid newPriority _ _ hqueue

theorem notifyProcessusKilled_keeps (h : R.Holds s) (pid : Int) :
    Meets (messageQueuesNotifyProcessusKilled s pid) R.Holds
      Elsewhere := by
  unfold messageQueuesNotifyProcessusKilled
  rw [meets_bind]
  refine (visitQueues_keeps (fun fid queue hqueue => ?_) nbQueue (R.waiting h)).mono
    (fun queues hqueues => R.setQueues h (fun fid => (hqueues fid).1)
      fun fid => .inr (hqueues fid).2) fun _ he => he
  cases hremove : processQueueRemoveFirstWithPid queue pid with
  | none => exact hqueue
  | some found => exact (hqueue.removeFirstWith hremove).2

/-! ## The end of a process -/

theorem pushPending_keeps {good : ArrayStack Int → Prop} {stack : ArrayStack Int}
    {p : Int} (h : good (stack.push p)) : Meets (pushPending stack p) good Elsewhere := by
  unfold pushPending
  rw [meets_bind, meets_require]
  exact ⟨fun _ => h, fun _ => rfl⟩

theorem getProcess_keeps {good : Process → Prop} {p : Int} (h : good (s.data p)) :
    Meets (getProcess s p) good Elsewhere := by
  unfold getProcess
  rw [meets_bind, meets_require]
  exact ⟨fun _ => h, fun _ => rfl⟩

theorem requestZombify_keeps (h : R.Holds s) (p : Int) :
    Meets (requestZombify s p) R.Holds Elsewhere := by
  unfold requestZombify
  rw [meets_bind]
  refine getProcess_keeps ?_
  rw [meets_bind, meets_require]
  refine ⟨fun _ => ?_, fun _ => rfl⟩
  rw [meets_bind]
  refine pushPending_keeps ?_
  have hpushed : R.Holds { s with pidsToZombify := s.pidsToZombify.push p } :=
    h.kept ⟨rfl, fun _ => rfl, rfl, rfl, rfl, rfl, rfl⟩
  have hrest : ∀ s₁, R.Holds s₁ →
      Meets (messageQueuesNotifyProcessusKilled s₁ p >>= fun s₂ =>
        pure (s₂.update p fun q => { q with state := .zombie })) R.Holds Elsewhere := by
    intro s₁ h₁
    rw [meets_bind]
    exact (notifyProcessusKilled_keeps h₁ p).mono (fun s₂ h₂ => h₂.write p rfl)
      fun _ he => he
  dsimp only
  rw [meets_ite]
  refine ⟨fun _ => ?_, fun _ => hrest _ hpushed⟩
  rw [meets_bind]
  exact (queueDel_keeps hpushed p).mono hrest fun _ he => he

theorem requestDestroy_keeps (h : R.Holds s) (p : Int) :
    Meets (requestDestroy s p) R.Holds Elsewhere := by
  unfold requestDestroy
  rw [meets_bind]
  refine getProcess_keeps ?_
  rw [meets_bind, meets_require]
  refine ⟨fun _ => ?_, fun _ => rfl⟩
  rw [meets_bind]
  refine pushPending_keeps ?_
  have hpushed : R.Holds
      { s.update p fun q => { q with sealed := true } with
        pidsToDestroy := s.pidsToDestroy.push p } :=
    (h.write (f := fun q => { q with sealed := true }) p rfl).kept
      ⟨rfl, fun _ => rfl, rfl, rfl, rfl, rfl, rfl⟩
  dsimp only
  rw [meets_ite]
  refine ⟨fun _ => ?_, fun _ => hpushed⟩
  rw [meets_ite]
  refine ⟨fun _ => ?_, fun _ => notifyProcessusKilled_keeps hpushed p⟩
  rw [meets_bind]
  exact (queueDel_keeps hpushed p).mono (fun s₁ h₁ => notifyProcessusKilled_keeps h₁ p)
    fun _ he => he

theorem userStackFree_keeps (h : R.Holds s) (stack : Option Nat) (size : Nat) :
    Meets (userStackFree s stack size) R.Holds Elsewhere := by
  unfold userStackFree
  rw [meets_ite]
  refine ⟨fun _ => h, fun _ => ?_⟩
  rw [meets_bind, meets_demand]
  refine ⟨fun address _ => ?_, fun _ => rfl⟩
  rw [meets_bind, meets_demand]
  exact ⟨fun _ _ => h.kept ⟨rfl, fun _ => rfl, rfl, rfl, rfl, rfl, rfl⟩, fun _ => rfl⟩

theorem kernelStackFree_keeps (h : R.Holds s) (stack : Option Nat) :
    Meets (kernelStackFree s stack) R.Holds Elsewhere := by
  unfold kernelStackFree
  rw [meets_bind, meets_demand]
  refine ⟨fun address _ => ?_, fun _ => rfl⟩
  rw [meets_bind, meets_demand]
  exact ⟨fun _ _ => h.kept ⟨rfl, fun _ => rfl, rfl, rfl, rfl, rfl, rfl⟩, fun _ => rfl⟩

theorem deallocate_keeps (h : R.Holds s) (p : Int) :
    Meets (deallocate s p) R.Holds Elsewhere := by
  unfold deallocate
  dsimp only
  rw [meets_bind, meets_require]
  refine ⟨fun _ => ?_, fun _ => rfl⟩
  have hrest : ∀ s₁, R.Holds s₁ →
      Meets (kernelStackFree s₁ (s.data p).kernelStack >>= fun s₂ =>
        pure (s₂.update p fun q => { q with kernelStack := none, deallocated := true }))
        R.Holds Elsewhere := by
    intro s₁ h₁
    rw [meets_bind]
    exact (kernelStackFree_keeps h₁ _).mono (fun s₂ h₂ => h₂.write p rfl) fun _ he => he
  rw [meets_ite]
  refine ⟨fun _ => ?_, fun _ => hrest s h⟩
  rw [meets_bind]
  exact (userStackFree_keeps h _ _).mono (fun s₁ h₁ => hrest _ (h₁.write p rfl))
    fun _ he => he

theorem addHead_keeps (h : R.Holds s) (owner p : Int) :
    Meets (processChildListAddHead mem s owner p) R.Holds Elsewhere := by
  unfold processChildListAddHead
  rw [meets_bind, meets_require]
  exact ⟨fun _ => h.write owner rfl, fun _ => rfl⟩

theorem zombifyChildren_keeps (p : Int) (cs : List Int) (h : R.Holds s) :
    Meets (zombifyChildren mem p cs s) R.Holds Elsewhere := by
  induction cs generalizing s with
  | nil => exact h
  | cons c cs ih =>
      unfold zombifyChildren
      rw [meets_bind]
      refine getProcess_keeps ?_
      dsimp only
      rw [meets_ite]
      constructor
      · intro _
        rw [meets_bind]
        exact (requestDestroy_keeps h _).mono (fun _ h' => ih h') fun _ he => he
      · intro _
        have hmoved : R.Holds ((processChildListRemove s p c).update c
            fun q => { q with fatherPid := 1 }) :=
          (h.write (f := fun q => { q with childsPids := q.childsPids.erase c }) p rfl).write
            c rfl
        rw [meets_bind]
        exact (addHead_keeps hmoved 1 freedPid).mono (fun _ h' => ih h') fun _ he => he

theorem wakeFather_keeps (h : R.Holds s) (p father : Int) :
    Meets (wakeFather s p father) R.Holds Elsewhere := by
  unfold wakeFather
  dsimp only
  rw [meets_ite]
  exact ⟨fun _ => queueAdd_keeps (h.write father rfl) father, fun _ => h⟩

theorem zombify_keeps (h : R.Holds s) (p : Int) :
    Meets (zombify mem s p) R.Holds Elsewhere := by
  unfold zombify
  rw [meets_bind, meets_require]
  refine ⟨fun _ => ?_, fun _ => rfl⟩
  rw [meets_bind]
  refine getProcess_keeps ?_
  rw [meets_bind, meets_require]
  refine ⟨fun _ => ?_, fun _ => rfl⟩
  rw [meets_bind]
  refine getProcess_keeps ?_
  rw [meets_bind]
  refine (deallocate_keeps h p).mono (fun s₁ h₁ => ?_) fun _ he => he
  rw [meets_bind]
  refine (zombifyChildren_keeps p _ h₁).mono (fun s₂ h₂ => ?_) fun _ he => he
  rw [meets_bind]
  refine (wakeFather_keeps h₂ p _).mono (fun s₃ h₃ => ?_) fun _ he => he
  dsimp only
  rw [meets_ite]
  refine ⟨fun _ => ?_, fun _ => h₃.record _⟩
  rw [meets_bind]
  exact (requestDestroy_keeps h₃ p).mono (fun s₄ h₄ => h₄.record _) fun _ he => he

theorem unregister_keeps (h : R.Holds s) (p : Int) :
    Meets (processTableUnregister s p) R.Holds Elsewhere := by
  unfold processTableUnregister
  rw [meets_bind, meets_demand]
  exact ⟨fun _ _ => h.kept ⟨rfl, fun _ => rfl, rfl, rfl, rfl, rfl, rfl⟩, fun _ => rfl⟩

theorem destroyChildren_keeps (p : Int) (cs : List Int) (h : R.Holds s) :
    Meets (destroyChildren mem p cs s) R.Holds Elsewhere := by
  induction cs generalizing s with
  | nil => exact h
  | cons c cs ih =>
      unfold destroyChildren
      have hcut : R.Holds (s.update p fun q => { q with childsPids := cs }) :=
        h.write p rfl
      dsimp only
      rw [meets_bind]
      refine getProcess_keeps ?_
      rw [meets_ite]
      constructor
      · intro _
        rw [meets_bind]
        exact (requestDestroy_keeps hcut _).mono (fun _ h' => ih h') fun _ he => he
      · intro _
        rw [meets_bind]
        exact (addHead_keeps (hcut.write (f := fun q => { q with fatherPid := 1 }) c rfl) 1
          p).mono (fun _ h' => ih h') fun _ he => he

theorem destroy_keeps (h : R.Holds s) (p : Int) :
    Meets (destroy mem s p) R.Holds Elsewhere := by
  have hreset : ∀ s₁, R.Holds s₁ → R.Holds
      ({ s₁.update p fun _ => noProcess with
        processQueue := s₁.processQueue.clear p }.record (.destroyed p)) := by
    intro s₁ h₁
    have hcleared : R.Holds (s₁.update p fun _ => noProcess) :=
      R.write p _ h₁ (.inr rfl)
    exact hcleared.kept ⟨rfl, fun _ => rfl, rfl, rfl, rfl, rfl, rfl⟩
  unfold destroy
  rw [meets_bind, meets_require]
  refine ⟨fun _ => ?_, fun _ => rfl⟩
  rw [meets_bind]
  refine getProcess_keeps ?_
  rw [meets_bind, meets_require]
  refine ⟨fun _ => ?_, fun _ => rfl⟩
  rw [meets_bind]
  refine getProcess_keeps ?_
  dsimp only
  rw [meets_bind]
  refine (destroyChildren_keeps p _ (h.write (s.data p).fatherPid rfl)).mono
    (fun s₁ h₁ => ?_) fun _ he => he
  rw [meets_bind]
  refine (unregister_keeps h₁ p).mono (fun s₂ h₂ => ?_) fun _ he => he
  rw [meets_ite]
  constructor
  · intro _
    rw [meets_bind]
    exact (deallocate_keeps h₂ p).mono hreset fun _ he => he
  · intro _
    rw [meets_bind, meets_require]
    exact ⟨fun _ => hreset s₂ h₂, fun _ => rfl⟩

/-! ## schedule -/

section Switch

variable {Q : Int → Rules} {good : Kernel → Prop}

private theorem processSwitch_keeps (h : R.Holds s) (old new : Int)
    (hmark : ∀ s', R.Holds s' → (Q new).Holds { s' with runningProcess := some new })
    (hswitch : ∀ s', (Q new).Holds s' → good (contextSwitch s' old new)) :
    Meets (processSwitch s old new) good Elsewhere := by
  have hmarked := hmark _ (h.write (f := fun p => { p with state := .running }) new rfl)
  unfold processSwitch
  dsimp only
  rw [meets_ite]
  refine ⟨fun _ => ?_, fun _ => hswitch _ hmarked⟩
  rw [meets_bind]
  exact (queueAdd_keeps (Rules.Holds.write hmarked (f := fun p => { p with state := .waiting })
    old rfl) old).mono (fun s' h' => hswitch s' h') fun _ he => he

/-- The choice of the next process: the running one goes on, or there is a switch. -/
theorem scheduleDecide_keeps (h : R.Holds s) (hstay : good s)
    (hmark : ∀ s' new, R.Holds s' → (Q new).Holds { s' with runningProcess := some new })
    (hswitch : ∀ s' old new, (Q new).Holds s' → (∀ r, s.runningProcess = some r → old = r) →
      good (contextSwitch s' old new)) :
    Meets (scheduleDecide s) good Elsewhere := by
  have hout : R.Holds (queueOut s).2 := h.kept ⟨rfl, fun _ => rfl, rfl, rfl, rfl, rfl, rfl⟩
  cases hrunning : s.runningProcess with
  | none =>
      unfold scheduleDecide
      dsimp only
      rw [hrunning, meets_bind, meets_demand]
      refine ⟨fun first _ => ?_, fun _ => rfl⟩
      have hmarked := hmark _ first (hout.write (f := fun p => { p with state := .running })
        first rfl)
      refine hswitch _ first first hmarked fun r hr => ?_
      rw [hrunning] at hr
      cases hr
  | some old =>
      refine scheduleDecide_running hrunning hstay (fun new _ => ?_) fun _ => rfl
      refine processSwitch_keeps hout old new (fun s' => hmark s' new) fun s' h' => ?_
      refine hswitch s' old new h' fun r hr => ?_
      rw [hrunning] at hr
      exact Option.some.inj hr

end Switch

theorem awake_keeps (h : R.Holds s) (p : Int) :
    Meets (awake s p) (fun result => R.Holds result.2) Elsewhere := by
  unfold awake
  rw [meets_bind]
  refine getProcess_keeps ?_
  dsimp only
  rw [meets_bind]
  exact (queueAdd_keeps ((h.record _).write p rfl) p).mono (fun _ h₁ => h₁) fun _ he => he

theorem blockByMessage_keeps (h : R.Holds s) (p : Int) :
    Meets (blockByMessage s p) R.Holds Elsewhere := by
  have hmarked : R.Holds (s.update p fun q => { q with state := .blockedByMessage }) :=
    h.write p rfl
  unfold blockByMessage
  rw [meets_bind]
  refine getProcess_keeps ?_
  dsimp only
  rw [meets_ite]
  exact ⟨fun _ => queueDel_keeps hmarked p, fun _ => hmarked⟩

/-! ## The primitives of process.c -/

theorem startReady_keeps (hcalls : R.Calls) (h : R.Holds s) (father pid priority : Int) :
    Meets (start.startReady s father pid priority) R.Holds Elsewhere := by
  unfold start.startReady
  dsimp only
  rw [meets_bind]
  refine (queueAdd_keeps (h.write pid rfl) pid).mono (fun s₁ h₁ => ?_) fun _ he => he
  have hdone := h₁.record (.started father pid)
  rw [meets_ite]
  exact ⟨fun _ => hdone.callSchedule hcalls (hcalls.startReturn pid),
    fun _ => hdone.push (.startReturn pid) (hcalls.startReturn pid)⟩

/-- `start` with arguments that it does not refuse. -/
def StartsWith (s : Kernel) (stackSize : Nat) (priority : Int) : Prop :=
  processMinPriority ≤ priority ∧ priority ≤ processMaxPriority ∧
    s.currentSize < processTableMaxSize ∧
    stackSize < (stackSize + userAdditionalStackSize) % 2 ^ 32


theorem readName_keeps (h : R.Holds s) {name : Option UserString}
    (hname : ∀ str ∈ name, R.bytes str.address (min (str.length + 1) processNameMaxLength)) :
    R.Holds (s.readName name) := by
  cases name with
  | none => exact h
  | some str => exact h.readBytes (hname str rfl)

theorem register_keeps (h : R.Holds s) :
    Meets (processTableRegister s) (fun result => R.Holds result.2) Elsewhere := by
  unfold processTableRegister
  rw [meets_bind, meets_demand]
  exact ⟨fun _ _ => h.kept ⟨rfl, fun _ => rfl, rfl, rfl, rfl, rfl, rfl⟩, fun _ => rfl⟩

theorem startStacks_keeps (hcalls : R.Calls) (h : R.Holds s) (father pid priority : Int)
    (stackSize : Nat) :
    Meets (start.startStacks mem s father pid priority stackSize) R.Holds
      Elsewhere := by
  have hfails : ∀ {s₁ : Kernel}, R.Holds s₁ →
      R.Holds ((s₁.record (.notStarted pid)).ret (-1)) := fun h₁ => (h₁.record _).ret (-1)
  have hwrite : ∀ {s₁ : Kernel} (f : Process → Process), R.Holds s₁ →
      (f (s₁.data pid)).executionContext = (s₁.data pid).executionContext →
      R.Holds (s₁.update pid f) := fun f h₁ hf => h₁.write pid hf
  unfold start.startStacks
  rw [meets_ite]
  constructor
  · intro _
    rw [meets_bind]
    exact (unregister_keeps (hwrite _ h rfl) pid).mono (fun _ h₁ => hfails h₁) fun _ he => he
  intro _
  have hkernel : R.Holds { s with kernelBlocks :=
      (s.kernelBlocks.allocate kernelStackSize).2 } := h.kept ⟨rfl, fun _ => rfl, rfl, rfl, rfl, rfl, rfl⟩
  dsimp only
  rw [meets_ite]
  constructor
  · intro _
    rw [meets_bind, meets_require]
    refine ⟨fun _ => ?_, fun _ => rfl⟩
    have hsized := hwrite (fun p => { p with userStackSize := stackSize +
      userAdditionalStackSize }) (hwrite (fun p => { p with
        kernelStack := some (s.kernelBlocks.allocate kernelStackSize).1 }) hkernel rfl) rfl
    rw [meets_ite]
    constructor
    · intro _
      rw [meets_bind]
      refine (unregister_keeps (hwrite _ hsized rfl) pid).mono (fun s₁ h₁ => ?_)
        fun _ he => he
      rw [meets_bind]
      exact (kernelStackFree_keeps h₁ _).mono (fun _ h₂ => hfails h₂) fun _ he => he
    · intro _
      rw [meets_bind]
      refine getProcess_keeps ?_
      rw [meets_bind]
      refine (addHead_keeps (hwrite _ ?_ rfl) father pid).mono
        (fun s₁ h₁ => startReady_keeps hcalls h₁ father pid priority) fun _ he => he
      exact hsized.kept ⟨rfl, fun _ => rfl, rfl, rfl, rfl, rfl, rfl⟩
  · intro _
    rw [meets_bind, meets_require]
    refine ⟨fun _ => startReady_keeps hcalls ?_ father pid priority, fun _ => rfl⟩
    exact hwrite _ (hwrite _ hkernel rfl) rfl

theorem start_keeps_of_reads (hcalls : R.Calls) (h : R.Holds s) (stackSize : Nat)
    (priority : Int) {name : Option UserString} (hreads : StartsWith s stackSize priority →
      ∀ s', R.Holds s' → R.Holds (s'.readName name)) :
    Meets (start mem s stackSize priority name) R.Holds Elsewhere := by
  unfold start
  rw [meets_ite]
  refine ⟨fun _ => h.ret (-1), fun haccept => ?_⟩
  push Not at haccept
  rw [meets_bind]
  refine (register_keeps h).mono (fun result h₁ => ?_) fun _ he => he
  obtain ⟨pid, s₁⟩ := result
  dsimp only
  rw [meets_bind]
  refine getProcess_keeps ?_
  refine startStacks_keeps hcalls (hreads haccept _ ?_) _ _ _ _
  have hslot : R.Holds (s₁.update pid fun p =>
      { p with
        pid := pid, fatherPid := s₁.getpid, childsPids := [], priority := priority
        returnCode := 0, deallocated := false, executionContext := [] }) :=
    R.write pid _ h₁ (.inr rfl)
  exact hslot.kept ⟨rfl, fun _ => rfl, rfl, rfl, rfl, rfl, rfl⟩

theorem start_keeps (hcalls : R.Calls) (h : R.Holds s) (stackSize : Nat) (priority : Int)
    {name : Option UserString} (hname : StartsWith s stackSize priority → ∀ str ∈ name,
      R.bytes str.address (min (str.length + 1) processNameMaxLength)) :
    Meets (start mem s stackSize priority name) R.Holds Elsewhere :=
  start_keeps_of_reads hcalls h stackSize priority fun haccept _ h' =>
    readName_keeps h' (hname haccept)

theorem exit_keeps (hcalls : R.Calls) (h : R.Holds s) (retval : Int) :
    Meets (exit s retval) R.Holds Elsewhere := by
  have hmarked : R.Holds (s.update s.getpid fun p => { p with returnCode := retval }) :=
    h.write _ rfl
  unfold exit
  dsimp only
  rw [meets_bind]
  refine (requestZombify_keeps hmarked _).mono (fun s₁ h₁ => ?_) fun _ he => he
  exact (h₁.record _).callSchedule hcalls hcalls.exitLoop

private theorem callRet (hcalls : R.Calls) (h : R.Holds s) (value : Int) :
    R.Holds (s.callSchedule [.ret value]) := h.callSchedule hcalls (hcalls.ret value)

theorem kill_keeps (hcalls : R.Calls) (h : R.Holds s) (p : Int) :
    Meets (kill s p) R.Holds Elsewhere := by
  have hrest : ∀ s₁, R.Holds s₁ →
      Meets (requestZombify (s₁.update p fun q => { q with returnCode := 0 }) p >>= fun s₂ =>
        pure ((s₂.record (.terminated p 0)).callSchedule [.ret 0])) R.Holds
        Elsewhere := by
    intro s₁ h₁
    rw [meets_bind]
    exact (requestZombify_keeps (h₁.write p rfl) p).mono
      (fun s₂ h₂ => callRet hcalls (h₂.record _) 0) fun _ he => he
  unfold kill
  rw [meets_ite]
  refine ⟨fun _ => h.ret (-1), fun _ => ?_⟩
  rw [meets_bind]
  refine getProcess_keeps ?_
  rw [meets_ite]
  refine ⟨fun _ => h.ret (-1), fun _ => ?_⟩
  dsimp only
  rw [meets_ite]
  refine ⟨fun _ => ?_, fun _ => hrest s h⟩
  rw [meets_bind, meets_require]
  refine ⟨fun _ => hrest _ ?_, fun _ => rfl⟩
  exact h.kept ⟨rfl, fun _ => rfl, rfl, rfl, rfl, rfl, rfl⟩

theorem waitpidReap_keeps (h : R.Holds s) (request child : Int)
    {retvalp : Destination} (hd : R.destination retvalp) :
    Meets (waitpidReap s request child retvalp) R.Holds Elsewhere := by
  unfold waitpidReap
  dsimp only
  rw [meets_bind]
  exact (requestDestroy_keeps (h.store hd _) child).mono
    (fun s₁ h₁ => (h₁.record _).ret child) fun _ he => he

private theorem scanChildren_keeps (cs : List Int) (nbChilds : Nat) :
    Meets (scanChildren s cs nbChilds) (fun _ => True) Elsewhere := by
  induction cs generalizing nbChilds with
  | nil => trivial
  | cons c rest ih =>
      unfold scanChildren
      rw [meets_bind]
      refine getProcess_keeps ?_
      rw [meets_ite]
      refine ⟨fun _ => ?_, fun _ => ih nbChilds⟩
      rw [meets_ite]
      exact ⟨fun _ => trivial, fun _ => ih (nbChilds + 1)⟩

theorem waitpid_keeps (hcalls : R.Calls) (h : R.Holds s) (pid : Int) {retvalp : Destination}
    (hd : pid ≠ 0 → pid ≤ processTableMaxSize → R.destination retvalp) :
    Meets (waitpid s pid retvalp) R.Holds Elsewhere := by
  have hwaits : ∀ (code : Int) (frame : Frame), R.frame frame →
      R.Holds ((((s.update s.getpid fun p =>
        { p with state := .blockedByChild, waitingCode := code }).record
          (.waits s.getpid pid)).callSchedule [frame])) := by
    intro code frame hframe
    have hmarked : R.Holds (s.update s.getpid fun p =>
        { p with state := .blockedByChild, waitingCode := code }) := h.write _ rfl
    exact (hmarked.record _).callSchedule hcalls hframe
  unfold waitpid
  dsimp only
  rw [meets_ite]
  refine ⟨fun hneg => ?_, fun _ => ?_⟩
  · have hd' : R.destination retvalp := hd (by omega) (by unfold processTableMaxSize; omega)
    rw [meets_bind]
    refine (scanChildren_keeps _ 0).mono (fun result _ => ?_) fun _ he => he
    obtain ⟨zombie, nbChilds⟩ := result
    cases zombie with
    | some child => exact waitpidReap_keeps h pid _ hd'
    | none =>
        dsimp only
        rw [meets_ite]
        exact ⟨fun _ => hwaits (-1) (.waitpidAny pid retvalp) (hcalls.waitpid pid _ hd').1,
          fun _ => (h.record _).ret (-1)⟩
  rw [meets_ite]
  refine ⟨fun _ => (h.record _).ret (-1), fun hrange => ?_⟩
  have hd' : R.destination retvalp := hd (by omega) (by omega)
  rw [meets_bind]
  refine getProcess_keeps ?_
  rw [meets_ite]
  refine ⟨fun _ => (h.record _).ret (-1), fun _ => ?_⟩
  rw [meets_ite]
  exact ⟨fun _ => waitpidReap_keeps h pid pid hd',
    fun _ => hwaits pid (.waitpidOne pid retvalp) (hcalls.waitpid pid _ hd').2⟩

theorem waitpidAnyResume_keeps (h : R.Holds s) (request : Int)
    {retvalp : Destination} (hd : R.destination retvalp) :
    Meets (waitpidAnyResume s request retvalp) R.Holds Elsewhere := by
  unfold waitpidAnyResume
  rw [meets_bind]
  refine getProcess_keeps ?_
  rw [meets_bind, meets_require]
  exact ⟨fun _ => waitpidReap_keeps h request _ hd, fun _ => rfl⟩

theorem waitClock_keeps (hcalls : R.Calls) (h : R.Holds s) (clock : Nat) :
    Meets (waitClock s clock) R.Holds Elsewhere := by
  unfold waitClock
  rw [meets_ite]
  refine ⟨fun _ => ?_, fun _ => h.ret 0⟩
  have hmarked : R.Holds (s.update s.getpid fun p =>
      { p with state := .sleeping, sleepTime := clock }) := h.write _ rfl
  dsimp only
  rw [meets_bind]
  refine pushPending_keeps ?_
  rw [meets_pure]
  refine callRet hcalls ?_ 0
  exact hmarked.kept ⟨rfl, fun _ => rfl, rfl, rfl, rfl, rfl, rfl⟩

theorem clockTickFrom_keeps (fuel i : Nat) (awaken : Bool) (h : R.Holds s) :
    Meets (clockTickFrom fuel i awaken s) (fun result => R.Holds result.2)
      Elsewhere := by
  induction fuel generalizing i awaken s with
  | zero => exact h
  | succ fuel ih =>
      unfold clockTickFrom
      rw [meets_ite]
      refine ⟨fun _ => ?_, fun _ => h⟩
      dsimp only
      rw [meets_bind]
      refine getProcess_keeps ?_
      rw [meets_ite]
      refine ⟨fun _ => ?_, fun _ => ih (i + 1) awaken h⟩
      have hmarked : R.Holds (s.update (s.pidsWaiting.cells i) fun p =>
          { p with state := .waiting }) := h.write _ rfl
      have hmoved : R.Holds { s.update (s.pidsWaiting.cells i) fun p =>
          { p with state := .waiting } with
            pidsWaiting := s.pidsWaiting.replaceByLast processNotFoundCode i } :=
        hmarked.kept ⟨rfl, fun _ => rfl, rfl, rfl, rfl, rfl, rfl⟩
      rw [meets_bind]
      exact (queueAdd_keeps hmoved _).mono (fun s₁ h₁ => ih i true h₁) fun _ he => he

theorem clockTick_keeps (hcalls : R.Calls) (h : R.Holds s) :
    Meets (clockTick s) R.Holds Elsewhere := by
  unfold clockTick
  rw [meets_bind]
  refine (clockTickFrom_keeps _ 0 false h).mono (fun result h₁ => ?_) fun _ he => he
  obtain ⟨awaken, s₁⟩ := result
  cases awaken with
  | true => exact h₁.push (.schedule .zombify) hcalls.schedule
  | false => exact h₁

/-- The end of `chprio`, which decides whether to call `schedule`. -/
theorem reschedule_keeps (hcalls : R.Calls) (h : R.Holds s) (p newprio oldprio : Int) :
    Meets (if s.running.priority < newprio then pure (s.callSchedule [.ret oldprio])
      else if s.getpid = p then
        demand (queueTop s) Panic.nullDereference >>= fun next =>
          if newprio < (s.data next).priority then pure (s.callSchedule [.ret oldprio])
          else pure (s.ret oldprio)
      else pure (s.ret oldprio)) R.Holds Elsewhere := by
  rw [meets_ite]
  refine ⟨fun _ => callRet hcalls h oldprio, fun _ => ?_⟩
  rw [meets_ite]
  refine ⟨fun _ => ?_, fun _ => h.ret oldprio⟩
  rw [meets_bind, meets_demand]
  refine ⟨fun next _ => ?_, fun _ => rfl⟩
  rw [meets_ite]
  exact ⟨fun _ => callRet hcalls h oldprio, fun _ => h.ret oldprio⟩

theorem requeue_keeps (hcalls : R.Calls) (h : R.Holds s) (p newprio oldprio : Int) :
    Meets (queueDel s p >>= fun s₁ => queueAdd s₁ p >>= fun s₂ =>
      if s₂.running.priority < newprio then pure (s₂.callSchedule [.ret oldprio])
      else if s₂.getpid = p then
        demand (queueTop s₂) Panic.nullDereference >>= fun next =>
          if newprio < (s₂.data next).priority then pure (s₂.callSchedule [.ret oldprio])
          else pure (s₂.ret oldprio)
      else pure (s₂.ret oldprio)) R.Holds Elsewhere := by
  rw [meets_bind]
  refine (queueDel_keeps h p).mono (fun s₁ h₁ => ?_) fun _ he => he
  rw [meets_bind]
  exact (queueAdd_keeps h₁ p).mono (fun s₂ h₂ => reschedule_keeps hcalls h₂ p newprio oldprio)
    fun _ he => he

theorem chprio_keeps (hcalls : R.Calls) (h : R.Holds s) (p newprio : Int) :
    Meets (chprio mem s p newprio) R.Holds Elsewhere := by
  have hmarked : R.Holds (s.update p fun q => { q with priority := newprio }) := h.write p rfl
  unfold chprio
  rw [meets_ite]
  refine ⟨fun _ => h.ret (-1), fun _ => ?_⟩
  rw [meets_ite]
  refine ⟨fun _ => h.ret (-1), fun _ => ?_⟩
  rw [meets_bind]
  refine getProcess_keeps ?_
  rw [meets_ite]
  refine ⟨fun _ => h.ret (-1), fun _ => ?_⟩
  dsimp only
  rw [meets_ite]
  constructor
  · intro _
    rw [meets_bind]
    refine (notifyPriorityChanged_keeps hmarked p newprio).mono (fun s₁ h₁ => ?_)
      fun _ he => he
    rw [meets_ite]
    exact ⟨fun _ => requeue_keeps hcalls h₁ p newprio _, fun _ => reschedule_keeps hcalls h₁ p newprio _⟩
  · intro _
    rw [meets_bind, meets_pure, meets_ite]
    exact ⟨fun _ => requeue_keeps hcalls hmarked p newprio _,
      fun _ => reschedule_keeps hcalls hmarked p newprio _⟩

/-! ## The primitives of message_queue.c -/

/-- A queue with the same buffer and a waiting list that is allowed. -/
private def SameQueue (R : Rules) (fid : Int) (queue queue' : MessageQueue) : Prop :=
  R.list fid queue'.lockedProcesses ∧ queue'.allocated = queue.allocated ∧
    queue'.size = queue.size

private theorem releaseAll_keeps (hrelease : ∀ content, R.node fid content → R.released content.pid)
    (fuel : Nat) (needSchedule : Bool) (h : R.Holds s) :
    Meets (releaseAll fid fuel needSchedule s) (fun result => R.Holds result.2)
      Elsewhere := by
  induction fuel generalizing needSchedule s with
  | zero => exact h
  | succ fuel ih =>
      unfold releaseAll
      rw [meets_ite]
      refine ⟨fun _ => ?_, fun _ => h⟩
      rw [meets_bind]
      refine (removeFirst_keeps (R.waiting h fid)).mono (fun result hresult => ?_)
        fun _ he => he
      obtain ⟨content, locked⟩ := result
      obtain ⟨hnode, hlocked⟩ := hresult
      have hset := h.setQueue fid { s.queues fid with lockedProcesses := locked } hlocked
        (.inr ⟨rfl, rfl⟩)
      dsimp only
      rw [meets_bind]
      refine (awake_keeps (hset.store (R.receives hnode) (-1)) content.pid).mono
        (fun woken h₁ => ?_) fun _ he => he
      exact ih _ (R.release h₁ (hrelease content hnode))

private theorem unregisterMessage_keeps {queue : MessageQueue}
    (h : R.list fid queue.lockedProcesses) :
    Meets (messageQueueUnregister queue) (fun result => SameQueue R fid queue result.2)
      Elsewhere := by
  unfold messageQueueUnregister
  rw [meets_bind, meets_demand]
  exact ⟨fun _ _ => ⟨h, rfl, rfl⟩, fun _ => rfl⟩

private theorem registerMessage_keeps (queue : MessageQueue) (message : Int)
    (h : R.list fid queue.lockedProcesses) :
    Meets (messageQueueRegister queue message) (SameQueue R fid queue) Elsewhere := by
  unfold messageQueueRegister
  rw [meets_bind, meets_demand]
  exact ⟨fun _ _ => ⟨h, rfl, rfl⟩, fun _ => rfl⟩

private theorem dropMessages_keeps (fuel : Nat) {queue : MessageQueue}
    (h : R.list fid queue.lockedProcesses) :
    Meets (dropMessages fuel queue) (SameQueue R fid queue) Elsewhere := by
  induction fuel generalizing queue with
  | zero => exact ⟨h, rfl, rfl⟩
  | succ fuel ih =>
      unfold dropMessages
      rw [meets_ite]
      refine ⟨fun _ => ?_, fun _ => ⟨h, rfl, rfl⟩⟩
      rw [meets_bind]
      refine (unregisterMessage_keeps h).mono (fun result hresult => ?_) fun _ he => he
      refine (ih hresult.1).mono (fun queue' hqueue' => ?_) fun _ he => he
      exact ⟨hqueue'.1, hqueue'.2.1.trans hresult.2.1, hqueue'.2.2.trans hresult.2.2⟩

theorem messageQueueReset_keeps
    (hrelease : ∀ content, R.node fid content → R.released content.pid) (h : R.Holds s) :
    Meets (messageQueueReset s fid) (fun result => R.Holds result.2.2) Elsewhere := by
  unfold messageQueueReset
  rw [meets_ite]
  refine ⟨fun _ => h, fun _ => ?_⟩
  rw [meets_bind]
  refine (releaseAll_keeps hrelease _ false h).mono (fun result h₁ => ?_) fun _ he => he
  rw [meets_bind]
  refine (dropMessages_keeps _ (R.waiting h₁ fid)).mono (fun queue hqueue => ?_) fun _ he => he
  have hset : R.Holds (setQueue result.2 fid queue) :=
    Rules.Holds.setQueue h₁ fid queue hqueue.1 (.inr hqueue.2)
  exact hset.record _

theorem pcreate_keeps (h : R.Holds s) (count : Int)
    (hspare : s.nbQueues < nbQueue → ∀ fid fids, s.fids.pop nbQueue = some (fid, fids) →
      R.spare fid) : Meets (pcreate mem s count) R.Holds Elsewhere := by
  unfold pcreate
  rw [meets_ite]
  refine ⟨fun _ => h.ret (-1), fun hrange => ?_⟩
  unfold messageQueueTableRegister
  rw [meets_bind, meets_bind, meets_demand]
  refine ⟨fun result hpop => ?_, fun _ => rfl⟩
  obtain ⟨fid, fids⟩ := result
  have hfid := hspare (by omega) fid fids hpop
  have htaken : R.Holds { s with fids := fids, nbQueues := s.nbQueues + 1 } :=
    h.kept ⟨rfl, fun _ => rfl, rfl, rfl, rfl, rfl, rfl⟩
  rw [meets_pure]
  dsimp only
  rw [meets_ite]
  constructor
  · intro _
    have hset := htaken.setQueue fid { s.queues fid with allocated := false }
      (R.waiting h fid) (.inl hfid)
    unfold messageQueueTableUnregister
    rw [meets_bind, meets_bind, meets_demand]
    refine ⟨fun fids' _ => ?_, fun _ => rfl⟩
    rw [meets_pure, meets_pure]
    refine Rules.Holds.ret (Rules.Holds.record ?_ _) _
    exact hset.kept ⟨rfl, fun _ => rfl, rfl, rfl, rfl, rfl, rfl⟩
  · intro _
    rw [meets_bind, meets_require]
    refine ⟨fun _ => ?_, fun _ => rfl⟩
    have hempty : R.list fid .empty := NodeList.Every.empty
    exact ((htaken.setQueue fid _ hempty (.inl hfid)).record _).ret _

theorem preset_keeps (hcalls : R.Calls) (h : R.Holds s)
    (hrelease : ∀ content, R.node fid content → R.released content.pid) :
    Meets (preset s fid) R.Holds Elsewhere := by
  unfold preset
  rw [meets_bind]
  refine (messageQueueReset_keeps hrelease h).mono (fun result h₁ => ?_) fun _ he => he
  have hreset : R.Holds result.2.2 := h₁
  dsimp only
  rw [meets_ite]
  exact ⟨fun _ => callRet hcalls hreset _, fun _ => hreset.ret _⟩

theorem pdelete_keeps (hcalls : R.Calls) (h : R.Holds s)
    (hrelease : ∀ content, R.node fid content → R.released content.pid) (hspare : R.spare fid) :
    Meets (pdelete s fid) R.Holds Elsewhere := by
  unfold pdelete
  rw [meets_bind]
  refine (messageQueueReset_keeps hrelease h).mono (fun result h₁ => ?_) fun _ he => he
  have hreset : R.Holds result.2.2 := h₁
  dsimp only
  rw [meets_ite]
  refine ⟨fun _ => hreset.ret _, fun _ => ?_⟩
  have hset := hreset.setQueue fid emptyMessageQueue .empty (.inl hspare)
  unfold messageQueueTableUnregister
  rw [meets_bind, meets_bind, meets_demand]
  refine ⟨fun fids _ => ?_, fun _ => rfl⟩
  have hgiven : R.Holds { setQueue result.2.2 fid emptyMessageQueue with
      fids := fids, nbQueues := uint32Pred (setQueue result.2.2 fid emptyMessageQueue).nbQueues } :=
    hset.kept ⟨rfl, fun _ => rfl, rfl, rfl, rfl, rfl, rfl⟩
  rw [meets_pure, meets_ite]
  exact ⟨fun _ => callRet hcalls (hgiven.record _) _, fun _ => (hgiven.record _).ret _⟩

/-! ## Sending and receiving -/

/-- How a call for a message ends: it returns 0, with or without a call of `schedule` in
front, or it blocks and goes on at `resume`. -/
inductive Answers (R : Rules) (resume : Frame) (blocks : Prop) : Kernel → Prop
  | returns {s : Kernel} (h : R.Holds s) : Answers R resume blocks (s.ret 0)
  | yields {s : Kernel} (h : R.Holds s) : Answers R resume blocks (s.callSchedule [.ret 0])
  | blocks {s : Kernel} (h : R.Holds s) (hblocks : blocks) :
      Answers R resume blocks (s.callSchedule [resume])

theorem Answers.holds {resume : Frame} {blocks : Prop} (h : Answers R resume blocks s)
    (hcalls : R.Calls) (hresume : R.frame resume) : R.Holds s := by
  cases h with
  | returns h => exact h.ret 0
  | yields h => exact callRet hcalls h 0
  | blocks h _ => exact h.callSchedule hcalls hresume

/-- The end of a call that woke a process. -/
private theorem woken_answers (h : R.Holds s) (p : Int) (resume : Frame) (blocks : Prop) :
    Meets (awake s p >>= fun result =>
      if result.1 = true then pure (result.2.callSchedule [.ret 0]) else pure (result.2.ret 0))
      (Answers R resume blocks) Elsewhere := by
  rw [meets_bind]
  refine (awake_keeps h p).mono (fun result h₁ => ?_) fun _ he => he
  rw [meets_ite]
  exact ⟨fun _ => .yields h₁, fun _ => .returns h₁⟩

/-- The end of a call that blocks the running process. -/
private theorem blocked_answers (h : R.Holds s) (content : ProcessNodeContent)
    (hnode : R.node fid content) (p : Int) {event : HistoryEvent}
    {resume : Frame} {blocks : Prop} (hblocks : blocks) :
    Meets (processQueueAddOnPriority mem (s.queues fid).lockedProcesses content >>=
      fun locked => blockByMessage
        (setQueue s fid { s.queues fid with lockedProcesses := locked }) p >>=
      fun s₁ => pure ((s₁.record event).callSchedule [resume])) (Answers R resume blocks)
        Elsewhere := by
  rw [meets_bind]
  refine (addOnPriority_keeps (R.waiting h fid) hnode).mono (fun locked hlocked => ?_)
    fun _ he => he
  have hset := h.setQueue fid { s.queues fid with lockedProcesses := locked } hlocked
    (.inr ⟨rfl, rfl⟩)
  rw [meets_bind]
  exact (blockByMessage_keeps hset p).mono (fun s₁ h₁ => .blocks (Rules.Holds.record h₁ event) hblocks)
    fun _ he => he

theorem psend_answers (h : R.Holds s) (message : Int) (hlive : isLive s fid = true)
    (hnode : ∀ priority, R.node fid ⟨s.getpid, message, .null, priority⟩) :
    Meets (psend mem s fid message) (Answers R (.psendResume s.getpid)
      ((s.queues fid).nbMessages = (s.queues fid).size)) Elsewhere := by
  unfold psend
  rw [if_neg (by simp [hlive])]
  dsimp only
  rw [meets_ite]
  constructor
  · intro _
    rw [meets_bind]
    refine (removeFirst_keeps (R.waiting h fid)).mono (fun result hresult => ?_)
      fun _ he => he
    obtain ⟨content, locked⟩ := result
    have hset := h.setQueue fid { s.queues fid with lockedProcesses := locked } hresult.2
      (.inr ⟨rfl, rfl⟩)
    exact woken_answers ((hset.store (R.receives hresult.1) message).record _) content.pid _ _
  · intro _
    rw [meets_ite]
    constructor
    · intro hfull
      unfold getprio
      rw [meets_bind, meets_bind]
      refine getProcess_keeps ?_
      exact blocked_answers h ⟨s.getpid, message, .null, _⟩ (hnode _) _ hfull
    · intro _
      rw [meets_bind]
      refine (registerMessage_keeps _ message (R.waiting h fid)).mono (fun queue hqueue => ?_)
        fun _ he => he
      have hset := h.setQueue fid queue hqueue.1 (.inr hqueue.2)
      exact .returns (hset.record _)

theorem preceive_answers (h : R.Holds s) {destination : Destination}
    (hlive : isLive s fid = true) (hd : R.destination destination)
    (hnode : ∀ priority, R.node fid ⟨s.getpid, 0, destination, priority⟩) :
    Meets (preceive mem s fid destination) (Answers R (.preceiveResume s.getpid)
      ((s.queues fid).nbMessages = 0)) Elsewhere := by
  unfold preceive
  rw [if_neg (by simp [hlive])]
  dsimp only
  rw [meets_ite]
  constructor
  · intro _
    rw [meets_bind]
    refine (unregisterMessage_keeps (R.waiting h fid)).mono (fun result hresult => ?_)
      fun _ he => he
    obtain ⟨received, queue⟩ := result
    rw [meets_bind]
    refine (removeFirst_keeps hresult.1).mono (fun first hfirst => ?_) fun _ he => he
    obtain ⟨content, locked⟩ := first
    rw [meets_bind]
    refine (registerMessage_keeps { queue with lockedProcesses := locked } content.message
      hfirst.2).mono (fun queue' hqueue' => ?_) fun _ he => he
    have hset := ((h.setQueue fid queue' hqueue'.1
      (.inr ⟨hqueue'.2.1.trans hresult.2.1, hqueue'.2.2.trans hresult.2.2⟩)).record
        (.received s.getpid fid received)).record
          (.taken s.getpid content.pid fid content.message)
    exact woken_answers (hset.store hd received) content.pid _ _
  · intro _
    rw [meets_ite]
    constructor
    · intro hempty
      unfold getprio
      rw [meets_bind, meets_bind]
      refine getProcess_keeps ?_
      exact blocked_answers h ⟨s.getpid, 0, destination, _⟩ (hnode _) _ hempty
    · intro _
      rw [meets_bind]
      refine (unregisterMessage_keeps (R.waiting h fid)).mono (fun result hresult => ?_)
        fun _ he => he
      have hset := h.setQueue fid result.2 hresult.1 (.inr hresult.2)
      exact .returns ((hset.record _).store hd _)

theorem psend_keeps (hcalls : R.Calls) (h : R.Holds s) (fid message : Int)
    (hnode : ∀ priority, R.node fid ⟨s.getpid, message, .null, priority⟩) :
    Meets (psend mem s fid message) R.Holds Elsewhere := by
  by_cases hlive : isLive s fid = true
  · exact (psend_answers h message hlive hnode).mono
      (fun s' h' => h'.holds hcalls (hcalls.psendResume _)) fun _ he => he
  · unfold psend
    rw [if_pos (by simpa using hlive)]
    exact h.ret (-1)

theorem preceive_keeps (hcalls : R.Calls) (h : R.Holds s) (fid : Int)
    {destination : Destination} (hd : isLive s fid = true → R.destination destination)
    (hnode : isLive s fid = true →
      ∀ priority, R.node fid ⟨s.getpid, 0, destination, priority⟩) :
    Meets (preceive mem s fid destination) R.Holds Elsewhere := by
  by_cases hlive : isLive s fid = true
  · exact (preceive_answers h hlive (hd hlive) (hnode hlive)).mono
      (fun s' h' => h'.holds hcalls (hcalls.preceiveResume _)) fun _ he => he
  · unfold preceive
    rw [if_pos (by simpa using hlive)]
    exact h.ret (-1)

theorem messageResume_keeps (h : R.Holds s) (p : Int) :
    R.Holds (messageResume s p) := by
  unfold messageResume
  split
  · exact Rules.Holds.ret (Rules.Holds.record (R.resume h p) _) _
  · exact (h.record _).ret 0

/-! ## Events -/

/-- What a system call needs, with the arguments that it does not refuse. -/
def Rules.call (R : Rules) (s : Kernel) : Call → Prop
  | .start program stackSize priority name =>
      checkArg program = true → checkArg name.address = true →
        StartsWith s stackSize priority →
          R.bytes name.address (min (name.length + 1) processNameMaxLength)
  | .waitpid pid retvalp =>
      checkArg retvalp = true → pid ≠ 0 → pid ≤ processTableMaxSize →
        R.destination (.ofPointer retvalp)
  | .pcount fid count =>
      checkArg count = true → isLive s fid = true → R.destination (.ofPointer count)
  | .pcreate _ => s.nbQueues < nbQueue →
      ∀ fid fids, s.fids.pop nbQueue = some (fid, fids) → R.spare fid
  | .pdelete fid => (∀ content, R.node fid content → R.released content.pid) ∧ R.spare fid
  | .preset fid => ∀ content, R.node fid content → R.released content.pid
  | .psend fid message => ∀ priority, R.node fid ⟨s.getpid, message, .null, priority⟩
  | .preceive fid message =>
      checkArg message = true → isLive s fid = true → R.destination (.ofPointer message) ∧
        ∀ priority, R.node fid ⟨s.getpid, 0, .ofPointer message, priority⟩
  | .consRead str length => checkArg str = true → R.frame (.consRead str length 0)
  | .consWrite str size => checkArg str = true → R.bytes str size.toNat
  | .clockSettings quartz ticks => checkArg quartz = true → checkArg ticks = true →
      R.destination (.user quartz) ∧ R.destination (.user ticks)
  | _ => True

def Rules.event (R : Rules) (s : Kernel) : Event → Prop
  | .call call => R.call s call
  | .key str => R.frame (.keyboardData str)
  | _ => True

private theorem syscall_keeps (hcalls : R.Calls) (h : R.Holds s) {call : Call}
    (hcall : R.call s call) : Meets (syscallHandler mem s call) R.Holds Elsewhere := by
  have hchecked : ∀ {arg : Int} {x : Except Panic Kernel},
      (checkArg arg = true → Meets x R.Holds Elsewhere) →
      Meets (if checkArg arg = false then .ok (s.ret (-1)) else x) R.Holds Elsewhere := by
    intro arg x hx
    rw [meets_ite]
    exact ⟨fun _ => h.ret (-1), fun harg => hx (by simpa using harg)⟩
  have hboth : ∀ {arg arg' : Int} {x : Except Panic Kernel},
      (checkArg arg = true → checkArg arg' = true → Meets x R.Holds Elsewhere) →
      Meets (if checkArg arg = false ∨ checkArg arg' = false then .ok (s.ret (-1)) else x)
        R.Holds Elsewhere := by
    intro arg arg' x hx
    rw [meets_ite]
    refine ⟨fun _ => h.ret (-1), fun harg => ?_⟩
    push Not at harg
    exact hx (by simpa using harg.1) (by simpa using harg.2)
  cases call with
  | start program stackSize priority name =>
      refine hboth fun hprogram hname => start_keeps hcalls h stackSize priority ?_
      rintro hstarts str ⟨⟩
      exact hcall hprogram hname hstarts
  | exit retval => exact exit_keeps hcalls h retval
  | kill pid => exact kill_keeps hcalls h pid
  | waitpid pid retvalp => exact hchecked fun harg => waitpid_keeps hcalls h pid (hcall harg)
  | getpid => exact h.ret s.getpid
  | getprio pid =>
      change Meets (getprio s pid >>= fun priority => pure (s.ret priority)) _ _
      unfold getprio
      rw [meets_bind, meets_bind]
      exact getProcess_keeps (h.ret _)
  | chprio pid newprio => exact chprio_keeps hcalls h pid newprio
  | waitClock clock => exact waitClock_keeps hcalls h clock
  | currentClock => exact h.ret (s.inter : Int)
  | pcount fid count =>
      refine hchecked fun harg => ?_
      rw [meets_ok]
      unfold pcount
      split_ifs with hlive
      · exact h.ret (-1)
      · exact (h.store (hcall harg (by simpa using hlive)) _).ret 0
  | pcreate count => exact pcreate_keeps h count hcall
  | pdelete fid => exact pdelete_keeps hcalls h hcall.1 hcall.2
  | preceive fid message =>
      exact hchecked fun harg => preceive_keeps hcalls h fid
        (fun hlive => (hcall harg hlive).1) fun hlive => (hcall harg hlive).2
  | preset fid => exact preset_keeps hcalls h hcall
  | psend fid message => exact psend_keeps hcalls h fid message hcall
  | consRead str length =>
      refine hchecked fun harg => ?_
      unfold consRead
      rw [meets_bind, meets_require]
      exact ⟨fun _ => h.push (.consRead str length 0) (hcall harg), fun _ => rfl⟩
  | consEcho on =>
      have hset : R.Holds { s with echoEnabled := on } :=
        h.kept ⟨rfl, fun _ => rfl, rfl, rfl, rfl, rfl, rfl⟩
      exact hset.ret 0
  | consWrite str size => exact hchecked fun harg => (h.readBytes (hcall harg)).ret 0
  | clockSettings quartz ticks =>
      refine hboth fun hquartz hticks => ?_
      obtain ⟨hq, ht⟩ := hcall hquartz hticks
      exact ((h.store hq _).store ht _).ret 0

/-- A step out of user mode. -/
theorem event_keeps (hcalls : R.Calls) (h : R.Holds s) {step : Step}
    (hevent : R.event s step.event) (hkernel : step.event ≠ .kernel) :
    Meets (exec step s) R.Holds Elsewhere := by
  unfold exec
  cases hstep : step.event with
  | init stackSize priority => exact start_keeps hcalls h stackSize priority (by simp)
  | call call =>
      rw [hstep] at hevent
      exact syscall_keeps hcalls h hevent
  | tick =>
      rw [meets_ok]
      unfold ticPit
      dsimp only
      split
      · refine Rules.Holds.callSchedule ?_ hcalls hcalls.clockTick
        exact h.kept ⟨rfl, fun _ => rfl, rfl, rfl, rfl, rfl, rfl⟩
      · have hcounted : R.Holds { s with
            inter := (s.inter + 1) % 2 ^ 32, schedulerDelay := s.schedulerDelay + 1 } :=
          h.kept ⟨rfl, fun _ => rfl, rfl, rfl, rfl, rfl, rfl⟩
        exact hcounted.push .clockTick hcalls.clockTick
  | key str =>
      rw [hstep] at hevent
      exact h.push (.keyboardData str) hevent
  | kernel => exact absurd hstep hkernel

/-- The frames behind which a primitive goes on that does not call `psend` or `preceive`. -/
def Frame.isPrimitive : Frame → Bool
  | .startReturn _ => true
  | .ret _ => true
  | .waitpidAny _ _ => true
  | .waitpidOne _ _ => true
  | .psendResume _ => true
  | .preceiveResume _ => true
  | .clockTick => true
  | _ => false

theorem frame_keeps (hcalls : R.Calls) {frame : Frame} {rest : List Frame}
    (hcontrol : s.control = frame :: rest) (hframe : frame.isPrimitive = true)
    (hd : ∀ pid retvalp, frame = .waitpidAny pid retvalp ∨ frame = .waitpidOne pid retvalp →
      R.destination retvalp) (h : R.Holds { s with control := rest }) :
    Meets (kernelStep mem s) R.Holds Elsewhere := by
  unfold kernelStep
  rw [hcontrol]
  dsimp only
  cases frame with
  | startReturn pid => exact h.ret _
  | ret value => exact h.ret value
  | waitpidAny pid retvalp => exact waitpidAnyResume_keeps h pid (hd pid retvalp (.inl rfl))
  | waitpidOne pid retvalp => exact waitpidReap_keeps h pid pid (hd pid retvalp (.inr rfl))
  | psendResume pid => exact messageResume_keeps h pid
  | preceiveResume pid => exact messageResume_keeps h pid
  | clockTick => exact clockTick_keeps hcalls h
  | schedule phase => cases hframe
  | exitLoop => cases hframe
  | keyboardData str => cases hframe
  | keyboardSent rest => cases hframe
  | consRead str length index => cases hframe
  | consReceived str length index => cases hframe

end SchlagOS
