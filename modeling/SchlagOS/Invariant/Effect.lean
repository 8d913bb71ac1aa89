import SchlagOS.Invariant.Cleanup
import SchlagOS.Kernel.Machine

/-!
# What a step can do

`Effect` lists what the primitives do to the tables and to the history, one
constructor for each way in which one of them can end, and `Turn` does the same
for the turns of the loops of `schedule`.  The invariants that speak about the
history are proved from these lists.
-/

namespace SchlagOS

open Foundation

/-- The history, and the tables that no part of the invariant is about. -/
structure Log where
  history : List HistoryEvent
  resetReleases : Int → Bool
  returnCode : Int → Int
  stdinFid : Int
  stackData : Stacks

def Rest.log (rest : Rest) : Log where
  history := rest.history
  resetReleases := rest.resetReleases
  returnCode := rest.returnCode
  stdinFid := rest.stdinFid
  stackData := rest.stackData

def Kernel.log (s : Kernel) : Log := s.rest.log

def Log.record (log : Log) (event : HistoryEvent) : Log :=
  { log with history := log.history ++ [event] }

def Frame.isResume : Frame → Bool
  | .psendResume _ => true
  | .preceiveResume _ => true
  | _ => false

/-- The process does not go on behind a `schedule` that it called to wait. -/
def Plain (frames : List Frame) : Prop :=
  ∀ frame, frames.head? = some frame → frame.isWaitpid = false ∧ frame.isResume = false

theorem plain_of_outer {frames : List Frame} (h : ∀ f ∈ frames, f.isOuter = true) :
    Plain frames := by
  intro frame hframe
  have houter := h frame (List.mem_of_mem_head? hframe)
  cases frame <;> simp_all [Frame.isOuter, Frame.isWaitpid, Frame.isResume]

theorem plain_cons {frame : Frame} (hwait : frame.isWaitpid = false)
    (hresume : frame.isResume = false) (rest : List Frame) : Plain (frame :: rest) := by
  intro frame' hframe'
  rw [List.head?_cons, Option.some_inj] at hframe'
  subst hframe'
  exact ⟨hwait, hresume⟩

/-- A child of `r` that `waitpid` can still return. -/
def View.unreaped (v : View) (r c : Int) : Prop :=
  v.state c ≠ .unset ∧ v.father c = r ∧ v.isSealed c = false

/-- What `waitpid` of a request waits for. -/
def View.awaits (v : View) (r request : Int) : Prop :=
  if request < 0 then ∃ c, v.unreaped r c else v.unreaped r request

/-- The queue is still the one it was, with other messages or waiters. -/
def MessageQueue.Same (queue queue' : MessageQueue) : Prop :=
  queue'.allocated = queue.allocated ∧ queue'.size = queue.size

/-- `start` does not refuse these arguments while `size` processes are in use. -/
def startAccepts (size stackSize : Nat) (priority : Int) : Prop :=
  (processMinPriority ≤ priority ∧ priority ≤ processMaxPriority) ∧
    size < processTableMaxSize ∧ stackSize < (stackSize + userAdditionalStackSize) % 2 ^ 32

instance (size stackSize : Nat) (priority : Int) :
    Decidable (startAccepts size stackSize priority) := by
  unfold startAccepts
  infer_instance

/-- A call of `start` that is not refused while `size` processes are in use. -/
def Event.starts (size : Nat) : Event → Prop
  | .init stackSize priority => startAccepts size stackSize priority
  | .call (.start program stackSize priority name) =>
      (checkArg program = true ∧ checkArg name.address = true) ∧
        startAccepts size stackSize priority
  | _ => False

/-- How the two calls that reset a queue differ: `preset` keeps the queue, `pdelete`
gives its identifier back. -/
inductive Resets (step : Step) (v : View) (fid : Int) (queue : MessageQueue) :
    LockedRing Int → Nat → List HistoryEvent → Prop
  | preset (hevent : step.event = .call (.preset fid))
      (hsame : (v.queues fid).Same queue) : Resets step v fid queue v.fids v.nbQueues []
  | pdelete {fids : LockedRing Int} (hevent : step.event = .call (.pdelete fid))
      (hqueue : queue = emptyMessageQueue)
      (horder : fids.toList nbQueue (nbQueue - uint32Pred v.nbQueues) = v.freeFids ++ [fid]) :
      Resets step v fid queue fids (uint32Pred v.nbQueues) [.deleted fid]

inductive Effect (step : Step) (r : Int) (v : View) (log : Log) : View → Log → Prop
  | goOn {frames : List Frame} (hframes : Plain frames) :
      Effect step r v log { v with call := Function.update v.call r frames } log
  | start {p priority : Int} {pids : LockedRing Int} {processQueue : LinkQueue Int}
      {size : Nat} {frames : List Frame} (hfree : freePid v.state p) (hpr : p ≠ r)
      (hsize : size ≠ 0)
      (horder : v.freePids = p :: pids.toList processTableMaxSize
        (processTableMaxSize - (v.currentSize + 1)))
      (hframes : Plain frames) :
      Effect step r v log
        { v with
          state := Function.update v.state p .waiting
          pid := Function.update v.pid p p
          father := Function.update v.father p r
          childs := Function.update (Function.update v.childs p []) r (p :: v.childs r)
          priority := Function.update v.priority p priority
          dead := Function.update v.dead p false
          call := Function.update (Function.update v.call p []) r frames
          pids := pids
          currentSize := v.currentSize + 1
          processQueue := processQueue }
        { log.record (.started r p) with
          returnCode := Function.update log.returnCode p 0
          stackData := log.stackData.give p size }
  | startFails {p priority : Int} {pids : LockedRing Int} {free : List Int}
      {stackData : Stacks} {frames : List Frame}
      (hstarts : step.event.starts v.currentSize)
      (hmem : step.mem.kernelStack = false ∨ step.mem.userStack = false)
      (hfree : freePid v.state p) (hpr : p ≠ r) (horder : v.freePids = p :: free)
      (horder' : pids.toList processTableMaxSize (processTableMaxSize - v.currentSize) =
        free ++ [p])
      (hwasted : log.stackData.Wasted stackData p) (hframes : Plain frames) :
      Effect step r v log
        { v with
          pid := Function.update v.pid p p
          father := Function.update v.father p r
          childs := Function.update v.childs p []
          priority := Function.update v.priority p priority
          dead := Function.update v.dead p false
          call := Function.update (Function.update v.call p []) r frames
          pids := pids }
        { log.record (.notStarted p) with
          returnCode := Function.update log.returnCode p 0
          stackData := stackData }
  | exit {value : Int} {queues : Int → MessageQueue} {frames : List Frame} (hone : r ≠ 1)
      (hqueues : Rearranged (fun xs => xs.eraseP (isOf r)) v.queues queues)
      (hframes : Plain frames) :
      Effect step r v log
        { v with
          state := Function.update v.state r .zombie
          toZombify := v.toZombify ++ [r]
          queues := queues
          call := Function.update v.call r frames }
        { log.record (.terminated r value) with
          returnCode := Function.update log.returnCode r value }
  | kill {p : Int} {processQueue : LinkQueue Int} {queues : Int → MessageQueue}
      {sleeping : List Int} {frames : List Frame}
      (hevent : step.event = .call (.kill p)) (hused : v.state p ≠ .unset)
      (halive : v.state p ≠ .zombie)
      (hqueues : Rearranged (fun xs => xs.eraseP (isOf p)) v.queues queues)
      (hframes : Plain frames) :
      Effect step r v log
        { v with
          state := Function.update v.state p .zombie
          toZombify := v.toZombify ++ [p]
          processQueue := processQueue
          queues := queues
          sleeping := sleeping
          call := Function.update v.call r frames }
        { log.record (.terminated p 0) with
          returnCode := Function.update log.returnCode p 0 }
  | reap {request c : Int} {frames : List Frame} (hunreaped : v.unreaped r c)
      (hzombie : v.state c = .zombie) (hrequest : request < 0 ∨ request = c)
      (hframes : Plain frames) :
      Effect step r v log
        { v with
          isSealed := Function.update v.isSealed c true
          toDestroy := v.toDestroy ++ [c]
          call := Function.update v.call r frames }
        (log.record (.reaped r request c (log.returnCode c)))
  | waits {request code : Int} {frame : Frame} {frames : List Frame}
      (hawaits : (∀ x, v.state x = .unset → v.pid x = processNotFoundCode) →
        v.awaits r request)
      (hcode : code = request ∧ 0 < request ∨ code = -1 ∧ request < 0)
      (hliving : ∀ c, v.unreaped r c → code < 0 ∨ code = c → v.state c ≠ .zombie)
      (hframe : frame.isWaitpid = true) :
      Effect step r v log
        { v with
          state := Function.update v.state r .blockedByChild
          code := Function.update v.code r code
          call := Function.update v.call r (frame :: frames) }
        (log.record (.waits r request))
  | noChild {request : Int} {frames : List Frame}
      (hnone : ¬v.awaits r request) (hframes : Plain frames) :
      Effect step r v log { v with call := Function.update v.call r frames }
        (log.record (.noChild r request))
  | sleeps {frames : List Frame} {clock : Nat}
      (hevent : step.event = .call (.waitClock clock)) (hframes : Plain frames) :
      Effect step r v log
        { v with
          state := Function.update v.state r .sleeping
          sleeping := v.sleeping ++ [r]
          call := Function.update v.call r frames } log
  | alarm {state : Int → ProcessState} {processQueue : LinkQueue Int}
      {sleeping : List Int} {frames : List Frame}
      (hstate : ∀ p, state p = v.state p ∨ v.state p = .sleeping ∧ state p = .waiting)
      (hsleep : ∀ p ∈ sleeping, p ∈ v.sleeping)
      (hframes : Plain frames) :
      Effect step r v log
        { v with
          state := state
          processQueue := processQueue
          sleeping := sleeping
          call := Function.update v.call r frames } log
  | reprioritise {p priority : Int} {processQueue : LinkQueue Int}
      {queues : Int → MessageQueue} {frames : List Frame}
      (hevent : step.event = .call (.chprio p priority))
      (hqueues : queues = v.queues ∨ Rearranged (reprioritised p priority) v.queues queues)
      (hframes : Plain frames) :
      Effect step r v log
        { v with
          priority := Function.update v.priority p priority
          processQueue := processQueue
          queues := queues
          call := Function.update v.call r frames } log
  | create {fid : Int} {queue : MessageQueue} {fids : LockedRing Int}
      {frames : List Frame} (hfree : freeFid v.queues fid)
      (horder : v.freeFids = fid :: fids.toList nbQueue (nbQueue - (v.nbQueues + 1)))
      (hallocated : queue.allocated = true) (hwaiters : queue.waiters = [])
      (hmessages : queue.messages = []) (hframes : Plain frames) :
      Effect step r v log
        { v with
          queues := Function.update v.queues fid queue
          fids := fids
          nbQueues := v.nbQueues + 1
          call := Function.update v.call r frames }
        (log.record (.created fid queue.size))
  | createFails {fid : Int} {fids : LockedRing Int} {free : List Int} {frames : List Frame}
      (hmem : step.mem.messageBuffer = false) (hfree : freeFid v.queues fid)
      (horder : v.freeFids = fid :: free)
      (horder' : fids.toList nbQueue (nbQueue - v.nbQueues) = free ++ [fid])
      (hframes : Plain frames) :
      Effect step r v log
        { v with fids := fids, call := Function.update v.call r frames }
        (log.record (.notCreated fid))
  | reset {fid : Int} {queue : MessageQueue} {fids : LockedRing Int} {nbQueues : Nat}
      {state : Int → ProcessState} {processQueue : LinkQueue Int}
      {resetReleases : Int → Bool} {frames : List Frame} {pids : List Int}
      {events : List HistoryEvent} (hlive : (v.queues fid).allocated = true)
      (hevent : Resets step v fid queue fids nbQueues events)
      (hpids : (v.queues fid).waiters.map ProcessNodeContent.pid = pids)
      (hstate : ∀ p, state p = if p ∈ pids then .waiting else v.state p)
      (hreleases : ∀ p, resetReleases (p - 1) =
        (decide (p ∈ pids) || log.resetReleases (p - 1)))
      (hwaiters : queue.waiters = []) (hmessages : queue.messages = [])
      (hframes : Plain frames) :
      Effect step r v log
        { v with
          state := state
          processQueue := processQueue
          queues := Function.update v.queues fid queue
          fids := fids
          nbQueues := nbQueues
          call := Function.update v.call r frames }
        { log with
          history := log.history ++
            pids.map (fun p => .awoken p .blockedByMessage) ++ .queueReset fid :: events
          resetReleases := resetReleases }
  | buffer {fid message : Int} {queue : MessageQueue} {frames : List Frame}
      (hsame : (v.queues fid).Same queue) (hnil : (v.queues fid).waiters = [])
      (hnil' : queue.waiters = [])
      (hmessages : queue.messages = (v.queues fid).messages ++ [message])
      (hframes : Plain frames) :
      Effect step r v log
        { v with
          queues := Function.update v.queues fid queue
          call := Function.update v.call r frames }
        (log.record (.buffered r fid message))
  | hand {fid message : Int} {node : ProcessNodeContent} {queue : MessageQueue}
      {processQueue : LinkQueue Int} {frames : List Frame}
      (hsame : (v.queues fid).Same queue)
      (hwaiters : (v.queues fid).waiters = node :: queue.waiters)
      (hempty : (v.queues fid).nbMessages = 0) (hempty' : queue.nbMessages = 0)
      (hframes : Plain frames) :
      Effect step r v log
        { v with
          state := Function.update v.state node.pid .waiting
          processQueue := processQueue
          queues := Function.update v.queues fid queue
          call := Function.update v.call r frames }
        ((log.record (.handed r node.pid fid message)).record
          (.awoken node.pid .blockedByMessage))
  | blockSend {fid message priority : Int} {queue : MessageQueue} {frames : List Frame}
      (hsame : (v.queues fid).Same queue) (hstate : v.state r = .running)
      (hwaiters : queue.waiters = NodeList.place (stands priority)
        { pid := r, message := message, destination := .null, priority := priority }
        (v.queues fid).waiters)
      (hfull : (v.queues fid).nbMessages ≠ 0)
      (hmessages : queue.messages = (v.queues fid).messages) :
      Effect step r v log
        { v with
          state := Function.update v.state r .blockedByMessage
          queues := Function.update v.queues fid queue
          call := Function.update v.call r (.psendResume r :: frames) }
        (log.record (.blockedSender r fid message))
  | take {fid message : Int} {queue : MessageQueue} {frames : List Frame}
      (hsame : (v.queues fid).Same queue) (hnil : (v.queues fid).waiters = [])
      (hnil' : queue.waiters = [])
      (hmessages : (v.queues fid).messages = message :: queue.messages)
      (hframes : Plain frames) :
      Effect step r v log
        { v with
          queues := Function.update v.queues fid queue
          call := Function.update v.call r frames }
        (log.record (.received r fid message))
  | swap {fid message : Int} {messages : List Int} {node : ProcessNodeContent}
      {queue : MessageQueue} {processQueue : LinkQueue Int} {frames : List Frame}
      (hsame : (v.queues fid).Same queue)
      (hwaiters : (v.queues fid).waiters = node :: queue.waiters)
      (hold : (v.queues fid).messages = message :: messages)
      (hnew : queue.messages = messages ++ [node.message])
      (hframes : Plain frames) :
      Effect step r v log
        { v with
          state := Function.update v.state node.pid .waiting
          processQueue := processQueue
          queues := Function.update v.queues fid queue
          call := Function.update v.call r frames }
        (((log.record (.received r fid message)).record
          (.taken r node.pid fid node.message)).record
            (.awoken node.pid .blockedByMessage))
  | blockReceive {fid priority : Int} {destination : Destination} {queue : MessageQueue}
      {frames : List Frame} (hsame : (v.queues fid).Same queue)
      (hstate : v.state r = .running)
      (hwaiters : queue.waiters = NodeList.place (stands priority)
        { pid := r, message := 0, destination := destination, priority := priority }
        (v.queues fid).waiters)
      (hempty : (v.queues fid).nbMessages = 0) (hempty' : queue.nbMessages = 0) :
      Effect step r v log
        { v with
          state := Function.update v.state r .blockedByMessage
          queues := Function.update v.queues fid queue
          call := Function.update v.call r (.preceiveResume r :: frames) }
        (log.record (.blockedReceiver r fid))

private theorem update_over {β : Type*} (f : Int → β) {p r : Int} (h : p ≠ r) {a b c : β} :
    Function.update (Function.update (Function.update f r a) p b) r c =
      Function.update (Function.update f p b) r c := by
  rw [Function.update_comm h, Function.update_idem, Function.update_comm (Ne.symm h)]

private theorem Resets.of_call {step : Step} {v : View} {call : Int → List Frame} {fid : Int}
    {queue : MessageQueue} {fids : LockedRing Int} {nbQueues : Nat} {events : List HistoryEvent}
    (h : Resets step { v with call := call } fid queue fids nbQueues events) :
    Resets step v fid queue fids nbQueues events := by
  cases h with
  | preset hevent hsame => exact .preset hevent hsame
  | pdelete hevent hqueue horder => exact .pdelete hevent hqueue horder

/-- What came before the primitive on the stack of the running process does not
matter. -/
theorem Effect.of_call {step : Step} {r : Int} {v v' : View} {log log' : Log}
    {frames : List Frame}
    (h : Effect step r { v with call := Function.update v.call r frames } log v' log') :
    Effect step r v log v' log' := by
  generalize hw : { v with call := Function.update v.call r frames } = w at h
  cases h
  all_goals
    subst hw
    simp only [Function.update_idem]
  case start p _ _ _ _ frames' hpr hsize hframes hfree horder =>
    rw [update_over v.call hpr]
    exact .start hfree hpr hsize horder hframes
  case startFails p _ _ free stackData frames' hmem hpr hwasted hframes hstarts hfree horder
      horder' =>
    rw [update_over v.call hpr]
    exact .startFails hstarts hmem hfree hpr horder horder' hwasted hframes
  case reset hreleases hwaiters hmessages hframes hlive hevent hpids hstate =>
    exact .reset hlive hevent.of_call hpids hstate hreleases hwaiters hmessages hframes
  all_goals
    constructor
    all_goals assumption

/-! ## The turns of schedule -/

/-- No ready process has a higher priority than `r`. -/
def View.law (v : View) (r : Int) : Prop :=
  ∀ p, v.state p = .waiting → v.priority p ≤ v.priority r

/-- The phase of the `schedule` that the running process is in. -/
def phaseOf : List Frame → Option SchedulePhase
  | .schedule phase :: _ => some phase
  | _ => none

/-- What a step does that runs a frame of `schedule`, or a frame behind which a call
for a message goes on. -/
inductive Turn (r : Int) (s s' : Kernel) : Prop
  | pass (hphase : phaseOf s'.control = none → phaseOf s.control = some .decide)
      (hview : s'.view = s.view) (hlog : s'.log = s.log)
  | resume (value : Int) (frames : List Frame)
      (hcall : ∃ frame, (s.view.call r).head? = some frame ∧ frame.isResume = true)
      (hvalue : value = if s.log.resetReleases (r - 1) then -1 else 0)
      (hview : s'.view = { s.view with call := Function.update s.view.call r frames })
      (hlog : s'.log = { s.log.record (.resumed r value) with
        resetReleases := Function.update s.log.resetReleases (r - 1) false })
      (hframes : Plain frames) (hphase : phaseOf s.control = none)
  | zombify (p : Int) (stack : ArrayStack Int)
      (hphase : phaseOf s.control = some .zombify)
      (hphase' : phaseOf s'.control = some .zombify)
      (htake : takePending s.pidsToZombify (some r) = some (p, stack)) (hpr : p ≠ r)
      (hzombified : Zombified s.view s'.view p)
      (hlog : s'.log =
        { s.log.record (.zombified p) with stackData := s.log.stackData.free p })
  | destroy (p : Int) (hphase : phaseOf s'.control = some .destroy)
      (hdestroyed : Destroyed s.view s'.view p)
      (hlog : s'.log = { s.log.record (.destroyed p) with
        returnCode := Function.update s.log.returnCode p (-1)
        stackData := s.log.stackData.clear p })
  | switch (p : Int) (state : Int → ProcessState) (processQueue : LinkQueue Int)
      (hphase : phaseOf s.control = some .decide) (hp : s.view.state p = .waiting)
      (hp' : state p = .running)
      (hr : state r = if s.view.state r = .running then .waiting else s.view.state r)
      (hother : ∀ x, x ≠ p → x ≠ r → state x = s.view.state x)
      (hview : s'.view = { s.view with
        state := state, processQueue := processQueue, running := some p })
      (hlog : s'.log = s.log)

/-! ## The invariant of a run -/

/-- The frames that can stand on the stack of process 1. -/
def Frame.isInit : Frame → Bool
  | .schedule _ => true
  | .startReturn _ => true
  | .ret _ => true
  | .clockTick => true
  | .keyboardData _ => true
  | .keyboardSent _ => true
  | _ => false

structure Inv (s : Kernel) (r : Int) : Prop where
  core : Core s.view r fun _ => False
  executing : Executing s.control
  suspended : ∀ p, p ≠ r → s.view.state p ≠ .unset → Suspended (s.data p).executionContext
  initFrames : ∀ frame ∈ s.stack 1, frame.isInit = true
  running : phaseOf s.control = none ∨ r = 1 → s.view.state r = .running
  alive : s.view.dead 1 = false
  zombified : phaseOf s.control ≠ none → phaseOf s.control ≠ some .zombify →
    ∀ p ∈ s.view.toZombify, p = r
  destroyed : phaseOf s.control = some .decide → s.view.toDestroy = []

/-- A state in which the running process starts to run a primitive, with frames behind it
that wait for its result. -/
structure Settled (s : Kernel) (r : Int) : Prop where
  core : Core s.view r fun _ => False
  outer : ∀ frame ∈ s.control, frame.isOuter = true
  suspended : ∀ p, p ≠ r → s.view.state p ≠ .unset → Suspended (s.data p).executionContext
  initFrames : ∀ frame ∈ s.stack 1, frame.isInit = true
  running : s.view.state r = .running
  alive : s.view.dead 1 = false

/-- The running process is about to call `schedule`, or it still has the highest
priority if it had it before. -/
def Fair (s s' : Kernel) (r : Int) : Prop :=
  phaseOf s'.control = some .zombify ∨ (s.view.law r → s'.view.law r)

structure After (step : Step) (s s' : Kernel) (r : Int) : Prop where
  inv : Inv s' r
  effect : Effect step r s.view s.log s'.view s'.log
  fair : Fair s s' r

/-- The frames that a primitive leaves: a call of `schedule`, and one behind it. -/
def topFrames (scheduled : Bool) (frame : Option Frame) : List Frame :=
  (if scheduled then [.schedule .zombify] else []) ++ frame.toList

theorem base_topFrames (scheduled : Bool) (frame : Option Frame) {frames : List Frame}
    (hframe : ∀ f ∈ frame, f.isSchedule = false) (h : ∀ f ∈ frames, f.isOuter = true) :
    base (topFrames scheduled frame ++ frames) = frame.toList ++ frames := by
  have hbase : base (frame.toList ++ frames) = frame.toList ++ frames := by
    cases frame with
    | some f => exact base_of_head (hframe f rfl)
    | none =>
        cases frames with
        | nil => rfl
        | cons f rest =>
            have hf := h f (by simp)
            exact base_of_head (by cases f <;> simp_all [Frame.isOuter, Frame.isSchedule])
  cases scheduled with
  | true => exact hbase
  | false => exact hbase

theorem phaseOf_of_outer {frames : List Frame} (h : ∀ f ∈ frames, f.isOuter = true) :
    phaseOf frames = none := by
  cases frames with
  | nil => rfl
  | cons f rest =>
      have hf := h f (by simp)
      cases f <;> simp_all [Frame.isOuter, phaseOf]

theorem phaseOf_topFrames {scheduled : Bool} {frame : Option Frame} {frames : List Frame}
    (hframe : ∀ f ∈ frame, f.isSchedule = false) (h : ∀ f ∈ frames, f.isOuter = true) :
    phaseOf (topFrames scheduled frame ++ frames) =
      if scheduled then some .zombify else none := by
  cases scheduled with
  | true => rfl
  | false =>
      cases frame with
      | none => exact phaseOf_of_outer h
      | some f =>
          have hf := hframe f rfl
          cases f <;> simp_all [Frame.isSchedule, topFrames, phaseOf]

theorem suspended_topFrames (frame : Option Frame) {frames : List Frame}
    (hframe : ∀ f ∈ frame, f.isSchedule = false) (h : ∀ f ∈ frames, f.isOuter = true) :
    Suspended (frame.toList ++ frames) := by
  cases frame with
  | some f => exact .of_outer (hframe f rfl) h
  | none =>
      cases frames with
      | nil => exact suspended_nil
      | cons f rest =>
          have hf := h f (by simp)
          exact .of_outer (by cases f <;> simp_all [Frame.isOuter, Frame.isSchedule])
            fun g hg => h g (List.mem_cons_of_mem _ hg)

namespace Settled

variable {s s' : Kernel} {r : Int}

theorem runningProcess_eq (h : Settled s r) : s.runningProcess = some r := h.core.running

/-- The rule behind every primitive: the tables are right and the frames are those
that a primitive leaves. -/
theorem inv (h : Settled s r) (hcore : Core s'.view r fun _ => False)
    (hcontext : ∀ p, s'.view.state p ≠ .unset →
      (s'.data p).executionContext = [] ∨
      (s.view.state p ≠ .unset ∧ (s'.data p).executionContext = (s.data p).executionContext))
    (scheduled : Bool) (frame : Option Frame)
    (hcontrol : s'.control = topFrames scheduled frame ++ s.control)
    (hframe : ∀ f ∈ frame, f.isSchedule = false)
    (hinit : r = 1 → ∀ f ∈ frame, f.isInit = true)
    (hrunning : scheduled = true ∧ r ≠ 1 ∨ s'.view.state r = .running)
    (halive : s'.view.dead 1 = false) : Inv s' r where
  core := hcore
  executing := by
    rw [hcontrol]
    have hsuspended := suspended_topFrames frame hframe h.outer
    cases scheduled with
    | true => exact hsuspended.schedule.executing
    | false => exact hsuspended.executing
  suspended p hp hused := by
    rcases hcontext p hused with hnil | ⟨hold, heq⟩
    · rw [hnil]
      exact suspended_nil
    · rw [heq]
      exact h.suspended p hp hold
  initFrames := by
    have hr : s'.runningProcess = some r := hcore.running
    have hr' : s.runningProcess = some r := h.core.running
    have hold := h.initFrames
    unfold Kernel.stack at hold ⊢
    rw [hr'] at hold
    rw [hr]
    by_cases hone : r = 1
    · subst hone
      rw [if_pos rfl] at hold ⊢
      rw [hcontrol]
      intro f hf
      rcases List.mem_append.mp hf with hf | hf
      · unfold topFrames at hf
        rcases List.mem_append.mp hf with hf | hf
        · cases scheduled with
          | true =>
              rw [if_pos rfl, List.mem_singleton] at hf
              rw [hf]
              rfl
          | false => simp at hf
        · exact hinit rfl f (by simpa using hf)
      · exact hold f hf
    · have hne : ¬(some r = some (1 : Int)) := fun heq => hone (Option.some.inj heq)
      rw [if_neg hne] at hold ⊢
      have hused : s'.view.state 1 ≠ .unset := by
        intro hunset
        rcases hcore.init with h1 | h1 | h1
        all_goals
          rw [hunset] at h1
          cases h1
      rcases hcontext 1 hused with hnil | ⟨-, heq⟩
      · rw [hnil]
        simp
      · rwa [heq]
  running hphase := by
    rcases hrunning with ⟨hscheduled, hone⟩ | hstate
    · rw [hcontrol, phaseOf_topFrames hframe h.outer, hscheduled] at hphase
      rcases hphase with hphase | hphase
      · simp at hphase
      · exact absurd hphase hone
    · exact hstate
  alive := halive
  zombified hnone hphase := by
    rw [hcontrol, phaseOf_topFrames hframe h.outer] at hnone hphase
    cases scheduled with
    | true => simp at hphase
    | false => simp at hnone
  destroyed hphase := by
    rw [hcontrol, phaseOf_topFrames hframe h.outer] at hphase
    cases scheduled with
    | true => simp at hphase
    | false => simp at hphase

theorem call_eq (h : Settled s r) : s.view.call r = s.control := by
  rw [s.call_running h.runningProcess_eq]
  have hbase := base_topFrames false none (by simp) h.outer
  exact hbase

/-- The frames that a primitive leaves change the call of the running process only. -/
theorem view_top (h : Settled s r) {s₁ : Kernel} (hrunning : s₁.runningProcess = some r)
    (scheduled : Bool) (frame : Option Frame) (eax : Int)
    (hframe : ∀ f ∈ frame, f.isSchedule = false) :
    { s₁ with control := topFrames scheduled frame ++ s.control, eax := eax }.view =
      { s₁.view with call := Function.update s₁.view.call r (frame.toList ++ s.control) } := by
  have hview := { s₁ with eax := eax }.view_control hrunning
    (topFrames scheduled frame ++ s.control)
  rw [base_topFrames scheduled frame hframe h.outer] at hview
  exact hview

/-- The end of a primitive: the tables are right with the frames that it leaves. -/
theorem finish (h : Settled s r) (step : Step) (s₁ : Kernel) (scheduled : Bool)
    (frame : Option Frame) (eax : Int) (hframe : ∀ f ∈ frame, f.isSchedule = false)
    (hcore : Core
      { s₁.view with call := Function.update s₁.view.call r (frame.toList ++ s.control) } r
      fun _ => False)
    (hcontext : ∀ p, s₁.view.state p ≠ .unset →
      (s₁.data p).executionContext = [] ∨
      (s.view.state p ≠ .unset ∧ (s₁.data p).executionContext = (s.data p).executionContext))
    (hinit : r = 1 → ∀ f ∈ frame, f.isInit = true)
    (hrunning : scheduled = true ∧ r ≠ 1 ∨ s₁.view.state r = .running)
    (halive : s₁.view.dead 1 = false)
    (heffect : Effect step r s.view s.log
      { s₁.view with call := Function.update s₁.view.call r (frame.toList ++ s.control) }
      s₁.log)
    (hfair : scheduled = true ∨ (s.view.law r → s₁.view.law r)) :
    After step s { s₁ with control := topFrames scheduled frame ++ s.control, eax := eax }
      r := by
  have hrunningProcess : s₁.runningProcess = some r := hcore.running
  have hview := h.view_top hrunningProcess scheduled frame eax hframe
  constructor
  · refine h.inv ?_ hcontext scheduled frame rfl hframe hinit hrunning halive
    rw [hview]
    exact hcore
  · rw [hview]
    exact heffect
  · rcases hfair with hscheduled | hlaw
    · left
      rw [hscheduled]
      rfl
    · right
      rw [hview]
      exact hlaw

/-- The end of a primitive that does not block: the tables are right before its frames
are put on the stack. -/
theorem after (h : Settled s r) (step : Step) (s₁ : Kernel)
    (hcore : Core s₁.view r fun _ => False)
    (hcontext : ∀ p, s₁.view.state p ≠ .unset →
      (s₁.data p).executionContext = [] ∨
      (s.view.state p ≠ .unset ∧ (s₁.data p).executionContext = (s.data p).executionContext))
    (hblocked : s₁.view.state r ≠ .blockedByChild ∧ s₁.view.state r ≠ .blockedByMessage)
    (scheduled : Bool) (frame : Option Frame) (eax : Int)
    (hframe : ∀ f ∈ frame, f.isSchedule = false ∧ f.isWaitpid = false)
    (hinit : r = 1 → ∀ f ∈ frame, f.isInit = true)
    (hrunning : scheduled = true ∧ r ≠ 1 ∨ s₁.view.state r = .running)
    (halive : s₁.view.dead 1 = false)
    (heffect : Effect step r s.view s.log
      { s₁.view with call := Function.update s₁.view.call r (frame.toList ++ s.control) }
      s₁.log)
    (hfair : scheduled = true ∨ (s.view.law r → s₁.view.law r)) :
    After step s { s₁ with control := topFrames scheduled frame ++ s.control, eax := eax }
      r := by
  have hwaitpid : ∀ f, (frame.toList ++ s.control).head? = some f → f.isWaitpid = false := by
    intro f hf
    cases frame with
    | some g =>
        have hg : g = f := Option.some.inj hf
        rw [← hg]
        exact (hframe g rfl).2
    | none => exact (plain_of_outer h.outer f hf).1
  exact h.finish step s₁ scheduled frame eax (fun f hf => (hframe f hf).1)
    (hcore.setCall hblocked.1 hblocked.2 hwaitpid) hcontext hinit hrunning halive heffect hfair

/-- A frame other than those of `waitpid` and of the calls for messages is plain. -/
theorem plain_top (h : Settled s r) {frame : Option Frame}
    (hframe : ∀ f ∈ frame, f.isWaitpid = false ∧ f.isResume = false) :
    Plain (frame.toList ++ s.control) := by
  cases frame with
  | some f => exact plain_cons (hframe f rfl).1 (hframe f rfl).2 _
  | none => exact plain_of_outer h.outer

/-- The end of a primitive that changes nothing that the invariants see. -/
theorem quiet (h : Settled s r) (step : Step) (s₁ : Kernel) (hview : s₁.view = s.view)
    (hlog : s₁.log = s.log)
    (hcontext : ∀ p, (s₁.data p).executionContext = (s.data p).executionContext)
    (frame : Option Frame) (eax : Int)
    (hframe : ∀ f ∈ frame, f.isSchedule = false ∧ f.isWaitpid = false ∧ f.isResume = false)
    (hinit : r = 1 → ∀ f ∈ frame, f.isInit = true) :
    After step s { s₁ with control := topFrames false frame ++ s.control, eax := eax } r := by
  refine h.after step s₁ (by rw [hview]; exact h.core) ?_ ?_ false frame eax
    (fun f hf => ⟨(hframe f hf).1, (hframe f hf).2.1⟩) hinit (.inr (by rw [hview]; exact h.running))
    (by rw [hview]; exact h.alive) ?_ (.inr fun hlaw => by rwa [hview])
  · intro p hp
    rw [hview] at hp
    exact .inr ⟨hp, hcontext p⟩
  · rw [hview, h.running]
    decide
  · rw [hview, hlog]
    exact .goOn (h.plain_top fun f hf => (hframe f hf).2)

theorem ret (h : Settled s r) {step : Step} (value : Int) : After step s (s.ret value) r :=
  h.quiet step s rfl rfl (fun _ => rfl) none value (by simp) (by simp)

end Settled

end SchlagOS
