import SchlagOS.Kernel.Calls
import SchlagOS.Invariant.Stack

/-!
# What the invariants see of a state

The fields of the process table that the invariants are about, one function
each, so that a change of one field leaves the others as they are.  The call
that a process is in is read off its kernel stack.
-/

namespace SchlagOS

open Foundation

structure View where
  state : Int → ProcessState
  pid : Int → Int
  father : Int → Int
  childs : Int → List Int
  priority : Int → Int
  dead : Int → Bool
  isSealed : Int → Bool
  code : Int → Int
  call : Int → List Frame
  running : Option Int
  pids : LockedRing Int
  currentSize : Nat
  toZombify : List Int
  toDestroy : List Int
  sleeping : List Int
  processQueue : LinkQueue Int
  queues : Int → MessageQueue
  fids : LockedRing Int
  nbQueues : Nat

/-- The pids not in use, the one to hand out first first. -/
def View.freePids (v : View) : List Int :=
  v.pids.toList processTableMaxSize (processTableMaxSize - v.currentSize)

/-- The identifiers of queues not in use, in the same order. -/
def View.freeFids (v : View) : List Int := v.fids.toList nbQueue (nbQueue - v.nbQueues)

namespace Kernel

/-- The frames that a process still has to run. -/
def stack (s : Kernel) (p : Int) : List Frame :=
  if s.runningProcess = some p then s.control else (s.data p).executionContext

def view (s : Kernel) : View where
  state := fun p => (s.data p).state
  pid := fun p => (s.data p).pid
  father := fun p => (s.data p).fatherPid
  childs := fun p => (s.data p).childsPids
  priority := fun p => (s.data p).priority
  dead := fun p => (s.data p).deallocated
  isSealed := fun p => (s.data p).sealed
  code := fun p => (s.data p).waitingCode
  call := fun p => base (s.stack p)
  running := s.runningProcess
  pids := s.pids
  currentSize := s.currentSize
  toZombify := s.pidsToZombify.entries
  toDestroy := s.pidsToDestroy.entries
  sleeping := s.pidsWaiting.entries
  processQueue := s.processQueue
  queues := s.queues
  fids := s.fids
  nbQueues := s.nbQueues

variable (s : Kernel) (p : Int)

theorem data_update (f : Process → Process) (x : Int) :
    (s.update p f).data x = if x = p then f (s.data p) else s.data x := by
  unfold update
  exact Function.update_apply s.data p (f (s.data p)) x

private theorem field_eq {β : Type*} (field : Process → β) (f : Process → Process) :
    (fun x => field ((s.update p f).data x)) =
      Function.update (fun x => field (s.data x)) p (field (f (s.data p))) :=
  field_update field s.data p (f (s.data p))

/-- The view of a state but for the calls. -/
theorem view_fields (f : Process → Process) (call : Int → List Frame) :
    { (s.update p f).view with call := call } =
      { s.view with
        state := Function.update s.view.state p (f (s.data p)).state
        pid := Function.update s.view.pid p (f (s.data p)).pid
        father := Function.update s.view.father p (f (s.data p)).fatherPid
        childs := Function.update s.view.childs p (f (s.data p)).childsPids
        priority := Function.update s.view.priority p (f (s.data p)).priority
        dead := Function.update s.view.dead p (f (s.data p)).deallocated
        isSealed := Function.update s.view.isSealed p (f (s.data p)).sealed
        code := Function.update s.view.code p (f (s.data p)).waitingCode
        call := call } := by
  unfold view
  dsimp only
  rw [field_eq s p Process.state, field_eq s p Process.pid,
    field_eq s p Process.fatherPid, field_eq s p Process.childsPids,
    field_eq s p Process.priority, field_eq s p Process.deallocated,
    field_eq s p Process.sealed, field_eq s p Process.waitingCode]
  rfl

/-- A write to the slot of a process. -/
theorem view_update (f : Process → Process)
    (hcontext : (f (s.data p)).executionContext = (s.data p).executionContext) :
    (s.update p f).view =
      { s.view with
        state := Function.update s.view.state p (f (s.data p)).state
        pid := Function.update s.view.pid p (f (s.data p)).pid
        father := Function.update s.view.father p (f (s.data p)).fatherPid
        childs := Function.update s.view.childs p (f (s.data p)).childsPids
        priority := Function.update s.view.priority p (f (s.data p)).priority
        dead := Function.update s.view.dead p (f (s.data p)).deallocated
        isSealed := Function.update s.view.isSealed p (f (s.data p)).sealed
        code := Function.update s.view.code p (f (s.data p)).waitingCode } := by
  have hcall : (s.update p f).view.call = s.view.call := by
    funext x
    unfold view stack
    dsimp only
    rw [data_update]
    by_cases hx : x = p
    · subst hx
      rw [if_pos rfl, hcontext]
      rfl
    · rw [if_neg hx]
      rfl
  have hfields := view_fields s p f s.view.call
  rw [← hfields, ← hcall]

/-- A write to the slot of a process that does not run, its stack included. -/
theorem view_update_other (f : Process → Process) (hp : s.runningProcess ≠ some p) :
    (s.update p f).view =
      { s.view with
        state := Function.update s.view.state p (f (s.data p)).state
        pid := Function.update s.view.pid p (f (s.data p)).pid
        father := Function.update s.view.father p (f (s.data p)).fatherPid
        childs := Function.update s.view.childs p (f (s.data p)).childsPids
        priority := Function.update s.view.priority p (f (s.data p)).priority
        dead := Function.update s.view.dead p (f (s.data p)).deallocated
        isSealed := Function.update s.view.isSealed p (f (s.data p)).sealed
        code := Function.update s.view.code p (f (s.data p)).waitingCode
        call := Function.update s.view.call p (base (f (s.data p)).executionContext) } := by
  have hcall : (s.update p f).view.call =
      Function.update s.view.call p (base (f (s.data p)).executionContext) := by
    funext x
    by_cases hx : x = p
    · subst hx
      have hp' : (s.update x f).runningProcess ≠ some x := hp
      rw [Function.update_self]
      unfold view stack
      dsimp only
      rw [if_neg hp', data_update, if_pos rfl]
    · rw [Function.update_of_ne hx]
      unfold view stack
      dsimp only
      rw [data_update, if_neg hx]
      rfl
  rw [← view_fields, ← hcall]

@[simp] theorem update_state_self :
    Function.update s.view.state p (s.data p).state = s.view.state :=
  Function.update_eq_self p s.view.state

@[simp] theorem update_pid_self :
    Function.update s.view.pid p (s.data p).pid = s.view.pid :=
  Function.update_eq_self p s.view.pid

@[simp] theorem update_father_self :
    Function.update s.view.father p (s.data p).fatherPid = s.view.father :=
  Function.update_eq_self p s.view.father

@[simp] theorem update_childs_self :
    Function.update s.view.childs p (s.data p).childsPids = s.view.childs :=
  Function.update_eq_self p s.view.childs

@[simp] theorem update_priority_self :
    Function.update s.view.priority p (s.data p).priority = s.view.priority :=
  Function.update_eq_self p s.view.priority

@[simp] theorem update_dead_self :
    Function.update s.view.dead p (s.data p).deallocated = s.view.dead :=
  Function.update_eq_self p s.view.dead

@[simp] theorem update_sealed_self :
    Function.update s.view.isSealed p (s.data p).sealed = s.view.isSealed :=
  Function.update_eq_self p s.view.isSealed

@[simp] theorem update_code_self :
    Function.update s.view.code p (s.data p).waitingCode = s.view.code :=
  Function.update_eq_self p s.view.code

/-! ## Changes that the invariants do not see -/

@[simp] theorem view_record (event : HistoryEvent) : (s.record event).view = s.view := rfl

@[simp] theorem view_ret (value : Int) : (s.ret value).view = s.view := rfl

/-- A write to fields that the view leaves out. -/
theorem view_update_hidden (f : Process → Process)
    (hstate : (f (s.data p)).state = (s.data p).state)
    (hpid : (f (s.data p)).pid = (s.data p).pid)
    (hfather : (f (s.data p)).fatherPid = (s.data p).fatherPid)
    (hchilds : (f (s.data p)).childsPids = (s.data p).childsPids)
    (hpriority : (f (s.data p)).priority = (s.data p).priority)
    (hdead : (f (s.data p)).deallocated = (s.data p).deallocated)
    (hsealed : (f (s.data p)).sealed = (s.data p).sealed)
    (hcode : (f (s.data p)).waitingCode = (s.data p).waitingCode)
    (hcontext : (f (s.data p)).executionContext = (s.data p).executionContext) :
    (s.update p f).view = s.view := by
  rw [view_update s p f hcontext, hstate, hpid, hfather, hchilds, hpriority, hdead, hsealed,
    hcode]
  simp

theorem view_store (destination : Destination) (value : Int) :
    (s.store destination value).view = s.view := by
  cases destination with
  | null => rfl
  | user address => rfl
  | receiver pid =>
      exact s.view_update_hidden pid (fun p => { p with receiver := value }) rfl rfl rfl rfl
        rfl rfl rfl rfl rfl

/-! ## The stack of the running process -/

theorem view_control {r : Int} (hr : s.runningProcess = some r) (frames : List Frame) :
    { s with control := frames }.view =
      { s.view with call := Function.update s.view.call r (base frames) } := by
  have hcall : (fun x => base ({ s with control := frames }.stack x)) =
      Function.update s.view.call r (base frames) := by
    funext x
    by_cases hx : x = r
    · subst hx
      rw [Function.update_self]
      unfold stack
      rw [if_pos hr]
    · rw [Function.update_of_ne hx]
      have hne : s.runningProcess ≠ some x := by
        rw [hr]
        exact fun heq => hx (Option.some.inj heq).symm
      unfold view stack
      dsimp only
      rw [if_neg hne, if_neg hne]
  unfold view
  rw [hcall]
  rfl

theorem call_running {r : Int} (hr : s.runningProcess = some r) :
    s.view.call r = base s.control := by
  unfold view stack
  dsimp only
  rw [if_pos hr]

end Kernel

end SchlagOS
