import SchlagOS.Foundation.ArrayStack
import SchlagOS.Foundation.Blocks
import SchlagOS.Foundation.LinkQueue
import SchlagOS.Foundation.LockedRing
import SchlagOS.Foundation.Outcome
import SchlagOS.Foundation.NodeList
import Mathlib.Algebra.GroupWithZero.Nat

/-!
# The state of the kernel

The process table, the ready queue, the message queues and the clock, with the
source's fields.  A process that is switched out is suspended inside a call of
`schedule`; its kernel stack is kept as the list of the frames still to run,
innermost first, and an empty list means that it runs in user mode.

`history` is not a field of the source.  It lists what the calls did, oldest
first, so that statements about whole runs can speak about it.
-/

namespace SchlagOS

open Foundation

def processTableMaxSize : Nat := 512

def nbQueue : Nat := 64

def processNotFoundCode : Int := -1

def processMinPriority : Int := 1

def processMaxPriority : Int := 256

def processNameMaxLength : Nat := 64

def processMinStackSize : Nat := 2048

def userAdditionalStackSize : Nat := 8

def kernelStackSize : Nat := 2048

def messageQueueBufferMaxSize : Int := 536870911

def keyBufferSize : Nat := 512

def schedulerPeriod : Nat := 2

def quartz : Int := 0x1234DD

def clockFreq : Int := 100

def clockPeriod : Int := quartz / clockFreq

/-- Decrement of a 32-bit unsigned counter. -/
def uint32Pred (n : Nat) : Nat := if n = 0 then 2 ^ 32 - 1 else n - 1

inductive ProcessState where
  | unset
  | running
  | waiting
  | blockedByMessage
  | blockedByIo
  | blockedByChild
  | sleeping
  | zombie
  deriving DecidableEq, Repr

/-- The bit of `process_state_enum`; slots of `no_process` hold 0. -/
def ProcessState.code : ProcessState → Nat
  | .unset => 0
  | .running => 1
  | .waiting => 2
  | .blockedByMessage => 4
  | .blockedByIo => 8
  | .blockedByChild => 16
  | .sleeping => 32
  | .zombie => 64

def ProcessState.blocked : Nat :=
  ProcessState.blockedByMessage.code ||| ProcessState.blockedByIo.code |||
    ProcessState.blockedByChild.code

/-- `(state & (WAITING | RUNNING)) == state` -/
def ProcessState.isReady (state : ProcessState) : Bool :=
  state.code &&& (ProcessState.waiting.code ||| ProcessState.running.code) = state.code

/-- `(state & BLOCKED) != 0` -/
def ProcessState.isBlocked (state : ProcessState) : Bool :=
  state.code &&& ProcessState.blocked ≠ 0

/-- Where a call stores a result: nowhere, at a user address, or in the local
variable `receiver` of the `cons_read` that the process is in. -/
inductive Destination where
  | null
  | user (address : Int)
  | receiver (pid : Int)
  deriving DecidableEq, Repr

inductive SchedulePhase where
  | zombify
  | destroy
  | decide
  deriving DecidableEq, Repr

/-- What a suspended kernel call still has to do.  `schedule` is the rest of a
call of `schedule`, in the first or second loop of `clean_processes` or behind
it; the others continue behind a call of `schedule` or `preceive`. -/
inductive Frame where
  | schedule (phase : SchedulePhase)
  | startReturn (pid : Int)
  | exitLoop
  | ret (value : Int)
  | waitpidAny (pid : Int) (retvalp : Destination)
  | waitpidOne (pid : Int) (retvalp : Destination)
  | psendResume (pid : Int)
  | preceiveResume (pid : Int)
  | clockTick
  | keyboardData (str : List Int)
  | keyboardSent (rest : List Int)
  | consRead (str : Int) (length index : Nat)
  | consReceived (str : Int) (length index : Nat)
  deriving DecidableEq, Repr

structure Process where
  pid : Int
  fatherPid : Int
  childsPids : List Int
  state : ProcessState
  priority : Int
  userStack : Option Nat
  kernelStack : Option Nat
  userStackSize : Nat
  executionContext : List Frame
  returnCode : Int
  waitingCode : Int
  deallocated : Bool
  sleepTime : Nat
  sealed : Bool
  receiver : Int
  deriving DecidableEq, Repr

def noProcess : Process where
  pid := processNotFoundCode
  fatherPid := 0
  childsPids := []
  state := .unset
  priority := 0
  userStack := none
  kernelStack := none
  userStackSize := 0
  executionContext := []
  returnCode := -1
  waitingCode := 0
  deallocated := false
  sleepTime := 0
  sealed := false
  receiver := 0

structure ProcessNodeContent where
  pid : Int
  message : Int
  destination : Destination
  priority : Int
  deriving DecidableEq, Repr

/-- `allocated` stands for `buffer != NULL`. -/
structure MessageQueue where
  allocated : Bool
  ring : LockedRing Int
  nbMessages : Nat
  size : Nat
  lockedProcesses : NodeList ProcessNodeContent

def emptyMessageQueue : MessageQueue where
  allocated := false
  ring := { buffer := fun _ => 0, consume := 0, produce := 0 }
  nbMessages := 0
  size := 0
  lockedProcesses := .empty

/-- What the kernel does at an address that a user process passed to it. -/
inductive UserAccess where
  | readByte (address : Int)
  | writeByte (address value : Int)
  | writeWord (address value : Int)
  deriving DecidableEq, Repr

/-- A string passed to `start`, with the number of characters in front of its NUL. -/
structure UserString where
  address : Int
  length : Nat
  deriving DecidableEq, Repr

inductive HistoryEvent where
  | started (father child : Int)
  | notStarted (pid : Int)
  | terminated (pid value : Int)
  | waits (father request : Int)
  | reaped (father request child value : Int)
  | noChild (father request : Int)
  | created (fid : Int) (size : Nat)
  | notCreated (fid : Int)
  | buffered (pid fid message : Int)
  | handed (pid receiver fid message : Int)
  | blockedSender (pid fid message : Int)
  | taken (pid sender fid message : Int)
  | received (pid fid message : Int)
  | blockedReceiver (pid fid : Int)
  | queueReset (fid : Int)
  | deleted (fid : Int)
  | awoken (pid : Int) (state : ProcessState)
  | resumed (pid value : Int)
  | zombified (pid : Int)
  | destroyed (pid : Int)
  deriving DecidableEq, Repr

structure Kernel where
  data : Int → Process
  pids : LockedRing Int
  currentSize : Nat
  pidsToZombify : ArrayStack Int
  pidsToDestroy : ArrayStack Int
  pidsWaiting : ArrayStack Int
  runningProcess : Option Int
  processQueue : LinkQueue Int
  queues : Int → MessageQueue
  fids : LockedRing Int
  nbQueues : Nat
  resetReleases : Int → Bool
  inter : Nat
  schedulerDelay : Nat
  stdinFid : Int
  echoEnabled : Bool
  kernelBlocks : Blocks
  userBlocks : Blocks
  control : List Frame
  eax : Int
  userAccesses : List UserAccess
  history : List HistoryEvent

/-- The assertions of the sources, and the reads and writes they would let go
wrong without a message. -/
inductive Panic where
  | getProcess
  | childNode
  | removeHead
  | processTableRegister
  | processTableUnregister
  | deallocate
  | zombifyInit
  | zombifyState
  | destroyInit
  | destroyState
  | destroyStacks
  | requestZombify
  | requestDestroy
  | queueAdd
  | queueDel
  | startUser
  | startInit
  | waitpid
  | processNode
  | messageQueueRegister
  | messageQueueUnregister
  | messageQueueTableRegister
  | messageQueueTableUnregister
  | lockedProcesses
  | stdinInit
  | keyboardPcount
  | keyboardPsend
  | consReadLength
  | consReadPreceive
  | memBug
  | nullDereference
  | outOfBounds
  deriving DecidableEq, Repr

/-- What the allocators answer during one step, by call site. -/
structure Memory where
  kernelStack : Bool
  userStack : Bool
  childNode : Bool
  messageBuffer : Bool
  lockedProcesses : Bool
  processNode : Bool
  deriving DecidableEq, Repr

def Memory.available : Memory := ⟨true, true, true, true, true, true⟩

namespace Kernel

def update (s : Kernel) (pid : Int) (f : Process → Process) : Kernel :=
  { s with data := Function.update s.data pid (f (s.data pid)) }

def record (s : Kernel) (event : HistoryEvent) : Kernel :=
  { s with history := s.history ++ [event] }

/-- The slot `running_process` points at; every caller runs in a process. -/
def running (s : Kernel) : Process :=
  match s.runningProcess with
  | some r => s.data r
  | none => noProcess

def getpid (s : Kernel) : Int :=
  match s.runningProcess with
  | some r => (s.data r).pid
  | none => processNotFoundCode

/-- Hand a value back to the caller, which is the next frame. -/
def ret (s : Kernel) (value : Int) : Kernel := { s with eax := value }

/-- Call `schedule` and go on with `frames` behind it. -/
def callSchedule (s : Kernel) (frames : List Frame) : Kernel :=
  { s with control := .schedule .zombify :: (frames ++ s.control) }

def store (s : Kernel) (destination : Destination) (value : Int) : Kernel :=
  match destination with
  | .null => s
  | .user address => { s with userAccesses := s.userAccesses ++ [.writeWord address value] }
  | .receiver pid => s.update pid fun p => { p with receiver := value }

/-- Read `length` bytes of a user process. -/
def readBytes (s : Kernel) (address : Int) (length : Nat) : Kernel :=
  { s with
    userAccesses := s.userAccesses ++
      (List.range length).map fun i : Nat => .readByte (address + i) }

/-- Copy the name of a process; the names of the kernel's own processes are literals. -/
def readName (s : Kernel) (name : Option UserString) : Kernel :=
  match name with
  | some name => s.readBytes name.address (min (name.length + 1) processNameMaxLength)
  | none => s

/-- The pids in the ready queue, in the order in which `next` leads to them:
the one to run first comes last. -/
def ready (s : Kernel) : List Int := s.processQueue.toList (processTableMaxSize + 1)

/-- The waiting list of a message queue, the one to release first first. -/
def waiters (s : Kernel) (fid : Int) : List ProcessNodeContent :=
  (s.queues fid).lockedProcesses.toList

/-- The buffered messages of a queue, oldest first. -/
def messages (s : Kernel) (fid : Int) : List Int :=
  (s.queues fid).ring.toList (s.queues fid).size (s.queues fid).nbMessages

/-- The pids not in use, the one to hand out first first. -/
def freePids (s : Kernel) : List Int :=
  s.pids.toList processTableMaxSize (processTableMaxSize - s.currentSize)

end Kernel

def getProcess (s : Kernel) (pid : Int) : Except Panic Process := do
  require (0 < pid ∧ pid ≤ processTableMaxSize) .getProcess
  return s.data pid

/-! ## The macros of queue.h on the ready queue -/

def queueAdd (s : Kernel) (pid : Int) : Except Panic Kernel := do
  let processQueue ← demand
    (s.processQueue.add (fun i => decide ((s.data i).priority < (s.data pid).priority))
      (processTableMaxSize + 1) pid) .queueAdd
  return { s with processQueue := processQueue }

def queueDel (s : Kernel) (pid : Int) : Except Panic Kernel := do
  let processQueue ← demand (s.processQueue.del pid) .queueDel
  return { s with processQueue := processQueue }

def queueTop (s : Kernel) : Option Int := s.processQueue.top

def queueOut (s : Kernel) : Option Int × Kernel :=
  (s.processQueue.out.1, { s with processQueue := s.processQueue.out.2 })

end SchlagOS
