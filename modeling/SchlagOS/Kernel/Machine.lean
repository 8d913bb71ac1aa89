import SchlagOS.Foundation.Machine
import SchlagOS.Kernel.Calls

/-!
# The machine

The system calls, the two interrupts and the code that goes on behind a call
of `schedule`, as one machine.  A process in user mode makes a system call or
is interrupted; what the kernel does then is cut into steps at each turn of the
loops of `clean_processes`, and kernel code is not interrupted.  Process 1 runs
`init`, which starts a process and then only halts.
-/

namespace SchlagOS

open Foundation

def checkArg (arg : Int) : Bool := arg = 0 ∨ (0x1000000 ≤ arg ∧ arg ≤ 0x3000000)

inductive Call where
  | start (program : Int) (stackSize : Nat) (priority : Int) (name : UserString)
  | exit (retval : Int)
  | kill (pid : Int)
  | waitpid (pid retvalp : Int)
  | getpid
  | getprio (pid : Int)
  | chprio (pid newprio : Int)
  | waitClock (clock : Nat)
  | currentClock
  | pcount (fid count : Int)
  | pcreate (count : Int)
  | pdelete (fid : Int)
  | preceive (fid message : Int)
  | preset (fid : Int)
  | psend (fid message : Int)
  | consRead (str : Int) (length : Nat)
  | consEcho (on : Bool)
  | consWrite (str size : Int)
  | clockSettings (quartz ticks : Int)
  deriving DecidableEq, Repr

def syscallHandler (mem : Memory) (s : Kernel) : Call → Except Panic Kernel
  | .start program stackSize priority name =>
      if checkArg program = false ∨ checkArg name.address = false then .ok (s.ret (-1))
      else start mem s stackSize priority (some name)
  | .exit retval => exit s retval
  | .kill pid => kill s pid
  | .waitpid pid retvalp =>
      if checkArg retvalp = false then .ok (s.ret (-1))
      else waitpid s pid (.ofPointer retvalp)
  | .getpid => .ok (s.ret s.getpid)
  | .getprio pid => do
      let priority ← getprio s pid
      return s.ret priority
  | .chprio pid newprio => chprio mem s pid newprio
  | .waitClock clock => waitClock s clock
  | .currentClock => .ok (s.ret s.inter)
  | .pcount fid count =>
      if checkArg count = false then .ok (s.ret (-1))
      else .ok (pcount s fid (.ofPointer count))
  | .pcreate count => pcreate mem s count
  | .pdelete fid => pdelete s fid
  | .preceive fid message =>
      if checkArg message = false then .ok (s.ret (-1))
      else preceive mem s fid (.ofPointer message)
  | .preset fid => preset s fid
  | .psend fid message => psend mem s fid message
  | .consRead str length =>
      if checkArg str = false then .ok (s.ret (-1))
      else consRead s str length
  | .consEcho on => .ok ({ s with echoEnabled := on }.ret 0)
  | .consWrite str size =>
      if checkArg str = false then .ok (s.ret (-1))
      else .ok ((consWrite s str size).ret 0)
  | .clockSettings quartz ticks =>
      if checkArg quartz = false ∨ checkArg ticks = false then .ok (s.ret (-1))
      else .ok ((clockSettings s quartz ticks).ret 0)

/-- The handler of the clock interrupt up to its call of `clock_tick`. -/
def ticPit (s : Kernel) : Kernel :=
  let s := { s with inter := (s.inter + 1) % 2 ^ 32, schedulerDelay := s.schedulerDelay + 1 }
  if schedulerPeriod ≤ s.schedulerDelay then
    { s with schedulerDelay := 0 }.callSchedule [.clockTick]
  else { s with control := .clockTick :: s.control }

/-- Run the next frame of the running process. -/
def kernelStep (mem : Memory) (s : Kernel) : Except Panic Kernel :=
  match s.control with
  | [] => .ok s
  | frame :: rest =>
      let s' := { s with control := rest }
      match frame with
      | .schedule phase => scheduleStep mem s phase rest
      | .startReturn pid => .ok (s'.ret (s.data pid).pid)
      | .exitLoop => .ok s
      | .ret value => .ok (s'.ret value)
      | .waitpidAny pid retvalp => waitpidAnyResume s' pid retvalp
      | .waitpidOne pid retvalp => waitpidReap s' pid pid retvalp
      | .psendResume pid => .ok (messageResume s' pid)
      | .preceiveResume pid => .ok (messageResume s' pid)
      | .clockTick => clockTick s'
      | .keyboardData str => keyboardData mem s' str
      | .keyboardSent str => keyboardSent s' str
      | .consRead str length index => consReadNext mem s' str length index
      | .consReceived str length index => consReceived s' str length index

inductive Event where
  | init (stackSize : Nat) (priority : Int)
  | call (call : Call)
  | tick
  | key (str : List Int)
  | kernel
  deriving DecidableEq, Repr

/-- A step: what happens, and what the allocators answer meanwhile. -/
structure Step where
  mem : Memory
  event : Event
  deriving DecidableEq, Repr

/-- Ticks and keys may come in every process.  On the real machine there are fewer of them: process
1 starts one process, and halts with the interrupts masked once it has been switched out. -/
def Event.enabled (s : Kernel) : Event → Prop
  | .init _ _ => s.control = [] ∧ s.getpid = 1
  | .call _ => s.control = [] ∧ s.getpid ≠ 1
  | .tick => s.control = []
  | .key _ => s.control = []
  | .kernel => s.control ≠ []

instance (s : Kernel) : (event : Event) → Decidable (event.enabled s)
  | .init _ _ => inferInstanceAs (Decidable (s.control = [] ∧ s.getpid = 1))
  | .call _ => inferInstanceAs (Decidable (s.control = [] ∧ s.getpid ≠ 1))
  | .tick => inferInstanceAs (Decidable (s.control = []))
  | .key _ => inferInstanceAs (Decidable (s.control = []))
  | .kernel => inferInstanceAs (Decidable (s.control ≠ []))

def Step.enabled (s : Kernel) (step : Step) : Prop := step.event.enabled s

instance (s : Kernel) (step : Step) : Decidable (step.enabled s) :=
  inferInstanceAs (Decidable (step.event.enabled s))

def exec (step : Step) (s : Kernel) : Except Panic Kernel :=
  match step.event with
  | .init stackSize priority => start step.mem s stackSize priority none
  | .call call => syscallHandler step.mem s call
  | .tick => .ok (ticPit s)
  | .key str => .ok { s with control := .keyboardData str :: s.control }
  | .kernel => kernelStep step.mem s

/-- Kernel code is not interrupted. -/
theorem exec_kernel {s : Kernel} {step : Step} (h : step.enabled s) (hcontrol : s.control ≠ []) :
    exec step s = kernelStep step.mem s := by
  obtain ⟨mem, event⟩ := step
  cases event with
  | kernel => rfl
  | init stackSize priority => exact absurd h.1 hcontrol
  | call call => exact absurd h.1 hcontrol
  | tick => exact absurd h hcontrol
  | key str => exact absurd h hcontrol

def machine : Machine Kernel Step Panic where
  enabled := fun s step => step.enabled s
  step := exec

instance (s : Kernel) (step : Step) : Decidable (machine.enabled s step) :=
  inferInstanceAs (Decidable (step.event.enabled s))

/-! ## Booting -/

/-- The state behind `process_table_init` and `message_queues_init`. -/
def powerOn : Kernel where
  data := fun _ => noProcess
  pids := { buffer := fun i => i + 1, consume := 0, produce := LockedRing.locked }
  currentSize := 0
  pidsToZombify := { cells := fun _ => processNotFoundCode, count := 0 }
  pidsToDestroy := { cells := fun _ => processNotFoundCode, count := 0 }
  pidsWaiting := { cells := fun _ => processNotFoundCode, count := 0 }
  runningProcess := none
  processQueue := .empty
  queues := fun _ => emptyMessageQueue
  fids := { buffer := fun i => i, consume := 0, produce := LockedRing.locked }
  nbQueues := 0
  resetReleases := fun _ => false
  inter := 0
  schedulerDelay := 0
  stdinFid := -1
  echoEnabled := false
  kernelBlocks := { next := 0, live := [] }
  userBlocks := { next := 0, live := [] }
  control := []
  eax := 0
  userAccesses := []
  history := []

/-- `kernel_start` up to the body of `init`: the first call of `schedule`
switches to process 1 on the stack that it came from. -/
def kernelStart : Except Panic Kernel := do
  let s ← stdinInit .available powerOn
  let s ← start .available s 8192 1 none
  let s ← kernelStep .available s
  let s ← kernelStep .available s
  let s ← kernelStep .available s
  kernelStep .available s

/-- `s` is reached from `kernel_start` by steps that satisfy `ok`. -/
def Running (ok : Kernel → Step → Prop) (s : Kernel) : Prop :=
  ∃ booted, kernelStart = .ok booted ∧ Reach machine booted ok s

end SchlagOS
