import SchlagOS.Kernel.Machine
import SchlagOS.Print.Printf
import SchlagOS.System.TimeOfDay

/-!
# The system

The kernel together with the screen and the time of day.  A step of the kernel
writes to the screen where the source does: `cons_write` and the echo of
`cons_read` at the cursor, and `tic_PIT` the clock in the corner.  The bytes
that `cons_write` finds in the memory of the process come with the step.

`tic_PIT` prints the clock behind its call of `clock_tick`, which may call
`schedule`: the process is then switched out with the clock still to print.
-/

namespace SchlagOS

open Foundation

/-- `behind` holds of the processes that are in `tic_PIT`, behind the call of `clock_tick` or
inside it, and have not printed the clock yet. -/
structure System where
  kernel : Kernel
  time : TimeOfDay
  console : Console
  behind : Int → Bool

inductive SystemPanic where
  | kernel (p : Panic)
  | print (f : Print.Fault)
  | console (p : ConsolePanic)
  deriving DecidableEq, Repr

/-! ## Output -/

def print (format : List Nat) (args : List Print.Arg) (k : Console) :
    Except SystemPanic Console := do
  let calls ← (Print.printf format args).mapError SystemPanic.print
  (putChunks calls k).mapError .console

/-- `echo` of kbd.c; the formats are `\n`, `%c` and `^%c`. -/
def echo (c : Nat) (k : Console) : Except SystemPanic Console :=
  if c = 13 then print [10] [] k
  else if c = 9 ∨ 32 ≤ c ∧ c ≤ 127 then print [37, 99] [.word c] k
  else if c < 32 then print [94, 37, 99] [.word (64 + c)] k
  else .ok k

/-- The character that a turn of the loop of `cons_read` echoes, if there is one. -/
def echoed (s : Kernel) : Option Nat :=
  match s.control with
  | .consReceived _ _ index :: _ =>
      let c := (s.running.receiver % 256).toNat
      if c = 127 ∧ index = 0 ∨ 127 < c then none else some c
  | .consRead _ length index :: _ => if index < length then none else some 13
  | _ => none

/-- The process that runs calls `clock_tick`. -/
def callsClockTick (s : Kernel) (event : Event) : Bool :=
  decide (event = .kernel ∧ s.control.head? = some .clockTick)

/-- The processes with the clock to print when the kernel has got to `s`; the rest of `tic_PIT`
goes with the stack of a process that is destroyed. -/
def System.late (sys : System) (event : Event) (s : Kernel) (p : Int) : Bool :=
  let tick := callsClockTick sys.kernel event && decide (sys.kernel.runningProcess = some p)
  (sys.behind p || tick) && decide ((s.data p).pid = p)

/-- The step is one of a call of `clock_tick` or of `schedule`. -/
def handlesTick (s : Kernel) (event : Event) : Bool :=
  match event, s.control with
  | .kernel, .clockTick :: _ => true
  | .kernel, .schedule _ :: _ => true
  | _, _ => false

/-- The call has returned to a `tic_PIT`, which prints the clock. -/
def System.prints (sys : System) (event : Event) (s : Kernel) : Bool :=
  handlesTick sys.kernel event &&
    (decide (s.control = []) && s.runningProcess.any (sys.late event s))

/-- The screen behind a step that leads the kernel to `s`. -/
def display (sys : System) (event : Event) (s : Kernel) (text : List Nat) :
    Except SystemPanic Console :=
  if sys.prints event s then do
    let text ← sys.time.text.mapError SystemPanic.print
    (printTopRight text sys.console).mapError .console
  else
    match event with
    | .call (.consWrite str _) =>
        if checkArg str then (consolePutbytes text sys.console).mapError .console
        else .ok sys.console
    | .kernel =>
        match echoed sys.kernel with
        | some c => if sys.kernel.echoEnabled then echo c sys.console else .ok sys.console
        | none => .ok sys.console
    | _ => .ok sys.console

/-! ## Runs -/

/-- A step of the kernel, and the bytes that it prints if it is a `cons_write`. -/
structure SystemStep where
  step : Step
  text : List Nat
  deriving DecidableEq, Repr

def SystemStep.enabled (sys : System) (l : SystemStep) : Prop :=
  l.step.enabled sys.kernel ∧
    ∀ str size, l.step.event = .call (.consWrite str size) → l.text.length = size.toNat

def System.after (sys : System) (event : Event) (s : Kernel) (console : Console) : System where
  kernel := s
  time := if event = .tick then sys.time.tick else sys.time
  console := console
  behind := fun p =>
    sys.late event s p && !(sys.prints event s && decide (s.runningProcess = some p))

def systemExec (l : SystemStep) (sys : System) : Except SystemPanic System := do
  let kernel ← (exec l.step sys.kernel).mapError SystemPanic.kernel
  let console ← display sys l.step.event kernel l.text
  return sys.after l.step.event kernel console

def systemMachine : Machine System SystemStep SystemPanic where
  enabled := SystemStep.enabled
  step := systemExec

/-- What `kernel_start` prints behind a form feed. -/
@[irreducible] def bannerText : List Nat :=
  ["   _____      __    __            ____  _____",
    "  / ___/_____/ /_  / /___ _____ _/ __ \\/ ___/",
    "  \\__ \\/ ___/ __ \\/ / __ `/ __ `/ / / /\\__ \\ ",
    " ___/ / /__/ / / / / /_/ / /_/ / /_/ /___/ / ",
    "/____/\\___/_/ /_/_/\\__,_/\\__, /\\____//____/  ",
    "                        /____/"].flatMap fun row => row.toList.map Char.toNat ++ [10]

def banner : List Nat := 12 :: bannerText

/-- The system behind `kernel_start`. -/
def systemStart (screen : Nat → Nat → Cell) : Except SystemPanic System := do
  let console ← print banner [] (initialConsole screen)
  let kernel ← kernelStart.mapError SystemPanic.kernel
  return { kernel := kernel, time := .midnight, console := console, behind := fun _ => false }

end SchlagOS
