import SchlagOS.Kernel.WaitingLists

/-!
# The process table

process.c up to the primitives: the pid ring, the end of a process in its two
stages `zombify` and `destroy`, the clean-up of the pending lists, and the
scheduler.  `schedule` and the two loops of `clean_processes` call each other;
they are cut into the frames that `Frame.schedule` names, one turn of a loop a
step.
-/

namespace SchlagOS

open Foundation

/-! ## The pid ring -/

def processTableRegister (s : Kernel) : Except Panic (Int × Kernel) := do
  let (pid, pids) ← demand (s.pids.pop processTableMaxSize) .processTableRegister
  return (pid, { s with pids := pids, currentSize := s.currentSize + 1 })

def processTableUnregister (s : Kernel) (pid : Int) : Except Panic Kernel := do
  let pids ← demand (s.pids.push processTableMaxSize pid) .processTableUnregister
  return { s with pids := pids, currentSize := uint32Pred s.currentSize }

/-! ## Child lists -/

/-- `mem_free` clears the block it is given, so this is what a read of the
`pid` of a freed list node yields. -/
def freedPid : Int := 0

def processChildListAddHead (mem : Memory) (s : Kernel) (owner pid : Int) :
    Except Panic Kernel := do
  require (mem.childNode = true) .childNode
  return s.update owner fun p => { p with childsPids := pid :: p.childsPids }

def processChildListRemove (s : Kernel) (owner pid : Int) : Kernel :=
  s.update owner fun p => { p with childsPids := p.childsPids.erase pid }

/-! ## Requests -/

def pushPending (stack : ArrayStack Int) (pid : Int) : Except Panic (ArrayStack Int) := do
  require (stack.count < processTableMaxSize) .outOfBounds
  return stack.push pid

def requestZombify (s : Kernel) (pid : Int) : Except Panic Kernel := do
  let process ← getProcess s pid
  require (process.state ≠ .zombie) .requestZombify
  let pidsToZombify ← pushPending s.pidsToZombify pid
  let s := { s with pidsToZombify := pidsToZombify }
  let s ←
    if pid ≠ s.getpid ∧ process.state.isReady then queueDel s pid
    else pure s
  let s ← messageQueuesNotifyProcessusKilled s pid
  return s.update pid fun p => { p with state := .zombie }

def requestDestroy (s : Kernel) (pid : Int) : Except Panic Kernel := do
  let process ← getProcess s pid
  require (process.sealed = false) .requestDestroy
  let s := s.update pid fun p => { p with sealed := true }
  let pidsToDestroy ← pushPending s.pidsToDestroy pid
  let s := { s with pidsToDestroy := pidsToDestroy }
  if process.state ≠ .zombie then
    let s ← if pid ≠ s.getpid then queueDel s pid else pure s
    messageQueuesNotifyProcessusKilled s pid
  else return s

/-! ## The end of a process -/

def userStackFree (s : Kernel) (stack : Option Nat) (size : Nat) : Except Panic Kernel :=
  if size = 0 then .ok s
  else do
    let address ← demand stack .memBug
    let userBlocks ← demand (s.userBlocks.release address size) .memBug
    return { s with userBlocks := userBlocks }

def kernelStackFree (s : Kernel) (stack : Option Nat) : Except Panic Kernel := do
  let address ← demand stack .memBug
  let kernelBlocks ← demand (s.kernelBlocks.release address kernelStackSize) .memBug
  return { s with kernelBlocks := kernelBlocks }

def deallocate (s : Kernel) (pid : Int) : Except Panic Kernel := do
  let process := s.data pid
  require (process.deallocated = false) .deallocate
  let s ←
    if process.pid ≠ 1 then do
      let s ← userStackFree s process.userStack process.userStackSize
      pure (s.update pid fun p => { p with userStack := none, userStackSize := 0 })
    else pure s
  let s ← kernelStackFree s process.kernelStack
  return s.update pid fun p => { p with kernelStack := none, deallocated := true }

/-- The loop of `zombify` over the children: a dead child is destroyed, another
one is given to init.  The pid entered into init's list is read from the node
that was just freed. -/
def zombifyChildren (mem : Memory) (pid : Int) :
    List Int → Kernel → Except Panic Kernel
  | [], s => .ok s
  | c :: rest, s => do
      let child ← getProcess s c
      let s ←
        if child.deallocated then requestDestroy s child.pid
        else do
          let s := processChildListRemove s pid c
          let s := s.update c fun p => { p with fatherPid := 1 }
          processChildListAddHead mem s 1 freedPid
      zombifyChildren mem pid rest s

/-- Wake the father if he waits for this child, and tell him which one died. -/
def wakeFather (s : Kernel) (pid father : Int) : Except Panic Kernel :=
  let process := s.data pid
  let fatherProcess := s.data father
  if fatherProcess.state = .blockedByChild ∧ process.sealed = false ∧
      (fatherProcess.waitingCode < 0 ∨ fatherProcess.waitingCode = process.pid) then
    queueAdd (s.update father fun p =>
      { p with waitingCode := process.pid, state := .waiting }) father
  else .ok s

/-- `zombify` up to its call of `schedule`. -/
def zombify (mem : Memory) (s : Kernel) (pid : Int) : Except Panic Kernel := do
  require (pid ≠ 1) .zombifyInit
  let process ← getProcess s pid
  require (process.state = .zombie ∧ s.runningProcess ≠ some pid) .zombifyState
  let father := process.fatherPid
  let _ ← getProcess s father
  let s ← deallocate s pid
  let s ← zombifyChildren mem pid process.childsPids s
  let s ← wakeFather s pid father
  let s ←
    if (s.data pid).sealed = false ∧
        ((s.data father).state = .zombie ∨ (s.data father).pid = 1) then
      requestDestroy s pid
    else pure s
  return s.record (.zombified pid)

def destroyChildren (mem : Memory) (pid : Int) :
    List Int → Kernel → Except Panic Kernel
  | [], s => .ok s
  | c :: rest, s => do
      let s := s.update pid fun p => { p with childsPids := rest }
      let child ← getProcess s c
      let s ←
        if child.deallocated then requestDestroy s child.pid
        else do
          let s := s.update c fun p => { p with fatherPid := 1 }
          processChildListAddHead mem s 1 pid
      destroyChildren mem pid rest s

def destroy (mem : Memory) (s : Kernel) (pid : Int) : Except Panic Kernel := do
  require (pid ≠ 1) .destroyInit
  let process ← getProcess s pid
  require (process.state ≠ .running ∧ s.runningProcess ≠ some pid) .destroyState
  let _ ← getProcess s process.fatherPid
  let s := processChildListRemove s process.fatherPid pid
  let s ← destroyChildren mem pid (s.data pid).childsPids s
  let s ← processTableUnregister s pid
  let s ←
    if (s.data pid).deallocated = false then deallocate s pid
    else do
      require ((s.data pid).userStack = none ∧ (s.data pid).userStackSize = 0 ∧
        (s.data pid).kernelStack = none) .destroyStacks
      pure s
  let s := s.update pid fun _ => noProcess
  let s := { s with processQueue := s.processQueue.clear pid }
  return s.record (.destroyed pid)

/-! ## Cleaning up and scheduling -/

/-- The head of both loops of `clean_processes`: the last pending pid, unless
it is the running process, which changes places with the first one. -/
def takePending (stack : ArrayStack Int) (runningPid : Option Int) :
    Option (Int × ArrayStack Int) :=
  if stack.count = 0 then none
  else
    let pid := stack.cells (stack.count - 1)
    if runningPid = some pid then
      if stack.count = 1 then none
      else
        let stack := stack.swapEnds
        some (stack.cells (stack.count - 1), stack.shrink processNotFoundCode)
    else some (pid, stack.shrink processNotFoundCode)

/-- The pid of the running process, if there is one. -/
def runningPid (s : Kernel) : Option Int :=
  s.runningProcess.map fun r => (s.data r).pid

/-- Suspend `old` with its remaining frames and resume `new` with its own. -/
def contextSwitch (s : Kernel) (old new : Int) : Kernel :=
  let frames := s.control
  let s := s.update old fun p => { p with executionContext := frames }
  { s with control := (s.data new).executionContext }

def processSwitch (s : Kernel) (old new : Int) : Except Panic Kernel := do
  let s := s.update new fun p => { p with state := .running }
  let s := { s with runningProcess := some new }
  let s ←
    if (s.data old).state = .running then
      queueAdd (s.update old fun p => { p with state := .waiting }) old
    else pure s
  return contextSwitch s old new

/-- What `schedule` does behind `clean_processes`. -/
def scheduleDecide (s : Kernel) : Except Panic Kernel :=
  let candidate :=
    match s.runningProcess with
    | some old =>
        if (s.data old).pid ≠ 1 ∧ processTableMaxSize ≤ s.currentSize then some 1
        else queueTop s
    | none => queueTop s
  match s.runningProcess, candidate with
  | none, _ => do
      let (first, s) := queueOut s
      let first ← demand first .nullDereference
      let s := s.update first fun p => { p with state := .running }
      let s := { s with runningProcess := some first }
      return contextSwitch s first first
  | some _, none => .ok s
  | some old, some candidate =>
      if (s.data old).pid = (s.data candidate).pid ∨
          ((s.data old).state = .running ∧
            (s.data candidate).priority < (s.data old).priority) then .ok s
      else do
        let (new, s) := queueOut s
        let new ← demand new .nullDereference
        processSwitch s old new

/-- One step of a call of `schedule`, in front of the frames `rest`. -/
def scheduleStep (mem : Memory) (s : Kernel) (phase : SchedulePhase)
    (rest : List Frame) : Except Panic Kernel :=
  match phase with
  | .zombify =>
      match takePending s.pidsToZombify (runningPid s) with
      | some (pid, stack) => do
          let s ← zombify mem { s with pidsToZombify := stack } pid
          return s.callSchedule []
      | none => .ok { s with control := .schedule .destroy :: rest }
  | .destroy =>
      match takePending s.pidsToDestroy (runningPid s) with
      | some (pid, stack) => destroy mem { s with pidsToDestroy := stack } pid
      | none => .ok { s with control := .schedule .decide :: rest }
  | .decide => scheduleDecide { s with control := rest }

section Turns

variable {mem : Memory} {s : Kernel} {rest : List Frame} {good : Kernel → Prop}
  {bad : Panic → Prop}

/-- A turn of the first loop of `clean_processes`. -/
theorem zombifyTurn_meets
    (hturn : ∀ pid stack, takePending s.pidsToZombify (runningPid s) = some (pid, stack) →
      Meets (zombify mem { s with pidsToZombify := stack } pid)
        (fun s' => good (s'.callSchedule [])) bad)
    (hend : takePending s.pidsToZombify (runningPid s) = none →
      good { s with control := .schedule .destroy :: rest }) :
    Meets (scheduleStep mem s .zombify rest) good bad := by
  unfold scheduleStep
  cases htake : takePending s.pidsToZombify (runningPid s) with
  | none => exact hend htake
  | some taken =>
      dsimp only
      rw [meets_bind]
      exact hturn taken.1 taken.2 htake

/-- A turn of its second loop. -/
theorem destroyTurn_meets
    (hturn : ∀ pid stack, takePending s.pidsToDestroy (runningPid s) = some (pid, stack) →
      Meets (destroy mem { s with pidsToDestroy := stack } pid) good bad)
    (hend : takePending s.pidsToDestroy (runningPid s) = none →
      good { s with control := .schedule .decide :: rest }) :
    Meets (scheduleStep mem s .destroy rest) good bad := by
  unfold scheduleStep
  cases htake : takePending s.pidsToDestroy (runningPid s) with
  | none => exact hend htake
  | some taken => exact hturn taken.1 taken.2 htake

/-- The running process goes on, or another one is switched in. -/
theorem scheduleDecide_running {old : Int} (hrunning : s.runningProcess = some old)
    (hstay : good s)
    (hswitch : ∀ new, (queueOut s).1 = some new →
      Meets (processSwitch (queueOut s).2 old new) good bad)
    (hnull : (queueOut s).1 = none → bad .nullDereference) :
    Meets (scheduleDecide s) good bad := by
  unfold scheduleDecide
  rw [hrunning]
  dsimp only
  generalize (if (s.data old).pid ≠ 1 ∧ processTableMaxSize ≤ s.currentSize then some 1
    else queueTop s) = candidate
  cases candidate with
  | none => exact hstay
  | some candidate =>
      dsimp only
      rw [meets_ite]
      refine ⟨fun _ => hstay, fun _ => ?_⟩
      rw [meets_bind, meets_demand]
      exact ⟨hswitch, hnull⟩

end Turns

/-! ## Waking and blocking for messages -/

def awake (s : Kernel) (pid : Int) : Except Panic (Bool × Kernel) := do
  let _ ← getProcess s pid
  let s := s.record (.awoken pid (s.data pid).state)
  let s ← queueAdd (s.update pid fun p => { p with state := .waiting }) pid
  return (decide (s.running.priority < (s.data pid).priority), s)

def blockByMessage (s : Kernel) (pid : Int) : Except Panic Kernel := do
  let _ ← getProcess s pid
  let s := s.update pid fun p => { p with state := .blockedByMessage }
  if pid ≠ s.getpid then queueDel s pid else return s

end SchlagOS
