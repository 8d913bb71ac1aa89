import SchlagOS.Kernel.Process

/-!
# The primitives

Each primitive runs up to its return or to its call of `schedule`.  In the
second case it leaves the frame that goes on behind the call, and the frame's
own function, such as `waitpidAnyResume`, is the rest of its code.
-/

namespace SchlagOS

open Foundation

/-- A pointer argument of a system call; 0 is `NULL`. -/
def Destination.ofPointer (address : Int) : Destination :=
  if address = 0 then .null else .user address

/-! ## process.c -/

def start (mem : Memory) (s : Kernel) (stackSize : Nat) (priority : Int)
    (name : Option UserString) : Except Panic Kernel :=
  if priority < processMinPriority ∨ processMaxPriority < priority ∨
      processTableMaxSize ≤ s.currentSize ∨
      (stackSize + userAdditionalStackSize) % 2 ^ 32 ≤ stackSize then
    .ok (s.ret (-1))
  else do
    let stackSize := if stackSize < processMinStackSize then processMinStackSize else stackSize
    let (pid, s) ← processTableRegister s
    let _ ← getProcess s pid
    let father := s.getpid
    let s := s.update pid fun p =>
      { p with
        pid := pid, fatherPid := father, childsPids := [], priority := priority
        returnCode := 0, deallocated := false, executionContext := [] }
    let s := { s with processQueue := s.processQueue.clear pid }
    startStacks mem (s.readName name) father pid priority stackSize
where
  /-- The stacks of the new process, and its place among the children of its father. -/
  startStacks (mem : Memory) (s : Kernel) (father pid priority : Int) (stackSize : Nat) :
      Except Panic Kernel := do
    if mem.kernelStack = false then
      let s := s.update pid fun p => { p with kernelStack := none }
      let s ← processTableUnregister s pid
      return (s.record (.notStarted pid)).ret (-1)
    else
      let (kernelStack, kernelBlocks) := s.kernelBlocks.allocate kernelStackSize
      let s := { s with kernelBlocks := kernelBlocks }
      let s := s.update pid fun p => { p with kernelStack := some kernelStack }
      if father ≠ processNotFoundCode then
        require (pid ≠ 1) .startUser
        let userStackSize := stackSize + userAdditionalStackSize
        let s := s.update pid fun p => { p with userStackSize := userStackSize }
        if mem.userStack = false then
          let s := s.update pid fun p => { p with userStack := none }
          let s ← processTableUnregister s pid
          let s ← kernelStackFree s (some kernelStack)
          return (s.record (.notStarted pid)).ret (-1)
        else
          let (userStack, userBlocks) := s.userBlocks.allocate userStackSize
          let s := { s with userBlocks := userBlocks }
          let s := s.update pid fun p => { p with userStack := some userStack }
          let _ ← getProcess s father
          let s ← processChildListAddHead mem s father pid
          startReady s father pid priority
      else
        require (pid = 1) .startInit
        let s := s.update pid fun p => { p with userStackSize := 0, userStack := none }
        startReady s father pid priority
  /-- The end of `start`: the new process becomes ready. -/
  startReady (s : Kernel) (father pid priority : Int) : Except Panic Kernel := do
    let s ← queueAdd (s.update pid fun p => { p with state := .waiting }) pid
    let s := s.record (.started father pid)
    if s.runningProcess = none ∨ s.running.priority < priority then
      return s.callSchedule [.startReturn pid]
    else return { s with control := .startReturn pid :: s.control }

def exit (s : Kernel) (retval : Int) : Except Panic Kernel := do
  let this := s.getpid
  let s := s.update this fun p => { p with returnCode := retval }
  let s ← requestZombify s this
  return (s.record (.terminated this retval)).callSchedule [.exitLoop]

def kill (s : Kernel) (pid : Int) : Except Panic Kernel :=
  if pid < 1 ∨ (processTableMaxSize : Int) < pid then .ok (s.ret (-1))
  else do
    let p ← getProcess s pid
    if p.pid = processNotFoundCode ∨ p.state = .zombie then return s.ret (-1)
    else
      let s ←
        if p.state = .sleeping then do
          -- The counter wraps below 0 and the write then misses the array.
          require (0 < s.pidsWaiting.count) .outOfBounds
          pure { s with pidsWaiting := s.pidsWaiting.shrink processNotFoundCode }
        else pure s
      let s := s.update pid fun p => { p with returnCode := 0 }
      let s ← requestZombify s pid
      return (s.record (.terminated pid 0)).callSchedule [.ret 0]

/-- The first unsealed zombie of a child list, or the number of unsealed
children if there is none. -/
def scanChildren (s : Kernel) : List Int → Nat → Except Panic (Option Int × Nat)
  | [], nbChilds => .ok (none, nbChilds)
  | c :: rest, nbChilds => do
      let p ← getProcess s c
      if p.sealed = false then
        if p.state = .zombie then return (some c, nbChilds)
        else scanChildren s rest (nbChilds + 1)
      else scanChildren s rest nbChilds

/-- Deliver a dead child to its father and have it destroyed. -/
def waitpidReap (s : Kernel) (request child : Int) (retvalp : Destination) :
    Except Panic Kernel := do
  let father := s.getpid
  let value := (s.data child).returnCode
  let s := s.store retvalp value
  let s ← requestDestroy s child
  return (s.record (.reaped father request child value)).ret child

def waitpid (s : Kernel) (pid : Int) (retvalp : Destination) : Except Panic Kernel :=
  let this := s.getpid
  if pid < 0 then do
    let (zombie, nbChilds) ← scanChildren s s.running.childsPids 0
    match zombie with
    | some child => waitpidReap s pid (s.data child).pid retvalp
    | none =>
        if 0 < nbChilds then
          let s := s.update this fun p =>
            { p with state := .blockedByChild, waitingCode := -1 }
          return (s.record (.waits this pid)).callSchedule [.waitpidAny pid retvalp]
        else return (s.record (.noChild this pid)).ret (-1)
  else if pid < 1 ∨ (processTableMaxSize : Int) < pid then
    .ok ((s.record (.noChild this pid)).ret (-1))
  else do
    let p ← getProcess s pid
    if p.pid = processNotFoundCode ∨ p.sealed = true ∨ p.fatherPid ≠ this then
      return (s.record (.noChild this pid)).ret (-1)
    else if p.state = .zombie then waitpidReap s pid pid retvalp
    else
      let s := s.update this fun p =>
        { p with state := .blockedByChild, waitingCode := pid }
      return (s.record (.waits this pid)).callSchedule [.waitpidOne pid retvalp]

def waitpidAnyResume (s : Kernel) (request : Int) (retvalp : Destination) :
    Except Panic Kernel := do
  let p ← getProcess s s.running.waitingCode
  require (p.pid ≠ processNotFoundCode) .waitpid
  waitpidReap s request p.pid retvalp

def waitClock (s : Kernel) (clock : Nat) : Except Panic Kernel :=
  if 0 < clock then do
    let this := s.getpid
    let s := s.update this fun p => { p with state := .sleeping, sleepTime := clock }
    let pidsWaiting ← pushPending s.pidsWaiting this
    let s := { s with pidsWaiting := pidsWaiting }
    return s.callSchedule [.ret 0]
  else .ok (s.ret 0)

/-- The loop of `clock_tick` from index `i` on; each turn either moves on or
shortens the array, so as many turns as it has entries are enough. -/
def clockTickFrom : Nat → Nat → Bool → Kernel → Except Panic (Bool × Kernel)
  | 0, _, awaken, s => .ok (awaken, s)
  | fuel + 1, i, awaken, s =>
      if i < s.pidsWaiting.count then do
        let pid := s.pidsWaiting.cells i
        let process ← getProcess s pid
        if process.sleepTime ≤ s.inter then
          let s := s.update pid fun p => { p with state := .waiting }
          let s := { s with
            pidsWaiting := s.pidsWaiting.replaceByLast processNotFoundCode i }
          let s ← queueAdd s pid
          clockTickFrom fuel i true s
        else clockTickFrom fuel (i + 1) awaken s
      else .ok (awaken, s)

def clockTick (s : Kernel) : Except Panic Kernel := do
  let (awaken, s) ← clockTickFrom s.pidsWaiting.count 0 false s
  if awaken then return s.callSchedule [] else return s

def getprio (s : Kernel) (pid : Int) : Except Panic Int := do
  let p ← getProcess s pid
  return p.priority

def chprio (mem : Memory) (s : Kernel) (pid newprio : Int) : Except Panic Kernel :=
  if pid < 1 ∨ (processTableMaxSize : Int) < pid then .ok (s.ret (-1))
  else if newprio < processMinPriority ∨ processMaxPriority < newprio then
    .ok (s.ret (-1))
  else do
    let p ← getProcess s pid
    if p.pid = processNotFoundCode ∨ p.state = .zombie then return s.ret (-1)
    else
      let oldprio := p.priority
      let s := s.update pid fun p => { p with priority := newprio }
      let s ←
        if p.state = .blockedByMessage then
          messageQueuesNotifyPriorityChanged mem s pid newprio
        else pure s
      let s ←
        if s.getpid ≠ pid ∧ p.state.isBlocked = false then do
          let s ← queueDel s pid
          queueAdd s pid
        else pure s
      if s.running.priority < newprio then
        return s.callSchedule [.ret oldprio]
      else if s.getpid = pid then
        let next ← demand (queueTop s) .nullDereference
        if newprio < (s.data next).priority then return s.callSchedule [.ret oldprio]
        else return s.ret oldprio
      else return s.ret oldprio

/-! ## timer.c -/

def clockSettings (s : Kernel) (quartzp ticks : Int) : Kernel :=
  (s.store (.user quartzp) quartz).store (.user ticks) clockPeriod

/-! ## message_queue.c -/

def messageQueueTableRegister (s : Kernel) : Except Panic (Int × Kernel) := do
  let (fid, fids) ← demand (s.fids.pop nbQueue) .messageQueueTableRegister
  return (fid, { s with fids := fids, nbQueues := s.nbQueues + 1 })

def messageQueueTableUnregister (s : Kernel) (fid : Int) : Except Panic Kernel := do
  let fids ← demand (s.fids.push nbQueue fid) .messageQueueTableUnregister
  return { s with fids := fids, nbQueues := uint32Pred s.nbQueues }

def setQueue (s : Kernel) (fid : Int) (queue : MessageQueue) : Kernel :=
  { s with queues := Function.update s.queues fid queue }

/-- `fid < 0 || fid >= NBQUEUE || data[fid].buffer == NULL` does not hold. -/
def isLive (s : Kernel) (fid : Int) : Bool :=
  0 ≤ fid ∧ fid < nbQueue ∧ (s.queues fid).allocated = true

/-- The first loop of `message_queue_reset`; `fuel` is the size of the list. -/
def releaseAll (fid : Int) : Nat → Bool → Kernel → Except Panic (Bool × Kernel)
  | 0, needSchedule, s => .ok (needSchedule, s)
  | fuel + 1, needSchedule, s =>
      if 0 < (s.queues fid).lockedProcesses.size then do
        let (content, locked) ← processQueueRemoveFirst (s.queues fid).lockedProcesses
        let s := setQueue s fid { s.queues fid with lockedProcesses := locked }
        let s := s.store content.destination (-1)
        let (higher, s) ← awake s content.pid
        let s := { s with
          resetReleases := Function.update s.resetReleases (content.pid - 1) true }
        releaseAll fid fuel (higher || needSchedule) s
      else .ok (needSchedule, s)

/-- The second loop of `message_queue_reset`; `fuel` is `nb_messages`. -/
def dropMessages : Nat → MessageQueue → Except Panic MessageQueue
  | 0, queue => .ok queue
  | fuel + 1, queue =>
      if 0 < queue.nbMessages then do
        let (_, queue) ← messageQueueUnregister queue
        dropMessages fuel queue
      else .ok queue

def messageQueueReset (s : Kernel) (fid : Int) : Except Panic (Int × Bool × Kernel) :=
  if isLive s fid = false then .ok (-1, false, s)
  else do
    let (needSchedule, s) ←
      releaseAll fid (s.queues fid).lockedProcesses.size false s
    let queue ← dropMessages (s.queues fid).nbMessages (s.queues fid)
    return (0, needSchedule, (setQueue s fid queue).record (.queueReset fid))

def pcreate (mem : Memory) (s : Kernel) (count : Int) : Except Panic Kernel :=
  if count < 1 ∨ nbQueue ≤ s.nbQueues ∨ messageQueueBufferMaxSize < count then
    .ok (s.ret (-1))
  else do
    let (fid, s) ← messageQueueTableRegister s
    if mem.messageBuffer = false then
      let s := setQueue s fid { s.queues fid with allocated := false }
      let s ← messageQueueTableUnregister s fid
      return (s.record (.notCreated fid)).ret (-1)
    else
      require (mem.lockedProcesses = true) .lockedProcesses
      let queue := s.queues fid
      let s := setQueue s fid
        { queue with
          allocated := true
          ring := { queue.ring with buffer := fun _ => 0 }
          size := count.toNat
          lockedProcesses := .empty }
      return (s.record (.created fid count.toNat)).ret fid

/-- The value `pcount` stores. -/
def pcountValue (queue : MessageQueue) : Int :=
  if queue.nbMessages = 0 then -(queue.lockedProcesses.size : Int)
  else queue.nbMessages + queue.lockedProcesses.size

def pcount (s : Kernel) (fid : Int) (count : Destination) : Kernel :=
  if isLive s fid = false then s.ret (-1)
  else (s.store count (pcountValue (s.queues fid))).ret 0

def preset (s : Kernel) (fid : Int) : Except Panic Kernel := do
  let (result, needSchedule, s) ← messageQueueReset s fid
  if needSchedule then return s.callSchedule [.ret result] else return s.ret result

def pdelete (s : Kernel) (fid : Int) : Except Panic Kernel := do
  let (result, needSchedule, s) ← messageQueueReset s fid
  if result < 0 then return s.ret result
  else
    let s := setQueue s fid emptyMessageQueue
    let s ← messageQueueTableUnregister s fid
    let s := s.record (.deleted fid)
    if needSchedule then return s.callSchedule [.ret result] else return s.ret result

def psend (mem : Memory) (s : Kernel) (fid message : Int) : Except Panic Kernel :=
  if isLive s fid = false then .ok (s.ret (-1))
  else
    let queue := s.queues fid
    let this := s.getpid
    if queue.nbMessages = 0 ∧ 0 < queue.lockedProcesses.size then do
      let (content, locked) ← processQueueRemoveFirst queue.lockedProcesses
      let s := setQueue s fid { queue with lockedProcesses := locked }
      let s := s.store content.destination message
      let s := s.record (.handed this content.pid fid message)
      let (higher, s) ← awake s content.pid
      if higher then return s.callSchedule [.ret 0] else return s.ret 0
    else if queue.nbMessages = queue.size then do
      let priority ← getprio s this
      let locked ← processQueueAddOnPriority mem queue.lockedProcesses
        { pid := this, message := message, destination := .null, priority := priority }
      let s := setQueue s fid { queue with lockedProcesses := locked }
      let s ← blockByMessage s this
      return (s.record (.blockedSender this fid message)).callSchedule [.psendResume this]
    else do
      let queue ← messageQueueRegister queue message
      return ((setQueue s fid queue).record (.buffered this fid message)).ret 0

def preceive (mem : Memory) (s : Kernel) (fid : Int) (destination : Destination) :
    Except Panic Kernel :=
  if isLive s fid = false then .ok (s.ret (-1))
  else
    let queue := s.queues fid
    let this := s.getpid
    if queue.nbMessages = queue.size ∧ 0 < queue.lockedProcesses.size then do
      let (received, queue) ← messageQueueUnregister queue
      let (content, locked) ← processQueueRemoveFirst queue.lockedProcesses
      let queue := { queue with lockedProcesses := locked }
      let queue ← messageQueueRegister queue content.message
      let s := setQueue s fid queue
      let s := (s.record (.received this fid received)).record
        (.taken this content.pid fid content.message)
      let s := s.store destination received
      let (higher, s) ← awake s content.pid
      if higher then return s.callSchedule [.ret 0] else return s.ret 0
    else if queue.nbMessages = 0 then do
      let priority ← getprio s this
      -- The source leaves `message` of a receiver uninitialised.
      let locked ← processQueueAddOnPriority mem queue.lockedProcesses
        { pid := this, message := 0, destination := destination, priority := priority }
      let s := setQueue s fid { queue with lockedProcesses := locked }
      let s ← blockByMessage s this
      return (s.record (.blockedReceiver this fid)).callSchedule [.preceiveResume this]
    else do
      let (received, queue) ← messageQueueUnregister queue
      let s := (setQueue s fid queue).record (.received this fid received)
      return (s.store destination received).ret 0

/-- What `psend` and `preceive` do when a call that blocked goes on. -/
def messageResume (s : Kernel) (pid : Int) : Kernel :=
  if s.resetReleases (pid - 1) then
    let s := { s with resetReleases := Function.update s.resetReleases (pid - 1) false }
    (s.record (.resumed pid (-1))).ret (-1)
  else (s.record (.resumed pid 0)).ret 0

/-! ## console.c -/

/-- The bytes that `cons_write` reads; what they do to the screen is no part of
this state. -/
def consWrite (s : Kernel) (str size : Int) : Kernel := s.readBytes str size.toNat

/-! ## kbd.c -/

def stdinInit (mem : Memory) (s : Kernel) : Except Panic Kernel := do
  require (s.stdinFid = -1) .stdinInit
  let s ← pcreate mem s keyBufferSize
  require (0 ≤ s.eax) .stdinInit
  return { s with stdinFid := s.eax, echoEnabled := true }

/-- One turn of the loop of `keyboard_data`, with the string still to feed. -/
def keyboardData (mem : Memory) (s : Kernel) (str : List Int) : Except Panic Kernel :=
  match str with
  | [] => .ok s
  | c :: rest => do
      require (isLive s s.stdinFid = true) .keyboardPcount
      if (keyBufferSize : Int) < pcountValue (s.queues s.stdinFid) then return s
      else
        psend mem { s with control := .keyboardSent rest :: s.control } s.stdinFid c

def keyboardSent (s : Kernel) (rest : List Int) : Except Panic Kernel := do
  require (s.eax = 0) .keyboardPsend
  return { s with control := .keyboardData rest :: s.control }

def consRead (s : Kernel) (str : Int) (length : Nat) : Except Panic Kernel := do
  require (0 < length) .consReadLength
  return { s with control := .consRead str length 0 :: s.control }

/-- The head of the loop of `cons_read`. -/
def consReadNext (mem : Memory) (s : Kernel) (str : Int) (length index : Nat) :
    Except Panic Kernel :=
  if index < length then
    preceive mem { s with control := .consReceived str length index :: s.control }
      s.stdinFid (.receiver s.getpid)
  else .ok (s.ret index)

/-- The body of the loop of `cons_read` behind `preceive`; the character is the
message taken modulo 256. -/
def consReceived (s : Kernel) (str : Int) (length index : Nat) : Except Panic Kernel := do
  require (s.eax = 0) .consReadPreceive
  let c := s.running.receiver % 256
  if c = 13 then return s.ret index
  else if c = 127 then
    return { s with control := .consRead str length (index - 1) :: s.control }
  else if c < 127 then
    let s := { s with userAccesses := s.userAccesses ++ [UserAccess.writeByte (str + index) c] }
    return { s with control := .consRead str length (index + 1) :: s.control }
  else return { s with control := .consRead str length index :: s.control }

end SchlagOS
