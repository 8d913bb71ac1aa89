import SchlagOS.Kernel.State

/-!
# Waiting lists and message buffers

The part of message_queue.c that works on one queue: the list of the processes
locked on it, its ring of messages, and the two notifications by which the
process table keeps all waiting lists up to date.
-/

namespace SchlagOS

open Foundation

/-! ## The list of locked processes -/

def processQueueAddOnPriority (mem : Memory) (queue : NodeList ProcessNodeContent)
    (content : ProcessNodeContent) : Except Panic (NodeList ProcessNodeContent) := do
  require (mem.processNode = true) .processNode
  return queue.addBehind (fun other => decide (content.priority < other.priority)) content

def processQueueRemoveFirstWithPid (queue : NodeList ProcessNodeContent) (pid : Int) :
    Option (ProcessNodeContent × NodeList ProcessNodeContent) :=
  queue.removeFirstWith fun content => decide (content.pid = pid)

def processQueueRemoveFirst (queue : NodeList ProcessNodeContent) :
    Except Panic (ProcessNodeContent × NodeList ProcessNodeContent) :=
  demand queue.removeFirst .nullDereference

/-! ## The ring of messages -/

def messageQueueRegister (queue : MessageQueue) (message : Int) :
    Except Panic MessageQueue := do
  let ring ← demand (queue.ring.push queue.size message) .messageQueueRegister
  return { queue with ring := ring, nbMessages := queue.nbMessages + 1 }

def messageQueueUnregister (queue : MessageQueue) : Except Panic (Int × MessageQueue) := do
  let (message, ring) ← demand (queue.ring.pop queue.size) .messageQueueUnregister
  return (message, { queue with ring := ring, nbMessages := uint32Pred queue.nbMessages })

/-! ## Notifications -/

/-- Visit the waiting list of every queue of the table with a size. -/
def visitQueues
    (visit : NodeList ProcessNodeContent → Except Panic (NodeList ProcessNodeContent)) :
    Nat → (Int → MessageQueue) → Except Panic (Int → MessageQueue)
  | 0, queues => .ok queues
  | n + 1, queues => do
      let queues ← visitQueues visit n queues
      let queue := queues n
      if 0 < queue.size then
        let lockedProcesses ← visit queue.lockedProcesses
        return Function.update queues n { queue with lockedProcesses := lockedProcesses }
      else return queues

/-- The loop over one waiting list.  The node that `tmp` points at is freed and
allocated again by the move, at the same address, so `tmp->next` continues
behind its new place. -/
def changePriorityFrom (mem : Memory) (pid newPriority : Int) :
    Nat → Option Nat → NodeList ProcessNodeContent →
      Except Panic (NodeList ProcessNodeContent)
  | 0, _, queue => .ok queue
  | _ + 1, none, queue => .ok queue
  | fuel + 1, some tmp, queue => do
      let queue ←
        if (queue.content? tmp).any fun content => decide (content.pid = pid) then
          match processQueueRemoveFirstWithPid queue pid with
          | some (content, queue) =>
              processQueueAddOnPriority mem queue { content with priority := newPriority }
          | none => .ok queue
        else .ok queue
      changePriorityFrom mem pid newPriority fuel (queue.next (some tmp)) queue

def messageQueuesNotifyPriorityChanged (mem : Memory) (s : Kernel)
    (pid newPriority : Int) : Except Panic Kernel := do
  let queues ← visitQueues
    (fun queue =>
      changePriorityFrom mem pid newPriority (2 * queue.size + 1) queue.first queue)
    nbQueue s.queues
  return { s with queues := queues }

def messageQueuesNotifyProcessusKilled (s : Kernel) (pid : Int) :
    Except Panic Kernel := do
  let queues ← visitQueues
    (fun queue =>
      match processQueueRemoveFirstWithPid queue pid with
      | some (_, queue) => .ok queue
      | none => .ok queue)
    nbQueue s.queues
  return { s with queues := queues }

end SchlagOS
