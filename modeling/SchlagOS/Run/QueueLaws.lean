import SchlagOS.Invariant.AlikeCalls
import SchlagOS.Invariant.Calm

/-!
# The message queues and their waiters

Every live queue holds its messages between its two indices, and processes wait
on it only while it is empty or while it is full.  The waiting lists are the
processes in state BLOCKED_BY_MESSAGE, with their priorities.
-/

namespace SchlagOS

open Foundation

variable {s s' : Kernel} {step : Step} {mem : Memory} {r r' fid p : Int} {v v' : View}
  {log log' : Log}

/-! ## One queue -/

/-- The process is blocked in a call of `preceive`. -/
def Kernel.receives (s : Kernel) (p : Int) : Prop :=
  (s.data p).state = .blockedByMessage ∧
    (base (s.stack p)).head? = some (.preceiveResume p)

/-- The process is blocked in a call of `psend`. -/
def Kernel.sends (s : Kernel) (p : Int) : Prop :=
  (s.data p).state = .blockedByMessage ∧ (base (s.stack p)).head? = some (.psendResume p)

instance (s : Kernel) (p : Int) : Decidable (s.receives p) := by
  unfold Kernel.receives
  infer_instance

instance (s : Kernel) (p : Int) : Decidable (s.sends p) := by
  unfold Kernel.sends
  infer_instance

def Kernel.receivers (s : Kernel) (fid : Int) : List ProcessNodeContent :=
  (s.waiters fid).filter fun node => s.receives node.pid

def Kernel.senders (s : Kernel) (fid : Int) : List ProcessNodeContent :=
  (s.waiters fid).filter fun node => s.sends node.pid

structure QueueLaw (s : Kernel) (fid : Int) : Prop where
  level : (s.queues fid).nbMessages ≤ (s.queues fid).size
  ring : (s.queues fid).ring.Holds (s.queues fid).size (s.messages fid)
  count : (s.messages fid).length = (s.queues fid).nbMessages
  full : (s.queues fid).ring.produce = LockedRing.locked ↔
    (s.queues fid).nbMessages = (s.queues fid).size
  empty : ((s.queues fid).ring.consume = LockedRing.locked ∨
      (s.queues fid).ring.consume = (s.queues fid).ring.produce) ↔
    (s.queues fid).nbMessages = 0
  waiting : s.waiters fid ≠ [] →
    (s.queues fid).nbMessages = 0 ∧ (∀ node ∈ s.waiters fid, s.receives node.pid) ∨
    (s.queues fid).nbMessages = (s.queues fid).size ∧
      ∀ node ∈ s.waiters fid, s.sends node.pid
  size : (s.queues fid).lockedProcesses.size = (s.waiters fid).length

theorem Core.blocked_of_waiter (h : Core s.view r fun _ => False) {node : ProcessNodeContent}
    (hnode : node ∈ s.waiters fid) : (s.data node.pid).state = .blockedByMessage := by
  have hmem : node ∈ (s.view.queues fid).waiters := hnode
  exact h.locked.listed.blocked_of_mem hmem

theorem Core.queueLaw (h : Core s.view r fun _ => False) (hlive : isLive s fid = true) :
    QueueLaw s fid := by
  have hallocated : (s.queues fid).allocated = true := allocated_of_isLive (by simp [hlive])
  have hqueue : Live (s.queues fid) := h.locked.live fid hallocated
  have hlength := length_messages (s.queues fid)
  have hresume : ∀ node ∈ s.waiters fid,
      (base (s.stack node.pid)).head? = some (resumeFrame (s.queues fid) node.pid) :=
    fun node hnode => h.locked.resume fid node hnode
  obtain ⟨ps, hat, hps⟩ := hqueue.list
  refine ⟨?_, hqueue.ring, hlength, ?_, ?_, fun hsome => ?_, ?_⟩
  · have hle := hqueue.ring.length_le
    rwa [hlength] at hle
  · have hfull := hqueue.ring.produce_locked_iff
    rwa [hlength] at hfull
  · rw [hqueue.ring.consume_locked_iff, ← List.length_eq_zero_iff, hlength]
  · by_cases hzero : (s.queues fid).nbMessages = 0
    · refine .inl ⟨hzero, fun node hnode => ⟨h.blocked_of_waiter hnode, ?_⟩⟩
      rw [hresume node hnode, resumeFrame, if_pos hzero]
    · refine .inr ⟨(hqueue.level hsome).resolve_left hzero, fun node hnode =>
        ⟨h.blocked_of_waiter hnode, ?_⟩⟩
      rw [hresume node hnode, resumeFrame, if_neg hzero]
  · change _ = (s.queues fid).waiters.length
    rw [hat.size, ← hps, List.length_map]

theorem QueueLaw.receivers_eq (h : QueueLaw s fid) (hzero : (s.queues fid).nbMessages = 0) :
    s.receivers fid = s.waiters fid := by
  unfold Kernel.receivers
  rw [List.filter_eq_self]
  intro node hnode
  have hpos := h.ring.capacity_pos
  rcases h.waiting (List.ne_nil_of_mem hnode) with ⟨-, hall⟩ | ⟨hfull, -⟩
  · exact decide_eq_true (hall node hnode)
  · omega

theorem QueueLaw.senders_eq (h : QueueLaw s fid) (hsome : (s.queues fid).nbMessages ≠ 0) :
    s.senders fid = s.waiters fid := by
  unfold Kernel.senders
  rw [List.filter_eq_self]
  intro node hnode
  rcases h.waiting (List.ne_nil_of_mem hnode) with ⟨hzero, -⟩ | ⟨-, hall⟩
  · exact absurd hzero hsome
  · exact decide_eq_true (hall node hnode)

/-- What `pcount` stores for a live queue. -/
theorem QueueLaw.count_eq (h : QueueLaw s fid) : pcountValue (s.queues fid) =
    if s.messages fid = [] then -((s.receivers fid).length : Int)
    else (s.messages fid).length + (s.senders fid).length := by
  have hnil : s.messages fid = [] ↔ (s.queues fid).nbMessages = 0 := by
    rw [← List.length_eq_zero_iff, h.count]
  unfold pcountValue
  by_cases hzero : (s.queues fid).nbMessages = 0
  · rw [if_pos hzero, if_pos (hnil.mpr hzero), h.size, h.receivers_eq hzero]
  · rw [if_neg hzero, if_neg (mt hnil.mp hzero), h.size, h.count, h.senders_eq hzero]

/-- The states of the message queues, and the assertions about their rings. -/
structure QueueLaws (s : Kernel) : Prop where
  queue : ∀ fid, isLive s fid = true → QueueLaw s fid
  pcount : ∀ fid count, isLive s fid = true → pcount s fid count = (s.store count
    (if s.messages fid = [] then -((s.receivers fid).length : Int)
      else (s.messages fid).length + (s.senders fid).length)).ret 0
  asserts : ∀ step, step.enabled s → step.event.calm = true →
    exec step s ≠ .error .messageQueueRegister ∧ exec step s ≠ .error .messageQueueUnregister

theorem Fails.not_ring {e : Panic} (h : Fails step s r e) :
    e ≠ .messageQueueRegister ∧ e ≠ .messageQueueUnregister := by
  have hexcused : ∀ {a b : Prop} {e : Panic}, Excused a b e →
      e ≠ .messageQueueRegister ∧ e ≠ .messageQueueUnregister := by
    intro a b e he
    constructor
    · rintro rfl
      exact he
    · rintro rfl
      exact he
  rcases h with (h | ⟨rfl, -⟩) | h | ⟨rfl, -⟩ | h
  · exact hexcused h
  · decide
  · exact hexcused h
  · decide
  · cases h <;> decide

theorem queue_laws (h : Running (fun _ step => step.event.calm = true) s) : QueueLaws s := by
  obtain ⟨r, hsafe, -, hmeets⟩ := h.tame (I := fun _ _ => True) (.inl fun _ _ hs => hs) trivial
    fun _ _ _ _ _ _ _ _ _ => trivial
  have hqueue : ∀ fid, isLive s fid = true → QueueLaw s fid :=
    fun fid hlive => hsafe.inv.core.queueLaw hlive
  refine ⟨hqueue, fun fid count hlive => ?_, fun step henabled hs => ?_⟩
  · unfold pcount
    rw [if_neg (by simp [hlive]), (hqueue fid hlive).count_eq]
  · have hfails := hmeets step henabled hs
    constructor
    · exact fun hrun => (hfails.of_error hrun).not_ring.1 rfl
    · exact fun hrun => (hfails.of_error hrun).not_ring.2 rfl

/-- Process 3 is blocked in `psend` on a queue of size 1 that holds a message of process 2. -/
private theorem full_queue_run : ∃ s, Running (fun _ step => step.event.calm = true) s ∧
    decide (s.messages 1 = [7] ∧ (s.waiters 1).map ProcessNodeContent.pid = [3]) = true :=
  Running.computed ([Event.init 4096 128, .call (.pcreate 1), .call (.psend 1 7),
    .call (.start 0x1000000 4096 200 ⟨0x1000000, 0⟩), .call (.psend 1 8)].map Event.step) []
    (by decide +kernel)

theorem queue_laws_run : ∃ s, s.messages 1 = [7] ∧
    (s.waiters 1).map ProcessNodeContent.pid = [3] ∧ QueueLaws s := by
  obtain ⟨s, hrun, htest⟩ := full_queue_run
  obtain ⟨hmessages, hwaiters⟩ := of_decide_eq_true htest
  exact ⟨s, hmessages, hwaiters, queue_laws hrun⟩

/-! ## The waiting lists -/

structure WaitingLaws (s : Kernel) : Prop where
  blocked : ∀ p, (s.data p).state = .blockedByMessage ↔ ∃ fid, isLive s fid = true ∧
    ((s.waiters fid).map ProcessNodeContent.pid).count p = 1 ∧
    ∀ fid', fid' ≠ fid → p ∉ (s.waiters fid').map ProcessNodeContent.pid
  priority : ∀ fid, ∀ node ∈ s.waiters fid, node.priority = (s.data node.pid).priority
  sorted : ∀ fid, (s.waiters fid).Pairwise fun a b => b.priority ≤ a.priority
  linked : ∀ fid, isLive s fid = true → (s.queues fid).lockedProcesses.Holds (s.waiters fid)
  awoken : ∀ p state, HistoryEvent.awoken p state ∈ s.history → state = .blockedByMessage

theorem Core.live_of_waiter (h : Core s.view r fun _ => False) {node : ProcessNodeContent}
    (hnode : node ∈ s.waiters fid) : isLive s fid = true := by
  have hallocated : (s.queues fid).allocated = true := by
    by_contra hnot
    have hidle : (s.view.queues fid).allocated = false := eq_false_of_ne_true hnot
    have hnil : s.waiters fid = [] := (h.locked.idle fid hidle).waiters
    rw [hnil] at hnode
    cases hnode
  obtain ⟨hlow, hhigh⟩ := h.locked.range fid hallocated
  unfold isLive
  exact decide_eq_true ⟨hlow, hhigh, hallocated⟩

theorem Core.blocked_iff (h : Core s.view r fun _ => False) (p : Int) :
    (s.data p).state = .blockedByMessage ↔ ∃ fid, isLive s fid = true ∧
      ((s.waiters fid).map ProcessNodeContent.pid).count p = 1 ∧
      ∀ fid', fid' ≠ fid → p ∉ (s.waiters fid').map ProcessNodeContent.pid := by
  have hlisted := h.locked.listed
  constructor
  · intro hblocked
    obtain ⟨fid, node, hnode, rfl⟩ := (hlisted.member p).mp hblocked
    refine ⟨fid, h.live_of_waiter hnode, ?_, fun fid' hne hmem => ?_⟩
    · exact List.count_eq_one_of_mem (hlisted.nodup fid) (List.mem_map_of_mem hnode)
    · obtain ⟨node', hnode', hpid⟩ := List.mem_map.mp hmem
      exact hne (hlisted.unique fid' fid node' node hnode' hnode hpid)
  · rintro ⟨fid, -, hcount, -⟩
    have hmem : p ∈ (s.waiters fid).map ProcessNodeContent.pid :=
      List.count_pos_iff.mp (by omega)
    obtain ⟨node, hnode, rfl⟩ := List.mem_map.mp hmem
    exact h.blocked_of_waiter hnode

/-- `awake` is called for processes that are blocked by a message only. -/
def WakesBlocked (history : List HistoryEvent) : Prop :=
  ∀ p state, HistoryEvent.awoken p state ∈ history → state = .blockedByMessage

theorem WakesBlocked.append {history events : List HistoryEvent} (h : WakesBlocked history)
    (hevents : WakesBlocked events) : WakesBlocked (history ++ events) := by
  intro p state hmem
  rcases List.mem_append.mp hmem with hmem | hmem
  · exact h p state hmem
  · exact hevents p state hmem

theorem WakesBlocked.record (h : WakesBlocked log.history) {event : HistoryEvent}
    (hevent : ∀ p state, event = .awoken p state → state = .blockedByMessage) :
    WakesBlocked (log.record event).history := by
  refine h.append fun p state hmem => hevent p state ?_
  exact (List.mem_singleton.mp hmem).symm

theorem Effect.wakesBlocked (heffect : Effect step r v log v' log')
    (h : WakesBlocked log.history) : WakesBlocked log'.history := by
  cases heffect
  case reset fid queue fids nbQueues state processQueue resetReleases frames pids events hlive
      hevent hpids hstate hreleases hwaiters hmessages hframes =>
    refine (h.append ?_).append ?_
    · intro p state hmem
      obtain ⟨q, -, heq⟩ := List.mem_map.mp hmem
      injection heq with _ heq
      exact heq.symm
    · cases hevent <;> simp [WakesBlocked]
  case hand => exact (h.record (by simp)).record (by simp)
  case swap => exact ((h.record (by simp)).record (by simp)).record (by simp)
  case start => exact h.record (by simp)
  case startFails => exact h.record (by simp)
  case exit => exact h.record (by simp)
  case kill => exact h.record (by simp)
  case reap => exact h.record (by simp)
  case waits => exact h.record (by simp)
  case noChild => exact h.record (by simp)
  case create => exact h.record (by simp)
  case createFails => exact h.record (by simp)
  case buffer => exact h.record (by simp)
  case blockSend => exact h.record (by simp)
  case take => exact h.record (by simp)
  case blockReceive => exact h.record (by simp)
  all_goals exact h

theorem Turn.wakesBlocked (hturn : Turn r s s') (h : WakesBlocked s.log.history) :
    WakesBlocked s'.log.history := by
  cases hturn with
  | pass _ _ hlog =>
      rw [hlog]
      exact h
  | resume _ _ _ _ _ hlog _ =>
      rw [hlog]
      exact h.record (by simp)
  | zombify _ _ _ _ _ _ _ hlog =>
      rw [hlog]
      exact h.record (by simp)
  | destroy _ _ _ hlog =>
      rw [hlog]
      exact h.record (by simp)
  | switch _ _ _ _ _ _ _ _ _ hlog =>
      rw [hlog]
      exact h

theorem booted_wakesBlocked : WakesBlocked booted.log.history := by
  change WakesBlocked [.created 0 keyBufferSize, .started processNotFoundCode 1]
  simp [WakesBlocked]

theorem waiting_laws (h : Running (fun _ step => step.event.calm = true) s) : WaitingLaws s := by
  obtain ⟨r, hsafe, hawoken, -⟩ := h.tame (I := fun s _ => WakesBlocked s.log.history)
    (.inl fun _ _ hs => hs) booted_wakesBlocked fun s step s' r r' _ hI _ hmoved => by
      rcases hmoved.change with ⟨-, -, heffect⟩ | hturn
      · exact heffect.wakesBlocked hI
      · exact hturn.wakesBlocked hI
  have hcore := hsafe.inv.core
  have hlisted := hcore.locked.listed
  exact ⟨hcore.blocked_iff, hlisted.priority_eq, hlisted.sorted,
    fun fid hlive => (hcore.locked.live fid (allocated_of_isLive (by simp [hlive]))).list, hawoken⟩

theorem waiting_laws_run : ∃ s, (s.waiters 1).map ProcessNodeContent.pid = [3] ∧
    WaitingLaws s := by
  obtain ⟨s, hrun, htest⟩ := full_queue_run
  exact ⟨s, (of_decide_eq_true htest).2, waiting_laws hrun⟩

end SchlagOS
