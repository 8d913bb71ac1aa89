import SchlagOS.Run.Arrivals
import SchlagOS.Run.QueueLaws

/-!
# The messages of a queue

A queue against an abstract channel: the messages that were accepted, in their
order, the messages that were obtained, and those that were sent.  A message is
accepted when it enters the buffer or is handed to a blocked receiver, which
may happen inside the call of another process.
-/

namespace SchlagOS

open Foundation

variable {ok : Kernel → Step → Prop} {s s' : Kernel} {step : Step} {r r' fid fid' : Int}
  {v v' : View} {log log' : Log}

/-! ## The channel -/

/-- The messages of a queue since it was created or reset. -/
structure Traffic where
  accepted : List Int
  obtained : List Int
  sent : List Int
  deriving DecidableEq, Repr

def Traffic.empty : Traffic := ⟨[], [], []⟩

/-- What happens to queue `fid`. -/
def Traffic.next (fid : Int) (t : Traffic) : HistoryEvent → Traffic
  | .created fid' _ => if fid' = fid then .empty else t
  | .queueReset fid' => if fid' = fid then .empty else t
  | .buffered _ fid' message =>
      if fid' = fid then { t with
        accepted := t.accepted ++ [message], sent := t.sent ++ [message] }
      else t
  | .handed _ _ fid' message =>
      if fid' = fid then {
        accepted := t.accepted ++ [message]
        obtained := t.obtained ++ [message]
        sent := t.sent ++ [message] }
      else t
  | .blockedSender _ fid' message =>
      if fid' = fid then { t with sent := t.sent ++ [message] } else t
  | .taken _ _ fid' message =>
      if fid' = fid then { t with accepted := t.accepted ++ [message] } else t
  | .received _ fid' message =>
      if fid' = fid then { t with obtained := t.obtained ++ [message] } else t
  | _ => t

def traffic (fid : Int) (history : List HistoryEvent) : Traffic :=
  history.foldl (Traffic.next fid) .empty

theorem traffic_append (fid : Int) (history events : List HistoryEvent) :
    traffic fid (history ++ events) = events.foldl (Traffic.next fid) (traffic fid history) :=
  List.foldl_append

theorem traffic_record (fid : Int) (log : Log) (event : HistoryEvent) :
    traffic fid (log.record event).history = (traffic fid log.history).next fid event :=
  traffic_append fid log.history [event]

/-- No process that waits on the queue is killed. -/
def SparesWaiters (fid : Int) (s : Kernel) (step : Step) : Prop :=
  ∀ p, step.event = .call (.kill p) → p ∉ waitingPids s fid

instance (fid : Int) (s : Kernel) (step : Step) : Decidable (SparesWaiters fid s step) :=
  decidable_of_iff (∀ p ∈ step.event.killed, p ∉ waitingPids s fid) step.event.forall_killed

/-! ## The queue and the channel -/

/-- The messages of the senders that wait on a queue. -/
def MessageQueue.held (queue : MessageQueue) : List Int :=
  if queue.nbMessages = 0 then [] else queue.waiters.map ProcessNodeContent.message

structure Traffic.Matches (t : Traffic) (queue : MessageQueue) : Prop where
  fifo : t.accepted = t.obtained ++ queue.messages
  sent : (t.accepted ++ queue.held).Perm t.sent

theorem messages_eq_nil {queue : MessageQueue} (h : queue.nbMessages = 0) :
    queue.messages = [] := by
  rw [← List.length_eq_zero_iff, length_messages, h]

theorem nbMessages_eq {queue queue' : MessageQueue} (h : queue'.messages = queue.messages) :
    queue'.nbMessages = queue.nbMessages := by
  rw [← length_messages, h, length_messages]

namespace Traffic.Matches

variable {t : Traffic} {queue queue' : MessageQueue} {message : Int}

theorem empty (hwaiters : queue.waiters = []) (hmessages : queue.messages = []) :
    Traffic.empty.Matches queue := by
  refine ⟨by rw [hmessages]; rfl, ?_⟩
  simp [MessageQueue.held, hwaiters, Traffic.empty]

/-- The waiting list changes, but for the messages in it. -/
theorem rearrange (h : t.Matches queue) (hmessages : queue'.messages = queue.messages)
    (hwaiters : (queue'.waiters.map ProcessNodeContent.message).Perm
      (queue.waiters.map ProcessNodeContent.message)) : t.Matches queue' := by
  refine ⟨by rw [hmessages]; exact h.fifo, ?_⟩
  have hheld : queue'.held.Perm queue.held := by
    unfold MessageQueue.held
    rw [nbMessages_eq hmessages]
    split
    · rfl
    · exact hwaiters
  exact (hheld.append_left t.accepted).trans h.sent

theorem buffer (h : t.Matches queue) (p : Int) (hnil : queue.waiters = []) (hnil' : queue'.waiters = [])
    (hmessages : queue'.messages = queue.messages ++ [message]) :
    (t.next fid (.buffered p fid message)).Matches queue' := by
  have hheld : queue.held = [] ∧ queue'.held = [] := by
    simp [MessageQueue.held, hnil, hnil']
  have hsent := h.sent
  rw [hheld.1, List.append_nil] at hsent
  simp only [Traffic.next, if_true]
  refine ⟨?_, ?_⟩
  · simp [h.fifo, hmessages]
  · simpa [hheld.2] using hsent.append_right [message]

theorem hand (h : t.Matches queue) (p q : Int) (hempty : queue.nbMessages = 0)
    (hempty' : queue'.nbMessages = 0) :
    (t.next fid (.handed p q fid message)).Matches queue' := by
  have hheld : queue.held = [] ∧ queue'.held = [] := by
    simp [MessageQueue.held, hempty, hempty']
  have hfifo := h.fifo
  have hsent := h.sent
  rw [messages_eq_nil hempty, List.append_nil] at hfifo
  rw [hheld.1, List.append_nil] at hsent
  simp only [Traffic.next, if_true]
  refine ⟨?_, ?_⟩
  · simp [hfifo, messages_eq_nil hempty']
  · simpa [hheld.2] using hsent.append_right [message]

theorem blockSend (h : t.Matches queue) (p : Int) {node : ProcessNodeContent} {priority : Int}
    (hwaiters : queue'.waiters = NodeList.place (stands priority) node queue.waiters)
    (hfull : queue.nbMessages ≠ 0) (hmessages : queue'.messages = queue.messages) :
    (t.next fid (.blockedSender p fid node.message)).Matches queue' := by
  have hfull' : queue'.nbMessages ≠ 0 := by rwa [nbMessages_eq hmessages]
  have hsent := h.sent
  have hplace := (NodeList.perm_place (stands priority) node queue.waiters).map
    ProcessNodeContent.message
  unfold MessageQueue.held at hsent
  rw [if_neg hfull] at hsent
  simp only [Traffic.next, if_true]
  refine ⟨by rw [hmessages]; exact h.fifo, ?_⟩
  unfold MessageQueue.held
  rw [if_neg hfull', hwaiters]
  have hmoved := (hplace.trans (List.perm_append_singleton _ _).symm).append_left t.accepted
  rw [← List.append_assoc] at hmoved
  exact hmoved.trans (hsent.append_right [node.message])

theorem blockReceive (h : t.Matches queue) (hempty : queue.nbMessages = 0)
    (hempty' : queue'.nbMessages = 0) : t.Matches queue' := by
  refine ⟨?_, ?_⟩
  · rw [messages_eq_nil hempty', ← messages_eq_nil hempty]
    exact h.fifo
  · have hsent := h.sent
    unfold MessageQueue.held at hsent ⊢
    rw [if_pos hempty] at hsent
    rwa [if_pos hempty']

theorem take (h : t.Matches queue) (p : Int) (hnil : queue.waiters = []) (hnil' : queue'.waiters = [])
    (hmessages : queue.messages = message :: queue'.messages) :
    (t.next fid (.received p fid message)).Matches queue' := by
  have hheld : queue.held = [] ∧ queue'.held = [] := by
    simp [MessageQueue.held, hnil, hnil']
  have hsent := h.sent
  rw [hheld.1] at hsent
  simp only [Traffic.next, if_true]
  refine ⟨?_, ?_⟩
  · simp [h.fifo, hmessages]
  · rwa [hheld.2]

theorem swap (h : t.Matches queue) (p q : Int) {node : ProcessNodeContent} {messages : List Int}
    (hwaiters : queue.waiters = node :: queue'.waiters)
    (hold : queue.messages = message :: messages)
    (hnew : queue'.messages = messages ++ [node.message]) :
    ((t.next fid (.received p fid message)).next fid
      (.taken p q fid node.message)).Matches queue' := by
  have hsome : queue.nbMessages ≠ 0 ∧ queue'.nbMessages ≠ 0 := by
    rw [← length_messages, ← length_messages, hold, hnew]
    simp
  have hsent := h.sent
  unfold MessageQueue.held at hsent
  rw [if_neg hsome.1, hwaiters] at hsent
  simp only [Traffic.next, if_true]
  refine ⟨?_, ?_⟩
  · simp [h.fifo, hold, hnew]
  · unfold MessageQueue.held
    rw [if_neg hsome.2]
    simpa using hsent

end Traffic.Matches

/-- The messages that wait are the same when a waiter changes its place. -/
theorem perm_reprioritised (p priority : Int) (xs : List ProcessNodeContent) :
    ((reprioritised p priority xs).map ProcessNodeContent.message).Perm
      (xs.map ProcessNodeContent.message) := by
  cases hfind : xs.find? (isOf p) with
  | none =>
      rw [reprioritised, hfind]
  | some content =>
      obtain ⟨hpid, before, after, rfl, hbefore⟩ := List.find?_eq_some_iff_append.mp hfind
      rw [reprioritised_split priority (fun y hy => by simpa using hbefore y hy) hpid]
      have hplace := NodeList.perm_place (stands priority)
        { content with priority := priority } (before ++ after)
      have hback : (before ++ content :: after).Perm (content :: (before ++ after)) :=
        List.perm_middle
      exact (hplace.map ProcessNodeContent.message).trans
        (hback.map ProcessNodeContent.message).symm

/-! ## What one step does -/

theorem eraseP_isOf {p : Int} {xs : List ProcessNodeContent}
    (h : p ∉ xs.map ProcessNodeContent.pid) : xs.eraseP (isOf p) = xs := by
  apply List.eraseP_of_forall_not
  intro node hnode hpid
  have heq : node.pid = p := by simpa [isOf] using hpid
  exact h (heq ▸ List.mem_map_of_mem hnode)

theorem traffic_reset {queue : MessageQueue} {fids : LockedRing Int} {nbQueues : Nat}
    {events : List HistoryEvent} (h : Resets step v fid' queue fids nbQueues events)
    (history : List HistoryEvent) (pids : List Int) (state : ProcessState) (fid : Int) :
    traffic fid (history ++ pids.map (fun p => .awoken p state) ++ .queueReset fid' :: events) =
      (traffic fid history).next fid (.queueReset fid') := by
  have hawoken : ∀ t : Traffic, (pids.map fun p => HistoryEvent.awoken p state).foldl
      (Traffic.next fid) t = t := by
    intro t
    induction pids with
    | nil => rfl
    | cons p pids ih => exact ih
  rw [traffic_append, traffic_append, hawoken]
  cases h with
  | preset => rfl
  | pdelete => rfl

theorem Effect.traffic (heffect : Effect step r v log v' log')
    (hcore : Core v r fun _ => False) (hrunning : v.state r = .running)
    (hspares : ∀ p, step.event = .call (.kill p) →
      p ∉ (v.queues fid).waiters.map ProcessNodeContent.pid)
    (h : (traffic fid log.history).Matches (v.queues fid)) :
    (SchlagOS.traffic fid log'.history).Matches (v'.queues fid) := by
  have hupdate : ∀ {fid' : Int} {queue : MessageQueue} {log' : Log},
      (fid' = fid → (SchlagOS.traffic fid log'.history).Matches queue) →
      (fid' ≠ fid → SchlagOS.traffic fid log'.history = SchlagOS.traffic fid log.history) →
      (SchlagOS.traffic fid log'.history).Matches (Function.update v.queues fid' queue fid) := by
    intro fid' queue log' hsame hother
    by_cases hfid : fid' = fid
    · subst hfid
      rw [Function.update_self]
      exact hsame rfl
    · rw [Function.update_of_ne (Ne.symm hfid), hother hfid]
      exact h
  have hkept : ∀ {queues : Int → MessageQueue}
      {change : List ProcessNodeContent → List ProcessNodeContent} {log' : Log},
      Rearranged change v.queues queues →
      ((change (v.queues fid).waiters).map ProcessNodeContent.message).Perm
        ((v.queues fid).waiters.map ProcessNodeContent.message) →
      SchlagOS.traffic fid log'.history = SchlagOS.traffic fid log.history →
      (SchlagOS.traffic fid log'.history).Matches (queues fid) := by
    intro queues change log' hqueues hperm htraffic
    rw [htraffic]
    refine h.rearrange (hqueues.messages_eq fid) ?_
    rw [hqueues.waiters_eq fid]
    exact hperm
  cases heffect
  case exit value queues frames hone hqueues hframes =>
    have hnot : r ∉ (v.queues fid).waiters.map ProcessNodeContent.pid := by
      intro hmem
      obtain ⟨node, hnode, rfl⟩ := List.mem_map.mp hmem
      rw [hcore.locked.listed.blocked_of_mem hnode] at hrunning
      cases hrunning
    refine hkept hqueues ?_ (traffic_record fid log _)
    rw [eraseP_isOf hnot]
  case kill p processQueue queues sleeping frames hevent hused halive hqueues hframes =>
    refine hkept hqueues ?_ (traffic_record fid log _)
    rw [eraseP_isOf (hspares p hevent)]
  case reprioritise p priority processQueue queues frames hevent hqueues hframes =>
    rcases hqueues with rfl | hqueues
    · exact h
    · exact hkept hqueues (perm_reprioritised p priority _) rfl
  case create fid' queue fids frames hfree horder hallocated hwaiters hmessages hframes =>
    refine hupdate (fun hfid => ?_) fun hfid => ?_
    · rw [traffic_record, Traffic.next, if_pos hfid]
      exact .empty hwaiters hmessages
    · simp [traffic_record, Traffic.next, hfid]
  case reset fid' queue fids nbQueues state processQueue resetReleases frames pids events hlive
      hevent hpids hstate hreleases hwaiters hmessages hframes =>
    refine hupdate (fun hfid => ?_) fun hfid => ?_
    all_goals dsimp only
    · rw [traffic_reset hevent, Traffic.next, if_pos hfid]
      exact .empty hwaiters hmessages
    · rw [traffic_reset hevent, Traffic.next, if_neg hfid]
  case buffer fid' message queue frames hsame hnil hnil' hmessages hframes =>
    refine hupdate (fun hfid => ?_) fun hfid => ?_
    · subst hfid
      rw [traffic_record]
      exact h.buffer r hnil hnil' hmessages
    · simp [traffic_record, Traffic.next, hfid]
  case hand fid' message node queue processQueue frames hsame hwaiters hempty hempty' hframes =>
    refine hupdate (fun hfid => ?_) fun hfid => ?_
    · subst hfid
      rw [traffic_record, traffic_record]
      exact h.hand r node.pid hempty hempty'
    · simp [traffic_record, Traffic.next, hfid]
  case blockSend fid' message priority queue frames hsame hstate hwaiters hfull hmessages =>
    refine hupdate (fun hfid => ?_) fun hfid => ?_
    · subst hfid
      rw [traffic_record]
      exact h.blockSend r hwaiters hfull hmessages
    · simp [traffic_record, Traffic.next, hfid]
  case take fid' message queue frames hsame hnil hnil' hmessages hframes =>
    refine hupdate (fun hfid => ?_) fun hfid => ?_
    · subst hfid
      rw [traffic_record]
      exact h.take r hnil hnil' hmessages
    · simp [traffic_record, Traffic.next, hfid]
  case swap fid' message messages node queue processQueue frames hsame hwaiters hold hnew
      hframes =>
    refine hupdate (fun hfid => ?_) fun hfid => ?_
    · subst hfid
      rw [traffic_record, traffic_record, traffic_record]
      exact h.swap r node.pid hwaiters hold hnew
    · simp [traffic_record, Traffic.next, hfid]
  case blockReceive fid' priority destination queue frames hsame hstate hwaiters hempty hempty' =>
    refine hupdate (fun hfid => ?_) fun hfid => ?_
    · subst hfid
      rw [traffic_record]
      exact h.blockReceive hempty hempty'
    · simp [traffic_record, Traffic.next]
  case start =>
    change (SchlagOS.traffic fid (log.record (.started r _)).history).Matches _
    rw [traffic_record]
    exact h
  case startFails =>
    change (SchlagOS.traffic fid (log.record (.notStarted _)).history).Matches _
    rw [traffic_record]
    exact h
  case goOn => exact h
  case sleeps => exact h
  case alarm => exact h
  all_goals
    rw [traffic_record]
    exact h

theorem Turn.traffic (hturn : Turn r s s')
    (h : (traffic fid s.log.history).Matches (s.view.queues fid)) :
    (SchlagOS.traffic fid s'.log.history).Matches (s'.view.queues fid) := by
  cases hturn with
  | pass _ hview hlog =>
      rw [hview, hlog]
      exact h
  | resume value _ _ _ hview hlog _ =>
      have htraffic : SchlagOS.traffic fid s'.log.history = SchlagOS.traffic fid s.log.history := by
        rw [hlog]
        exact traffic_record fid s.log (.resumed r value)
      rw [htraffic, hview]
      exact h
  | zombify p _ _ _ _ _ hzombified hlog =>
      have htraffic : SchlagOS.traffic fid s'.log.history = SchlagOS.traffic fid s.log.history := by
        rw [hlog]
        exact traffic_record fid s.log (.zombified p)
      rw [htraffic, hzombified.view]
      exact h
  | destroy p _ hdestroyed hlog =>
      have htraffic : SchlagOS.traffic fid s'.log.history = SchlagOS.traffic fid s.log.history := by
        rw [hlog]
        exact traffic_record fid s.log (.destroyed p)
      rw [htraffic, hdestroyed.view]
      exact h
  | switch _ _ _ _ _ _ _ _ hview hlog =>
      rw [hview, hlog]
      exact h

/-! ## Runs -/

theorem booted_traffic (fid : Int) :
    (traffic fid booted.log.history).Matches (booted.view.queues fid) := by
  have hempty : traffic fid booted.log.history = .empty := by
    change traffic fid [.created 0 keyBufferSize, .started processNotFoundCode 1] = _
    simp [traffic, Traffic.next]
  rw [hempty]
  by_cases hfid : fid = 0
  · subst hfid
    exact .empty rfl rfl
  · have hqueue : booted.view.queues fid = emptyMessageQueue := Function.update_of_ne hfid _ _
    rw [hqueue]
    exact .empty rfl rfl

theorem Core.held_eq (h : Core s.view r fun _ => False) (fid : Int) :
    (s.queues fid).held = (s.senders fid).map ProcessNodeContent.message := by
  cases hlive : isLive s fid with
  | true =>
      have hlaw := h.queueLaw hlive
      unfold MessageQueue.held
      split_ifs with hzero
      · have hreceives : ∀ node ∈ s.waiters fid, s.receives node.pid := by
          intro node hnode
          have hpos := hlaw.ring.capacity_pos
          rcases hlaw.waiting (List.ne_nil_of_mem hnode) with ⟨-, hall⟩ | ⟨hfull, -⟩
          · exact hall node hnode
          · omega
        have hnone : s.senders fid = [] := by
          unfold Kernel.senders
          rw [List.filter_eq_nil_iff]
          intro node hnode
          simp [Kernel.sends, (hreceives node hnode).2]
        rw [hnone]
        rfl
      · rw [hlaw.senders_eq hzero]
        rfl
  | false =>
      have hnone : s.waiters fid = [] := by
        apply List.eq_nil_iff_forall_not_mem.mpr
        intro node hnode
        rw [h.live_of_waiter hnode] at hlive
        cases hlive
      have hheld : (s.queues fid).waiters = [] := hnone
      simp [MessageQueue.held, hheld, Kernel.senders, hnone]

/-- No message of the queue is lost, doubled or overtaken once it is accepted. -/
structure Conserved (s : Kernel) (fid : Int) : Prop where
  fifo : (traffic fid s.history).accepted = (traffic fid s.history).obtained ++ s.messages fid
  sent : ((traffic fid s.history).accepted ++
    (s.senders fid).map ProcessNodeContent.message).Perm (traffic fid s.history).sent

theorem messages_conserved (h : Running ok s) (htame : Tame ok)
    (hspares : ∀ s step, ok s step → SparesWaiters fid s step) : Conserved s fid := by
  obtain ⟨r, hsafe, hmatches, -⟩ := h.tame
    (I := fun s _ => (traffic fid s.log.history).Matches (s.view.queues fid)) htame
    (booted_traffic fid) fun s step s' r r' hsafe hmatches hs hmoved => by
      rcases hmoved.change with ⟨hphase, -, heffect⟩ | hturn
      · exact heffect.traffic hsafe.inv.core (hsafe.inv.running (.inl hphase))
          (hspares s step hs) hmatches
      · exact hturn.traffic hmatches
  refine ⟨hmatches.fifo, ?_⟩
  have hsent := hmatches.sent
  rw [← hsafe.inv.core.held_eq fid]
  exact hsent

/-- Process 3 sends two messages to a queue of size 1 and process 4 one; process 2 obtains
the first of them and makes process 4 wait in front of process 3. -/
theorem messages_conserved_run : ∃ s, (traffic 1 s.history).accepted = [7, 9] ∧
    (traffic 1 s.history).obtained = [7] ∧ (traffic 1 s.history).sent = [7, 8, 9] ∧
    s.messages 1 = [9] ∧ Conserved s 1 := by
  have hrun : ∃ s, Running (fun s step => step.event.calm = true ∧ SparesWaiters 1 s step) s ∧
      decide ((traffic 1 s.history).accepted = [7, 9] ∧ (traffic 1 s.history).obtained = [7] ∧
        (traffic 1 s.history).sent = [7, 8, 9] ∧ s.messages 1 = [9]) = true :=
    Running.computed ([Event.init 4096 128, .call (.pcreate 1),
      .call (.start 0x1000000 4096 200 ⟨0x1000000, 0⟩), .call (.psend 1 7), .call (.psend 1 8),
      .call (.start 0x1000000 4096 150 ⟨0x1000000, 0⟩), .call (.psend 1 9),
      .call (.chprio 4 220), .call (.preceive 1 0)].map Event.step) []
      (by decide +kernel)
  obtain ⟨s, hrun, htest⟩ := hrun
  obtain ⟨haccepted, hobtained, hsent, hmessages⟩ := of_decide_eq_true htest
  exact ⟨s, haccepted, hobtained, hsent, hmessages,
    messages_conserved hrun (.inl fun _ _ hs => hs.1) fun _ _ hs => hs.2⟩

end SchlagOS
