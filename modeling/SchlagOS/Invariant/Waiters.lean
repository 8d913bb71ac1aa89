import SchlagOS.Invariant.WaitingLists
import SchlagOS.Invariant.Stack

/-!
# Processes locked on a queue

A process in state BLOCKED_BY_MESSAGE stands in one entry of one waiting list,
under its own priority, and goes on behind the `schedule` of its `psend` or
`preceive`.  `Listed` is about the lists alone, `Live` about one queue, and
`Locked` about the whole table.
-/

namespace SchlagOS

open Foundation

/-! ## The lists -/

structure Listed (state : Int → ProcessState) (priority : Int → Int)
    (lists : Int → List ProcessNodeContent) : Prop where
  member : ∀ p, state p = .blockedByMessage ↔ ∃ fid, ∃ node ∈ lists fid, node.pid = p
  nodup : ∀ fid, ((lists fid).map ProcessNodeContent.pid).Nodup
  unique : ∀ fid fid' node node', node ∈ lists fid → node' ∈ lists fid' →
    node.pid = node'.pid → fid = fid'
  priority_eq : ∀ fid node, node ∈ lists fid → node.priority = priority node.pid
  sorted : ∀ fid, (lists fid).Pairwise fun a b => b.priority ≤ a.priority

namespace Listed

variable {state state' : Int → ProcessState} {priority : Int → Int}
  {lists : Int → List ProcessNodeContent} {p : Int} {b : ProcessState}

theorem congr (h : Listed state priority lists)
    (hstate : ∀ p, state' p = .blockedByMessage ↔ state p = .blockedByMessage) :
    Listed state' priority lists where
  member p := by rw [hstate, h.member]
  nodup := h.nodup
  unique := h.unique
  priority_eq := h.priority_eq
  sorted := h.sorted

theorem ne_of_mem (h : Listed state priority lists) (hp : state p ≠ .blockedByMessage)
    {fid : Int} {node : ProcessNodeContent} (hnode : node ∈ lists fid) : node.pid ≠ p := by
  intro heq
  exact hp ((h.member p).mpr ⟨fid, node, hnode, heq⟩)

theorem blocked_of_mem (h : Listed state priority lists) {fid : Int}
    {node : ProcessNodeContent} (hnode : node ∈ lists fid) :
    state node.pid = .blockedByMessage := (h.member node.pid).mpr ⟨fid, node, hnode, rfl⟩

theorem reprioritise (h : Listed state priority lists) (hp : state p ≠ .blockedByMessage)
    (n : Int) : Listed state (Function.update priority p n) lists where
  member := h.member
  nodup := h.nodup
  unique := h.unique
  priority_eq fid node hnode := by
    rw [Function.update_of_ne (h.ne_of_mem hp hnode)]
    exact h.priority_eq fid node hnode
  sorted := h.sorted

theorem mem_erase (h : Listed state priority lists) {fid : Int}
    {node : ProcessNodeContent} :
    node ∈ (lists fid).eraseP (isOf p) ↔ node ∈ lists fid ∧ node.pid ≠ p := by
  have hnodup := h.nodup fid
  revert hnodup
  generalize lists fid = xs
  intro hnodup
  induction xs with
  | nil => simp
  | cons x xs ih =>
      rw [List.map_cons, List.nodup_cons] at hnodup
      by_cases hx : x.pid = p
      · rw [List.eraseP_cons_of_pos (by simp [isOf, hx])]
        constructor
        · intro hmem
          refine ⟨List.mem_cons_of_mem _ hmem, fun heq => hnodup.1 ?_⟩
          rw [hx, ← heq]
          exact List.mem_map_of_mem hmem
        · rintro ⟨hmem, hne⟩
          rcases List.mem_cons.mp hmem with rfl | hmem
          · exact absurd hx hne
          · exact hmem
      · have hrest := ih hnodup.2
        rw [List.eraseP_cons_of_neg (by simp [isOf, hx]), List.mem_cons, List.mem_cons]
        constructor
        · rintro (rfl | hmem)
          · exact ⟨.inl rfl, hx⟩
          · exact ⟨.inr (hrest.mp hmem).1, (hrest.mp hmem).2⟩
        · rintro ⟨rfl | hmem, hne⟩
          · exact .inl rfl
          · exact .inr (hrest.mpr ⟨hmem, hne⟩)

/-- The entry of a process goes out of the lists. -/
theorem drop (h : Listed state priority lists) (hb : b ≠ .blockedByMessage) (p : Int) :
    Listed (Function.update state p b) priority
      (fun fid => (lists fid).eraseP (isOf p)) where
  member x := by
    simp only [h.mem_erase]
    by_cases hx : x = p
    · subst hx
      simp only [Function.update_self, hb, false_iff]
      rintro ⟨fid, node, ⟨-, hne⟩, heq⟩
      exact hne heq
    · rw [Function.update_of_ne hx, h.member]
      constructor
      · rintro ⟨fid, node, hnode, rfl⟩
        exact ⟨fid, node, ⟨hnode, hx⟩, rfl⟩
      · rintro ⟨fid, node, ⟨hnode, -⟩, rfl⟩
        exact ⟨fid, node, hnode, rfl⟩
  nodup fid := (h.nodup fid).sublist (List.eraseP_sublist.map _)
  unique fid fid' node node' hnode hnode' :=
    h.unique fid fid' node node' (List.mem_of_mem_eraseP hnode)
      (List.mem_of_mem_eraseP hnode')
  priority_eq fid node hnode := h.priority_eq fid node (List.mem_of_mem_eraseP hnode)
  sorted fid := (h.sorted fid).sublist List.eraseP_sublist

/-- The first entry of a list goes out. -/
theorem pop (h : Listed state priority lists) (hb : b ≠ .blockedByMessage) {fid : Int}
    {node : ProcessNodeContent} {rest : List ProcessNodeContent}
    (hlist : lists fid = node :: rest) :
    Listed (Function.update state node.pid b) priority
      (Function.update lists fid rest) := by
  have hdrop := h.drop hb node.pid
  have hlists : (fun fid => (lists fid).eraseP (isOf node.pid)) =
      Function.update lists fid rest := by
    funext fid'
    by_cases hfid : fid' = fid
    · subst hfid
      rw [Function.update_self, hlist, List.eraseP_cons_of_pos (by simp [isOf])]
    · rw [Function.update_of_ne hfid]
      apply List.eraseP_of_forall_not
      intro node' hnode'
      have hne : node'.pid ≠ node.pid := fun heq =>
        hfid (h.unique fid' fid node' node hnode' (by simp [hlist]) heq)
      simp [isOf, hne]
  rwa [hlists] at hdrop

/-- A process enters a list. -/
theorem insert (h : Listed state priority lists) (hp : state p ≠ .blockedByMessage)
    (fid : Int) {node : ProcessNodeContent} (hpid : node.pid = p)
    (hpriority : node.priority = priority p) :
    Listed (Function.update state p .blockedByMessage) priority
      (Function.update lists fid
        (NodeList.place (stands node.priority) node (lists fid))) := by
  have hmem : ∀ fid' x, x ∈ Function.update lists fid
      (NodeList.place (stands node.priority) node (lists fid)) fid' ↔
      x ∈ lists fid' ∨ (fid' = fid ∧ x = node) := by
    intro fid' x
    by_cases hfid : fid' = fid
    · subst hfid
      rw [Function.update_self, NodeList.mem_place]
      constructor
      · rintro (rfl | hx)
        · exact .inr ⟨rfl, rfl⟩
        · exact .inl hx
      · rintro (hx | ⟨-, rfl⟩)
        · exact .inr hx
        · exact .inl rfl
    · rw [Function.update_of_ne hfid]
      simp [hfid]
  constructor
  · intro x
    by_cases hx : x = p
    · subst hx
      simp only [Function.update_self, true_iff]
      exact ⟨fid, node, (hmem fid node).mpr (.inr ⟨rfl, rfl⟩), hpid⟩
    · rw [Function.update_of_ne hx, h.member]
      constructor
      · rintro ⟨fid', node', hnode', rfl⟩
        exact ⟨fid', node', (hmem fid' node').mpr (.inl hnode'), rfl⟩
      · rintro ⟨fid', node', hnode', rfl⟩
        rcases (hmem fid' node').mp hnode' with hnode' | ⟨-, rfl⟩
        · exact ⟨fid', node', hnode', rfl⟩
        · exact absurd hpid hx
  · intro fid'
    by_cases hfid : fid' = fid
    · subst hfid
      rw [Function.update_self]
      have hperm := (NodeList.perm_place (stands node.priority) node (lists fid')).map
        ProcessNodeContent.pid
      rw [hperm.nodup_iff, List.map_cons, List.nodup_cons]
      refine ⟨fun hnode => ?_, h.nodup fid'⟩
      obtain ⟨node', hnode', heq⟩ := List.mem_map.mp hnode
      exact h.ne_of_mem hp hnode' (heq.trans hpid)
    · rw [Function.update_of_ne hfid]
      exact h.nodup fid'
  · intro fid₁ fid₂ node₁ node₂ h₁ h₂ heq
    rcases (hmem fid₁ node₁).mp h₁ with hold₁ | ⟨hfid₁, hnode₁⟩
    · rcases (hmem fid₂ node₂).mp h₂ with hold₂ | ⟨-, hnode₂⟩
      · exact h.unique fid₁ fid₂ node₁ node₂ hold₁ hold₂ heq
      · rw [hnode₂, hpid] at heq
        exact absurd heq (h.ne_of_mem hp hold₁)
    · rcases (hmem fid₂ node₂).mp h₂ with hold₂ | ⟨hfid₂, -⟩
      · rw [hnode₁, hpid] at heq
        exact absurd heq.symm (h.ne_of_mem hp hold₂)
      · rw [hfid₁, hfid₂]
  · intro fid' node' hnode'
    rcases (hmem fid' node').mp hnode' with hnode' | ⟨-, rfl⟩
    · exact h.priority_eq fid' node' hnode'
    · rw [hpriority, hpid]
  · intro fid'
    by_cases hfid : fid' = fid
    · subst hfid
      rw [Function.update_self]
      exact NodeList.sorted_place (h.sorted fid')
    · rw [Function.update_of_ne hfid]
      exact h.sorted fid'

/-- A locked process changes its priority. -/
theorem requeue (h : Listed state priority lists) (hp : state p = .blockedByMessage)
    (n : Int) : Listed state (Function.update priority p n)
      (fun fid => reprioritised p n (lists fid)) := by
  obtain ⟨fid, node, hnode, hpid⟩ := (h.member p).mp hp
  have hdrop := (h.drop (b := .unset) (by decide) p).reprioritise (p := p)
    (by rw [Function.update_self]; decide) n
  have hpid' : { node with priority := n }.pid = p := hpid
  have hinsert := hdrop.insert (by rw [Function.update_self]; decide) fid hpid' (by simp)
  have hstate : Function.update (Function.update state p ProcessState.unset) p
      .blockedByMessage = state := by
    rw [Function.update_idem, ← hp, Function.update_eq_self]
  have hfind : (lists fid).find? (isOf p) = some node := by
    cases hfound : (lists fid).find? (isOf p) with
    | none =>
        have := List.find?_eq_none.mp hfound node hnode
        simp [isOf, hpid] at this
    | some node' =>
        have hmem := List.mem_of_find?_eq_some hfound
        have hpid' := List.find?_some hfound
        simp only [isOf, decide_eq_true_eq] at hpid'
        rw [List.inj_on_of_nodup_map (h.nodup fid) hmem hnode (hpid'.trans hpid.symm)]
  have hlists : Function.update (fun fid => (lists fid).eraseP (isOf p)) fid
      (NodeList.place (stands n) { node with priority := n }
        ((lists fid).eraseP (isOf p))) = fun fid => reprioritised p n (lists fid) := by
    funext fid'
    by_cases hfid : fid' = fid
    · subst hfid
      rw [Function.update_self, reprioritised, hfind]
    · rw [Function.update_of_ne hfid]
      have hnone : ∀ x ∈ lists fid', ¬(isOf p x = true) := by
        intro x hx hxp
        simp only [isOf, decide_eq_true_eq] at hxp
        exact hfid (h.unique fid' fid x node hx hnode (hxp.trans hpid.symm))
      rw [List.eraseP_of_forall_not hnone, reprioritised, List.find?_eq_none.mpr hnone]
  rw [hstate] at hinsert
  dsimp only at hinsert
  rwa [hlists] at hinsert

end Listed

/-! ## One queue -/

def MessageQueue.waiters (queue : MessageQueue) : List ProcessNodeContent :=
  queue.lockedProcesses.toList

def MessageQueue.messages (queue : MessageQueue) : List Int :=
  queue.ring.toList queue.size queue.nbMessages

structure Live (queue : MessageQueue) : Prop where
  ring : queue.ring.Holds queue.size queue.messages
  list : queue.lockedProcesses.Holds queue.waiters
  level : queue.waiters ≠ [] → queue.nbMessages = 0 ∨ queue.nbMessages = queue.size

/-- A queue that is not created. -/
structure Idle (queue : MessageQueue) : Prop where
  size : queue.size = 0
  nbMessages : queue.nbMessages = 0
  consume : queue.ring.consume = 0
  produce : queue.ring.produce = 0
  waiters : queue.waiters = []

theorem length_messages (queue : MessageQueue) :
    queue.messages.length = queue.nbMessages := by
  simp [MessageQueue.messages, LockedRing.toList]

theorem idle_emptyMessageQueue : Idle emptyMessageQueue := by
  constructor <;> rfl

namespace Live

variable {queue : MessageQueue}

theorem size_pos (h : Live queue) : 0 < queue.size := h.ring.capacity_pos

theorem nbMessages_le (h : Live queue) : queue.nbMessages ≤ queue.size := by
  have := h.ring.length_le
  rwa [length_messages] at this

theorem waiters_pos (h : Live queue) :
    0 < queue.lockedProcesses.size ↔ queue.waiters ≠ [] := by
  rw [h.list.size_eq, List.length_pos_iff]

/-- A queue with the same buffer and another list. -/
theorem withList (h : Live queue) {list : NodeList ProcessNodeContent}
    {xs : List ProcessNodeContent} (hlist : list.Holds xs)
    (hlevel : xs ≠ [] → queue.nbMessages = 0 ∨ queue.nbMessages = queue.size) :
    Live { queue with lockedProcesses := list } ∧
      MessageQueue.waiters { queue with lockedProcesses := list } = xs := by
  have hxs : list.toList = xs := hlist.toList_eq
  refine ⟨⟨h.ring, ?_, ?_⟩, hxs⟩
  · unfold MessageQueue.waiters
    rwa [hxs]
  · unfold MessageQueue.waiters
    rwa [hxs]

theorem withRing (h : Live queue) {ring : LockedRing Int} {messages : List Int}
    (hring : ring.Holds queue.size messages)
    (hlevel : queue.waiters ≠ [] → messages.length = 0 ∨ messages.length = queue.size) :
    Live { queue with ring := ring, nbMessages := messages.length } ∧
      MessageQueue.messages { queue with ring := ring, nbMessages := messages.length } =
        messages := by
  have hmessages : ring.toList queue.size messages.length = messages := hring.toList_eq
  refine ⟨⟨?_, h.list, hlevel⟩, hmessages⟩
  unfold MessageQueue.messages
  rwa [hmessages]

/-- `message_queue_register` on a queue that is not full. -/
theorem register (h : Live queue) (hspace : queue.nbMessages < queue.size)
    (hnil : queue.waiters = []) (message : Int) :
    ∃ queue', messageQueueRegister queue message = .ok queue' ∧ Live queue' ∧
      queue'.messages = queue.messages ++ [message] ∧
      queue'.nbMessages = queue.nbMessages + 1 ∧
      queue'.waiters = [] ∧ queue'.size = queue.size ∧
      queue'.allocated = queue.allocated := by
  obtain ⟨ring, hpush, hring⟩ := h.ring.push (x := message)
    (by rwa [length_messages])
  have hwith := h.withRing hring (by simp [hnil])
  rw [List.length_append, length_messages, List.length_singleton] at hwith
  exact ⟨_, by simp [messageQueueRegister, hpush], hwith.1, hwith.2, rfl, hnil, rfl, rfl⟩

/-- `message_queue_unregister` on a queue with a message. -/
theorem unregister (h : Live queue) (hsome : queue.nbMessages ≠ 0)
    (hnil : queue.waiters = []) :
    ∃ message queue', messageQueueUnregister queue = .ok (message, queue') ∧
      Live queue' ∧ queue.messages = message :: queue'.messages ∧
      queue'.nbMessages + 1 = queue.nbMessages ∧ queue'.waiters = [] ∧
      queue'.size = queue.size ∧ queue'.allocated = queue.allocated := by
  have hlength := length_messages queue
  cases hmessages : queue.messages with
  | nil => simp_all
  | cons message rest =>
      have hholds := h.ring
      rw [hmessages] at hholds hlength
      rw [List.length_cons] at hlength
      obtain ⟨ring, hpop, hring⟩ := hholds.pop
      have hwith := h.withRing hring (by simp [hnil])
      have hpred : uint32Pred queue.nbMessages = rest.length := by
        unfold uint32Pred
        rw [if_neg hsome]
        omega
      refine ⟨message, _, by simp only [messageQueueUnregister, hpop, demand_some, ok_bind,
        pure_eq_ok, hpred], hwith.1, ?_, hlength, hnil, rfl, rfl⟩
      rw [hwith.2]

theorem removeFirst (h : Live queue) {node : ProcessNodeContent}
    {rest : List ProcessNodeContent} (hwaiters : queue.waiters = node :: rest) :
    ∃ list, processQueueRemoveFirst queue.lockedProcesses = .ok (node, list) ∧
      list.Holds rest := by
  have hlist := h.list
  rw [hwaiters] at hlist
  obtain ⟨list, hremove, hholds⟩ := hlist.removeFirst
  exact ⟨list, by simp [processQueueRemoveFirst, hremove], hholds⟩

/-- The three operations by which `preceive` makes room in a full queue and gives it to the
first blocked sender. -/
theorem swap (h : Live queue) (hfull : queue.nbMessages = queue.size)
    {node : ProcessNodeContent} {rest : List ProcessNodeContent}
    (hwaiters : queue.waiters = node :: rest) :
    ∃ message messages queue₁ list queue₂,
      messageQueueUnregister queue = .ok (message, queue₁) ∧
      processQueueRemoveFirst queue₁.lockedProcesses = .ok (node, list) ∧
      messageQueueRegister { queue₁ with lockedProcesses := list } node.message =
        .ok queue₂ ∧
      Live queue₂ ∧ queue.messages = message :: messages ∧
      queue₂.messages = messages ++ [node.message] ∧ queue₂.waiters = rest ∧
      queue₂.nbMessages = queue.nbMessages ∧ queue₂.allocated = queue.allocated ∧
      queue₂.size = queue.size := by
  have hlength := length_messages queue
  have hpos := h.size_pos
  obtain ⟨list, hremove, hlist⟩ := h.removeFirst hwaiters
  cases hmessages : queue.messages with
  | nil =>
      rw [hmessages, List.length_nil] at hlength
      omega
  | cons message messages =>
      have hholds := h.ring
      rw [hmessages] at hholds hlength
      rw [List.length_cons] at hlength
      obtain ⟨ring₁, hpop, hring₁⟩ := hholds.pop
      obtain ⟨ring₂, hpush, hring₂⟩ := hring₁.push (x := node.message) (by omega)
      have hlevel : (messages ++ [node.message]).length = queue.nbMessages := by
        rw [List.length_append, List.length_singleton]
        exact hlength
      have hwith := h.withRing hring₂ fun _ => .inr (hlevel.trans hfull)
      have hwith' := hwith.1.withList hlist fun _ => .inr (hlevel.trans hfull)
      have hpred : uint32Pred queue.nbMessages + 1 = queue.nbMessages := by
        unfold uint32Pred
        split
        · omega
        · omega
      rw [hlevel] at hwith hwith'
      refine ⟨message, messages,
        { queue with ring := ring₁, nbMessages := uint32Pred queue.nbMessages }, list,
        { queue with ring := ring₂, lockedProcesses := list }, ?_, hremove, ?_, hwith'.1,
        rfl, hwith.2, hwith'.2, rfl, rfl, rfl⟩
      · simp only [messageQueueUnregister, hpop, demand_some, ok_bind, pure_eq_ok]
      · simp only [messageQueueRegister, hpush, demand_some, ok_bind, pure_eq_ok, hpred]

/-- A queue right after `pcreate`. -/
theorem created (h : Idle queue) (size : Nat) (hsize : 0 < size) (buffer : Nat → Int) :
    Live { queue with
      allocated := true
      ring := { queue.ring with buffer := buffer }
      size := size
      lockedProcesses := .empty } where
  ring := by
    have hmessages : MessageQueue.messages { queue with
        allocated := true
        ring := { queue.ring with buffer := buffer }
        size := size
        lockedProcesses := .empty } = [] := by
      rw [← List.length_eq_zero_iff, length_messages]
      exact h.nbMessages
    rw [hmessages]
    refine ⟨0, hsize, by simp, ?_, by simp, fun _ => .inr h.consume, by simp⟩
    have hne : ([] : List Int).length ≠ size := by
      rw [List.length_nil]
      omega
    rw [if_neg hne]
    simp [h.produce]
  list := by
    have hwaiters : (NodeList.empty : NodeList ProcessNodeContent).toList = [] :=
      NodeList.empty_holds.toList_eq
    unfold MessageQueue.waiters
    rw [hwaiters]
    exact NodeList.empty_holds
  level := by
    intro hne
    exact absurd NodeList.empty_holds.toList_eq hne

end Live

/-! ## The table -/

/-- Where a process locked on the queue goes on. -/
def resumeFrame (queue : MessageQueue) (pid : Int) : Frame :=
  if queue.nbMessages = 0 then .preceiveResume pid else .psendResume pid

structure Locked (state : Int → ProcessState) (priority : Int → Int)
    (call : Int → List Frame) (queues : Int → MessageQueue) : Prop where
  live : ∀ fid, (queues fid).allocated = true → Live (queues fid)
  idle : ∀ fid, (queues fid).allocated = false → Idle (queues fid)
  range : ∀ fid, (queues fid).allocated = true → 0 ≤ fid ∧ fid < nbQueue
  listed : Listed state priority fun fid => (queues fid).waiters
  resume : ∀ fid node, node ∈ (queues fid).waiters →
    (call node.pid).head? = some (resumeFrame (queues fid) node.pid)

/-- The waiting lists have changed, and nothing else of the queues. -/
def Rearranged (change : List ProcessNodeContent → List ProcessNodeContent)
    (queues queues' : Int → MessageQueue) : Prop :=
  ∀ fid, ∃ list, queues' fid = { queues fid with lockedProcesses := list } ∧
    (queues' fid).waiters = change (queues fid).waiters

theorem Rearranged.allocated_eq
    {change : List ProcessNodeContent → List ProcessNodeContent}
    {queues queues' : Int → MessageQueue} (h : Rearranged change queues queues')
    (fid : Int) : (queues' fid).allocated = (queues fid).allocated := by
  obtain ⟨list, heq, -⟩ := h fid
  rw [heq]

theorem Rearranged.messages_eq
    {change : List ProcessNodeContent → List ProcessNodeContent}
    {queues queues' : Int → MessageQueue} (h : Rearranged change queues queues')
    (fid : Int) : (queues' fid).messages = (queues fid).messages := by
  obtain ⟨list, heq, -⟩ := h fid
  rw [heq]
  rfl

theorem Rearranged.waiters_eq
    {change : List ProcessNodeContent → List ProcessNodeContent}
    {queues queues' : Int → MessageQueue} (h : Rearranged change queues queues')
    (fid : Int) : (queues' fid).waiters = change (queues fid).waiters := by
  obtain ⟨list, -, heq⟩ := h fid
  exact heq

namespace Locked

variable {state state' : Int → ProcessState} {priority : Int → Int}
  {call : Int → List Frame} {queues queues' : Int → MessageQueue} {p : Int}
  {b : ProcessState}

theorem allocated_of_mem (h : Locked state priority call queues) {fid : Int}
    {node : ProcessNodeContent} (hnode : node ∈ (queues fid).waiters) :
    (queues fid).allocated = true := by
  cases hallocated : (queues fid).allocated with
  | true => rfl
  | false =>
      rw [(h.idle fid hallocated).waiters] at hnode
      simp at hnode

theorem congr (h : Locked state priority call queues)
    (hstate : ∀ p, state' p = .blockedByMessage ↔ state p = .blockedByMessage) :
    Locked state' priority call queues :=
  { h with listed := h.listed.congr hstate }

/-- The rule for a process that is not locked before and after. -/
theorem move (h : Locked state priority call queues) (hp : state p ≠ .blockedByMessage)
    (hb : b ≠ .blockedByMessage) (frames : List Frame) :
    Locked (Function.update state p b) priority (Function.update call p frames)
      queues where
  live := h.live
  idle := h.idle
  range := h.range
  listed := h.listed.congr (update_eq_iff hp hb)
  resume fid node hnode := by
    rw [Function.update_of_ne (h.listed.ne_of_mem hp hnode)]
    exact h.resume fid node hnode

theorem moveState (h : Locked state priority call queues)
    (hp : state p ≠ .blockedByMessage) (hb : b ≠ .blockedByMessage) :
    Locked (Function.update state p b) priority call queues := by
  have hmove := h.move hp hb (call p)
  rwa [Function.update_eq_self] at hmove

theorem reprioritise (h : Locked state priority call queues)
    (hp : state p ≠ .blockedByMessage) (n : Int) :
    Locked state (Function.update priority p n) call queues where
  live := h.live
  idle := h.idle
  range := h.range
  listed := h.listed.reprioritise hp n
  resume := h.resume

/-- The lists that are not visited are empty. -/
private theorem visited_list (h : Locked state priority call queues)
    {result : Int → NodeList ProcessNodeContent → Prop}
    (hvisited : Visited nbQueue result queues queues')
    (change : List ProcessNodeContent → List ProcessNodeContent)
    (hnil : change [] = [])
    (hresult : ∀ fid list, (queues fid).allocated = true → result fid list →
      list.Holds (change (queues fid).waiters)) (fid : Int) :
    ∃ list, queues' fid = { queues fid with lockedProcesses := list } ∧
      (queues' fid).waiters = change (queues fid).waiters ∧
      ((queues fid).allocated = true → list.Holds (change (queues fid).waiters)) := by
  obtain ⟨list, heq, hcase⟩ := hvisited fid
  refine ⟨list, heq, ?_⟩
  cases hallocated : (queues fid).allocated with
  | true =>
      have hrange := h.range fid hallocated
      have hsize := (h.live fid hallocated).size_pos
      rw [if_pos ⟨hrange.1, hrange.2, hsize⟩] at hcase
      have hholds := hresult fid list hallocated hcase
      refine ⟨?_, fun _ => hholds⟩
      rw [heq, MessageQueue.waiters]
      exact hholds.toList_eq
  | false =>
      have hidle := h.idle fid hallocated
      have hsize := hidle.size
      rw [if_neg (by omega)] at hcase
      refine ⟨?_, fun htrue => by simp at htrue⟩
      rw [heq, hcase, hidle.waiters, hnil]

private theorem of_visited (h : Locked state priority call queues)
    {result : Int → NodeList ProcessNodeContent → Prop} {priority' : Int → Int}
    (hvisited : Visited nbQueue result queues queues')
    (change : List ProcessNodeContent → List ProcessNodeContent)
    (hnil : change [] = [])
    (hresult : ∀ fid list, (queues fid).allocated = true → result fid list →
      list.Holds (change (queues fid).waiters))
    (hpids : ∀ xs node, node ∈ change xs → ∃ node' ∈ xs, node'.pid = node.pid)
    (hlisted : Listed state' priority' fun fid => change (queues fid).waiters) :
    Locked state' priority' call queues' ∧ Rearranged change queues queues' := by
  have hlist := h.visited_list hvisited change hnil hresult
  refine ⟨?_, fun fid => ?_⟩
  rotate_left
  · obtain ⟨list, heq, hwaiters, -⟩ := hlist fid
    exact ⟨list, heq, hwaiters⟩
  have hallocated : ∀ fid, (queues' fid).allocated = (queues fid).allocated := by
    intro fid
    obtain ⟨list, heq, -⟩ := hlist fid
    rw [heq]
  constructor
  · intro fid hlive
    rw [hallocated] at hlive
    obtain ⟨list, heq, -, hholds⟩ := hlist fid
    have hold := h.live fid hlive
    rw [heq]
    refine (hold.withList (hholds hlive) fun hne => hold.level fun hwaiters => hne ?_).1
    rw [hwaiters, hnil]
  · intro fid hidle
    rw [hallocated] at hidle
    obtain ⟨list, heq, hwaiters, -⟩ := hlist fid
    have hold := h.idle fid hidle
    refine ⟨?_, ?_, ?_, ?_, ?_⟩
    · rw [heq]
      exact hold.size
    · rw [heq]
      exact hold.nbMessages
    · rw [heq]
      exact hold.consume
    · rw [heq]
      exact hold.produce
    · rw [hwaiters, hold.waiters, hnil]
  · intro fid hlive
    rw [hallocated] at hlive
    exact h.range fid hlive
  · have hlists : (fun fid => (queues' fid).waiters) =
        fun fid => change (queues fid).waiters := by
      funext fid
      obtain ⟨list, -, hwaiters, -⟩ := hlist fid
      exact hwaiters
    rwa [hlists]
  · intro fid node hnode
    obtain ⟨list, heq, hwaiters, -⟩ := hlist fid
    rw [hwaiters] at hnode
    obtain ⟨node', hnode', hpid⟩ := hpids _ _ hnode
    have hresume := h.resume fid node' hnode'
    rw [hpid] at hresume
    rw [hresume, heq]
    rfl

/-- The rule of `message_queues_notify_processus_killed`. -/
theorem drop (h : Locked state priority call queues) (hb : b ≠ .blockedByMessage)
    {bad : Panic → Prop} :
    Meets (visitQueues
        (fun queue =>
          match processQueueRemoveFirstWithPid queue p with
          | some (_, queue) => .ok queue
          | none => .ok queue) nbQueue queues)
      (fun queues' => Locked (Function.update state p b) priority call queues' ∧
        Rearranged (fun xs => xs.eraseP (isOf p)) queues queues')
      bad := by
  refine (visitQueues_meets (fun fid list => (queues fid).allocated = true →
    list.Holds ((queues fid).waiters.eraseP (isOf p))) fun fid _ => ?_).mono
      (fun queues' hvisited => ?_) fun e he => he
  · cases hallocated : (queues fid).allocated with
    | true =>
        rcases removeWithPid_holds (h.live fid hallocated).list p with
          ⟨content, list', hremove, -, hlist'⟩ | ⟨hremove, hnone⟩
        · rw [hremove, meets_ok]
          intro _
          exact hlist'
        · rw [hremove, meets_ok]
          intro _
          rw [List.eraseP_of_forall_not (List.find?_eq_none.mp hnone)]
          exact (h.live fid hallocated).list
    | false =>
        split
        · rw [meets_ok]
          intro hfalse
          simp at hfalse
        · rw [meets_ok]
          intro hfalse
          simp at hfalse
  · exact h.of_visited hvisited (fun xs => xs.eraseP (isOf p)) rfl
      (fun fid list hallocated hlist => hlist hallocated)
      (fun xs node hnode => ⟨node, List.mem_of_mem_eraseP hnode, rfl⟩)
      (h.listed.drop hb p)

/-- The rule of `message_queues_notify_priority_changed`. -/
theorem requeue (h : Locked state priority call queues) {mem : Memory}
    (hp : state p = .blockedByMessage) (n : Int) :
    Meets (visitQueues
        (fun queue => changePriorityFrom mem p n (2 * queue.size + 1) queue.first queue)
        nbQueue queues)
      (fun queues' => (Locked state (Function.update priority p n) call queues' ∧
        Rearranged (reprioritised p n) queues queues') ∧ mem.processNode = true)
      (fun e => e = .processNode ∧ mem.processNode = false) := by
  have hpids : ∀ xs node, node ∈ reprioritised p n xs →
      ∃ node' ∈ xs, node'.pid = node.pid := by
    intro xs node hnode
    unfold reprioritised at hnode
    cases hfind : xs.find? (isOf p) with
    | none =>
        rw [hfind] at hnode
        exact ⟨node, hnode, rfl⟩
    | some content =>
        rw [hfind] at hnode
        rcases NodeList.mem_place.mp hnode with rfl | hnode
        · exact ⟨content, List.mem_of_find?_eq_some hfind, rfl⟩
        · exact ⟨node, List.mem_of_mem_eraseP hnode, rfl⟩
  refine (visitQueues_meets (fun fid list => (queues fid).allocated = true →
    list.Holds (reprioritised p n (queues fid).waiters) ∧
      ((∃ x ∈ (queues fid).waiters, isOf p x = true) → mem.processNode = true))
      fun fid hpos => ?_).mono (fun queues' hvisited => ⟨?_, ?_⟩) fun e he => he
  · cases hallocated : (queues fid).allocated with
    | true =>
        have hlist := (h.live fid hallocated).list
        have hsize := hlist.size_eq
        exact (changePriority_meets hlist (h.listed.nodup fid) (by omega)).mono
          (fun list' hlist' _ => hlist') fun e he => he
    | false =>
        have hsize := (h.idle fid hallocated).size
        omega
  · exact h.of_visited hvisited (reprioritised p n) rfl
      (fun fid list hallocated hlist => (hlist hallocated).1) hpids (h.listed.requeue hp n)
  · obtain ⟨fid, node, hnode, hpid⟩ := (h.listed.member p).mp hp
    have hallocated := h.allocated_of_mem hnode
    obtain ⟨list, -, hlist⟩ := hvisited fid
    have hrange := h.range fid hallocated
    rw [if_pos ⟨hrange.1, hrange.2, (h.live fid hallocated).size_pos⟩] at hlist
    exact (hlist hallocated).2 ⟨node, hnode, by simp [isOf, hpid]⟩

private theorem waiters_update (queues : Int → MessageQueue) (fid : Int)
    (queue : MessageQueue) :
    (fun fid' => (Function.update queues fid queue fid').waiters) =
      Function.update (fun fid' => (queues fid').waiters) fid queue.waiters := by
  funext fid'
  by_cases hfid : fid' = fid
  · subst hfid
    simp
  · simp [hfid]

/-- The rule for a queue that keeps its list, which is empty. -/
theorem replace (h : Locked state priority call queues) {fid : Int}
    (queue : MessageQueue) (hnil : (queues fid).waiters = []) (hnil' : queue.waiters = [])
    (hlive : queue.allocated = true → Live queue ∧ 0 ≤ fid ∧ fid < nbQueue)
    (hidle : queue.allocated = false → Idle queue) :
    Locked state priority call (Function.update queues fid queue) where
  live fid' hallocated := by
    by_cases hfid : fid' = fid
    · rw [hfid, Function.update_self] at hallocated ⊢
      exact (hlive hallocated).1
    · rw [Function.update_of_ne hfid] at hallocated ⊢
      exact h.live fid' hallocated
  idle fid' hallocated := by
    by_cases hfid : fid' = fid
    · rw [hfid, Function.update_self] at hallocated ⊢
      exact hidle hallocated
    · rw [Function.update_of_ne hfid] at hallocated ⊢
      exact h.idle fid' hallocated
  range fid' hallocated := by
    by_cases hfid : fid' = fid
    · rw [hfid, Function.update_self] at hallocated
      rw [hfid]
      exact (hlive hallocated).2
    · rw [Function.update_of_ne hfid] at hallocated
      exact h.range fid' hallocated
  listed := by
    have hlists := waiters_update queues fid queue
    rw [hnil', ← hnil] at hlists
    rw [hlists, Function.update_eq_self fid fun fid' => (queues fid').waiters]
    exact h.listed
  resume fid' node hnode := by
    by_cases hfid : fid' = fid
    · rw [hfid, Function.update_self, hnil'] at hnode
      simp at hnode
    · rw [Function.update_of_ne hfid] at hnode ⊢
      exact h.resume fid' node hnode

/-- The rule for the release of the first process of a list. -/
theorem release (h : Locked state priority call queues) {fid : Int}
    {queue : MessageQueue} {node : ProcessNodeContent} {rest : List ProcessNodeContent}
    (hlist : (queues fid).waiters = node :: rest) (hlive : Live queue)
    (hallocated : queue.allocated = true) (hrest : queue.waiters = rest)
    (hlevel : rest ≠ [] → (queue.nbMessages = 0 ↔ (queues fid).nbMessages = 0))
    (hb : b ≠ .blockedByMessage) :
    Locked (Function.update state node.pid b) priority call
      (Function.update queues fid queue) where
  live fid' hallocated' := by
    by_cases hfid : fid' = fid
    · rw [hfid, Function.update_self]
      exact hlive
    · rw [Function.update_of_ne hfid] at hallocated' ⊢
      exact h.live fid' hallocated'
  idle fid' hidle := by
    by_cases hfid : fid' = fid
    · rw [hfid, Function.update_self, hallocated] at hidle
      exact absurd hidle (by decide)
    · rw [Function.update_of_ne hfid] at hidle ⊢
      exact h.idle fid' hidle
  range fid' hallocated' := by
    by_cases hfid : fid' = fid
    · rw [hfid]
      have hnode : node ∈ (queues fid).waiters := by simp [hlist]
      exact h.range fid (h.allocated_of_mem hnode)
    · rw [Function.update_of_ne hfid] at hallocated'
      exact h.range fid' hallocated'
  listed := by
    rw [waiters_update, hrest]
    exact h.listed.pop hb hlist
  resume fid' other hother := by
    by_cases hfid : fid' = fid
    · subst hfid
      rw [Function.update_self] at hother ⊢
      rw [hrest] at hother
      have hresume := h.resume fid' other (by simp [hlist, hother])
      have hiff := hlevel (List.ne_nil_of_mem hother)
      rw [hresume]
      simp only [resumeFrame, hiff]
    · rw [Function.update_of_ne hfid] at hother ⊢
      exact h.resume fid' other hother

/-- The rule for a process that locks itself on a queue. -/
theorem lock (h : Locked state priority call queues) {fid : Int}
    {node : ProcessNodeContent} (frames : List Frame)
    (hp : state p ≠ .blockedByMessage) (hallocated : (queues fid).allocated = true)
    (hlevel : (queues fid).nbMessages = 0 ∨ (queues fid).nbMessages = (queues fid).size)
    (hpid : node.pid = p) (hpriority : node.priority = priority p) :
    Locked (Function.update state p .blockedByMessage) priority
      (Function.update call p (resumeFrame (queues fid) p :: frames))
      (Function.update queues fid
        { queues fid with
          lockedProcesses :=
            (queues fid).lockedProcesses.addBehind (stands node.priority) node }) := by
  have hold := h.live fid hallocated
  have hadd := hold.list.addBehind (stands node.priority) node
  have hnew := hold.withList hadd fun _ => hlevel
  constructor
  · intro fid' hallocated'
    by_cases hfid : fid' = fid
    · subst hfid
      rw [Function.update_self]
      exact hnew.1
    · rw [Function.update_of_ne hfid] at hallocated' ⊢
      exact h.live fid' hallocated'
  · intro fid' hidle
    by_cases hfid : fid' = fid
    · subst hfid
      rw [Function.update_self] at hidle
      exact absurd (hallocated.symm.trans hidle) (by decide)
    · rw [Function.update_of_ne hfid] at hidle ⊢
      exact h.idle fid' hidle
  · intro fid' hallocated'
    by_cases hfid : fid' = fid
    · rw [hfid]
      exact h.range fid hallocated
    · rw [Function.update_of_ne hfid] at hallocated'
      exact h.range fid' hallocated'
  · rw [waiters_update, hnew.2]
    exact h.listed.insert hp fid hpid hpriority
  · intro fid' other hother
    by_cases hfid : fid' = fid
    · subst hfid
      rw [Function.update_self] at hother ⊢
      rw [hnew.2, NodeList.mem_place] at hother
      rcases hother with rfl | hother
      · rw [hpid, Function.update_self]
        rfl
      · rw [Function.update_of_ne (h.listed.ne_of_mem hp hother)]
        exact h.resume fid' other hother
    · rw [Function.update_of_ne hfid] at hother ⊢
      rw [Function.update_of_ne (h.listed.ne_of_mem hp hother)]
      exact h.resume fid' other hother

end Locked

end SchlagOS
