import SchlagOS.Invariant.Messages

/-!
# Creating, resetting and deleting queues

`message_queue_reset` releases the waiting processes one after the other and
then empties the buffer; `Released` says what the first of its loops has done.
-/

namespace SchlagOS

open Foundation

variable {s : Kernel} {step : Step} {r p fid : Int}

/-! ## The loops of message_queue_reset -/

structure Released (s s' : Kernel) (r fid : Int) (pids : List Int)
    (rest : List ProcessNodeContent) : Prop where
  core : Core s'.view r fun _ => False
  view : s'.view = { s.view with
    state := s'.view.state
    processQueue := s'.view.processQueue
    queues := Function.update s.view.queues fid (s'.queues fid) }
  state : ∀ p, s'.view.state p = if p ∈ pids then .waiting else s.view.state p
  waiters : (s'.queues fid).waiters = rest
  allocated : (s'.queues fid).allocated = (s.queues fid).allocated
  size : (s'.queues fid).size = (s.queues fid).size
  rest : ∃ receiver, s'.rest = { s.rest with
    receiver := receiver
    history := s.history ++ pids.map fun p => .awoken p .blockedByMessage
    resetReleases := s'.resetReleases }
  releases : ∀ p, s'.resetReleases (p - 1) =
    (decide (p ∈ pids) || s.resetReleases (p - 1))

theorem Released.refl (h : Core s.view r fun _ => False) (fid : Int) :
    Released s s r fid [] (s.queues fid).waiters where
  core := h
  view := by
    have hself : Function.update s.view.queues fid (s.queues fid) = s.view.queues :=
      Function.update_eq_self fid s.view.queues
    rw [hself]
  state p := by simp
  waiters := rfl
  allocated := rfl
  size := rfl
  rest := ⟨s.rest.receiver, by simp [Kernel.rest]⟩
  releases p := by simp

theorem Released.trans {s₁ s₂ : Kernel} {pids pids' : List Int}
    {rest rest' : List ProcessNodeContent} (h : Released s s₁ r fid pids rest)
    (h' : Released s₁ s₂ r fid pids' rest') :
    Released s s₂ r fid (pids ++ pids') rest' where
  core := h'.core
  view := by
    rw [h'.view, h.view]
    dsimp only
    rw [Function.update_idem]
  state p := by
    rw [h'.state, h.state]
    by_cases hp : p ∈ pids'
    · simp [hp]
    · simp [hp]
  waiters := h'.waiters
  allocated := h'.allocated.trans h.allocated
  size := h'.size.trans h.size
  rest := by
    obtain ⟨receiver, hrest⟩ := h.rest
    obtain ⟨receiver', hrest'⟩ := h'.rest
    have hhistory : s₁.history = s.history ++ pids.map fun p => .awoken p .blockedByMessage :=
      congrArg Rest.history hrest
    refine ⟨receiver', ?_⟩
    rw [hrest', hrest, hhistory, List.map_append, List.append_assoc]
  releases p := by
    rw [h'.releases, h.releases]
    by_cases hp : p ∈ pids'
    · simp [hp]
    · simp [hp]

/-- The body of the first loop. -/
private theorem releaseFirst_eq (h : Core s.view r fun _ => False)
    (hr : s.view.state r ≠ .blockedByMessage) {node : ProcessNodeContent}
    {rest : List ProcessNodeContent} (hwaiters : (s.queues fid).waiters = node :: rest) :
    ∃ list s₁,
      processQueueRemoveFirst (s.queues fid).lockedProcesses = .ok (node, list) ∧
      awake ((setQueue s fid { s.queues fid with lockedProcesses := list }).store
          node.destination (-1)) node.pid =
        .ok (decide (s.view.priority r < s.view.priority node.pid), s₁) ∧
      Released s
        { s₁ with resetReleases := Function.update s₁.resetReleases (node.pid - 1) true }
        r fid [node.pid] rest := by
  have hmem : node ∈ (s.view.queues fid).waiters := by
    have hmem' : node ∈ (s.queues fid).waiters := by simp [hwaiters]
    exact hmem'
  have hblocked := h.locked.listed.blocked_of_mem hmem
  have hpid : IsPid node.pid := h.isPid (by rw [hblocked]; decide)
  have hallocated : (s.queues fid).allocated = true := h.locked.allocated_of_mem hmem
  have hlive := h.locked.live fid hallocated
  obtain ⟨list, hremove, hlist⟩ := hlive.removeFirst hwaiters
  obtain ⟨hlive', hrest⟩ := hlive.withList hlist fun _ => hlive.level (by
    intro hnil
    rw [hnil] at hmem
    simp at hmem)
  set queue : MessageQueue := { s.queues fid with lockedProcesses := list } with hqueue
  set s₀ : Kernel := (setQueue s fid queue).store node.destination (-1) with hs₀
  obtain ⟨receiver, hstore⟩ := (setQueue s fid queue).rest_store node.destination (-1)
  have hview₀ : s₀.view = { s.view with
      queues := Function.update s.view.queues fid queue } := by
    rw [hs₀, Kernel.view_store]
    rfl
  have hrunning₀ : s₀.runningProcess = some r := by
    have hrunning := congrArg View.running hview₀
    exact hrunning.trans h.running
  obtain ⟨processQueue, s₁, hawake, hrest₁, hview₁, hready⟩ := awake_eq (s := s₀)
    (p := node.pid) (by rw [hview₀]; exact h.ready) (by rw [hview₀]; exact hblocked) hpid
    hrunning₀
  rw [hview₀] at hawake hview₁ hready
  dsimp only at hawake hview₁ hready
  have hrest' : queue.waiters = rest := hrest
  have hwaiters' : (s.view.queues fid).waiters = node :: queue.waiters := by
    rw [hrest']
    exact hwaiters
  have hcore := h.release hr hwaiters' hlive' hallocated (fun _ => Iff.rfl) hready
  have hqueues : s₁.queues fid = queue := by
    have hsame := congrFun (congrArg View.queues hview₁) fid
    dsimp only at hsame
    rw [Function.update_self] at hsame
    exact hsame
  refine ⟨list, s₁, hremove, hawake, ?_⟩
  constructor
  · change Core s₁.view r _
    rw [hview₁]
    exact hcore
  · change s₁.view = _
    rw [hview₁]
    have hqueues' : (fun _ => queue) fid = queue := rfl
    dsimp only
    rw [hqueues]
    congr 1
    · exact (congrArg View.state hview₁).symm
    · exact (congrArg View.processQueue hview₁).symm
  · intro x
    change s₁.view.state x = _
    rw [hview₁]
    dsimp only
    rw [Function.update_apply]
    simp
  · change (s₁.queues fid).waiters = rest
    rw [hqueues]
    exact hrest'
  · change (s₁.queues fid).allocated = _
    rw [hqueues]
  · change (s₁.queues fid).size = _
    rw [hqueues]
  · refine ⟨receiver, ?_⟩
    have hrest₀ : s₁.rest = { s.rest with receiver := receiver }.record
        (.awoken node.pid .blockedByMessage) := by
      rw [hrest₁, hs₀, hstore]
      rfl
    calc ({ s₁ with resetReleases := Function.update s₁.resetReleases (node.pid - 1) true }
          : Kernel).rest = { s₁.rest with
            resetReleases := Function.update s₁.resetReleases (node.pid - 1) true } := rfl
      _ = _ := by
        rw [hrest₀]
        rfl
  · intro x
    have hsame : s₁.resetReleases = s.resetReleases := by
      have hreleases := congrArg Rest.resetReleases hrest₁
      have hreleases₀ := congrArg Rest.resetReleases hstore
      exact hreleases.trans hreleases₀
    dsimp only
    rw [hsame, Function.update_apply]
    by_cases hx : x = node.pid
    · simp [hx]
    · have hne : x - 1 ≠ node.pid - 1 := by omega
      simp [hx, hne]

theorem releaseAll_meets {nodes : List ProcessNodeContent} (needSchedule : Bool)
    (h : Core s.view r fun _ => False) (hr : s.view.state r ≠ .blockedByMessage)
    (hallocated : (s.queues fid).allocated = true)
    (hwaiters : (s.queues fid).waiters = nodes) :
    Meets (releaseAll fid nodes.length needSchedule s)
      (fun result =>
        Released s result.2 r fid (nodes.map ProcessNodeContent.pid) [] ∧
        (result.1 = false → needSchedule = false ∧ ∀ p ∈ nodes.map ProcessNodeContent.pid,
          s.view.priority p ≤ s.view.priority r))
      (fun _ => False) := by
  induction nodes generalizing s needSchedule with
  | nil =>
      have hrefl := Released.refl h fid
      rw [hwaiters] at hrefl
      exact ⟨hrefl, fun hneed => ⟨hneed, by simp⟩⟩
  | cons node rest ih =>
      have hlive : Live (s.queues fid) := h.locked.live fid hallocated
      have hpos : 0 < (s.queues fid).lockedProcesses.size := by
        rw [hlive.waiters_pos, hwaiters]
        simp
      obtain ⟨list, s₁, hremove, hawake, hreleased⟩ := releaseFirst_eq h hr hwaiters
      rw [List.length_cons, releaseAll, if_pos hpos, hremove, ok_bind]
      dsimp only
      rw [hawake, ok_bind]
      dsimp only
      have hr₁ : ({ s₁ with
          resetReleases := Function.update s₁.resetReleases (node.pid - 1) true }
            : Kernel).view.state r ≠ .blockedByMessage := by
        rw [hreleased.state]
        split
        · decide
        · exact hr
      have hpriority : ({ s₁ with
          resetReleases := Function.update s₁.resetReleases (node.pid - 1) true }
            : Kernel).view.priority = s.view.priority := by
        rw [hreleased.view]
      refine (ih _ hreleased.core hr₁ (hreleased.allocated.trans hallocated)
        hreleased.waiters).mono ?_ fun e he => he
      rintro ⟨need, s₂⟩ ⟨hreleased', hlow⟩
      refine ⟨hreleased.trans hreleased', fun hneed => ?_⟩
      obtain ⟨hor, hrest⟩ := hlow hneed
      rw [Bool.or_eq_false_iff, decide_eq_false_iff_not] at hor
      refine ⟨hor.2, fun x hx => ?_⟩
      rw [List.map_cons, List.mem_cons] at hx
      rcases hx with rfl | hx
      · exact Int.not_lt.mp hor.1
      · have hle := hrest x hx
        rwa [hpriority] at hle

/-- The second loop of `message_queue_reset` empties the buffer. -/
theorem dropMessages_meets {queue : MessageQueue} (h : Live queue) (hnil : queue.waiters = []) :
    Meets (dropMessages queue.nbMessages queue)
      (fun queue' => Live queue' ∧ queue'.messages = [] ∧ queue'.waiters = [] ∧
        queue'.size = queue.size ∧ queue'.allocated = queue.allocated)
      (fun _ => False) := by
  have hrefl : queue.nbMessages = 0 → queue.messages = [] := by
    intro hzero
    rw [← List.length_eq_zero_iff, length_messages]
    exact hzero
  generalize hn : queue.nbMessages = n at hrefl ⊢
  induction n generalizing queue with
  | zero => exact ⟨h, hrefl rfl, hnil, rfl, rfl⟩
  | succ n ih =>
      obtain ⟨message, queue₁, hunregister, hlive, -, hlevel, hnil₁, hsize, hallocated⟩ :=
        h.unregister (by omega) hnil
      rw [dropMessages, if_pos (by omega), hunregister, ok_bind]
      have hn₁ : queue₁.nbMessages = n := by omega
      refine (ih hlive hnil₁ hn₁ ?_).mono ?_ fun e he => he
      · intro hzero
        rw [← List.length_eq_zero_iff, length_messages]
        omega
      · rintro queue₂ ⟨h₂, hmessages, hwaiters, hsize₂, hallocated₂⟩
        exact ⟨h₂, hmessages, hwaiters, hsize₂.trans hsize, hallocated₂.trans hallocated⟩


/-! ## message_queue_reset -/

/-- A queue from which all processes and all messages are gone. -/
structure Emptied (s s' : Kernel) (r fid : Int) (needSchedule : Bool) : Prop where
  core : Core s'.view r fun _ => False
  view : s'.view = { s.view with
    state := s'.view.state
    processQueue := s'.view.processQueue
    queues := Function.update s.view.queues fid (s'.queues fid) }
  state : ∀ p, s'.view.state p =
    if p ∈ (s.queues fid).waiters.map ProcessNodeContent.pid then .waiting
    else s.view.state p
  waiters : (s'.queues fid).waiters = []
  messages : (s'.queues fid).messages = []
  allocated : (s'.queues fid).allocated = true
  size : (s'.queues fid).size = (s.queues fid).size
  rest : ∃ receiver, s'.rest = { s.rest with
    receiver := receiver
    history := s.history ++ ((s.queues fid).waiters.map ProcessNodeContent.pid).map
      (fun p => .awoken p .blockedByMessage) ++ [.queueReset fid]
    resetReleases := s'.resetReleases }
  releases : ∀ p, s'.resetReleases (p - 1) =
    (decide (p ∈ (s.queues fid).waiters.map ProcessNodeContent.pid) ||
      s.resetReleases (p - 1))
  fair : needSchedule = false → ∀ p ∈ (s.queues fid).waiters.map ProcessNodeContent.pid,
    s.view.priority p ≤ s.view.priority r

private theorem freeFid_update {queues : Int → MessageQueue} {queue : MessageQueue}
    (hallocated : queue.allocated = (queues fid).allocated) (fid' : Int) :
    freeFid (Function.update queues fid queue) fid' ↔ freeFid queues fid' := by
  unfold freeFid
  by_cases hfid : fid' = fid
  · rw [hfid, Function.update_self, hallocated]
  · rw [Function.update_of_ne hfid]

theorem messageQueueReset_meets (h : Settled s r) (fid : Int) :
    Meets (messageQueueReset s fid)
      (fun result =>
        isLive s fid = false ∧ result = (-1, false, s) ∨
          isLive s fid = true ∧ result.1 = 0 ∧ Emptied s result.2.2 r fid result.2.1)
      (fun _ => False) := by
  unfold messageQueueReset
  rw [meets_ite]
  refine ⟨fun hdead => .inl ⟨hdead, rfl⟩, fun hnot => ?_⟩
  obtain ⟨hallocated, hlive⟩ := live_of_isLive h hnot
  have hr : s.view.state r ≠ .blockedByMessage := by
    rw [h.running]
    decide
  have hsize : (s.queues fid).lockedProcesses.size = (s.queues fid).waiters.length :=
    hlive.list.size_eq
  rw [hsize, meets_bind]
  refine (releaseAll_meets false h.core hr hallocated rfl).mono ?_ fun e he => he
  rintro ⟨needSchedule, s₁⟩ ⟨hreleased, hlow⟩
  have hallocated₁ : (s₁.queues fid).allocated = true :=
    hreleased.allocated.trans hallocated
  dsimp only at hreleased hlow ⊢
  rw [meets_bind]
  refine (dropMessages_meets (hreleased.core.locked.live fid hallocated₁)
    hreleased.waiters).mono ?_ fun e he => he
  rintro queue ⟨hlive', hmessages, hnil, hsize', hallocated'⟩
  rw [meets_pure]
  refine .inr ⟨by simpa using hnot, rfl, ?_⟩
  set s₂ : Kernel := (setQueue s₁ fid queue).record (.queueReset fid) with hs₂
  have hview₂ : s₂.view = { s₁.view with
      queues := Function.update s₁.view.queues fid queue } := rfl
  have hqueue : s₂.queues fid = queue := Function.update_self _ _ _
  have hold : (s₁.view.queues fid).waiters = [] := hreleased.waiters
  have hrange := hreleased.core.locked.range fid hallocated₁
  have hlocked := hreleased.core.locked.replace queue hold hnil
    (fun _ => ⟨hlive', hrange⟩) fun hfalse => by
      have hcontra := hfalse.symm.trans (hallocated'.trans hallocated₁)
      cases hcontra
  have hcore := hreleased.core.setQueues hlocked
    (hreleased.core.fidPool.congr fun fid' => freeFid_update hallocated' fid')
  have hrest₂ : s₂.rest = s₁.rest.record (.queueReset fid) := rfl
  constructor
  · rw [hview₂]
    exact hcore
  · rw [hview₂, hqueue, hreleased.view]
    dsimp only
    rw [Function.update_idem]
  · intro x
    have hx := hreleased.state x
    exact hx
  · rw [hqueue]
    exact hnil
  · rw [hqueue]
    exact hmessages
  · rw [hqueue]
    exact hallocated'.trans hallocated₁
  · rw [hqueue]
    exact hsize'.trans hreleased.size
  · obtain ⟨receiver, hrest⟩ := hreleased.rest
    have hhistory : s₁.history = s.history ++
        ((s.queues fid).waiters.map ProcessNodeContent.pid).map
          fun p => .awoken p .blockedByMessage := congrArg Rest.history hrest
    refine ⟨receiver, ?_⟩
    rw [hrest₂, hrest]
    rfl
  · exact hreleased.releases
  · intro hneed
    exact (hlow hneed).2

private theorem emptied_after (h : Settled s r) {s₁ s₂ : Kernel} {needSchedule : Bool}
    {queue : MessageQueue} {fids : LockedRing Int} {nbQueues : Nat}
    {events : List HistoryEvent} (hallocated : (s.view.queues fid).allocated = true)
    (hevent : Resets step s.view fid queue fids nbQueues events)
    (he : Emptied s s₁ r fid needSchedule)
    (hview : s₂.view = { s₁.view with
      queues := Function.update s.view.queues fid queue
      fids := fids
      nbQueues := nbQueues })
    (hrest : s₂.rest = { s₁.rest with history := s₁.history ++ events })
    (hcore : Core s₂.view r fun _ => False) (hwaiters : queue.waiters = []) (hmessages : queue.messages = []) :
    After step s (if needSchedule then s₂.callSchedule [.ret 0] else s₂.ret 0) r := by
  obtain ⟨receiver, hrest₁⟩ := he.rest
  have hhistory : s₁.history = s.history ++
      ((s.queues fid).waiters.map ProcessNodeContent.pid).map
        (fun p => .awoken p .blockedByMessage) ++ [.queueReset fid] :=
    congrArg Rest.history hrest₁
  rw [hrest₁, hhistory, List.append_assoc _ [_], List.singleton_append] at hrest
  have hcontrol : s₂.control = s.control := congrArg Rest.control hrest
  have hstate : ∀ x, s₂.view.state x =
      if x ∈ (s.queues fid).waiters.map ProcessNodeContent.pid then .waiting
      else s.view.state x := by
    intro x
    rw [hview]
    exact he.state x
  have hblocked : ∀ x, x ∈ (s.queues fid).waiters.map ProcessNodeContent.pid →
      s.view.state x = .blockedByMessage := by
    intro x hx
    obtain ⟨node, hnode, rfl⟩ := List.mem_map.mp hx
    exact h.core.locked.listed.blocked_of_mem hnode
  have hr : r ∉ (s.queues fid).waiters.map ProcessNodeContent.pid := by
    intro hmem
    have hcontra := hblocked r hmem
    rw [h.running] at hcontra
    cases hcontra
  have hrunning : s₂.view.state r = .running := by
    rw [hstate, if_neg hr]
    exact h.running
  have hlog : s₂.log = { s.log with
      history := s.log.history ++ ((s.queues fid).waiters.map ProcessNodeContent.pid).map
        (fun p => .awoken p .blockedByMessage) ++ .queueReset fid :: events
      resetReleases := s₁.resetReleases } := congrArg Rest.log hrest
  have hview' : s₂.view = { s.view with
      state := s₁.view.state
      processQueue := s₁.view.processQueue
      queues := Function.update s.view.queues fid queue
      fids := fids
      nbQueues := nbQueues } := by
    rw [hview, he.view]
  have hafter : ∀ (scheduled : Bool) (frame : Option Frame) (eax : Int),
      (∀ f ∈ frame, f = .ret 0) → (scheduled = true ∨ needSchedule = false) →
      After step s { s₂ with control := topFrames scheduled frame ++ s.control, eax := eax }
        r := by
    intro scheduled frame eax hframe hfair
    have hplain : ∀ f ∈ frame, f.isSchedule = false ∧ f.isWaitpid = false ∧
        f.isResume = false ∧ f.isInit = true := by
      intro f hf
      rw [hframe f hf]
      exact ⟨rfl, rfl, rfl, rfl⟩
    refine h.after step s₂ hcore ?_ ?_ scheduled frame eax
      (fun f hf => ⟨(hplain f hf).1, (hplain f hf).2.1⟩) (fun _ f hf => (hplain f hf).2.2.2)
      (.inr hrunning) (by rw [hview']; exact h.alive) ?_ ?_
    · intro x hx
      have hsame := congrFun (congrArg Rest.context hrest) x
      refine .inr ⟨?_, hsame⟩
      rw [hstate] at hx
      by_cases hmem : x ∈ (s.queues fid).waiters.map ProcessNodeContent.pid
      · rw [hblocked x hmem]
        decide
      · rwa [if_neg hmem] at hx
    · rw [hrunning]
      decide
    · rw [hlog, hview']
      exact .reset hallocated hevent rfl he.state he.releases hwaiters hmessages
        (h.plain_top fun f hf => ⟨(hplain f hf).2.1, (hplain f hf).2.2.1⟩)
    · rcases hfair with hscheduled | hneed
      · exact .inl hscheduled
      · right
        intro hlaw x hx
        have hpriority : s₂.view.priority = s.view.priority := by rw [hview']
        rw [hpriority]
        rw [hstate] at hx
        by_cases hmem : x ∈ (s.queues fid).waiters.map ProcessNodeContent.pid
        · exact he.fair hneed x hmem
        · rw [if_neg hmem] at hx
          exact hlaw x hx
  cases needSchedule with
  | true =>
      have hcall := hafter true (some (.ret 0)) s₂.eax (by rintro f ⟨⟩; rfl) (.inl rfl)
      rw [← hcontrol] at hcall
      exact hcall
  | false =>
      have hret := hafter false none 0 (by simp) (.inr rfl)
      rw [← hcontrol] at hret
      exact hret

theorem preset_meets (h : Settled s r) (fid : Int)
    (hevent : step.event = .call (.preset fid)) :
    Meets (preset s fid) (fun s' => After step s s' r) (Excused False False) := by
  unfold preset
  rw [meets_bind]
  refine (messageQueueReset_meets h fid).mono ?_ fun e he => False.elim he
  rintro ⟨result, needSchedule, s₁⟩ (⟨-, heq⟩ | ⟨hlive, hresult, he⟩)
  · cases heq
    exact h.ret (-1)
  · dsimp only at hresult he ⊢
    rw [hresult]
    have hallocated := (isLive_iff h).mp hlive
    have hview : s₁.view = { s₁.view with
        queues := Function.update s.view.queues fid (s₁.queues fid)
        fids := s.view.fids
        nbQueues := s.view.nbQueues } := by
      rw [he.view]
    have hsame : (s.view.queues fid).Same (s₁.queues fid) :=
      ⟨he.allocated.trans hallocated.symm, he.size⟩
    have hrest : s₁.rest = { s₁.rest with history := s₁.history ++ [] } := by
      rw [List.append_nil]
      rfl
    have hafter := emptied_after h hallocated (.preset hevent hsame) he hview hrest he.core
      he.waiters he.messages
    cases needSchedule with
    | true => exact hafter
    | false => exact hafter

/-- The fid of a queue that is deleted goes back to the ring. -/
theorem Pool.pushFid {fids : LockedRing Int} {nbQueues : Nat} {queues : Int → MessageQueue}
    (h : Pool nbQueue fids nbQueues (freeFid queues)) (hrange : 0 ≤ fid ∧ fid < nbQueue)
    (hallocated : (queues fid).allocated = true) :
    ∃ fids', fids.push nbQueue fid = some fids' ∧
      fids'.toList nbQueue (nbQueue - uint32Pred nbQueues) =
        fids.toList nbQueue (nbQueue - nbQueues) ++ [fid] ∧
      Pool nbQueue fids' (uint32Pred nbQueues)
        (freeFid (Function.update queues fid emptyMessageQueue)) := by
  have hnot : ¬freeFid queues fid := by
    rintro ⟨-, hfree⟩
    have hcontra := hfree.symm.trans hallocated
    cases hcontra
  have hall : ∀ x : Int, 0 ≤ x ∧ x < nbQueue →
      x ∈ (List.range nbQueue).map fun i : Nat => (i : Int) := fun x hx =>
    List.mem_map.mpr ⟨x.toNat, List.mem_range.mpr (by omega), by omega⟩
  have hpos : 0 < nbQueues := h.count_pos
    ((List.range nbQueue).map fun i : Nat => (i : Int)) (by simp)
    (fun x hx => hall x hx.1) (hall fid hrange) hnot
  obtain ⟨fids', hpush, horder, hpool⟩ := h.push hnot hpos
  refine ⟨fids', hpush, horder, hpool.congr fun x => ?_⟩
  unfold freeFid
  by_cases hx : x = fid
  · subst hx
    rw [Function.update_self]
    exact iff_of_true ⟨hrange, rfl⟩ (.inr rfl)
  · rw [Function.update_of_ne hx]
    simp [hx]

/-- The fid of a queue that is created is taken from the ring. -/
theorem Pool.popFid {fids : LockedRing Int} {nbQueues : Nat} {queues : Int → MessageQueue}
    (h : Pool nbQueue fids nbQueues (freeFid queues)) (hlt : nbQueues < nbQueue) :
    ∃ fid fids', fids.pop nbQueue = some (fid, fids') ∧ freeFid queues fid ∧
      fids.toList nbQueue (nbQueue - nbQueues) =
        fid :: fids'.toList nbQueue (nbQueue - (nbQueues + 1)) ∧
      Pool nbQueue fids' (nbQueues + 1) (fun x => freeFid queues x ∧ x ≠ fid) ∧
      ∀ queue : MessageQueue, queue.allocated = true →
        Pool nbQueue fids' (nbQueues + 1) (freeFid (Function.update queues fid queue)) := by
  obtain ⟨fid, fids', hpop, hfree, horder, hpool⟩ := h.pop hlt
  refine ⟨fid, fids', hpop, hfree, horder, hpool, fun queue hqueue => hpool.congr fun x => ?_⟩
  unfold freeFid
  by_cases hx : x = fid
  · rw [hx, Function.update_self]
    simp [hqueue]
  · rw [Function.update_of_ne hx]
    simp [hx]

theorem pdelete_meets (h : Settled s r) (fid : Int)
    (hevent : step.event = .call (.pdelete fid)) :
    Meets (pdelete s fid) (fun s' => After step s s' r) (Excused False False) := by
  unfold pdelete
  rw [meets_bind]
  refine (messageQueueReset_meets h fid).mono ?_ fun e he => False.elim he
  rintro ⟨result, needSchedule, s₁⟩ (⟨-, heq⟩ | ⟨hlive, hresult, he⟩)
  · cases heq
    exact h.ret (-1)
  · dsimp only at hresult he ⊢
    rw [hresult, if_neg (by decide)]
    have hrange := he.core.locked.range fid he.allocated
    obtain ⟨fids, hpush, horder, hpool⟩ := he.core.fidPool.pushFid hrange he.allocated
    have hpush' : (setQueue s₁ fid emptyMessageQueue).fids.push nbQueue fid = some fids := hpush
    unfold messageQueueTableUnregister
    rw [hpush', demand_some, ok_bind, pure_eq_ok, ok_bind]
    have hlocked := he.core.locked.replace emptyMessageQueue he.waiters
      idle_emptyMessageQueue.waiters (fun hfalse => by cases hfalse)
      fun _ => idle_emptyMessageQueue
    have hcore := he.core.setQueues hlocked hpool
    set s₂ : Kernel := { setQueue s₁ fid emptyMessageQueue with
      fids := fids
      nbQueues := uint32Pred (setQueue s₁ fid emptyMessageQueue).nbQueues }.record
        (.deleted fid) with hs₂
    have hcount : s₁.view.nbQueues = s.view.nbQueues := by rw [he.view]
    have hfids : s₁.view.fids = s.view.fids := by rw [he.view]
    have hview : s₂.view = { s₁.view with
        queues := Function.update s.view.queues fid emptyMessageQueue
        fids := fids
        nbQueues := uint32Pred s.view.nbQueues } := by
      have hqueues : s₁.view.queues = Function.update s.view.queues fid (s₁.queues fid) :=
        congrArg View.queues he.view
      calc s₂.view = { s₁.view with
            queues := Function.update s₁.view.queues fid emptyMessageQueue
            fids := fids
            nbQueues := uint32Pred s₁.view.nbQueues } := rfl
        _ = _ := by rw [hqueues, Function.update_idem, hcount]
    rw [hfids, hcount] at horder
    have hafter := emptied_after h ((isLive_iff h).mp hlive) (.pdelete hevent rfl horder) he
      hview rfl hcore idle_emptyMessageQueue.waiters rfl
    cases needSchedule with
    | true => exact hafter
    | false => exact hafter

/-! ## pcreate and pcount -/

theorem pcreate_meets (h : Settled s r) (count : Int) :
    Meets (pcreate step.mem s count) (fun s' => After step s s' r)
      (Excused False False) := by
  unfold pcreate
  rw [meets_ite]
  refine ⟨fun _ => h.ret (-1), fun hrange => ?_⟩
  have hlt : s.nbQueues < nbQueue := by omega
  obtain ⟨fid, fids, hpop, hfree, horder, hpool, hpool'⟩ := h.core.fidPool.popFid hlt
  have hidle : Idle (s.queues fid) := h.core.locked.idle fid hfree.2
  have hnil : (s.view.queues fid).waiters = [] := hidle.waiters
  have hpop' : s.fids.pop nbQueue = some (fid, fids) := hpop
  unfold messageQueueTableRegister
  rw [hpop', demand_some, ok_bind]
  dsimp only
  rw [pure_eq_ok, ok_bind]
  dsimp only
  have hblocked : s.view.state r ≠ .blockedByChild ∧ s.view.state r ≠ .blockedByMessage := by
    rw [h.running]
    decide
  rw [meets_ite]
  constructor
  · intro hmem
    have hnot : ¬(freeFid s.view.queues fid ∧ fid ≠ fid) := fun hand => hand.2 rfl
    obtain ⟨fids', hpush, horder', hpool'⟩ := hpool.push hnot (by omega)
    have hself : { s.queues fid with allocated := false } = s.queues fid := by
      have hfalse : (s.queues fid).allocated = false := hfree.2
      rw [← hfalse]
    have hqueues : Function.update s.queues fid { s.queues fid with allocated := false } =
        s.queues := by
      rw [hself, Function.update_eq_self]
    unfold messageQueueTableUnregister setQueue
    dsimp only
    rw [hpush, demand_some, ok_bind, pure_eq_ok, ok_bind, meets_pure, hqueues]
    have hcount : uint32Pred (s.nbQueues + 1) = s.nbQueues := by simp [uint32Pred]
    rw [hcount]
    have hcount' : uint32Pred (s.view.nbQueues + 1) = s.view.nbQueues := hcount
    rw [hcount'] at hpool' horder'
    have hcore := h.core.setQueues h.core.locked (hpool'.congr fun x => by
      by_cases hx : x = fid
      · rw [hx]
        exact iff_of_true hfree (.inr rfl)
      · simp [hx])
    exact h.after step ({ s with fids := fids' }.record (.notCreated fid)) hcore
      (fun x hx => .inr ⟨hx, rfl⟩) hblocked false none (-1) (by simp) (by simp)
      (.inr h.running) h.alive
      (.createFails hmem hfree horder horder' (h.plain_top (by simp))) (.inr fun hlaw => hlaw)
  · intro _
    rw [meets_bind, meets_require]
    refine ⟨fun _ => ?_, fun _ => trivial⟩
    rw [meets_pure]
    have hsize : 0 < count.toNat := by omega
    have hlive := Live.created hidle count.toNat hsize fun _ => 0
    set queue : MessageQueue := { s.queues fid with
      allocated := true
      ring := { (s.queues fid).ring with buffer := fun _ => 0 }
      size := count.toNat
      lockedProcesses := .empty } with hqueue
    have hnil' : queue.waiters = [] := NodeList.empty_holds.toList_eq
    have hmessages : queue.messages = [] := by
      rw [← List.length_eq_zero_iff, length_messages]
      exact hidle.nbMessages
    have hlocked := h.core.locked.replace queue hnil hnil'
      (fun _ => ⟨hlive, hfree.1⟩) fun hfalse => by cases hfalse
    have hcore := h.core.setQueues hlocked (hpool' queue rfl)
    set s₁ : Kernel := (setQueue { s with fids := fids, nbQueues := s.nbQueues + 1 } fid
      queue).record (.created fid count.toNat) with hs₁
    exact h.after step s₁ hcore (fun x hx => .inr ⟨hx, rfl⟩) hblocked false none fid (by simp)
      (by simp) (.inr h.running) h.alive
      (.create hfree horder rfl hnil' hmessages (h.plain_top (by simp))) (.inr fun hlaw => hlaw)

theorem pcount_after (h : Settled s r) (fid : Int) (count : Destination) :
    After step s (pcount s fid count) r := by
  unfold pcount
  split
  · exact h.ret (-1)
  · have hview := s.view_store count (pcountValue (s.queues fid))
    obtain ⟨receiver, hrest⟩ := s.rest_store count (pcountValue (s.queues fid))
    have hcontrol : (s.store count (pcountValue (s.queues fid))).control = s.control :=
      congrArg Rest.control hrest
    have hlog := congrArg Rest.log hrest
    have hafter := h.quiet step _ hview hlog
      (fun x => congrFun (congrArg Rest.context hrest) x) none 0 (by simp) (by simp)
    rw [← hcontrol] at hafter
    exact hafter

end SchlagOS
