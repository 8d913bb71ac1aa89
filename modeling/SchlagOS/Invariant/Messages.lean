import SchlagOS.Invariant.Clock

/-!
# Sending and receiving

`psend` and `preceive` on a queue: the hand-over to a process that is blocked on
it, the block, and the ordinary case in which only the buffer changes.
-/

namespace SchlagOS

open Foundation

variable {s : Kernel} {step : Step} {r p fid : Int}

/-! ## Frames behind a call -/

/-- A call made with a frame behind it that waits for its result. -/
theorem Settled.push (h : Settled s r) (frame : Frame) (hframe : frame.isOuter = true)
    (hinit : r = 1 → frame.isInit = true) :
    Settled { s with control := frame :: s.control } r := by
  have hrunning := h.runningProcess_eq
  have hplain : frame.isSchedule = false ∧ frame.isWaitpid = false := by
    cases frame <;> simp_all [Frame.isOuter, Frame.isSchedule, Frame.isWaitpid]
  have hview := s.view_control hrunning (frame :: s.control)
  rw [base_of_head hplain.1] at hview
  constructor
  · rw [hview]
    refine h.core.setCall ?_ ?_ ?_
    · rw [h.running]
      decide
    · rw [h.running]
      decide
    · rintro f ⟨⟩
      exact hplain.2
  · intro f hf
    rcases List.mem_cons.mp hf with rfl | hf
    · exact hframe
    · exact h.outer f hf
  · intro x hx hused
    rw [hview] at hused
    exact h.suspended x hx hused
  · have hold := h.initFrames
    unfold Kernel.stack at hold ⊢
    by_cases hone : s.runningProcess = some 1
    · rw [if_pos hone] at hold ⊢
      intro f hf
      rcases List.mem_cons.mp hf with rfl | hf
      · exact hinit (Option.some.inj (hrunning.symm.trans hone))
      · exact hold f hf
    · rw [if_neg hone] at hold ⊢
      exact hold
  · rw [hview]
    exact h.running
  · rw [hview]
    exact h.alive

/-- The effect of a step is the same when the stack was changed before it. -/
theorem After.of_control {s' : Kernel} {frames : List Frame}
    (hrunning : s.runningProcess = some r)
    (h : After step { s with control := frames } s' r) : After step s s' r := by
  have hview := s.view_control hrunning frames
  have heffect := h.effect
  have hfair := h.fair
  rw [hview] at heffect
  refine ⟨h.inv, heffect.of_call, ?_⟩
  unfold Fair at hfair ⊢
  rw [hview] at hfair
  exact hfair

/-! ## Waking -/

theorem awake_eq (hready : ReadyQueue s.view.state s.view.priority s.view.processQueue)
    (hp : s.view.state p = .blockedByMessage) (hpid : IsPid p)
    (hr : s.runningProcess = some r) :
    ∃ queue s', awake s p =
        .ok (decide (s.view.priority r < s.view.priority p), s') ∧
      s'.rest = s.rest.record (.awoken p .blockedByMessage) ∧
      s'.view = { s.view with
        state := Function.update s.view.state p .waiting
        processQueue := queue } ∧
      ReadyQueue (Function.update s.view.state p .waiting) s.view.priority queue := by
  have hp' : (s.data p).state = .blockedByMessage := hp
  obtain ⟨queue, hadd, hready'⟩ := queueAdd_eq
    (s := s.record (.awoken p (s.data p).state)) (f := fun q => { q with state := .waiting })
    hready (by change (s.data p).state ≠ .waiting; rw [hp']; decide) hpid fun _ => rfl
  set s₁ : Kernel := { (s.record (.awoken p (s.data p).state)).update p
    fun q => { q with state := .waiting } with processQueue := queue } with hs₁
  have hview : s₁.view = { s.view with
      state := Function.update s.view.state p .waiting
      processQueue := queue } := by
    calc s₁.view = { (s.update p fun q => { q with state := .waiting }).view with
          processQueue := queue } := rfl
      _ = _ := by
        rw [s.view_update p _ rfl]
        simp
  have hrest : s₁.rest = s.rest.record (.awoken p .blockedByMessage) := by
    have hupdate := s.rest_update p (fun q => { q with state := .waiting }) rfl
    rw [← hp']
    exact congrArg (fun rest => rest.record (.awoken p (s.data p).state)) hupdate
  have hpriority : ∀ x, (s₁.data x).priority = s.view.priority x := by
    intro x
    have hx := congrFun (congrArg View.priority hview) x
    exact hx
  have hrunning : s₁.running.priority = s.view.priority r := by
    have hsome : s₁.runningProcess = some r := hr
    unfold Kernel.running
    rw [hsome]
    exact hpriority r
  refine ⟨queue, s₁, ?_, hrest, hview, hready'⟩
  unfold awake
  rw [getProcess_eq hpid, ok_bind]
  dsimp only
  rw [hadd, ok_bind, hrunning, hpriority]
  rfl

/-- The first process of a waiting list is ready again. -/
theorem Core.release {v : View} {except : Int → Prop} {node : ProcessNodeContent}
    {queue : MessageQueue} {processQueue : LinkQueue Int} (h : Core v r except)
    (hr : v.state r ≠ .blockedByMessage)
    (hwaiters : (v.queues fid).waiters = node :: queue.waiters) (hlive : Live queue)
    (hallocated : queue.allocated = true)
    (hlevel : queue.waiters ≠ [] →
      (queue.nbMessages = 0 ↔ (v.queues fid).nbMessages = 0))
    (hready : ReadyQueue (Function.update v.state node.pid .waiting) v.priority
      processQueue) :
    Core { v with
      state := Function.update v.state node.pid .waiting
      processQueue := processQueue
      queues := Function.update v.queues fid queue } r except := by
  have hmem : node ∈ (v.queues fid).waiters := by simp [hwaiters]
  have hblocked := h.locked.listed.blocked_of_mem hmem
  have hne : ∀ b : ProcessState, b ≠ .blockedByMessage → v.state node.pid ≠ b :=
    fun b hb heq => hb (heq.symm.trans hblocked)
  have hcall := h.locked.resume fid node hmem
  have hwaits := h.waits.move (b := .waiting) (hne .blockedByChild (by decide)) (by decide)
    (fun frame (hframe : (v.call node.pid).head? = some frame) => by
      rw [hcall] at hframe
      rw [← Option.some.inj hframe]
      unfold resumeFrame
      split
      · rfl
      · rfl)
  rw [Function.update_eq_self] at hwaits
  refine h.unblock (hne _ (by decide)) (hne _ (by decide)) (fun heq => hr (heq ▸ hblocked))
    hready hwaits (h.locked.release hwaiters hlive hallocated rfl hlevel (by decide)) ?_
    (h.sleepers.move (hne _ (by decide)) (by decide))
  intro fid'
  by_cases hfid : fid' = fid
  · rw [hfid, Function.update_self, hallocated, h.locked.allocated_of_mem hmem]
  · rw [Function.update_of_ne hfid]

/-- The end of a call that serves a blocked process. -/
private theorem releaseBehind_meets (h : Settled s r) {s₁ : Kernel}
    {node : ProcessNodeContent} (fid : Int) (queue : MessageQueue)
    (hview : s₁.view = { s.view with queues := Function.update s.view.queues fid queue })
    (hcontrol : s₁.control = s.control)
    (hcontext : ∀ x, (s₁.data x).executionContext = (s.data x).executionContext)
    (hwaiters : (s.view.queues fid).waiters = node :: queue.waiters) (hlive : Live queue)
    (hallocated : queue.allocated = true)
    (hlevel : queue.waiters ≠ [] →
      (queue.nbMessages = 0 ↔ (s.view.queues fid).nbMessages = 0))
    (heffect : ∀ {processQueue : LinkQueue Int} {frames : List Frame}, Plain frames →
      Effect step r s.view s.log
        { s.view with
          state := Function.update s.view.state node.pid .waiting
          processQueue := processQueue
          queues := Function.update s.view.queues fid queue
          call := Function.update s.view.call r frames }
        (s₁.log.record (.awoken node.pid .blockedByMessage))) :
    Meets (do
        let (higher, s) ← awake s₁ node.pid
        if higher then return s.callSchedule [.ret 0] else return s.ret 0)
      (fun s' => After step s s' r) (Excused False False) := by
  have hmem : node ∈ (s.view.queues fid).waiters := by simp [hwaiters]
  have hblocked := h.core.locked.listed.blocked_of_mem hmem
  have hpid : IsPid node.pid := h.core.isPid (by rw [hblocked]; decide)
  have hrunningProcess : s₁.runningProcess = some r := by
    have hrunning := congrArg View.running hview
    exact hrunning.trans h.core.running
  have hr : s.view.state r ≠ .blockedByMessage := by
    rw [h.running]
    decide
  have hne : r ≠ node.pid := fun heq => hr (heq ▸ hblocked)
  obtain ⟨processQueue, s₂, hawake, hrest, hview₂, hready⟩ := awake_eq (s := s₁) (p := node.pid)
    (by rw [hview]; exact h.core.ready) (by rw [hview]; exact hblocked) hpid hrunningProcess
  rw [hview] at hview₂ hready hawake
  dsimp only at hview₂ hready hawake
  have hcore := h.core.release hr hwaiters hlive hallocated hlevel hready
  have hcontrol₂ : s₂.control = s.control := (congrArg Rest.control hrest).trans hcontrol
  have hlog : s₂.log = s₁.log.record (.awoken node.pid .blockedByMessage) :=
    congrArg Rest.log hrest
  have hstate : s₂.view.state r = .running := by
    rw [hview₂]
    dsimp only
    rw [Function.update_of_ne hne]
    exact h.running
  have hafter : ∀ (scheduled : Bool) (frame : Option Frame) (eax : Int),
      (∀ f ∈ frame, f = .ret 0) →
      (scheduled = true ∨ ¬s.view.priority r < s.view.priority node.pid) →
      After step s { s₂ with control := topFrames scheduled frame ++ s.control, eax := eax }
        r := by
    intro scheduled frame eax hframe hfair
    have hplain : ∀ f ∈ frame, f.isSchedule = false ∧ f.isWaitpid = false ∧
        f.isResume = false ∧ f.isInit = true := by
      intro f hf
      rw [hframe f hf]
      exact ⟨rfl, rfl, rfl, rfl⟩
    refine h.after step s₂ (by rw [hview₂]; exact hcore) ?_ ?_ scheduled frame eax
      (fun f hf => ⟨(hplain f hf).1, (hplain f hf).2.1⟩) (fun _ f hf => (hplain f hf).2.2.2)
      (.inr hstate) (by rw [hview₂]; exact h.alive) ?_ ?_
    · intro x hx
      have hsame := congrFun (congrArg Rest.context hrest) x
      refine .inr ⟨?_, hsame.trans (hcontext x)⟩
      rw [hview₂] at hx
      by_cases hxp : x = node.pid
      · rw [hxp, hblocked]
        decide
      · simpa [hxp] using hx
    · rw [hstate]
      decide
    · rw [hlog, hview₂]
      exact heffect (h.plain_top fun f hf => ⟨(hplain f hf).2.1, (hplain f hf).2.2.1⟩)
    · rcases hfair with hscheduled | hlow
      · exact .inl hscheduled
      · right
        intro hlaw x hx
        rw [hview₂] at hx ⊢
        by_cases hxp : x = node.pid
        · rw [hxp]
          exact Int.not_lt.mp hlow
        · exact hlaw x (by simpa [hxp] using hx)
  rw [hawake, ok_bind]
  dsimp only
  rw [meets_ite]
  constructor
  · intro hhigher
    have hcall := hafter true (some (.ret 0)) s₂.eax (by rintro f ⟨⟩; rfl) (.inl rfl)
    rw [← hcontrol₂] at hcall
    exact hcall
  · intro hlower
    have hret := hafter false none 0 (by simp) (.inr (by simpa using hlower))
    rw [← hcontrol₂] at hret
    exact hret

/-! ## Blocking -/

/-- The end of a call that blocks. -/
private theorem blockBehind_meets (h : Settled s r) (hone : r ≠ 1) {frame : Frame}
    {node : ProcessNodeContent} (event : HistoryEvent)
    (hallocated : (s.queues fid).allocated = true)
    (hlevel : (s.queues fid).nbMessages = 0 ∨
      (s.queues fid).nbMessages = (s.queues fid).size)
    (hpid : node.pid = r) (hpriority : node.priority = s.view.priority r)
    (hframe : resumeFrame (s.queues fid) r = frame)
    (heffect : ∀ {queue : MessageQueue},
      queue.waiters =
        NodeList.place (stands node.priority) node (s.queues fid).waiters →
      queue.messages = (s.queues fid).messages →
      queue.nbMessages = (s.queues fid).nbMessages →
      (s.view.queues fid).Same queue →
      Effect step r s.view s.log
        { s.view with
          state := Function.update s.view.state r .blockedByMessage
          queues := Function.update s.view.queues fid queue
          call := Function.update s.view.call r (frame :: s.control) }
        (s.log.record event)) :
    Meets (do
        let locked ← processQueueAddOnPriority step.mem (s.queues fid).lockedProcesses node
        let s := setQueue s fid { s.queues fid with lockedProcesses := locked }
        let s ← blockByMessage s r
        return (s.record event).callSchedule [frame])
      (fun s' => After step s s' r) (Excused False False) := by
  have hr : s.view.state r ≠ .blockedByMessage := by
    rw [h.running]
    decide
  unfold processQueueAddOnPriority
  rw [meets_bind, meets_bind, meets_require]
  refine ⟨fun _ => ?_, fun _ => trivial⟩
  rw [meets_pure]
  change Meets (do
    let s ← blockByMessage (setQueue s fid { s.queues fid with
      lockedProcesses := (s.queues fid).lockedProcesses.addBehind (stands node.priority) node }) r
    return (s.record event).callSchedule [frame]) _ _
  set queue : MessageQueue := { s.queues fid with
    lockedProcesses :=
      (s.queues fid).lockedProcesses.addBehind (stands node.priority) node } with hqueue
  have hgetpid : (setQueue s fid queue).getpid = r := h.core.getpid_eq
  have hblock : blockByMessage (setQueue s fid queue) r =
      .ok ((setQueue s fid queue).update r fun p => { p with state := .blockedByMessage }) := by
    have hself : ((setQueue s fid queue).update r
        fun p => { p with state := .blockedByMessage }).getpid = r := by
      have hrunning : ((setQueue s fid queue).update r
        fun p => { p with state := .blockedByMessage }).runningProcess = some r :=
          h.runningProcess_eq
      unfold Kernel.getpid
      rw [hrunning]
      dsimp only
      rw [Kernel.data_update, if_pos rfl]
      exact h.core.pid_eq h.core.self
    unfold blockByMessage
    rw [getProcess_eq (h.core.isPid h.core.self), ok_bind]
    dsimp only
    rw [hself, if_neg (fun hne => hne rfl)]
    rfl
  rw [hblock, ok_bind, meets_pure]
  set s₁ : Kernel := (setQueue s fid queue).update r
    fun p => { p with state := .blockedByMessage } with hs₁
  have hview : s₁.view = { s.view with
      state := Function.update s.view.state r .blockedByMessage
      queues := Function.update s.view.queues fid queue } := by
    calc s₁.view = { (s.update r fun p => { p with state := .blockedByMessage }).view with
          queues := Function.update s.queues fid queue } := rfl
      _ = _ := by
        rw [s.view_update r _ rfl]
        simp only [Kernel.update_pid_self, Kernel.update_father_self,
          Kernel.update_childs_self, Kernel.update_priority_self, Kernel.update_dead_self,
          Kernel.update_sealed_self, Kernel.update_code_self]
        rfl
  have hrest : s₁.rest = s.rest :=
    (setQueue s fid queue).rest_update r _ rfl
  have hlog : (s₁.record event).log = s.log.record event :=
    congrArg (fun rest => (Rest.log rest).record event) hrest
  have hlocked := h.core.locked.lock s.control hr hallocated hlevel hpid hpriority
  have hadd := (h.core.locked.live fid hallocated).list.addBehind (stands node.priority) node
  have hwaiters : queue.waiters =
      NodeList.place (stands node.priority) node (s.queues fid).waiters := hadd.toList_eq
  have hwait : ∀ f, (frame :: s.control).head? = some f → f.isWaitpid = false := by
    rintro f ⟨⟩
    rw [← hframe]
    unfold resumeFrame
    split
    · rfl
    · rfl
  have hlocked' : Locked (Function.update s.view.state r .blockedByMessage) s.view.priority
      (Function.update s.view.call r (frame :: s.control))
      (Function.update s.queues fid queue) := by
    rw [← hframe]
    exact hlocked
  have hcore := h.core.block (b := .blockedByMessage) h.running hone (by decide)
    (h.core.waits.move (by rw [h.running]; decide) (by decide) hwait) hlocked' (fun fid' => ?_)
    (h.core.sleepers.move (by rw [h.running]; decide) (by decide))
  have hafter := h.finish step (s₁.record event) true (some frame) s₁.eax ?_
    (by rw [Kernel.view_record, hview]; exact hcore) ?_ (fun heq => absurd heq hone)
    (.inl ⟨rfl, hone⟩) (by rw [Kernel.view_record, hview]; exact h.alive)
    (by rw [hlog, Kernel.view_record, hview]; exact heffect hwaiters rfl rfl ⟨rfl, rfl⟩) (.inl rfl)
  · exact hafter
  · rintro f ⟨⟩
    rw [← hframe]
    unfold resumeFrame
    split
    · rfl
    · rfl
  · intro x hx
    have hsame := congrFun (congrArg Rest.context hrest) x
    refine .inr ⟨?_, hsame⟩
    rw [Kernel.view_record, hview] at hx
    by_cases hxr : x = r
    · rw [hxr]
      exact h.core.self
    · simpa [hxr] using hx
  · by_cases hfid : fid' = fid
    · rw [hfid, Function.update_self]
      rfl
    · rw [Function.update_of_ne hfid]
      rfl

/-! ## psend and preceive -/

theorem isLive_iff (h : Settled s r) :
    isLive s fid = true ↔ (s.queues fid).allocated = true := by
  unfold isLive
  rw [decide_eq_true_eq]
  constructor
  · intro hlive
    exact hlive.2.2
  · intro hallocated
    have hrange := h.core.locked.range fid hallocated
    exact ⟨hrange.1, hrange.2, hallocated⟩

theorem live_of_isLive (h : Settled s r) (hlive : ¬isLive s fid = false) :
    (s.queues fid).allocated = true ∧ Live (s.queues fid) := by
  have hallocated := (isLive_iff h).mp (by simpa using hlive)
  exact ⟨hallocated, h.core.locked.live fid hallocated⟩

private theorem setQueue_view (s : Kernel) (fid : Int) (queue : MessageQueue) :
    (setQueue s fid queue).view =
      { s.view with queues := Function.update s.view.queues fid queue } := rfl

/-- A call that only changes the buffer of a queue on which nobody is blocked. -/
private theorem buffer_after (h : Settled s r) (s₁ : Kernel) (fid : Int) (queue : MessageQueue)
    (hview : s₁.view = { s.view with queues := Function.update s.view.queues fid queue })
    (hcontrol : s₁.control = s.control)
    (hcontext : ∀ x, (s₁.data x).executionContext = (s.data x).executionContext)
    (hlive : Live queue) (hold : (s.queues fid).allocated = true)
    (hallocated : queue.allocated = (s.queues fid).allocated)
    (hnil : (s.queues fid).waiters = []) (hnil' : queue.waiters = [])
    (heffect : ∀ {frames : List Frame}, Plain frames →
      Effect step r s.view s.log
        { s.view with
          queues := Function.update s.view.queues fid queue
          call := Function.update s.view.call r frames } s₁.log) :
    After step s (s₁.ret 0) r := by
  have hrange := h.core.locked.range fid hold
  have hlocked := h.core.locked.replace queue hnil hnil' (fun _ => ⟨hlive, hrange⟩)
    fun hfalse => by
      rw [hallocated, hold] at hfalse
      cases hfalse
  have hpool : Pool nbQueue s.view.fids s.view.nbQueues
      (freeFid (Function.update s.view.queues fid queue)) :=
    h.core.fidPool.congr fun fid' => by
      unfold freeFid
      by_cases hfid : fid' = fid
      · rw [hfid, Function.update_self, hallocated]
        exact Iff.rfl
      · rw [Function.update_of_ne hfid]
  have hcore := h.core.setQueues hlocked hpool
  have hafter := h.after step s₁ (by rw [hview]; exact hcore)
    (fun x hx => .inr ⟨by rwa [hview] at hx, hcontext x⟩)
    (by rw [hview]; exact ⟨by rw [h.running]; decide, by rw [h.running]; decide⟩) false none 0
    (by simp) (by simp) (.inr (by rw [hview]; exact h.running)) (by rw [hview]; exact h.alive)
    (by rw [hview]; exact heffect (h.plain_top (by simp)))
    (.inr fun hlaw => by rw [hview]; exact hlaw)
  rw [← hcontrol] at hafter
  exact hafter

theorem psend_meets (h : Settled s r) (fid message : Int)
    (hone : (s.queues fid).allocated = true →
      (s.queues fid).nbMessages = (s.queues fid).size → r ≠ 1) :
    Meets (psend step.mem s fid message) (fun s' => After step s s' r)
      (Excused False False) := by
  unfold psend
  rw [meets_ite]
  refine ⟨fun _ => h.ret (-1), fun hnot => ?_⟩
  obtain ⟨hallocated, hlive⟩ := live_of_isLive h hnot
  have hpos := hlive.size_pos
  dsimp only
  rw [h.core.getpid_eq, meets_ite]
  constructor
  · rintro ⟨hempty, hwaits⟩
    rw [hlive.waiters_pos] at hwaits
    obtain ⟨node, rest, hwaiters⟩ := List.exists_cons_of_ne_nil hwaits
    obtain ⟨list, hremove, hlist⟩ := hlive.removeFirst hwaiters
    obtain ⟨hlive', hrest⟩ := hlive.withList hlist fun _ => .inl hempty
    set queue : MessageQueue := { s.queues fid with lockedProcesses := list } with hqueue
    rw [hremove, ok_bind]
    dsimp only
    obtain ⟨receiver, hstore⟩ :=
      (setQueue s fid queue).rest_store node.destination message
    have hview := (setQueue s fid queue).view_store node.destination message
    have hwaiters' : (s.view.queues fid).waiters = node :: queue.waiters := by
      rw [hrest]
      exact hwaiters
    have hlog : (((setQueue s fid queue).store node.destination message).record
        (.handed r node.pid fid message)).log =
          s.log.record (.handed r node.pid fid message) :=
      congrArg (fun rest => (Rest.log rest).record (.handed r node.pid fid message)) hstore
    refine releaseBehind_meets h fid queue ?_ (congrArg Rest.control hstore)
      (fun x => congrFun (congrArg Rest.context hstore) x) hwaiters' hlive' hallocated
      (fun _ => Iff.rfl) fun {processQueue frames} hframes => ?_
    · rw [Kernel.view_record, hview, setQueue_view]
    · rw [hlog]
      exact .hand ⟨rfl, rfl⟩ hwaiters' hempty hempty hframes
  · intro hnone
    rw [meets_ite]
    constructor
    · intro hfull
      have hprio : getprio s r = .ok (s.view.priority r) := by
        unfold getprio
        rw [getProcess_eq (h.core.isPid h.core.self)]
        rfl
      have hne : (s.queues fid).nbMessages ≠ 0 := by omega
      rw [hprio, ok_bind]
      refine blockBehind_meets h (hone hallocated hfull) (.blockedSender r fid message)
        hallocated (.inr hfull) rfl rfl ?_ fun {queue} hwaiters hmessages _ hsame => ?_
      · unfold resumeFrame
        rw [if_neg hne]
      · exact .blockSend hsame h.running hwaiters hne hmessages
    · intro hspace
      have hlt : (s.queues fid).nbMessages < (s.queues fid).size :=
        lt_of_le_of_ne hlive.nbMessages_le hspace
      have hnil : (s.queues fid).waiters = [] := by
        by_contra hne
        rcases hlive.level hne with hempty | hfull
        · exact hnone ⟨hempty, hlive.waiters_pos.mpr hne⟩
        · exact hspace hfull
      obtain ⟨queue, hregister, hlive', hmessages, -, hnil', hsize', hallocated'⟩ :=
        hlive.register hlt hnil message
      rw [hregister, ok_bind, meets_pure]
      exact buffer_after h ((setQueue s fid queue).record (.buffered r fid message)) fid queue rfl rfl
        (fun _ => rfl) hlive' hallocated hallocated' hnil hnil' fun {frames} hframes =>
          .buffer ⟨hallocated', hsize'⟩ hnil hnil' hmessages hframes

theorem preceive_meets (h : Settled s r) (hone : r ≠ 1) (fid : Int)
    (destination : Destination) :
    Meets (preceive step.mem s fid destination) (fun s' => After step s s' r)
      (Excused False False) := by
  unfold preceive
  rw [meets_ite]
  refine ⟨fun _ => h.ret (-1), fun hnot => ?_⟩
  obtain ⟨hallocated, hlive⟩ := live_of_isLive h hnot
  have hpos := hlive.size_pos
  dsimp only
  rw [h.core.getpid_eq, meets_ite]
  constructor
  · rintro ⟨hfull, hwaits⟩
    rw [hlive.waiters_pos] at hwaits
    obtain ⟨node, rest, hwaiters⟩ := List.exists_cons_of_ne_nil hwaits
    obtain ⟨received, messages, queue₁, list, queue, hunregister, hremove, hregister, hlive',
      hold, hnew, hrest, hlevel, hallocated', hsize'⟩ := hlive.swap hfull hwaiters
    rw [hunregister, ok_bind]
    dsimp only
    rw [hremove, ok_bind]
    dsimp only
    rw [hregister, ok_bind]
    set s₁ : Kernel := ((setQueue s fid queue).record (.received r fid received)).record
      (.taken r node.pid fid node.message) with hs₁
    obtain ⟨receiver, hstore⟩ := s₁.rest_store destination received
    have hview := s₁.view_store destination received
    have hwaiters' : (s.view.queues fid).waiters = node :: queue.waiters := by
      rw [hrest]
      exact hwaiters
    have hlog : (s₁.store destination received).log =
        (s.log.record (.received r fid received)).record
          (.taken r node.pid fid node.message) := congrArg Rest.log hstore
    refine releaseBehind_meets h fid queue ?_ (congrArg Rest.control hstore)
      (fun x => congrFun (congrArg Rest.context hstore) x) hwaiters' hlive'
      (hallocated'.trans hallocated) (fun _ => by rw [hlevel]; exact Iff.rfl)
      fun {processQueue frames} hframes => ?_
    · rw [hview]
      rfl
    · rw [hlog]
      exact .swap ⟨hallocated', hsize'⟩ hwaiters' hold hnew hframes
  · intro hnone
    rw [meets_ite]
    constructor
    · intro hempty
      have hprio : getprio s r = .ok (s.view.priority r) := by
        unfold getprio
        rw [getProcess_eq (h.core.isPid h.core.self)]
        rfl
      rw [hprio, ok_bind]
      refine blockBehind_meets h hone (.blockedReceiver r fid) hallocated (.inl hempty) rfl rfl
        ?_ fun {queue} hwaiters _ hlevel hsame => ?_
      · unfold resumeFrame
        rw [if_pos hempty]
      · exact .blockReceive hsame h.running hwaiters hempty (hlevel.trans hempty)
    · intro hsome
      have hnil : (s.queues fid).waiters = [] := by
        by_contra hne
        rcases hlive.level hne with hempty | hfull
        · exact hsome hempty
        · exact hnone ⟨hfull, hlive.waiters_pos.mpr hne⟩
      obtain ⟨received, queue, hunregister, hlive', hmessages, -, hnil', hsize', hallocated'⟩ :=
        hlive.unregister hsome hnil
      rw [hunregister, ok_bind]
      dsimp only
      rw [meets_pure]
      set s₁ : Kernel := (setQueue s fid queue).record (.received r fid received) with hs₁
      obtain ⟨receiver, hstore⟩ := s₁.rest_store destination received
      have hview := s₁.view_store destination received
      have hlog : (s₁.store destination received).log =
          s.log.record (.received r fid received) := congrArg Rest.log hstore
      refine buffer_after h (s₁.store destination received) fid queue ?_ (congrArg Rest.control hstore)
        (fun x => congrFun (congrArg Rest.context hstore) x) hlive' hallocated hallocated' hnil
        hnil' fun {frames} hframes => ?_
      · rw [hview]
        rfl
      · rw [hlog]
        exact .take ⟨hallocated', hsize'⟩ hnil hnil' hmessages hframes

/-! ## Going on behind a block -/

theorem messageResume_meets {rest : List Frame} {frame : Frame} (h : Settled s r)
    (hframe : frame.isResume = true) (hs : s.control = rest)
    (s₀ : Kernel) (hs₀ : s = { s₀ with control := rest })
    (hcontrol : s₀.control = frame :: rest) :
    Inv (messageResume s r) r ∧ Turn r s₀ (messageResume s r) ∧
      Fair s₀ (messageResume s r) r := by
  have hafter : ∀ (releases : Int → Bool) (value : Int),
      Inv ({ s with resetReleases := releases }.record (.resumed r value) |>.ret value) r := by
    intro releases value
    refine h.inv h.core (fun p hp => .inr ⟨hp, rfl⟩) false none rfl (by simp) (by simp)
      (.inr h.running) h.alive
  have hview : s.view = { s₀.view with call := Function.update s₀.view.call r rest } := by
    have hrunning : s₀.runningProcess = some r := by
      have hr := h.runningProcess_eq
      rw [hs₀] at hr
      exact hr
    have hbase : base rest = rest := by
      have houter := h.outer
      rw [hs] at houter
      exact base_topFrames false none (by simp) houter
    rw [hs₀, s₀.view_control hrunning, hbase]
  have hcall : ∃ frame, (s₀.view.call r).head? = some frame ∧ frame.isResume = true := by
    have hrunning : s₀.runningProcess = some r := by
      have hr := h.runningProcess_eq
      rw [hs₀] at hr
      exact hr
    refine ⟨frame, ?_, hframe⟩
    rw [s₀.call_running hrunning, hcontrol,
      base_of_head (by cases frame <;> simp_all [Frame.isResume, Frame.isSchedule])]
    rfl
  have hplain : Plain rest := by
    have houter := h.outer
    rw [hs] at houter
    exact plain_of_outer houter
  have hphase : phaseOf s₀.control = none := by
    rw [hcontrol]
    cases frame <;> simp_all [Frame.isResume, phaseOf]
  have hlaw : s₀.view.law r → s.view.law r := by
    intro hlaw
    rw [hview]
    exact hlaw
  have hlog : s.log = s₀.log := by
    rw [hs₀]
    rfl
  have hreleases : s₀.log.resetReleases = s.resetReleases := by
    rw [hs₀]
    rfl
  unfold messageResume
  cases hreleased : s.resetReleases (r - 1) with
  | true =>
      rw [if_pos rfl]
      refine ⟨hafter _ (-1), ?_, .inr hlaw⟩
      refine .resume (-1) rest hcall ?_ hview ?_ hplain hphase
      · rw [hreleases, hreleased]
        rfl
      · rw [← hlog]
        rfl
  | false =>
      rw [if_neg (by decide)]
      refine ⟨hafter s.resetReleases 0, ?_, .inr hlaw⟩
      refine .resume 0 rest hcall ?_ hview ?_ hplain hphase
      · rw [hreleases, hreleased]
        rfl
      · have hself : Function.update s.log.resetReleases (r - 1) false = s.log.resetReleases := by
          rw [← hreleased]
          exact Function.update_eq_self _ _
        rw [← hlog, hself]
        rfl

end SchlagOS
