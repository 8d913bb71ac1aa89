import SchlagOS.Invariant.Console

/-!
# The steps of schedule

One turn of the loops of `clean_processes`, or the choice of the next process.
`Suppressed` is the special case of that choice for a full table, in which a
process of a lower priority than a ready one goes on.
-/

namespace SchlagOS

open Foundation

variable {s : Kernel} {r p : Int} {rest : List Frame}

/-! ## Stacks in schedule -/

theorem Inv.runningProcess_eq (h : Inv s r) : s.runningProcess = some r := h.core.running

theorem Inv.suspended_rest (h : Inv s r) {phase : SchedulePhase}
    (hcontrol : s.control = .schedule phase :: rest) : Suspended rest := by
  have hexecuting := h.executing
  rw [hcontrol] at hexecuting
  exact hexecuting

theorem Suspended.phaseOf_eq {frames : List Frame} (h : Suspended frames) :
    phaseOf frames = none ∨ phaseOf frames = some .zombify := by
  cases frames with
  | nil => exact .inl rfl
  | cons frame rest =>
      cases frame with
      | schedule phase =>
          rw [h.nested phase (by simp)]
          exact .inr rfl
      | _ => exact .inl rfl

/-- The stack of process 1 holds no other frames when the running process puts a frame of
`schedule` in front of a part of its own. -/
private theorem initFrames_of (h : Inv s r) {s' : Kernel}
    (hrunning : s'.runningProcess = some r)
    (hcontrol : ∀ f ∈ s'.control, f ∈ s.control ∨ f.isSchedule = true)
    (hcontext : (s'.data 1).executionContext = (s.data 1).executionContext) :
    ∀ frame ∈ s'.stack 1, frame.isInit = true := by
  have hold := h.initFrames
  unfold Kernel.stack at hold ⊢
  rw [h.runningProcess_eq] at hold
  rw [hrunning]
  by_cases hone : r = 1
  · subst hone
    rw [if_pos rfl] at hold ⊢
    intro f hf
    rcases hcontrol f hf with hmem | hschedule
    · exact hold f hmem
    · cases f <;> simp_all [Frame.isSchedule, Frame.isInit]
  · rw [if_neg fun heq => hone (Option.some.inj heq)] at hold ⊢
    rwa [hcontext]

/-- The view does not show the frames of `schedule` on top of the stack. -/
theorem Inv.view_control (h : Inv s r) {frames : List Frame}
    (hbase : base frames = base s.control) : { s with control := frames }.view = s.view := by
  rw [s.view_control h.runningProcess_eq, hbase, ← s.call_running h.runningProcess_eq,
    Function.update_eq_self]

/-- A call of `schedule` alone does not show in the view. -/
theorem Kernel.view_callSchedule (s : Kernel) (h : s.runningProcess = some r) :
    (s.callSchedule []).view = s.view := by
  have hcall := s.view_control h (.schedule .zombify :: ([] ++ s.control))
  have hself := s.call_running h
  change { s with control := .schedule .zombify :: ([] ++ s.control) }.view = _
  rw [hcall, base_schedule, List.nil_append, ← hself, Function.update_eq_self]

/-! ## Passing to the next phase -/

private theorem pass_meets (h : Inv s r) {frames : List Frame}
    (hbase : base frames = base s.control) (hexecuting : Executing frames)
    (hmem : ∀ f ∈ frames, f ∈ s.control ∨ f.isSchedule = true)
    (hphase : phaseOf frames = none → phaseOf s.control = some .decide)
    (hrunning : phaseOf frames = none ∨ r = 1 → s.view.state r = .running)
    (hzombified : phaseOf frames ≠ none → phaseOf frames ≠ some .zombify →
      ∀ p ∈ s.view.toZombify, p = r)
    (hdestroyed : phaseOf frames = some .decide → s.view.toDestroy = []) :
    Inv { s with control := frames } r ∧ Turn r s { s with control := frames } := by
  have hview := h.view_control hbase
  have hstate : { s with control := frames }.view.state = s.view.state := rfl
  refine ⟨⟨?_, hexecuting, h.suspended,
    initFrames_of h h.runningProcess_eq hmem rfl, hrunning, h.alive, hzombified, hdestroyed⟩,
    .pass hphase hview rfl⟩
  rw [hview]
  exact h.core

/-! ## zombify and destroy -/

/-- A process that `request_destroy` would be called for a second time. -/
def SealsTwice (s : Kernel) (r : Int) : Prop :=
  ∃ p c, (p ∈ s.view.toZombify ∧ p ≠ r ∨ ∃ rest, s.view.toDestroy = rest ++ [p]) ∧
    c ∈ s.view.childs p ∧ s.view.dead c = true ∧ s.view.isSealed c = true

/-- What can go wrong in a turn of `schedule`. -/
def TurnFails (s : Kernel) (r : Int) (e : Panic) : Prop :=
  Excused (SealsTwice s r) False e ∨ e = .zombifyInit ∧ s.view.state 1 = .zombie

private theorem zombifyStep_meets (h : Inv s r)
    (hbacked : Backed s.view.state s.view.dead s.stackData) {mem : Memory}
    {stack : ArrayStack Int} (hcontrol : s.control = .schedule .zombify :: rest)
    (htake : takePending s.pidsToZombify (some r) = some (p, stack)) :
    Meets (do
        let s ← zombify mem { s with pidsToZombify := stack } p
        return s.callSchedule [])
      (fun s' => Inv s' r ∧ Turn r s s' ∧ phaseOf s'.control = some .zombify)
      (TurnFails s r) := by
  obtain ⟨hperm, hpr⟩ := takePending_perm h.core.pending.nodup_zombify htake
  by_cases hone : p = 1
  · have hmem : p ∈ s.view.toZombify := hperm.mem_iff.mpr (by simp)
    have hzombie := ((h.core.pending.mem_zombify p).mp hmem).1
    rw [hone] at hzombie
    have hnot : ¬p ≠ 1 := fun hne => hne hone
    unfold zombify
    rw [require, if_neg hnot, error_bind, error_bind, meets_error]
    exact .inr ⟨rfl, hzombie⟩
  rw [meets_bind]
  refine (zombify_meets h.core hbacked hone hperm hpr).mono ?_ ?_
  · rintro s₁ ⟨hrest, hcore, hzombified⟩
    rw [meets_pure]
    have hcontrol₁ : s₁.control = s.control := congrArg Rest.control hrest
    have hrunning₁ : s₁.runningProcess = some r := hcore.running
    have hcontext : ∀ x, (s₁.data x).executionContext = (s.data x).executionContext :=
      fun x => congrFun (congrArg Rest.context hrest) x
    have hview := s₁.view_callSchedule hrunning₁
    have hstate : ∀ x, s₁.view.state x = .running ↔ s.view.state x = .running := by
      intro x
      rcases hzombified.state with ⟨heq, hwakes⟩ | ⟨heq, -⟩
      · rw [heq]
        by_cases hx : x = s.view.father p
        · rw [hx, Function.update_self, hwakes.1]
          decide
        · rw [Function.update_of_ne hx]
      · rw [heq]
    refine ⟨⟨?_, ?_, ?_, ?_, ?_, ?_, ?_, ?_⟩, ?_, rfl⟩
    · rw [hview]
      exact hcore
    · change Suspended s₁.control
      rw [hcontrol₁, hcontrol]
      exact (h.suspended_rest hcontrol).schedule
    · intro x hx hused
      rw [hview] at hused
      change Suspended (s₁.data x).executionContext
      rw [hcontext]
      refine h.suspended x hx fun hunset => hused ?_
      rcases hzombified.state with ⟨heq, hwakes⟩ | ⟨heq, -⟩
      · rw [heq, Function.update_of_ne, hunset]
        rintro rfl
        have hblocked := hwakes.1
        rw [hunset] at hblocked
        cases hblocked
      · rw [heq, hunset]
    · refine initFrames_of h hrunning₁ ?_ (hcontext 1)
      intro f hf
      rcases List.mem_cons.mp hf with rfl | hf
      · exact .inr rfl
      · rw [List.nil_append, hcontrol₁] at hf
        exact .inl hf
    · rintro (hphase | hone)
      · cases hphase
      · rw [hview]
        exact (hstate r).mpr (h.running (.inr hone))
    · rw [hview, hzombified.view]
      dsimp only
      rw [Function.update_of_ne (Ne.symm hzombified.ne_one)]
      exact h.alive
    · intro _ hphase
      exact absurd rfl hphase
    · intro hphase
      cases hphase
    · refine .zombify p stack (by rw [hcontrol]; rfl) rfl htake hpr ?_ (congrArg Rest.log hrest)
      rw [hview]
      exact hzombified
  · refine fun e he => .inl (he.mono ?_ id)
    rintro ⟨c, hc, hdead, hsealed⟩
    exact ⟨p, c, .inl ⟨hperm.mem_iff.mpr (by simp), hpr⟩, hc, hdead, hsealed⟩

private theorem destroyStep_meets (h : Inv s r)
    (hbacked : Backed s.view.state s.view.dead s.stackData) {mem : Memory}
    {stack : ArrayStack Int} (hcontrol : s.control = .schedule .destroy :: rest)
    (htake : takePending s.pidsToDestroy (some r) = some (p, stack)) :
    Meets (destroy mem { s with pidsToDestroy := stack } p)
      (fun s' => Inv s' r ∧ Turn r s s' ∧ phaseOf s'.control = some .destroy)
      (Excused (SealsTwice s r) False) := by
  have hnot : r ∉ s.pidsToDestroy.entries := by
    intro hmem
    exact h.core.pending.sealed_ne r ((h.core.pending.mem_destroy r).mp hmem) rfl
  have hlast := takePending_last hnot htake
  have hphase : phaseOf s.control = some .destroy := by
    rw [hcontrol]
    rfl
  have hzombies := h.zombified (by rw [hphase]; decide) (by rw [hphase]; decide)
  refine (destroy_meets h.core hbacked h.alive hlast hzombies).mono ?_ ?_
  · rintro s₁ ⟨hrest, hcore, hdestroyed⟩
    have hcontrol₁ : s₁.control = s.control := congrArg Rest.control hrest
    have hphase₁ : phaseOf s₁.control = some .destroy := by rw [hcontrol₁, hphase]
    have hcontext : ∀ x, (s₁.data x).executionContext =
        Function.update (fun x => (s.data x).executionContext) p [] x :=
      fun x => congrFun (congrArg Rest.context hrest) x
    have hpr : r ≠ p := by
      intro heq
      have hmem : r ∈ s.view.toDestroy := by
        rw [hdestroyed.last, heq]
        simp
      exact hnot hmem
    have hstate : ∀ x, s₁.view.state x = Function.update s.view.state p .unset x := by
      intro x
      rw [hdestroyed.view]
    refine ⟨⟨hcore, ?_, ?_, ?_, ?_, ?_, ?_, ?_⟩, ?_, hphase₁⟩
    · rw [hcontrol₁]
      exact h.executing
    · intro x hx hused
      rw [hstate] at hused
      rw [hcontext]
      by_cases hxp : x = p
      · rw [hxp, Function.update_self]
        exact suspended_nil
      · rw [Function.update_of_ne hxp] at hused ⊢
        exact h.suspended x hx hused
    · refine initFrames_of h hcore.running (fun f hf => .inl (by rwa [← hcontrol₁])) ?_
      rw [hcontext, Function.update_of_ne (Ne.symm hdestroyed.ne_one)]
    · rintro (hnone | hone)
      · rw [hphase₁] at hnone
        cases hnone
      · rw [hstate, Function.update_of_ne hpr]
        exact h.running (.inr hone)
    · rw [hdestroyed.view]
      dsimp only
      rw [Function.update_of_ne (Ne.symm hdestroyed.ne_one)]
      exact h.alive
    · intro _ _
      rw [hdestroyed.view]
      exact hzombies
    · intro hdecide
      rw [hphase₁] at hdecide
      cases hdecide
    · exact .destroy p hphase₁ hdestroyed (congrArg Rest.log hrest)
  · refine fun e he => he.mono ?_ id
    rintro ⟨c, hc, hdead, hsealed⟩
    exact ⟨p, c, .inr ⟨stack.entries, hlast⟩, hc, hdead, hsealed⟩

/-! ## The switch -/

/-- The switch from `s` to `p` on the way to `s₁`: all of it is done but for the frames. -/
structure Switching (s s₁ : Kernel) (p : Int) (frames : List Frame) (state : Int → ProcessState)
    (processQueue : LinkQueue Int) : Prop where
  view : ∀ call, { s₁.view with call := call } = { s.view with
    state := state
    processQueue := processQueue
    running := some p
    call := call }
  rest : s₁.rest = { s.rest with control := frames }

namespace Switching

variable {s₁ : Kernel} {frames : List Frame} {state : Int → ProcessState}
  {processQueue : LinkQueue Int}

theorem state_eq (h : Switching s s₁ p frames state processQueue) : s₁.view.state = state :=
  congrArg View.state (h.view s₁.view.call)

theorem priority_eq (h : Switching s s₁ p frames state processQueue) :
    s₁.view.priority = s.view.priority := by
  have hpriority := congrArg View.priority (h.view s₁.view.call)
  exact hpriority

theorem processQueue_eq (h : Switching s s₁ p frames state processQueue) :
    s₁.processQueue = processQueue :=
  congrArg View.processQueue (h.view s₁.view.call)

theorem running_eq (h : Switching s s₁ p frames state processQueue) :
    s₁.runningProcess = some p :=
  congrArg View.running (h.view s₁.view.call)

/-- The new process has left the queue. -/
theorem elect (s : Kernel) (p : Int) (frames : List Frame) :
    Switching s
      { ({ s with control := frames, processQueue := s.processQueue.out.2 } : Kernel).update p
        (fun q => { q with state := .running }) with runningProcess := some p }
      p frames (Function.update s.view.state p .running) s.processQueue.out.2 where
  view call := by
    set s₀ : Kernel := { s with control := frames, processQueue := s.processQueue.out.2 }
    have hfields := s₀.view_fields p (fun q => { q with state := .running }) call
    calc _ = { { (s₀.update p fun q => { q with state := .running }).view with call := call } with
            running := some p } := rfl
      _ = _ := by
        rw [hfields]
        simp only [Kernel.update_pid_self, Kernel.update_father_self,
          Kernel.update_childs_self, Kernel.update_priority_self, Kernel.update_dead_self,
          Kernel.update_sealed_self, Kernel.update_code_self]
        rfl
  rest := ({ s with control := frames, processQueue := s.processQueue.out.2 } : Kernel).rest_update
    p (fun q => { q with state := .running }) rfl

/-- The old process is ready again. -/
theorem requeue (h : Switching s s₁ p frames state processQueue) (r : Int)
    (queue : LinkQueue Int) :
    Switching s
      { s₁.update r (fun q => { q with state := .waiting }) with processQueue := queue }
      p frames (Function.update state r .waiting) queue where
  view call := by
    have hfields := s₁.view_fields r (fun q => { q with state := .waiting }) call
    calc _ = { { (s₁.update r fun q => { q with state := .waiting }).view with
            call := call } with processQueue := queue } := rfl
      _ = { { s₁.view with call := call } with
            state := Function.update s₁.view.state r .waiting
            processQueue := queue } := by
          rw [hfields]
          simp only [Kernel.update_pid_self, Kernel.update_father_self,
            Kernel.update_childs_self, Kernel.update_priority_self,
            Kernel.update_dead_self, Kernel.update_sealed_self, Kernel.update_code_self]
      _ = _ := by rw [h.view, h.state_eq]
  rest := (s₁.rest_update r (fun q => { q with state := .waiting }) rfl).trans h.rest

/-- The frames that each process has left when `r` keeps those behind its `schedule`. -/
theorem context_eq (h : Switching s s₁ p frames state processQueue) (r x : Int) :
    ((s₁.update r fun q => { q with executionContext := s₁.control }).data x).executionContext =
      if x = r then frames else (s.data x).executionContext := by
  have hcontrol : s₁.control = frames := congrArg Rest.control h.rest
  have hcontext : (s₁.data x).executionContext = (s.data x).executionContext :=
    congrFun (congrArg Rest.context h.rest) x
  rw [Kernel.data_update, hcontrol]
  by_cases hx : x = r
  · rw [if_pos hx, if_pos hx]
  · rw [if_neg hx, if_neg hx, hcontext]

theorem contextSwitch_view (h : Switching s s₁ p frames state processQueue)
    (hcall : ∀ x, s.view.call x = base (if x = r then frames else (s.data x).executionContext)) :
    (contextSwitch s₁ r p).view = { s.view with
      state := state, processQueue := processQueue, running := some p } := by
  have hcall' : (contextSwitch s₁ r p).view.call = s.view.call := by
    funext x
    have hrunning : (s₁.update r fun q =>
        { q with executionContext := s₁.control }).runningProcess = some p := h.running_eq
    rw [hcall]
    unfold contextSwitch Kernel.view Kernel.stack
    dsimp only
    rw [hrunning]
    by_cases hx : x = p
    · subst hx
      rw [if_pos rfl, h.context_eq]
    · rw [if_neg fun heq => hx (Option.some.inj heq).symm, h.context_eq]
  have hfields := s₁.view_fields r (fun q => { q with executionContext := s₁.control })
    s.view.call
  calc (contextSwitch s₁ r p).view =
        { (contextSwitch s₁ r p).view with call := (contextSwitch s₁ r p).view.call } := rfl
    _ = { (s₁.update r fun q => { q with executionContext := s₁.control }).view with
          call := s.view.call } := by
        rw [hcall']
        rfl
    _ = { s₁.view with call := s.view.call } := by
        rw [hfields]
        simp only [Kernel.update_pid_self, Kernel.update_father_self,
          Kernel.update_childs_self, Kernel.update_priority_self,
          Kernel.update_dead_self, Kernel.update_sealed_self, Kernel.update_code_self,
          Kernel.update_state_self]
    _ = _ := h.view s.view.call

theorem contextSwitch_rest (h : Switching s s₁ p frames state processQueue) (hpr : p ≠ r) :
    (contextSwitch s₁ r p).rest = { s.rest with
      control := (s.data p).executionContext
      context := Function.update s.rest.context r frames } := by
  have hcontrol : s₁.control = frames := congrArg Rest.control h.rest
  have hwrite := s₁.rest_write r fun q => { q with executionContext := s₁.control }
  have hreturn : Function.update s₁.rest.returnCode r (s₁.data r).returnCode =
      s₁.rest.returnCode := Function.update_eq_self r s₁.rest.returnCode
  have hsleep : Function.update s₁.rest.sleepTime r (s₁.data r).sleepTime =
      s₁.rest.sleepTime := Function.update_eq_self r s₁.rest.sleepTime
  have hreceiver : Function.update s₁.rest.receiver r (s₁.data r).receiver =
      s₁.rest.receiver := Function.update_eq_self r s₁.rest.receiver
  dsimp only at hwrite
  rw [hreturn, hsleep, hreceiver, hcontrol, Rest.update_kernelStack_self,
    Rest.update_userStack_self, Rest.update_userStackSize_self] at hwrite
  have hnew := h.context_eq r p
  rw [if_neg hpr] at hnew
  calc (contextSwitch s₁ r p).rest =
        { (s₁.update r fun q => { q with executionContext := s₁.control }).rest with
          control := ((s₁.update r fun q =>
            { q with executionContext := s₁.control }).data p).executionContext } := rfl
    _ = _ := by rw [hnew, hcontrol, hwrite, h.rest]

end Switching

/-- The process that is switched out keeps the frames behind its `schedule`. -/
private theorem processSwitch_meets (h : Inv s r) (hp : s.view.state p = .waiting)
    (hbase : base rest = base s.control)
    (htop : s.processQueue.top = some p) :
    Meets (processSwitch { s with control := rest, processQueue := s.processQueue.out.2 } r p)
      (fun s' =>
        (∃ state processQueue, state p = .running ∧
          (state r = if s.view.state r = .running then .waiting else s.view.state r) ∧
          (∀ x, x ≠ p → x ≠ r → state x = s.view.state x) ∧
          ReadyQueue state s.view.priority processQueue ∧
          s'.view = { s.view with
            state := state, processQueue := processQueue, running := some p }) ∧
        s'.rest = { s.rest with
          control := (s.data p).executionContext
          context := Function.update s.rest.context r rest })
      (fun _ => False) := by
  have hpr : p ≠ r := fun heq => h.core.awake (heq ▸ hp)
  have hcall : ∀ x, s.view.call x = base
      (if x = r then rest else (s.data x).executionContext) := by
    intro x
    unfold Kernel.view Kernel.stack
    dsimp only
    rw [h.runningProcess_eq]
    by_cases hx : x = r
    · subst hx
      rw [if_pos rfl, if_pos rfl, hbase]
    · rw [if_neg fun heq => hx (Option.some.inj heq).symm, if_neg hx]
  have helect := Switching.elect s p rest
  have hready := h.core.ready.out (b := .running) htop (by decide)
  set s₁ : Kernel := { ({ s with control := rest, processQueue := s.processQueue.out.2 } :
    Kernel).update p (fun q => { q with state := .running }) with runningProcess := some p }
    with hs₁
  have hr₁ : (s₁.data r).state = s.view.state r :=
    (congrFun helect.state_eq r).trans (Function.update_of_ne (Ne.symm hpr) _ _)
  unfold processSwitch
  dsimp only
  change Meets (do
    let s ← if (s₁.data r).state = .running then
        queueAdd (s₁.update r fun q => { q with state := .waiting }) r
      else pure s₁
    return contextSwitch s r p) _ _
  by_cases hrunning : s.view.state r = .running
  · have hwaiting : (s₁.data r).state ≠ .waiting := by
      rw [hr₁, hrunning]
      decide
    have hready₁ : ReadyQueue s₁.view.state s₁.view.priority s₁.processQueue := by
      rw [helect.state_eq, helect.priority_eq, helect.processQueue_eq]
      exact hready
    obtain ⟨queue, hadd, hadded⟩ := queueAdd_eq (f := fun q => { q with state := .waiting })
      hready₁ hwaiting (h.core.isPid h.core.self) fun _ => rfl
    rw [if_pos (hr₁.trans hrunning), hadd, ok_bind, meets_pure]
    have hadded' : ReadyQueue (Function.update s₁.view.state r .waiting) s₁.view.priority queue :=
      hadded
    rw [helect.state_eq, helect.priority_eq] at hadded'
    have hrequeue := helect.requeue r queue
    refine ⟨⟨_, queue, ?_, ?_, ?_, hadded', hrequeue.contextSwitch_view hcall⟩,
      hrequeue.contextSwitch_rest hpr⟩
    · rw [Function.update_of_ne hpr, Function.update_self]
    · rw [Function.update_self, if_pos hrunning]
    · intro x hxp hxr
      rw [Function.update_of_ne hxr, Function.update_of_ne hxp]
  · rw [if_neg fun heq => hrunning (hr₁.symm.trans heq), pure_eq_ok, ok_bind, meets_pure]
    refine ⟨⟨_, _, Function.update_self _ _ _, ?_, ?_, hready, helect.contextSwitch_view hcall⟩,
      helect.contextSwitch_rest hpr⟩
    · rw [Function.update_of_ne (Ne.symm hpr), if_neg hrunning]
    · intro x hxp _
      exact Function.update_of_ne hxp _ _

/-! ## The choice of the next process -/

/-- The special case of `schedule` for a full table keeps the running process although a
process of a higher priority is ready. -/
def Suppressed (s : Kernel) : Prop :=
  phaseOf s.control = some .decide ∧ s.getpid ≠ 1 ∧ processTableMaxSize ≤ s.currentSize ∧
    s.running.state = .running ∧ (s.data 1).priority < s.running.priority ∧
    ∃ p ∈ queueTop s, s.running.priority < (s.data p).priority

instance (s : Kernel) : Decidable (Suppressed s) := by
  unfold Suppressed
  infer_instance

/-- Behind the loops of `clean_processes`, process 1 is ready when it does not run. -/
theorem Inv.init_waiting (h : Inv s r) (hphase : phaseOf s.control = some .decide)
    (hone : r ≠ 1) : s.view.state 1 = .waiting := by
  rcases h.core.init with hrun | hwait | hzombie
  · exact absurd (h.core.alone 1 hrun).symm hone
  · exact hwait
  · have hmem := (h.core.pending.mem_zombify 1).mpr ⟨hzombie, h.alive⟩
    have heq := h.zombified (by rw [hphase]; decide) (by rw [hphase]; decide) 1 hmem
    exact absurd heq.symm hone

private theorem stay_meets (h : Inv s r) (hcontrol : s.control = .schedule .decide :: rest)
    (hrunning : s.view.state r = .running) :
    Inv { s with control := rest } r ∧ Turn r s { s with control := rest } := by
  have hsuspended := h.suspended_rest hcontrol
  have hphase : phaseOf s.control = some .decide := by
    rw [hcontrol]
    rfl
  refine pass_meets h ?_ hsuspended.executing ?_ (fun _ => hphase) (fun _ => hrunning) ?_ ?_
  · rw [hcontrol, base_schedule]
  · intro f hf
    rw [hcontrol]
    exact .inl (List.mem_cons_of_mem _ hf)
  · intro hnone hzombify
    rcases hsuspended.phaseOf_eq with heq | heq
    · exact absurd heq hnone
    · exact absurd heq hzombify
  · intro hdecide
    rcases hsuspended.phaseOf_eq with heq | heq
    · rw [heq] at hdecide
      cases hdecide
    · rw [heq] at hdecide
      cases hdecide

private theorem switch_meets (h : Inv s r) (hcontrol : s.control = .schedule .decide :: rest)
    (hlaw : ∀ x, s.view.state x = .waiting →
      (∀ y, s.view.state y = .waiting → s.view.priority y ≤ s.view.priority x) →
      s.view.state r = .running → s.view.priority r ≤ s.view.priority x) :
    Meets (do
        let (new, s) := queueOut { s with control := rest }
        let new ← demand new .nullDereference
        processSwitch s r new)
      (fun s' => ∃ r', Inv s' r' ∧ Turn r s s' ∧ (¬Suppressed s → s'.view.law r'))
      (Excused False False) := by
  have hsuspended := h.suspended_rest hcontrol
  have hphase : phaseOf s.control = some .decide := by
    rw [hcontrol]
    rfl
  have hbase : base rest = base s.control := by rw [hcontrol, base_schedule]
  change Meets (demand s.processQueue.out.1 .nullDereference >>= fun new =>
    processSwitch { s with control := rest, processQueue := s.processQueue.out.2 } r new) _ _
  rw [meets_bind, meets_demand]
  refine ⟨fun p hp => ?_, fun _ => trivial⟩
  have htop : s.processQueue.top = some p := h.core.ready.out_eq_top.symm.trans hp
  obtain ⟨hwaiting, hmax⟩ := h.core.ready.of_top htop
  have hpr : p ≠ r := fun heq => h.core.awake (heq ▸ hwaiting)
  refine (processSwitch_meets h hwaiting hbase htop).mono ?_ fun e he => False.elim he
  rintro s' ⟨⟨state, processQueue, hnew, hold, hother, hready, hview⟩, hrest⟩
  have hcore := h.core.switch hwaiting hnew hold hother hready
  have hcontrol' : s'.control = (s.data p).executionContext := congrArg Rest.control hrest
  have hcontext : ∀ x, (s'.data x).executionContext =
      Function.update (fun x => (s.data x).executionContext) r rest x :=
    fun x => congrFun (congrArg Rest.context hrest) x
  have hstate : s'.view.state = state := by rw [hview]
  have hused : ∀ x, state x ≠ .unset → s.view.state x ≠ .unset := by
    intro x hx
    by_cases hxp : x = p
    · rw [hxp, hwaiting]
      decide
    · by_cases hxr : x = r
      · rw [hxr]
        exact h.core.self
      · rwa [← hother x hxp hxr]
  have hsuspended' : Suspended s'.control := by
    rw [hcontrol']
    exact h.suspended p hpr (by rw [hwaiting]; decide)
  refine ⟨p, ⟨?_, hsuspended'.executing, ?_, ?_, ?_, ?_, ?_, ?_⟩, ?_, ?_⟩
  · rw [hview]
    exact hcore
  · intro x hx hxused
    rw [hstate] at hxused
    rw [hcontext]
    by_cases hxr : x = r
    · rw [hxr, Function.update_self]
      exact hsuspended
    · rw [Function.update_of_ne hxr]
      exact h.suspended x hxr (hused x hxused)
  · have hrunning' : s'.runningProcess = some p := congrArg View.running hview
    have hinit := h.initFrames
    unfold Kernel.stack at hinit ⊢
    rw [h.runningProcess_eq] at hinit
    rw [hrunning', hcontrol', hcontext]
    by_cases hp1 : p = 1
    · rw [if_pos (by rw [hp1]), hp1]
      rw [if_neg fun heq => hpr (hp1.trans (Option.some.inj heq).symm)] at hinit
      exact hinit
    · rw [if_neg fun heq => hp1 (Option.some.inj heq)]
      by_cases hr1 : r = 1
      · rw [hr1, Function.update_self]
        rw [if_pos (by rw [hr1]), hcontrol] at hinit
        exact fun f hf => hinit f (List.mem_cons_of_mem _ hf)
      · rw [Function.update_of_ne (Ne.symm hr1)]
        rwa [if_neg fun heq => hr1 (Option.some.inj heq)] at hinit
  · intro _
    rw [hstate]
    exact hnew
  · rw [hview]
    exact h.alive
  · intro hnone hzombify
    rcases hsuspended'.phaseOf_eq with heq | heq
    · exact absurd heq hnone
    · exact absurd heq hzombify
  · intro hdecide
    rcases hsuspended'.phaseOf_eq with heq | heq
    · rw [heq] at hdecide
      cases hdecide
    · rw [heq] at hdecide
      cases hdecide
  · have hlog := congrArg Rest.log hrest
    exact .switch p state processQueue hphase hwaiting hnew hold hother hview hlog
  · intro _ x hx
    rw [hstate] at hx
    rw [hview]
    by_cases hxp : x = p
    · rw [hxp]
    · by_cases hxr : x = r
      · rw [hxr] at hx ⊢
        rw [hold] at hx
        split_ifs at hx with hrunning
        · exact hlaw p hwaiting hmax hrunning
        · exact absurd hx h.core.awake
      · rw [hother x hxp hxr] at hx
        exact hmax x hx

private theorem scheduleDecide_meets (h : Inv s r)
    (hcontrol : s.control = .schedule .decide :: rest) {s₀ : Kernel}
    (hs₀ : s₀ = { s with control := rest }) :
    Meets (scheduleDecide s₀)
      (fun s' => ∃ r', Inv s' r' ∧ Turn r s s' ∧ (¬Suppressed s → s'.view.law r'))
      (Excused False False) := by
  have hphase : phaseOf s.control = some .decide := by
    rw [hcontrol]
    rfl
  have hdata : s₀.data = s.data := by rw [hs₀]
  have hqueue : queueTop s₀ = s.view.processQueue.top := by
    rw [hs₀]
    rfl
  have hr : s₀.runningProcess = some r := by
    rw [hs₀]
    exact h.runningProcess_eq
  have hpid : (s₀.data r).pid = r := by
    rw [hdata]
    exact h.core.pid_eq h.core.self
  have hpid1 : r ≠ 1 → (s₀.data 1).pid = 1 := by
    intro hone
    rw [hdata]
    exact h.core.pid_eq (by rw [h.init_waiting hphase hone]; decide)
  -- A process that cannot run has a ready process to switch to.
  have hnext : s.view.state r ≠ .running → s.view.processQueue.top ≠ none := by
    intro hnot hnone
    have hone : r ≠ 1 := fun heq => hnot (h.running (.inr heq))
    exact h.core.ready.top_eq_none.mp hnone 1 (h.init_waiting hphase hone)
  have hstay : s.view.state r = .running → (¬Suppressed s → s.view.law r) →
      Meets (.ok s₀ : Except Panic Kernel)
        (fun s' => ∃ r', Inv s' r' ∧ Turn r s s' ∧ (¬Suppressed s → s'.view.law r'))
        (Excused False False) := by
    intro hrunning hlaw
    obtain ⟨hinv, hturn⟩ := stay_meets h hcontrol hrunning
    rw [hs₀]
    exact ⟨r, hinv, hturn, hlaw⟩
  have hswitch := switch_meets h hcontrol
  rw [← hs₀] at hswitch
  unfold scheduleDecide
  rw [hr]
  dsimp only
  rw [hpid, hqueue]
  by_cases hfull : r ≠ 1 ∧ processTableMaxSize ≤ s₀.currentSize
  · have hsize : processTableMaxSize ≤ s.currentSize := by
      have hsize₀ := hfull.2
      rwa [hs₀] at hsize₀
    rw [if_pos hfull]
    dsimp only
    rw [hpid, hpid1 hfull.1, hdata, meets_ite]
    constructor
    · rintro (heq | ⟨hrunning, hlow⟩)
      · exact absurd heq hfull.1
      · refine hstay hrunning fun hnot x hx => ?_
        by_contra hhigh
        apply hnot
        have hrun : s.running = s.data r := h.core.running_eq
        refine ⟨hphase, by rw [h.core.getpid_eq]; exact hfull.1, hsize, ?_, ?_, ?_⟩
        · rw [hrun]
          exact hrunning
        · rw [hrun]
          exact hlow
        · cases htop : s.view.processQueue.top with
          | none => exact absurd hx (h.core.ready.top_eq_none.mp htop x)
          | some p =>
              refine ⟨p, htop, ?_⟩
              rw [hrun]
              exact lt_of_lt_of_le (not_le.mp hhigh) ((h.core.ready.of_top htop).2 x hx)
    · intro hnot
      refine hswitch fun x hx hmax hrunning => ?_
      have hle : ¬(s.data 1).priority < (s.data r).priority := fun hlow =>
        hnot (.inr ⟨hrunning, hlow⟩)
      exact (not_lt.mp hle).trans (hmax 1 (h.init_waiting hphase hfull.1))
  · rw [if_neg hfull]
    cases htop : s.view.processQueue.top with
    | none =>
        dsimp only
        have hrunning : s.view.state r = .running := by
          by_contra hnot
          exact hnext hnot htop
        exact hstay hrunning fun _ x hx =>
          absurd hx (h.core.ready.top_eq_none.mp htop x)
    | some c =>
        obtain ⟨hwaiting, hmax⟩ := h.core.ready.of_top htop
        have hpidc : (s.data c).pid = c := h.core.pid_eq (by rw [hwaiting]; decide)
        dsimp only
        rw [hpid, hdata, hpidc, meets_ite]
        constructor
        · rintro (heq | ⟨hrunning, hlow⟩)
          · exact absurd (heq ▸ hwaiting) h.core.awake
          · refine hstay hrunning fun _ x hx => ?_
            exact (hmax x hx).trans hlow.le
        · intro hnot
          refine hswitch fun x hx hxmax hrunning => ?_
          have hle : ¬(s.data c).priority < (s.data r).priority := fun hlow =>
            hnot (.inr ⟨hrunning, hlow⟩)
          exact (not_lt.mp hle).trans (hxmax c hwaiting)

/-! ## One step -/

theorem scheduleStep_meets (h : Inv s r)
    (hbacked : Backed s.view.state s.view.dead s.stackData) (mem : Memory)
    {phase : SchedulePhase} (hcontrol : s.control = .schedule phase :: rest) :
    Meets (scheduleStep mem s phase rest)
      (fun s' => ∃ r', Inv s' r' ∧ Turn r s s' ∧
        (phaseOf s'.control = none → ¬Suppressed s → s'.view.law r'))
      (TurnFails s r) := by
  have hrunningPid : runningPid s = some r := h.core.runningPid_eq
  have hsuspended := h.suspended_rest hcontrol
  have hrunning : ∀ next, next ≠ .zombify →
      phaseOf (.schedule next :: rest) = none ∨ r = 1 → s.view.state r = .running := by
    rintro next - (hnone | hone)
    · cases hnone
    · exact h.running (.inr hone)
  have hpass : ∀ next, next ≠ .zombify → (∀ p ∈ s.view.toZombify, p = r) →
      (next = .decide → s.view.toDestroy = []) →
      Inv { s with control := .schedule next :: rest } r ∧
        Turn r s { s with control := .schedule next :: rest } := by
    intro next hnext hzombified hdestroyed
    refine pass_meets h ?_ hsuspended ?_ (fun hnone => ?_) (hrunning next hnext)
      (fun _ _ => hzombified) fun hdecide => ?_
    · rw [hcontrol, base_schedule, base_schedule]
    · intro f hf
      rcases List.mem_cons.mp hf with rfl | hf
      · exact .inr rfl
      · rw [hcontrol]
        exact .inl (List.mem_cons_of_mem _ hf)
    · cases hnone
    · exact hdestroyed (Option.some.inj hdecide)
  unfold scheduleStep
  rw [hrunningPid]
  cases phase with
  | zombify =>
      dsimp only
      cases htake : takePending s.pidsToZombify (some r) with
      | some taken =>
          obtain ⟨p, stack⟩ := taken
          refine (zombifyStep_meets h hbacked hcontrol htake).mono ?_ fun e he => he
          rintro s' ⟨hinv, hturn, hphase⟩
          refine ⟨r, hinv, hturn, fun hnone => ?_⟩
          rw [hphase] at hnone
          cases hnone
      | none =>
          dsimp only
          rw [meets_ok]
          obtain ⟨hinv, hturn⟩ := hpass .destroy (by decide) (takePending_eq_none htake)
            fun heq => by cases heq
          exact ⟨r, hinv, hturn, fun hnone => by cases hnone⟩
  | destroy =>
      dsimp only
      have hphase : phaseOf s.control = some .destroy := by
        rw [hcontrol]
        rfl
      cases htake : takePending s.pidsToDestroy (some r) with
      | some taken =>
          obtain ⟨p, stack⟩ := taken
          refine (destroyStep_meets h hbacked hcontrol htake).mono ?_ fun e he => .inl he
          rintro s' ⟨hinv, hturn, hphase'⟩
          refine ⟨r, hinv, hturn, fun hnone => ?_⟩
          rw [hphase'] at hnone
          cases hnone
      | none =>
          dsimp only
          rw [meets_ok]
          have hnil : s.view.toDestroy = [] := by
            apply List.eq_nil_iff_forall_not_mem.mpr
            intro p hp
            have hsealed := (h.core.pending.mem_destroy p).mp hp
            exact h.core.pending.sealed_ne p hsealed (takePending_eq_none htake p hp)
          obtain ⟨hinv, hturn⟩ := hpass .decide (by decide)
            (h.zombified (by rw [hphase]; decide) (by rw [hphase]; decide)) fun _ => hnil
          exact ⟨r, hinv, hturn, fun hnone => by cases hnone⟩
  | decide =>
      refine (scheduleDecide_meets h hcontrol rfl).mono ?_
        fun e he => .inl (he.mono False.elim id)
      rintro s' ⟨r', hinv, hturn, hlaw⟩
      exact ⟨r', hinv, hturn, fun _ => hlaw⟩

end SchlagOS
