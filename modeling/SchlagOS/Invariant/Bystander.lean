import SchlagOS.Invariant.Rules
import SchlagOS.Invariant.View

/-!
# The stacks of the others

A step of one process leaves the stack of another one as it is, or resets the
slot of that process.
-/

namespace SchlagOS

open Foundation

variable {s s' : Kernel} {step : Step} {mem : Memory} {p q : Int} {frames rest : List Frame}

theorem Kernel.stack_running (h : s.runningProcess = some p) : s.stack p = s.control := if_pos h

theorem Kernel.stack_other (h : s.runningProcess = some q) (hpq : p ≠ q) :
    s.stack p = (s.data p).executionContext := by
  unfold Kernel.stack
  rw [h, if_neg fun heq => hpq (Option.some.inj heq).symm]

/-- `q` runs, and `p` has the stack it was switched out with, or none. -/
structure Bystander (p q : Int) (frames : List Frame) (s : Kernel) : Prop where
  running : s.runningProcess = some q
  context : (s.data p).executionContext = frames ∨ (s.data p).executionContext = []

def bystanderRules (p q : Int) (frames : List Frame) : Rules where
  Holds := Bystander p q frames
  frame := fun _ => True
  destination := fun _ => True
  access := fun _ => True
  node := fun _ _ => True
  spare := fun _ => True
  released := fun _ => True
  null := trivial
  writes _ _ := trivial
  receives _ := trivial
  reprioritised _ _ := trivial
  waiting _ _ _ _ _ := trivial
  still h hstill := by
    refine ⟨hstill.runningProcess.trans h.running, ?_⟩
    rw [hstill.context]
    exact h.context
  write := by
    intro s x f h hcontext
    refine ⟨h.running, ?_⟩
    rw [Kernel.data_update]
    split_ifs with hx
    · subst hx
      rcases hcontext with heq | hnil
      · rw [heq]
        exact h.context
      · exact .inr hnil
    · exact h.context
  setQueues h _ _ := ⟨h.running, h.context⟩
  touch h _ := ⟨h.running, h.context⟩
  push h _ := ⟨h.running, h.context⟩
  release h _ := ⟨h.running, h.context⟩
  resume h _ := ⟨h.running, h.context⟩

theorem bystanderRules_calls (p q : Int) (frames : List Frame) :
    (bystanderRules p q frames).Calls where
  schedule := trivial
  startReturn _ := trivial
  exitLoop := trivial
  ret _ := trivial
  waitpid _ _ _ := ⟨trivial, trivial⟩
  psendResume _ := trivial
  preceiveResume _ := trivial
  clockTick := trivial

/-! ## The switch -/

theorem context_update (s : Kernel) (p : Int) {f : Process → Process}
    (hf : ∀ q, (f q).executionContext = q.executionContext) (x : Int) :
    ((s.update p f).data x).executionContext = (s.data x).executionContext := by
  rw [Kernel.data_update]
  split_ifs with hx
  · rw [hf, hx]
  · rfl

/-- A switch takes the stacks along. -/
theorem contextSwitch_stack (s : Kernel) {old new : Int} (h : s.runningProcess = some new)
    (x : Int) : (contextSwitch s old new).stack x =
      if x = old then s.control else (s.data x).executionContext := by
  have hrunning : (contextSwitch s old new).runningProcess = some new := h
  have hcontext : ∀ x, ((contextSwitch s old new).data x).executionContext =
      if x = old then s.control else (s.data x).executionContext := by
    intro x
    unfold contextSwitch
    dsimp only
    rw [Kernel.data_update]
    split <;> rfl
  by_cases hx : x = new
  · rw [hx, Kernel.stack_running hrunning, ← hcontext]
    rfl
  · rw [Kernel.stack_other hrunning hx, hcontext]

theorem processSwitch_stack (h : s.runningProcess = some p) (new : Int) :
    Meets (processSwitch s p new)
      (fun s' => s'.runningProcess = some new ∧ ∀ x, s'.stack x = s.stack x) fun _ => True := by
  have hswitched : ∀ s₂ : Kernel, s₂.runningProcess = some new → s₂.control = s.control →
      (∀ x, (s₂.data x).executionContext = (s.data x).executionContext) →
      (contextSwitch s₂ p new).runningProcess = some new ∧
        ∀ x, (contextSwitch s₂ p new).stack x = s.stack x := by
    intro s₂ hrunning hcontrol hcontext
    refine ⟨hrunning, fun x => ?_⟩
    rw [contextSwitch_stack s₂ hrunning, hcontrol, hcontext]
    split_ifs with hx
    · rw [hx, Kernel.stack_running h]
    · rw [Kernel.stack_other h hx]
  have hmarked := context_update s new (f := fun q => { q with state := .running }) fun _ => rfl
  unfold processSwitch
  dsimp only
  split
  · unfold queueAdd
    rw [meets_bind, meets_bind, meets_demand]
    refine ⟨fun queue _ => hswitched _ rfl rfl fun x => ?_, fun _ => trivial⟩
    rw [← hmarked x]
    exact context_update _ p (f := fun q => { q with state := .waiting }) (fun _ => rfl) x
  · rw [pure_eq_ok, ok_bind, meets_pure]
    exact hswitched _ rfl rfl hmarked

/-- The choice of the next process leaves all stacks as they are. -/
theorem scheduleDecide_stack (h : s.runningProcess = some p) : Meets (scheduleDecide s)
    (fun s' => (∃ q, s'.runningProcess = some q) ∧ ∀ x, s'.stack x = s.stack x)
      fun _ => True := by
  refine scheduleDecide_running h ⟨⟨p, h⟩, fun _ => rfl⟩ (fun new _ => ?_) fun _ => trivial
  have hout : (queueOut s).2.runningProcess = some p := h
  exact (processSwitch_stack hout new).mono (fun s' hs' => ⟨⟨new, hs'.1⟩, hs'.2⟩) fun _ he => he

/-! ## One step -/

theorem scheduleStep_bystander (h : Bystander p q frames s) (hpq : p ≠ q)
    (phase : SchedulePhase) (rest : List Frame) :
    Meets (scheduleStep mem s phase rest)
      (fun s' => Bystander p q frames s' ∨
        (∃ q', s'.runningProcess = some q') ∧ s'.stack p = (s.data p).executionContext)
      fun _ => True := by
  have hbystander : ∀ s', (bystanderRules p q frames).Holds s' → Bystander p q frames s' :=
    fun _ h => h
  cases phase with
  | zombify =>
      refine zombifyTurn_meets (fun pid stack _ => ?_) fun _ => .inl ⟨h.running, h.context⟩
      have htaken : (bystanderRules p q frames).Holds { s with pidsToZombify := stack } :=
        ⟨h.running, h.context⟩
      refine (zombify_keeps htaken pid).mono (fun s₁ h₁ => .inl ?_) fun _ _ => trivial
      exact hbystander _ (Rules.Holds.push h₁ (.schedule .zombify) trivial)
  | destroy =>
      refine destroyTurn_meets (fun pid stack _ => ?_) fun _ => .inl ⟨h.running, h.context⟩
      have htaken : (bystanderRules p q frames).Holds { s with pidsToDestroy := stack } :=
        ⟨h.running, h.context⟩
      exact (destroy_keeps htaken pid).mono (fun s₁ h₁ => .inl (hbystander _ h₁))
        fun _ _ => trivial
  | decide =>
      have hrunning : { s with control := rest }.runningProcess = some q := h.running
      refine (scheduleDecide_stack hrunning).mono (fun s' hs' => .inr ⟨hs'.1, ?_⟩)
        fun _ _ => trivial
      rw [hs'.2, Kernel.stack_other hrunning hpq]

private theorem bystander_event (s : Kernel) (event : Event) :
    (bystanderRules p q frames).event s event := by
  cases event with
  | call call =>
      cases call with
      | start program stackSize priority name => exact fun _ _ _ _ _ => trivial
      | waitpid pid retvalp => exact fun _ _ _ => trivial
      | pcount fid count => exact fun _ _ => trivial
      | pcreate count => exact fun _ _ _ _ => trivial
      | pdelete fid => exact ⟨fun _ _ => trivial, trivial⟩
      | preset fid => exact fun _ _ => trivial
      | psend fid message => exact fun _ => trivial
      | preceive fid message => exact fun _ _ => ⟨trivial, fun _ => trivial⟩
      | consRead str length => exact fun _ => trivial
      | consWrite str size => exact fun _ _ _ => trivial
      | clockSettings quartz ticks => exact fun _ _ => ⟨trivial, trivial⟩
      | _ => trivial
  | _ => trivial

private theorem kernelStep_bystander (h : Bystander p q frames s) (hpq : p ≠ q) :
    Meets (kernelStep mem s)
      (fun s' => Bystander p q frames s' ∨
        (∃ q', s'.runningProcess = some q') ∧ s'.stack p = (s.data p).executionContext)
      fun _ => True := by
  have hkept : ∀ {x : Except Panic Kernel},
      Meets x (bystanderRules p q frames).Holds Elsewhere →
      Meets x (fun s' => Bystander p q frames s' ∨
        (∃ q', s'.runningProcess = some q') ∧ s'.stack p = (s.data p).executionContext)
        fun _ => True :=
    fun hx => hx.mono (fun _ h' => .inl h') fun _ _ => trivial
  have hcalls := bystanderRules_calls p q frames
  cases hcontrol : s.control with
  | nil =>
      unfold kernelStep
      rw [hcontrol]
      exact .inl h
  | cons frame rest =>
      have hframes : ∀ control, (bystanderRules p q frames).Holds { s with control := control } :=
        fun _ => ⟨h.running, h.context⟩
      by_cases hprimitive : frame.isPrimitive = true
      · exact hkept (frame_keeps hcalls hcontrol hprimitive (fun _ _ _ => trivial) (hframes rest))
      unfold kernelStep
      rw [hcontrol]
      dsimp only
      cases frame with
      | schedule phase => exact scheduleStep_bystander h hpq phase rest
      | exitLoop => exact .inl h
      | keyboardData str =>
          cases str with
          | nil => exact .inl (hframes rest)
          | cons c str =>
              unfold keyboardData
              rw [meets_bind, meets_require]
              refine ⟨fun _ => ?_, fun _ => trivial⟩
              rw [meets_ite]
              refine ⟨fun _ => .inl (hframes rest), fun _ => ?_⟩
              exact hkept (psend_keeps hcalls (hframes (.keyboardSent str :: rest)) _ c
                fun _ => trivial)
      | keyboardSent str =>
          unfold keyboardSent
          rw [meets_bind, meets_require]
          exact ⟨fun _ => .inl (hframes _), fun _ => trivial⟩
      | consRead str length index =>
          unfold consReadNext
          rw [meets_ite]
          refine ⟨fun _ => ?_, fun _ => .inl ((hframes rest).ret index)⟩
          exact hkept (preceive_keeps hcalls (hframes (.consReceived str length index :: rest)) _
            (fun _ => trivial) fun _ _ => trivial)
      | consReceived str length index =>
          unfold consReceived
          rw [meets_bind, meets_require]
          refine ⟨fun _ => ?_, fun _ => trivial⟩
          dsimp only
          rw [meets_ite]
          refine ⟨fun _ => .inl ((hframes rest).ret index), fun _ => ?_⟩
          rw [meets_ite]
          refine ⟨fun _ => .inl (hframes _), fun _ => ?_⟩
          rw [meets_ite]
          exact ⟨fun _ => .inl ⟨h.running, h.context⟩, fun _ => .inl (hframes _)⟩
      | _ => exact absurd rfl hprimitive

/-- A step of `q` keeps the stack of `p`, or resets the slot while another process runs. -/
theorem exec_bystander (h : s.runningProcess = some q) (hpq : p ≠ q)
    (hrun : exec step s = .ok s') : (∃ q', s'.runningProcess = some q') ∧
      (s'.stack p = s.stack p ∨ s'.stack p = [] ∧ s'.runningProcess ≠ some p) := by
  have hstart : Bystander p q (s.data p).executionContext s := ⟨h, .inl rfl⟩
  have hmeets : Meets (exec step s) (fun s' => Bystander p q (s.data p).executionContext s' ∨
      (∃ q', s'.runningProcess = some q') ∧ s'.stack p = (s.data p).executionContext)
      fun _ => True := by
    by_cases hkernel : step.event = .kernel
    · unfold exec
      rw [hkernel]
      exact kernelStep_bystander hstart hpq
    · refine (event_keeps (bystanderRules_calls p q _) hstart (bystander_event s _) hkernel).mono
        (fun s' h' => .inl h') fun _ _ => trivial
  rw [Kernel.stack_other h hpq]
  rcases hmeets.of_ok hrun with hkept | hswitched
  · refine ⟨⟨q, hkept.running⟩, ?_⟩
    rw [Kernel.stack_other hkept.running hpq]
    refine hkept.context.imp id fun hnil => ⟨hnil, ?_⟩
    rw [hkept.running, ne_eq, Option.some_inj]
    exact Ne.symm hpq
  · exact ⟨hswitched.1, .inl hswitched.2⟩

end SchlagOS
