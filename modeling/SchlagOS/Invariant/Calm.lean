import SchlagOS.Invariant.Access
import SchlagOS.Invariant.Boot

/-!
# Runs without sleep and without typing

In a run without `wait_clock` no process sleeps, and in a run without key presses
no process is inside `keyboard_data`, so that all steps keep the invariant.
-/

namespace SchlagOS

open Foundation

variable {ok : Kernel → Step → Prop} {s s' : Kernel} {step : Step} {r r' p : Int}
  {v v' : View} {log log' : Log} {g : Grant}

/-! ## Addresses along a run -/

theorem booted_within (g : Grant) : Within g booted where
  control f hf := by simp [booted, powerOn] at hf
  context p f hf := by
    by_cases hp : p = 1
    · rw [hp] at hf
      rw [List.mem_singleton.mp hf]
      trivial
    · have hdata : booted.data p = noProcess := Function.update_of_ne hp _ _
      rw [hdata] at hf
      simp [noProcess] at hf
  waiting fid := by
    by_cases hfid : fid = 0
    · rw [hfid]
      exact NodeList.Every.empty
    · have hqueue : booted.queues fid = emptyMessageQueue := Function.update_of_ne hfid _ _
      rw [hqueue]
      exact NodeList.Every.empty
  accesses a ha := by simp [booted, powerOn] at ha

theorem Running.within (h : Running ok s)
    (hok : ∀ s step, ok s step → g.event s step.event) : Within g s := by
  obtain ⟨start, hboot, hreach⟩ := h
  rw [kernelStart_eq, Except.ok.injEq] at hboot
  subst hboot
  exact hreach.meets (booted_within g) fun s step hs _ hstep => exec_keeps hs (hok s step hstep)

/-! ## Calm steps -/

/-- Neither `wait_clock` nor a key press. -/
def Event.calm : Event → Bool
  | .call (.waitClock _) => false
  | .key _ => false
  | _ => true

/-- The process that the event asks to kill. -/
def Event.killed : Event → Option Int
  | .call (.kill p) => some p
  | _ => none

theorem Event.forall_killed (event : Event) {P : Int → Prop} :
    (∀ p ∈ event.killed, P p) ↔ ∀ p, event = .call (.kill p) → P p := by
  cases event with
  | call call => cases call <;> simp [Event.killed]
  | _ => simp [Event.killed]

/-- Every address may be passed, but nothing may be typed. -/
def silent : Grant := ⟨fun _ => True, fun _ => True, False⟩

theorem silent_call (s : Kernel) (call : Call) : silent.call s call := by
  have hd : ∀ destination : Destination, silent.destination destination := by
    intro destination
    cases destination with
    | null => trivial
    | user address => trivial
    | receiver pid => trivial
  have hbytes : ∀ (address : Int) (length : Nat), silent.bytes address length :=
    fun _ _ _ _ => trivial
  cases call with
  | start program stackSize priority name => exact fun _ _ _ => hbytes _ _
  | waitpid pid retvalp => exact fun _ _ _ => hd _
  | pcount fid count => exact fun _ _ => hd _
  | preceive fid message => exact fun _ _ => hd _
  | consRead str length => exact fun _ => hbytes _ _
  | consWrite str size => exact fun _ => hbytes _ _
  | clockSettings quartz ticks => exact fun _ _ => ⟨trivial, trivial⟩
  | exit _ => trivial
  | kill _ => trivial
  | getpid => trivial
  | getprio _ => trivial
  | chprio _ _ => trivial
  | waitClock _ => trivial
  | currentClock => trivial
  | pcreate _ => trivial
  | pdelete _ => trivial
  | preset _ => trivial
  | psend _ _ => trivial
  | consEcho _ => trivial

theorem silent_event (s : Kernel) {event : Event} (hcalm : event.calm = true) :
    silent.event s event := by
  cases event with
  | call call => exact silent_call s call
  | key str => cases hcalm
  | init _ _ => trivial
  | tick => trivial
  | kernel => trivial

/-- A process falls asleep by `wait_clock` only. -/
theorem Effect.sleeping (heffect : Effect step r v log v' log')
    (hcalm : step.event.calm = true) (h : ∀ p, v.state p ≠ .sleeping) (p : Int) :
    v'.state p ≠ .sleeping := by
  have hmove : ∀ (x : Int) (b : ProcessState), b ≠ .sleeping →
      Function.update v.state x b p ≠ .sleeping := by
    intro x b hb
    rw [Function.update_apply]
    split
    · exact hb
    · exact h p
  cases heffect
  case sleeps clock hevent hframes =>
    rw [hevent] at hcalm
    cases hcalm
  case alarm hstate hsleep hframes =>
    dsimp only
    rcases hstate p with heq | ⟨hold, hnew⟩
    · rw [heq]
      exact h p
    · rw [hnew]
      decide
  case reset hlive hevent hpids hstate hreleases hwaiters hmessages hframes =>
    dsimp only
    rw [hstate]
    split
    · decide
    · exact h p
  case start => exact hmove _ _ (by decide)
  case exit => exact hmove _ _ (by decide)
  case kill => exact hmove _ _ (by decide)
  case waits => exact hmove _ _ (by decide)
  case hand => exact hmove _ _ (by decide)
  case swap => exact hmove _ _ (by decide)
  case blockSend => exact hmove _ _ (by decide)
  case blockReceive => exact hmove _ _ (by decide)
  all_goals exact h p

theorem Turn.sleeping (hturn : Turn r s s') (h : ∀ p, s.view.state p ≠ .sleeping) (p : Int) :
    s'.view.state p ≠ .sleeping := by
  have hmove : ∀ (x : Int) (b : ProcessState), b ≠ .sleeping →
      Function.update s.view.state x b p ≠ .sleeping := by
    intro x b hb
    rw [Function.update_apply]
    split
    · exact hb
    · exact h p
  cases hturn with
  | pass _ hview _ =>
      rw [hview]
      exact h p
  | resume _ _ _ _ hview _ _ =>
      rw [hview]
      exact h p
  | zombify x stack _ _ _ _ hzombified _ =>
      rcases hzombified.state with ⟨heq, -⟩ | ⟨heq, -⟩
      · rw [heq]
        exact hmove _ _ (by decide)
      · rw [heq]
        exact h p
  | destroy x _ hdestroyed _ =>
      rw [hdestroyed.view]
      exact hmove _ _ (by decide)
  | switch x state processQueue _ hp hp' hr hother hview _ =>
      rw [hview]
      dsimp only
      by_cases hpx : p = x
      · rw [hpx, hp']
        decide
      · by_cases hpr : p = r
        · rw [hpr, hr]
          split
          · decide
          · exact h r
        · rw [hother p hpx hpr]
          exact h p

/-- The state of a run without sleep and without typing. -/
structure Quiet (s : Kernel) : Prop where
  safe : ∃ r, Safe s r
  awake : ∀ p, s.view.state p ≠ .sleeping
  within : Within silent s

theorem Quiet.careful (h : Quiet s) (step : Step) : Careful s step where
  kill p _ hsleeping := absurd hsleeping (h.awake p)
  key c rest frames hcontrol _ := by
    have hframe := h.within.control (.keyboardData (c :: rest)) (by simp [hcontrol])
    exact False.elim hframe

theorem Quiet.exec (h : Quiet s) (henabled : step.enabled s)
    (hcalm : step.event.calm = true) (hrun : SchlagOS.exec step s = .ok s') : Quiet s' := by
  obtain ⟨r, hsafe⟩ := h.safe
  obtain ⟨r', hmoved⟩ := (exec_meets hsafe henabled (h.careful step)).of_ok hrun
  refine ⟨⟨r', hmoved.safe⟩, ?_, (exec_keeps h.within (silent_event s hcalm)).of_ok hrun⟩
  rcases hmoved.change with ⟨-, -, heffect⟩ | hturn
  · exact heffect.sleeping hcalm h.awake
  · exact hturn.sleeping h.awake

theorem booted_quiet : Quiet booted where
  safe := ⟨1, booted_safe⟩
  awake p hp := by
    by_cases hone : p = 1
    · rw [hone] at hp
      cases hp
    · have hdata : booted.data p = noProcess := Function.update_of_ne hone _ _
      have hstate : (booted.data p).state = .sleeping := hp
      rw [hdata] at hstate
      cases hstate
  within := booted_within silent

/-- The steps of a calm run are all careful. -/
theorem Running.calm (h : Running ok s) (hok : ∀ s step, ok s step → step.event.calm = true) :
    Running (fun s step => ok s step ∧ Careful s step) s ∧ Quiet s := by
  obtain ⟨start, hboot, hreach⟩ := h
  rw [kernelStart_eq, Except.ok.injEq] at hboot
  subst hboot
  have hcareful : ∀ s step, Quiet s → ok s step → ok s step ∧ Careful s step :=
    fun s step hs hstep => ⟨hstep, hs.careful step⟩
  obtain ⟨hreach', hquiet⟩ := hreach.strengthen booted_quiet hcareful
    fun s step s' hs henabled hstep hrun => hs.exec henabled (hok s step hstep) hrun
  exact ⟨⟨booted, kernelStart_eq, hreach'⟩, hquiet⟩

/-- The steps of runs that keep the process table: all of them are calm, or all careful. -/
def Tame (ok : Kernel → Step → Prop) : Prop :=
  (∀ s step, ok s step → step.event.calm = true) ∨ ∀ s step, ok s step → Careful s step

/-- The induction for tame runs, and the step behind them. -/
theorem Running.tame {I : Kernel → Int → Prop} (h : Running ok s) (hok : Tame ok)
    (hstart : I booted 1)
    (hstep : ∀ s step s' r r', Safe s r → I s r → ok s step → Moved step s s' r r' → I s' r') :
    ∃ r, Safe s r ∧ I s r ∧ ∀ step, step.enabled s → ok s step →
      Meets (exec step s) (fun s' => ∃ r', Moved step s s' r r') (Fails step s r) := by
  have hcareful : Running (fun s step => ok s step ∧ Careful s step) s ∧
      ∀ step, ok s step → Careful s step := by
    rcases hok with hcalm | hcareful
    · exact ⟨(h.calm hcalm).1, fun step _ => (h.calm hcalm).2.careful step⟩
    · exact ⟨h.mono fun s step hs => ⟨hs, hcareful s step hs⟩, fun step hs => hcareful s step hs⟩
  obtain ⟨r, hsafe, hI⟩ := hcareful.1.induct (fun s step hs => hs.2) hstart
    fun s step s' r r' hsafe hI hs hmoved => hstep s step s' r r' hsafe hI hs.1 hmoved
  exact ⟨r, hsafe, hI, fun step henabled hs => exec_meets hsafe henabled (hcareful.2 step hs)⟩

/-- The induction for tame runs when what the step computes matters. -/
theorem Running.tame_exec {I : Kernel → Prop} (h : Running ok s) (hok : Tame ok)
    (hstart : I booted)
    (hstep : ∀ s step s' r r', Safe s r → I s → step.enabled s → ok s step →
      exec step s = .ok s' → Moved step s s' r r' → I s') : I s := by
  obtain ⟨start, hboot, hreach⟩ := h
  refine hreach.invariant (I := I) ?_ fun s step s' hreach hI henabled hs hrun => ?_
  · rw [kernelStart_eq, Except.ok.injEq] at hboot
    subst hboot
    exact hstart
  · have hrunning : Running ok s := ⟨start, hboot, hreach⟩
    obtain ⟨r, hsafe, -, hnext⟩ := hrunning.tame (I := fun _ _ => True) hok trivial
      fun _ _ _ _ _ _ _ _ _ => trivial
    obtain ⟨r', hmoved⟩ := (hnext step henabled hs).of_ok hrun
    exact hstep s step s' r r' hsafe hI henabled hs hrun hmoved

/-! ## Process 1 -/

/-- Process 1 dies by a `kill` only. -/
theorem Effect.init_alive (heffect : Effect step r v log v' log')
    (hkill : step.event ≠ .call (.kill 1)) (h : v.state 1 ≠ .zombie) :
    v'.state 1 ≠ .zombie := by
  have hmove : ∀ (x : Int) (b : ProcessState), b ≠ .zombie →
      Function.update v.state x b 1 ≠ .zombie := by
    intro x b hb
    rw [Function.update_apply]
    split
    · exact hb
    · exact h
  cases heffect
  case exit hone hqueues hframes =>
    dsimp only
    rw [Function.update_of_ne (Ne.symm hone)]
    exact h
  case kill p _ _ _ _ hevent hused halive hqueues hframes =>
    have hp : 1 ≠ p := by
      rintro rfl
      exact hkill hevent
    dsimp only
    rw [Function.update_of_ne hp]
    exact h
  case alarm hstate hsleep hframes =>
    dsimp only
    rcases hstate 1 with heq | ⟨-, hnew⟩
    · rw [heq]
      exact h
    · rw [hnew]
      decide
  case reset hlive hevent hpids hstate hreleases hwaiters hmessages hframes =>
    dsimp only
    rw [hstate]
    split
    · decide
    · exact h
  case start => exact hmove _ _ (by decide)
  case waits => exact hmove _ _ (by decide)
  case sleeps => exact hmove _ _ (by decide)
  case hand => exact hmove _ _ (by decide)
  case swap => exact hmove _ _ (by decide)
  case blockSend => exact hmove _ _ (by decide)
  case blockReceive => exact hmove _ _ (by decide)
  all_goals exact h

theorem Turn.init_alive (hturn : Turn r s s') (h : s.view.state 1 ≠ .zombie) :
    s'.view.state 1 ≠ .zombie := by
  have hmove : ∀ (x : Int) (b : ProcessState), b ≠ .zombie →
      Function.update s.view.state x b 1 ≠ .zombie := by
    intro x b hb
    rw [Function.update_apply]
    split
    · exact hb
    · exact h
  cases hturn with
  | pass _ hview _ =>
      rw [hview]
      exact h
  | resume _ _ _ _ hview _ _ =>
      rw [hview]
      exact h
  | zombify x stack _ _ _ _ hzombified _ =>
      rcases hzombified.state with ⟨heq, -⟩ | ⟨heq, -⟩
      · rw [heq]
        exact hmove _ _ (by decide)
      · rw [heq]
        exact h
  | destroy x _ hdestroyed _ =>
      rw [hdestroyed.view]
      exact hmove _ _ (by decide)
  | switch x state processQueue _ hp hp' hr hother hview _ =>
      rw [hview]
      dsimp only
      by_cases hx : 1 = x
      · rw [hx, hp']
        decide
      · by_cases hr1 : 1 = r
        · rw [hr1, hr, ← hr1]
          split
          · decide
          · exact h
        · rw [hother 1 hx hr1]
          exact h

theorem Moved.init_alive (hmoved : Moved step s s' r r') (hkill : step.event ≠ .call (.kill 1))
    (h : s.view.state 1 ≠ .zombie) : s'.view.state 1 ≠ .zombie := by
  rcases hmoved.change with ⟨-, -, heffect⟩ | hturn
  · exact heffect.init_alive hkill h
  · exact hturn.init_alive h

theorem booted_init_alive : booted.view.state 1 ≠ .zombie := by decide

/-- A `kill` that is not refused calls `schedule`. -/
theorem kill_schedules : Yields (kill s p)
    fun s' => s' = s.ret (-1) ∨ phaseOf s'.control = some .zombify := by
  unfold kill
  refine .ite (fun _ => .inl rfl) fun _ => .skip _ fun process => ?_
  refine .ite (fun _ => .inl rfl) fun _ => .ite (fun _ => .skip _ fun _ => ?_) fun _ => ?_
  · exact .skip _ fun s₁ => .skip _ fun s₂ => .inr rfl
  · exact .skip _ fun s₁ => .skip _ fun s₂ => .inr rfl

/-- The first loop of `clean_processes` goes on, or the second one begins. -/
theorem zombifyStep_phase {mem : Memory} {rest : List Frame} :
    Yields (scheduleStep mem s .zombify rest) fun s' => phaseOf s'.control ≠ none := by
  refine zombifyTurn_meets (fun pid stack _ => ?_) fun _ => Option.some_ne_none _
  cases zombify mem { s with pidsToZombify := stack } pid with
  | error e => trivial
  | ok s₁ => exact Option.some_ne_none _

theorem exec_of_zombify (henabled : step.enabled s) (hphase : phaseOf s.control = some .zombify)
    (hrun : exec step s = .ok s') : phaseOf s'.control ≠ none := by
  cases hcontrol : s.control with
  | nil =>
      rw [hcontrol] at hphase
      cases hphase
  | cons frame rest =>
      rw [hcontrol] at hphase
      have hframe : frame = .schedule .zombify := by
        cases frame <;> simp_all [phaseOf]
      have hstep : kernelStep step.mem s = scheduleStep step.mem s .zombify rest := by
        unfold kernelStep
        rw [hcontrol, hframe]
      rw [exec_kernel henabled (by simp [hcontrol]), hstep] at hrun
      exact zombifyStep_phase.of_ok hrun

/-- Process 1 is dead at most while `schedule` is about to call `zombify`, which refuses it. -/
theorem Running.init_alive (h : Running ok s) (hok : Tame ok)
    (hphase : phaseOf s.control ≠ some .zombify) : s.view.state 1 ≠ .zombie := by
  obtain ⟨start, hboot, hreach⟩ := h
  have hinv : s.view.state 1 = .zombie → phaseOf s.control = some .zombify := by
    refine hreach.invariant (I := fun s => s.view.state 1 = .zombie →
      phaseOf s.control = some .zombify) (fun hzombie => ?_) fun s step s' hreach hI henabled hs
        hrun hzombie => ?_
    · rw [kernelStart_eq, Except.ok.injEq] at hboot
      subst hboot
      exact absurd hzombie booted_init_alive
    · have hrunning : Running ok s := ⟨start, hboot, hreach⟩
      obtain ⟨r, hsafe, -, hnext⟩ := hrunning.tame (I := fun _ _ => True) hok trivial
        fun _ _ _ _ _ _ _ _ _ => trivial
      obtain ⟨r', hmoved⟩ := (hnext step henabled hs).of_ok hrun
      have hinv' := hmoved.safe.inv
      by_contra hphase'
      by_cases hnone : phaseOf s'.control = none
      · have hphase : phaseOf s.control ≠ some .zombify :=
          fun hphase => exec_of_zombify henabled hphase hrun hnone
        have halive : s.view.state 1 ≠ .zombie := fun hold => hphase (hI hold)
        rcases hmoved.change with ⟨-, -, heffect⟩ | hturn
        · by_cases hkill : step.event = .call (.kill 1)
          · have hrun' : kill s 1 = .ok s' := by
              obtain ⟨mem, event⟩ := step
              dsimp only at hkill
              subst hkill
              exact hrun
            rcases kill_schedules.of_ok hrun' with rfl | hzombify
            · exact halive hzombie
            · exact hphase' hzombify
          · exact heffect.init_alive hkill halive hzombie
        · exact hturn.init_alive halive hzombie
      · have hmem : (1 : Int) ∈ s'.view.toZombify :=
          (hinv'.core.pending.mem_zombify 1).mpr ⟨hzombie, hinv'.alive⟩
        have hone : 1 = r' := hinv'.zombified hnone hphase' 1 hmem
        have hstate := hinv'.running (.inr hone.symm)
        rw [← hone, hzombie] at hstate
        cases hstate
  exact fun hzombie => hphase (hinv hzombie)

/-- A step of a run in which no process sleeps, nothing is typed, `start` finds memory and
process 1 is not killed. -/
def Step.orderly (step : Step) : Bool :=
  step.event.calm && (step.mem.kernelStack && (step.mem.userStack &&
    decide (step.event ≠ .call (.kill 1))))

theorem Step.orderly_iff : step.orderly = true ↔ step.event.calm = true ∧
    step.mem.kernelStack = true ∧ step.mem.userStack = true ∧
    step.event ≠ .call (.kill 1) := by
  simp [Step.orderly]

/-- The induction for runs of orderly steps. -/
theorem Running.orderly {I : Kernel → Int → Prop} (h : Running ok s)
    (hok : ∀ s step, ok s step → step.orderly = true) (hstart : I booted 1)
    (hstep : ∀ s step s' r r', Safe s r → s.view.state 1 ≠ .zombie → I s r → ok s step →
      Moved step s s' r r' → I s' r') :
    ∃ r, Safe s r ∧ s.view.state 1 ≠ .zombie ∧ I s r := by
  have hcalm : ∀ s step, ok s step → step.event.calm = true :=
    fun s step hs => (Step.orderly_iff.mp (hok s step hs)).1
  refine (h.calm hcalm).1.induct (I := fun s r => s.view.state 1 ≠ .zombie ∧ I s r)
    (fun s step hs => hs.2) ⟨booted_init_alive, hstart⟩ ?_
  rintro s step s' r r' hsafe ⟨halive, hI⟩ ⟨hs, -⟩ hmoved
  have hkill := (Step.orderly_iff.mp (hok s step hs)).2.2.2
  exact ⟨hmoved.init_alive hkill halive, hstep s step s' r r' hsafe halive hI hs hmoved⟩

/-- A step from a state of an orderly run. -/
theorem Running.orderly_meets (h : Running ok s)
    (hok : ∀ s step, ok s step → step.orderly = true) (henabled : step.enabled s) :
    ∃ r, Safe s r ∧ s.view.state 1 ≠ .zombie ∧
      Meets (exec step s) (fun s' => ∃ r', Moved step s s' r r') (Fails step s r) := by
  obtain ⟨r, hsafe, halive, -⟩ := h.orderly (I := fun _ _ => True) hok trivial
    fun _ _ _ _ _ _ _ _ _ _ => trivial
  have hquiet := (h.calm fun s step hs => (Step.orderly_iff.mp (hok s step hs)).1).2
  exact ⟨r, hsafe, halive, exec_meets hsafe henabled (hquiet.careful step)⟩

end SchlagOS
