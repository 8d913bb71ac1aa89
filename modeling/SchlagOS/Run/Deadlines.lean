import SchlagOS.Invariant.Timing
import SchlagOS.Run.Alarm
import SchlagOS.Run.RoundRobin

/-!
# Deadlines and the counter of the clock

A process sleeps until the counter of the clock has reached its deadline.  Both
are 32-bit words that are compared as they stand, so a deadline behind the end of
the range of the counter seems to have been reached at once, and one at the end
of the range may be passed over.
-/

namespace SchlagOS

open Foundation

variable {ok : Kernel → Step → Prop} {s s₁ t : Kernel} {step : Step} {mem : Memory}
  {p r : Int} {clock delay ticks : Nat} {frames : List Frame}

/-! ## The clock in a run -/

theorem exec_tick {s' : Kernel} (htick : step.event = .tick) (hrun : exec step s = .ok s') :
    s' = ticPit s := by
  unfold exec at hrun
  rw [htick] at hrun
  exact (Except.ok.inj hrun).symm

/-- The counter is a 32-bit word. -/
theorem Running.inter_lt (h : Running ok s) (hok : ∀ s step, ok s step → Careful s step) :
    s.inter < 2 ^ 32 := by
  refine h.tame_exec (I := fun s => s.inter < 2 ^ 32) (.inr hok) (by decide) ?_
  intro s step s' r r' hsafe hlt henabled _ hrun _
  by_cases htick : step.event = .tick
  · have htiming := congrArg Prod.fst (ticPit_timing s 0)
    rw [← exec_tick htick hrun] at htiming
    change s'.inter = (s.inter + 1) % 2 ^ 32 at htiming
    omega
  · -- No process has the pid 0.
    have hcore := hsafe.inv.core
    have hnone : s.view.state 0 = .unset := by
      by_contra hused
      exact absurd (hcore.isPid hused).1 (by decide)
    have hzero : (0 : Int) ≠ r := fun heq => hcore.self (heq ▸ hnone)
    have hkept := exec_timed hsafe henabled htick (fun _ => hzero) (by rw [hnone]; decide) rfl
    have hinter : s'.inter = s.inter := congrArg Prod.fst (hkept.of_ok hrun)
    rw [hinter]
    exact hlt

/-! ## wait_clock -/

/-- What `wait_clock` does to the process that calls it. -/
theorem waitClock_sleeps (hp : s.getpid = p) (hclock : 0 < clock) :
    Yields (waitClock s clock) fun s₁ => (s₁.data p).state = .sleeping ∧
      s₁.timing p = (s.inter, s.schedulerDelay, clock) := by
  unfold waitClock
  rw [if_pos hclock]
  dsimp only
  refine .skip _ fun stack => ?_
  rw [hp]
  have hdata : (s.update p fun q => { q with state := .sleeping, sleepTime := clock }).data p =
      { s.data p with state := .sleeping, sleepTime := clock } := Function.update_self _ _ _
  refine ⟨congrArg Process.state hdata, ?_⟩
  have hsleep := congrArg Process.sleepTime hdata
  exact congrArg (fun time => (s.inter, s.schedulerDelay, time)) hsleep

/-- The deadline 0 stands for no deadline. -/
theorem waitClock_zero (hsafe : Safe s r) (hp : s.getpid = p) (hnil : s.control = []) :
    Yields (waitClock s 0) fun s₁ => (s₁.data p).state ≠ .sleeping := by
  have hrunning : (s.data p).state = .running := by
    rw [← hp, hsafe.inv.core.getpid_eq]
    exact hsafe.inv.running (.inl (by rw [hnil]; rfl))
  unfold waitClock
  rw [if_neg (Nat.lt_irrefl 0)]
  change (s.data p).state ≠ .sleeping
  rw [hrunning]
  decide

/-! ## Ticks -/

/-- An observer that counts the clock interrupts. -/
def countTicks (step : Step) (_ _ : Kernel) (ticks : Nat) : Nat :=
  if step.event = .tick then ticks + 1 else ticks

/-- `p` sleeps, and `clock_tick` is not about to run with `delay` ticks or more elapsed. -/
def Asleep (p : Int) (delay : Nat) (x : Kernel × Nat) : Prop :=
  (x.1.data p).state = .sleeping ∧ (x.1.control.head? = some .clockTick → x.2 < delay)

/-- The states with their ticks in which `p` has slept so far, up to the first `clock_tick`
behind `delay` ticks. -/
def SleepsTo (ok : Kernel → Step → Prop) (p : Int) (delay : Nat) (s₁ t : Kernel)
    (ticks : Nat) : Prop :=
  Reach (machine.observing countTicks) (s₁, 0) (fun x step => ok x.1 step ∧ Asleep p delay x)
    (t, ticks)

/-- `clock_tick` leaves `p` asleep before `delay` ticks have elapsed, and wakes it behind. -/
def OnTime (p : Int) (delay ticks : Nat) (t : Kernel) : Prop :=
  (ticks < delay → (t.data p).state = .sleeping) ∧
    (delay ≤ ticks → (t.data p).state = .waiting)

/-- How many ticks can have elapsed before the `clock_tick` that should wake `p`: the frame of
the last of them may still stand behind a call of `schedule`, or on another stack. -/
def Elapsed (delay ticks : Nat) (s : Kernel) : Prop :=
  ticks < delay ∨
    ticks = delay ∧ (s.control.head? = some .clockTick ∨ s.schedulerDelay = 0) ∨
      ticks = delay + 1 ∧ s.control.head? = some .clockTick

theorem Elapsed.tick (h : Elapsed delay ticks s) (hnil : s.control = []) :
    Elapsed delay (ticks + 1) (ticPit s) := by
  have hhead : s.control.head? ≠ some .clockTick := by simp [hnil]
  have hnext : (ticPit s).schedulerDelay = 0 ∧ s.schedulerDelay ≠ 0 ∨
      (ticPit s).control.head? = some .clockTick := by
    unfold ticPit
    dsimp only
    by_cases hperiod : schedulerPeriod ≤ s.schedulerDelay + 1
    · rw [if_pos hperiod]
      refine .inl ⟨rfl, ?_⟩
      unfold schedulerPeriod at hperiod
      omega
    · rw [if_neg hperiod]
      exact .inr rfl
  unfold Elapsed
  rcases h with hlt | ⟨heq, hhead' | hzero⟩ | ⟨-, hhead'⟩
  · by_cases hlast : ticks + 1 = delay
    · exact .inr (.inl ⟨hlast, hnext.symm.imp id And.left⟩)
    · exact .inl (by omega)
  · exact absurd hhead' hhead
  · rcases hnext with ⟨-, hne⟩ | hclock
    · exact absurd hzero hne
    · exact .inr (.inr ⟨by omega, hclock⟩)
  · exact absurd hhead' hhead

/-- Other steps than the clock's. -/
theorem Elapsed.other {s' : Kernel} (h : Elapsed delay ticks s)
    (hasleep : Asleep p delay (s, ticks)) (hsame : s'.schedulerDelay = s.schedulerDelay) :
    Elapsed delay ticks s' := by
  have hhead := hasleep.2
  dsimp only at hhead
  rcases h with hlt | ⟨heq, hclock | hzero⟩ | ⟨heq, hclock⟩
  · exact .inl hlt
  · exact absurd (hhead hclock) (by omega)
  · exact .inr (.inl ⟨heq, .inr (hsame.trans hzero)⟩)
  · exact absurd (hhead hclock) (by omega)

theorem Elapsed.le (h : Elapsed delay ticks s) : ticks ≤ delay + 1 := by
  rcases h with h | ⟨h, -⟩ | ⟨h, -⟩
  all_goals omega

/-- The counter has gone on from `start`, and the deadline is still the one that was set. -/
structure Slept (p : Int) (start deadline delay : Nat) (x : Kernel × Nat) : Prop where
  inter : x.1.inter = (start + x.2) % 2 ^ 32
  deadline : (x.1.data p).sleepTime = deadline
  elapsed : Elapsed delay x.2 x.1

theorem Slept.next {start deadline : Nat} {t' : Kernel}
    (h : Slept p start deadline delay (t, ticks)) (hsafe : Safe t r)
    (hasleep : Asleep p delay (t, ticks)) (henabled : step.enabled t)
    (hrun : exec step t = .ok t') :
    Slept p start deadline delay (t', countTicks step t t' ticks) := by
  have hinter := h.inter
  dsimp only at hinter
  unfold countTicks
  by_cases htick : step.event = .tick
  · rw [if_pos htick]
    have hnil : t.control = [] := by
      unfold Step.enabled at henabled
      rw [htick] at henabled
      exact henabled
    have htiming := ticPit_timing t p
    obtain rfl := exec_tick htick hrun
    simp only [Kernel.timing, Prod.mk.injEq] at htiming
    refine ⟨?_, htiming.2.2.trans h.deadline, h.elapsed.tick hnil⟩
    dsimp only
    rw [htiming.1]
    omega
  · rw [if_neg htick]
    have hstate : t.view.state p = .sleeping := hasleep.1
    have hother : t.control = [] → p ≠ r := by
      rintro hnil rfl
      have hrunning := hsafe.inv.running (.inl (by rw [hnil]; rfl))
      rw [hstate] at hrunning
      cases hrunning
    have hkept := exec_timed hsafe henabled htick hother (by rw [hstate]; decide) rfl
    have htiming := hkept.of_ok hrun
    simp only [Timed, Kernel.timing, Prod.mk.injEq] at htiming
    exact ⟨htiming.1.trans hinter, htiming.2.2.trans h.deadline,
      h.elapsed.other hasleep htiming.2.1⟩

/-! ## clock_tick -/

/-- `clock_tick` wakes a sleeping process if the counter is not below its deadline. -/
theorem clockTick_wakes (mem : Memory) (hsafe : Safe t r) (hstate : (t.data p).state = .sleeping)
    (hcontrol : t.control = .clockTick :: frames) :
    ∃ t', kernelStep mem t = .ok t' ∧ (t'.data p).state =
      if (t.data p).sleepTime ≤ t.inter then .waiting else .sleeping := by
  have hslumber : Slumber { t with control := frames } :=
    ⟨hsafe.slumber.distinct, hsafe.slumber.asleep, hsafe.slumber.ready⟩
  obtain ⟨t', hrings, -, htick⟩ := hslumber.clockTick
  have hmem : p ∈ t.pidsWaiting.entries := (hsafe.inv.core.sleepers.2 p).mpr hstate
  have hwoken : (t'.data p).state =
      if (t.data p).sleepTime ≤ t.inter then .waiting else .sleeping := by
    rw [hrings.data]
    by_cases hdue : (t.data p).sleepTime ≤ t.inter
    · rw [if_pos ⟨hmem, decide_eq_true hdue⟩, if_pos hdue]
    · rw [if_neg fun h => hdue (of_decide_eq_true h.2), if_neg hdue]
      exact hstate
  have hstep : kernelStep mem t = clockTick { t with control := frames } := by
    unfold kernelStep
    rw [hcontrol]
  rw [hstep, htick]
  refine ⟨_, rfl, ?_⟩
  split
  · exact hwoken
  · exact hwoken

theorem sleepsTo_slept {start deadline : Nat} (h : Running ok s₁)
    (hok : ∀ s step, ok s step → Careful s step) (hslept : Slept p start deadline delay (s₁, 0))
    (hsleeps : SleepsTo ok p delay s₁ t ticks) :
    Running ok t ∧ Slept p start deadline delay (t, ticks) := by
  refine Reach.invariant hsleeps
    (I := fun x => Running ok x.1 ∧ Slept p start deadline delay x) ⟨h, hslept⟩ ?_
  rintro ⟨x, n⟩ step y - ⟨hx, hslept⟩ henabled ⟨hstep, hasleep⟩ hrun
  obtain ⟨x', hrun', rfl⟩ := Machine.observing_step hrun
  obtain ⟨r, hsafe⟩ := hx.safe hok
  exact ⟨hx.next henabled hstep hrun', hslept.next hsafe hasleep henabled hrun'⟩

/-- A process that does not sleep does not begin to. -/
theorem sleepsTo_awake (hawake : (s₁.data p).state ≠ .sleeping)
    (hsleeps : SleepsTo ok p delay s₁ t ticks) : (t.data p).state ≠ .sleeping := by
  refine Reach.invariant hsleeps (I := fun x => (x.1.data p).state ≠ .sleeping) hawake ?_
  intro x step y _ hx _ hstep _
  exact absurd hstep.2.1 hx

/-- The words compare like the ticks if both the counter and the deadline have wrapped around,
or neither of them has. -/
theorem deadline_reached_iff {start : Nat} (hstart : start < 2 ^ 32)
    (hdelay : 1 ≤ delay ∧ delay < 2 ^ 31) (hticks : ticks ≤ delay + 1) :
    ((start + delay) % 2 ^ 32 ≤ (start + ticks) % 2 ^ 32 ↔ delay ≤ ticks) ↔
      (2 ^ 32 ≤ start + ticks ↔ 2 ^ 32 ≤ start + delay) := by
  omega

theorem onTime_iff {due : Prop} [Decidable due]
    (h : (t.data p).state = if due then .waiting else .sleeping) :
    OnTime p delay ticks t ↔ (due ↔ delay ≤ ticks) := by
  unfold OnTime
  rw [h]
  by_cases hdue : due
  · simp [hdue]
  · simp [hdue]

/-- A process that calls `wait_clock` for `delay` ticks from now on goes to sleep if and only
if its deadline is not the end of the range of the counter.  Each `clock_tick` up to the first
one behind `delay` ticks treats it as it should if and only if the counter has wrapped around
exactly when the deadline lies behind the end of the range. -/
theorem wait_clock_on_time_iff (h : Running ok s) (hok : ∀ s step, ok s step → Careful s step)
    (hp : s.getpid = p) (hdelay : 1 ≤ delay ∧ delay < 2 ^ 31)
    (henabled : (Step.mk mem (.call (.waitClock ((s.inter + delay) % 2 ^ 32)))).enabled s)
    (hstep : ok s ⟨mem, .call (.waitClock ((s.inter + delay) % 2 ^ 32))⟩)
    (hcall : exec ⟨mem, .call (.waitClock ((s.inter + delay) % 2 ^ 32))⟩ s = .ok s₁) :
    ((s₁.data p).state = .sleeping ↔ s.inter + delay ≠ 2 ^ 32) ∧
      ∀ t ticks frames mem', SleepsTo ok p delay s₁ t ticks → (t.data p).state = .sleeping →
        t.control = .clockTick :: frames → ∃ t', kernelStep mem' t = .ok t' ∧
          (OnTime p delay ticks t' ↔
            (2 ^ 32 ≤ s.inter + ticks ↔ 2 ^ 32 ≤ s.inter + delay)) := by
  have hinter := h.inter_lt hok
  have hrun : waitClock s ((s.inter + delay) % 2 ^ 32) = .ok s₁ := hcall
  by_cases hend : s.inter + delay = 2 ^ 32
  · have hzero : (s.inter + delay) % 2 ^ 32 = 0 := by omega
    rw [hzero] at hrun
    obtain ⟨r, hsafe⟩ := h.safe hok
    have hawake := (waitClock_zero hsafe hp henabled.1).of_ok hrun
    refine ⟨iff_of_false hawake (not_not_intro hend), fun t ticks frames mem' hsleeps hstate _ => ?_⟩
    exact absurd hstate (sleepsTo_awake hawake hsleeps)
  · obtain ⟨hsleeping, htiming⟩ := (waitClock_sleeps hp (by omega)).of_ok hrun
    simp only [Kernel.timing, Prod.mk.injEq] at htiming
    have hslept : Slept p s.inter ((s.inter + delay) % 2 ^ 32) delay (s₁, 0) := by
      refine ⟨?_, htiming.2.2, .inl hdelay.1⟩
      dsimp only
      rw [htiming.1]
      omega
    refine ⟨iff_of_true hsleeping hend, fun t ticks frames mem' hsleeps hstate hcontrol => ?_⟩
    obtain ⟨ht, hslept⟩ := sleepsTo_slept (h.next henabled hstep hcall) hok hslept hsleeps
    obtain ⟨r, hsafe⟩ := ht.safe hok
    obtain ⟨t', htick, hwoken⟩ := clockTick_wakes mem' hsafe hstate hcontrol
    refine ⟨t', htick, ?_⟩
    rw [onTime_iff hwoken, hslept.deadline, hslept.inter]
    exact deadline_reached_iff hinter hdelay hslept.elapsed.le

/-! ## Two calls of wait_clock -/

/-- Nobody is killed, and `keyboard_data` does not run. -/
def Step.harmless (s : Kernel) (step : Step) : Prop :=
  step.event.victim = none ∧ ∀ str ∈ s.control.head?, ∀ input, str ≠ .keyboardData input

private def typing : Frame → Bool
  | .keyboardData _ => true
  | _ => false

instance (s : Kernel) (step : Step) : Decidable (step.harmless s) :=
  decidable_of_iff (step.event.victim = none ∧ s.control.head?.any typing = false) (by
    unfold Step.harmless
    refine and_congr Iff.rfl ?_
    cases s.control.head? with
    | none => simp
    | some frame => cases frame <;> simp [typing])

theorem Step.harmless.careful (h : step.harmless s) : Careful s step where
  kill p hevent _ := by
    have hnone := h.1
    rw [hevent] at hnone
    cases hnone
  key c rest frames hcontrol _ := by
    have hhead := h.2 (.keyboardData (c :: rest)) (by simp [hcontrol]) (c :: rest)
    exact absurd rfl hhead

instance (p : Int) (delay : Nat) (x : Kernel × Nat) : Decidable (Asleep p delay x) :=
  inferInstanceAs (Decidable ((x.1.data p).state = .sleeping ∧
    (x.1.control.head? = some .clockTick → x.2 < delay)))

/-- Process 2 is in user mode, more urgent than process 1, and nobody else is there. -/
structure Spinning (s : Kernel) : Prop where
  control : s.control = []
  running : s.runningProcess = some 2
  pids : (s.data 2).pid = 2 ∧ (s.data 1).pid = 1
  state : (s.data 2).state = .running
  priority : (s.data 1).priority < (s.data 2).priority
  top : s.processQueue.top = some 1
  size : s.currentSize < processTableMaxSize
  pending : s.pidsToZombify.count = 0 ∧ s.pidsToDestroy.count = 0
  waiting : s.pidsWaiting.count = 0
  clock : s.inter = 0 ∧ s.schedulerDelay = 0

instance (s : Kernel) : Decidable (Spinning s) :=
  decidable_of_iff (s.control = [] ∧ s.runningProcess = some 2 ∧
      ((s.data 2).pid = 2 ∧ (s.data 1).pid = 1) ∧ (s.data 2).state = .running ∧
      (s.data 1).priority < (s.data 2).priority ∧ s.processQueue.top = some 1 ∧
      s.currentSize < processTableMaxSize ∧
      (s.pidsToZombify.count = 0 ∧ s.pidsToDestroy.count = 0) ∧ s.pidsWaiting.count = 0 ∧
      s.inter = 0 ∧ s.schedulerDelay = 0)
    ⟨fun ⟨hcontrol, hrunning, hpids, hstate, hpriority, htop, hsize, hpending, hwaiting, hclock⟩ =>
      ⟨hcontrol, hrunning, hpids, hstate, hpriority, htop, hsize, hpending, hwaiting, hclock⟩,
    fun h => ⟨h.control, h.running, h.pids, h.state, h.priority, h.top, h.size, h.pending,
      h.waiting, h.clock⟩⟩

/-- Process 2 has computed for so long, and goes on with `frames`. -/
def spun (s : Kernel) (inter schedulerDelay : Nat) (frames : List Frame) : Kernel :=
  { s with inter := inter, schedulerDelay := schedulerDelay, control := frames }

namespace Spinning

variable {inter schedulerDelay : Nat}

theorem spun_self (h : Spinning s) : spun s 0 0 [] = s := by
  have hself : spun s s.inter s.schedulerDelay s.control = s := rfl
  rwa [h.clock.1, h.clock.2, h.control] at hself

theorem decide_step (h : Spinning s) :
    kernelStep .available (spun s inter schedulerDelay (.schedule .decide :: frames)) =
      .ok (spun s inter schedulerDelay frames) := by
  have hfull : ¬((s.data 2).pid ≠ 1 ∧ processTableMaxSize ≤ s.currentSize) :=
    fun hfull => absurd h.size (Nat.not_lt.mpr hfull.2)
  have hstays : (s.data 2).pid = (s.data 1).pid ∨
      (s.data 2).state = .running ∧ (s.data 1).priority < (s.data 2).priority :=
    .inr ⟨h.state, h.priority⟩
  change scheduleDecide (spun s inter schedulerDelay frames) = _
  unfold scheduleDecide spun
  dsimp only
  rw [h.running]
  dsimp only
  rw [if_neg hfull, queueTop, h.top]
  dsimp only
  rw [if_pos hstays]

theorem zombify_step (h : Spinning s) :
    kernelStep .available (spun s inter schedulerDelay (.schedule .zombify :: frames)) =
      .ok (spun s inter schedulerDelay (.schedule .destroy :: frames)) :=
  (scheduleStep_passes (s := spun s inter schedulerDelay (.schedule .zombify :: frames))
    h.pending.1 h.pending.2).1

theorem destroy_step (h : Spinning s) :
    kernelStep .available (spun s inter schedulerDelay (.schedule .destroy :: frames)) =
      .ok (spun s inter schedulerDelay (.schedule .decide :: frames)) :=
  (scheduleStep_passes (s := spun s inter schedulerDelay (.schedule .destroy :: frames))
    h.pending.1 h.pending.2).2

theorem clockTick_step (h : Spinning s) :
    kernelStep .available (spun s inter schedulerDelay (.clockTick :: frames)) =
      .ok (spun s inter schedulerDelay frames) := by
  change clockTick (spun s inter schedulerDelay frames) = _
  have hcount : (spun s inter schedulerDelay frames).pidsWaiting.count = 0 := h.waiting
  unfold clockTick
  rw [hcount]
  rfl

end Spinning

private theorem Running.resumed {inter schedulerDelay : Nat} {frame : Frame}
    (h : Running (fun s step => step.harmless s)
      (spun s inter schedulerDelay (frame :: frames)))
    (hframe : ∀ input, frame ≠ .keyboardData input)
    (hrun : kernelStep .available (spun s inter schedulerDelay (frame :: frames)) = .ok t) :
    Running (fun s step => step.harmless s) t := by
  have henabled : Event.kernel.step.enabled (spun s inter schedulerDelay (frame :: frames)) :=
    List.cons_ne_nil _ _
  refine h.next henabled ⟨rfl, fun str hstr => ?_⟩ hrun
  obtain rfl := Option.some.inj hstr
  exact hframe

private theorem Running.ticked {inter schedulerDelay : Nat}
    (h : Running (fun s step => step.harmless s) (spun s inter schedulerDelay [])) :
    Running (fun s step => step.harmless s) (ticPit (spun s inter schedulerDelay [])) := by
  have henabled : Event.tick.step.enabled (spun s inter schedulerDelay []) := rfl
  exact h.next henabled ⟨rfl, fun str hstr => by cases hstr⟩ rfl

private theorem spun_even {inter : Nat} (h : Spinning s)
    (hrun : Running (fun s step => step.harmless s) (spun s inter 0 [])) :
    Running (fun s step => step.harmless s) (spun s ((inter + 1) % 2 ^ 32) 1 []) := by
  have hticked : Running (fun s step => step.harmless s)
      (spun s ((inter + 1) % 2 ^ 32) 1 [.clockTick]) := hrun.ticked
  exact hticked.resumed nofun h.clockTick_step

private theorem spun_odd {inter : Nat} (h : Spinning s)
    (hrun : Running (fun s step => step.harmless s) (spun s inter 1 [])) :
    Running (fun s step => step.harmless s) (spun s ((inter + 1) % 2 ^ 32) 0 []) := by
  have hticked : Running (fun s step => step.harmless s)
      (spun s ((inter + 1) % 2 ^ 32) 0 [.schedule .zombify, .clockTick]) := hrun.ticked
  have hzombified := hticked.resumed nofun h.zombify_step
  have hdestroyed := hzombified.resumed nofun h.destroy_step
  have hdecided := hdestroyed.resumed nofun h.decide_step
  exact hdecided.resumed nofun h.clockTick_step

/-- Process 2 can compute for any number of ticks. -/
private theorem spun_running (h : Spinning s) (hrun : Running (fun s step => step.harmless s) s)
    (n : Nat) : Running (fun s step => step.harmless s) (spun s (n % 2 ^ 32) (n % 2) []) := by
  induction n with
  | zero => exact h.spun_self.symm ▸ hrun
  | succ n ih =>
      have hinter : (n + 1) % 2 ^ 32 = (n % 2 ^ 32 + 1) % 2 ^ 32 := by omega
      rw [hinter]
      rcases Nat.mod_two_eq_zero_or_one n with hn | hn
      · have hnext : (n + 1) % 2 = 1 := by omega
        rw [hn] at ih
        rw [hnext]
        exact spun_even h ih
      · have hnext : (n + 1) % 2 = 0 := by omega
        rw [hn] at ih
        rw [hnext]
        exact spun_odd h ih

/-- Process 3 calls `wait_clock` for `delay` ticks, and behind the steps of the list one tick has
elapsed and `clock_tick` is about to run, which leaves the process in the state `state`. -/
private def ticksOnce (delay : Nat) (steps : List Step) (state : ProcessState) (s : Kernel) :
    Bool :=
  decide ((Step.mk .available (.call (.waitClock ((s.inter + delay) % 2 ^ 32)))).enabled s ∧
    s.getpid = 3) &&
    okAnd (fun s₁ => checkRun (machine.observing countTicks)
        (fun x step => step.harmless x.1 ∧ Asleep 3 delay x)
        (fun x => decide (x.2 = 1 ∧ (x.1.data 3).state = .sleeping ∧
          x.1.control = [.clockTick]) &&
          okAnd (fun t => decide ((t.data 3).state = state)) (kernelStep .available x.1))
        (s₁, 0) steps) (exec ⟨.available, .call (.waitClock ((s.inter + delay) % 2 ^ 32))⟩ s)

/-- A call of `wait_clock` by process 3, and the first `clock_tick` behind it. -/
structure TicksOnce (delay : Nat) (state : ProcessState) (s s₁ t t' : Kernel) : Prop where
  running : Running (fun s step => step.harmless s) s
  enabled : (Step.mk .available (.call (.waitClock ((s.inter + delay) % 2 ^ 32)))).enabled s
  caller : s.getpid = 3
  call : exec ⟨.available, .call (.waitClock ((s.inter + delay) % 2 ^ 32))⟩ s = .ok s₁
  sleeps : SleepsTo (fun s step => step.harmless s) 3 delay s₁ t 1
  asleep : (t.data 3).state = .sleeping
  control : t.control = [.clockTick]
  tick : kernelStep .available t = .ok t'
  state : (t'.data 3).state = state

private theorem ticksOnce_of {steps : List Step} {state : ProcessState}
    (h : Running (fun s step => step.harmless s) s)
    (htest : ticksOnce delay steps state s = true) :
    ∃ s₁ t t', TicksOnce delay state s s₁ t t' := by
  unfold ticksOnce at htest
  rw [Bool.and_eq_true, decide_eq_true_eq] at htest
  obtain ⟨⟨henabled, hp⟩, htest⟩ := htest
  obtain ⟨s₁, hcall, htest⟩ := okAnd_iff.mp htest
  obtain ⟨⟨t, ticks⟩, hsleeps, htest⟩ := Reach.of_checkRun .start htest
  rw [Bool.and_eq_true, decide_eq_true_eq] at htest
  obtain ⟨⟨rfl, hasleep, hcontrol⟩, htest⟩ := htest
  obtain ⟨t', htick, hstate⟩ := okAnd_iff.mp htest
  exact ⟨s₁, t, t', h, henabled, hp, hcall, hsleeps, hasleep, hcontrol, htick,
    of_decide_eq_true hstate⟩

/-- Process 3 sleeps for one tick, which comes in process 2. -/
theorem wait_clock_on_time_iff_run : ∃ s s₁ t t' : Kernel,
    TicksOnce 1 .waiting s s₁ t t' ∧ OnTime 3 1 1 t' := by
  obtain ⟨s, hrunning, htest⟩ : ∃ s, Running (fun s step => step.harmless s) s ∧
      (decide (s.inter = 0) && ticksOnce 1 (List.replicate 4 Event.kernel.step ++ [Event.tick.step])
        .waiting s) = true :=
    Running.computed ([Event.init 4096 128, .call (.start 0x1000000 4096 129 ⟨0x1000000, 0⟩)].map
      Event.step) [] (by decide +kernel)
  rw [Bool.and_eq_true, decide_eq_true_eq] at htest
  obtain ⟨s₁, t, t', hticks⟩ := ticksOnce_of hrunning htest.2
  obtain ⟨t'', htick, hiff⟩ := (wait_clock_on_time_iff hticks.running
    (fun _ _ hstep => hstep.careful) hticks.caller ⟨le_rfl, by decide⟩ hticks.enabled
    ⟨rfl, by simp [hticks.enabled.1]⟩ hticks.call).2 t 1 [] .available hticks.sleeps hticks.asleep
    hticks.control
  obtain rfl := Except.ok.inj (htick.symm.trans hticks.tick)
  refine ⟨s, s₁, t, t'', hticks, hiff.mpr ?_⟩
  rw [htest.1]

/-- Process 2 computes until three counts are left before the counter is 0 again, and starts
process 3, which sleeps for ten ticks: the first `clock_tick`, in process 2, wakes it. -/
theorem wait_clock_wraps : ∃ s s₁ t t' : Kernel, s.inter = 2 ^ 32 - 3 ∧
    TicksOnce 10 .waiting s s₁ t t' := by
  obtain ⟨s, hrunning, htest⟩ : ∃ s, Running (fun s step => step.harmless s) s ∧
      (decide (Spinning s) &&
        (play (fun s step => step.harmless s) (spun s ((2 ^ 32 - 3) % 2 ^ 32) ((2 ^ 32 - 3) % 2) [])
          [(Event.call (.start 0x1000000 4096 129 ⟨0x1000000, 0⟩)).step]).any
        fun s => checkRun machine (fun s step => step.harmless s)
          (fun s => decide (s.inter = 2 ^ 32 - 3) && ticksOnce 10
            (List.replicate 4 Event.kernel.step ++
              Event.tick.step :: List.replicate 3 Event.kernel.step) .waiting s) s []) = true :=
    Running.computed [(Event.init 4096 128).step] [] (by decide +kernel)
  rw [Bool.and_eq_true, decide_eq_true_eq] at htest
  obtain ⟨s', hrunning', htest'⟩ := (spun_running htest.1 hrunning (2 ^ 32 - 3)).played _ _ htest.2
  rw [Bool.and_eq_true, decide_eq_true_eq] at htest'
  obtain ⟨s₁, t, t', hticks⟩ := ticksOnce_of hrunning' htest'.2
  exact ⟨s', s₁, t, t', htest'.1, hticks⟩

end SchlagOS
