import SchlagOS.Invariant.Calm

/-!
# The running process is the most urgent one

When a primitive or a clock tick gives control back, no ready process has a
higher priority than the one that runs.  The exception is a full table: there
`schedule` compares the running process with process 1 instead of the head of the
ready queue, and keeps it if it is above process 1.
-/

namespace SchlagOS

open Foundation

variable {ok : Kernel → Step → Prop} {s s' : Kernel} {step : Step} {r p : Int} {n : Nat}

theorem booted_law : booted.view.law 1 := by
  intro p hp
  by_cases hone : p = 1
  · rw [hone]
  · have hdata : booted.data p = noProcess := Function.update_of_ne hone _ _
    have hstate : (booted.data p).state = .waiting := hp
    rw [hdata] at hstate
    cases hstate

/-- Outside `schedule` no ready process has a higher priority than the running one, as long
as the choice for a full table has not kept a process against a more urgent one. -/
theorem running_most_urgent (h : Running ok s) (htame : Tame ok)
    (hspares : ∀ s step, ok s step → ¬Suppressed s) (hphase : phaseOf s.control = none) :
    s.running.state = .running ∧
      ∀ p, (s.data p).state = .waiting → (s.data p).priority ≤ s.running.priority := by
  obtain ⟨r, hsafe, hlaw, -⟩ := h.tame
    (I := fun s r => phaseOf s.control = none → s.view.law r) htame (fun _ => booted_law)
    fun s step s' r r' hsafe hlaw hs hmoved hnone => hmoved.fair hnone (hspares s step hs) hlaw
  have hrunning := hsafe.inv.core.running_eq
  rw [hrunning]
  exact ⟨hsafe.inv.running (.inl hphase), hlaw hphase⟩

/-- Process 2 goes on behind a `start` of process 3 and a `chprio` that lowers it. -/
theorem running_most_urgent_run : ∃ s : Kernel, s.control = [] ∧ s.running.pid = 2 ∧
    (s.data 3).state = .waiting ∧ (s.data 3).priority ≤ s.running.priority := by
  have hrun : ∃ s, Running (fun s step => step.event.calm = true ∧ ¬Suppressed s) s ∧
      decide (s.control = [] ∧ s.running.pid = 2 ∧ (s.data 3).state = .waiting) = true :=
    Running.computed ([Event.init 4096 128, .call (.start 0x1000000 4096 120 ⟨0x1000000, 0⟩),
      .call (.chprio 3 100)].map Event.step) [] (by decide +kernel)
  obtain ⟨s, hrun, htest⟩ := hrun
  obtain ⟨hcontrol, hpid, hwaiting⟩ := of_decide_eq_true htest
  obtain ⟨-, hmost⟩ := running_most_urgent hrun (.inl fun _ _ hs => hs.1) (fun _ _ hs => hs.2)
    (by rw [hcontrol]; rfl)
  exact ⟨s, hcontrol, hpid, hwaiting, hmost 3 hwaiting⟩

/-! ## A full table -/

/-- Process 2 is in user mode and has started processes until `n` were in use. -/
private structure Crowded (s : Kernel) (n : Nat) : Prop where
  running : Running (fun _ step => step.orderly = true) s
  control : s.control = []
  process : s.view.running = some 2
  size : s.view.currentSize = n
  urgent : s.view.priority 2 = 128
  init : s.view.priority 1 = 1
  zombify : s.view.toZombify = []
  destroy : s.view.toDestroy = []

private def starts (priority : Int) : Step :=
  (Event.call (.start 0x1000000 4096 priority ⟨0x1000000, 0⟩)).step

private theorem safe_of_orderly (h : Running (fun _ step => step.orderly = true) s)
    (hprocess : s.view.running = some r) : Safe s r := by
  obtain ⟨r', hsafe, -, -⟩ := h.orderly (I := fun _ _ => True) (fun _ _ hs => hs) trivial
    fun _ _ _ _ _ _ _ _ _ _ => trivial
  obtain rfl : r = r' := Option.some.inj (hprocess.symm.trans hsafe.inv.core.running)
  exact hsafe

/-- One more call of `start`, up to the frames that it leaves. -/
private theorem Crowded.start (h : Crowded s n) (hn : n < processTableMaxSize) (priority : Int)
    (hpriority : 1 ≤ priority ∧ priority ≤ 256) :
    ∃ s' p, Running (fun _ step => step.orderly = true) s' ∧ Started s s' 2 p priority ∧
      s'.view.state p = .waiting ∧ s'.view.priority p = priority ∧
      s'.view.currentSize = n + 1 ∧ s'.view.priority 2 = 128 ∧ s'.view.priority 1 = 1 ∧
      s'.view.toZombify = [] ∧ s'.view.toDestroy = [] ∧ s'.view.running = some 2 ∧
      s'.view.state 2 = .running := by
  have hsettled := (safe_of_orderly h.running h.process).inv.settled h.control
  have hexec : exec (starts priority) s =
      SchlagOS.start .available s 4096 priority (some ⟨0x1000000, 0⟩) := rfl
  have hmeets : Meets (SchlagOS.start (starts priority).mem s 4096 priority
      (some ⟨0x1000000, 0⟩)) _ _ :=
    start_meets hsettled 4096 priority (some ⟨0x1000000, 0⟩) fun haccepts => ⟨by decide, haccepts⟩
  have henabled : (starts priority).enabled s := ⟨h.control, by
    rw [hsettled.core.getpid_eq]
    decide⟩
  obtain ⟨s', hrun, -, hstarted⟩ :=
    (hmeets.mono (fun _ hs => hs) fun e he => he.2 rfl).exists_ok
  obtain ⟨p, hstarted⟩ := hstarted rfl hpriority.1 hpriority.2 (by decide)
    (by rw [h.size]; exact hn)
  have hfree : freePid s.view.state p := by
    apply (hsettled.core.pidPool.mem_iff p).mp
    have horder := hstarted.order
    have hmem : p ∈ s.view.freePids := by simp [horder]
    exact hmem
  have hne : ∀ x, s.view.state x ≠ .unset → x ≠ p := by
    rintro x hx rfl
    exact hx hfree.2
  have hone : (1 : Int) ≠ p := hne 1 (by
    rcases hsettled.core.init with h1 | h1 | h1
    all_goals
      rw [h1]
      decide)
  have htwo : (2 : Int) ≠ p := hne 2 hsettled.core.self
  have hview := hstarted.view
  refine ⟨s', p, h.running.next henabled rfl (hexec.trans hrun), hstarted, ?_⟩
  rw [hview]
  refine ⟨Function.update_self p _ _, Function.update_self p _ _, ?_, ?_, ?_, h.zombify,
    h.destroy, h.process, ?_⟩
  · exact congrArg (· + 1) h.size
  · exact (Function.update_of_ne htwo _ _).trans h.urgent
  · exact (Function.update_of_ne hone _ _).trans h.init
  · exact (Function.update_of_ne htwo _ _).trans hsettled.running

private theorem Crowded.more (h : Crowded s n) (hn : n < processTableMaxSize) :
    ∃ s', Crowded s' (n + 1) := by
  obtain ⟨s₁, p, hrunning, hstarted, -, -, hsize, hurgent, hinit, hzombify, hdestroy, hprocess,
    -⟩ := h.start hn 1 (by decide)
  have hcontrol : s₁.control = [.startReturn p] := by
    rw [hstarted.control, h.urgent, h.control]
    rfl
  have hexec : exec (Event.kernel).step s₁ =
      .ok ({ s₁ with control := [] }.ret (s₁.data p).pid) := by
    change kernelStep .available s₁ = _
    unfold kernelStep
    rw [hcontrol]
  have henabled : (Event.kernel).step.enabled s₁ := by
    change s₁.control ≠ []
    rw [hcontrol]
    exact List.cons_ne_nil _ _
  exact ⟨_, hrunning.next henabled rfl hexec, rfl, hprocess, hsize, hurgent, hinit, hzombify,
    hdestroy⟩

private theorem crowded : ∃ s, Crowded s 511 := by
  have hrun : ∃ s, Running (fun _ step => step.orderly = true) s ∧
      decide ((s.control = [] ∧ s.runningProcess = some 2 ∧ s.currentSize = 2) ∧
        ((s.data 2).priority = 128 ∧ (s.data 1).priority = 1) ∧
          s.pidsToZombify.entries = [] ∧ s.pidsToDestroy.entries = []) = true :=
    Running.computed [(Event.init 4096 128).step] [] (by decide +kernel)
  obtain ⟨s, hrun, htest⟩ := hrun
  obtain ⟨⟨hcontrol, hprocess, hsize⟩, ⟨hurgent, hinit⟩, hzombify, hdestroy⟩ :=
    of_decide_eq_true htest
  have hstart : Crowded s 2 :=
    ⟨hrun, hcontrol, hprocess, hsize, hurgent, hinit, hzombify, hdestroy⟩
  have hmany : ∀ k, k ≤ 509 → ∃ s, Crowded s (2 + k) := by
    intro k
    induction k with
    | zero => exact fun _ => ⟨s, hstart⟩
    | succ k ih =>
        intro hk
        obtain ⟨s₁, hs₁⟩ := ih (by omega)
        exact hs₁.more (by unfold processTableMaxSize; omega)
  exact hmany 509 le_rfl

private theorem exec_pass {rest : List Frame} (hcontrol : s.control = .schedule .zombify :: rest)
    (hnil : s.view.toZombify = []) :
    exec (Event.kernel).step s = .ok { s with control := .schedule .destroy :: rest } := by
  have hcount : s.pidsToZombify.count = 0 := s.pidsToZombify.entries_eq_nil.mp hnil
  change kernelStep .available s = _
  unfold kernelStep
  rw [hcontrol]
  unfold scheduleStep takePending
  rw [if_pos hcount]

private theorem exec_cleaned {rest : List Frame} (hcontrol : s.control = .schedule .destroy :: rest)
    (hnil : s.view.toDestroy = []) :
    exec (Event.kernel).step s = .ok { s with control := .schedule .decide :: rest } := by
  have hcount : s.pidsToDestroy.count = 0 := s.pidsToDestroy.entries_eq_nil.mp hnil
  change kernelStep .available s = _
  unfold kernelStep
  rw [hcontrol]
  unfold scheduleStep takePending
  rw [if_pos hcount]

/-- With a full table a running process above process 1 is kept. -/
theorem exec_full {rest : List Frame} (hcontrol : s.control = .schedule .decide :: rest)
    (hprocess : s.runningProcess = some r) (hpid : (s.data r).pid ≠ 1)
    (hfull : processTableMaxSize ≤ s.currentSize) (hstate : (s.data r).state = .running)
    (hpriority : (s.data 1).priority < (s.data r).priority) :
    exec (Event.kernel).step s = .ok { s with control := rest } := by
  change kernelStep .available s = _
  unfold kernelStep
  rw [hcontrol]
  unfold scheduleStep scheduleDecide
  dsimp only
  rw [hprocess]
  dsimp only
  rw [if_pos ⟨hpid, hfull⟩]
  dsimp only
  rw [if_pos (.inr ⟨hstate, hpriority⟩)]

/-- Process 2 fills the table with a process of priority 200 and goes on with priority 128. -/
theorem full_table_run : ∃ s, Running (fun _ step => step.orderly = true) s ∧ s.control = [] ∧
    s.running.state = .running ∧
      ∃ p, (s.data p).state = .waiting ∧ s.running.priority < (s.data p).priority := by
  obtain ⟨s, hcrowded⟩ := crowded
  obtain ⟨s₁, p, hrunning, hstarted, hwaiting, hpriority, hsize, hurgent, hinit, hzombify,
    hdestroy, hprocess, hstate⟩ := hcrowded.start (by decide) 200 (by decide)
  have hcontrol : s₁.control = [.schedule .zombify, .startReturn p] := by
    rw [hstarted.control, hcrowded.urgent, hcrowded.control]
    rfl
  have hcore := (safe_of_orderly hrunning hprocess).inv.core
  have hpid : (s₁.data 2).pid ≠ 1 := by
    have hpid : (s₁.data 2).pid = 2 := hcore.pid_eq hcore.self
    rw [hpid]
    decide
  have hfull : processTableMaxSize ≤ s₁.currentSize := le_of_eq hsize.symm
  have hbelow : (s₁.data 1).priority < (s₁.data 2).priority := by
    have hlt : s₁.view.priority 1 < s₁.view.priority 2 := by
      rw [hinit, hurgent]
      decide
    exact hlt
  have habove : (s₁.data 2).priority < (s₁.data p).priority := by
    have hlt : s₁.view.priority 2 < s₁.view.priority p := by
      rw [hpriority, hurgent]
      decide
    exact hlt
  have hrunning₁ : s₁.running = s₁.data 2 := hcore.running_eq
  have henabled : ∀ {t : Kernel}, t.control ≠ [] → (Event.kernel).step.enabled t := id
  have hdestroying := hrunning.next (henabled (by simp [hcontrol])) rfl
    (exec_pass hcontrol hzombify)
  have hdeciding := hdestroying.next (henabled (by simp)) rfl (exec_cleaned rfl hdestroy)
  have hkept := hdeciding.next (henabled (by simp)) rfl
    (exec_full rfl hprocess hpid hfull hstate hbelow)
  have hreturn : exec (Event.kernel).step { s₁ with control := [.startReturn p] } =
      .ok ({ s₁ with control := [] }.ret (s₁.data p).pid) := rfl
  have hreturned := hkept.next (henabled (by simp)) rfl hreturn
  have hsame : ({ s₁ with control := [] }.ret (s₁.data p).pid).running = s₁.data 2 := hrunning₁
  refine ⟨_, hreturned, rfl, ?_⟩
  change ({ s₁ with control := [] }.ret (s₁.data p).pid).running.state = _ ∧ ∃ q, _ ∧
    ({ s₁ with control := [] }.ret (s₁.data p).pid).running.priority < _
  rw [hsame]
  exact ⟨hstate, p, hwaiting, habove⟩

end SchlagOS
