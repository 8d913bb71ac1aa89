import SchlagOS.Invariant.Kin

/-!
# A call of schedule ends

`schedule` calls `clean_processes`, whose first loop calls `zombify`, which
calls `schedule` again.  A turn of the first loop takes a pid off
`pids_to_zombify` and starts a nested call; a turn of the second one resets a
slot of the process table; any other step brings a call nearer to its end.
-/

namespace SchlagOS

open Foundation

variable {s s' : Kernel} {r p : Int} {rest below : List Frame} {mem : Memory}
  {phase : SchedulePhase} {steps : List Step}

/-- The call of `schedule` by `r` with the frames `rest` behind it goes on. -/
def InCall (r : Int) (rest : List Frame) (s : Kernel) : Prop :=
  s.runningProcess = some r ∧ ∃ nested phase, s.control = nested ++ .schedule phase :: rest ∧
    ∀ frame ∈ nested, frame.isSchedule = true

/-- The call has returned, or another process runs. -/
def CallEnded (r : Int) (rest : List Frame) (s : Kernel) : Prop :=
  s.runningProcess = some r ∧ s.control = rest ∨ s.runningProcess ≠ some r

/-- The steps of the call. -/
def scheduleCall (r : Int) (rest : List Frame) : Machine Kernel Step Panic where
  enabled := fun s step => InCall r rest s ∧ step.enabled s ∧ step.orderly = true
  step := exec

/-! ## The work that is left -/

def Frame.phases : Frame → Nat
  | .schedule .zombify => 3
  | .schedule .destroy => 2
  | .schedule .decide => 1
  | _ => 0

/-- A turn of `zombify` pays for the call of `schedule` that it starts. -/
def work (r : Int) (s : Kernel) : Nat :=
  4 * (s.pidsToZombify.entries.filter (· ≠ r)).length +
    (processTableMaxSize - s.freePids.length) + (s.control.map Frame.phases).sum

theorem freePids_length_le (s : Kernel) : s.freePids.length ≤ processTableMaxSize := by
  unfold Kernel.freePids
  rw [Pool.length_toList]
  omega

theorem InCall.work_pos (h : InCall r rest s) : 0 < work r s := by
  obtain ⟨-, nested, phase, hcontrol, -⟩ := h
  have hphases : 0 < (Frame.schedule phase).phases := by cases phase <;> decide
  unfold work
  rw [hcontrol]
  simp only [List.map_append, List.map_cons, List.sum_append, List.sum_cons]
  omega

theorem InCall.not_ended (h : InCall r rest s) : ¬CallEnded r rest s := by
  obtain ⟨hrunning, nested, phase, hcontrol, -⟩ := h
  rintro (⟨-, hrest⟩ | hother)
  · have hlength := congrArg List.length hcontrol
    rw [hrest, List.length_append, List.length_cons] at hlength
    omega
  · exact hother hrunning

theorem InCall.head (h : InCall r rest s) : ∃ phase below, s.control = .schedule phase :: below := by
  obtain ⟨-, nested, phase, hcontrol, hnested⟩ := h
  cases nested with
  | nil => exact ⟨phase, rest, hcontrol⟩
  | cons frame nested =>
      have hframe := hnested frame (by simp)
      cases frame with
      | schedule phase' => exact ⟨phase', _, hcontrol⟩
      | _ => cases hframe

/-! ## One step -/

/-- What the turns of the loops and the choice of a process do to the pending pids. -/
inductive Turned (r : Int) (s s' : Kernel) : Prop
  | zombified (p : Int) (hpr : p ≠ r) (hzombified : Zombified s.view s'.view p)
      (hrunning : s'.runningProcess = some r)
      (hcontrol : s'.control = .schedule .zombify :: s.control)
      (hhistory : s'.history = s.history ++ [.zombified p])
  | destroyed (p : Int) (hdestroyed : Destroyed s.view s'.view p)
      (hrunning : s'.runningProcess = some r) (hcontrol : s'.control = s.control)
      (hhistory : s'.history = s.history ++ [.destroyed p])
  | passed (phase next : SchedulePhase) (below : List Frame)
      (hphase : phase = .zombify ∧ next = .destroy ∨ phase = .destroy ∧ next = .decide)
      (hcontrol : s.control = .schedule phase :: below)
      (hs' : s' = { s with control := .schedule next :: below })
  | returned (below : List Frame) (hcontrol : s.control = .schedule .decide :: below)
      (hs' : s' = { s with control := below })
  | switched (p : Int) (hphase : phaseOf s.control = some .decide)
      (hpr : p ≠ r) (hp : s.view.state p = .waiting) (hrunning : s'.runningProcess = some p)
      (hzombify : s'.pidsToZombify = s.pidsToZombify)
      (hdestroy : s'.pidsToDestroy = s.pidsToDestroy)
      (hother : ∀ x, x ≠ p → x ≠ r → s'.data x = s.data x)
      (hhistory : s'.history = s.history)

theorem processSwitch_pending (s : Kernel) (old new : Int) : Meets (processSwitch s old new)
    (fun s' => s'.runningProcess = some new ∧ s'.pidsToZombify = s.pidsToZombify ∧
      s'.pidsToDestroy = s.pidsToDestroy ∧ (∀ x, x ≠ new → x ≠ old → s'.data x = s.data x) ∧
      s'.history = s.history) fun _ => True := by
  unfold processSwitch
  dsimp only
  split
  · rw [meets_bind]
    unfold queueAdd
    rw [meets_bind, meets_demand]
    refine ⟨fun queue _ => ⟨rfl, rfl, rfl, fun x hnew hold => ?_, rfl⟩, fun _ => trivial⟩
    simp [contextSwitch, Kernel.update, hnew, hold]
  · rw [pure_eq_ok, ok_bind, meets_pure]
    refine ⟨rfl, rfl, rfl, fun x hnew hold => ?_, rfl⟩
    simp [contextSwitch, Kernel.update, hnew, hold]

theorem scheduleDecide_turned (hsafe : Safe s r)
    (hcontrol : s.control = .schedule .decide :: below) :
    Meets (scheduleDecide { s with control := below }) (Turned r s) fun _ => True := by
  have hcore := hsafe.inv.core
  have hrunning : s.runningProcess = some r := hcore.running
  refine scheduleDecide_running hrunning (.returned below hcontrol rfl) (fun p hp => ?_)
    fun _ => trivial
  refine (processSwitch_pending _ r p).mono ?_ fun _ _ => trivial
  rintro s' ⟨hnew, hzombify, hdestroy, hother, hhistory⟩
  have htop : s.view.processQueue.top = some p := hcore.ready.out_eq_top.symm.trans hp
  have hwaiting := (hcore.ready.of_top htop).1
  have hpr : p ≠ r := by
    rintro rfl
    exact hcore.awake hwaiting
  exact .switched p (by rw [hcontrol]; rfl) hpr hwaiting hnew hzombify hdestroy hother hhistory

theorem scheduleStep_turned (hsafe : Safe s r) (hcontrol : s.control = .schedule phase :: below)
    (hrun : scheduleStep mem s phase below = .ok s') : Turned r s s' := by
  have hcore := hsafe.inv.core
  have hphase : phaseOf s.control = some phase := by
    rw [hcontrol]
    rfl
  unfold scheduleStep at hrun
  rw [hcore.runningPid_eq] at hrun
  cases phase with
  | zombify =>
      dsimp only at hrun
      cases htake : takePending s.pidsToZombify (some r) with
      | none =>
          rw [htake] at hrun
          cases hrun
          exact .passed .zombify .destroy below (.inl ⟨rfl, rfl⟩) hcontrol rfl
      | some taken =>
          obtain ⟨p, stack⟩ := taken
          rw [htake] at hrun
          obtain ⟨s₁, hzombify, hs'⟩ := bind_eq_ok.mp hrun
          cases hs'
          obtain ⟨hperm, hpr⟩ := takePending_perm hcore.pending.nodup_zombify htake
          have hone : p ≠ 1 := by
            rintro rfl
            unfold zombify at hzombify
            simp [require] at hzombify
          obtain ⟨hrest, hcore₁, hzombified⟩ :=
            (zombify_meets hcore hsafe.backed hone hperm hpr).of_ok hzombify
          have hcontrol₁ : s₁.control = s.control := congrArg Rest.control hrest
          refine .zombified p hpr ?_ hcore₁.running ?_ (congrArg Rest.history hrest)
          · rw [s₁.view_callSchedule hcore₁.running]
            exact hzombified
          · change .schedule .zombify :: ([] ++ s₁.control) = _
            rw [List.nil_append, hcontrol₁]
  | destroy =>
      dsimp only at hrun
      cases htake : takePending s.pidsToDestroy (some r) with
      | none =>
          rw [htake] at hrun
          cases hrun
          exact .passed .destroy .decide below (.inr ⟨rfl, rfl⟩) hcontrol rfl
      | some taken =>
          obtain ⟨p, stack⟩ := taken
          rw [htake] at hrun
          have hnot : r ∉ s.pidsToDestroy.entries := by
            intro hmem
            exact hcore.pending.sealed_ne r ((hcore.pending.mem_destroy r).mp hmem) rfl
          have hzombies := hsafe.inv.zombified (by rw [hphase]; decide) (by rw [hphase]; decide)
          obtain ⟨hrest, hcore₁, hdestroyed⟩ := (destroy_meets hcore hsafe.backed
            hsafe.inv.alive (takePending_last hnot htake) hzombies).of_ok hrun
          exact .destroyed p hdestroyed hcore₁.running (congrArg Rest.control hrest)
            (congrArg Rest.history hrest)
  | decide => exact (scheduleDecide_turned hsafe hcontrol).of_ok hrun

/-! ## What a turn leaves to do -/

theorem Turned.work_lt (h : Turned r s s') (hcall : InCall r rest s') : work r s' < work r s := by
  cases h with
  | zombified p hpr hzombified hrunning hcontrol hhistory =>
      have hperm : s.pidsToZombify.entries.Perm (p :: s'.pidsToZombify.entries) := hzombified.perm
      have hfilter := (hperm.filter fun x => decide (x ≠ r)).length_eq
      rw [List.filter_cons_of_pos (by simpa using hpr), List.length_cons] at hfilter
      have hfree : s'.freePids = s.freePids :=
        congrArg View.freePids (hzombified.view.trans rfl)
      unfold work
      rw [hfilter, hfree, hcontrol, List.map_cons, List.sum_cons]
      change _ + _ + (3 + _) < _
      omega
  | destroyed p hdestroyed hrunning hcontrol hhistory =>
      have hentries : s'.pidsToZombify.entries = s.pidsToZombify.entries :=
        congrArg View.toZombify hdestroyed.view
      have hfree : s'.freePids = s.freePids ++ [p] := hdestroyed.freePids
      have hle := freePids_length_le s'
      unfold work
      rw [hentries, hcontrol]
      rw [hfree, List.length_append, List.length_singleton] at hle ⊢
      omega
  | passed phase next below hphase hcontrol hs' =>
      have hless : (Frame.schedule next).phases < (Frame.schedule phase).phases := by
        rcases hphase with ⟨rfl, rfl⟩ | ⟨rfl, rfl⟩ <;> decide
      rw [hs']
      unfold work
      rw [hcontrol]
      simp only [List.map_cons, List.sum_cons]
      change _ + (processTableMaxSize - s.freePids.length) + _ < _
      omega
  | returned below hcontrol hs' =>
      rw [hs']
      unfold work
      rw [hcontrol]
      simp only [List.map_cons, List.sum_cons]
      change _ + (processTableMaxSize - s.freePids.length) + _ < _ + _ + (1 + _)
      omega
  | switched p hphase hpr hp hrunning hzombify hdestroy hother hhistory =>
      have hr := hcall.1
      rw [hrunning, Option.some_inj] at hr
      exact absurd hr hpr

/-- The pids that are pending at the end of a call are the ones that need not be handled. -/
structure Cleaned (r : Int) (s : Kernel) : Prop where
  zombify : ∀ p ∈ s.pidsToZombify.entries, p = r
  destroy : s.pidsToDestroy.entries = []

theorem cleaned_of_decide (hsafe : Safe s r) (hphase : phaseOf s.control = some .decide) :
    Cleaned r s where
  zombify := hsafe.inv.zombified (by rw [hphase]; decide) (by rw [hphase]; decide)
  destroy := hsafe.inv.destroyed hphase

theorem Turned.next (h : Turned r s s') (hsafe : Safe s r) (hcall : InCall r rest s) :
    InCall r rest s' ∨ CallEnded r rest s' ∧ Cleaned r s' := by
  obtain ⟨hr, nested, phase, hcontrol, hnested⟩ := hcall
  have htop : ∀ {phase' next below}, s.control = .schedule phase' :: below →
      ∃ nested' next', .schedule next :: below = nested' ++ .schedule next' :: rest ∧
        ∀ frame ∈ nested', frame.isSchedule = true := by
    intro phase' next below hbelow
    rw [hcontrol] at hbelow
    cases nested with
    | nil =>
        cases hbelow
        exact ⟨[], next, rfl, by simp⟩
    | cons frame nested =>
        cases hbelow
        refine ⟨.schedule next :: nested, phase, rfl, fun f hf => ?_⟩
        rcases List.mem_cons.mp hf with rfl | hf
        · rfl
        · exact hnested f (List.mem_cons_of_mem _ hf)
  cases h with
  | zombified p hpr hzombified hrunning hcontrol' hhistory =>
      refine .inl ⟨hrunning, .schedule .zombify :: nested, phase, ?_, ?_⟩
      · rw [hcontrol', hcontrol]
        rfl
      · simpa [Frame.isSchedule] using hnested
  | destroyed p hdestroyed hrunning hcontrol' hhistory =>
      exact .inl ⟨hrunning, nested, phase, by rw [hcontrol', hcontrol], hnested⟩
  | passed phase' next below hphase hbelow hs' =>
      rw [hs']
      exact .inl ⟨hr, htop hbelow⟩
  | returned below hbelow hs' =>
      have hclean := cleaned_of_decide hsafe (by rw [hbelow]; rfl)
      rw [hs']
      rw [hcontrol] at hbelow
      cases nested with
      | nil =>
          cases hbelow
          exact .inr ⟨.inl ⟨hr, rfl⟩, hclean.zombify, hclean.destroy⟩
      | cons frame nested =>
          cases hbelow
          exact .inl ⟨hr, nested, phase, rfl, fun f hf => hnested f (List.mem_cons_of_mem _ hf)⟩
  | switched p hphase hpr hp hrunning hzombify hdestroy hother hhistory =>
      have hclean := cleaned_of_decide hsafe hphase
      refine .inr ⟨.inr ?_, ?_, ?_⟩
      · rw [hrunning, ne_eq, Option.some_inj]
        exact hpr
      · rw [hzombify]
        exact hclean.zombify
      · rw [hdestroy]
        exact hclean.destroy

/-! ## The pids that are handled -/

/-- `events` handles the pids that leave the pending lists between two states. -/
structure Handled (r : Int) (s s' : Kernel) (events : List HistoryEvent) : Prop where
  history : s'.history = s.history ++ events
  unset : ∀ p, s.view.state p = .unset → s'.view.state p = .unset
  zombify : ∀ p, events.count (.zombified p) + s'.pidsToZombify.entries.count p =
    s.pidsToZombify.entries.count p
  spared : HistoryEvent.zombified r ∉ events
  used : ∀ p, HistoryEvent.destroyed p ∈ events → s.view.state p ≠ .unset
  once : ∀ p, events.count (.destroyed p) ≤ if s'.view.state p = .unset then 1 else 0
  destroy : ∀ p ∈ s.pidsToDestroy.entries,
    p ∈ s'.pidsToDestroy.entries ∨ HistoryEvent.destroyed p ∈ events

theorem Handled.refl (r : Int) (s : Kernel) : Handled r s s [] where
  history := (List.append_nil _).symm
  unset _ h := h
  zombify _ := by simp
  spared := by simp
  used _ h := by simp at h
  once _ := by simp
  destroy _ h := .inl h

theorem Handled.trans {s'' : Kernel} {events later : List HistoryEvent} (h : Handled r s s' events)
    (h' : Handled r s' s'' later) : Handled r s s'' (events ++ later) where
  history := by rw [h'.history, h.history, List.append_assoc]
  unset p hp := h'.unset p (h.unset p hp)
  zombify p := by
    have hfirst := h.zombify p
    have hsecond := h'.zombify p
    rw [List.count_append]
    omega
  spared hmem := (List.mem_append.mp hmem).elim h.spared h'.spared
  used p hmem := by
    rcases List.mem_append.mp hmem with hmem | hmem
    · exact h.used p hmem
    · exact fun hp => h'.used p hmem (h.unset p hp)
  once p := by
    have hfirst := h.once p
    have hsecond := h'.once p
    rw [List.count_append]
    by_cases hp : s'.view.state p = .unset
    · rw [if_pos hp] at hfirst
      rw [if_pos (h'.unset p hp)]
      have hnone : later.count (.destroyed p) = 0 :=
        List.count_eq_zero.mpr fun hmem => h'.used p hmem hp
      omega
    · rw [if_neg hp] at hfirst
      omega
  destroy p hp := by
    rcases h.destroy p hp with hp | hmem
    · rcases h'.destroy p hp with hp | hmem
      · exact .inl hp
      · exact .inr (List.mem_append_right _ hmem)
    · exact .inr (List.mem_append_left _ hmem)

theorem Turned.handled (h : Turned r s s') (hsafe : Safe s r) : ∃ events, Handled r s s' events := by
  have hcore := hsafe.inv.core
  cases h with
  | zombified p hpr hzombified hrunning hcontrol hhistory =>
      refine ⟨[.zombified p], hhistory, fun x => (hzombified.used x).mpr, fun x => ?_, ?_, ?_, ?_, ?_⟩
      · have hperm : s.pidsToZombify.entries.Perm (p :: s'.pidsToZombify.entries) :=
          hzombified.perm
        rw [hperm.count_eq]
        simp [List.count_cons, Nat.add_comm]
      · simpa using Ne.symm hpr
      · simp
      · simp
      · intro x hx
        refine .inl ?_
        change x ∈ s'.view.toDestroy
        rcases hzombified.toDestroy with ⟨heq, -⟩ | ⟨heq, -⟩
        all_goals
          rw [heq]
          simp only [List.mem_append]
          tauto
  | destroyed p hdestroyed hrunning hcontrol hhistory =>
      have hstate : s'.view.state = Function.update s.view.state p .unset := by
        rw [hdestroyed.view]
      have hzombie := hcore.pending.dead_zombie p hdestroyed.dead
      have hentries : s'.pidsToZombify.entries = s.pidsToZombify.entries :=
        congrArg View.toZombify hdestroyed.view
      refine ⟨[.destroyed p], hhistory, fun x hx => ?_, fun x => ?_, ?_, ?_, fun x => ?_, ?_⟩
      · rw [hstate, Function.update_apply, hx, ite_self]
      · rw [hentries]
        simp
      · simp
      · intro x hx
        simp only [List.mem_singleton, HistoryEvent.destroyed.injEq] at hx
        rw [hx, hzombie]
        decide
      · by_cases hx : x = p
        · rw [hx, hstate, Function.update_self]
          simp
        · simp [Ne.symm hx]
      · intro x hx
        have hlast : s.pidsToDestroy.entries = s'.pidsToDestroy.entries ++ [p] := hdestroyed.last
        rw [hlast, List.mem_append, List.mem_singleton] at hx
        rcases hx with hx | rfl
        · exact .inl hx
        · exact .inr (by simp)
  | passed phase next below hphase hcontrol hs' =>
      rw [hs']
      exact ⟨[], ⟨(List.append_nil _).symm, fun _ h => h, fun _ => by simp, by simp,
        fun _ h => by simp at h, fun _ => by simp, fun _ h => .inl h⟩⟩
  | returned below hcontrol hs' =>
      rw [hs']
      exact ⟨[], ⟨(List.append_nil _).symm, fun _ h => h, fun _ => by simp, by simp,
        fun _ h => by simp at h, fun _ => by simp, fun _ h => .inl h⟩⟩
  | switched p hphase hpr hp hrunning hzombify hdestroy hother hhistory =>
      refine ⟨[], by rw [hhistory, List.append_nil], fun x hx => ?_, fun x => ?_, by simp,
        fun _ h => by simp at h, fun _ => by simp, fun x hx => .inl ?_⟩
      · have hxp : x ≠ p := by
          rintro rfl
          rw [hp] at hx
          cases hx
        have hxr : x ≠ r := by
          rintro rfl
          exact hcore.self hx
        change (s'.data x).state = .unset
        rw [hother x hxp hxr]
        exact hx
      · rw [hzombify]
        simp
      · rw [hdestroy]
        exact hx

/-! ## Runs -/

abbrev Orderly (s : Kernel) : Prop := Running (fun _ step => step.orderly = true) s

theorem Orderly.safe (h : Orderly s) : ∃ r, Safe s r ∧ s.view.state 1 ≠ .zombie := by
  obtain ⟨r, hsafe, halive, -⟩ := Running.orderly (I := fun _ _ => True) h
    (fun s step hs => hs) trivial fun _ _ _ _ _ _ _ _ _ _ => trivial
  exact ⟨r, hsafe, halive⟩

theorem Orderly.safe_of_call (h : Orderly s) (hcall : InCall r rest s) :
    Safe s r ∧ s.view.state 1 ≠ .zombie := by
  obtain ⟨r', hsafe, halive⟩ := h.safe
  have hrunning : s.runningProcess = some r' := hsafe.inv.core.running
  have hr := hcall.1
  rw [hrunning, Option.some_inj] at hr
  rw [← hr]
  exact ⟨hsafe, halive⟩

/-- Process 1 is in neither of the pending lists, which hold pids of slots. -/
theorem Orderly.room (h : Orderly s) : s.pidsToZombify.count ≤ processTableMaxSize ∧
    s.pidsToDestroy.count ≤ processTableMaxSize := by
  obtain ⟨r, hsafe, halive⟩ := h.safe
  have hcore := hsafe.inv.core
  have hpending := hcore.pending
  have hroom : ∀ stack : ArrayStack Int, stack.entries.Nodup →
      (∀ x ∈ stack.entries, s.view.state x = .zombie) → stack.count ≤ processTableMaxSize := by
    intro stack hnodup hzombie
    have hlt := length_lt_of_isPid (p := 1) hnodup
      (fun x hx => hcore.isPid (by rw [hzombie x hx]; decide)) (by decide)
      fun hone => halive (hzombie 1 hone)
    rw [stack.length_entries] at hlt
    exact hlt.le
  constructor
  · exact hroom _ hpending.nodup_zombify fun x hx => ((hpending.mem_zombify x).mp hx).1
  · refine hroom _ hpending.nodup_destroy fun x hx => hpending.sealed_zombie x ?_
    exact (hpending.mem_destroy x).mp hx

theorem InCall.exec_eq {step : Step} (h : InCall r rest s) (henabled : step.enabled s) :
    ∃ phase below, s.control = .schedule phase :: below ∧
      exec step s = scheduleStep step.mem s phase below := by
  obtain ⟨phase, below, hcontrol⟩ := h.head
  refine ⟨phase, below, hcontrol, ?_⟩
  rw [exec_kernel henabled (by simp [hcontrol])]
  unfold kernelStep
  rw [hcontrol]

/-- What a step of the call does, and how it can fail. -/
theorem Orderly.turned {step : Step} (h : Orderly s)
    (henabled : (scheduleCall r rest).enabled s step) :
    Meets (exec step s) (Turned r s) (Excused (SealsTwice s r) False) := by
  obtain ⟨hcall, hstep, -⟩ := henabled
  obtain ⟨hsafe, halive⟩ := h.safe_of_call hcall
  obtain ⟨phase, below, hcontrol, hexec⟩ := hcall.exec_eq hstep
  have hmeets := scheduleStep_meets hsafe.inv hsafe.backed step.mem hcontrol
  rw [hexec]
  cases hrun : scheduleStep step.mem s phase below with
  | ok s' => exact scheduleStep_turned hsafe hcontrol hrun
  | error e =>
      rw [hrun] at hmeets
      rcases hmeets with hexcused | ⟨-, hzombie⟩
      · exact hexcused
      · exact absurd hzombie halive

/-- What is known in the course of a call. -/
structure InCourse (r : Int) (rest : List Frame) (s : Kernel) (steps : List Step) (s' : Kernel) :
    Prop where
  orderly : Orderly s'
  bound : steps.length ≤ work r s
  left : InCall r rest s' → steps.length + work r s' ≤ work r s
  next : InCall r rest s' ∨ CallEnded r rest s' ∧ Cleaned r s'
  handled : ∃ events, Handled r s s' events

theorem Orderly.inCourse (h : Orderly s) (hcall : InCall r rest s)
    (hpath : Path (scheduleCall r rest) s steps s') : InCourse r rest s steps s' := by
  refine hpath.induct (P := InCourse r rest s) ?_ ?_
  · exact ⟨h, Nat.zero_le _, fun _ => by simp, .inl hcall, [], .refl r s⟩
  · rintro steps t step t' - hcourse henabled hrun
    have hcall' : InCall r rest t := henabled.1
    have hsafe := (hcourse.orderly.safe_of_call hcall').1
    have hturned : Turned r t t' := (hcourse.orderly.turned henabled).of_ok hrun
    have hleft := hcourse.left hcall'
    have hpos := hcall'.work_pos
    obtain ⟨events, hhandled⟩ := hcourse.handled
    obtain ⟨later, hlater⟩ := hturned.handled hsafe
    refine ⟨hcourse.orderly.next henabled.2.1 henabled.2.2 hrun, ?_, fun hagain => ?_,
      hturned.next hsafe hcall', events ++ later, hhandled.trans hlater⟩
    · rw [List.length_append, List.length_singleton]
      omega
    · have hlt := hturned.work_lt hagain
      rw [List.length_append, List.length_singleton]
      omega

/-- A call of `schedule` comes to an end, and what it has done by then. -/
structure ScheduleEnds (r : Int) (rest : List Frame) (s : Kernel) : Prop where
  bound : ∀ steps s', Path (scheduleCall r rest) s steps s' → steps.length ≤ work r s
  ends : ∀ mems : Nat → Memory, (∀ n, (Step.mk (mems n) .kernel).orderly = true) →
    ∃ n s', Path (scheduleCall r rest) s ((List.range n).map fun i => ⟨mems i, .kernel⟩) s' ∧
      (CallEnded r rest s' ∨ ∃ e, exec ⟨mems n, .kernel⟩ s' = .error e ∧
        Excused (SealsTwice s' r) False e)
  room : ∀ steps s', Path (scheduleCall r rest) s steps s' →
    s'.pidsToZombify.count ≤ processTableMaxSize ∧ s'.pidsToDestroy.count ≤ processTableMaxSize ∧
      ∀ step, (scheduleCall r rest).enabled s' step → exec step s' ≠ .error .outOfBounds
  cleaned : ∀ steps s', Path (scheduleCall r rest) s steps s' → CallEnded r rest s' → Cleaned r s'
  once : ∀ steps s₁ steps' s', Path (scheduleCall r rest) s steps s₁ →
    Path (scheduleCall r rest) s₁ steps' s' → CallEnded r rest s' →
      ∃ events, s'.history = s₁.history ++ events ∧ ∀ p,
        events.count (.zombified p) =
          (if p ∈ s₁.pidsToZombify.entries ∧ p ≠ r then 1 else 0) ∧
        events.count (.destroyed p) ≤ 1 ∧
        (p ∈ s₁.pidsToDestroy.entries → events.count (.destroyed p) = 1)

theorem Handled.counts {events : List HistoryEvent} (h : Handled r s s' events) (hs : Orderly s)
    (hclean : Cleaned r s') (p : Int) :
    events.count (.zombified p) =
        (if p ∈ s.pidsToZombify.entries ∧ p ≠ r then 1 else 0) ∧
      events.count (.destroyed p) ≤ 1 ∧
      (p ∈ s.pidsToDestroy.entries → events.count (.destroyed p) = 1) := by
  have honce : events.count (.destroyed p) ≤ 1 := by
    have hle := h.once p
    split at hle <;> omega
  refine ⟨?_, honce, fun hp => ?_⟩
  · by_cases hpr : p = r
    · rw [if_neg fun hp => hp.2 hpr, hpr]
      exact List.count_eq_zero.mpr h.spared
    · obtain ⟨o, hsafe, -⟩ := hs.safe
      have hcount := h.zombify p
      have hnone : s'.pidsToZombify.entries.count p = 0 :=
        List.count_eq_zero.mpr fun hp => hpr (hclean.zombify p hp)
      have hnodup : s.pidsToZombify.entries.Nodup := hsafe.inv.core.pending.nodup_zombify
      rw [hnone, Nat.add_zero, hnodup.count] at hcount
      simp only [hcount, ne_eq, hpr, not_false_eq_true, and_true]
  · rcases h.destroy p hp with hleft | hmem
    · rw [hclean.destroy] at hleft
      cases hleft
    · have hpos := List.count_pos_iff.mpr hmem
      omega

theorem schedule_ends (h : Running (fun _ step => step.orderly = true) s)
    (hcall : InCall r rest s) : ScheduleEnds r rest s := by
  have hcourse : ∀ steps s', Path (scheduleCall r rest) s steps s' →
      InCourse r rest s steps s' := fun steps s' => Orderly.inCourse h hcall
  have hclean : ∀ steps s', Path (scheduleCall r rest) s steps s' → CallEnded r rest s' →
      Cleaned r s' := by
    intro steps s' hpath hended
    rcases (hcourse steps s' hpath).next with hin | ⟨-, hclean⟩
    · exact absurd hended hin.not_ended
    · exact hclean
  have hbound := fun steps s' hpath => (hcourse steps s' hpath).bound
  refine ⟨hbound, fun mems hmems => ?_, fun steps s' hpath => ?_, hclean, ?_⟩
  · obtain ⟨n, s', hpath, hend⟩ := Path.ends hbound fun i => ⟨mems i, .kernel⟩
    refine ⟨n, s', hpath, ?_⟩
    have hcourse' := hcourse _ s' hpath
    rcases hcourse'.next with hin | ⟨hended, -⟩
    · obtain ⟨phase, below, hcontrol⟩ := hin.head
      have henabled : (scheduleCall r rest).enabled s' ⟨mems n, .kernel⟩ :=
        ⟨hin, by change s'.control ≠ []; simp [hcontrol], hmems n⟩
      rcases hend with hnot | ⟨e, he⟩
      · exact absurd henabled hnot
      · exact .inr ⟨e, he, (hcourse'.orderly.turned henabled).of_error he⟩
    · exact .inl hended
  · have horderly := (hcourse steps s' hpath).orderly
    obtain ⟨hzombify, hdestroy⟩ := horderly.room
    refine ⟨hzombify, hdestroy, fun step henabled hrun => ?_⟩
    exact (horderly.turned henabled).of_error hrun
  · intro steps s₁ steps' s' hpath hpath' hended
    have hcourse₁ := hcourse steps s₁ hpath
    have hhandled : (∃ events, Handled r s₁ s' events) ∧ Cleaned r s' := by
      rcases hcourse₁.next with hin | ⟨hended₁, hclean₁⟩
      · have hcourse' := hcourse₁.orderly.inCourse hin hpath'
        rcases hcourse'.next with hin' | ⟨-, hclean'⟩
        · exact absurd hended hin'.not_ended
        · exact ⟨hcourse'.handled, hclean'⟩
      · cases hpath' with
        | nil => exact ⟨⟨[], .refl r s₁⟩, hclean₁⟩
        | cons henabled _ _ => exact absurd hended₁ henabled.1.not_ended
    obtain ⟨⟨events, hevents⟩, hclean'⟩ := hhandled
    exact ⟨events, hevents.history, hevents.counts hcourse₁.orderly hclean'⟩

/-- Process 2 terminates 3, whose death is pending when it calls `schedule`. -/
theorem schedule_ends_run : ∃ s, InCall 2 [.ret 0] s ∧ 3 ∈ s.pidsToZombify.entries ∧
    ScheduleEnds 2 [.ret 0] s := by
  have hrun : ∃ s, Running (fun _ step => step.orderly = true) s ∧
      decide (s.runningProcess = some 2 ∧ s.control = [.schedule .zombify, .ret 0] ∧
        3 ∈ s.pidsToZombify.entries) = true :=
    Running.computed ([Event.init 4096 128, .call (.start 0x1000000 4096 100 ⟨0x1000000, 0⟩)].map
      Event.step) [Event.step (.call (.kill 3))] (by decide +kernel)
  obtain ⟨s, hrun, htest⟩ := hrun
  obtain ⟨hrunning, hcontrol, hpending⟩ := of_decide_eq_true htest
  have hcall : InCall 2 [.ret 0] s := ⟨hrunning, [], .zombify, hcontrol, by simp⟩
  exact ⟨s, hcall, hpending, schedule_ends hrun hcall⟩

end SchlagOS
