import SchlagOS.Invariant.Waitpid

/-!
# Sleeping, the clock and priorities

`wait_clock`, the clock interrupt with its loop over the sleeping processes, and
`chprio` keep the invariant.
-/

namespace SchlagOS

open Foundation

variable {s : Kernel} {step : Step} {r p : Int}

/-! ## wait_clock -/

theorem waitClock_meets (h : Settled s r) (hone : r ≠ 1) (clock : Nat)
    (hevent : step.event = .call (.waitClock clock)) :
    Meets (waitClock s clock) (fun s' => After step s s' r) (Excused False False) := by
  have hgetpid := h.core.getpid_eq
  have hne : ∀ b : ProcessState, b ≠ .running → s.view.state r ≠ b :=
    fun b hb heq => hb (heq.symm.trans h.running)
  have hnot : r ∉ s.pidsWaiting.entries := fun hmem =>
    hne .sleeping (by decide) ((h.core.sleepers.2 r).mp hmem)
  have hpids : ∀ x ∈ s.pidsWaiting.entries, IsPid x := by
    intro x hx
    have hsleeping := (h.core.sleepers.2 x).mp hx
    exact h.core.isPid (by rw [hsleeping]; decide)
  have hpush := pushPending_eq h.core.sleepers.1 hpids (h.core.isPid h.core.self) hnot
  unfold waitClock
  rw [meets_ite]
  refine ⟨fun _ => ?_, fun _ => h.ret 0⟩
  rw [hgetpid]
  change Meets (pushPending s.pidsWaiting r >>= _) _ _
  rw [hpush, ok_bind, meets_pure]
  set s₁ : Kernel := { s.update r fun p => { p with state := .sleeping, sleepTime := clock } with
    pidsWaiting := s.pidsWaiting.push r } with hs₁
  have hview : s₁.view = { s.view with
      state := Function.update s.view.state r .sleeping
      sleeping := s.view.sleeping ++ [r] } := by
    have hentries : (s.pidsWaiting.push r).entries = s.view.sleeping ++ [r] := by
      simp
      rfl
    calc s₁.view = { (s.update r fun p =>
            { p with state := .sleeping, sleepTime := clock }).view with
          sleeping := (s.pidsWaiting.push r).entries } := rfl
      _ = _ := by
        rw [s.view_update r _ rfl, hentries]
        simp
  have hrest : s₁.rest = { s.rest with
      sleepTime := Function.update s.rest.sleepTime r clock } := by
    have hwrite := s.rest_write r fun p => { p with state := .sleeping, sleepTime := clock }
    simp only [Rest.update_context_self, Rest.update_returnCode_self,
      Rest.update_receiver_self, Rest.update_kernelStack_self, Rest.update_userStack_self,
      Rest.update_userStackSize_self] at hwrite
    exact hwrite
  have hcontext : ∀ x, (s₁.data x).executionContext = (s.data x).executionContext := by
    have hcontexts : s₁.rest.context = s.rest.context := by rw [hrest]
    exact fun x => congrFun hcontexts x
  have hlog : s₁.log = s.log := by
    unfold Kernel.log
    rw [hrest]
    rfl
  have hcall : ∀ frame, (Frame.ret 0 :: s.control).head? = some frame →
      frame.isWaitpid = false := by
    rintro frame ⟨⟩
    rfl
  have hcore := h.core.block (b := .sleeping) h.running hone (by decide)
    (h.core.waits.move (hne _ (by decide)) (by decide) hcall)
    (h.core.locked.move (hne _ (by decide)) (by decide) (.ret 0 :: s.control)) (fun _ => rfl)
    (h.core.sleepers.enter (hne _ (by decide)))
  have hafter := h.finish step s₁ true (some (.ret 0)) s₁.eax (by rintro f ⟨⟩; rfl)
    (by rw [hview]; exact hcore)
    (by
      intro x hx
      rw [hview] at hx
      refine .inr ⟨?_, hcontext x⟩
      by_cases hxr : x = r
      · rw [hxr]
        exact h.core.self
      · simpa [hxr] using hx)
    (fun heq => absurd heq hone) (.inl ⟨rfl, hone⟩) (by rw [hview]; exact h.alive)
    (by
      rw [hlog, hview]
      exact .sleeps hevent (plain_cons rfl rfl _))
    (.inl rfl)
  exact hafter

/-! ## clock_tick -/

/-- What the loop of `clock_tick` has done. -/
structure Woke (s s' : Kernel) (r : Int) : Prop where
  core : Core s'.view r fun _ => False
  rest : s'.rest = s.rest
  view : s'.view = { s.view with
    state := s'.view.state
    processQueue := s'.view.processQueue
    sleeping := s'.view.sleeping }
  state : ∀ p, s'.view.state p = s.view.state p ∨
    s.view.state p = .sleeping ∧ s'.view.state p = .waiting
  sleeping : ∀ p ∈ s'.view.sleeping, p ∈ s.view.sleeping

theorem Woke.trans {s₁ s₂ s₃ : Kernel} (h : Woke s₁ s₂ r) (h' : Woke s₂ s₃ r) :
    Woke s₁ s₃ r where
  core := h'.core
  rest := h'.rest.trans h.rest
  view := by
    rw [h'.view, h.view]
  state p := by
    rcases h'.state p with heq | ⟨hs, hw⟩
    · rw [heq]
      exact h.state p
    · rcases h.state p with heq | ⟨hs', -⟩
      · rw [heq] at hs
        exact .inr ⟨hs, hw⟩
      · exact .inr ⟨hs', hw⟩
  sleeping p hp := h.sleeping p (h'.sleeping p hp)

/-- One turn of the loop that wakes the process at `i`. -/
private theorem wakeAt_meets (h : Core s.view r fun _ => False)
    (hr : s.view.state r ≠ .sleeping) {i : Nat} (hi : i < s.pidsWaiting.count) :
    Meets (queueAdd
        { s.update (s.pidsWaiting.cells i) fun p => { p with state := .waiting } with
          pidsWaiting := s.pidsWaiting.replaceByLast processNotFoundCode i }
        (s.pidsWaiting.cells i))
      (fun s' => Woke s s' r ∧
        s'.pidsWaiting = s.pidsWaiting.replaceByLast processNotFoundCode i)
      (fun _ => False) := by
  set p := s.pidsWaiting.cells i with hp
  have hmem : p ∈ s.view.sleeping := s.pidsWaiting.cells_mem hi
  have hsleeping : s.view.state p = .sleeping := (h.sleepers.2 p).mp hmem
  have hne : ∀ b : ProcessState, b ≠ .sleeping → s.view.state p ≠ b :=
    fun b hb heq => hb (heq.symm.trans hsleeping)
  have hperm := s.pidsWaiting.perm_replaceByLast processNotFoundCode hi
  obtain ⟨queue, hadd, hready⟩ := queueAdd_eq
    (s := { s with pidsWaiting := s.pidsWaiting.replaceByLast processNotFoundCode i })
    (f := fun q => { q with state := .waiting }) h.ready (hne .waiting (by decide))
    (h.isPid (hne .unset (by decide))) fun _ => rfl
  have hadd' : queueAdd
      { s.update p fun q => { q with state := .waiting } with
        pidsWaiting := s.pidsWaiting.replaceByLast processNotFoundCode i } p =
      .ok { s.update p fun q => { q with state := .waiting } with
        pidsWaiting := s.pidsWaiting.replaceByLast processNotFoundCode i
        processQueue := queue } := hadd
  rw [hadd', meets_ok]
  set s₁ : Kernel := { s.update p fun q => { q with state := .waiting } with
    pidsWaiting := s.pidsWaiting.replaceByLast processNotFoundCode i
    processQueue := queue } with hs₁
  have hview : s₁.view = { s.view with
      state := Function.update s.view.state p .waiting
      sleeping := (s.pidsWaiting.replaceByLast processNotFoundCode i).entries
      processQueue := queue } := by
    calc s₁.view = { (s.update p fun q => { q with state := .waiting }).view with
          sleeping := (s.pidsWaiting.replaceByLast processNotFoundCode i).entries
          processQueue := queue } := rfl
      _ = _ := by
        rw [s.view_update p _ rfl]
        simp
  have hrest := s.rest_update p (fun q => { q with state := .waiting }) rfl
  refine ⟨⟨?_, hrest, ?_, ?_, ?_⟩, rfl⟩
  · rw [hview]
    exact h.unblock (hne _ (by decide)) (hne _ (by decide)) (fun heq => hr (heq ▸ hsleeping))
      hready (h.waits.settle (by decide) fun _ => .inr (.inr hsleeping))
      (h.locked.moveState (hne _ (by decide)) (by decide)) (fun _ => rfl)
      (h.sleepers.leave hperm (by decide))
  · rw [hview]
  · intro x
    rw [hview]
    dsimp only
    by_cases hx : x = p
    · rw [hx]
      exact .inr ⟨hsleeping, Function.update_self _ _ _⟩
    · exact .inl (Function.update_of_ne hx _ _)
  · intro x hx
    rw [hview] at hx
    exact hperm.mem_iff.mpr (List.mem_cons_of_mem _ hx)

theorem clockTickFrom_meets (fuel i : Nat) (awaken : Bool) (h : Core s.view r fun _ => False)
    (hr : s.view.state r ≠ .sleeping) :
    Meets (clockTickFrom fuel i awaken s)
      (fun result => Woke s result.2 r ∧
        (result.1 = false → awaken = false ∧ result.2 = s))
      (fun _ => False) := by
  have hrefl : Woke s s r := ⟨h, rfl, rfl, fun _ => .inl rfl, fun _ hp => hp⟩
  induction fuel generalizing s i awaken with
  | zero =>
      rw [clockTickFrom, meets_ok]
      exact ⟨hrefl, fun hawaken => ⟨hawaken, rfl⟩⟩
  | succ fuel ih =>
      rw [clockTickFrom, meets_ite]
      refine ⟨fun hi => ?_, fun _ => ⟨hrefl, fun hawaken => ⟨hawaken, rfl⟩⟩⟩
      have hmem : s.pidsWaiting.cells i ∈ s.view.sleeping := s.pidsWaiting.cells_mem hi
      have hsleeping := (h.sleepers.2 _).mp hmem
      have hpid := h.isPid (by rw [hsleeping]; decide)
      dsimp only
      rw [getProcess_eq hpid, ok_bind, meets_ite]
      refine ⟨fun _ => ?_, fun _ => ih _ _ h hr hrefl⟩
      rw [meets_bind]
      refine (wakeAt_meets h hr hi).mono ?_ fun e he => he
      rintro s₁ ⟨hwoke, -⟩
      have hr₁ : s₁.view.state r ≠ .sleeping := by
        intro heq
        rcases hwoke.state r with hsame | ⟨hbefore, -⟩
        · exact hr (hsame.symm.trans heq)
        · exact hr hbefore
      have hrefl₁ : Woke s₁ s₁ r := ⟨hwoke.core, rfl, rfl, fun _ => .inl rfl, fun _ hp => hp⟩
      refine (ih i true hwoke.core hr₁ hrefl₁).mono ?_ fun e he => he
      rintro ⟨awaken', s₂⟩ ⟨hwoke', hnone⟩
      refine ⟨hwoke.trans hwoke', fun hfalse => ?_⟩
      have hcontra := (hnone hfalse).1
      cases hcontra

theorem clockTick_meets (h : Settled s r) :
    Meets (clockTick s) (fun s' => After step s s' r) (Excused False False) := by
  have hr : s.view.state r ≠ .sleeping := by
    rw [h.running]
    decide
  unfold clockTick
  rw [meets_bind]
  refine (clockTickFrom_meets s.pidsWaiting.count 0 false h.core hr).mono ?_
    fun e he => False.elim he
  rintro ⟨awaken, s₁⟩ ⟨hwoke, hnone⟩
  dsimp only at hwoke hnone ⊢
  have hcontrol : s₁.control = s.control := congrArg Rest.control hwoke.rest
  have hrunning : s₁.view.state r = .running := by
    rcases hwoke.state r with hsame | ⟨hbefore, -⟩
    · rw [hsame, h.running]
    · exact absurd hbefore hr
  have hafter : ∀ scheduled, scheduled = true ∨ s₁ = s →
      After step s { s₁ with control := topFrames scheduled none ++ s.control, eax := s₁.eax }
        r := by
    intro scheduled hcase
    refine h.after step s₁ hwoke.core ?_ ?_ scheduled none s₁.eax (by simp) (by simp)
      (.inr hrunning) ?_ ?_ ?_
    · intro p hp
      refine .inr ⟨?_, congrFun (congrArg Rest.context hwoke.rest) p⟩
      rcases hwoke.state p with hsame | ⟨hbefore, -⟩
      · rwa [← hsame]
      · rw [hbefore]
        decide
    · rw [hrunning]
      decide
    · rw [hwoke.view]
      exact h.alive
    · have hlog : s₁.log = s.log := congrArg Rest.log hwoke.rest
      rw [hlog, hwoke.view]
      exact .alarm hwoke.state hwoke.sleeping (h.plain_top (by simp))
    · rcases hcase with hscheduled | heq
      · exact .inl hscheduled
      · right
        rw [heq]
        exact fun hlaw => hlaw
  cases awaken with
  | true =>
      have htrue := hafter true (.inl rfl)
      rw [← hcontrol] at htrue
      exact htrue
  | false =>
      have hfalse := hafter false (.inr (hnone rfl).2)
      rw [← hcontrol] at hfalse
      exact hfalse

/-! ## The clock interrupt -/

theorem ticPit_after (h : Settled s r) : After step s (ticPit s) r := by
  have hafter : ∀ (scheduled : Bool) (delay : Nat),
      After step s { s with
        inter := (s.inter + 1) % 2 ^ 32
        schedulerDelay := delay
        control := topFrames scheduled (some .clockTick) ++ s.control } r := by
    intro scheduled delay
    refine h.after step
      { s with inter := (s.inter + 1) % 2 ^ 32, schedulerDelay := delay } h.core
      (fun p hp => .inr ⟨hp, rfl⟩) ?_ scheduled (some .clockTick) s.eax
      (by rintro f ⟨⟩; exact ⟨rfl, rfl⟩) (by rintro - f ⟨⟩; rfl) (.inr h.running) h.alive
      (.goOn (h.plain_top (by rintro f ⟨⟩; exact ⟨rfl, rfl⟩))) (.inr fun hlaw => hlaw)
    change s.view.state r ≠ _ ∧ s.view.state r ≠ _
    rw [h.running]
    decide
  unfold ticPit
  dsimp only
  split
  · exact hafter true 0
  · exact hafter false (s.schedulerDelay + 1)

/-! ## chprio -/

theorem isBlocked_iff (state : ProcessState) :
    state.isBlocked = true ↔
      state = .blockedByMessage ∨ state = .blockedByIo ∨ state = .blockedByChild := by
  cases state <;> decide

/-- Whether `chprio` refuses its arguments. -/
def chprioRefuses (s : Kernel) (pid newprio : Int) : Prop :=
  ¬IsPid pid ∨ (newprio < processMinPriority ∨ processMaxPriority < newprio) ∨
    (s.data pid).pid = processNotFoundCode ∨ (s.data pid).state = .zombie

/-- The part of `chprio` that brings the tables in line with the new priority. -/
def chprioMove (mem : Memory) (s : Kernel) (pid newprio : Int) : Except Panic Kernel := do
  let process := s.data pid
  let s := s.update pid fun p => { p with priority := newprio }
  let s ←
    if process.state = .blockedByMessage then
      messageQueuesNotifyPriorityChanged mem s pid newprio
    else pure s
  if s.getpid ≠ pid ∧ process.state.isBlocked = false then do
    let s ← queueDel s pid
    queueAdd s pid
  else pure s

/-- The part of `chprio` that decides whether to call `schedule`. -/
def chprioEnd (s : Kernel) (pid newprio oldprio : Int) : Except Panic Kernel :=
  if s.running.priority < newprio then return s.callSchedule [.ret oldprio]
  else if s.getpid = pid then do
    let next ← demand (queueTop s) .nullDereference
    if newprio < (s.data next).priority then return s.callSchedule [.ret oldprio]
    else return s.ret oldprio
  else return s.ret oldprio

theorem chprio_refused {mem : Memory} {pid newprio : Int} (h : chprioRefuses s pid newprio) :
    chprio mem s pid newprio = .ok (s.ret (-1)) := by
  unfold chprio
  by_cases hpid : IsPid pid
  · rw [if_neg (by unfold IsPid at hpid; omega)]
    by_cases hprio : newprio < processMinPriority ∨ processMaxPriority < newprio
    · rw [if_pos hprio]
    · rw [if_neg hprio, getProcess_eq hpid, ok_bind, if_pos]
      · rfl
      · rcases h with h | h | h
        · exact absurd hpid h
        · exact absurd h hprio
        · exact h
  · rw [if_pos (by unfold IsPid at hpid; omega)]

theorem chprio_eq (mem : Memory) {pid newprio : Int} (h : ¬chprioRefuses s pid newprio) :
    chprio mem s pid newprio =
      chprioMove mem s pid newprio >>= fun s₁ =>
        chprioEnd s₁ pid newprio (s.data pid).priority := by
  unfold chprioRefuses at h
  push Not at h
  obtain ⟨hpid, ⟨hlow, hhigh⟩, hfound, halive⟩ := h
  unfold chprio chprioMove
  have hrange : ¬(pid < 1 ∨ (processTableMaxSize : Int) < pid) := by
    unfold IsPid at hpid
    omega
  rw [if_neg hrange, if_neg (by omega), getProcess_eq hpid, ok_bind,
    if_neg (not_or.mpr ⟨hfound, halive⟩)]
  dsimp only
  have hend : ∀ s₁ : Kernel,
      (if s₁.getpid ≠ pid ∧ (s.data pid).state.isBlocked = false then do
        let s₂ ← queueDel s₁ pid
        let s₃ ← queueAdd s₂ pid
        chprioEnd s₃ pid newprio (s.data pid).priority
      else do
        let s₂ ← pure s₁
        chprioEnd s₂ pid newprio (s.data pid).priority) =
      (if s₁.getpid ≠ pid ∧ (s.data pid).state.isBlocked = false then do
        let s₂ ← queueDel s₁ pid
        queueAdd s₂ pid
      else pure s₁) >>= fun s₁ => chprioEnd s₁ pid newprio (s.data pid).priority := by
    intro s₁
    split
    · rw [bind_assoc]
    · rfl
  by_cases hblocked : (s.data pid).state = .blockedByMessage
  · rw [if_pos hblocked, if_pos hblocked, bind_assoc]
    exact bind_congr hend
  · rw [if_neg hblocked, if_neg hblocked, bind_assoc]
    exact bind_congr hend

/-- The tables when `chprio` decides whether to call `schedule`. -/
structure Reprioritised (s s₁ : Kernel) (p newprio : Int) : Prop where
  rest : s₁.rest = s.rest
  view : s₁.view = { s.view with
    priority := Function.update s.view.priority p newprio
    processQueue := s₁.view.processQueue
    queues := s₁.view.queues }
  ready : ReadyQueue s.view.state (Function.update s.view.priority p newprio)
    s₁.view.processQueue
  locked : Locked s.view.state (Function.update s.view.priority p newprio) s.view.call
    s₁.view.queues
  queues : s₁.view.queues = s.view.queues ∨
    Rearranged (reprioritised p newprio) s.view.queues s₁.view.queues

private theorem chprioEnd_meets (h : Settled s r) (hone : r ≠ 1) {s₁ : Kernel}
    {newprio : Int} (hevent : step.event = .call (.chprio p newprio))
    (hre : Reprioritised s s₁ p newprio) (oldprio : Int) :
    Meets (chprioEnd s₁ p newprio oldprio)
      (fun s' => After step s s' r) (Excused False False) := by
  have hcore : Core s₁.view r fun _ => False := by
    rw [hre.view]
    refine h.core.reprioritise hre.ready hre.locked fun fid => ?_
    rcases hre.queues with heq | hqueues
    · rw [heq]
    · exact hqueues.allocated_eq fid
  have hstate : s₁.view.state = s.view.state := by rw [hre.view]
  have hcontrol : s₁.control = s.control := congrArg Rest.control hre.rest
  have hlog : s₁.log = s.log := congrArg Rest.log hre.rest
  have hgetpid := hcore.getpid_eq
  have hpriority : ∀ x, s₁.view.priority x = Function.update s.view.priority p newprio x := by
    intro x
    rw [hre.view]
  have hafter : ∀ (scheduled : Bool) (frame : Option Frame) (eax : Int),
      (∀ f ∈ frame, f = .ret oldprio) →
      (scheduled = true ∨ (s.view.law r → s₁.view.law r)) →
      After step s { s₁ with control := topFrames scheduled frame ++ s.control, eax := eax }
        r := by
    intro scheduled frame eax hframe hfair
    have hplain : ∀ f ∈ frame, f.isSchedule = false ∧ f.isWaitpid = false ∧
        f.isResume = false := by
      intro f hf
      rw [hframe f hf]
      exact ⟨rfl, rfl, rfl⟩
    refine h.after step s₁ hcore (fun x hx => .inr ⟨by rwa [hstate] at hx,
      congrFun (congrArg Rest.context hre.rest) x⟩) ?_ scheduled frame eax
      (fun f hf => ⟨(hplain f hf).1, (hplain f hf).2.1⟩) (fun heq => absurd heq hone)
      (.inr (by rw [hstate]; exact h.running)) (by rw [hre.view]; exact h.alive) ?_ hfair
    · rw [hstate, h.running]
      decide
    · rw [hlog, hre.view]
      exact .reprioritise hevent hre.queues (h.plain_top fun f hf => (hplain f hf).2)
  have hschedule : After step s (s₁.callSchedule [.ret oldprio]) r := by
    have hcall := hafter true (some (.ret oldprio)) s₁.eax (by rintro f ⟨⟩; rfl) (.inl rfl)
    rw [← hcontrol] at hcall
    exact hcall
  have hreturn : (s.view.law r → s₁.view.law r) → After step s (s₁.ret oldprio) r := by
    intro hlaw
    have hret := hafter false none oldprio (by simp) (.inr hlaw)
    rw [← hcontrol] at hret
    exact hret
  have hrunning : s₁.running.priority = s₁.view.priority r := by
    rw [hcore.running_eq]
    rfl
  unfold chprioEnd
  rw [meets_ite]
  refine ⟨fun _ => hschedule, fun hlow => ?_⟩
  rw [hrunning, hpriority] at hlow
  rw [meets_ite, hgetpid]
  refine ⟨fun hself => ?_, fun hother => ?_⟩
  · rw [meets_bind, meets_demand]
    refine ⟨fun next hnext => ?_, fun _ => trivial⟩
    rw [meets_ite]
    refine ⟨fun _ => hschedule, fun hhigh => ?_⟩
    rw [meets_pure]
    apply hreturn
    intro _ x hx
    have htop := (hcore.ready.of_top hnext).2 x hx
    have hhigh' : ¬newprio < s₁.view.priority next := hhigh
    have hr : s₁.view.priority r = newprio := by
      rw [hpriority, hself, Function.update_self]
    omega
  · rw [meets_pure]
    apply hreturn
    intro hlaw x hx
    rw [hstate] at hx
    rw [hpriority, hpriority]
    rw [Function.update_of_ne hother] at hlow ⊢
    by_cases hxp : x = p
    · rw [hxp, Function.update_self]
      omega
    · rw [Function.update_of_ne hxp]
      exact hlaw x hx

/-- The target of `chprio` is linked in no queue although its state says so. -/
def Unlinked (v : View) (pid : Int) : Prop :=
  v.state pid = .sleeping ∨ v.state pid = .unset ∧ v.pid pid ≠ processNotFoundCode

private theorem not_unlinked {v : View} {pid : Int} {state : ProcessState}
    (hstate : v.state pid = state) (hsleeping : state ≠ .sleeping) (hunset : state ≠ .unset) :
    ¬Unlinked v pid := by
  rintro (hsleeps | ⟨hfree, -⟩)
  · exact hsleeping (hstate.symm.trans hsleeps)
  · exact hunset (hstate.symm.trans hfree)

/-- A process that `chprio` takes out of the ready queue although it is not there. -/
private theorem unlinked_of_moved (h : Settled s r) {pid : Int}
    (hfound : (s.data pid).pid ≠ processNotFoundCode) (halive : (s.data pid).state ≠ .zombie)
    (hself : r ≠ pid) (hfree : (s.data pid).state.isBlocked = false)
    (hwaiting : (s.data pid).state ≠ .waiting) : Unlinked s.view pid := by
  have hfree' : ¬(s.data pid).state.isBlocked = true := by
    rw [hfree]
    decide
  rw [isBlocked_iff] at hfree'
  cases hstate : (s.data pid).state with
  | unset => exact .inr ⟨hstate, hfound⟩
  | running => exact absurd (h.core.alone pid hstate).symm hself
  | waiting => exact absurd hstate hwaiting
  | blockedByMessage => exact absurd (.inl hstate) hfree'
  | blockedByIo => exact absurd (.inr (.inl hstate)) hfree'
  | blockedByChild => exact absurd (.inr (.inr hstate)) hfree'
  | sleeping => exact .inl hstate
  | zombie => exact absurd hstate halive

/-- A process that `chprio` leaves where it is: the caller, or a blocked one. -/
private theorem linked_of_left (h : Settled s r) {pid : Int}
    (hleft : ¬(r ≠ pid ∧ (s.data pid).state.isBlocked = false)) :
    s.view.state pid ≠ .waiting ∧ ¬Unlinked s.view pid := by
  by_cases hself : r = pid
  · have hrunning : s.view.state pid = .running := hself ▸ h.running
    refine ⟨?_, not_unlinked hrunning (by decide) (by decide)⟩
    rw [hrunning]
    decide
  · have hblocked : (s.data pid).state.isBlocked = true :=
      Bool.of_not_eq_false fun hfree => hleft ⟨hself, hfree⟩
    have hstate : (s.view.state pid).isBlocked = true := hblocked
    refine ⟨fun hwaiting => ?_, ?_⟩
    · rw [hwaiting] at hstate
      cases hstate
    · rintro (hsleeps | ⟨hfree, -⟩)
      · rw [hsleeps] at hstate
        cases hstate
      · rw [hfree] at hstate
        cases hstate

/-- A ready process is taken out of the queue and put back at its new place. -/
private theorem requeue_eq (h : Settled s r) {s₁ : Kernel} {pid newprio : Int}
    (hwaiting : s.view.state pid = .waiting)
    (hview : s₁.view = { s.view with
      priority := Function.update s.view.priority pid newprio }) :
    ∃ queue, (do
        let s₂ ← queueDel s₁ pid
        queueAdd s₂ pid) = .ok { s₁ with processQueue := queue } ∧
      ReadyQueue s.view.state (Function.update s.view.priority pid newprio) queue := by
  obtain ⟨queue₁, queue₂, hdel, hadd, hready⟩ := h.core.ready.requeue hwaiting newprio
  have hqueue : s₁.processQueue = s.view.processQueue := congrArg View.processQueue hview
  have hpriority : ∀ x, (s₁.data x).priority = Function.update s.view.priority pid newprio x :=
    congrFun (congrArg View.priority hview)
  have hbelow : (fun i => decide ((s₁.data i).priority < (s₁.data pid).priority)) =
      fun i => decide (Function.update s.view.priority pid newprio i < newprio) := by
    funext i
    rw [hpriority i, hpriority pid, Function.update_self]
  refine ⟨queue₂, ?_, hready⟩
  unfold queueDel queueAdd
  rw [hqueue, hdel, demand_some, ok_bind, pure_eq_ok, ok_bind]
  dsimp only
  rw [hbelow, hadd]
  rfl

theorem chprioMove_meets (h : Settled s r) (mem : Memory) {pid newprio : Int}
    (haccepts : ¬chprioRefuses s pid newprio) :
    Meets (chprioMove mem s pid newprio)
      (fun s₁ => (Reprioritised s s₁ pid newprio ∧
          s₁.data = (s.update pid fun p => { p with priority := newprio }).data) ∧
        ¬Unlinked s.view pid ∧
          (s.view.state pid = .blockedByMessage → mem.processNode = true))
      (fun e => e = .processNode ∧ s.view.state pid = .blockedByMessage ∧
          mem.processNode = false ∨
        e = .queueDel ∧ Unlinked s.view pid) := by
  unfold chprioRefuses at haccepts
  push Not at haccepts
  obtain ⟨hpid, -, hfound, halive⟩ := haccepts
  unfold chprioMove
  dsimp only
  set s₁ := s.update pid fun p => { p with priority := newprio } with hs₁
  have hview₁ : s₁.view = { s.view with
      priority := Function.update s.view.priority pid newprio } := by
    rw [hs₁, s.view_update pid _ rfl]
    simp
  have hrest₁ : s₁.rest = s.rest := s.rest_update pid _ rfl
  have hgetpid₁ : s₁.getpid = r := by
    have hrunning : s₁.runningProcess = some r := h.runningProcess_eq
    have hpids : (s₁.data r).pid = s₁.view.pid r := rfl
    unfold Kernel.getpid
    rw [hrunning]
    dsimp only
    rw [hpids, hview₁]
    exact h.core.pid_eq h.core.self
  rw [meets_ite]
  refine ⟨fun hblocked => ?_, fun hblocked => ?_⟩
  · have hblocked' : s.view.state pid = .blockedByMessage := hblocked
    unfold messageQueuesNotifyPriorityChanged
    rw [meets_bind, meets_bind]
    refine (h.core.locked.requeue hblocked' newprio).mono ?_ fun e he =>
      .inl ⟨he.1, hblocked', he.2⟩
    rintro queues ⟨⟨hlocked, hqueues⟩, hmem⟩
    rw [meets_pure]
    have hnot : ¬(Kernel.getpid { s₁ with queues := queues } ≠ pid ∧
        (s.data pid).state.isBlocked = false) := by
      rintro ⟨-, hfalse⟩
      rw [hblocked] at hfalse
      exact absurd hfalse (by decide)
    rw [if_neg hnot, meets_pure]
    refine ⟨⟨⟨hrest₁, ?_, ?_, hlocked, .inr hqueues⟩, rfl⟩,
      not_unlinked hblocked' (by decide) (by decide), fun _ => hmem⟩
    · change { s₁.view with queues := queues } = _
      rw [hview₁]
      rfl
    · exact h.core.ready.reprioritise (by rw [hblocked']; decide) newprio
  · have hlocked := h.core.locked.reprioritise hblocked newprio
    rw [pure_eq_ok, ok_bind, hgetpid₁, meets_ite]
    refine ⟨fun hmove => ?_, fun hleft => ?_⟩
    · by_cases hwaiting : s.view.state pid = .waiting
      · obtain ⟨queue, hrequeue, hready⟩ := requeue_eq h hwaiting hview₁
        rw [hrequeue, meets_ok]
        have hqueues : s₁.queues = s.queues := rfl
        refine ⟨⟨⟨hrest₁, ?_, hready, hlocked, .inl hqueues⟩, rfl⟩,
          not_unlinked hwaiting (by decide) (by decide), fun hstate => absurd hstate hblocked⟩
        change { s₁.view with processQueue := queue } = _
        rw [hview₁]
        rfl
      · have hdel : s₁.processQueue.del pid = none := h.core.ready.del_eq_none hwaiting
        unfold queueDel
        rw [hdel, demand_none, error_bind, error_bind, meets_error]
        exact .inr ⟨rfl, unlinked_of_moved h hfound halive hmove.1 hmove.2 hwaiting⟩
    · obtain ⟨hwaiting, hlinked⟩ := linked_of_left h hleft
      refine ⟨⟨⟨hrest₁, ?_, h.core.ready.reprioritise hwaiting newprio, hlocked, .inl rfl⟩, rfl⟩,
        hlinked, fun hstate => absurd hstate hblocked⟩
      rw [hview₁]

theorem chprio_meets (h : Settled s r) (hone : r ≠ 1) {pid newprio : Int}
    (hevent : step.event = .call (.chprio pid newprio)) :
    Meets (chprio step.mem s pid newprio) (fun s' => After step s s' r)
      (Excused False (Unlinked s.view pid)) := by
  by_cases hrefuses : chprioRefuses s pid newprio
  · rw [chprio_refused hrefuses]
    exact h.ret (-1)
  · rw [chprio_eq _ hrefuses, meets_bind]
    refine (chprioMove_meets h _ hrefuses).mono (fun s₁ hs₁ => ?_) ?_
    · exact (chprioEnd_meets h hone hevent hs₁.1.1 _).mono (fun _ hs' => hs')
        fun e he => he.mono id False.elim
    · rintro e (⟨rfl, -⟩ | ⟨rfl, hunlinked⟩)
      · trivial
      · exact hunlinked

end SchlagOS
