import SchlagOS.Invariant.Console
import SchlagOS.Invariant.Scheduling

/-!
# Steps and runs

One step of the machine keeps the invariants and does what one of the
constructors of `Effect` or `Turn` says, and it can fail only in a few ways.
Two kinds of steps are left out, which `Careful` names: they break the
invariants for good.
-/

namespace SchlagOS

open Foundation

variable {s s' : Kernel} {step : Step} {r p : Int} {v v' : View} {log log' : Log}

/-! ## What goes along with the invariant -/

/-- A call for a message goes on in the process that made it. -/
def Owned (v : View) : Prop :=
  ∀ p frame q, (v.call p).head? = some frame →
    frame = .psendResume q ∨ frame = .preceiveResume q → q = p

structure Safe (s : Kernel) (r : Int) : Prop where
  inv : Inv s r
  backed : Backed s.view.state s.view.dead s.stackData
  owned : Owned s.view

theorem Plain.owned {frames : List Frame} (h : Plain frames) {frame : Frame} {q : Int}
    (hframe : frames.head? = some frame)
    (hq : frame = .psendResume q ∨ frame = .preceiveResume q) : False := by
  have hplain := (h frame hframe).2
  rcases hq with rfl | rfl
  · cases hplain
  · cases hplain

private theorem owned_update (h : Owned v) {frames : List Frame}
    (hframes : ∀ frame q, frames.head? = some frame →
      frame = .psendResume q ∨ frame = .preceiveResume q → q = r) {w : View}
    (hcall : w.call = Function.update v.call r frames) : Owned w := by
  intro p frame q hframe hq
  rw [hcall] at hframe
  by_cases hp : p = r
  · rw [hp, Function.update_self] at hframe
    rw [hp]
    exact hframes frame q hframe hq
  · rw [Function.update_of_ne hp] at hframe
    exact h p frame q hframe hq

private theorem owned_plain (h : Owned v) {frames : List Frame} (hplain : Plain frames)
    {w : View} (hcall : w.call = Function.update v.call r frames) : Owned w :=
  owned_update h (fun _ _ hframe hq => False.elim (hplain.owned hframe hq)) hcall

private theorem owned_nil (h : Owned v) (p : Int) :
    Owned { v with call := Function.update v.call p [] } :=
  owned_update (r := p) h (fun _ _ hframe => by simp at hframe) rfl

theorem Effect.owned (heffect : Effect step r v log v' log') (h : Owned v) : Owned v' := by
  cases heffect
  case start => exact owned_plain (owned_nil h _) ‹Plain _› rfl
  case startFails => exact owned_plain (owned_nil h _) ‹Plain _› rfl
  case waits hframe =>
    refine owned_update h ?_ rfl
    rintro frame q ⟨⟩ (rfl | rfl)
    · cases hframe
    · cases hframe
  case blockSend =>
    refine owned_update h ?_ rfl
    rintro frame q ⟨⟩ (hq | hq)
    · cases hq
      rfl
    · cases hq
  case blockReceive =>
    refine owned_update h ?_ rfl
    rintro frame q ⟨⟩ (hq | hq)
    · cases hq
    · cases hq
      rfl
  all_goals exact owned_plain h ‹Plain _› rfl

theorem Turn.owned (hturn : Turn r s s') (h : Owned s.view) : Owned s'.view := by
  cases hturn with
  | pass _ hview _ => rwa [hview]
  | resume _ frames _ _ hview _ hframes =>
      rw [hview]
      exact owned_plain h hframes rfl
  | zombify p stack _ _ _ _ hzombified _ =>
      have hcall : s'.view.call = s.view.call := by rw [hzombified.view]
      intro x frame q hframe
      rw [hcall] at hframe
      exact h x frame q hframe
  | destroy p _ hdestroyed _ =>
      have hcall : s'.view.call = Function.update s.view.call p [] := by
        rw [hdestroyed.view]
      exact owned_update h (fun _ _ hframe => by cases hframe) hcall
  | switch p state processQueue _ _ _ _ _ hview _ =>
      rw [hview]
      exact h

/-- The processes that wait for a message of a queue are in use. -/
private theorem Core.used_of_waits {fid : Int} (h : Core v r fun _ => False)
    (hp : p ∈ (v.queues fid).waiters.map ProcessNodeContent.pid) :
    v.state p = .blockedByMessage := by
  obtain ⟨node, hnode, rfl⟩ := List.mem_map.mp hp
  exact h.locked.listed.blocked_of_mem hnode

theorem Effect.backed (heffect : Effect step r v log v' log') (hcore : Core v r fun _ => False)
    (h : Backed v.state v.dead log.stackData) :
    Backed v'.state v'.dead log'.stackData := by
  have hr := hcore.self
  have hmove : ∀ (p : Int) (b : ProcessState), v.state p ≠ .unset → b ≠ .unset →
      ∀ x, Function.update v.state p b x = .unset ↔ v.state x = .unset :=
    fun p b hp hb x => update_eq_iff hp hb x
  have hfirst : ∀ {fid : Int} {node : ProcessNodeContent} {rest : List ProcessNodeContent},
      (v.queues fid).waiters = node :: rest → v.state node.pid ≠ .unset := by
    intro fid node rest hwaiters
    have hmem : node.pid ∈ (v.queues fid).waiters.map ProcessNodeContent.pid := by
      simp [hwaiters]
    rw [hcore.used_of_waits hmem]
    decide
  cases heffect
  case start hfree hpr hsize horder hframes => exact h.give hfree.2 (by decide) hsize
  case startFails hmem hfree hpr horder horder' hwasted hframes =>
    exact h.waste hfree.2 hwasted
  case exit => exact h.congr (hmove r _ hr (by decide))
  case kill => exact h.congr (hmove _ _ ‹_ ≠ ProcessState.unset› (by decide))
  case waits => exact h.congr (hmove r _ hr (by decide))
  case sleeps => exact h.congr (hmove r _ hr (by decide))
  case alarm hstate hsleep hframes =>
    refine h.congr fun x => ?_
    dsimp only
    rcases hstate x with heq | ⟨hold, hnew⟩
    · rw [heq]
    · rw [hold, hnew]
      decide
  case reset hlive hevent hpids hstate hreleases hwaiters hmessages hframes =>
    refine h.congr fun x => ?_
    dsimp only
    rw [hstate]
    split_ifs with hmem
    · rw [← hpids] at hmem
      rw [hcore.used_of_waits hmem]
      decide
    · exact Iff.rfl
  case hand => exact h.congr (hmove _ _ (hfirst ‹_›) (by decide))
  case swap => exact h.congr (hmove _ _ (hfirst ‹_›) (by decide))
  case blockSend => exact h.congr (hmove r _ hr (by decide))
  case blockReceive => exact h.congr (hmove r _ hr (by decide))
  all_goals exact h

theorem Turn.backed (hturn : Turn r s s') (hinv : Inv s r)
    (h : Backed s.view.state s.view.dead s.stackData) :
    Backed s'.view.state s'.view.dead s'.stackData := by
  have hstacks : ∀ {log : Log}, s'.log = log → s'.stackData = log.stackData :=
    fun heq => congrArg Log.stackData heq
  cases hturn with
  | pass _ hview hlog =>
      rw [hview, hstacks hlog]
      exact h
  | resume _ _ _ _ hview hlog _ =>
      rw [hview, hstacks hlog]
      exact h
  | zombify p stack _ _ _ _ hzombified hlog =>
      have hmem : p ∈ s.view.toZombify := hzombified.perm.mem_iff.mpr (by simp)
      obtain ⟨hzombie, halive⟩ := (hinv.core.pending.mem_zombify p).mp hmem
      have hused : s.view.state p ≠ .unset := by
        rw [hzombie]
        decide
      have hfree := h.free hzombified.ne_one hused halive
      rw [hstacks hlog]
      have hdead : s'.view.dead = Function.update s.view.dead p true := by
        rw [hzombified.view]
      rw [hdead]
      refine hfree.congr fun x => ?_
      rcases hzombified.state with ⟨heq, hwakes⟩ | ⟨heq, -⟩
      · rw [heq]
        exact update_eq_iff (by rw [hwakes.1]; decide) (by decide) x
      · rw [heq]
  | destroy p hphase hdestroyed hlog =>
      rw [hstacks hlog]
      have hstate : s'.view.state = Function.update s.view.state p .unset := by
        rw [hdestroyed.view]
      have hdead' : s'.view.dead = Function.update s.view.dead p false := by
        rw [hdestroyed.view]
      rw [hstate, hdead']
      exact h.clear hdestroyed.dead
  | switch p state processQueue _ hp hp' hr hother hview hlog =>
      rw [hview, hstacks hlog]
      refine h.congr fun x => ?_
      dsimp only
      by_cases hxp : x = p
      · rw [hxp, hp, hp']
        decide
      · by_cases hxr : x = r
        · rw [hxr, hr]
          split_ifs with hrunning
          · rw [hrunning]
            decide
          · exact Iff.rfl
        · rw [hother x hxp hxr]

/-! ## One step -/

/-- What a step that succeeds has done. -/
structure Moved (step : Step) (s s' : Kernel) (r r' : Int) : Prop where
  safe : Safe s' r'
  change : phaseOf s.control = none ∧ r' = r ∧ Effect step r s.view s.log s'.view s'.log ∨
    Turn r s s'
  fair : phaseOf s'.control = none → ¬Suppressed s →
    (phaseOf s.control = none → s.view.law r) → s'.view.law r'

/-- A call that takes a process out of the ready queue which is not in it. -/
def NotLinked (s : Kernel) (step : Step) : Prop :=
  ∃ p, (step.event = .call (.kill p) ∨ ∃ newprio, step.event = .call (.chprio p newprio)) ∧
    (s.view.state p = .sleeping ∨
      s.view.state p = .unset ∧ s.view.pid p ≠ processNotFoundCode)

/-- The assertions of kbd.c, with the condition on which each of them fails. -/
inductive ConsoleFails (step : Step) (s : Kernel) : Panic → Prop
  | pcount {str : List Int} {frames : List Frame}
      (hcontrol : s.control = .keyboardData str :: frames)
      (hdead : isLive s s.stdinFid = false) : ConsoleFails step s .keyboardPcount
  | psend {rest : List Int} {frames : List Frame}
      (hcontrol : s.control = .keyboardSent rest :: frames) (hresult : s.eax ≠ 0) :
      ConsoleFails step s .keyboardPsend
  | length {str : Int} (hevent : step.event = .call (.consRead str 0))
      (hstr : checkArg str = true) : ConsoleFails step s .consReadLength
  | preceive {str : Int} {length index : Nat} {frames : List Frame}
      (hcontrol : s.control = .consReceived str length index :: frames)
      (hresult : s.eax ≠ 0) : ConsoleFails step s .consReadPreceive

/-- The ways in which a step can fail. -/
def Fails (step : Step) (s : Kernel) (r : Int) (e : Panic) : Prop :=
  TurnFails s r e ∨ Excused False (NotLinked s step) e ∨
    (e = .getProcess ∧ ∃ p, step.event = .call (.getprio p) ∧ ¬IsPid p) ∨
    ConsoleFails step s e

/-- The steps that keep the invariant: a sleeping process is killed only when it is the
last entry of `pids_waiting`, and `keyboard_data` does not block process 1. -/
structure Careful (s : Kernel) (step : Step) : Prop where
  kill : ∀ p, step.event = .call (.kill p) → (s.data p).state = .sleeping →
    s.pidsWaiting.cells (s.pidsWaiting.count - 1) = p
  key : ∀ c rest frames, s.control = .keyboardData (c :: rest) :: frames →
    keyboardBlocks s → s.getpid ≠ 1

theorem After.moved (hafter : After step s s' r) (h : Safe s r)
    (hphase : phaseOf s.control = none) : Moved step s s' r r := by
  have hbacked := hafter.effect.backed h.inv.core h.backed
  refine ⟨⟨hafter.inv, hbacked, hafter.effect.owned h.owned⟩,
    .inl ⟨hphase, rfl, hafter.effect⟩, fun hnone _ hlaw => ?_⟩
  rcases hafter.fair with hzombify | hfair
  · rw [hnone] at hzombify
    cases hzombify
  · exact hfair (hlaw hphase)

theorem Inv.settled (h : Inv s r) (hnil : s.control = []) : Settled s r where
  core := h.core
  outer := by simp [hnil]
  suspended := h.suspended
  initFrames := h.initFrames
  running := h.running (.inl (by rw [hnil]; rfl))
  alive := h.alive

section Pop

variable {frame : Frame} {rest : List Frame}

private theorem phaseOf_cons (hframe : frame.isSchedule = false) :
    phaseOf (frame :: rest) = none := by
  cases frame <;> simp_all [Frame.isSchedule, phaseOf]

private theorem Inv.outer (h : Inv s r) (hcontrol : s.control = frame :: rest)
    (hframe : frame.isSchedule = false) : ∀ f ∈ rest, f.isOuter = true := by
  have hexecuting := h.executing
  rw [hcontrol] at hexecuting
  have hsuspended : Suspended (frame :: rest) := by
    cases frame <;> simp_all [Frame.isSchedule, Executing]
  have hsettled := hsuspended.settled
  rwa [base_of_head hframe, List.tail_cons] at hsettled

theorem Inv.popView (h : Inv s r) (hcontrol : s.control = frame :: rest)
    (hframe : frame.isSchedule = false) : { s with control := rest }.view =
      { s.view with call := Function.update s.view.call r rest } := by
  have hbase : base rest = rest :=
    base_topFrames false none (by simp) (h.outer hcontrol hframe)
  rw [s.view_control h.runningProcess_eq, hbase]

/-- The running process takes the top frame off its stack. -/
theorem Inv.pop (h : Inv s r) (hcontrol : s.control = frame :: rest)
    (hframe : frame.isSchedule = false) : Settled { s with control := rest } r := by
  have houter := h.outer hcontrol hframe
  have hview := h.popView hcontrol hframe
  have hrunning : s.view.state r = .running :=
    h.running (.inl (by rw [hcontrol]; exact phaseOf_cons hframe))
  constructor
  · rw [hview]
    refine h.core.setCall ?_ ?_ fun f hf => (plain_of_outer houter f hf).1
    · rw [hrunning]
      decide
    · rw [hrunning]
      decide
  · exact houter
  · intro x hx hused
    rw [hview] at hused
    exact h.suspended x hx hused
  · have hold := h.initFrames
    unfold Kernel.stack at hold ⊢
    by_cases hone : s.runningProcess = some 1
    · rw [if_pos hone] at hold ⊢
      intro f hf
      refine hold f ?_
      rw [hcontrol]
      exact List.mem_cons_of_mem _ hf
    · rw [if_neg hone] at hold ⊢
      exact hold
  · rw [hview]
    exact hrunning
  · rw [hview]
    exact h.alive

/-- Process 1 has only frames of some kinds. -/
private theorem Inv.ne_one (h : Inv s r) (hcontrol : s.control = frame :: rest)
    (hframe : frame.isInit = false) : r ≠ 1 := by
  rintro rfl
  have hinit := h.initFrames frame (by
    unfold Kernel.stack
    rw [if_pos h.runningProcess_eq, hcontrol]
    simp)
  rw [hframe] at hinit
  cases hinit

private theorem Inv.call_head (h : Inv s r) (hcontrol : s.control = frame :: rest)
    (hframe : frame.isSchedule = false) : (s.view.call r).head? = some frame := by
  rw [s.call_running h.runningProcess_eq, hcontrol, base_of_head hframe]
  rfl

/-- A child has been found for a call of `waitpid` that goes on. -/
theorem Inv.woken (h : Inv s r) (hcontrol : s.control = frame :: rest)
    (hwait : frame.isWaitpid = true) : Woken { s with control := rest }.view.father
      { s with control := rest }.view.dead { s with control := rest }.view.isSealed
      ({ s with control := rest }.view.code r) r frame := by
  have hframe : frame.isSchedule = false := by
    cases frame <;> simp_all [Frame.isWaitpid, Frame.isSchedule]
  have hrunning : s.view.state r = .running :=
    h.running (.inl (by rw [hcontrol]; exact phaseOf_cons hframe))
  rw [h.popView hcontrol hframe]
  exact h.core.waits.woken r frame (.inr (.inl hrunning)) (h.call_head hcontrol hframe) hwait

end Pop

private theorem fails_of_excused (e : Panic) (he : Excused False False e) : Fails step s r e :=
  .inr (.inl (he.mono id False.elim))

/-- A primitive that runs behind a frame. -/
private theorem Safe.behind (h : Safe s r) {frame : Frame} {rest : List Frame}
    (hcontrol : s.control = frame :: rest) (hframe : frame.isSchedule = false)
    {x : Except Panic Kernel} {bad : Panic → Prop}
    (hbad : ∀ e, bad e → Fails step s r e)
    (hx : Meets x (fun s' => After step { s with control := rest } s' r) bad) :
    Meets x (fun s' => ∃ r', Moved step s s' r r') (Fails step s r) := by
  have hphase : phaseOf s.control = none := by
    rw [hcontrol]
    exact phaseOf_cons hframe
  refine hx.mono (fun s' hafter => ⟨r, ?_⟩) hbad
  exact (hafter.of_control h.inv.runningProcess_eq).moved h hphase

theorem kernelStep_meets (h : Safe s r) (hcareful : Careful s step) (hsome : s.control ≠ []) :
    Meets (kernelStep step.mem s) (fun s' => ∃ r', Moved step s s' r r')
      (Fails step s r) := by
  have hinv := h.inv
  obtain ⟨frame, rest, hcontrol⟩ := List.exists_cons_of_ne_nil hsome
  have hresume : ∀ q, frame = .psendResume q ∨ frame = .preceiveResume q →
      Meets (.ok (messageResume { s with control := rest } q) : Except Panic Kernel)
        (fun s' => ∃ r', Moved step s s' r r') (Fails step s r) := by
    intro q hq
    have hframe : frame.isSchedule = false ∧ frame.isResume = true := by
      rcases hq with rfl | rfl
      · exact ⟨rfl, rfl⟩
      · exact ⟨rfl, rfl⟩
    have hqr : q = r := h.owned r frame q (hinv.call_head hcontrol hframe.1) hq
    subst hqr
    have hphase : phaseOf s.control = none := by
      rw [hcontrol]
      exact phaseOf_cons hframe.1
    obtain ⟨hinv', hturn, hfair⟩ := messageResume_meets (hinv.pop hcontrol hframe.1)
      hframe.2 rfl s rfl hcontrol
    refine ⟨q, ⟨hinv', hturn.backed hinv h.backed, hturn.owned h.owned⟩, .inr hturn,
      fun hnone _ hlaw => ?_⟩
    rcases hfair with hzombify | hfair
    · rw [hnone] at hzombify
      cases hzombify
    · exact hfair (hlaw hphase)
  unfold kernelStep
  rw [hcontrol]
  dsimp only
  cases frame with
  | schedule phase =>
      refine (scheduleStep_meets hinv h.backed step.mem hcontrol).mono ?_ fun e he => .inl he
      rintro s' ⟨r', hinv', hturn, hlaw⟩
      exact ⟨r', ⟨hinv', hturn.backed hinv h.backed, hturn.owned h.owned⟩, .inr hturn,
        fun hnone hnot _ => hlaw hnone hnot⟩
  | startReturn pid =>
      refine h.behind hcontrol rfl fails_of_excused ?_
      exact (hinv.pop hcontrol rfl).ret (s.data pid).pid
  | exitLoop =>
      have hphase : phaseOf s.control = none := by
        rw [hcontrol]
        rfl
      have hcall : s.view.call r = s.control := by
        rw [s.call_running hinv.runningProcess_eq, hcontrol]
        rfl
      refine ⟨r, h, .inl ⟨hphase, rfl, ?_⟩, fun _ _ hlaw => hlaw hphase⟩
      have heffect : Effect step r s.view s.log
          { s.view with call := Function.update s.view.call r (.exitLoop :: rest) } s.log :=
        .goOn (plain_cons rfl rfl rest)
      rwa [← hcontrol, ← hcall, Function.update_eq_self] at heffect
  | ret value =>
      refine h.behind hcontrol rfl fails_of_excused ?_
      exact (hinv.pop hcontrol rfl).ret value
  | waitpidAny pid retvalp =>
      exact h.behind hcontrol rfl fails_of_excused
        (waitpidAnyResume_meets (hinv.pop hcontrol rfl) (hinv.woken hcontrol rfl))
  | waitpidOne pid retvalp =>
      exact h.behind hcontrol rfl fails_of_excused
        (waitpidOneResume_meets (hinv.pop hcontrol rfl) (hinv.woken hcontrol rfl))
  | psendResume pid => exact hresume pid (.inl rfl)
  | preceiveResume pid => exact hresume pid (.inr rfl)
  | clockTick =>
      exact h.behind hcontrol rfl fails_of_excused (clockTick_meets (hinv.pop hcontrol rfl))
  | keyboardData str =>
      refine h.behind hcontrol rfl ?_ (keyboardData_meets (hinv.pop hcontrol rfl) str ?_)
      · rintro e (he | ⟨rfl, hdead⟩)
        · exact fails_of_excused e he
        · exact .inr (.inr (.inr (.pcount hcontrol hdead)))
      · rintro c str rfl hblocks
        have hgetpid := hcareful.key c str rest hcontrol hblocks
        rwa [hinv.core.getpid_eq] at hgetpid
  | keyboardSent str =>
      refine h.behind hcontrol rfl ?_ (keyboardSent_meets (hinv.pop hcontrol rfl) str)
      rintro e ⟨rfl, hresult⟩
      exact .inr (.inr (.inr (.psend hcontrol hresult)))
  | consRead str length index =>
      exact h.behind hcontrol rfl fails_of_excused (consReadNext_meets (hinv.pop hcontrol rfl)
        (hinv.ne_one hcontrol rfl) str length index)
  | consReceived str length index =>
      refine h.behind hcontrol rfl ?_ (consReceived_meets (hinv.pop hcontrol rfl)
        (hinv.ne_one hcontrol rfl) str length index)
      rintro e ⟨rfl, hresult⟩
      exact .inr (.inr (.inr (.preceive hcontrol hresult)))

/-- A system call of a process other than process 1. -/
private theorem syscall_meets (h : Settled s r) (hone : r ≠ 1) {call : Call}
    (hevent : step.event = .call call) (hcareful : Careful s step) :
    Meets (syscallHandler step.mem s call) (fun s' => After step s s' r)
      (Fails step s r) := by
  have hquiet : ∀ {x : Except Panic Kernel},
      Meets x (fun s' => After step s s' r) (Excused False False) →
      Meets x (fun s' => After step s s' r) (Fails step s r) :=
    fun hx => hx.mono (fun _ hafter => hafter) fails_of_excused
  have hchecked : ∀ {c : Prop} [Decidable c] {x : Except Panic Kernel},
      Meets x (fun s' => After step s s' r) (Excused False False) →
      Meets (if c then .ok (s.ret (-1)) else x) (fun s' => After step s s' r)
        (Fails step s r) := by
    intro c _ x hx
    rw [meets_ite]
    exact ⟨fun _ => h.ret (-1), fun _ => hquiet hx⟩
  cases call with
  | start program stackSize priority name =>
      change Meets (if checkArg program = false ∨ checkArg name.address = false then
        .ok (s.ret (-1)) else start step.mem s stackSize priority (some name)) _ _
      rw [meets_ite]
      refine ⟨fun _ => h.ret (-1), fun hargs => ?_⟩
      rw [not_or, Bool.not_eq_false, Bool.not_eq_false] at hargs
      refine hquiet ((start_meets h stackSize priority (some name) fun haccepts => ?_).mono
        (fun s' hs' => hs'.1) fun e he => he.1)
      rw [hevent]
      exact ⟨hargs, haccepts⟩
  | exit retval => exact hquiet (exit_meets h hone retval)
  | kill pid =>
      refine (kill_meets h hone hevent (hcareful.kill pid hevent)).mono
        (fun _ hafter => hafter) fun e he => .inr (.inl (he.mono id fun hunset => ?_))
      exact ⟨pid, .inl hevent, .inr hunset⟩
  | waitpid pid retvalp => exact hchecked (waitpid_meets h hone pid _)
  | getpid => exact hquiet (h.ret s.getpid)
  | getprio pid =>
      change Meets (getprio s pid >>= fun priority => pure (s.ret priority)) _ _
      by_cases hpid : IsPid pid
      · unfold getprio
        rw [getProcess_eq hpid, ok_bind, pure_eq_ok, ok_bind, meets_pure]
        exact h.ret _
      · have hnot : ¬(0 < pid ∧ pid ≤ (processTableMaxSize : Int)) := hpid
        unfold getprio getProcess
        rw [require, if_neg hnot, error_bind, error_bind, error_bind, meets_error]
        exact .inr (.inr (.inl ⟨rfl, pid, hevent, hpid⟩))
  | chprio pid newprio =>
      refine (chprio_meets h hone hevent).mono (fun _ hafter => hafter)
        fun e he => .inr (.inl (he.mono id fun hnot => ?_))
      exact ⟨pid, .inr ⟨newprio, hevent⟩, hnot⟩
  | waitClock clock => exact hquiet (waitClock_meets h hone clock hevent)
  | currentClock => exact hquiet (h.ret (s.inter : Int))
  | pcount fid count => exact hchecked (pcount_after h fid _)
  | pcreate count => exact hquiet (pcreate_meets h count)
  | pdelete fid => exact hquiet (pdelete_meets h fid hevent)
  | preceive fid message => exact hchecked (preceive_meets h hone fid _)
  | preset fid => exact hquiet (preset_meets h fid hevent)
  | psend fid message => exact hquiet (psend_meets h fid message fun _ _ => hone)
  | consRead str length =>
      change Meets (if _ then _ else consRead s str length) _ _
      rw [meets_ite]
      refine ⟨fun _ => h.ret (-1), fun hstr => (consRead_meets h hone str length).mono
        (fun _ hafter => hafter) ?_⟩
      rintro e ⟨rfl, rfl⟩
      exact .inr (.inr (.inr (.length hevent (by simpa using hstr))))
  | consEcho on =>
      exact hquiet (h.quiet step { s with echoEnabled := on } rfl rfl (fun _ => rfl) none 0
        (by simp) (by simp))
  | consWrite str size =>
      exact hchecked (h.quiet step (consWrite s str size) rfl rfl (fun _ => rfl) none 0
        (by simp) (by simp))
  | clockSettings quartz ticks =>
      exact hchecked (h.quiet step (clockSettings s quartz ticks) rfl rfl (fun _ => rfl) none 0
        (by simp) (by simp))

theorem exec_meets (h : Safe s r) (henabled : step.enabled s) (hcareful : Careful s step) :
    Meets (exec step s) (fun s' => ∃ r', Moved step s s' r r') (Fails step s r) := by
  have hafter : ∀ {x : Except Panic Kernel}, s.control = [] →
      Meets x (fun s' => After step s s' r) (Fails step s r) →
      Meets x (fun s' => ∃ r', Moved step s s' r r') (Fails step s r) := by
    intro x hnil hx
    refine hx.mono (fun s' hs' => ⟨r, hs'.moved h ?_⟩) fun e he => he
    rw [hnil]
    rfl
  have hgetpid := h.inv.core.getpid_eq
  unfold Step.enabled at henabled
  unfold exec
  cases hevent : step.event with
  | init stackSize priority =>
      rw [hevent] at henabled
      exact hafter henabled.1 ((start_meets (h.inv.settled henabled.1) stackSize priority
        none fun haccepts => by rw [hevent]; exact haccepts).mono (fun s' hs' => hs'.1) fun e he => fails_of_excused e he.1)
  | call call =>
      rw [hevent] at henabled
      unfold Event.enabled at henabled
      rw [hgetpid] at henabled
      exact hafter henabled.1
        (syscall_meets (h.inv.settled henabled.1) henabled.2 hevent hcareful)
  | tick =>
      rw [hevent] at henabled
      exact hafter henabled (ticPit_after (h.inv.settled henabled))
  | key str =>
      rw [hevent] at henabled
      exact hafter henabled ((h.inv.settled henabled).quiet step s rfl rfl (fun _ => rfl)
        (some (.keyboardData str)) s.eax (by rintro f ⟨⟩; exact ⟨rfl, rfl, rfl⟩)
        (by rintro - f ⟨⟩; rfl))
  | kernel =>
      rw [hevent] at henabled
      exact kernelStep_meets h hcareful henabled

end SchlagOS
