import SchlagOS.Invariant.Stdin
import SchlagOS.Run.Resets

/-!
# The queue of the keyboard

The queue that the keyboard feeds stands in the table of all queues, and the
system calls let a user process delete or reset it like any other.  In the runs
in which nobody does so while the console needs it, no assertion about it fails.
-/

namespace SchlagOS

open Foundation

variable {ok : Kernel → Step → Prop} {s s' : Kernel} {step : Step} {mem : Memory}
  {frame : Frame} {rest : List Frame} {waits : Int → Prop}

/-! ## When the console is spared -/

/-- The stack of the running process, or of one that is switched out. -/
def Kernel.Stack (s : Kernel) (frames : List Frame) : Prop :=
  frames = s.control ∨ ∃ p, s.runningProcess ≠ some p ∧ frames = (s.data p).executionContext

/-- A blocked call for a message that goes on for `q` was made by `keyboard_data` or
`cons_read`. -/
def InConsole (s : Kernel) (q : Int) : Prop :=
  ∃ frames above below, s.Stack frames ∧ [above, below] <:+: frames ∧
    above.resumes = some q ∧ below.isOuter = true

/-- The next step blocks the running process inside `keyboard_data` or `cons_read`. -/
def blocksInConsole (s : Kernel) : Prop :=
  match s.control with
  | .keyboardData (_ :: _) :: _ => keyboardBlocks s
  | .consRead _ length index :: _ => index < length ∧ (s.queues s.stdinFid).nbMessages = 0
  | _ => False

/-- The queue of the console is not deleted, no queue is reset on which a call of the console
waits, and no process blocks in the console under a pid that has been released before. -/
structure SparesStdin (s : Kernel) (step : Step) : Prop where
  delete : step.event ≠ .call (.pdelete s.stdinFid)
  reset : ∀ fid, step.event = .call (.preset fid) ∨ step.event = .call (.pdelete fid) →
    isLive s fid = true →
      (s.queues fid).lockedProcesses.Every fun content => ¬InConsole s content.pid
  stale : blocksInConsole s → s.resetReleases (s.getpid - 1) = false

/-! ## The invariant -/

/-- The process will not find the mark of a reset. -/
def Kernel.unreleased (s : Kernel) (q : Int) : Prop := s.resetReleases (q - 1) = false

structure Listening (s : Kernel) : Prop where
  live : isLive s s.stdinFid = true
  size : (s.queues s.stdinFid).size = keyBufferSize
  control : s.control.IsChain (Answered s.unreleased)
  answer : ∀ f, s.control.head? = some f → f.isOuter = true → s.eax = 0
  context : ∀ p, s.runningProcess ≠ some p → Served s.unreleased (s.data p).executionContext

theorem Stdin.listening {fid : Int} {r target : Option Int}
    (h : Stdin fid r r target waits (Served waits) s) : Listening s where
  live := by
    rw [h.stdinFid]
    exact h.live
  size := by
    rw [h.stdinFid]
    exact h.size
  control := (h.control.imp h.down).chain
  answer f hf houter := by
    rw [h.control.head f hf] at houter
    cases houter
  context p hp := (h.context p (by rwa [← h.running])).imp h.down

/-! ## System calls and interrupts -/

theorem Listening.chain (h : Listening s) {frames : List Frame} (hstack : s.Stack frames) :
    frames.IsChain (Answered s.unreleased) := by
  rcases hstack with rfl | ⟨p, hp, rfl⟩
  · exact h.control
  · exact (h.context p hp).chain

theorem Listening.inConsole (h : Listening s) {frames : List Frame} (hstack : s.Stack frames) :
    frames.IsChain (Answered (InConsole s)) := by
  have hchain := h.chain hstack
  rw [List.isChain_iff_forall_rel_of_append_cons_cons] at hchain ⊢
  intro above below l₁ l₂ heq houter
  refine (hchain heq houter).imp id fun ⟨q, hq, _⟩ => ⟨q, hq, frames, above, below, hstack, ?_, hq,
    houter⟩
  exact ⟨l₁, l₂, by simp [heq]⟩

theorem Listening.unreleased (h : Listening s) {q : Int} (hq : InConsole s q) :
    s.unreleased q := by
  obtain ⟨frames, above, below, hstack, ⟨l₁, l₂, heq⟩, hresumes, houter⟩ := hq
  have hchain := List.isChain_iff_forall_rel_of_append_cons_cons.mp (h.chain hstack)
  have hframes : frames = l₁ ++ above :: below :: l₂ := by simp [← heq]
  rcases hchain hframes houter with rfl | ⟨q', hq', hdown⟩
  · cases hresumes
  · rw [hresumes, Option.some_inj] at hq'
    rwa [hq']

theorem Listening.reset (h : Listening s) (hcontrol : s.control = []) {target : Option Int}
    (hwaiting : ∀ x, target = some x →
      (s.queues x).lockedProcesses.Every fun content => ¬InConsole s content.pid) :
    (userRules s.stdinFid s.runningProcess s.runningProcess target (InConsole s)).Holds s where
  stdinFid := rfl
  running := rfl
  live := h.live
  size := h.size
  down _ hq := h.unreleased hq
  control := by
    rw [hcontrol]
    exact .nil
  context p hp := ⟨h.inConsole (.inr ⟨p, hp, rfl⟩), (h.context p hp).head⟩
  waiting x a content hcontent htarget := hwaiting x htarget a content hcontent

private theorem preset_dead {fid : Int} (hdead : isLive s fid = false) :
    preset s fid = .ok (s.ret (-1)) := by
  unfold preset messageQueueReset
  rw [if_pos hdead]
  rfl

private theorem pdelete_dead {fid : Int} (hdead : isLive s fid = false) :
    pdelete s fid = .ok (s.ret (-1)) := by
  unfold pdelete messageQueueReset
  rw [if_pos hdead]
  rfl

theorem Listening.ret (h : Listening s) (hcontrol : s.control = []) (value : Int) :
    Listening (s.ret value) where
  live := h.live
  size := h.size
  control := h.control
  answer f hf := by
    change s.control.head? = some f at hf
    rw [hcontrol] at hf
    cases hf
  context := h.context

/-- `pcreate` does not take the queue of the console. -/
theorem Listening.created (h : Listening s) (halike : Alike s s) (hlt : s.nbQueues < nbQueue)
    {fid : Int} {fids : LockedRing Int} (hpop : s.fids.pop nbQueue = some (fid, fids)) :
    fid ≠ s.stdinFid := by
  obtain ⟨queues, -, htable⟩ := halike
  obtain ⟨fid', fids', hpop', hfree, -⟩ := htable.pool.popFid hlt
  rw [hpop, Option.some_inj] at hpop'
  obtain ⟨rfl, -⟩ := Prod.mk.inj hpop'
  rintro rfl
  have hlive := h.live
  unfold isLive at hlive
  simp [hfree.2] at hlive

theorem Listening.user (h : Listening s) (halike : Alike s s) (hok : SparesStdin s step)
    (hcontrol : s.control = []) (hkernel : step.event ≠ .kernel) :
    Meets (exec step s) Listening Elsewhere := by
  have hkept : ∀ target, (∀ x, target = some x →
      (s.queues x).lockedProcesses.Every fun content => ¬InConsole s content.pid) →
      (userRules s.stdinFid s.runningProcess s.runningProcess target (InConsole s)).event s
        step.event → Meets (exec step s) Listening Elsewhere := by
    intro target hwaiting hevent
    exact (event_keeps (userRules_calls _ _ _ _ _) (h.reset hcontrol hwaiting) hevent
      hkernel).mono (fun s' hs' => Stdin.listening hs') fun _ he => he
  have hother := hkept none (by simp)
  have hreset : ∀ fid, step.event = .call (.preset fid) ∨ step.event = .call (.pdelete fid) →
      isLive s fid = true → Meets (exec step s) Listening Elsewhere := by
    intro fid hevent hlive
    refine hkept (some fid) ?_ ?_
    · rintro x hx
      rw [← Option.some.inj hx]
      exact hok.reset fid hevent hlive
    · have hreleased : ∀ content : ProcessNodeContent,
          (some fid = some fid → ¬InConsole s content.pid) →
          ¬InConsole s content.pid := fun content hnode => hnode rfl
      rcases hevent with heq | heq
      · rw [heq]
        exact hreleased
      · rw [heq]
        refine ⟨hreleased, ?_⟩
        rintro rfl
        exact hok.delete heq
  cases hevent : step.event with
  | init stackSize priority => exact hother (by rw [hevent]; trivial)
  | tick => exact hother (by rw [hevent]; trivial)
  | key str => exact hother (by rw [hevent]; rfl)
  | kernel => exact absurd hevent hkernel
  | call call =>
      rw [hevent] at hother
      cases call with
      | preset fid =>
          by_cases hlive : isLive s fid = true
          · exact hreset fid (.inl hevent) hlive
          · unfold exec
            rw [hevent]
            change Meets (preset s fid) _ _
            rw [preset_dead (by simpa using hlive)]
            exact h.ret hcontrol (-1)
      | pdelete fid =>
          by_cases hlive : isLive s fid = true
          · exact hreset fid (.inr hevent) hlive
          · unfold exec
            rw [hevent]
            change Meets (pdelete s fid) _ _
            rw [pdelete_dead (by simpa using hlive)]
            exact h.ret hcontrol (-1)
      | pcreate count => exact hother fun hlt _ _ hpop => h.created halike hlt hpop
      | start program stackSize priority name => exact hother fun _ _ _ _ _ => trivial
      | waitpid pid retvalp => exact hother fun _ _ _ => trivial
      | pcount fid count => exact hother fun _ _ => trivial
      | psend fid message => exact hother fun _ hnone => by cases hnone
      | preceive fid message =>
          exact hother fun _ _ => ⟨trivial, fun _ hnone => by cases hnone⟩
      | consRead str length => exact hother fun _ => rfl
      | consWrite str size => exact hother fun _ _ _ => trivial
      | clockSettings quartz ticks => exact hother fun _ _ => ⟨trivial, trivial⟩
      | exit _ => exact hother trivial
      | kill _ => exact hother trivial
      | getpid => exact hother trivial
      | getprio _ => exact hother trivial
      | chprio _ _ => exact hother trivial
      | waitClock _ => exact hother trivial
      | currentClock => exact hother trivial
      | consEcho _ => exact hother trivial

/-! ## Frames -/

section Kernel

/-- The running process goes on behind a frame, and a call that is waited for returns 0. -/
theorem Listening.goOn (h : Listening s) (hcontrol : s.control = frame :: rest)
    (hs' : Still { s with control := rest, resetReleases := s'.resetReleases } s')
    (hdown : ∀ q, s.unreleased q → s'.unreleased q)
    (hanswer : ∀ f, rest.head? = some f → f.isOuter = true → s'.eax = 0) : Listening s' where
  live := by
    rw [hs'.stdinFid]
    unfold isLive
    rw [hs'.queues]
    exact h.live
  size := by
    rw [hs'.stdinFid, hs'.queues]
    exact h.size
  control := by
    rw [hs'.control]
    have hchain := h.control
    rw [hcontrol] at hchain
    exact (List.isChain_cons.mp hchain).2.imp fun _ _ hanswered houter =>
      (hanswered houter).imp id fun ⟨q, hq, hwaits⟩ => ⟨q, hq, hdown q hwaits⟩
  answer f hf := by
    rw [hs'.control] at hf
    exact hanswer f hf
  context p hp := by
    rw [hs'.context]
    rw [hs'.runningProcess] at hp
    exact (h.context p hp).imp hdown

theorem Listening.tail (h : Listening s) (hcontrol : s.control = frame :: rest)
    (hret : frame ≠ .ret 0) (hresumes : frame.resumes = none) : Served s.unreleased rest := by
  have hchain := h.control
  rw [hcontrol] at hchain
  exact served_tail hchain hret hresumes

/-- The rules for what the running process does with another stack. -/
theorem Listening.holds (h : Listening s) {frames : List Frame}
    (hframes : Served s.unreleased frames) :
    (userRules s.stdinFid s.runningProcess s.runningProcess none s.unreleased).Holds
      { s with control := frames } where
  stdinFid := rfl
  running := rfl
  live := h.live
  size := h.size
  down _ hq := hq
  control := hframes
  context := h.context
  waiting x a content _ hnone := by cases hnone

/-- The process that is switched out keeps its stack, and the other one takes up its own. -/
theorem Stdin.switch {fid old new : Int} {r : Option Int}
    (h : Stdin fid r (some new) none waits (Served waits) s) (hold : ∀ p, r = some p → old = p) :
    Listening (contextSwitch s old new) := by
  have hcontext : ∀ p, Served waits ((contextSwitch s old new).data p).executionContext := by
    intro p
    unfold contextSwitch Kernel.update
    dsimp only
    by_cases hp : p = old
    · rw [hp, Function.update_self]
      exact h.control
    · rw [Function.update_of_ne hp]
      exact h.context p fun hr => hp (hold p hr).symm
  have hswitched : Stdin fid (some new) (some new) none waits (Served waits)
      (contextSwitch s old new) :=
    { stdinFid := h.stdinFid
      running := h.running
      live := h.live
      size := h.size
      down := h.down
      control := hcontext new
      context := fun p _ => hcontext p
      waiting := fun x a content _ hfalse => by cases hfalse }
  exact hswitched.listening

theorem Listening.schedule (h : Listening s) {phase : SchedulePhase}
    (hcontrol : s.control = .schedule phase :: rest) :
    Meets (scheduleStep mem s phase rest) Listening Elsewhere := by
  have hserved := h.tail hcontrol (by simp) rfl
  have hpopped := h.holds hserved
  have hself : (userRules s.stdinFid s.runningProcess s.runningProcess none
      s.unreleased).Holds s := by
    have hcurrent := h.holds (hserved.push (rfl : (Frame.schedule phase).isOuter = false))
    rwa [← hcontrol] at hcurrent
  have hnext : ∀ next, Listening { s with control := .schedule next :: rest } :=
    fun next => Stdin.listening (h.holds (hserved.push rfl))
  cases phase with
  | zombify =>
      refine zombifyTurn_meets (fun pid stack _ => ?_) fun _ => hnext .destroy
      have htaken : Still s { s with pidsToZombify := stack } :=
        ⟨rfl, fun _ => rfl, rfl, rfl, rfl, rfl, rfl⟩
      refine (zombify_keeps (hself.kept htaken) pid).mono (fun s₁ h₁ => ?_) fun _ he => he
      exact Stdin.listening (Rules.Holds.push h₁ (.schedule .zombify) rfl)
  | destroy =>
      refine destroyTurn_meets (fun pid stack _ => ?_) fun _ => hnext .decide
      have htaken : Still s { s with pidsToDestroy := stack } :=
        ⟨rfl, fun _ => rfl, rfl, rfl, rfl, rfl, rfl⟩
      exact (destroy_keeps (hself.kept htaken) pid).mono (fun s₁ h₁ => Stdin.listening h₁)
        fun _ he => he
  | decide =>
      have hmark : ∀ (s' : Kernel) (new : Int),
          (userRules s.stdinFid s.runningProcess s.runningProcess none s.unreleased).Holds s' →
          (userRules s.stdinFid s.runningProcess (some new) none s.unreleased).Holds
            { s' with runningProcess := some new } :=
        fun s' new h' => { h' with running := rfl }
      exact scheduleDecide_keeps hpopped (Stdin.listening hpopped) hmark
        fun s' old new h' hold => Stdin.switch h' hold

/-! ## The loops of keyboard_data and cons_read -/

/-- The end of a call that the frame `frame` waits for. -/
theorem Answers.listening (hserved : Served s.unreleased rest) {resume : Frame} {pid : Int}
    {blocks : Prop}
    (hresumes : resume.resumes = some pid) (hdown : blocks → s.unreleased pid)
    (hs' : Answers (consoleRules s.stdinFid s.runningProcess s.unreleased (frame :: rest))
      resume blocks s') : Listening s' := by
  have hbelow : (frame :: rest).IsChain (Answered s.unreleased) := by
    refine List.isChain_cons.mpr ⟨fun f hf hf' => ?_, hserved.chain⟩
    rw [hserved.head f hf] at hf'
    cases hf'
  have hfinish : ∀ {s₁ : Kernel}, Stdin s.stdinFid s.runningProcess s.runningProcess none
      s.unreleased (fun control => control = frame :: rest) s₁ → ∀ top : Frame,
      Answered s.unreleased top frame → top.isOuter = false →
      Listening (s₁.callSchedule [top]) := by
    intro s₁ h₁ top htop hnot
    have hcontrol : Served s.unreleased (.schedule .zombify :: top :: s₁.control) := by
      rw [h₁.control]
      refine Served.push ⟨List.isChain_cons.mpr ⟨?_, hbelow⟩, ?_⟩ rfl
      · rintro f ⟨⟩
        exact htop
      · rintro f ⟨⟩
        exact hnot
    have hholds : Stdin s.stdinFid s.runningProcess s.runningProcess none s.unreleased
        (Served s.unreleased) (s₁.callSchedule [top]) :=
      { h₁ with control := hcontrol }
    exact hholds.listening
  cases hs' with
  | @returns s₁ h₁ =>
      have hcontrol : s₁.control = frame :: rest := h₁.control
      have hup : ∀ q, s.unreleased q → s₁.unreleased q := h₁.down
      refine ⟨?_, ?_, ?_, fun _ _ _ => rfl, fun p hp => ?_⟩
      · have hlive := h₁.live
        rwa [← h₁.stdinFid] at hlive
      · have hsize := h₁.size
        rwa [← h₁.stdinFid] at hsize
      · change s₁.control.IsChain (Answered s₁.unreleased)
        rw [hcontrol]
        exact hbelow.imp fun _ _ hanswered hf => (hanswered hf).imp id
          fun ⟨q, hq, hwaits⟩ => ⟨q, hq, hup q hwaits⟩
      · have hrunning : s₁.runningProcess ≠ some p := hp
        rw [h₁.running] at hrunning
        exact (h₁.context p hrunning).imp hup
  | @yields s₁ h₁ => exact hfinish h₁ (.ret 0) (fun _ => .inl rfl) rfl
  | @blocks s₁ h₁ hblocks =>
      refine hfinish h₁ resume (fun _ => .inr ⟨pid, hresumes, hdown hblocks⟩) ?_
      cases resume with
      | psendResume _ => rfl
      | preceiveResume _ => rfl
      | _ => cases hresumes

private theorem Listening.console (h : Listening s) :
    (consoleRules s.stdinFid s.runningProcess s.unreleased (frame :: rest)).Holds
      { s with control := frame :: rest } where
  stdinFid := rfl
  running := rfl
  live := h.live
  size := h.size
  down _ hq := hq
  control := rfl
  context := h.context
  waiting x a content _ hnone := by cases hnone

theorem Listening.keyboardData (h : Listening s) {str : List Int}
    (hcontrol : s.control = .keyboardData str :: rest)
    (hstale : blocksInConsole s → s.resetReleases (s.getpid - 1) = false) :
    Meets (keyboardData mem { s with control := rest } str) Listening Elsewhere := by
  have hserved := h.tail hcontrol (by simp) rfl
  have hpopped : Listening { s with control := rest } := Stdin.listening (h.holds hserved)
  cases str with
  | nil => exact hpopped
  | cons c str =>
      unfold SchlagOS.keyboardData
      rw [meets_bind, meets_require]
      refine ⟨fun hlive => ?_, fun hdead => absurd h.live hdead⟩
      rw [meets_ite]
      refine ⟨fun _ => hpopped, fun hroom => ?_⟩
      have hsent : (consoleRules s.stdinFid s.runningProcess s.unreleased
          (.keyboardSent str :: rest)).Holds { s with control := .keyboardSent str :: rest } :=
        h.console
      refine (psend_answers hsent c hlive
        fun _ hnone => by cases hnone).mono (fun s' hs' => ?_) fun _ he => he
      refine Answers.listening hserved rfl (fun hfull => hstale ?_) hs'
      unfold blocksInConsole
      rw [hcontrol]
      exact ⟨h.live, Int.not_lt.mp hroom, hfull⟩

theorem Listening.consReadNext (h : Listening s) {str : Int} {length index : Nat}
    (hcontrol : s.control = .consRead str length index :: rest)
    (hstale : blocksInConsole s → s.resetReleases (s.getpid - 1) = false) :
    Meets (consReadNext mem { s with control := rest } str length index) Listening Elsewhere := by
  have hserved := h.tail hcontrol (by simp) rfl
  unfold SchlagOS.consReadNext
  rw [meets_ite]
  constructor
  · intro hindex
    have hreceived : (consoleRules s.stdinFid s.runningProcess s.unreleased
        (.consReceived str length index :: rest)).Holds
          { s with control := .consReceived str length index :: rest } := h.console
    refine (preceive_answers hreceived h.live trivial fun _ hnone => by cases hnone).mono (fun s' hs' => ?_) fun _ he => he
    refine Answers.listening hserved rfl (fun hempty => hstale ?_) hs'
    unfold blocksInConsole
    rw [hcontrol]
    exact ⟨hindex, hempty⟩
  · intro _
    exact Stdin.listening ((h.holds hserved).ret index)

theorem Listening.keyboardSent (h : Listening s) {str : List Int}
    (hcontrol : s.control = .keyboardSent str :: rest) :
    Meets (keyboardSent { s with control := rest } str) Listening Elsewhere := by
  have hserved := h.tail hcontrol (by simp) rfl
  have hanswer := h.answer (.keyboardSent str) (by rw [hcontrol]; rfl) rfl
  unfold SchlagOS.keyboardSent
  rw [meets_bind, meets_require]
  refine ⟨fun _ => ?_, fun hresult => absurd hanswer hresult⟩
  exact Stdin.listening (h.holds (hserved.push rfl))

theorem Listening.consReceived (h : Listening s) {str : Int} {length index : Nat}
    (hcontrol : s.control = .consReceived str length index :: rest) :
    Meets (consReceived { s with control := rest } str length index) Listening Elsewhere := by
  have hserved := h.tail hcontrol (by simp) rfl
  have hanswer := h.answer (.consReceived str length index) (by rw [hcontrol]; rfl) rfl
  have hpopped := h.holds hserved
  have hloop : ∀ i, Listening { s with control := .consRead str length i :: rest } :=
    fun i => Stdin.listening (h.holds (hserved.push rfl))
  unfold SchlagOS.consReceived
  rw [meets_bind, meets_require]
  refine ⟨fun _ => ?_, fun hresult => absurd hanswer hresult⟩
  dsimp only
  rw [meets_ite]
  refine ⟨fun _ => Stdin.listening (hpopped.ret index), fun _ => ?_⟩
  rw [meets_ite]
  refine ⟨fun _ => hloop (index - 1), fun _ => ?_⟩
  rw [meets_ite]
  refine ⟨fun _ => ?_, fun _ => hloop index⟩
  have hnext := hloop (index + 1)
  exact ⟨hnext.live, hnext.size, hnext.control, hnext.answer, hnext.context⟩

theorem Listening.kernelStep (h : Listening s) (hsome : s.control ≠ [])
    (hstale : blocksInConsole s → s.resetReleases (s.getpid - 1) = false) :
    Meets (kernelStep mem s) Listening Elsewhere := by
  obtain ⟨frame, rest, hcontrol⟩ := List.exists_cons_of_ne_nil hsome
  have hchain := h.control
  rw [hcontrol] at hchain
  have hbelow := (List.isChain_cons.mp hchain).1
  have hresume : ∀ q, frame.resumes = some q →
      Listening (messageResume { s with control := rest } q) := by
    intro q hq
    have hflag : ∀ f, rest.head? = some f → f.isOuter = true → s.resetReleases (q - 1) = false := by
      intro f hf houter
      rcases hbelow f hf houter with hret | ⟨q', hq', hdown⟩
      · rw [hret] at hq
        cases hq
      · rw [hq, Option.some_inj] at hq'
        rwa [hq']
    unfold messageResume
    split_ifs with hset
    · refine h.goOn hcontrol ⟨rfl, fun _ => rfl, rfl, rfl, rfl, rfl, rfl⟩ (fun p hp => ?_)
        fun f hf houter => ?_
      · change Function.update s.resetReleases (q - 1) false (p - 1) = false
        rw [Function.update_apply]
        split
        · rfl
        · exact hp
      · have hset' : s.resetReleases (q - 1) = true := hset
        rw [hflag f hf houter] at hset'
        cases hset'
    · exact h.goOn hcontrol ⟨rfl, fun _ => rfl, rfl, rfl, rfl, rfl, rfl⟩ (fun _ hp => hp)
        fun _ _ _ => rfl
  have hprimitive : ∀ (_ : frame.isPrimitive = true) (_ : frame ≠ .ret 0)
      (_ : frame.resumes = none), Meets (SchlagOS.kernelStep mem s) Listening Elsewhere := by
    intro hprimitive hret hresumes
    have hholds := h.holds (h.tail hcontrol hret hresumes)
    exact (frame_keeps (userRules_calls _ _ _ _ _) hcontrol hprimitive
      (fun _ _ _ => trivial) hholds).mono (fun _ h' => Stdin.listening h') fun _ he => he
  unfold SchlagOS.kernelStep at hprimitive ⊢
  rw [hcontrol] at hprimitive ⊢
  dsimp only at hprimitive ⊢
  cases frame with
  | schedule phase => exact h.schedule hcontrol
  | startReturn pid => exact hprimitive rfl (by simp) rfl
  | exitLoop => exact h
  | ret value =>
      refine h.goOn hcontrol ⟨rfl, fun _ => rfl, rfl, rfl, rfl, rfl, rfl⟩ (fun _ hp => hp)
        fun f hf houter => ?_
      rcases hbelow f hf houter with hret | ⟨q, hq, -⟩
      · exact Frame.ret.inj hret
      · cases hq
  | waitpidAny pid retvalp => exact hprimitive rfl (by simp) rfl
  | waitpidOne pid retvalp => exact hprimitive rfl (by simp) rfl
  | psendResume pid => exact hresume pid rfl
  | preceiveResume pid => exact hresume pid rfl
  | clockTick => exact hprimitive rfl (by simp) rfl
  | keyboardData str => exact h.keyboardData hcontrol hstale
  | keyboardSent str => exact h.keyboardSent hcontrol
  | consRead str length index => exact h.consReadNext hcontrol hstale
  | consReceived str length index => exact h.consReceived hcontrol

end Kernel

/-! ## Runs -/

theorem Listening.exec (h : Listening s) (halike : Alike s s) (henabled : step.enabled s)
    (hok : SparesStdin s step) : Meets (exec step s) Listening Elsewhere := by
  by_cases hkernel : step.event = .kernel
  · unfold Step.enabled at henabled
    rw [hkernel] at henabled
    unfold SchlagOS.exec
    rw [hkernel]
    exact h.kernelStep henabled hok.stale
  · refine h.user halike hok ?_ hkernel
    unfold Step.enabled at henabled
    cases hevent : step.event with
    | init stackSize priority =>
        rw [hevent] at henabled
        exact henabled.1
    | call call =>
        rw [hevent] at henabled
        exact henabled.1
    | tick =>
        rw [hevent] at henabled
        exact henabled
    | key str =>
        rw [hevent] at henabled
        exact henabled
    | kernel => exact absurd hevent hkernel

theorem booted_listening : Listening booted where
  live := by decide
  size := rfl
  control := .nil
  answer f hf := by cases hf
  context p hp := by
    have hone : p ≠ 1 := fun heq => hp (heq ▸ rfl)
    have hdata : booted.data p = noProcess := Function.update_of_ne hone _ _
    rw [hdata]
    exact .nil

/-- The queue of the console is live, and its assertions hold in the next step. -/
structure ConsoleServed (s : Kernel) : Prop where
  live : isLive s s.stdinFid = true
  size : (s.queues s.stdinFid).size = keyBufferSize
  asserts : ∀ step e, step.enabled s → SparesStdin s step → exec step s = .error e →
    e ≠ .keyboardPcount ∧ e ≠ .keyboardPsend ∧ e ≠ .consReadPreceive

theorem stdin_served (h : Running SparesStdin s) : ConsoleServed s := by
  have halike : ∀ s, Reach machine booted SparesStdin s → Alike s s :=
    fun s hreach => Running.alike ⟨booted, kernelStart_eq, hreach⟩
  obtain ⟨start, hboot, hreach⟩ := h
  rw [kernelStart_eq, Except.ok.injEq] at hboot
  subst hboot
  have hlistening : Listening s := hreach.invariant (I := Listening) booted_listening
    fun s step s' hreach hs henabled hok hrun =>
      (hs.exec (halike s hreach) henabled hok).of_ok hrun
  refine ⟨hlistening.live, hlistening.size, fun step e henabled hok hrun => ?_⟩
  have he : e.ofConsole = false :=
    (hlistening.exec (halike s hreach) henabled hok).of_error hrun
  refine ⟨?_, ?_, ?_⟩
  all_goals
    rintro rfl
    cases he

instance (s : Kernel) : Decidable (blocksInConsole s) := by
  unfold blocksInConsole
  split
  all_goals infer_instance

/-- Neither `preset` nor `pdelete`. -/
def Event.keepsQueues : Event → Bool
  | .call (.preset _) => false
  | .call (.pdelete _) => false
  | _ => true

private theorem typed_run : ∃ s, Running SparesStdin s ∧
    decide (s.eax = 1 ∧
      s.userAccesses = [.readByte 0x1000000, .writeByte 0x1000000 97]) = true := by
  have hrun : ∃ s, Running (fun s step => step.event.keepsQueues = true ∧
      (blocksInConsole s → s.resetReleases (s.getpid - 1) = false)) s ∧
      decide (s.eax = 1 ∧
        s.userAccesses = [.readByte 0x1000000, .writeByte 0x1000000 97]) = true :=
    Running.computed ([Event.init 4096 128, .call (.start 0x1000000 4096 100 ⟨0x1000000, 0⟩),
      .call (.consRead 0x1000000 1), .key [97, 98]].map Event.step) [] (by decide +kernel)
  obtain ⟨s, hrun, htest⟩ := hrun
  refine ⟨s, hrun.mono fun s step hs => ⟨?_, ?_, hs.2⟩, htest⟩
  · intro hevent
    have hkeeps := hs.1
    rw [hevent] at hkeeps
    cases hkeeps
  · rintro fid hevent
    have hkeeps := hs.1
    rcases hevent with hevent | hevent
    · rw [hevent] at hkeeps
      cases hkeeps
    · rw [hevent] at hkeeps
      cases hkeeps

/-- Process 2 reads a key that is pressed while process 3 runs. -/
theorem stdin_served_run : ∃ s : Kernel, s.eax = 1 ∧
    s.userAccesses = [.readByte 0x1000000, .writeByte 0x1000000 97] ∧ ConsoleServed s := by
  obtain ⟨s, hrun, htest⟩ := typed_run
  have heffect := of_decide_eq_true htest
  exact ⟨s, heffect.1, heffect.2, stdin_served hrun⟩

/-- A user process deletes queue 0, and the next key press makes the kernel panic. -/
theorem stdin_deleted : ¬∀ s, Running (fun _ _ => True) s →
    isLive s s.stdinFid = true ∧ (s.queues s.stdinFid).size = keyBufferSize ∧
      ∀ step e, step.enabled s → exec step s = .error e →
        e ≠ .keyboardPcount ∧ e ≠ .keyboardPsend ∧ e ≠ .consReadPreceive := by
  intro hall
  have hrun : ∃ s, Running (fun _ _ => True) s ∧
      decide (Event.kernel.step.enabled s ∧
        errorAnd (fun e => decide (e = .keyboardPcount)) (exec Event.kernel.step s) = true) = true :=
    Running.computed ([Event.init 4096 128, .call (.pdelete 0)].map Event.step)
      [(Event.key [97]).step] (by decide +kernel)
  obtain ⟨s, hrun, htest⟩ := hrun
  obtain ⟨henabled, hpanic⟩ := of_decide_eq_true htest
  obtain ⟨e, hexec, he⟩ := errorAnd_iff.mp hpanic
  exact ((hall s hrun).2.2 _ e henabled hexec).1 (of_decide_eq_true he)

end SchlagOS
