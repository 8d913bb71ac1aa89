import SchlagOS.Invariant.Effect

/-!
# Births and deaths

`start`, `exit` and `kill` keep the invariant.
-/

namespace SchlagOS

open Foundation

variable {s : Kernel} {step : Step} {r p : Int} {except : Int → Prop}

theorem isReady_iff (state : ProcessState) :
    state.isReady = true ↔ state = .unset ∨ state = .running ∨ state = .waiting := by
  cases state <;> decide

/-! ## request_zombify -/

/-- The part of the invariant that `request_zombify` needs. -/
structure Dying (s : Kernel) (r p : Int) : Prop where
  getpid : s.getpid = r
  isPid : IsPid p
  alone : s.view.state p = .running → p = r
  awake : s.view.state r ≠ .waiting
  zombies : ∀ x ∈ s.view.toZombify, IsPid x
  ready : ReadyQueue s.view.state s.view.priority s.view.processQueue
  pending : Pending s.view.state s.view.dead s.view.isSealed s.view.toZombify
    s.view.toDestroy r
  locked : Locked s.view.state s.view.priority s.view.call s.view.queues

theorem Core.dying {except : Int → Prop} (h : Core s.view r except)
    (hp : IsPid p) : Dying s r p where
  getpid := h.getpid_eq
  isPid := hp
  alone := h.alone p
  awake := h.awake
  zombies x hx := by
    have hzombie := ((h.pending.mem_zombify x).mp hx).1
    apply h.isPid
    rw [hzombie]
    decide
  ready := h.ready
  pending := h.pending
  locked := h.locked

/-- What `request_zombify` does to the tables. -/
structure Died (v v' : View) (p : Int) : Prop where
  view : v' = { v with
    state := Function.update v.state p .zombie
    toZombify := v.toZombify ++ [p]
    processQueue := v'.processQueue
    queues := v'.queues }
  queue : v.state p ≠ .waiting → v'.processQueue = v.processQueue
  ready : ReadyQueue (Function.update v.state p .zombie) v.priority v'.processQueue
  locked : Locked (Function.update v.state p .zombie) v.priority v.call v'.queues
  queues : Rearranged (fun xs => xs.eraseP (isOf p)) v.queues v'.queues

/-- The part of `request_zombify` behind the ready queue. -/
private theorem dropAndDie_meets {processQueue : LinkQueue Int}
    {pidsToZombify : ArrayStack Int} (h : Dying s r p)
    (hpush : pidsToZombify.entries = s.view.toZombify ++ [p])
    (hqueue : s.view.state p ≠ .waiting → processQueue = s.view.processQueue)
    (hready : ReadyQueue (Function.update s.view.state p .zombie) s.view.priority
      processQueue) :
    Meets (do
        let s ← messageQueuesNotifyProcessusKilled
          { s with pidsToZombify := pidsToZombify, processQueue := processQueue } p
        return s.update p fun p => { p with state := .zombie })
      (fun s' => s'.rest = s.rest ∧ Died s.view s'.view p) (Excused False False) := by
  unfold messageQueuesNotifyProcessusKilled
  rw [meets_bind, meets_bind]
  refine (h.locked.drop (p := p) (b := .zombie) (by decide)).mono ?_ fun e he => he
  rintro queues ⟨hlocked, hqueues⟩
  rw [meets_pure, meets_pure]
  set s₁ : Kernel := { s with
    pidsToZombify := pidsToZombify, processQueue := processQueue, queues := queues } with hs₁
  have hview₁ : s₁.view = { s.view with
      toZombify := s.view.toZombify ++ [p], processQueue := processQueue, queues := queues } := by
    rw [← hpush]
    rfl
  have hview : (s₁.update p fun q => { q with state := .zombie }).view =
      { s.view with
        state := Function.update s.view.state p .zombie
        toZombify := s.view.toZombify ++ [p]
        processQueue := processQueue
        queues := queues } := by
    rw [s₁.view_update p _ rfl]
    simp only [Kernel.update_pid_self, Kernel.update_father_self, Kernel.update_childs_self,
      Kernel.update_priority_self, Kernel.update_dead_self, Kernel.update_sealed_self,
      Kernel.update_code_self]
    rw [hview₁]
  refine ⟨s₁.rest_update p _ rfl, ?_⟩
  rw [hview]
  exact ⟨rfl, hqueue, hready, hlocked, hqueues⟩

theorem requestZombify_meets (h : Dying s r p) (halive : s.view.state p ≠ .zombie) :
    Meets (requestZombify s p)
      (fun s' => s'.rest = s.rest ∧ Died s.view s'.view p ∧
        ¬(s.view.state p = .unset ∧ p ≠ r))
      (Excused False (s.view.state p = .unset ∧ p ≠ r)) := by
  have hstate : (s.data p).state ≠ .zombie := halive
  have hnot : p ∉ s.pidsToZombify.entries := fun hmem =>
    halive ((h.pending.mem_zombify p).mp hmem).1
  have hpush := pushPending_eq h.pending.nodup_zombify h.zombies h.isPid hnot
  have hentries : (s.pidsToZombify.push p).entries = s.view.toZombify ++ [p] := by
    simp
    rfl
  unfold requestZombify
  rw [getProcess_eq h.isPid, ok_bind, require_pos hstate, ok_bind, hpush, ok_bind]
  dsimp only
  have hgetpid : ({ s with pidsToZombify := s.pidsToZombify.push p } : Kernel).getpid = r :=
    h.getpid
  rw [hgetpid]
  by_cases hready : p ≠ r ∧ (s.data p).state.isReady
  · rw [if_pos hready]
    rcases (isReady_iff _).mp hready.2 with hunset | hrunning | hwaiting
    · have hdel : s.processQueue.del p = none := h.ready.del_eq_none (by
        intro heq
        have heq' : (s.data p).state = .waiting := heq
        rw [hunset] at heq'
        cases heq')
      unfold queueDel
      rw [hdel, demand_none, error_bind, error_bind, meets_error]
      exact ⟨hunset, hready.1⟩
    · exact absurd (h.alone hrunning) hready.1
    · obtain ⟨queue, hdel, hqueue⟩ := h.ready.del (b := .zombie) hwaiting (by decide)
      have hdel' : s.processQueue.del p = some queue := hdel
      unfold queueDel
      rw [hdel', demand_some, ok_bind, pure_eq_ok, ok_bind]
      refine (dropAndDie_meets h hentries (fun hne => absurd hwaiting hne) hqueue).mono
        (fun s' hs' => ⟨hs'.1, hs'.2, fun hunset => ?_⟩) fun e he => he.mono id False.elim
      have hunset' : (s.data p).state = .unset := hunset.1
      rw [hwaiting] at hunset'
      cases hunset'
  · rw [if_neg hready, pure_eq_ok, ok_bind]
    have hwaiting : s.view.state p ≠ .waiting := by
      intro hwaiting
      apply hready
      refine ⟨fun heq => h.awake (heq ▸ hwaiting), ?_⟩
      rw [isReady_iff]
      exact .inr (.inr hwaiting)
    refine (dropAndDie_meets h hentries (fun _ => rfl)
      (h.ready.move hwaiting (by decide))).mono (fun s' hs' => ⟨hs'.1, hs'.2, fun hunset => ?_⟩)
        fun e he => he.mono id False.elim
    apply hready
    refine ⟨hunset.2, ?_⟩
    rw [isReady_iff]
    exact .inl hunset.1

/-! ## exit and kill -/

theorem Kernel.view_setReturnCode (s : Kernel) (p value : Int) :
    (s.update p fun q => { q with returnCode := value }).view = s.view :=
  s.view_update_hidden p (fun q => { q with returnCode := value }) rfl rfl rfl rfl rfl rfl rfl
    rfl rfl

theorem Kernel.rest_setReturnCode (s : Kernel) (p value : Int) :
    (s.update p fun q => { q with returnCode := value }).rest =
      { s.rest with returnCode := Function.update s.rest.returnCode p value } := by
  rw [s.rest_write p fun q => { q with returnCode := value }]
  simp

/-- A process that dies is in use before. -/
theorem Died.used {v v' : View} {p x : Int} (h : Died v v' p) (hp : v.state p ≠ .unset)
    (hx : v'.state x ≠ .unset) : v.state x ≠ .unset := by
  rw [h.view] at hx
  by_cases hxp : x = p
  · rwa [hxp]
  · simpa [hxp] using hx

theorem exit_meets (h : Settled s r) (hone : r ≠ 1) (retval : Int) :
    Meets (exit s retval) (fun s' => After step s s' r) (Excused False False) := by
  have hgetpid := h.core.getpid_eq
  have hr := h.running
  set s₀ := s.update r fun p => { p with returnCode := retval } with hs₀
  have hview₀ : s₀.view = s.view := s.view_setReturnCode r retval
  have hrest₀ := s.rest_setReturnCode r retval
  have hcore₀ : Core s₀.view r fun _ => False := by
    rw [hview₀]
    exact h.core
  have hused : s₀.view.state r ≠ .unset := hcore₀.self
  have halive : s₀.view.state r ≠ .zombie := by
    rw [hview₀, hr]
    decide
  unfold exit
  rw [hgetpid]
  dsimp only
  rw [meets_bind]
  refine (requestZombify_meets (hcore₀.dying (hcore₀.isPid hused)) halive).mono ?_
    fun e he => he.mono id fun hunset => absurd rfl hunset.2
  rintro s₁ ⟨hrest, hdied, -⟩
  rw [meets_pure]
  have hview := hdied.view
  have hqueue := hdied.queue (by rw [hview₀, hr]; decide)
  rw [hview₀] at hview hqueue
  rw [hqueue] at hview
  have hcore₁ : Core s₁.view r fun _ => False := by
    have hdie := hcore₀.die hused halive (by rw [hview₀, hr]; decide) hdied.ready hdied.locked
      hdied.queues.allocated_eq (hcore₀.sleepers.move (by rw [hview₀, hr]; decide)
        (by decide))
    rwa [hdied.view]
  have hcontrol : s₁.control = s.control := congrArg Rest.control hrest
  have hcontext : ∀ p, (s₁.data p).executionContext = (s.data p).executionContext := by
    intro p
    exact (congrFun (congrArg Rest.context hrest) p).trans
      (congrFun (congrArg Rest.context hrest₀) p)
  have hlog : (s₁.record (.terminated r retval)).log =
      { s.log.record (.terminated r retval) with
        returnCode := Function.update s.log.returnCode r retval } := by
    unfold Kernel.log
    rw [Kernel.rest_record, hrest, hrest₀]
    rfl
  have hzombie : s₁.view.state r = .zombie := by
    rw [hview]
    simp
  have hafter := h.after step (s₁.record (.terminated r retval)) hcore₁
    (fun p hp => .inr ⟨by
      have hp' := hdied.used hused hp
      rwa [hview₀] at hp', hcontext p⟩)
    ⟨by rw [Kernel.view_record, hzombie]; decide,
      by rw [Kernel.view_record, hzombie]; decide⟩
    true (some .exitLoop) s₁.eax (by rintro f ⟨⟩; exact ⟨rfl, rfl⟩)
    (fun heq => absurd heq hone) (.inl ⟨rfl, hone⟩)
    (by rw [Kernel.view_record, hview]; exact h.alive)
    (by
      rw [hlog, Kernel.view_record, hview]
      refine .exit hone ?_ (h.plain_top (by rintro f ⟨⟩; exact ⟨rfl, rfl⟩))
      have hqueues := hdied.queues
      rwa [hview₀] at hqueues)
    (.inl rfl)
  rw [← hcontrol] at hafter
  exact hafter

/-- The end of `kill`, when a sleeping process has left the array. -/
private theorem killBehind_meets (h : Settled s r) (hone : r ≠ 1)
    (hevent : step.event = .call (.kill p)) (hpid : IsPid p)
    (hfound : s.view.pid p ≠ processNotFoundCode) (halive : s.view.state p ≠ .zombie)
    {pidsWaiting : ArrayStack Int}
    (hsleepers : Sleepers (Function.update s.view.state p .zombie) pidsWaiting.entries) :
    Meets (do
        let s := ({ s with pidsWaiting := pidsWaiting } : Kernel).update p fun p =>
          { p with returnCode := 0 }
        let s ← requestZombify s p
        return (s.record (.terminated p 0)).callSchedule [.ret 0])
      (fun s' => After step s s' r)
      (Excused False (s.view.state p = .unset ∧ s.view.pid p ≠ processNotFoundCode)) := by
  set s₀ := ({ s with pidsWaiting := pidsWaiting } : Kernel).update p
    fun p => { p with returnCode := 0 } with hs₀
  have hview₀ : s₀.view = { s.view with sleeping := pidsWaiting.entries } :=
    Kernel.view_setReturnCode _ p 0
  have hrest₀ : s₀.rest =
      { s.rest with returnCode := Function.update s.rest.returnCode p 0 } :=
    Kernel.rest_setReturnCode _ p 0
  have hdying : Dying s₀ r p := by
    have hold := h.core.dying (p := p) hpid
    have hgetpid : s₀.getpid = r := by
      have hpids : (s₀.data r).pid = s₀.view.pid r := rfl
      have hrunning : s₀.runningProcess = some r := h.core.running
      unfold Kernel.getpid
      rw [hrunning]
      dsimp only
      rw [hpids, hview₀]
      exact h.core.pid_eq h.core.self
    constructor
    · exact hgetpid
    · exact hpid
    all_goals rw [hview₀]
    · exact hold.alone
    · exact hold.awake
    · exact hold.zombies
    · exact hold.ready
    · exact hold.pending
    · exact hold.locked
  have hstate₀ : s₀.view.state = s.view.state := by rw [hview₀]
  dsimp only
  rw [meets_bind]
  refine (requestZombify_meets hdying (by rwa [hstate₀])).mono ?_ ?_
  · rintro s₁ ⟨hrest, hdied, hused₀⟩
    rw [meets_pure]
    have hunset : s.view.state p ≠ .unset := by
      intro hunset
      apply hused₀
      refine ⟨by rwa [hstate₀], fun hpr => ?_⟩
      rw [hpr, h.running] at hunset
      cases hunset
    have hview := hdied.view
    have hready := hdied.ready
    have hlocked := hdied.locked
    have hqueues := hdied.queues
    rw [hview₀] at hview hready hlocked hqueues
    have hcore : Core s₁.view r fun _ => False := by
      rw [hview]
      exact h.core.die hunset halive (by rw [h.running]; decide) hready hlocked
        hqueues.allocated_eq hsleepers
    have hcontrol : s₁.control = s.control := congrArg Rest.control hrest
    have hlog : (s₁.record (.terminated p 0)).log =
        { s.log.record (.terminated p 0) with
          returnCode := Function.update s.log.returnCode p 0 } := by
      unfold Kernel.log
      rw [Kernel.rest_record, hrest, hrest₀]
      rfl
    have hcontext : ∀ x, s₁.view.state x ≠ .unset →
        (s₁.data x).executionContext = [] ∨ (s.view.state x ≠ .unset ∧
          (s₁.data x).executionContext = (s.data x).executionContext) := by
      intro x hx
      have hused := hdied.used (by rwa [hstate₀]) hx
      rw [hstate₀] at hused
      exact .inr ⟨hused, (congrFun (congrArg Rest.context hrest) x).trans
        (congrFun (congrArg Rest.context hrest₀) x)⟩
    have hstate : s₁.view.state r = .zombie ∨ s₁.view.state r = .running := by
      rw [hview]
      by_cases hrp : r = p
      · simp [hrp]
      · simp [hrp, h.running]
    have hafter := h.after step (s₁.record (.terminated p 0)) hcore hcontext
      (by rcases hstate with hr | hr <;> rw [Kernel.view_record, hr] <;> decide)
      true (some (.ret 0)) s₁.eax (by rintro f ⟨⟩; exact ⟨rfl, rfl⟩)
      (fun heq => absurd heq hone) (.inl ⟨rfl, hone⟩)
      (by rw [Kernel.view_record, hview]; exact h.alive)
      (by
        rw [hlog, Kernel.view_record, hview]
        exact .kill hevent hunset halive hqueues
          (h.plain_top (by rintro f ⟨⟩; exact ⟨rfl, rfl⟩)))
      (.inl rfl)
    rw [← hcontrol] at hafter
    exact hafter
  · refine fun e he => he.mono id ?_
    rw [hstate₀]
    exact fun hunset => ⟨hunset.1, hfound⟩

theorem kill_meets (h : Settled s r) (hone : r ≠ 1) (hevent : step.event = .call (.kill p))
    (hlast : s.view.state p = .sleeping →
      s.pidsWaiting.cells (s.pidsWaiting.count - 1) = p) :
    Meets (kill s p) (fun s' => After step s s' r)
      (Excused False (s.view.state p = .unset ∧ s.view.pid p ≠ processNotFoundCode)) := by
  unfold kill
  rw [meets_ite]
  refine ⟨fun _ => h.ret (-1), fun hrange => ?_⟩
  have hpid : IsPid p := by
    constructor <;> omega
  rw [getProcess_eq hpid, ok_bind, meets_ite]
  refine ⟨fun _ => h.ret (-1), fun hnot => ?_⟩
  obtain ⟨hfound, halive⟩ := not_or.mp hnot
  dsimp only
  rw [meets_ite]
  refine ⟨fun hsleeping => ?_, fun hsleeping => ?_⟩
  · have hmem : p ∈ s.pidsWaiting.entries := (h.core.sleepers.2 p).mpr hsleeping
    have hcount : s.pidsWaiting.count ≠ 0 := by
      intro hzero
      rw [s.pidsWaiting.entries_eq_nil.mpr hzero] at hmem
      simp at hmem
    have hentries := s.pidsWaiting.entries_eq_concat hcount processNotFoundCode
    rw [hlast hsleeping] at hentries
    have hperm : s.view.sleeping.Perm
        (p :: (s.pidsWaiting.shrink processNotFoundCode).entries) := by
      change s.pidsWaiting.entries.Perm _
      rw [hentries]
      exact List.perm_append_singleton _ _
    rw [require_pos (Nat.pos_of_ne_zero hcount), ok_bind, pure_eq_ok, ok_bind]
    exact killBehind_meets h hone hevent hpid hfound halive
      (h.core.sleepers.leave hperm (by decide))
  · rw [pure_eq_ok, ok_bind]
    exact killBehind_meets h hone hevent hpid hfound halive
      (h.core.sleepers.move hsleeping (by decide))

/-! ## start -/

/-- The slot that `start` writes before it knows whether there is memory. -/
def View.slot (v : View) (r p priority : Int) : View :=
  { v with
    pid := Function.update v.pid p p
    father := Function.update v.father p r
    childs := Function.update v.childs p []
    priority := Function.update v.priority p priority
    dead := Function.update v.dead p false
    call := Function.update v.call p [] }

def Rest.slot (rest : Rest) (p : Int) : Rest :=
  { rest with
    context := Function.update rest.context p []
    returnCode := Function.update rest.returnCode p 0 }

private theorem Rest.slot_context (rest : Rest) (p x : Int) :
    (rest.slot p).context x = [] ∨ (rest.slot p).context x = rest.context x := by
  unfold Rest.slot
  by_cases hx : x = p
  · left
    rw [hx]
    exact Function.update_self _ _ _
  · right
    exact Function.update_of_ne hx _ _

private theorem alive_slot (h : Settled s r) (hfree : freePid s.view.state p) :
    Function.update s.view.dead p false 1 = false := by
  have hdead : s.view.dead p = false :=
    h.core.pending.dead_eq_false (by rw [hfree.2]; decide)
  have hself : Function.update s.view.dead p false = s.view.dead := by
    rw [← hdead, Function.update_eq_self]
  rw [hself]
  exact h.alive

private theorem ne_of_free (h : Settled s r) (hfree : freePid s.view.state p) : p ≠ r := by
  intro heq
  have hunset := hfree.2
  rw [heq, h.running] at hunset
  cases hunset

/-- `start` has failed for lack of memory. -/
private theorem startFails_after (h : Settled s r) {s₁ : Kernel} (priority : Int)
    {pids : LockedRing Int} {free : List Int}
    (hstarts : step.event.starts s.view.currentSize)
    (hmem : step.mem.kernelStack = false ∨ step.mem.userStack = false)
    (hfree : freePid s.view.state p) (horder : s.view.freePids = p :: free)
    (horder' : pids.toList processTableMaxSize (processTableMaxSize - s.view.currentSize) =
      free ++ [p])
    (hview : s₁.view = { s.view.slot r p priority with pids := pids })
    (hrest : s₁.rest = { (s.rest.slot p).record (.notStarted p) with
      stackData := s₁.stackData })
    (hwasted : s.stackData.Wasted s₁.stackData p)
    (hpool : Pool processTableMaxSize pids s.view.currentSize (freePid s.view.state)) :
    After step s (s₁.ret (-1)) r := by
  have hpr := ne_of_free h hfree
  have hcore : Core s₁.view r fun _ => False := by
    rw [hview]
    exact h.core.startFails hfree h.running priority hpool
  have hcontrol : s₁.control = s.control := congrArg Rest.control hrest
  have halive := alive_slot h hfree
  have hafter := h.after step s₁ hcore
    (by
      intro x hx
      have hcontext : s₁.rest.context = (s.rest.slot p).context := by rw [hrest]; rfl
      have hslot := s.rest.slot_context p x
      rw [← hcontext] at hslot
      rw [hview] at hx
      exact hslot.imp_right fun heq => ⟨hx, heq⟩)
    (by rw [hview]; change s.view.state r ≠ _ ∧ s.view.state r ≠ _; rw [h.running]; decide)
    false none (-1) (by simp) (by simp)
    (.inr (by rw [hview]; exact h.running))
    (by rw [hview]; exact halive)
    (by
      have hlog : s₁.log = { s.log.record (.notStarted p) with
          returnCode := Function.update s.log.returnCode p 0
          stackData := s₁.stackData } := congrArg Rest.log hrest
      rw [hview, hlog]
      exact .startFails hstarts hmem hfree hpr horder horder' hwasted (h.plain_top (by simp)))
    (.inr (by
      intro hlaw x hx
      rw [hview] at hx ⊢
      change s.view.state x = .waiting at hx
      have hxp : x ≠ p := by
        intro heq
        rw [heq, hfree.2] at hx
        cases hx
      change Function.update s.view.priority p priority x ≤
        Function.update s.view.priority p priority r
      rw [Function.update_of_ne hxp, Function.update_of_ne (Ne.symm hpr)]
      exact hlaw x hx))
  rw [← hcontrol] at hafter
  exact hafter

/-- Reading the name changes nothing that the invariants see. -/
theorem Kernel.view_readName (s : Kernel) (name : Option UserString) :
    (s.readName name).view = s.view := by
  cases name with
  | none => rfl
  | some name => rfl

theorem Kernel.rest_readName (s : Kernel) (name : Option UserString) :
    (s.readName name).rest = s.rest := by
  cases name with
  | none => rfl
  | some name => rfl

/-- What a `start` that succeeds does to the tables. -/
structure Started (s s' : Kernel) (r p priority : Int) : Prop where
  order : s.view.freePids = p :: s'.view.freePids
  view : s'.view = { s.view.slot r p priority with
    state := Function.update s.view.state p .waiting
    childs := Function.update (Function.update s.view.childs p []) r (p :: s.view.childs r)
    call := Function.update (Function.update s.view.call p []) r
      (.startReturn p :: s.control)
    pids := s'.view.pids
    currentSize := s.view.currentSize + 1
    processQueue := s'.view.processQueue }
  control : s'.control = topFrames (decide (s.view.priority r < priority))
    (some (.startReturn p)) ++ s.control

/-- The new process `p` is in the queue; `pids` is the ring of the free pids. -/
structure Readied (s s' : Kernel) (r p priority : Int) (pids : LockedRing Int) (size : Nat)
    (queue : LinkQueue Int) : Prop where
  view : s'.view = { s.view.slot r p priority with
    state := Function.update s.view.state p .waiting
    childs := Function.update (Function.update s.view.childs p []) r (p :: s.view.childs r)
    pids := pids
    currentSize := s.view.currentSize + 1
    processQueue := queue }
  rest : s'.rest = { (s.rest.slot p).record (.started r p) with
    stackData := s.stackData.give p size }

namespace Readied

variable {s₁ s₂ : Kernel} {priority : Int} {pids : LockedRing Int} {size : Nat}
  {queue : LinkQueue Int}

/-- The slot, behind the entry in the list of the caller's children, is put into the queue. -/
theorem of_slot (hview : s₁.view = { s.view.slot r p priority with
      childs := Function.update (Function.update s.view.childs p []) r (p :: s.view.childs r)
      pids := pids
      currentSize := s.view.currentSize + 1 })
    (hrest : s₁.rest = { s.rest.slot p with stackData := s.stackData.give p size })
    (queue : LinkQueue Int) :
    Readied s ({ s₁.update p (fun q => { q with state := .waiting }) with
      processQueue := queue }.record (.started r p)) r p priority pids size queue where
  view := by
    calc _ = { (s₁.update p fun q => { q with state := .waiting }).view with
          processQueue := queue } := rfl
      _ = { s₁.view with
          state := Function.update s₁.view.state p .waiting, processQueue := queue } := by
        rw [s₁.view_update p _ rfl]
        simp
      _ = _ := by rw [hview]; rfl
  rest := by
    have hold := s₁.rest_update p (fun q => { q with state := .waiting }) rfl
    rw [hrest] at hold
    exact congrArg (fun rest => rest.record (.started r p)) hold

theorem control_eq (hr : Readied s s₂ r p priority pids size queue) : s₂.control = s.control :=
  congrArg Rest.control hr.rest

theorem running_eq (hr : Readied s s₂ r p priority pids size queue) (h : Settled s r) :
    s₂.runningProcess = some r := by
  have hrunning : s₂.view.running = some r := by
    rw [hr.view]
    exact h.core.running
  exact hrunning

theorem priority_eq (hr : Readied s s₂ r p priority pids size queue) (h : Settled s r)
    (hpr : p ≠ r) : s₂.running.priority = s.view.priority r := by
  have hrunning : s₂.running.priority = s₂.view.priority r := by
    unfold Kernel.running
    rw [hr.running_eq h]
    rfl
  rw [hrunning, hr.view]
  exact Function.update_of_ne (Ne.symm hpr) _ _

theorem after (step : Step) (hr : Readied s s₂ r p priority pids size queue)
    (h : Settled s r) (hcore : Core s₂.view r fun _ => False) (hfree : freePid s.view.state p) (hsize : size ≠ 0)
    (horder : s.view.freePids = p :: pids.toList processTableMaxSize
      (processTableMaxSize - (s.view.currentSize + 1))) :
    After step s { s₂ with
      control := topFrames (decide (s.view.priority r < priority)) (some (.startReturn p)) ++
        s.control
      eax := s₂.eax } r := by
  have hpr := ne_of_free h hfree
  have hstate : s₂.view.state = Function.update s.view.state p .waiting := by rw [hr.view]
  have hself : Function.update s.view.state p .waiting r = .running := by
    rw [Function.update_of_ne (Ne.symm hpr), h.running]
  refine h.after step s₂ hcore ?_ ?_ _ (some (.startReturn p)) s₂.eax
    (by rintro f ⟨⟩; exact ⟨rfl, rfl⟩) (by rintro - f ⟨⟩; rfl) ?_
    (by rw [hr.view]; exact alive_slot h hfree) ?_ ?_
  · intro x hx
    rw [hstate] at hx
    change (s₂.rest).context x = [] ∨ _ ∧ (s₂.rest).context x = s.rest.context x
    rw [hr.rest]
    by_cases hxp : x = p
    · left
      rw [hxp]
      exact Function.update_self _ _ _
    · rw [Function.update_of_ne hxp] at hx
      exact .inr ⟨hx, Function.update_of_ne hxp _ _⟩
  · rw [hstate, hself]
    decide
  · rw [hstate]
    exact .inr hself
  · have hlog : s₂.log = { s.log.record (.started r p) with
        returnCode := Function.update s.log.returnCode p 0
        stackData := s.log.stackData.give p size } := congrArg Rest.log hr.rest
    rw [hr.view, hlog]
    exact .start hfree hpr hsize horder (h.plain_top (by rintro f ⟨⟩; exact ⟨rfl, rfl⟩))
  · by_cases hlt : s.view.priority r < priority
    · exact .inl (decide_eq_true hlt)
    · -- The new process does not outrank its father, who is the most urgent one.
      refine .inr fun hlaw x hx => ?_
      rw [hstate] at hx
      rw [hr.view]
      change Function.update s.view.priority p priority x ≤
        Function.update s.view.priority p priority r
      rw [Function.update_of_ne (Ne.symm hpr)]
      by_cases hxp : x = p
      · rw [hxp, Function.update_self]
        exact not_lt.mp hlt
      · rw [Function.update_of_ne hxp] at hx ⊢
        exact hlaw x hx

theorem started (hr : Readied s s₂ r p priority pids size queue) (h : Settled s r)
    (horder : s.view.freePids = p :: pids.toList processTableMaxSize
      (processTableMaxSize - (s.view.currentSize + 1))) :
    Started s { s₂ with
      control := topFrames (decide (s.view.priority r < priority)) (some (.startReturn p)) ++
        s.control
      eax := s₂.eax } r p priority := by
  have hviewTop := h.view_top (hr.running_eq h) (decide (s.view.priority r < priority))
    (some (.startReturn p)) s₂.eax (by rintro f ⟨⟩; rfl)
  rw [hr.view] at hviewTop
  constructor
  · rw [hviewTop]
    exact horder
  · rw [hviewTop]
    rfl
  · rfl

end Readied

/-- The end of a `start` that succeeds. -/
private theorem startReady_meets (h : Settled s r) {s₁ : Kernel} {priority : Int}
    {pids : LockedRing Int} {size : Nat} (hfree : freePid s.view.state p) (hsize : size ≠ 0)
    (horder : s.view.freePids = p :: pids.toList processTableMaxSize
      (processTableMaxSize - (s.view.currentSize + 1)))
    (hview : s₁.view = { s.view.slot r p priority with
      childs := Function.update (Function.update s.view.childs p []) r (p :: s.view.childs r)
      pids := pids
      currentSize := s.view.currentSize + 1 })
    (hrest : s₁.rest = { s.rest.slot p with stackData := s.stackData.give p size })
    (hpool : Pool processTableMaxSize pids (s.view.currentSize + 1)
      fun x => freePid s.view.state x ∧ x ≠ p) :
    Meets (start.startReady s₁ r p priority)
      (fun s' => After step s s' r ∧ Started s s' r p priority)
      (fun _ => False) := by
  have hne : s.view.state p ≠ .waiting := by
    rw [hfree.2]
    decide
  have hready₁ : ReadyQueue s₁.view.state s₁.view.priority s₁.view.processQueue := by
    rw [hview]
    exact h.core.ready.reprioritise hne priority
  have hstate₁ : (s₁.data p).state ≠ .waiting := by
    change s₁.view.state p ≠ .waiting
    rw [hview]
    exact hne
  obtain ⟨queue, hadd, hready⟩ := queueAdd_eq (f := fun q => { q with state := .waiting })
    hready₁ hstate₁ hfree.1 fun _ => rfl
  have hready' : ReadyQueue (Function.update s.view.state p .waiting)
      (Function.update s.view.priority p priority) queue := by
    have hold : ReadyQueue (Function.update s₁.view.state p .waiting) s₁.view.priority queue :=
      hready
    rw [hview] at hold
    exact hold
  have hreadied := Readied.of_slot hview hrest queue
  unfold start.startReady
  rw [hadd, ok_bind]
  dsimp only
  set s₂ : Kernel := { s₁.update p (fun q => { q with state := .waiting }) with
    processQueue := queue }.record (.started r p)
  have hcore : Core s₂.view r fun _ => False := by
    rw [hreadied.view]
    exact h.core.start hfree h.running priority hpool hready'
  have hafter := hreadied.after step h hcore hfree hsize horder
  have hstarted := hreadied.started h horder
  have hcalls : (s₂.runningProcess = none ∨ s₂.running.priority < priority) ↔
      s.view.priority r < priority := by
    rw [hreadied.priority_eq h (ne_of_free h hfree), hreadied.running_eq h]
    simp
  rw [← hreadied.control_eq] at hafter hstarted
  rw [meets_ite, hcalls]
  refine ⟨fun hlt => ?_, fun hlt => ?_⟩
  · rw [decide_eq_true hlt] at hafter hstarted
    exact ⟨hafter, hstarted⟩
  · rw [decide_eq_false hlt] at hafter hstarted
    exact ⟨hafter, hstarted⟩

private theorem processTableRegister_eq {pids : LockedRing Int}
    (h : s.pids.pop processTableMaxSize = some (p, pids)) :
    processTableRegister s =
      .ok (p, { s with pids := pids, currentSize := s.currentSize + 1 }) := by
  unfold processTableRegister
  rw [h]
  rfl

private theorem processTableUnregister_eq {pids : LockedRing Int}
    (h : s.pids.push processTableMaxSize p = some pids) :
    processTableUnregister s p =
      .ok { s with pids := pids, currentSize := uint32Pred s.currentSize } := by
  unfold processTableUnregister
  rw [h]
  rfl

/-- The first write of `start` to the slot. -/
private def startSlot (s : Kernel) (p priority : Int) : Kernel :=
  s.update p fun q =>
    { q with
      pid := p, fatherPid := s.getpid, childsPids := [], priority := priority
      returnCode := 0, deallocated := false, executionContext := [] }

private theorem startSlot_view (h : Core s.view r except) (hpr : p ≠ r) (priority : Int) :
    (startSlot s p priority).view = s.view.slot r p priority := by
  have hrunning : s.runningProcess = some r := h.running
  have hother : s.runningProcess ≠ some p := by
    rw [hrunning]
    exact fun heq => hpr (Option.some.inj heq).symm
  unfold startSlot
  rw [s.view_update_other p _ hother, h.getpid_eq]
  simp only [Kernel.update_state_self, Kernel.update_sealed_self, Kernel.update_code_self]
  rfl

private theorem startSlot_rest (s : Kernel) (p priority : Int) :
    (startSlot s p priority).rest = s.rest.slot p := by
  unfold startSlot
  rw [s.rest_write]
  simp
  rfl

/-- A slot but for the stacks of its process. -/
private def Process.unstacked (q : Process) : Process :=
  { q with userStack := none, kernelStack := none, userStackSize := 0 }

/-- A write to the stacks of a process only. -/
private theorem stackWrite (s : Kernel) (p : Int) (f : Process → Process)
    (hf : (f (s.data p)).unstacked = (s.data p).unstacked) :
    (s.update p f).view = s.view ∧
    (s.update p f).rest = { s.rest with stackData := (s.update p f).stackData } := by
  have hfield : ∀ {β : Type} (field : Process → β),
      field (f (s.data p)).unstacked = field (s.data p).unstacked :=
    fun field => congrArg field hf
  constructor
  · exact s.view_update_hidden p f (hfield Process.state) (hfield Process.pid)
      (hfield Process.fatherPid) (hfield Process.childsPids) (hfield Process.priority)
      (hfield Process.deallocated) (hfield Process.sealed) (hfield Process.waitingCode)
      (hfield Process.executionContext)
  · have hcontext := hfield Process.executionContext
    have hcode := hfield Process.returnCode
    have hsleep := hfield Process.sleepTime
    have hreceiver := hfield Process.receiver
    dsimp only [Process.unstacked] at hcontext hcode hsleep hreceiver
    have hstacks : (s.update p f).stackData = (s.update p f).rest.stackData := rfl
    rw [hstacks, s.rest_write, hcontext, hcode, hsleep, hreceiver]
    simp

/-- The pid goes back to the ring, and `start` returns -1. -/
def Kernel.giveBack (s : Kernel) (p : Int) (pids : LockedRing Int) : Kernel :=
  ({ s with pids := pids, currentSize := uint32Pred s.currentSize }.record
    (.notStarted p)).ret (-1)

/-- The kernel stack has been handed out, and freed for want of a user stack. -/
def Kernel.withoutUserStack (s : Kernel) (p : Int) (size : Nat) : Kernel :=
  { s.update p fun q => { q with
      kernelStack := some (s.kernelBlocks.allocate kernelStackSize).1
      userStackSize := size
      userStack := none } with
    kernelBlocks := { s.kernelBlocks with next := s.kernelBlocks.next + 1 } }

/-- Both stacks have been handed out. -/
def Kernel.withStacks (s : Kernel) (p : Int) (size : Nat) : Kernel :=
  { s with
    kernelBlocks := (s.kernelBlocks.allocate kernelStackSize).2
    userBlocks := (s.userBlocks.allocate size).2 }.update p fun q => { q with
      kernelStack := some (s.kernelBlocks.allocate kernelStackSize).1
      userStackSize := size
      userStack := some (s.userBlocks.allocate size).1 }

section Stacks

variable {s₁ : Kernel} {mem : Memory} {pids pids' : LockedRing Int} {priority : Int}
  {stackSize : Nat}

theorem startStacks_noKernelStack (hmem : mem.kernelStack = false)
    (hpush : s₁.pids.push processTableMaxSize p = some pids) :
    start.startStacks mem s₁ r p priority stackSize =
      .ok ((s₁.update p fun q => { q with kernelStack := none }).giveBack p pids) := by
  have hpush' : (s₁.update p fun q => { q with kernelStack := none }).pids.push
      processTableMaxSize p = some pids := hpush
  unfold start.startStacks
  rw [if_pos hmem]
  dsimp only
  rw [processTableUnregister_eq hpush']
  rfl

theorem startStacks_noUserStack (hkernel : mem.kernelStack = true) (huser : mem.userStack = false)
    (hr : r ≠ processNotFoundCode) (hone : p ≠ 1)
    (hpush : s₁.pids.push processTableMaxSize p = some pids) :
    start.startStacks mem s₁ r p priority stackSize =
      .ok ((s₁.withoutUserStack p (stackSize + userAdditionalStackSize)).giveBack p pids) := by
  -- The three writes to the slot, as one.
  have hmerge : ((({ s₁ with kernelBlocks := (s₁.kernelBlocks.allocate kernelStackSize).2 } :
      Kernel).update p fun q =>
        { q with kernelStack := some (s₁.kernelBlocks.allocate kernelStackSize).1 }).update p
      (fun q => { q with userStackSize := stackSize + userAdditionalStackSize })).update p
        (fun q => { q with userStack := none }) =
      { s₁.withoutUserStack p (stackSize + userAdditionalStackSize) with
        kernelBlocks := (s₁.kernelBlocks.allocate kernelStackSize).2 } := by
    simp [Kernel.update, Kernel.withoutUserStack]
  have hpush' : ({ s₁.withoutUserStack p (stackSize + userAdditionalStackSize) with
      kernelBlocks := (s₁.kernelBlocks.allocate kernelStackSize).2 } : Kernel).pids.push
        processTableMaxSize p = some pids := hpush
  have hrelease := s₁.kernelBlocks.release_allocate kernelStackSize
  unfold start.startStacks
  rw [if_neg (Bool.not_eq_false _ ▸ hkernel)]
  dsimp only
  rw [if_pos hr, require_pos hone, ok_bind, if_pos huser, hmerge,
    processTableUnregister_eq hpush', ok_bind]
  unfold kernelStackFree
  rw [demand_some, ok_bind]
  dsimp only
  rw [hrelease, demand_some, ok_bind]
  rfl

theorem startStacks_withStacks (hkernel : mem.kernelStack = true) (huser : mem.userStack = true)
    (hr : r ≠ processNotFoundCode) (hpid : IsPid r) (hone : p ≠ 1) :
    start.startStacks mem s₁ r p priority stackSize = (do
      let s₂ ← processChildListAddHead mem
        (s₁.withStacks p (stackSize + userAdditionalStackSize)) r p
      start.startReady s₂ r p priority) := by
  have hmerge : Kernel.update { (({ s₁ with
      kernelBlocks := (s₁.kernelBlocks.allocate kernelStackSize).2 } : Kernel).update p fun q =>
        { q with kernelStack := some (s₁.kernelBlocks.allocate kernelStackSize).1 }).update p
      (fun q => { q with userStackSize := stackSize + userAdditionalStackSize }) with
        userBlocks := (s₁.userBlocks.allocate (stackSize + userAdditionalStackSize)).2 } p
      (fun q => { q with
        userStack := some (s₁.userBlocks.allocate (stackSize + userAdditionalStackSize)).1 }) =
      s₁.withStacks p (stackSize + userAdditionalStackSize) := by
    simp [Kernel.update, Kernel.withStacks]
  unfold start.startStacks
  rw [if_neg (Bool.not_eq_false _ ▸ hkernel)]
  dsimp only
  rw [if_pos hr, require_pos hone, ok_bind, if_neg (Bool.not_eq_false _ ▸ huser),
    getProcess_eq hpid, ok_bind, ← hmerge]
  rfl

theorem withStacks_view (s₁ : Kernel) (p : Int) (size : Nat) :
    (s₁.withStacks p size).view = s₁.view :=
  (stackWrite { s₁ with
    kernelBlocks := (s₁.kernelBlocks.allocate kernelStackSize).2
    userBlocks := (s₁.userBlocks.allocate size).2 } p _ rfl).1

theorem withStacks_rest (s₁ : Kernel) (p : Int) (size : Nat) :
    (s₁.withStacks p size).rest = { s₁.rest with stackData := s₁.stackData.give p size } := by
  have hstacks : (s₁.withStacks p size).stackData = s₁.stackData.give p size := by
    change (s₁.withStacks p size).rest.stackData = _
    rw [Kernel.withStacks, Kernel.rest_write]
    rfl
  have hrest := (stackWrite { s₁ with
    kernelBlocks := (s₁.kernelBlocks.allocate kernelStackSize).2
    userBlocks := (s₁.userBlocks.allocate size).2 } p (fun q => { q with
      kernelStack := some (s₁.kernelBlocks.allocate kernelStackSize).1
      userStackSize := size
      userStack := some (s₁.userBlocks.allocate size).1 }) rfl).2
  rw [← hstacks]
  exact hrest

/-- Whatever the slot says of its stacks, none is in use for it. -/
theorem wasted_update (s₁ : Kernel) (p : Int) (f : Process → Process) :
    s₁.stackData.Wasted (s₁.update p f).stackData p := by
  have hother : ∀ x, x ≠ p → (s₁.update p f).data x = s₁.data x := by
    intro x hx
    rw [Kernel.data_update, if_neg hx]
  constructor
  · exact fun x hx => congrArg Process.kernelStack (hother x hx)
  · exact fun x hx => congrArg Process.userStack (hother x hx)
  · exact fun x hx => congrArg Process.userStackSize (hother x hx)
  · exact .inl rfl
  · rfl

theorem wasted_withoutUserStack (s₁ : Kernel) (p : Int) (size : Nat) :
    s₁.stackData.Wasted (s₁.withoutUserStack p size).stackData p :=
  { wasted_update s₁ p fun q => { q with
      kernelStack := some (s₁.kernelBlocks.allocate kernelStackSize).1
      userStackSize := size
      userStack := none } with
    kernelBlocks := .inr rfl }

private theorem giveBack_after (step : Step) (h : Settled s r) (priority : Int)
    (hstarts : step.event.starts s.view.currentSize)
    (hmem : step.mem.kernelStack = false ∨ step.mem.userStack = false)
    (hfree : freePid s.view.state p)
    (horder : s.view.freePids = p :: pids.toList processTableMaxSize
      (processTableMaxSize - (s.view.currentSize + 1)))
    (hpool : Pool processTableMaxSize pids (s.view.currentSize + 1)
      fun x => freePid s.view.state x ∧ x ≠ p)
    (hview : s₁.view = { s.view.slot r p priority with
      pids := pids, currentSize := s.view.currentSize + 1 })
    (hrest : s₁.rest = { s.rest.slot p with stackData := s₁.stackData })
    (hwasted : s.stackData.Wasted s₁.stackData p)
    (hpush : pids.push processTableMaxSize p = some pids') :
    After step s (s₁.giveBack p pids') r := by
  have hnot : ¬(freePid s.view.state p ∧ p ≠ p) := fun hp => hp.2 rfl
  have hpred : uint32Pred (s.view.currentSize + 1) = s.view.currentSize := by
    unfold uint32Pred
    rw [if_neg (by omega)]
    omega
  obtain ⟨ring, hring, horder', hpool'⟩ := hpool.push hnot (by omega)
  obtain rfl := Option.some.inj (hpush.symm.trans hring)
  rw [hpred] at horder' hpool'
  have hback : Pool processTableMaxSize pids' s.view.currentSize (freePid s.view.state) := by
    refine hpool'.congr fun x => ?_
    by_cases hx : x = p
    · simp [hx, hfree]
    · simp [hx]
  have hcount : s₁.currentSize = s.view.currentSize + 1 := congrArg View.currentSize hview
  refine startFails_after h priority hstarts hmem hfree horder horder' ?_ ?_ hwasted hback
  · rw [hcount, hpred]
    change { s₁.view with pids := pids', currentSize := s.view.currentSize } = _
    rw [hview]
    rfl
  · change s₁.rest.record (.notStarted p) = _
    rw [hrest]
    rfl

end Stacks

private theorem startStacks_meets (step : Step) (h : Settled s r) {s₁ : Kernel}
    {pids : LockedRing Int} {priority : Int} (stackSize : Nat)
    (hstarts : step.event.starts s.view.currentSize) (hfree : freePid s.view.state p) (hone : p ≠ 1)
    (horder : s.view.freePids = p :: pids.toList processTableMaxSize
      (processTableMaxSize - (s.view.currentSize + 1)))
    (hpool : Pool processTableMaxSize pids (s.view.currentSize + 1)
      fun x => freePid s.view.state x ∧ x ≠ p)
    (hview : s₁.view = { s.view.slot r p priority with
      pids := pids, currentSize := s.view.currentSize + 1 })
    (hrest : s₁.rest = s.rest.slot p) {father : Int} (hfather : r = father) :
    Meets (start.startStacks step.mem s₁ father p priority stackSize)
      (fun s' => After step s s' r ∧
        (step.mem = .available → ∃ p, Started s s' r p priority))
      (fun e => Excused False False e ∧ step.mem ≠ .available) := by
  subst hfather
  have hpr := ne_of_free h hfree
  have hpid := h.core.isPid h.core.self
  have hr : r ≠ processNotFoundCode := by
    have hpos := hpid.1
    unfold processNotFoundCode
    omega
  have hnot : ¬(freePid s.view.state p ∧ p ≠ p) := fun hp => hp.2 rfl
  obtain ⟨pids', hpush, -⟩ := hpool.push hnot (by omega)
  have hpids : s₁.pids = pids := congrArg View.pids hview
  have hpush₁ : s₁.pids.push processTableMaxSize p = some pids' := by rwa [hpids]
  have hstacks₁ : s₁.stackData = s.stackData := congrArg Rest.stackData hrest
  have hback : ∀ s₂ : Kernel, s₂.view = s₁.view →
      s₂.rest = { s₁.rest with stackData := s₂.stackData } →
      s₁.stackData.Wasted s₂.stackData p →
      (step.mem.kernelStack = false ∨ step.mem.userStack = false) →
      After step s (s₂.giveBack p pids') r := by
    intro s₂ hview₂ hrest₂ hwasted hmem
    rw [hrest] at hrest₂
    rw [hstacks₁] at hwasted
    exact giveBack_after step h priority hstarts hmem hfree horder hpool (hview₂.trans hview)
      hrest₂ hwasted hpush
  by_cases hkernel : step.mem.kernelStack = false
  · rw [startStacks_noKernelStack hkernel hpush₁, meets_ok]
    obtain ⟨hview₂, hrest₂⟩ := stackWrite s₁ p (fun q => { q with kernelStack := none }) rfl
    refine ⟨hback _ hview₂ hrest₂ (wasted_update s₁ p _) (.inl hkernel), fun heq => ?_⟩
    rw [heq] at hkernel
    cases hkernel
  rw [Bool.not_eq_false] at hkernel
  set size := stackSize + userAdditionalStackSize with hsize
  by_cases huser : step.mem.userStack = false
  · rw [startStacks_noUserStack hkernel huser hr hone hpush₁, meets_ok]
    obtain ⟨hview₂, hrest₂⟩ := stackWrite s₁ p (fun q => { q with
      kernelStack := some (s₁.kernelBlocks.allocate kernelStackSize).1
      userStackSize := size
      userStack := none }) rfl
    refine ⟨hback (s₁.withoutUserStack p size) hview₂ ?_ (wasted_withoutUserStack s₁ p size)
      (.inr huser), fun heq => ?_⟩
    · exact congrArg (fun rest : Rest =>
        { rest with stackData := (s₁.withoutUserStack p size).stackData }) hrest₂
    · rw [heq] at huser
      cases huser
  rw [Bool.not_eq_false] at huser
  rw [startStacks_withStacks hkernel huser hr hpid hone]
  unfold processChildListAddHead
  rw [meets_bind, meets_bind, meets_require]
  refine ⟨fun _ => ?_, fun hmem => ⟨trivial, fun heq => ?_⟩⟩
  · rw [meets_pure]
    set s₂ := s₁.withStacks p size with hs₂
    have hview₂ : (s₂.update r fun q => { q with childsPids := p :: q.childsPids }).view =
        { s.view.slot r p priority with
          childs := Function.update (Function.update s.view.childs p []) r
            (p :: s.view.childs r)
          pids := pids
          currentSize := s.view.currentSize + 1 } := by
      have hchilds : (s.view.slot r p priority).childs r = s.view.childs r :=
        Function.update_of_ne (Ne.symm hpr) _ _
      rw [s₂.view_setChilds r fun xs => p :: xs, hs₂, withStacks_view, hview, hchilds]
      rfl
    have hrest₂ : (s₂.update r fun q => { q with childsPids := p :: q.childsPids }).rest =
        { s.rest.slot p with stackData := s.stackData.give p size } := by
      rw [s₂.rest_setChilds r fun xs => p :: xs, hs₂, withStacks_rest, hrest, hstacks₁]
    have hsize₀ : size ≠ 0 := by
      rw [hsize]
      unfold userAdditionalStackSize
      omega
    exact (startReady_meets h hfree hsize₀ horder hview₂ hrest₂ hpool).mono
      (fun s' hs' => ⟨hs'.1, fun _ => ⟨p, hs'.2⟩⟩) fun e he => False.elim he
  · rw [heq] at hmem
    exact hmem rfl

theorem start_meets (h : Settled s r) (stackSize : Nat) (priority : Int)
    (name : Option UserString)
    (hstarts : startAccepts s.currentSize stackSize priority →
      step.event.starts s.currentSize) :
    Meets (start step.mem s stackSize priority name)
      (fun s' => After step s s' r ∧
        (step.mem = .available → processMinPriority ≤ priority → priority ≤ processMaxPriority →
          stackSize < (stackSize + userAdditionalStackSize) % 2 ^ 32 →
          s.view.currentSize < processTableMaxSize → ∃ p, Started s s' r p priority))
      (fun e => Excused False False e ∧ step.mem ≠ .available) := by
  unfold start
  rw [meets_ite]
  refine ⟨fun hbad => ⟨h.ret (-1), fun _ _ _ _ hsize => ?_⟩, fun hgood => ?_⟩
  · have hsize' : s.currentSize < processTableMaxSize := hsize
    omega
  have hcount : s.view.currentSize < processTableMaxSize := by
    change s.currentSize < _
    omega
  obtain ⟨p, pids, hpop, hfree, horder, hpool⟩ := h.core.pidPool.pop hcount
  have hpr := ne_of_free h hfree
  have hone : p ≠ 1 := by
    rintro rfl
    have hunset := hfree.2
    rcases h.core.init with h1 | h1 | h1
    all_goals
      rw [hunset] at h1
      cases h1
  have hwaiting : s.view.state p ≠ .waiting := by
    rw [hfree.2]
    decide
  dsimp only
  rw [processTableRegister_eq hpop, ok_bind]
  dsimp only
  rw [getProcess_eq hfree.1, ok_bind]
  set s₁ : Kernel := { s with pids := pids, currentSize := s.currentSize + 1 } with hs₁
  have hgetpid : s₁.getpid = r := h.core.getpid_eq
  have hclear : (startSlot s₁ p priority).processQueue.clear p = s.processQueue :=
    h.core.ready.clear hwaiting
  have hslot := startSlot_view h.core hpr priority
  have hview₁ : ({ startSlot s₁ p priority with
      processQueue := (startSlot s₁ p priority).processQueue.clear p }.readName name).view =
      { s.view.slot r p priority with
        pids := pids, currentSize := s.view.currentSize + 1 } := by
    rw [Kernel.view_readName, hclear, ← hslot]
    rfl
  have hrest₁ : ({ startSlot s₁ p priority with
      processQueue := (startSlot s₁ p priority).processQueue.clear p }.readName name).rest =
      s.rest.slot p := by
    rw [Kernel.rest_readName]
    exact startSlot_rest s₁ p priority
  refine (startStacks_meets step h
    (if stackSize < processMinStackSize then processMinStackSize else stackSize)
    (hstarts ⟨by omega, hcount, by omega⟩) hfree hone horder hpool hview₁ hrest₁ hgetpid.symm).mono ?_ fun e he => he
  exact fun s' hs' => ⟨hs'.1, fun hmem _ _ _ _ => hs'.2 hmem⟩

end SchlagOS
