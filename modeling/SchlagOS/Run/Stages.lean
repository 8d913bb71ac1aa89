import SchlagOS.Invariant.Kin

/-!
# The two stages of death

A slot goes round: it is free, its process runs until it is terminated,
`zombify` deallocates it, and `destroy` sets it free again.  The stacks go with
the third step and the pid goes back to its ring with the fourth.
-/

namespace SchlagOS

open Foundation

variable {s s' : Kernel} {step : Step} {r r' p : Int} {v v' : View} {log log' : Log}

inductive Stage where
  | free
  | alive
  | terminated
  | deallocated
  deriving DecidableEq, Repr

def View.stage (v : View) (p : Int) : Stage :=
  if v.state p = .unset then .free
  else if v.state p = .zombie then (if v.dead p then .deallocated else .terminated)
  else .alive

/-- The process that an event is about, and the stages before and after it. -/
def HistoryEvent.stages : HistoryEvent → Option (Int × Stage × Stage)
  | .started _ child => some (child, .free, .alive)
  | .terminated pid _ => some (pid, .alive, .terminated)
  | .zombified pid => some (pid, .terminated, .deallocated)
  | .destroyed pid => some (pid, .deallocated, .free)
  | _ => none

/-- `none` when the event is out of order. -/
def Stage.next (p : Int) (stage : Stage) (event : HistoryEvent) : Option Stage :=
  match event.stages with
  | none => some stage
  | some (c, before, after) =>
      if c ≠ p then some stage else if stage = before then some after else none

/-- The stage of `p` behind a history, if its events are in order. -/
def life (p : Int) (history : List HistoryEvent) : Option Stage :=
  history.foldlM (Stage.next p) .free

theorem life_append (p : Int) (history events : List HistoryEvent) :
    life p (history ++ events) = (life p history).bind fun stage =>
      events.foldlM (Stage.next p) stage :=
  List.foldlM_append

theorem life_quiet {stage : Stage} {events : List HistoryEvent}
    (h : ∀ event ∈ events, event.stages = none) :
    events.foldlM (Stage.next p) stage = some stage := by
  induction events with
  | nil => rfl
  | cons event events ih =>
      have hnext : Stage.next p stage event = some stage := by
        simp [Stage.next, h event (by simp)]
      rw [List.foldlM_cons, hnext]
      exact ih fun e he => h e (List.mem_cons_of_mem _ he)

theorem life_one {event : HistoryEvent} {stage : Int → Stage} {c : Int} {before after : Stage}
    (hevent : event.stages = some (c, before, after)) (hc : stage c = before) (p : Int) :
    [event].foldlM (Stage.next p) (stage p) = some (Function.update stage c after p) := by
  by_cases hcp : c = p
  · subst hcp
    simp [Stage.next, hevent, hc]
  · simp [Stage.next, hevent, hcp, Function.update_of_ne (Ne.symm hcp)]

/-! ## What one step does -/

/-- What a step does to the slots, to the ring of free pids and to the stacks. -/
inductive Course (v v' : View) (log log' : Log) : Prop
  | quiet (events : List HistoryEvent) (hevents : ∀ event ∈ events, event.stages = none)
      (hhistory : log'.history = log.history ++ events) (hstage : v'.stage = v.stage)
      (hpids : v'.freePids = v.freePids) (hstacks : log'.stackData = log.stackData)
  | started (father p : Int) (size : Nat)
      (hhistory : log'.history = log.history ++ [.started father p])
      (hp : v.stage p = .free) (hstage : v'.stage = Function.update v.stage p .alive)
      (hpids : v.freePids = p :: v'.freePids)
      (hstacks : log'.stackData = log.stackData.give p size)
  | terminated (p value : Int)
      (hhistory : log'.history = log.history ++ [.terminated p value])
      (hp : v.stage p = .alive) (hstage : v'.stage = Function.update v.stage p .terminated)
      (hpids : v'.freePids = v.freePids) (hstacks : log'.stackData = log.stackData)
  | zombified (p : Int) (hhistory : log'.history = log.history ++ [.zombified p])
      (hp : v.stage p = .terminated)
      (hstage : v'.stage = Function.update v.stage p .deallocated)
      (hrunning : v.running ≠ some p) (hpids : v'.freePids = v.freePids)
      (hkernel : ∃ a, log.stackData.kernelStack p = some a ∧
        log.stackData.kernelBlocks.release a kernelStackSize =
          some log'.stackData.kernelBlocks)
      (huser : ∃ a, log.stackData.userStack p = some a ∧ log.stackData.userStackSize p ≠ 0 ∧
        log.stackData.userBlocks.release a (log.stackData.userStackSize p) =
          some log'.stackData.userBlocks)
      (hstacks : log'.stackData = log.stackData.free p)
  | destroyed (p : Int) (hhistory : log'.history = log.history ++ [.destroyed p])
      (hp : v.stage p = .deallocated) (hstage : v'.stage = Function.update v.stage p .free)
      (hrunning : v.running ≠ some p) (hpids : v'.freePids = v.freePids ++ [p])
      (hstacks : log'.stackData = log.stackData)

theorem Course.life (h : Course v v' log log')
    (hlife : ∀ p, life p log.history = some (v.stage p)) (p : Int) :
    SchlagOS.life p log'.history = some (v'.stage p) := by
  cases h with
  | quiet events hevents hhistory hstage _ _ =>
      rw [hhistory, life_append, hlife, hstage]
      exact life_quiet hevents
  | started father c size hhistory hc hstage _ _ =>
      rw [hhistory, life_append, hlife, hstage]
      exact life_one rfl hc p
  | terminated c value hhistory hc hstage _ _ =>
      rw [hhistory, life_append, hlife, hstage]
      exact life_one rfl hc p
  | zombified c hhistory hc hstage _ _ _ _ _ =>
      rw [hhistory, life_append, hlife, hstage]
      exact life_one rfl hc p
  | destroyed c hhistory hc hstage _ _ _ =>
      rw [hhistory, life_append, hlife, hstage]
      exact life_one rfl hc p

theorem stage_congr (hunset : ∀ x, v'.state x = .unset ↔ v.state x = .unset)
    (hzombie : ∀ x, v'.state x = .zombie ↔ v.state x = .zombie) (hdead : v'.dead = v.dead) :
    v'.stage = v.stage := by
  funext x
  simp only [View.stage, hunset, hzombie, hdead]

/-- A process that is alive changes its state and stays so. -/
theorem stage_move {b : ProcessState} (hp : v.state p ≠ .unset ∧ v.state p ≠ .zombie)
    (hb : b ≠ .unset ∧ b ≠ .zombie) (hstate : v'.state = Function.update v.state p b)
    (hdead : v'.dead = v.dead) : v'.stage = v.stage := by
  apply stage_congr
  · intro x
    rw [hstate]
    exact update_eq_iff hp.1 hb.1 x
  · intro x
    rw [hstate]
    exact update_eq_iff hp.2 hb.2 x
  · exact hdead

theorem stage_eq_alive (hp : v.state p ≠ .unset ∧ v.state p ≠ .zombie) : v.stage p = .alive := by
  simp [View.stage, hp.1, hp.2]

/-- A process dies. -/
theorem stage_terminated (hdead : v.dead p = false) {v' : View}
    (hstate : v'.state = Function.update v.state p .zombie) (hdead' : v'.dead = v.dead) :
    v'.stage = Function.update v.stage p .terminated := by
  funext x
  unfold View.stage
  rw [hstate, hdead']
  by_cases hx : x = p
  · subst hx
    simp [hdead]
  · simp [hx]

theorem Effect.course (heffect : Effect step r v log v' log')
    (hcore : Core v r fun _ => False) (hrunning : v.state r = .running)
    (hmem : step.mem.kernelStack = true ∧ step.mem.userStack = true) :
    Course v v' log log' := by
  have hself : v.state r ≠ .unset ∧ v.state r ≠ .zombie := by
    rw [hrunning]
    decide
  have hwaiter : ∀ {fid : Int} {node : ProcessNodeContent},
      node ∈ (v.queues fid).waiters →
      v.state node.pid ≠ .unset ∧ v.state node.pid ≠ .zombie := by
    intro fid node hnode
    rw [hcore.locked.listed.blocked_of_mem hnode]
    decide
  cases heffect
  case goOn hframes =>
    exact .quiet [] (by simp) (by simp) rfl rfl rfl
  case start p priority pids processQueue size frames hfree hpr hsize horder hframes =>
    refine .started r p size rfl (by simp [View.stage, hfree.2]) ?_ horder rfl
    funext x
    unfold View.stage
    dsimp only
    by_cases hx : x = p
    · subst hx
      simp
    · simp [hx]
  case startFails hfails hfree hpr horder horder' hwasted hframes =>
    rw [hmem.1, hmem.2] at hfails
    simp at hfails
  case exit value queues frames hone hqueues hframes =>
    have hdead := hcore.pending.dead_eq_false hself.2
    exact .terminated r value rfl (stage_eq_alive hself) (stage_terminated hdead rfl rfl) rfl rfl
  case kill p processQueue queues sleeping frames hevent hused halive hqueues hframes =>
    have hdead := hcore.pending.dead_eq_false halive
    exact .terminated p 0 rfl (stage_eq_alive ⟨hused, halive⟩)
      (stage_terminated hdead rfl rfl) rfl rfl
  case reap => exact .quiet [_] (by simp [HistoryEvent.stages]) rfl rfl rfl rfl
  case waits =>
    exact .quiet [_] (by simp [HistoryEvent.stages]) rfl
      (stage_move hself (by decide) rfl rfl) rfl rfl
  case noChild => exact .quiet [_] (by simp [HistoryEvent.stages]) rfl rfl rfl rfl
  case sleeps =>
    exact .quiet [] (by simp) (by simp) (stage_move hself (by decide) rfl rfl) rfl rfl
  case alarm hstate hsleep hframes =>
    refine .quiet [] (by simp) (by simp) (stage_congr (fun x => ?_) (fun x => ?_) rfl) rfl rfl
    all_goals
      dsimp only
      rcases hstate x with heq | ⟨hold, hnew⟩
      · rw [heq]
      · rw [hold, hnew]
        decide
  case reprioritise => exact .quiet [] (by simp) (by simp) rfl rfl rfl
  case create => exact .quiet [_] (by simp [HistoryEvent.stages]) rfl rfl rfl rfl
  case createFails => exact .quiet [_] (by simp [HistoryEvent.stages]) rfl rfl rfl rfl
  case reset fid queue fids nbQueues state processQueue resetReleases frames pids events hlive
      hevent hpids hstate hreleases hwaiters hmessages hframes =>
    have hblocked : ∀ x ∈ pids, v.state x = .blockedByMessage := by
      intro x hx
      rw [← hpids] at hx
      obtain ⟨node, hnode, rfl⟩ := List.mem_map.mp hx
      exact hcore.locked.listed.blocked_of_mem hnode
    have hquiet : ∀ event ∈ events, event.stages = none := by
      cases hevent with
      | preset => simp
      | pdelete => simp [HistoryEvent.stages]
    refine .quiet (pids.map (fun p => .awoken p .blockedByMessage) ++ .queueReset fid :: events)
      ?_ (List.append_assoc _ _ _) (stage_congr (fun x => ?_) (fun x => ?_) rfl) rfl rfl
    · intro event hmem'
      rcases List.mem_append.mp hmem' with hawoken | hreset
      · obtain ⟨x, -, rfl⟩ := List.mem_map.mp hawoken
        rfl
      · rcases List.mem_cons.mp hreset with rfl | hrest
        · rfl
        · exact hquiet event hrest
    all_goals
      dsimp only
      rw [hstate]
      split_ifs with hx
      · simp [hblocked x hx]
      · exact Iff.rfl
  case buffer => exact .quiet [_] (by simp [HistoryEvent.stages]) rfl rfl rfl rfl
  case hand fid message node queue processQueue frames hsame hwaiters hempty hempty' hframes =>
    have hmem' : node ∈ (v.queues fid).waiters := by simp [hwaiters]
    have hnode := hwaiter hmem'
    exact .quiet [_, _] (by simp [HistoryEvent.stages]) (List.append_assoc _ _ _)
      (stage_move hnode (by decide) rfl rfl) rfl rfl
  case blockSend =>
    exact .quiet [_] (by simp [HistoryEvent.stages]) rfl
      (stage_move hself (by decide) rfl rfl) rfl rfl
  case take => exact .quiet [_] (by simp [HistoryEvent.stages]) rfl rfl rfl rfl
  case swap fid message messages node queue processQueue frames hsame hwaiters hold hnew
      hframes =>
    have hmem' : node ∈ (v.queues fid).waiters := by simp [hwaiters]
    have hnode := hwaiter hmem'
    exact .quiet [.received r fid message, .taken r node.pid fid node.message,
      .awoken node.pid .blockedByMessage] (by simp [HistoryEvent.stages])
      (by simp [Log.record]) (stage_move hnode (by decide) rfl rfl) rfl rfl
  case blockReceive =>
    exact .quiet [_] (by simp [HistoryEvent.stages]) rfl
      (stage_move hself (by decide) rfl rfl) rfl rfl

/-- The process that `zombify` is called for next. -/
def zombifies (s : Kernel) : Option Int :=
  match s.control with
  | .schedule .zombify :: _ => (takePending s.pidsToZombify (runningPid s)).map Prod.fst
  | _ => none

/-- The process that `destroy` is called for next. -/
def destroys (s : Kernel) : Option Int :=
  match s.control with
  | .schedule .destroy :: _ => (takePending s.pidsToDestroy (runningPid s)).map Prod.fst
  | _ => none

theorem Zombified.course (h : Zombified v v' p) (hcore : Core v r fun _ => False) (hpr : p ≠ r)
    (hbacked : Backed v.state v.dead log.stackData)
    (hlog : log' = { log.record (.zombified p) with stackData := log.stackData.free p }) :
    Course v v' log log' := by
  obtain ⟨hzombie, halive⟩ := (hcore.pending.mem_zombify p).mp (h.perm.mem_iff.mpr (by simp))
  have hused : v.state p ≠ .unset := by
    rw [hzombie]
    decide
  obtain ⟨⟨a, ha, hkernel⟩, u, hu, hsize, huser⟩ := hbacked.releases h.ne_one hused halive
  have hview := h.view
  have hstage : v'.stage = Function.update v.stage p .deallocated := by
    funext x
    have hunset : v'.state x = .unset ↔ v.state x = .unset := h.used x
    have hzombie' : v'.state x = .zombie ↔ v.state x = .zombie := by
      rcases h.state with ⟨heq, hwakes⟩ | ⟨heq, -⟩
      · rw [heq]
        exact update_eq_iff (by rw [hwakes.1]; decide) (by decide) x
      · rw [heq]
    have hdead : v'.dead = Function.update v.dead p true := by rw [hview]
    by_cases hx : x = p
    · subst hx
      simp [View.stage, hunset, hzombie', hdead, hzombie]
    · simp [View.stage, hunset, hzombie', hdead, hx]
  refine .zombified p (by rw [hlog]; rfl) (by simp [View.stage, hzombie, halive]) hstage ?_ ?_
    ⟨a, ha, ?_⟩ ⟨u, hu, hsize, ?_⟩ (by rw [hlog])
  · rw [hcore.running, ne_eq, Option.some_inj]
    exact hpr.symm
  · rw [hview]
    rfl
  · rw [hlog]
    exact hkernel
  · rw [hlog]
    exact huser

theorem Destroyed.course (h : Destroyed v v' p) (hcore : Core v r fun _ => False)
    (hbacked : Backed v.state v.dead log.stackData)
    (hlog : log' = { log.record (.destroyed p) with
      returnCode := Function.update log.returnCode p (-1)
      stackData := log.stackData.clear p }) : Course v v' log log' := by
  have hsealed : v.isSealed p = true := by
    apply (hcore.pending.mem_destroy p).mp
    simp [h.last]
  have hzombie := hcore.pending.dead_zombie p h.dead
  have hview := h.view
  have hstage : v'.stage = Function.update v.stage p .free := by
    funext x
    rw [hview]
    unfold View.stage
    dsimp only
    by_cases hx : x = p
    · subst hx
      simp
    · simp [hx]
  refine .destroyed p (by rw [hlog]; rfl) (by simp [View.stage, hzombie, h.dead]) hstage ?_
    h.freePids ?_
  · rw [hcore.running, ne_eq, Option.some_inj]
    exact (hcore.pending.sealed_ne p hsealed).symm
  · rw [hlog]
    exact hbacked.clear_eq h.dead

theorem Moved.course (hmoved : Moved step s s' r r') (hsafe : Safe s r)
    (hs : step.orderly = true) : Course s.view s'.view s.log s'.log := by
  have hmem := Step.orderly_iff.mp hs
  have hcore := hsafe.inv.core
  rcases hmoved.change with ⟨hphase, -, heffect⟩ | hturn
  · exact heffect.course hcore (hsafe.inv.running (.inl hphase)) ⟨hmem.2.1, hmem.2.2.1⟩
  · cases hturn with
    | pass _ hview hlog =>
        rw [hview, hlog]
        exact .quiet [] (by simp) (by simp) rfl rfl rfl
    | resume value _ _ _ hview hlog _ =>
        rw [hview, hlog]
        exact .quiet [.resumed r value] (by simp [HistoryEvent.stages]) rfl rfl rfl rfl
    | zombify p stack _ _ _ hpr hzombified hlog =>
        exact hzombified.course hcore hpr hsafe.backed hlog
    | destroy p _ hdestroyed hlog => exact hdestroyed.course hcore hsafe.backed hlog
    | switch p state processQueue _ hp hp' hr hother hview hlog =>
        rw [hview, hlog]
        exact .quiet [] (by simp) (by simp) (stage_congr (switched_iff (by decide) hp hp' hr hother)
          (switched_iff (by decide) hp hp' hr hother) rfl) rfl rfl

/-! ## Runs -/

theorem booted_life (p : Int) : life p booted.history = some (booted.view.stage p) := by
  have hhistory : booted.history = [.created 0 keyBufferSize, .started processNotFoundCode 1] :=
    rfl
  by_cases hp : p = 1
  · subst hp
    rfl
  · have hdata : booted.data p = noProcess := Function.update_of_ne hp _ _
    have hstate : (booted.data p).state = .unset := by
      rw [hdata]
      rfl
    have hfree : booted.view.stage p = .free := if_pos hstate
    rw [hfree, hhistory]
    simp [life, Stage.next, HistoryEvent.stages, Ne.symm hp]

theorem takePending_fst {stack : ArrayStack Int} {running : Option Int}
    (h : (takePending stack running).map Prod.fst = some p) :
    ∃ stack', takePending stack running = some (p, stack') := by
  obtain ⟨⟨q, stack'⟩, htake, rfl⟩ := Option.map_eq_some_iff.mp h
  exact ⟨stack', htake⟩

theorem zombifies_stage (hsafe : Safe s r) (h : zombifies s = some p) :
    s.runningProcess ≠ some p ∧ s.view.stage p = .terminated := by
  have hcore := hsafe.inv.core
  unfold zombifies at h
  split at h
  · obtain ⟨stack, htake⟩ := takePending_fst h
    rw [hcore.runningPid_eq] at htake
    obtain ⟨hperm, hpr⟩ := takePending_perm hcore.pending.nodup_zombify htake
    obtain ⟨hzombie, halive⟩ :=
      (hcore.pending.mem_zombify p).mp (hperm.mem_iff.mpr (by simp))
    have hrunning : s.runningProcess = some r := hcore.running
    refine ⟨?_, by simp [View.stage, hzombie, halive]⟩
    rw [hrunning, ne_eq, Option.some_inj]
    exact hpr.symm
  · cases h

theorem destroys_phase (h : destroys s = some p) : phaseOf s.control = some .destroy ∧
    ∃ stack, takePending s.pidsToDestroy (runningPid s) = some (p, stack) := by
  unfold destroys at h
  split at h
  next rest hcontrol =>
    rw [hcontrol]
    exact ⟨rfl, takePending_fst h⟩
  · cases h

theorem destroys_stage (hsafe : Safe s r) (h : destroys s = some p) :
    s.runningProcess ≠ some p ∧ s.view.stage p = .deallocated ∧
      ∀ c ∈ (s.data p).childsPids, (s.data c).deallocated = true := by
  have hcore := hsafe.inv.core
  obtain ⟨hphase, stack, htake⟩ := destroys_phase h
  rw [hcore.runningPid_eq] at htake
  obtain ⟨hperm, hpr⟩ := takePending_perm hcore.pending.nodup_destroy htake
  have hsealed : s.view.isSealed p = true :=
    (hcore.pending.mem_destroy p).mp (hperm.mem_iff.mpr (by simp))
  have hzombie := hcore.pending.sealed_zombie p hsealed
  have hdead : s.view.dead p = true := by
    apply eq_true_of_ne_false
    intro halive
    have hmem : p ∈ s.view.toZombify := (hcore.pending.mem_zombify p).mpr ⟨hzombie, halive⟩
    exact hpr (hsafe.inv.zombified (by simp [hphase]) (by simp [hphase]) p hmem)
  have hone : p ≠ 1 := by
    rintro rfl
    rw [hsafe.inv.alive] at hdead
    cases hdead
  have hrunning : s.runningProcess = some r := hcore.running
  refine ⟨?_, by simp [View.stage, hzombie, hdead], fun c hc => ?_⟩
  · rw [hrunning, ne_eq, Option.some_inj]
    exact hpr.symm
  · exact (hcore.closed p c hone (fun hfalse => hfalse) hdead hc).1

/-- The assertions of `zombify`, `destroy`, `deallocate` and of what they give back. -/
def Panic.ofDeath : Panic → Bool
  | .deallocate => true
  | .zombifyInit => true
  | .zombifyState => true
  | .destroyInit => true
  | .destroyState => true
  | .destroyStacks => true
  | .memBug => true
  | .processTableUnregister => true
  | _ => false

theorem Excused.ofDeath {a b : Prop} {e : Panic} (h : Excused a b e) : e.ofDeath = false := by
  cases e <;> first | rfl | exact False.elim h

theorem Fails.ofDeath {e : Panic} (h : Fails step s r e) (hinit : s.view.state 1 ≠ .zombie) :
    e.ofDeath = false := by
  rcases h with (hexcused | ⟨-, hzombie⟩) | hexcused | ⟨rfl, -⟩ | hconsole
  · exact hexcused.ofDeath
  · exact absurd hzombie hinit
  · exact hexcused.ofDeath
  · rfl
  · cases hconsole <;> rfl

/-- The end of processes in a state: what the history says, who holds stacks, who is
taken next, and what the next step does. -/
structure TwoStages (s : Kernel) : Prop where
  life : ∀ p, life p s.history = some (s.view.stage p)
  backed : Backed s.view.state s.view.dead s.stackData
  free : s.freePids.Nodup ∧ ∀ p, p ∈ s.freePids ↔ IsPid p ∧ s.view.stage p = .free
  zombify : ∀ p, zombifies s = some p →
    s.runningProcess ≠ some p ∧ s.view.stage p = .terminated
  destroy : ∀ p, destroys s = some p →
    s.runningProcess ≠ some p ∧ s.view.stage p = .deallocated ∧
      ∀ c ∈ (s.data p).childsPids, (s.data c).deallocated = true
  course : ∀ step, step.enabled s → step.orderly = true → Meets (exec step s)
    (fun s' => Course s.view s'.view s.log s'.log) fun e => e.ofDeath = false

theorem stage_eq_free : v.stage p = .free ↔ v.state p = .unset := by
  unfold View.stage
  split
  · simp_all
  · split
    · split <;> simp_all
    · simp_all

theorem two_stages (h : Running (fun _ step => step.orderly = true) s) : TwoStages s := by
  obtain ⟨r, hsafe, -, hlife⟩ := h.orderly
    (I := fun s _ => ∀ p, life p s.history = some (s.view.stage p))
    (fun s step hs => hs) booted_life
    fun s step s' r r' hsafe _ hlife hs hmoved => (hmoved.course hsafe hs).life hlife
  have hcore := hsafe.inv.core
  refine ⟨hlife, hsafe.backed, ⟨hcore.pidPool.nodup, fun p => ?_⟩,
    fun p => zombifies_stage hsafe, fun p => destroys_stage hsafe, fun step henabled hs => ?_⟩
  · rw [stage_eq_free]
    exact hcore.pidPool.mem_iff p
  · obtain ⟨r', hsafe', hinit, hmeets⟩ := h.orderly_meets (fun s step hs => hs) henabled
    refine hmeets.mono ?_ fun e he => he.ofDeath hinit
    rintro s' ⟨r'', hmoved⟩
    exact hmoved.course hsafe' hs

/-- A run in which process 3 ends, is waited for and goes through both stages. -/
theorem two_stages_run : ∃ s, SchlagOS.life 3 s.history = some .free ∧
    HistoryEvent.destroyed 3 ∈ s.history ∧ TwoStages s := by
  have hrun : ∃ s, Running (fun _ step => step.orderly = true) s ∧
      decide (SchlagOS.life 3 s.history = some .free ∧
        HistoryEvent.destroyed 3 ∈ s.history) = true :=
    Running.computed ([Event.init 4096 128, .call (.start 0x1000000 4096 200 ⟨0x1000000, 0⟩),
      .call (.exit 5), .call (.waitpid 3 0), .tick, .tick].map Event.step) []
      (by decide +kernel)
  obtain ⟨s, hrun, htest⟩ := hrun
  obtain ⟨hfree, hdestroyed⟩ := of_decide_eq_true htest
  exact ⟨s, hfree, hdestroyed, two_stages hrun⟩

end SchlagOS
