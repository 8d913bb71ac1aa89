import SchlagOS.Run.FailedStart
import SchlagOS.Run.LineEditor

/-!
# What start returns

`start` reads the pid that it returns from the slot of the new process, and only
behind its call of `schedule`.  As long as the father is neither dead nor process
1 nobody destroys that process before the father has waited for it.  A child of
process 1 is destroyed as soon as it is dead, and its slot is reset.
-/

namespace SchlagOS

open Foundation

variable {ok : Kernel → Step → Prop} {s s₁ s' t : Kernel} {step : Step} {mem : Memory}
  {r r' p c father priority : Int} {stackSize : Nat} {v v' : View} {log log' : Log}
  {pid : Int → Int} {history : List HistoryEvent}

/-! ## The pid in a slot -/

/-- Whether a slot holds its pid behind the event.  A start that fails leaves the pid there. -/
def HistoryEvent.registers (pid : Int) (before : Bool) : HistoryEvent → Bool
  | .started _ child => before || decide (child = pid)
  | .notStarted child => before || decide (child = pid)
  | .destroyed child => before && decide (child ≠ pid)
  | _ => before

/-- The slot has been given its pid, and has not been reset since. -/
def registered (pid : Int) (history : List HistoryEvent) : Bool :=
  history.foldl (HistoryEvent.registers pid) false

/-- The slots hold the pids that the history says. -/
def Numbered (pid : Int → Int) (history : List HistoryEvent) : Prop :=
  ∀ p, pid p = if registered p history then p else processNotFoundCode

theorem registered_record (event : HistoryEvent) :
    registered p (history ++ [event]) = event.registers p (registered p history) := by
  simp [registered]

theorem Numbered.record (h : Numbered pid history) {event : HistoryEvent}
    (hquiet : ∀ p before, event.registers p before = before) :
    Numbered pid (history ++ [event]) := by
  intro p
  rw [registered_record, hquiet]
  exact h p

theorem Numbered.give (h : Numbered pid history) {event : HistoryEvent}
    (hevent : ∀ q before, event.registers q before = (before || decide (p = q))) :
    Numbered (Function.update pid p p) (history ++ [event]) := by
  intro q
  rw [registered_record, hevent]
  by_cases hq : q = p
  · simp [hq]
  · rw [Function.update_of_ne hq, h q]
    simp [Ne.symm hq]

theorem Numbered.reset (h : Numbered pid history) :
    Numbered (Function.update pid p processNotFoundCode) (history ++ [.destroyed p]) := by
  intro q
  rw [registered_record]
  by_cases hq : q = p
  · simp [hq, HistoryEvent.registers]
  · rw [Function.update_of_ne hq, h q]
    simp [HistoryEvent.registers, Ne.symm hq]

theorem Numbered.awoken (h : Numbered pid history) (pids : List Int) :
    Numbered pid (history ++ pids.map fun p => .awoken p .blockedByMessage) := by
  induction pids generalizing history with
  | nil => simpa using h
  | cons x pids ih =>
      have hx : Numbered pid (history ++ [.awoken x .blockedByMessage]) :=
        h.record fun _ _ => rfl
      simpa using ih hx

/-- A primitive gives pids to the slots for which `start` asks. -/
theorem Effect.numbered (heffect : Effect step r v log v' log')
    (h : Numbered v.pid log.history) : Numbered v'.pid log'.history := by
  cases heffect
  case start => exact h.give fun _ _ => rfl
  case startFails => exact h.give fun _ _ => rfl
  case reset fid queue fids nbQueues state processQueue resetReleases frames pids events hlive
      hevent hpids hstate hreleases hwaiters hmessages hframes =>
    have hreset : Numbered v.pid (log.history ++ pids.map (.awoken · .blockedByMessage) ++
        [.queueReset fid]) := (h.awoken pids).record fun _ _ => rfl
    dsimp only
    cases hevent with
    | preset => simpa using hreset
    | pdelete =>
        have hdeleted : Numbered v.pid (log.history ++ pids.map (.awoken · .blockedByMessage) ++
            [.queueReset fid] ++ [.deleted fid]) := hreset.record fun _ _ => rfl
        simpa using hdeleted
  case hand => exact (h.record fun _ _ => rfl).record fun _ _ => rfl
  case swap => exact ((h.record fun _ _ => rfl).record fun _ _ => rfl).record fun _ _ => rfl
  case goOn => exact h
  case sleeps => exact h
  case alarm => exact h
  case reprioritise => exact h
  all_goals exact h.record fun _ _ => rfl

theorem Turn.numbered (hturn : Turn r s s') (h : Numbered s.view.pid s.history) :
    Numbered s'.view.pid s'.history := by
  have hhistory : ∀ {log : Log}, s'.log = log → s'.history = log.history :=
    fun heq => congrArg Log.history heq
  cases hturn with
  | pass _ hview hlog =>
      rw [hview, hhistory hlog]
      exact h
  | resume _ _ _ _ hview hlog _ =>
      rw [hview, hhistory hlog]
      exact h.record fun _ _ => rfl
  | zombify _ _ _ _ _ _ hzombified hlog =>
      rw [hzombified.view, hhistory hlog]
      exact h.record fun _ _ => rfl
  | destroy _ _ hdestroyed hlog =>
      rw [hdestroyed.view, hhistory hlog]
      exact h.reset
  | switch _ _ _ _ _ _ _ _ hview hlog =>
      rw [hview, hhistory hlog]
      exact h

theorem booted_numbered : Numbered booted.view.pid booted.history := by
  intro p
  have hhistory : booted.history = [.created 0 keyBufferSize, .started processNotFoundCode 1] :=
    rfl
  rw [hhistory]
  by_cases hp : p = 1
  · subst hp
    rfl
  · have hpid : booted.view.pid p = processNotFoundCode := by
      have hslot : booted.data p = noProcess := Function.update_of_ne hp _ _
      exact congrArg Process.pid hslot
    rw [hpid]
    simp [registered, HistoryEvent.registers, Ne.symm hp]

theorem Running.numbered (h : Running ok s) (htame : Tame ok) :
    Numbered s.view.pid s.history := by
  obtain ⟨r, -, hnumbered, -⟩ := h.tame (I := fun s _ => Numbered s.view.pid s.history) htame
    booted_numbered fun s step s' r r' _ hI _ hmoved => by
      rcases hmoved.change with ⟨-, -, heffect⟩ | hturn
      · exact heffect.numbered hI
      · exact hturn.numbered hI
  exact hnumbered

/-! ## A child that nobody takes away -/

/-- `p` is dead, or `c` is a child of it that has not been sealed. -/
def View.keeps (v : View) (p c : Int) : Prop := v.state p = .zombie ∨ v.unreaped p c

/-- A dead process other than the running one stays dead. -/
theorem Effect.zombie (heffect : Effect step r v log v' log') (hcore : Core v r fun _ => False)
    (hpr : p ≠ r) (h : v.state p = .zombie) : v'.state p = .zombie := by
  have hmove : ∀ (x : Int) (b : ProcessState), v.state x ≠ .zombie →
      Function.update v.state x b p = .zombie := by
    intro x b hx
    rw [Function.update_of_ne fun heq : p = x => hx (heq ▸ h)]
    exact h
  have hself : ∀ b : ProcessState, Function.update v.state r b p = .zombie := by
    intro b
    rw [Function.update_of_ne hpr]
    exact h
  have hwaiter : ∀ {fid : Int} {node : ProcessNodeContent},
      node ∈ (v.queues fid).waiters → v.state node.pid ≠ .zombie := by
    intro fid node hnode
    rw [hcore.locked.listed.blocked_of_mem hnode]
    decide
  cases heffect
  case start hfree _ _ _ _ => exact hmove _ _ (by rw [hfree.2]; decide)
  case kill hevent hused halive hqueues hframes => exact hmove _ _ halive
  case alarm hstate hsleep hframes =>
    rcases hstate p with heq | ⟨hold, -⟩
    · exact heq.trans h
    · rw [h] at hold
      cases hold
  case reset hlive hevent hpids hstate hreleases hwaiters hmessages hframes =>
    dsimp only
    rw [hstate, if_neg]
    · exact h
    · rw [← hpids]
      intro hmem
      obtain ⟨node, hnode, rfl⟩ := List.mem_map.mp hmem
      exact hwaiter hnode h
  case hand hsame hwaiters hempty hempty' hframes =>
    exact hmove _ _ (hwaiter (by rw [hwaiters]; simp))
  case swap hsame hwaiters hold hnew hframes =>
    exact hmove _ _ (hwaiter (by rw [hwaiters]; simp))
  case exit => exact hself _
  case waits => exact hself _
  case sleeps => exact hself _
  case blockSend => exact hself _
  case blockReceive => exact hself _
  all_goals exact h

/-- A primitive of another process takes no child of `p` away. -/
theorem Effect.unreaped (heffect : Effect step r v log v' log') (hpr : p ≠ r)
    (h : v.unreaped p c) : v'.unreaped p c := by
  obtain ⟨hused, hfather, hsealed⟩ := h
  have hmove : ∀ (x : Int) (b : ProcessState), b ≠ .unset →
      Function.update v.state x b c ≠ .unset := by
    intro x b hb
    rw [Function.update_apply]
    split
    · exact hb
    · exact hused
  have hborn : ∀ {x : Int}, freePid v.state x → Function.update v.father x r c = p := by
    intro x hx
    rw [Function.update_of_ne fun heq : c = x => hused (heq ▸ hx.2)]
    exact hfather
  cases heffect
  case start hfree _ _ _ _ => exact ⟨hmove _ _ (by decide), hborn hfree, hsealed⟩
  case startFails hstarts hfails hfree hpx horder horder' hwasted hframes =>
    exact ⟨hused, hborn hfree, hsealed⟩
  case reap x frames hunreaped hzombie hrequest hframes =>
    refine ⟨hused, hfather, ?_⟩
    dsimp only
    rw [Function.update_of_ne]
    · exact hsealed
    · rintro rfl
      exact hpr (hfather.symm.trans hunreaped.2.1)
  case alarm hstate hsleep hframes =>
    refine ⟨?_, hfather, hsealed⟩
    rcases hstate c with heq | ⟨-, hnew⟩
    · exact fun hunset => hused (heq.symm.trans hunset)
    · dsimp only
      rw [hnew]
      decide
  case reset hlive hevent hpids hstate hreleases hwaiters hmessages hframes =>
    refine ⟨?_, hfather, hsealed⟩
    dsimp only
    rw [hstate]
    split
    · decide
    · exact hused
  case exit => exact ⟨hmove _ _ (by decide), hfather, hsealed⟩
  case kill => exact ⟨hmove _ _ (by decide), hfather, hsealed⟩
  case waits => exact ⟨hmove _ _ (by decide), hfather, hsealed⟩
  case sleeps => exact ⟨hmove _ _ (by decide), hfather, hsealed⟩
  case hand => exact ⟨hmove _ _ (by decide), hfather, hsealed⟩
  case swap => exact ⟨hmove _ _ (by decide), hfather, hsealed⟩
  case blockSend => exact ⟨hmove _ _ (by decide), hfather, hsealed⟩
  case blockReceive => exact ⟨hmove _ _ (by decide), hfather, hsealed⟩
  all_goals exact ⟨hused, hfather, hsealed⟩

theorem Effect.keeps (heffect : Effect step r v log v' log') (hcore : Core v r fun _ => False)
    (hpr : p ≠ r) (h : v.keeps p c) : v'.keeps p c :=
  h.imp (heffect.zombie hcore hpr) (heffect.unreaped hpr)

/-- The children that `zombify` takes from a process are those of a dead one. -/
theorem Zombified.keeps {x : Int} (hzombified : Zombified v v' x)
    (hcore : Core v r fun _ => False) (hone : p ≠ 1) (h : v.keeps p c) : v'.keeps p c := by
  have hdead : v.state p = .zombie → v'.state p = .zombie := by
    intro hzombie
    rcases hzombified.state with ⟨heq, hwakes⟩ | ⟨heq, -⟩
    · have hne : p ≠ v.father x := by
        rintro rfl
        rw [hwakes.1] at hzombie
        cases hzombie
      rw [heq, Function.update_of_ne hne]
      exact hzombie
    · rw [heq]
      exact hzombie
  rcases h with hzombie | ⟨hused, hfather, hsealed⟩
  · exact .inl (hdead hzombie)
  by_cases halive : v.state p = .zombie
  · exact .inl (hdead halive)
  have hzombie : v.state x = .zombie :=
    ((hcore.pending.mem_zombify x).mp (hzombified.perm.mem_iff.mpr (by simp))).1
  have hnot : c ∉ v.childs x := by
    intro hmem
    have hx := (hcore.family.child x c hzombified.ne_one hmem).2.1
    rw [hfather] at hx
    exact halive (hx ▸ hzombie)
  refine .inr ⟨?_, ?_, ?_⟩
  · rw [ne_eq, hzombified.used c]
    exact hused
  · rw [hzombified.view]
    dsimp only
    unfold adopted
    rw [if_neg fun hc => hnot hc.1]
    exact hfather
  · rw [← Bool.not_eq_true, hzombified.sealed_iff]
    rintro (hc | ⟨hmem, -⟩ | ⟨rfl, -, hcloses⟩)
    · rw [hsealed] at hc
      cases hc
    · exact hnot hmem
    · rw [hfather] at hcloses
      exact hcloses.elim halive hone

/-- Only sealed processes are destroyed. -/
theorem Destroyed.keeps {x : Int} (hdestroyed : Destroyed v v' x)
    (hcore : Core v r fun _ => False) (hpx : p ≠ x) (h : v.keeps p c) : v'.keeps p c := by
  have hsealed : v.isSealed x = true := by
    apply (hcore.pending.mem_destroy x).mp
    rw [hdestroyed.last]
    simp
  rw [hdestroyed.view]
  rcases h with hzombie | ⟨hused, hfather, hunsealed⟩
  · left
    dsimp only
    rw [Function.update_of_ne hpx]
    exact hzombie
  · have hcx : c ≠ x := by
      rintro rfl
      rw [hsealed] at hunsealed
      cases hunsealed
    right
    unfold View.unreaped
    dsimp only
    rw [Function.update_of_ne hcx, Function.update_of_ne hcx, Function.update_of_ne hcx]
    exact ⟨hused, hfather, hunsealed⟩

/-- A turn of `schedule` that does not reset the slot of `p` takes no child of `p` away. -/
theorem Turn.keeps (hturn : Turn r s s') (hcore : Core s.view r fun _ => False) (hone : p ≠ 1)
    (hcall : s'.view.call p ≠ []) (h : s.view.keeps p c) : s'.view.keeps p c := by
  cases hturn with
  | pass _ hview _ =>
      rw [hview]
      exact h
  | resume _ _ _ _ hview _ _ =>
      rw [hview]
      exact h
  | zombify x stack _ _ _ _ hzombified _ => exact hzombified.keeps hcore hone h
  | destroy x _ hdestroyed _ =>
      refine hdestroyed.keeps hcore ?_ h
      rintro rfl
      rw [hdestroyed.view] at hcall
      exact hcall (Function.update_self _ _ _)
  | switch x state processQueue _ hp hp' hr hother hview _ =>
      have hiff : ∀ {b : ProcessState}, b ≠ .waiting ∧ b ≠ .running →
          ∀ y, state y = b ↔ s.view.state y = b :=
        fun hb => switched_iff hb hp hp' hr hother
      rw [hview]
      refine h.imp (hiff (by decide) p).mpr fun hc => ⟨?_, hc.2⟩
      exact fun hunset => hc.1 ((hiff (by decide) c).mp hunset)

/-! ## The end of start -/

/-- What most of `start` leaves alone. -/
private def Kernel.course (s : Kernel) : List HistoryEvent × List Frame := (s.history, s.control)

/-- `start` has given the pid back, or the new process is in the tables and `start` goes on
behind its `schedule`. -/
inductive Began (s s' : Kernel) (father p : Int) : Prop
  | fails (hhistory : s'.history = s.history ++ [.notStarted p])
  | starts (hhistory : s'.history = s.history ++ [.started father p])
      (hcontrol : base s'.control = .startReturn p :: s.control)

private theorem Began.of_course (h : Began s s' father p) {s₀ : Kernel}
    (hcourse : s.course = s₀.course) : Began s₀ s' father p := by
  have hhistory : s.history = s₀.history := congrArg Prod.fst hcourse
  have hcontrol : s.control = s₀.control := congrArg Prod.snd hcourse
  cases h with
  | fails h => exact .fails (by rw [h, hhistory])
  | starts h hframes => exact .starts (by rw [h, hhistory]) (by rw [hframes, hcontrol])

private theorem register_course : Yields (processTableRegister s)
    fun registered => registered.2.course = s.course := by
  unfold processTableRegister
  exact .skip _ fun _ => rfl

private theorem queueAdd_course : Yields (queueAdd s p) fun s' => s'.course = s.course := by
  unfold queueAdd
  exact .skip _ fun _ => rfl

private theorem unregister_course : Yields (processTableUnregister s p)
    fun s' => s'.course = s.course := by
  unfold processTableUnregister
  exact .skip _ fun _ => rfl

private theorem kernelStackFree_course (stack : Option Nat) : Yields (kernelStackFree s stack)
    fun s' => s'.course = s.course := by
  unfold kernelStackFree
  exact .skip _ fun _ => .skip _ fun _ => rfl

private theorem addHead_course : Yields (processChildListAddHead mem s father p)
    fun s' => s'.course = s.course := by
  unfold processChildListAddHead
  exact .skip _ fun _ => rfl

private theorem startReady_began : Yields (start.startReady s father p priority)
    fun s' => Began s s' father p := by
  unfold start.startReady
  refine queueAdd_course.bind fun s₁ hs₁ => ?_
  have hcourse : s₁.course = s.course := hs₁
  have hstarts : ∀ s' : Kernel, s'.history = s₁.history ++ [.started father p] →
      base s'.control = .startReturn p :: s₁.control → Began s s' father p :=
    fun s' hhistory hcontrol => Began.of_course (.starts hhistory hcontrol) hcourse
  refine .ite (fun _ => ?_) fun _ => ?_
  · exact hstarts _ rfl rfl
  · exact hstarts _ rfl rfl

private theorem startStacks_began :
    Yields (start.startStacks mem s father p priority stackSize)
      fun s' => Began s s' father p := by
  unfold start.startStacks
  refine .ite (fun _ => ?_) fun _ => .ite (fun _ => .skip _ fun _ => ?_) fun _ => ?_
  · -- There is no kernel stack.
    refine unregister_course.bind fun s₁ hs₁ => ?_
    exact Began.of_course (s := s₁) (.fails rfl) hs₁
  · refine .ite (fun _ => ?_) fun _ => .skip _ fun _ => ?_
    · refine unregister_course.bind fun s₁ hs₁ => ?_
      refine (kernelStackFree_course _).bind fun s₂ hs₂ => ?_
      exact Began.of_course (s := s₂) (.fails rfl) (hs₂.trans hs₁)
    · refine addHead_course.bind fun s₁ hs₁ => ?_
      exact startReady_began.mono fun s' hs' => hs'.of_course hs₁
  · refine .skip _ fun _ => ?_
    exact startReady_began.mono fun s' hs' => hs'.of_course rfl

theorem start_began (name : Option UserString)
    (haccepts : startAccepts s.currentSize stackSize priority) :
    Yields (start mem s stackSize priority name) fun s' => ∃ father p, Began s s' father p := by
  have hread : ∀ s₁ : Kernel, (s₁.readName name).course = s₁.course := by
    intro s₁
    cases name <;> rfl
  unfold startAccepts at haccepts
  unfold start
  rw [if_neg (by omega)]
  refine register_course.bind fun registered hregistered => .skip _ fun _ => ?_
  obtain ⟨q, s₁⟩ := registered
  refine startStacks_began.mono fun s' hs' => ⟨_, _, hs'.of_course ?_⟩
  exact (hread _).trans hregistered

/-- A primitive that records a new process has started it for the running one. -/
theorem Effect.created (heffect : Effect step r v log v' log')
    (h : log'.history = log.history ++ [.started p c]) :
    p = r ∧ freePid v.state c ∧ v'.state c = .waiting ∧ v'.father c = r ∧
      v'.isSealed = v.isSealed := by
  cases heffect
  case start x _ _ _ _ hfree _ _ _ _ =>
    simp only [Log.record, List.append_cancel_left_eq, List.cons.injEq, and_true,
      HistoryEvent.started.injEq] at h
    obtain ⟨rfl, rfl⟩ := h
    exact ⟨rfl, hfree, Function.update_self _ _ _, Function.update_self _ _ _, rfl⟩
  case reset fid queue fids nbQueues state processQueue resetReleases frames pids events hlive
      hevent hpids hstate hreleases hwaiters hmessages hframes =>
    dsimp only at h
    rw [List.append_assoc, List.append_cancel_left_eq] at h
    have hmem : HistoryEvent.queueReset fid ∈ [HistoryEvent.started p c] := by
      rw [← h]
      simp
    simp at hmem
  all_goals simp [Log.record] at h

theorem Turn.not_created (hturn : Turn r s s') :
    s'.history ≠ s.history ++ [.started p c] := by
  have hhistory : ∀ {log : Log}, s'.log = log → s'.history = log.history :=
    fun heq => congrArg Log.history heq
  have hlog : s.log.history = s.history := rfl
  intro h
  cases hturn with
  | pass _ _ hpass =>
      rw [hhistory hpass, hlog] at h
      simp at h
  | resume _ _ _ _ _ hresume _ =>
      rw [hhistory hresume] at h
      simp [Log.record, hlog] at h
  | zombify _ _ _ _ _ _ _ hzombify =>
      rw [hhistory hzombify] at h
      simp [Log.record, hlog] at h
  | destroy _ _ _ hdestroy =>
      rw [hhistory hdestroy] at h
      simp [Log.record, hlog] at h
  | switch _ _ _ _ _ _ _ _ _ hswitch =>
      rw [hhistory hswitch, hlog] at h
      simp at h

/-! ## The call -/

/-- How far a call of `start` by `p` has come that has created `c`. -/
inductive StartStage (p c : Int) (s : Kernel) : Prop
  | inside (hcall : s.view.call p = [.startReturn c]) (hkept : p ≠ 1 → s.view.keeps p c)
  | returned (hrunning : s.runningProcess = some p) (hvalue : s.eax = s.view.pid c)
      (hstack : s.stack p = []) (hkept : p ≠ 1 → s.view.keeps p c)
  | lost (hstack : s.stack p = []) (hother : s.runningProcess ≠ some p)

/-- A call of `start` that creates a process goes on with its pid. -/
theorem start_control (hstart : step.event.isStart = true) (hrun : exec step s = .ok s₁)
    (hcreated : s₁.history = s.history ++ [.started p c]) :
    base s₁.control = .startReturn c :: s.control := by
  have hbegan : ∃ father q, Began s s₁ father q := by
    rcases exec_start (s := s) hstart with ⟨-, hexec⟩ | ⟨-, size, priority, name, haccepts, hexec⟩
    · rw [hexec, Except.ok.injEq] at hrun
      rw [← hrun] at hcreated
      simp [Kernel.ret] at hcreated
    · rw [hexec] at hrun
      exact (start_began name haccepts).of_ok hrun
  obtain ⟨father, q, hbegan⟩ := hbegan
  cases hbegan with
  | fails hhistory =>
      rw [hcreated] at hhistory
      simp at hhistory
  | starts hhistory hcontrol =>
      rw [hcreated] at hhistory
      simp only [List.append_cancel_left_eq, List.cons.injEq, and_true,
        HistoryEvent.started.injEq] at hhistory
      rw [hhistory.2]
      exact hcontrol

/-- The pid of the new process is a pid that was free. -/
theorem start_stage (hsafe : Safe s r) (henabled : step.enabled s)
    (hstart : step.event.isStart = true) (hrun : exec step s = .ok s₁)
    (hcreated : s₁.history = s.history ++ [.started p c]) : IsPid c ∧ StartStage p c s₁ := by
  have hcareful := careful_of_isStart henabled hstart
  obtain ⟨r', hmoved⟩ := (exec_meets hsafe henabled hcareful).of_ok hrun
  rcases hmoved.change with ⟨-, hr', heffect⟩ | hturn
  · obtain ⟨rfl, hfree, hstate, hfather, hsealed⟩ := heffect.created hcreated
    have hunsealed : s.view.isSealed c = false := by
      rw [← Bool.not_eq_true]
      intro htrue
      have hzombie := hsafe.inv.core.pending.sealed_zombie c htrue
      rw [hfree.2] at hzombie
      cases hzombie
    have hkept : s₁.view.unreaped p c := by
      refine ⟨?_, hfather, by rw [hsealed]; exact hunsealed⟩
      rw [hstate]
      decide
    refine ⟨hfree.1, .inside ?_ fun _ => .inr hkept⟩
    have hrunning : s₁.runningProcess = some p := hr' ▸ hmoved.safe.inv.core.running
    have hcontrol := start_control hstart hrun hcreated
    rw [control_of_isStart henabled hstart] at hcontrol
    exact (s₁.call_running hrunning).trans hcontrol
  · exact absurd hcreated hturn.not_created

/-- A turn of `schedule` leaves the frames behind it. -/
theorem Turn.call (hturn : Turn r s s') (hcore : Core s.view r fun _ => False)
    (hresume : ∀ frame, (s.view.call r).head? = some frame → frame.isResume = false) :
    s'.view.call r = s.view.call r := by
  cases hturn with
  | pass _ hview _ => rw [hview]
  | resume _ _ hcall _ _ _ _ =>
      obtain ⟨frame, hframe, hresumes⟩ := hcall
      rw [hresume frame hframe] at hresumes
      cases hresumes
  | zombify _ _ _ _ _ _ hzombified _ => rw [hzombified.view]
  | destroy x _ hdestroyed _ =>
      have hsealed : s.view.isSealed x = true := by
        apply (hcore.pending.mem_destroy x).mp
        rw [hdestroyed.last]
        simp
      rw [hdestroyed.view]
      exact Function.update_of_ne (Ne.symm (hcore.pending.sealed_ne x hsealed)) _ _
  | switch _ _ _ _ _ _ _ _ hview _ => rw [hview]

theorem StartStage.next (h : StartStage p c s) (hsafe : Safe s r)
    (hmoved : Moved step s s' r r') (henabled : (untilReturn p).enabled s step)
    (hrun : exec step s = .ok s') : StartStage p c s' := by
  obtain ⟨hsome, henabled⟩ := henabled
  have hcore := hsafe.inv.core
  have hrunning : s.runningProcess = some r := hcore.running
  cases h with
  | returned _ _ hstack _ => exact absurd hstack hsome
  | lost hstack _ => exact absurd hstack hsome
  | inside hcall hkept =>
      have hturned : Turn r s s' → s'.view.call p = [.startReturn c] → StartStage p c s' := by
        intro hturn hcall'
        refine .inside hcall' fun hone => hturn.keeps hcore hone ?_ (hkept hone)
        rw [hcall']
        exact List.cons_ne_nil _ _
      by_cases hpr : p = r
      · subst hpr
        rcases hmoved.change with ⟨hphase, -, -⟩ | hturn
        · rw [Kernel.stack_running hrunning] at hsome
          have hcontrol : s.control = [.startReturn c] := by
            rw [s.call_running hrunning] at hcall
            cases hframes : s.control with
            | nil => exact absurd hframes hsome
            | cons frame rest =>
                rw [hframes] at hcall hphase
                cases frame with
                | schedule phase => cases hphase
                | _ => exact hcall
          rw [exec_kernel henabled hsome] at hrun
          unfold kernelStep at hrun
          rw [hcontrol] at hrun
          cases hrun
          exact .returned hrunning rfl (Kernel.stack_running hrunning) hkept
        · refine hturned hturn ((hturn.call hcore fun frame hframe => ?_).trans hcall)
          rw [hcall, List.head?_cons, Option.some_inj] at hframe
          rw [← hframe]
          rfl
      · obtain ⟨-, hstack | ⟨hnil, hother⟩⟩ := exec_bystander hrunning hpr hrun
        · have hcall' : s'.view.call p = [.startReturn c] := (congrArg base hstack).trans hcall
          rcases hmoved.change with ⟨-, -, heffect⟩ | hturn
          · exact .inside hcall' fun hone => heffect.keeps hcore hpr (hkept hone)
          · exact hturned hturn hcall'
        · exact .lost hnil hother

/-- What a call of `start` returns that has created a process. -/
theorem start_returns (h : Running ok s) (htame : Tame ok) (henabled : step.enabled s)
    (hok : ok s step) (hstart : step.event.isStart = true) (hrun : exec step s = .ok s₁)
    (hcreated : s₁.history = s.history ++ [.started p c])
    (hpath : Reach (untilReturn p) s₁ ok t)
    (hreturned : t.runningProcess = some p ∧ t.stack p = []) :
    0 < c ∧ t.eax = if p = 1 ∧ registered c t.history = false then processNotFoundCode else c := by
  have hsafe : ∀ {x : Kernel}, Running ok x → ∃ r, Safe x r ∧ ∀ step, step.enabled x →
      ok x step → Meets (exec step x) (fun x' => ∃ r', Moved step x x' r r') (Fails step x r) := by
    intro x hx
    obtain ⟨r, hsafe, -, hnext⟩ := hx.tame (I := fun _ _ => True) htame trivial
      fun _ _ _ _ _ _ _ _ _ => trivial
    exact ⟨r, hsafe, hnext⟩
  obtain ⟨r, hs, -⟩ := hsafe h
  obtain ⟨hc, hstage⟩ := start_stage hs henabled hstart hrun hcreated
  obtain ⟨hrunning, hstage⟩ := hpath.invariant
    (I := fun x => Running ok x ∧ StartStage p c x) ⟨h.next henabled hok hrun, hstage⟩ (by
      rintro x step x' - ⟨hx, hstage⟩ henabled hok hrun
      obtain ⟨r, hs, hnext⟩ := hsafe hx
      obtain ⟨r', hmoved⟩ := (hnext step henabled.2 hok).of_ok hrun
      exact ⟨hx.next henabled.2 hok hrun, hstage.next hs hmoved henabled hrun⟩)
  refine ⟨hc.1, ?_⟩
  cases hstage with
  | inside hcall _ =>
      have hnil : t.view.call p = [] := congrArg base hreturned.2
      rw [hnil] at hcall
      cases hcall
  | lost _ hother => exact absurd hreturned.1 hother
  | returned _ hvalue hstack hkept =>
      rw [hvalue]
      by_cases hone : p = 1
      · rw [hrunning.numbered htame c]
        cases hreset : registered c t.history with
        | false => simp [hone]
        | true => simp
      · obtain ⟨r, hs, -⟩ := hsafe hrunning
        have hr : r = p := by
          have heq := hs.inv.core.running.symm.trans hreturned.1
          exact Option.some.inj heq
        have hrunningState : t.view.state p = .running := by
          rw [← hr]
          refine hs.inv.running (.inl ?_)
          rw [← Kernel.stack_running hreturned.1, hstack]
          rfl
        rw [if_neg fun h => hone h.1]
        rcases hkept hone with hzombie | hunreaped
        · rw [hrunningState] at hzombie
          cases hzombie
        · exact hs.inv.core.pid_eq hunreaped.1

/-- A call of `start` that has created a process returns the pid of that process, and not -1,
if and only if the caller is not process 1 or the slot of the process has not been reset for
good when the caller goes on. -/
theorem start_returns_iff (h : Running ok s) (htame : Tame ok) (henabled : step.enabled s)
    (hok : ok s step) (hstart : step.event.isStart = true) (hrun : exec step s = .ok s₁)
    (hcreated : s₁.history = s.history ++ [.started p c])
    (hpath : Reach (untilReturn p) s₁ ok t)
    (hreturned : t.runningProcess = some p ∧ t.stack p = []) :
    (t.eax = c ∧ t.eax ≠ -1) ↔ (p = 1 → registered c t.history = true) := by
  obtain ⟨hpos, heax⟩ := start_returns h htame henabled hok hstart hrun hcreated hpath hreturned
  rw [heax]
  constructor
  · rintro ⟨-, hne⟩ hone
    rw [← Bool.not_eq_false]
    intro hreset
    rw [if_pos ⟨hone, hreset⟩] at hne
    exact hne rfl
  · intro hcond
    rw [if_neg]
    · exact ⟨rfl, by omega⟩
    · rintro ⟨hone, hreset⟩
      rw [hcond hone] at hreset
      cases hreset

/-! ## Two starts of process 1 -/

/-- Process 1 starts process 2, and its call returns `value` behind the steps of the list. -/
private def returnsBehind (steps : List Step) (value : Int) : Bool :=
  okAnd (fun s₁ => decide (s₁.history = booted.history ++ [.started 1 2]) &&
      checkRun (untilReturn 1) (fun _ step => step.orderly = true)
        (fun t => decide ((t.runningProcess = some 1 ∧ t.stack 1 = []) ∧ t.eax = value)) s₁ steps)
    (exec (Event.init 4096 128).step booted)

private theorem returned_behind (steps : List Step) (value : Int)
    (h : returnsBehind steps value = true) :
    ∃ s₁ t : Kernel, exec (Event.init 4096 128).step booted = .ok s₁ ∧
      s₁.history = booted.history ++ [.started 1 2] ∧
      Reach (untilReturn 1) s₁ (fun _ step => step.orderly = true) t ∧
      (t.runningProcess = some 1 ∧ t.stack 1 = []) ∧ t.eax = value := by
  obtain ⟨s₁, hrun, htest⟩ := okAnd_iff.mp h
  rw [Bool.and_eq_true, decide_eq_true_eq] at htest
  obtain ⟨t, hpath, heax⟩ := Reach.of_checkRun .start htest.2
  obtain ⟨hreturned, heax⟩ := of_decide_eq_true heax
  exact ⟨s₁, t, hrun, htest.1, hpath, hreturned, heax⟩

private theorem booted_running : Running (fun _ step => step.orderly = true) booted :=
  ⟨booted, kernelStart_eq, .start⟩

/-- Process 2 exits at once, and its slot is not reset before process 1 goes on. -/
theorem start_returns_iff_run : ∃ s₁ t : Kernel, exec (Event.init 4096 128).step booted = .ok s₁ ∧
    (t.runningProcess = some 1 ∧ t.stack 1 = []) ∧ t.eax = 2 ∧
      registered 2 t.history = true := by
  obtain ⟨s₁, t, hrun, hcreated, hpath, hreturned, heax⟩ := returned_behind
    (List.replicate 3 Event.kernel.step ++ [(Event.call (.exit 0)).step] ++
      List.replicate 4 Event.kernel.step) 2 (by decide +kernel)
  have henabled : (Event.init 4096 128).step.enabled booted := ⟨rfl, rfl⟩
  have htame : Tame fun _ step => step.orderly = true :=
    .inl fun _ _ hstep => (Step.orderly_iff.mp hstep).1
  have hiff := start_returns_iff booted_running htame henabled (by decide) rfl hrun hcreated
    hpath hreturned
  exact ⟨s₁, t, hrun, hreturned, heax, hiff.mp ⟨heax, by rw [heax]; decide⟩ rfl⟩

/-- Process 2 starts process 3 and exits, and in the `exit` of process 3 its slot is reset
before process 1 goes on. -/
theorem start_returns_reset : ∃ s₁ t : Kernel, Running (fun _ step => step.orderly = true) booted ∧
    exec (Event.init 4096 128).step booted = .ok s₁ ∧
      s₁.history = booted.history ++ [.started 1 2] ∧
      Reach (untilReturn 1) s₁ (fun _ step => step.orderly = true) t ∧
      (t.runningProcess = some 1 ∧ t.stack 1 = []) ∧ t.eax = -1 := by
  obtain ⟨s₁, t, hreturns⟩ := returned_behind (List.replicate 3 Event.kernel.step ++
      [(Event.call (.start 0x1000000 4096 100 ⟨0x1000000, 0⟩)).step, Event.kernel.step,
        (Event.call (.exit 0)).step] ++ List.replicate 3 Event.kernel.step ++
      [(Event.call (.exit 0)).step] ++ List.replicate 6 Event.kernel.step) (-1)
    (by decide +kernel)
  exact ⟨s₁, t, booted_running, hreturns⟩

end SchlagOS
