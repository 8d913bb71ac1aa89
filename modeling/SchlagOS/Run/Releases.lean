import SchlagOS.Run.Arrivals

/-!
# Calls that go on behind a block

`psend` and `preceive` tell a call that was released by `preset` or `pdelete` from
one that was served by the mark that the reset leaves in `reset_releases`.  The
mark is cleared when the call goes on, so a `kill` in between leaves it for the
next process with that pid.
-/

namespace SchlagOS

open Foundation

variable {ok : Kernel → Step → Prop} {s s' : Kernel} {step : Step} {r r' p fid : Int}
  {v v' : View} {log log' : Log} {releases releases' : Int → Bool}

/-- What became of the call for a message in which a process has blocked. -/
inductive Fate where
  | none
  | blocked (fid : Int)
  | reset
  | served
  deriving DecidableEq, Repr

def Fate.next (p : Int) (fate : Fate) : HistoryEvent → Fate
  | .blockedSender pid fid _ => if pid = p then .blocked fid else fate
  | .blockedReceiver pid fid => if pid = p then .blocked fid else fate
  | .queueReset fid => if fate = .blocked fid then .reset else fate
  | .handed _ receiver fid _ =>
      if receiver = p ∧ fate = .blocked fid then .served else fate
  | .taken _ sender fid _ => if sender = p ∧ fate = .blocked fid then .served else fate
  | .resumed pid _ => if pid = p then .none else fate
  | .terminated pid _ => if pid = p then .none else fate
  | _ => fate

/-- The fate behind a history. -/
def fate (p : Int) (history : List HistoryEvent) : Fate :=
  history.foldl (Fate.next p) .none

theorem fate_append (p : Int) (history events : List HistoryEvent) :
    fate p (history ++ events) = events.foldl (Fate.next p) (fate p history) :=
  List.foldl_append

/-- The top of the stack is the rest of a call that has blocked for a message. -/
def Kernel.goesOn (s : Kernel) : Bool := s.control.head?.any Frame.isResume

/-- No process is killed between its release by a reset and the end of its call. -/
def SparesReleased (s : Kernel) (step : Step) : Prop :=
  ∀ p, step.event = .call (.kill p) → s.resetReleases (p - 1) = false

instance (s : Kernel) (step : Step) : Decidable (SparesReleased s step) :=
  decidable_of_iff (∀ p ∈ step.event.killed, s.resetReleases (p - 1) = false)
    step.event.forall_killed

/-! ## What the tables say of a fate -/

def View.ready (v : View) (p : Int) : Prop := v.state p = .waiting ∨ v.state p = .running

def View.waitsFor (v : View) (fid p : Int) : Prop :=
  p ∈ (v.queues fid).waiters.map ProcessNodeContent.pid

/-- The process is in a call that has blocked for a message. -/
def View.inCall (v : View) (p : Int) : Prop :=
  ∃ frame, (v.call p).head? = some frame ∧ frame.isResume = true

/-- The frames that a primitive leaves without blocking for a message. -/
def Unblocked (frames : List Frame) : Prop :=
  ∀ frame, frames.head? = some frame → frame.isResume = false

theorem Plain.unblocked {frames : List Frame} (h : Plain frames) : Unblocked frames :=
  fun frame hframe => (h frame hframe).2

theorem Unblocked.not_inCall (hcall : Unblocked (v.call p)) : ¬v.inCall p := by
  rintro ⟨frame, hframe, hresume⟩
  rw [hcall frame hframe] at hresume
  cases hresume

inductive Fate.Fits (v : View) (releases : Int → Bool) (p : Int) : Fate → Prop
  | none (hstate : v.state p ≠ .blockedByMessage)
      (hcall : v.state p = .zombie ∨ ¬v.inCall p) (hmark : releases (p - 1) = false) :
      Fits v releases p .none
  | blocked {fid : Int} (hwaits : v.waitsFor fid p) (hmark : releases (p - 1) = false) :
      Fits v releases p (.blocked fid)
  | reset (hready : v.ready p) (hcall : v.inCall p) (hmark : releases (p - 1) = true) :
      Fits v releases p .reset
  | served (hready : v.ready p) (hcall : v.inCall p) (hmark : releases (p - 1) = false) :
      Fits v releases p .served

namespace Fate.Fits

variable {fate : Fate}

/-- The process stays where it is, or it becomes ready. -/
theorem keep (h : Fits v releases p fate)
    (hstate : v'.state p = v.state p ∨ v.state p ≠ .blockedByMessage ∧
      v.state p ≠ .zombie ∧ v'.ready p) (hcall : v'.call p = v.call p)
    (hwaits : ∀ fid, v.waitsFor fid p → v'.waitsFor fid p)
    (hmark : releases' (p - 1) = releases (p - 1)) : Fits v' releases' p fate := by
  have hinCall : v'.inCall p ↔ v.inCall p := by
    unfold View.inCall
    rw [hcall]
  have hready : v.ready p → v'.ready p := by
    intro hold
    rcases hstate with heq | ⟨-, -, hnew⟩
    · unfold View.ready
      rwa [heq]
    · exact hnew
  cases h with
  | none hne hold hmark' =>
      refine .none ?_ ?_ (hmark.trans hmark')
      · rcases hstate with heq | ⟨-, -, hnew | hnew⟩
        · rwa [heq]
        · simp [hnew]
        · simp [hnew]
      · rw [hinCall]
        rcases hstate with heq | ⟨-, hzombie, -⟩
        · rwa [heq]
        · exact .inr (hold.resolve_left hzombie)
  | blocked hmem hmark' => exact .blocked (hwaits _ hmem) (hmark.trans hmark')
  | reset hold hin hmark' =>
      exact .reset (hready hold) (hinCall.mpr hin) (hmark.trans hmark')
  | served hold hin hmark' =>
      exact .served (hready hold) (hinCall.mpr hin) (hmark.trans hmark')

theorem blocked_state (h : Fits v releases p (.blocked fid)) (hcore : Core v r fun _ => False) :
    v.state p = .blockedByMessage := by
  cases h with
  | blocked hmem _ =>
      obtain ⟨node, hnode, rfl⟩ := List.mem_map.mp hmem
      exact hcore.locked.listed.blocked_of_mem hnode

/-- A process that waits on a queue is blocked on it. -/
theorem eq_blocked (h : Fits v releases p fate) (hcore : Core v r fun _ => False)
    (hwaits : v.waitsFor fid p) : fate = .blocked fid ∧ releases (p - 1) = false := by
  obtain ⟨node, hnode, rfl⟩ := List.mem_map.mp hwaits
  have hstate := hcore.locked.listed.blocked_of_mem hnode
  cases h with
  | none hne _ _ => exact absurd hstate hne
  | @blocked fid' hmem hmark =>
      obtain ⟨node', hnode', hpid⟩ := List.mem_map.mp hmem
      have hfid : fid = fid' :=
        hcore.locked.listed.unique fid fid' node node' hnode hnode' hpid.symm
      exact ⟨by rw [hfid], hmark⟩
  | reset hready _ _ =>
      rcases hready with h | h <;> simp [hstate] at h
  | served hready _ _ =>
      rcases hready with h | h <;> simp [hstate] at h

/-- A process that is neither ready nor locked on a queue is in no call for a message. -/
theorem eq_none (h : Fits v releases p fate) (hcore : Core v r fun _ => False)
    (hstate : v.state p ≠ .blockedByMessage) (hcall : ¬(v.ready p ∧ v.inCall p)) :
    fate = .none ∧ releases (p - 1) = false := by
  cases h with
  | none _ _ hmark => exact ⟨rfl, hmark⟩
  | blocked hmem hmark =>
      exact absurd ((Fits.blocked hmem hmark).blocked_state hcore) hstate
  | reset hready hin _ => exact absurd ⟨hready, hin⟩ hcall
  | served hready hin _ => exact absurd ⟨hready, hin⟩ hcall

end Fate.Fits

/-! ## What one step does -/

/-- The events that only tell what other processes do. -/
theorem fate_record (log : Log) (event : HistoryEvent) (p : Int) :
    fate p (log.record event).history = (fate p log.history).next p event :=
  fate_append p log.history [event]

private theorem foldl_awoken (p : Int) (state : ProcessState) (pids : List Int) (fate : Fate) :
    (pids.map fun q => HistoryEvent.awoken q state).foldl (Fate.next p) fate = fate := by
  induction pids with
  | nil => rfl
  | cons q pids ih => exact ih

private theorem fate_reset {queue : MessageQueue} {fids : LockedRing Int} {nbQueues : Nat}
    {events : List HistoryEvent} (h : Resets step v fid queue fids nbQueues events)
    (history : List HistoryEvent) (pids : List Int) (state : ProcessState) (p : Int) :
    fate p (history ++ pids.map (fun q => .awoken q state) ++ .queueReset fid :: events) =
      (fate p history).next p (.queueReset fid) := by
  rw [fate_append, fate_append, foldl_awoken]
  cases h with
  | preset => rfl
  | pdelete => rfl

/-- The process that runs a primitive is in no call for a message before it. -/
private theorem Effect.fits_self (heffect : Effect step r v log v' log')
    (hcore : Core v r fun _ => False) (hrunning : v.state r = .running)
    (hnone : fate r log.history = .none) (hmark : log.resetReleases (r - 1) = false) :
    (fate r log'.history).Fits v' log'.resetReleases r := by
  have hidle : ∀ {w : View} {log : Log} {frames : List Frame}, w.state r ≠ .blockedByMessage →
      Unblocked frames → w.call r = frames → log.resetReleases (r - 1) = false →
      fate r log.history = .none → (fate r log.history).Fits w log.resetReleases r := by
    intro w log frames hstate hframes hcall hmark hfate
    rw [hfate]
    refine .none hstate (.inr (Unblocked.not_inCall ?_)) hmark
    rwa [hcall]
  have hstate : v.state r ≠ .blockedByMessage := by
    rw [hrunning]
    decide
  have hmove : ∀ (x : Int) (b : ProcessState), b ≠ .blockedByMessage →
      Function.update v.state x b r ≠ .blockedByMessage := by
    intro x b hb
    rw [Function.update_apply]
    split
    · exact hb
    · exact hstate
  have hwaiter : ∀ {fid : Int} {node : ProcessNodeContent},
      node ∈ (v.queues fid).waiters → node.pid ≠ r := by
    rintro fid node hnode rfl
    exact hstate (hcore.locked.listed.blocked_of_mem hnode)
  have hself : ∀ frames : List Frame, Function.update v.call r frames r = frames :=
    fun frames => Function.update_self r frames v.call
  have hstarted : ∀ (p : Int) (frames : List Frame),
      Function.update (Function.update v.call p []) r frames r = frames :=
    fun p frames => Function.update_self r frames (Function.update v.call p [])
  cases heffect
  case start p _ _ _ _ frames _ _ _ _ hframes =>
    refine hidle (hmove p _ (by decide)) hframes.unblocked (hstarted p frames) hmark ?_
    simp [fate_record, Fate.next, hnone]
  case startFails p _ _ _ _ frames _ _ _ _ _ _ _ hframes =>
    refine hidle hstate hframes.unblocked (hstarted p frames) hmark ?_
    simp [fate_record, Fate.next, hnone]
  case waits frame frames _ _ _ hframe =>
    have hunblocked : Unblocked (frame :: frames) := by
      rintro f ⟨⟩
      cases frame <;> simp_all [Frame.isWaitpid, Frame.isResume]
    refine hidle (hmove r _ (by decide)) hunblocked (hself _) hmark ?_
    simp [fate_record, Fate.next, hnone]
  case blockSend fid message priority queue frames hsame _ hwaiters hfull hmessages =>
    have hfate : fate r (log.record (.blockedSender r fid message)).history = .blocked fid := by
      simp [fate_record, Fate.next]
    rw [hfate]
    refine .blocked ?_ hmark
    unfold View.waitsFor
    dsimp only
    rw [Function.update_self, hwaiters]
    exact List.mem_map.mpr ⟨_, NodeList.mem_place.mpr (.inl rfl), rfl⟩
  case blockReceive fid priority destination queue frames hsame _ hwaiters hempty hempty' =>
    have hfate : fate r (log.record (.blockedReceiver r fid)).history = .blocked fid := by
      simp [fate_record, Fate.next]
    rw [hfate]
    refine .blocked ?_ hmark
    unfold View.waitsFor
    dsimp only
    rw [Function.update_self, hwaiters]
    exact List.mem_map.mpr ⟨_, NodeList.mem_place.mpr (.inl rfl), rfl⟩
  case exit =>
    refine hidle (hmove r _ (by decide)) (Plain.unblocked ‹_›) (hself _) hmark ?_
    simp [fate_record, Fate.next]
  case kill p _ _ _ frames _ _ _ _ hframes =>
    refine hidle (hmove p _ (by decide)) hframes.unblocked (hself frames) hmark ?_
    simp [fate_record, Fate.next, hnone]
  case sleeps => exact hidle (hmove r _ (by decide)) (Plain.unblocked ‹_›) (hself _) hmark hnone
  case alarm hstate' _ hframes =>
    refine hidle ?_ hframes.unblocked (hself _) hmark hnone
    rcases hstate' r with heq | ⟨-, hnew⟩
    · dsimp only
      rwa [heq]
    · simp [hnew]
  case reset fid queue fids nbQueues state processQueue resetReleases frames pids events hlive
      hevent hpids hstate' hreleases hwaiters hmessages hframes =>
    have hnot : r ∉ pids := by
      rw [← hpids]
      intro hmem
      obtain ⟨node, hnode, hpid⟩ := List.mem_map.mp hmem
      exact hwaiter hnode hpid
    refine hidle ?_ hframes.unblocked (hself _) ?_ ?_
    · dsimp only
      rwa [hstate', if_neg hnot]
    · dsimp only
      rw [hreleases, hmark]
      simp [hnot]
    · dsimp only
      rw [fate_reset hevent, hnone]
      rfl
  case hand fid message node queue processQueue frames hsame hwaiters hempty hempty' hframes =>
    refine hidle (hmove _ _ (by decide)) hframes.unblocked (hself frames) hmark ?_
    simp [fate_record, Fate.next, hnone]
  case swap fid message messages node queue processQueue frames hsame hwaiters hold hnew
      hframes =>
    refine hidle (hmove _ _ (by decide)) hframes.unblocked (hself frames) hmark ?_
    simp [fate_record, Fate.next, hnone]
  all_goals
    refine hidle hstate (Plain.unblocked ‹_›) (hself _) hmark ?_
    first
    | exact hnone
    | simp [fate_record, Fate.next, hnone]

theorem waitsFor_update {queue : MessageQueue}
    (h : v.waitsFor fid p → p ∈ queue.waiters.map ProcessNodeContent.pid)
    (hqueues : v'.queues = Function.update v.queues fid queue) (fid' : Int)
    (hwaits : v.waitsFor fid' p) : v'.waitsFor fid' p := by
  unfold View.waitsFor
  rw [hqueues]
  by_cases hfid : fid' = fid
  · subst hfid
    rw [Function.update_self]
    exact h hwaits
  · rw [Function.update_of_ne hfid]
    exact hwaits

theorem pid_mem_eraseP {q : Int} {xs : List ProcessNodeContent} (hpq : p ≠ q)
    (h : p ∈ xs.map ProcessNodeContent.pid) :
    p ∈ (xs.eraseP (isOf q)).map ProcessNodeContent.pid := by
  obtain ⟨node, hnode, rfl⟩ := List.mem_map.mp h
  have hnot : ¬isOf q node = true := by simpa [isOf] using hpq
  exact List.mem_map_of_mem ((List.mem_eraseP_of_neg hnot).mpr hnode)

theorem pid_mem_place {node : ProcessNodeContent} {priority : Int}
    {xs : List ProcessNodeContent} (h : p = node.pid ∨ p ∈ xs.map ProcessNodeContent.pid) :
    p ∈ (NodeList.place (stands priority) node xs).map ProcessNodeContent.pid := by
  rcases h with rfl | h
  · exact List.mem_map_of_mem (NodeList.mem_place.mpr (.inl rfl))
  · obtain ⟨other, hother, rfl⟩ := List.mem_map.mp h
    exact List.mem_map_of_mem (NodeList.mem_place.mpr (.inr hother))

theorem pid_mem_reprioritised {q priority : Int} {xs : List ProcessNodeContent}
    (h : p ∈ xs.map ProcessNodeContent.pid) :
    p ∈ (reprioritised q priority xs).map ProcessNodeContent.pid := by
  unfold reprioritised
  cases hfind : xs.find? (isOf q) with
  | none => exact h
  | some content =>
      have hcontent : content.pid = q := by simpa [isOf] using List.find?_some hfind
      by_cases hpq : p = q
      · exact pid_mem_place (.inl (hpq.trans hcontent.symm))
      · exact pid_mem_place (.inr (pid_mem_eraseP hpq h))

theorem Rearranged.waitsFor {change : List ProcessNodeContent → List ProcessNodeContent}
    (h : Rearranged change v.queues v'.queues)
    (hchange : ∀ xs : List ProcessNodeContent, p ∈ xs.map ProcessNodeContent.pid →
      p ∈ (change xs).map ProcessNodeContent.pid) (fid : Int) (hwaits : v.waitsFor fid p) :
    v'.waitsFor fid p := by
  unfold View.waitsFor
  rw [h.waiters_eq fid]
  exact hchange _ hwaits

/-- A process that waits on a queue goes on in its call. -/
private theorem inCall_of_waitsFor (hcore : Core v r fun _ => False) (hwaits : v.waitsFor fid p)
    (hcall : v'.call p = v.call p) : v'.inCall p := by
  obtain ⟨node, hnode, hpid⟩ := List.mem_map.mp hwaits
  refine ⟨resumeFrame (v.queues fid) node.pid, ?_, ?_⟩
  · rw [hcall, ← hpid]
    exact hcore.locked.resume fid node hnode
  · unfold resumeFrame
    split <;> rfl

/-- The first waiter is handed a message, or its message is taken. -/
private theorem fits_served {node : ProcessNodeContent} {queue : MessageQueue}
    (h : (fate p log.history).Fits v log.resetReleases p) (hcore : Core v r fun _ => False)
    (hwaiters : (v.queues fid).waiters = node :: queue.waiters)
    (hstate : v'.state = Function.update v.state node.pid .waiting)
    (hqueues : v'.queues = Function.update v.queues fid queue) (hcall : v'.call p = v.call p)
    (hmark : log'.resetReleases = log.resetReleases)
    (hfate : fate p log'.history =
      if p = node.pid ∧ fate p log.history = .blocked fid then .served
      else fate p log.history) : (fate p log'.history).Fits v' log'.resetReleases p := by
  rw [hmark, hfate]
  by_cases hpn : p = node.pid
  · have hwaits : v.waitsFor fid p := by simp [View.waitsFor, hwaiters, hpn]
    obtain ⟨hblocked, hclear⟩ := h.eq_blocked hcore hwaits
    rw [if_pos ⟨hpn, hblocked⟩]
    exact .served (.inl (by simp [hstate, hpn])) (inCall_of_waitsFor hcore hwaits hcall) hclear
  · rw [if_neg fun hand => hpn hand.1]
    refine h.keep (.inl ?_) hcall (waitsFor_update (fun hwaits => ?_) hqueues) rfl
    · rw [hstate, Function.update_of_ne hpn]
    · simpa [View.waitsFor, hwaiters, hpn] using hwaits

/-- A process that the step does not touch. -/
private theorem fits_same (h : (fate p log.history).Fits v log.resetReleases p)
    (hstate : v'.state p = v.state p) (hcall : v'.call p = v.call p)
    (hwaits : ∀ fid, v.waitsFor fid p → v'.waitsFor fid p)
    (hmark : log'.resetReleases (p - 1) = log.resetReleases (p - 1))
    (hfate : fate p log'.history = fate p log.history) :
    (fate p log'.history).Fits v' log'.resetReleases p := by
  rw [hfate]
  exact h.keep (.inl hstate) hcall hwaits hmark

/-- A slot that is given to a new process, or back by a `start` that fails. -/
private theorem fits_unset (h : (fate p log.history).Fits v log.resetReleases p)
    (hcore : Core v r fun _ => False) (hunset : v.state p = .unset)
    (hstate : v'.state p ≠ .blockedByMessage) (hcall : v'.call p = [])
    (hmark : log'.resetReleases (p - 1) = log.resetReleases (p - 1))
    (hfate : fate p log'.history = fate p log.history) :
    (fate p log'.history).Fits v' log'.resetReleases p := by
  obtain ⟨hnone, hclear⟩ := h.eq_none hcore (by simp [hunset]) (by simp [View.ready, hunset])
  rw [hfate, hnone]
  refine .none hstate (.inr (Unblocked.not_inCall ?_)) (hmark.trans hclear)
  rw [hcall]
  intro frame hframe
  cases hframe

/-- All waiters of a queue are released with a mark. -/
private theorem fits_reset {queue : MessageQueue} {pids : List Int}
    {resetReleases : Int → Bool}
    (h : (fate p log.history).Fits v log.resetReleases p) (hcore : Core v r fun _ => False)
    (hpids : (v.queues fid).waiters.map ProcessNodeContent.pid = pids)
    (hstate : v'.state p = if p ∈ pids then .waiting else v.state p)
    (hqueues : v'.queues = Function.update v.queues fid queue) (hcall : v'.call p = v.call p)
    (hreleases : resetReleases (p - 1) = (decide (p ∈ pids) || log.resetReleases (p - 1))) :
    ((fate p log.history).next p (.queueReset fid)).Fits v' resetReleases p := by
  by_cases hmem : p ∈ pids
  · have hwaits : v.waitsFor fid p := by rwa [View.waitsFor, hpids]
    obtain ⟨hblocked, -⟩ := h.eq_blocked hcore hwaits
    have hfate : (fate p log.history).next p (.queueReset fid) = .reset := by
      simp [Fate.next, hblocked]
    rw [hfate]
    exact .reset (.inl (hstate.trans (if_pos hmem))) (inCall_of_waitsFor hcore hwaits hcall)
      (by simp [hreleases, hmem])
  · have hne : fate p log.history ≠ .blocked fid := by
      intro hblocked
      rw [hblocked] at h
      cases h with
      | blocked hwaits _ =>
          rw [View.waitsFor, hpids] at hwaits
          exact hmem hwaits
    have hfate : (fate p log.history).next p (.queueReset fid) = fate p log.history := by
      simp [Fate.next, hne]
    rw [hfate]
    refine h.keep (.inl (hstate.trans (if_neg hmem))) hcall
      (waitsFor_update (fun hwaits => ?_) hqueues) (by simp [hreleases, hmem])
    rw [View.waitsFor, hpids] at hwaits
    exact absurd hwaits hmem

private theorem Effect.fits_other (heffect : Effect step r v log v' log')
    (hcore : Core v r fun _ => False) (hp : p ≠ r)
    (hspares : ∀ q, step.event = .call (.kill q) → log.resetReleases (q - 1) = false)
    (h : (fate p log.history).Fits v log.resetReleases p) :
    (fate p log'.history).Fits v' log'.resetReleases p := by
  have hother : ∀ {β : Type} (f : Int → β) (b : β), Function.update f r b p = f p :=
    fun f b => Function.update_of_ne hp b f
  have hall : ∀ fid, v.waitsFor fid p → v.waitsFor fid p := fun fid hfid => hfid
  cases heffect
  case start c _ _ _ _ frames hc hcr hsize horder hframes =>
    have hfate : fate p (log.record (.started r c)).history = fate p log.history := by
      simp [fate_record, Fate.next]
    by_cases hpc : p = c
    · subst hpc
      refine fits_unset h hcore hc.2 (by simp) ?_ rfl hfate
      exact (Function.update_of_ne hp _ _).trans (Function.update_self p _ _)
    · refine fits_same h ?_ ?_ hall rfl hfate
      · exact Function.update_of_ne hpc _ _
      · exact (Function.update_of_ne hp _ _).trans (Function.update_of_ne hpc _ _)
  case startFails c _ _ _ _ frames hstarts hmem hc hcr horder horder' hwasted hframes =>
    have hfate : fate p (log.record (.notStarted c)).history = fate p log.history := by
      simp [fate_record, Fate.next]
    by_cases hpc : p = c
    · subst hpc
      refine fits_unset h hcore hc.2 (by simp [hc.2]) ?_ rfl hfate
      exact (Function.update_of_ne hp _ _).trans (Function.update_self p _ _)
    · refine fits_same h rfl ?_ hall rfl hfate
      exact (Function.update_of_ne hp _ _).trans (Function.update_of_ne hpc _ _)
  case exit value queues frames hone hqueues hframes =>
    refine fits_same h (hother _ _) (hother _ _)
      (Rearranged.waitsFor hqueues fun xs => pid_mem_eraseP hp) rfl ?_
    simp [fate_record, Fate.next, Ne.symm hp]
  case kill q processQueue queues sleeping frames hevent hused halive hqueues hframes =>
    by_cases hpq : p = q
    · subst hpq
      have hfate : fate p (log.record (.terminated p 0)).history = .none := by
        simp [fate_record, Fate.next]
      rw [hfate]
      exact .none (by simp) (.inl (Function.update_self _ _ _)) (hspares p hevent)
    · refine fits_same h (Function.update_of_ne hpq _ _) (hother _ _)
        (Rearranged.waitsFor hqueues fun xs => pid_mem_eraseP hpq) rfl ?_
      simp [fate_record, Fate.next, Ne.symm hpq]
  case alarm state processQueue sleeping frames hstate hsleep hframes =>
    refine h.keep ?_ (hother _ _) hall rfl
    rcases hstate p with heq | ⟨hold, hnew⟩
    · exact .inl heq
    · exact .inr ⟨by simp [hold], by simp [hold], .inl hnew⟩
  case reprioritise hevent hqueues hframes =>
    refine fits_same h rfl (hother _ _) ?_ rfl rfl
    rcases hqueues with rfl | hqueues
    · exact hall
    · exact Rearranged.waitsFor hqueues fun xs => pid_mem_reprioritised
  case create fid queue fids frames hfid horder hallocated hwaiters hmessages hframes =>
    refine fits_same h rfl (hother _ _) (waitsFor_update (fun hwaits => ?_) rfl) rfl
      (by simp [fate_record, Fate.next])
    rw [View.waitsFor, (hcore.locked.idle fid hfid.2).waiters] at hwaits
    cases hwaits
  case reset fid queue fids nbQueues state processQueue resetReleases frames pids events hlive
      hevent hpids hstate hreleases hwaiters hmessages hframes =>
    rw [fate_reset hevent]
    exact fits_reset h hcore hpids (hstate p) rfl (hother _ _) (hreleases p)
  case buffer fid message queue frames hsame hnil hnil' hmessages hframes =>
    refine fits_same h rfl (hother _ _) (waitsFor_update (fun hwaits => ?_) rfl) rfl
      (by simp [fate_record, Fate.next])
    rw [View.waitsFor, hnil] at hwaits
    cases hwaits
  case hand fid message node queue processQueue frames hsame hwaiters hempty hempty' hframes =>
    exact fits_served h hcore hwaiters rfl rfl (hother _ _) rfl
      (by simp [fate_record, Fate.next, eq_comm])
  case swap fid message messages node queue processQueue frames hsame hwaiters hold hnew
      hframes =>
    exact fits_served h hcore hwaiters rfl rfl (hother _ _) rfl
      (by simp [fate_record, Fate.next, eq_comm])
  case blockSend fid message priority queue frames hsame _ hwaiters hfull hmessages =>
    refine fits_same h (hother _ _) (hother _ _) (waitsFor_update (fun hwaits => ?_) rfl) rfl
      (by simp [fate_record, Fate.next, Ne.symm hp])
    rw [hwaiters]
    exact pid_mem_place (.inr hwaits)
  case blockReceive fid priority destination queue frames hsame _ hwaiters hempty hempty' =>
    refine fits_same h (hother _ _) (hother _ _) (waitsFor_update (fun hwaits => ?_) rfl) rfl
      (by simp [fate_record, Fate.next, Ne.symm hp])
    rw [hwaiters]
    exact pid_mem_place (.inr hwaits)
  case take fid message queue frames hsame hnil hnil' hmessages hframes =>
    refine fits_same h rfl (hother _ _) (waitsFor_update (fun hwaits => ?_) rfl) rfl
      (by simp [fate_record, Fate.next])
    rw [View.waitsFor, hnil] at hwaits
    cases hwaits
  case waits => exact fits_same h (hother _ _) (hother _ _) hall rfl (by simp [fate_record, Fate.next])
  case sleeps => exact fits_same h (hother _ _) (hother _ _) hall rfl rfl
  all_goals
    refine fits_same h rfl (hother _ _) hall rfl ?_
    first
    | rfl
    | simp [fate_record, Fate.next]

private theorem Effect.fits (heffect : Effect step r v log v' log')
    (hcore : Core v r fun _ => False) (hrunning : v.state r = .running) (hcall : ¬v.inCall r)
    (hspares : ∀ q, step.event = .call (.kill q) → log.resetReleases (q - 1) = false)
    (h : (fate p log.history).Fits v log.resetReleases p) :
    (fate p log'.history).Fits v' log'.resetReleases p := by
  by_cases hp : p = r
  · subst hp
    obtain ⟨hnone, hmark⟩ := h.eq_none hcore (by rw [hrunning]; decide) fun hin => hcall hin.2
    exact heffect.fits_self hcore hrunning hnone hmark
  · exact heffect.fits_other hcore hp hspares h

/-- A turn of `schedule` leaves the calls for messages alone. -/
private theorem Turn.fits (hturn : Turn r s s') (hinv : Inv s r)
    (hcall : phaseOf s.control = none → ¬s.view.inCall r)
    (h : (fate p s.history).Fits s.view s.resetReleases p) :
    (fate p s'.history).Fits s'.view s'.resetReleases p := by
  have hcore := hinv.core
  have hhistory : ∀ {log : Log}, s'.log = log → s'.history = log.history :=
    fun heq => congrArg Log.history heq
  have hmarks : ∀ {log : Log}, s'.log = log → s'.resetReleases = log.resetReleases :=
    fun heq => congrArg Log.resetReleases heq
  cases hturn with
  | pass _ hview hlog =>
      rw [hview, hhistory hlog, hmarks hlog]
      exact h
  | resume value frames hin _ _ _ _ hphase => exact absurd hin (hcall hphase)
  | zombify x stack _ _ _ _ hzombified hlog =>
      have hfate : fate p s'.history = fate p s.history := by
        rw [hhistory hlog]
        exact fate_record s.log (.zombified x) p
      have hqueues : s'.view.queues = s.view.queues := by rw [hzombified.view]
      have hcall' : s'.view.call = s.view.call := by rw [hzombified.view]
      rw [hfate, hmarks hlog]
      refine h.keep ?_ (congrFun hcall' p) (fun fid hwaits => ?_) rfl
      · rcases hzombified.state with ⟨heq, hwakes⟩ | ⟨heq, -⟩
        · by_cases hp : p = s.view.father x
          · subst hp
            have hblocked := hwakes.1
            right
            rw [hblocked]
            exact ⟨by decide, by decide, .inl (by rw [heq, Function.update_self])⟩
          · left
            rw [heq, Function.update_of_ne hp]
        · left
          rw [heq]
      · unfold View.waitsFor
        rw [hqueues]
        exact hwaits
  | destroy x _ hdestroyed hlog =>
      have hfate : fate p s'.history = fate p s.history := by
        rw [hhistory hlog]
        exact fate_record s.log (.destroyed x) p
      have hview := hdestroyed.view
      rw [hfate, hmarks hlog]
      by_cases hp : p = x
      · subst hp
        have hzombie := hcore.pending.dead_zombie p hdestroyed.dead
        obtain ⟨hnone, hmark⟩ := h.eq_none hcore (by rw [hzombie]; decide)
          (by simp [View.ready, hzombie])
        rw [hnone]
        refine .none ?_ (.inr (Unblocked.not_inCall ?_)) hmark
        · rw [hview]
          simp
        · rw [hview]
          intro frame hframe
          simp at hframe
      · refine h.keep (.inl ?_) ?_ (fun fid hwaits => ?_) rfl
        · rw [hview]
          exact Function.update_of_ne hp _ _
        · rw [hview]
          exact Function.update_of_ne hp _ _
        · unfold View.waitsFor
          rw [hview]
          exact hwaits
  | switch x state processQueue _ hx hx' hr hother hview hlog =>
      rw [hview, hhistory hlog, hmarks hlog]
      refine h.keep ?_ rfl (fun fid hwaits => hwaits) rfl
      by_cases hpx : p = x
      · subst hpx
        right
        rw [hx]
        exact ⟨by decide, by decide, .inr hx'⟩
      · by_cases hpr : p = r
        · subst hpr
          by_cases hrunning : s.view.state p = .running
          · rw [if_pos hrunning] at hr
            right
            rw [hrunning]
            exact ⟨by decide, by decide, .inl hr⟩
          · rw [if_neg hrunning] at hr
            exact .inl hr
        · exact .inl (hother p hpx hpr)

/-- What a call that goes on does. -/
theorem messageResume_eq (s : Kernel) (p : Int) : messageResume s p =
    ({ s with resetReleases := Function.update s.resetReleases (p - 1) false }.record
      (.resumed p (if s.resetReleases (p - 1) then -1 else 0))).ret
        (if s.resetReleases (p - 1) then -1 else 0) := by
  unfold messageResume
  cases hmark : s.resetReleases (p - 1) with
  | true => rfl
  | false =>
      have hself : Function.update s.resetReleases (p - 1) false = s.resetReleases := by
        rw [← hmark]
        exact Function.update_eq_self _ _
      rw [hself]
      rfl

theorem goesOn_cases (h : s.goesOn = true) : ∃ frame rest, s.control = frame :: rest ∧
    frame.isResume = true := by
  unfold Kernel.goesOn at h
  cases hcontrol : s.control with
  | nil =>
      rw [hcontrol] at h
      cases h
  | cons frame rest =>
      rw [hcontrol] at h
      exact ⟨frame, rest, rfl, h⟩

theorem exec_goesOn (hsafe : Safe s r) (henabled : step.enabled s) {frame : Frame}
    {rest : List Frame} (hcontrol : s.control = frame :: rest) (hframe : frame.isResume = true) :
    exec step s = .ok (messageResume { s with control := rest } r) := by
  have hschedule : frame.isSchedule = false := by
    cases frame <;> simp_all [Frame.isResume, Frame.isSchedule]
  have hhead : (s.view.call r).head? = some frame := by
    rw [s.call_running hsafe.inv.core.running, hcontrol, base_of_head hschedule]
    rfl
  rw [exec_kernel henabled (by simp [hcontrol])]
  unfold kernelStep
  rw [hcontrol]
  cases frame with
  | psendResume q =>
      have hq : q = r := hsafe.owned r _ q hhead (.inl rfl)
      rw [hq]
  | preceiveResume q =>
      have hq : q = r := hsafe.owned r _ q hhead (.inr rfl)
      rw [hq]
  | schedule => cases hframe
  | startReturn => cases hframe
  | exitLoop => cases hframe
  | ret => cases hframe
  | waitpidAny => cases hframe
  | waitpidOne => cases hframe
  | clockTick => cases hframe
  | keyboardData => cases hframe
  | keyboardSent => cases hframe
  | consRead => cases hframe
  | consReceived => cases hframe

/-- What holds of the fates in every state of a run. -/
def Traced (s : Kernel) : Prop := ∀ p, (fate p s.history).Fits s.view s.resetReleases p

theorem Traced.goesOn (h : Traced s) (hsafe : Safe s r) {frame : Frame} {rest : List Frame}
    (hcontrol : s.control = frame :: rest) (hframe : frame.isResume = true) :
    Traced (messageResume { s with control := rest } r) := by
  have hschedule : frame.isSchedule = false := by
    cases frame <;> simp_all [Frame.isResume, Frame.isSchedule]
  have hsettled := hsafe.inv.pop hcontrol hschedule
  have hcall := hsettled.call_eq
  have hview := s.view_control hsafe.inv.core.running rest
  rw [messageResume_eq]
  intro p
  have hhistory : fate p (s.history ++ [.resumed r (if s.resetReleases (r - 1) then -1 else 0)])
      = if r = p then .none else fate p s.history := by
    rw [fate_append]
    rfl
  change (fate p (s.history ++ [_])).Fits { s with control := rest }.view
    (Function.update s.resetReleases (r - 1) false) p
  rw [hhistory]
  by_cases hp : p = r
  · subst hp
    rw [if_pos rfl]
    refine .none ?_ (.inr (Unblocked.not_inCall ?_)) (by simp)
    · rw [hsettled.running]
      decide
    · rw [hcall]
      exact (plain_of_outer hsettled.outer).unblocked
  · rw [if_neg (Ne.symm hp), hview]
    refine (h p).keep (.inl rfl) (Function.update_of_ne hp _ _) (fun fid hwaits => hwaits) ?_
    exact Function.update_of_ne (fun heq => hp (by omega)) _ _

theorem Traced.exec (h : Traced s) (hsafe : Safe s r) (henabled : step.enabled s)
    (hspares : SparesReleased s step) (hrun : SchlagOS.exec step s = .ok s')
    (hmoved : Moved step s s' r r') : Traced s' := by
  cases hgoesOn : s.goesOn with
  | true =>
      obtain ⟨frame, rest, hcontrol, hframe⟩ := goesOn_cases hgoesOn
      rw [exec_goesOn hsafe henabled hcontrol hframe, Except.ok.injEq] at hrun
      subst hrun
      exact h.goesOn hsafe hcontrol hframe
  | false =>
      have hcall : phaseOf s.control = none → ¬s.view.inCall r := by
        rintro hphase ⟨frame, hframe, hresume⟩
        rw [s.call_running hsafe.inv.core.running] at hframe
        unfold Kernel.goesOn at hgoesOn
        cases hcontrol : s.control with
        | nil =>
            rw [hcontrol] at hframe
            cases hframe
        | cons f rest =>
            rw [hcontrol] at hphase hframe hgoesOn
            have hf : f.isSchedule = false := by
              cases f <;> simp_all [phaseOf, Frame.isSchedule]
            rw [base_of_head hf] at hframe
            cases hframe
            rw [List.head?_cons, Option.any_some, hresume] at hgoesOn
            cases hgoesOn
      intro p
      rcases hmoved.change with ⟨hphase, -, heffect⟩ | hturn
      · exact heffect.fits hsafe.inv.core (hsafe.inv.running (.inl hphase)) (hcall hphase)
          hspares (h p)
      · exact hturn.fits hsafe.inv hcall (h p)

theorem booted_traced : Traced booted := by
  intro p
  have hfate : fate p booted.history = .none := rfl
  rw [hfate]
  refine .none ?_ (.inr (Unblocked.not_inCall ?_)) rfl
  · by_cases hp : p = 1
    · subst hp
      decide
    · have hdata : booted.data p = noProcess := Function.update_of_ne hp _ _
      have hstate : booted.view.state p = .unset := congrArg Process.state hdata
      rw [hstate]
      decide
  · rw [booted_call]
    intro frame hframe
    cases hframe

theorem Running.traced (h : Running ok s) (htame : Tame ok)
    (hspares : ∀ s step, ok s step → SparesReleased s step) : Traced s :=
  h.tame_exec htame booted_traced fun s step _ _ _ hsafe htraced henabled hs hrun hmoved =>
    htraced.exec hsafe henabled (hspares s step hs) hrun hmoved

/-- What the call that goes on returns. -/
structure Returned (s s' : Kernel) : Prop where
  reset : s'.eax = -1 ↔ fate s.getpid s.history = .reset
  served : s'.eax = 0 ↔ fate s.getpid s.history = .served
  ends : s'.eax = -1 ∨ s'.eax = 0

theorem blocked_call_returns (h : Running ok s) (htame : Tame ok)
    (hspares : ∀ s step, ok s step → SparesReleased s step) (hgoesOn : s.goesOn = true)
    (henabled : step.enabled s) : ∃ s', exec step s = .ok s' ∧ Returned s s' := by
  have htraced := h.traced htame hspares
  obtain ⟨r, hsafe, -, -⟩ := h.tame (I := fun _ _ => True) htame trivial
    fun _ _ _ _ _ _ _ _ _ => trivial
  obtain ⟨frame, rest, hcontrol, hframe⟩ := goesOn_cases hgoesOn
  have hschedule : frame.isSchedule = false ∧ phaseOf s.control = none := by
    rw [hcontrol]
    cases frame <;> simp_all [Frame.isResume, Frame.isSchedule, phaseOf]
  have hrunning := hsafe.inv.running (.inl hschedule.2)
  have hin : s.view.inCall r := by
    refine ⟨frame, ?_, hframe⟩
    rw [s.call_running hsafe.inv.core.running, hcontrol, base_of_head hschedule.1]
    rfl
  have hvalue : (messageResume { s with control := rest } r).eax =
      if s.resetReleases (r - 1) then -1 else 0 := by
    rw [messageResume_eq]
    rfl
  refine ⟨_, exec_goesOn hsafe henabled hcontrol hframe, ?_⟩
  have hfits := htraced r
  have hgetpid := hsafe.inv.core.getpid_eq
  generalize hfate : fate r s.history = outcome at hfits
  rw [← hgetpid] at hfate
  cases hfits with
  | none _ hcall _ =>
      rcases hcall with hzombie | hnot
      · rw [hrunning] at hzombie
        cases hzombie
      · exact absurd hin hnot
  | blocked hwaits hmark =>
      have hblocked := (Fate.Fits.blocked hwaits hmark).blocked_state hsafe.inv.core
      rw [hrunning] at hblocked
      cases hblocked
  | reset _ _ hmark =>
      rw [hmark, if_pos rfl] at hvalue
      exact ⟨by simp [hvalue, hfate], by simp [hvalue, hfate], .inl hvalue⟩
  | served _ _ hmark =>
      rw [hmark, if_neg (by decide)] at hvalue
      exact ⟨by simp [hvalue, hfate], by simp [hvalue, hfate], .inr hvalue⟩

/-- Process 3 waits on a queue that process 2 resets. -/
theorem blocked_call_returns_run : ∃ s s', fate 3 s.history = .reset ∧
    exec Event.kernel.step s = .ok s' ∧ Returned s s' := by
  have hrun : ∃ s, Running (fun s step => step.event.calm = true ∧ SparesReleased s step) s ∧
      decide (s.goesOn = true ∧ s.control ≠ [] ∧ fate 3 s.history = .reset) = true :=
    Running.computed ([Event.init 4096 128, .call (.pcreate 1),
      .call (.start 0x1000000 4096 200 ⟨0x1000000, 0⟩), .call (.preceive 1 0)].map Event.step)
      ([Event.call (.preset 1), .kernel, .kernel, .kernel].map Event.step) (by decide +kernel)
  obtain ⟨s, hrun, htest⟩ := hrun
  obtain ⟨hgoesOn, hsome, hfate⟩ := of_decide_eq_true htest
  obtain ⟨s', hexec, hreturned⟩ := blocked_call_returns hrun (.inl fun _ _ hs => hs.1)
    (fun _ _ hs => hs.2) hgoesOn (show Event.kernel.step.enabled s from hsome)
  exact ⟨s, s', hfate, hexec, hreturned⟩

/-! ## A mark that is left behind -/

/-- A call of `start` that finds no memory for the kernel stack. -/
private def shortStep : Step :=
  ⟨{ Memory.available with kernelStack := false },
    .call (.start 0x1000000 4096 1 ⟨0x1000000, 0⟩)⟩

private def wastedSlot (slot : Process) (p : Int) : Process :=
  { slot with
    pid := p, fatherPid := 2, childsPids := [], priority := 1
    returnCode := 0, deallocated := false, executionContext := [], kernelStack := none }

private theorem startStacks_short {t : Kernel} {mem : Memory} {ring : LockedRing Int}
    (hmem : mem.kernelStack = false) (father priority : Int) (size : Nat)
    (hpush : t.pids.push processTableMaxSize p = some ring) :
    start.startStacks mem t father p priority size = .ok { t with
      data := Function.update t.data p { t.data p with kernelStack := none }
      pids := ring
      currentSize := uint32Pred t.currentSize
      eax := -1
      history := t.history ++ [.notStarted p] } :=
  startStacks_noKernelStack hmem hpush

private theorem exec_short {ring ring' : LockedRing Int} (hsize : s.currentSize = 2)
    (hgetpid : s.getpid = 2) (hp : 3 ≤ p ∧ p ≤ 512)
    (hpop : s.pids.pop processTableMaxSize = some (p, ring))
    (hpush : ring.push processTableMaxSize p = some ring') :
    exec shortStep s = .ok { s with
      data := Function.update s.data p (wastedSlot (s.data p) p)
      pids := ring'
      processQueue := s.processQueue.clear p
      eax := -1
      userAccesses := s.userAccesses ++ [.readByte 0x1000000]
      history := s.history ++ [.notStarted p] } := by
  have hregister : processTableRegister s =
      .ok (p, { s with pids := ring, currentSize := s.currentSize + 1 }) := by
    unfold processTableRegister
    rw [hpop]
    rfl
  have hpid : IsPid p := ⟨by omega, by simp [processTableMaxSize]; omega⟩
  have hfather : ({ s with pids := ring, currentSize := s.currentSize + 1 } : Kernel).getpid =
    2 := hgetpid
  change start _ s 4096 1 _ = _
  unfold start
  rw [if_neg (by rw [hsize]; decide), hregister]
  dsimp only [ok_bind]
  rw [getProcess_eq hpid, ok_bind, startStacks_short rfl _ _ _ hpush, hfather]
  unfold Kernel.readName Kernel.readBytes Kernel.update
  dsimp only
  rw [Function.update_idem, Function.update_self, hsize]
  rfl

/-- What `k` such calls leave of a state in which the pids from 4 on are to be handed out
first and pid 3 last. -/
private def wasted (s : Kernel) (k : Nat) : Kernel :=
  { s with
    data := fun p => if 4 ≤ p ∧ p < 4 + k then wastedSlot (s.data p) p else s.data p
    pids := {
      buffer := fun i => if 1 ≤ i ∧ i ≤ k then i + 3 else s.pids.buffer i
      consume := (3 + k) % 512
      produce := 1 + k }
    processQueue := {
      prev := fun ref => if ∃ i < k, ref = .elem (4 + i : Int) then .null
        else s.processQueue.prev ref
      next := fun ref => if ∃ i < k, ref = .elem (4 + i : Int) then .null
        else s.processQueue.next ref }
    eax := if k = 0 then s.eax else -1
    userAccesses := s.userAccesses ++ List.replicate k (.readByte 0x1000000)
    history := s.history ++ (List.range k).map fun i : Nat => .notStarted (4 + i) }

/-- Process 2 is in user mode, and pid 3 stands last in the ring of the pids. -/
private structure Lasting (s : Kernel) : Prop where
  control : s.control = []
  running : s.runningProcess = some 2
  getpid : s.getpid = 2
  size : s.currentSize = 2
  consume : s.pids.consume = 3
  produce : s.pids.produce = 1
  cells : ∀ k : Fin 509, s.pids.buffer (3 + k) = 4 + (k : Nat)

private theorem wasted_zero (h : Lasting s) : wasted s 0 = s := by
  have hpids : ({
      buffer := fun i => if 1 ≤ i ∧ i ≤ 0 then i + 3 else s.pids.buffer i
      consume := (3 + (0 : Nat)) % 512
      produce := 1 + (0 : Nat) } : LockedRing Int) = s.pids := by
    have hnone : ∀ i, ¬(1 ≤ i ∧ i ≤ 0) := by omega
    simp only [hnone, if_false]
    exact congrArg₂ (LockedRing.mk s.pids.buffer) h.consume.symm h.produce.symm
  have hslots : ∀ p : Int, ¬(4 ≤ p ∧ p < 4) := by omega
  unfold wasted
  rw [hpids]
  simp [hslots]

/-- The ring of the pids when the next one is taken. -/
private def taken (s : Kernel) (k : Nat) : LockedRing Int :=
  { (wasted s k).pids with consume := (4 + k) % 512 }

private theorem wasted_pop (h : Lasting s) {k : Nat} (hk : k < 509) :
    (wasted s k).pids.pop processTableMaxSize = some ((4 + k : Int), taken s k) := by
  have hcell : (wasted s k).pids.buffer (3 + k) = 4 + k := by
    change (if 1 ≤ 3 + k ∧ 3 + k ≤ k then _ else s.pids.buffer (3 + k)) = _
    rw [if_neg (by omega)]
    exact h.cells ⟨k, hk⟩
  have hconsume : (wasted s k).pids.consume = 3 + k := by
    change (3 + (k : Int)) % 512 = _
    omega
  have hproduce : (wasted s k).pids.produce = 1 + k := rfl
  have hindex : ((3 + k : Int)).toNat = 3 + k := by omega
  have hnext : (3 + (k : Int) + 1) % processTableMaxSize = (4 + k) % 512 := by
    unfold processTableMaxSize
    omega
  unfold LockedRing.pop LockedRing.locked
  dsimp only
  rw [hconsume, hproduce, if_neg (by omega), if_neg (by omega), hindex, hcell, hnext,
    if_neg (by omega)]
  unfold taken
  rw [← hproduce]

private theorem taken_push {k : Nat} (hk : k < 509) :
    (taken s k).push processTableMaxSize (4 + k) = some (wasted s (k + 1)).pids := by
  have hproduce : (taken s k).produce = 1 + k := rfl
  have hconsume : (taken s k).consume = (4 + k) % 512 := rfl
  have hindex : ((1 + k : Int)).toNat = 1 + k := by omega
  have hnext : (1 + (k : Int) + 1) % processTableMaxSize = 1 + (k + 1 : Nat) := by
    unfold processTableMaxSize
    omega
  have hcells : Function.update (taken s k).buffer (1 + k) (4 + k : Int) =
      (wasted s (k + 1)).pids.buffer := by
    funext i
    unfold taken wasted
    dsimp only
    rw [Function.update_apply]
    by_cases hi : i = 1 + k
    · rw [if_pos hi, if_pos (by omega)]
      omega
    · rw [if_neg hi]
      by_cases hlow : 1 ≤ i ∧ i ≤ k
      · rw [if_pos hlow, if_pos (by omega)]
      · rw [if_neg hlow, if_neg (by omega)]
  unfold LockedRing.push LockedRing.locked
  dsimp only
  have hlater : (4 + (k : Int)) % 512 = (3 + (k + 1 : Nat)) % 512 := by omega
  rw [hproduce, hconsume, if_neg (by omega), if_neg (by omega), hindex, hcells, hnext,
    if_neg (by omega), hlater]
  rfl

private theorem wasted_data (s : Kernel) (k : Nat) :
    Function.update (wasted s k).data (4 + k)
      (wastedSlot ((wasted s k).data (4 + k)) (4 + k)) = (wasted s (k + 1)).data := by
  funext p
  unfold wasted
  dsimp only
  rw [Function.update_apply]
  by_cases hp : p = 4 + k
  · subst hp
    rw [if_pos rfl, if_neg (by omega), if_pos (by omega)]
  · rw [if_neg hp]
    by_cases hlow : 4 ≤ p ∧ p < 4 + (k : Int)
    · rw [if_pos hlow, if_pos (by omega)]
    · rw [if_neg hlow, if_neg (by omega)]

private theorem wasted_links (links : LinkRef Int → LinkRef Int) (k : Nat) :
    Function.update (fun ref => if ∃ i < k, ref = .elem (4 + i : Int) then .null else links ref)
      (.elem (4 + k : Int)) .null =
      fun ref => if ∃ i < k + 1, ref = .elem (4 + i : Int) then .null else links ref := by
  funext ref
  rw [Function.update_apply]
  by_cases hlast : ref = .elem (4 + k : Int)
  · rw [if_pos hlast, if_pos ⟨k, by omega, hlast⟩]
  · have hiff : (∃ i < k + 1, ref = .elem (4 + i : Int)) ↔
        ∃ i < k, ref = .elem (4 + i : Int) := by
      constructor
      · rintro ⟨i, hi, rfl⟩
        have hne : i ≠ k := by
          rintro rfl
          exact hlast rfl
        exact ⟨i, by omega, rfl⟩
      · rintro ⟨i, hi, rfl⟩
        exact ⟨i, by omega, rfl⟩
    simp only [hlast, if_false, hiff]

private theorem wasted_getpid (h : Lasting s) (k : Nat) : (wasted s k).getpid = 2 := by
  have hrunning : (wasted s k).runningProcess = some 2 := h.running
  have hold := h.getpid
  unfold Kernel.getpid at hold ⊢
  rw [h.running] at hold
  rw [hrunning]
  exact hold

private theorem wasted_succ (h : Lasting s) {k : Nat} (hk : k < 509) :
    exec shortStep (wasted s k) = .ok (wasted s (k + 1)) := by
  have hsize : (wasted s k).currentSize = 2 := h.size
  have hgetpid := wasted_getpid h k
  have hqueue : (wasted s k).processQueue.clear (4 + k) = (wasted s (k + 1)).processQueue :=
    congrArg₂ LinkQueue.mk (wasted_links s.processQueue.prev k)
      (wasted_links s.processQueue.next k)
  have haccesses : (wasted s k).userAccesses ++ [.readByte 0x1000000] =
      (wasted s (k + 1)).userAccesses := by
    unfold wasted
    dsimp only
    rw [List.append_assoc, List.replicate_succ']
  have hhistory : (wasted s k).history ++ [.notStarted (4 + k)] = (wasted s (k + 1)).history := by
    unfold wasted
    dsimp only
    rw [List.append_assoc, List.range_succ, List.map_append]
    rfl
  rw [exec_short hsize hgetpid (by omega) (wasted_pop h hk) (taken_push hk), wasted_data, hqueue,
    haccesses, hhistory]
  rfl

private theorem wasted_running (h : Lasting s) {ok : Kernel → Step → Prop} (hrun : Running ok s)
    (hok : ∀ s, ok s shortStep) {k : Nat} (hk : k ≤ 509) : Running ok (wasted s k) := by
  induction k with
  | zero =>
      rw [wasted_zero h]
      exact hrun
  | succ k ih =>
      have henabled : shortStep.enabled (wasted s k) := by
        refine ⟨h.control, ?_⟩
        rw [wasted_getpid h k]
        decide
      exact (ih (by omega)).next henabled (hok _) (wasted_succ h (by omega))

/-- Process 3 is released by a reset and killed before it goes on.  When its pid has come
round again, the new process 3 is handed a message and its call returns -1. -/
theorem killed_release_run : ∃ s s', Running (fun _ step => step.event.calm = true) s ∧
    s.goesOn = true ∧ fate s.getpid s.history = .served ∧
    exec Event.kernel.step s = .ok s' ∧ s'.eax = -1 := by
  have hrun : ∃ s, Running (fun _ step => step.event.calm = true) s ∧
      (decide (s.control = [] ∧ s.runningProcess = some 2 ∧ s.getpid = 2 ∧ s.currentSize = 2 ∧
        s.pids.consume = 3 ∧ s.pids.produce = 1 ∧
        ∀ k : Fin 509, s.pids.buffer (3 + k) = 4 + (k : Nat)) &&
        ((play (fun _ step => step.event.calm = true) (wasted s 509)
          ([Event.call (.start 0x1000000 4096 128 ⟨0x1000000, 0⟩), .tick, .tick,
            .call (.preceive 1 0x1000000), .call (.psend 1 7), .tick].map Event.step)).any
          fun s => checkRun machine (fun _ step => step.event.calm = true)
            (fun s => decide (s.goesOn = true ∧ fate s.getpid s.history = .served) &&
              okAnd (fun s' => decide (s'.eax = -1)) (exec Event.kernel.step s)) s
            ([Event.tick, .kernel, .kernel, .kernel].map Event.step))) = true :=
    Running.computed ([Event.init 4096 128, .call (.pcreate 1),
      .call (.start 0x1000000 4096 128 ⟨0x1000000, 0⟩), .tick, .tick, .call (.preceive 1 0),
      .call (.preset 1), .call (.kill 3), .call (.waitpid 3 0), .tick, .tick].map Event.step) []
      (by decide +kernel)
  obtain ⟨s, hrun, htest⟩ := hrun
  rw [Bool.and_eq_true, decide_eq_true_eq] at htest
  obtain ⟨⟨hcontrol, hrunning, hgetpid, hsize, hconsume, hproduce, hcells⟩, htest⟩ := htest
  have hlasting : Lasting s := ⟨hcontrol, hrunning, hgetpid, hsize, hconsume, hproduce, hcells⟩
  have hwasted := wasted_running hlasting hrun (fun _ => rfl) (k := 509) (Nat.le_refl _)
  obtain ⟨t, ht, htest⟩ := hwasted.played _ _ htest
  rw [Bool.and_eq_true, decide_eq_true_eq] at htest
  obtain ⟨⟨hgoesOn, hfate⟩, htest⟩ := htest
  obtain ⟨t', hexec, htest⟩ := okAnd_iff.mp htest
  exact ⟨t, t', ht, hgoesOn, hfate, hexec, of_decide_eq_true htest⟩

end SchlagOS
