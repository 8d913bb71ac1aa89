import SchlagOS.Foundation.Ledger
import SchlagOS.Invariant.Kin

/-!
# The two pools of identifiers

Pids and identifiers of message queues are taken from the front of their rings
and given back at the end.  The counters say how many are in use, and a `start`
or `pcreate` is refused for want of an identifier only when all are.
-/

namespace SchlagOS

open Foundation

variable {ok : Kernel → Step → Prop} {s s' : Kernel} {step : Step} {r r' p : Int}
  {v v' : View} {log log' : Log}

/-! ## What one step does -/

def pidLedger : Ledger HistoryEvent Int where
  allocated
    | .started _ child => some child
    | .notStarted pid => some pid
    | _ => none
  released
    | .notStarted pid => some pid
    | .destroyed pid => some pid
    | _ => none

def fidLedger : Ledger HistoryEvent Int where
  allocated
    | .created fid _ => some fid
    | .notCreated fid => some fid
    | _ => none
  released
    | .notCreated fid => some fid
    | .deleted fid => some fid
    | _ => none

/-- A step takes identifiers from the front of the free ones and gives them back at the end. -/
structure Turnovers (v v' : View) (events : List HistoryEvent) : Prop where
  pids : pidLedger.Turnover v.freePids events v'.freePids
  fids : fidLedger.Turnover v.freeFids events v'.freeFids

theorem Turnovers.quiet {events : List HistoryEvent} (hpids : v'.freePids = v.freePids)
    (hfids : v'.freeFids = v.freeFids)
    (hquiet : ∀ e ∈ events, pidLedger.allocated e = none ∧ pidLedger.released e = none ∧
      fidLedger.allocated e = none ∧ fidLedger.released e = none) :
    Turnovers v v' events := by
  constructor
  · rw [hpids]
    exact .quiet (fun e he => (hquiet e he).1) fun e he => (hquiet e he).2.1
  · rw [hfids]
    exact .quiet (fun e he => (hquiet e he).2.2.1) fun e he => (hquiet e he).2.2.2

theorem Effect.turnovers (heffect : Effect step r v log v' log') :
    ∃ events, log'.history = log.history ++ events ∧ Turnovers v v' events := by
  cases heffect
  case start p priority pids processQueue size frames hfree hpr hsize horder hframes =>
    refine ⟨[.started r p], rfl, ⟨?_, ?_⟩, .quiet (by simp [fidLedger]) (by simp [fidLedger])⟩
    · rw [horder]
      simp [Ledger.Balanced, pidLedger, View.freePids]
    · simp [pidLedger, horder]
  case startFails p priority pids free stackData frames hstarts hmem hfree hpr horder horder'
      hwasted hframes =>
    refine ⟨[.notStarted p], rfl, ⟨?_, ?_⟩,
      .quiet (by simp [fidLedger]) (by simp [fidLedger])⟩
    · rw [horder]
      simp [Ledger.Balanced, pidLedger, View.freePids, horder']
    · simp [pidLedger, horder]
  case create fid queue fids frames hfree horder hallocated hwaiters hmessages hframes =>
    refine ⟨[.created fid queue.size], rfl,
      .quiet (by simp [pidLedger]) (by simp [pidLedger]), ?_, ?_⟩
    · rw [horder]
      simp [Ledger.Balanced, fidLedger, View.freeFids]
    · simp [fidLedger, horder]
  case createFails fid fids free frames hmem hfree horder horder' hframes =>
    refine ⟨[.notCreated fid], rfl,
      .quiet (by simp [pidLedger]) (by simp [pidLedger]), ?_, ?_⟩
    · rw [horder]
      simp [Ledger.Balanced, fidLedger, View.freeFids, horder']
    · simp [fidLedger, horder]
  case reset fid queue fids nbQueues state processQueue resetReleases frames pids events hlive
      hevent hpids hstate hreleases hwaiters hmessages hframes =>
    have hpid : ∀ e ∈ pids.map (fun p => HistoryEvent.awoken p .blockedByMessage) ++
        .queueReset fid :: events, pidLedger.allocated e = none ∧ pidLedger.released e = none := by
      intro e he
      rcases List.mem_append.mp he with hawoken | hrest
      · obtain ⟨x, -, rfl⟩ := List.mem_map.mp hawoken
        exact ⟨rfl, rfl⟩
      · rcases List.mem_cons.mp hrest with rfl | hrest
        · exact ⟨rfl, rfl⟩
        · cases hevent with
          | preset => cases hrest
          | pdelete =>
              rw [List.mem_singleton.mp hrest]
              exact ⟨rfl, rfl⟩
    have hwake : (pids.map fun p => HistoryEvent.awoken p .blockedByMessage).filterMap
        fidLedger.allocated = [] ∧ (pids.map fun p => HistoryEvent.awoken p
          .blockedByMessage).filterMap fidLedger.released = [] := by
      simp [fidLedger]
    refine ⟨_, List.append_assoc _ _ _,
      .quiet (fun e he => (hpid e he).1) fun e he => (hpid e he).2, ?_, ?_⟩
    · unfold Ledger.Balanced
      rw [List.filterMap_append, List.filterMap_append, hwake.1, hwake.2]
      cases hevent with
      | preset => simp [fidLedger, View.freeFids]
      | pdelete hevent hqueue horder => simpa [fidLedger, View.freeFids] using horder.symm
    · rw [List.filterMap_append, hwake.1]
      cases hevent with
      | preset => simp [fidLedger]
      | pdelete => simp [fidLedger]
  case swap fid message messages node queue processQueue frames hsame hwaiters hold hnew
      hframes =>
    exact ⟨[.received r fid message, .taken r node.pid fid node.message,
      .awoken node.pid .blockedByMessage], by simp [Log.record],
      .quiet rfl rfl (by simp [pidLedger, fidLedger])⟩
  case hand fid message node queue processQueue frames hsame hwaiters hempty hempty' hframes =>
    exact ⟨[.handed r node.pid fid message, .awoken node.pid .blockedByMessage],
      List.append_assoc _ _ _, .quiet rfl rfl (by simp [pidLedger, fidLedger])⟩
  case goOn => exact ⟨[], by simp, .quiet rfl rfl (by simp)⟩
  case sleeps => exact ⟨[], by simp, .quiet rfl rfl (by simp)⟩
  case alarm => exact ⟨[], by simp, .quiet rfl rfl (by simp)⟩
  case reprioritise => exact ⟨[], by simp, .quiet rfl rfl (by simp)⟩
  all_goals exact ⟨[_], rfl, .quiet rfl rfl (by simp [pidLedger, fidLedger])⟩

theorem Turn.turnovers (hturn : Turn r s s') :
    ∃ events, s'.history = s.history ++ events ∧ Turnovers s.view s'.view events := by
  have hhistory : ∀ {log : Log}, s'.log = log → s'.history = log.history :=
    fun heq => congrArg Log.history heq
  cases hturn with
  | pass _ hview hlog =>
      rw [hview]
      exact ⟨[], (hhistory hlog).trans (by simp; rfl), .quiet rfl rfl (by simp)⟩
  | resume value _ _ _ hview hlog _ =>
      rw [hview]
      exact ⟨[.resumed r value], hhistory hlog,
        .quiet rfl rfl (by simp [pidLedger, fidLedger])⟩
  | zombify p stack _ _ _ _ hzombified hlog =>
      rw [hzombified.view]
      exact ⟨[.zombified p], hhistory hlog, .quiet rfl rfl (by simp [pidLedger, fidLedger])⟩
  | destroy p _ hdestroyed hlog =>
      refine ⟨[.destroyed p], hhistory hlog, ⟨?_, ?_⟩, ?_⟩
      · simp [Ledger.Balanced, pidLedger, hdestroyed.freePids]
      · simp [pidLedger]
      · have hfids : s'.view.freeFids = s.view.freeFids := by rw [hdestroyed.view]; rfl
        rw [hfids]
        exact .quiet (by simp [fidLedger]) (by simp [fidLedger])
  | switch p state processQueue _ hp hp' hr hother hview hlog =>
      rw [hview]
      exact ⟨[], (hhistory hlog).trans (by simp; rfl), .quiet rfl rfl (by simp)⟩

theorem Moved.turnovers (hmoved : Moved step s s' r r') :
    ∃ events, s'.history = s.history ++ events ∧ Turnovers s.view s'.view events := by
  rcases hmoved.change with ⟨-, -, heffect⟩ | hturn
  · exact heffect.turnovers
  · exact hturn.turnovers

/-! ## Runs -/

def allPids : List Int := (List.range processTableMaxSize).map fun i : Nat => (i : Int) + 1

def allFids : List Int := (List.range nbQueue).map fun i : Nat => (i : Int)

def usedPid (s : Kernel) (pid : Int) : Bool := decide ((s.data pid).state ≠ .unset)

def usedFid (s : Kernel) (fid : Int) : Bool := (s.queues fid).allocated

theorem mem_allPids (p : Int) : p ∈ allPids ↔ IsPid p := by
  unfold allPids IsPid
  rw [List.mem_map]
  constructor
  · rintro ⟨i, hi, rfl⟩
    have hlt := List.mem_range.mp hi
    omega
  · rintro ⟨hpos, hle⟩
    exact ⟨(p - 1).toNat, List.mem_range.mpr (by omega), by omega⟩

theorem mem_allFids (fid : Int) : fid ∈ allFids ↔ 0 ≤ fid ∧ fid < nbQueue := by
  unfold allFids
  rw [List.mem_map]
  constructor
  · rintro ⟨i, hi, rfl⟩
    have hlt := List.mem_range.mp hi
    omega
  · rintro ⟨hpos, hlt⟩
    exact ⟨fid.toNat, List.mem_range.mpr (by omega), by omega⟩

/-- The ring holds the identifiers that are not in use, each once, the counter counts the
others, and the history is the one of a first-in first-out pool. -/
structure PoolHolds (capacity : Nat) (all : List Int) (ring : LockedRing Int) (count : Nat)
    (used : Int → Bool) (L : Ledger HistoryEvent Int) (history : List HistoryEvent) : Prop where
  pool : Pool capacity ring count fun x => x ∈ all ∧ used x = false
  count_eq : (all.filter used).length = count
  order : L.Balanced all history (ring.toList capacity (capacity - count))

theorem pidPool_holds (hcore : Core s.view r fun _ => False)
    (horder : pidLedger.Balanced allPids s.history s.view.freePids) :
    PoolHolds processTableMaxSize allPids s.pids s.currentSize (usedPid s) pidLedger
      s.history := by
  have hfree : ∀ p, p ∈ allPids ∧ usedPid s p = false ↔ freePid s.view.state p := by
    intro p
    rw [mem_allPids]
    unfold usedPid freePid
    rw [decide_eq_false_iff_not, not_not]
    exact Iff.rfl
  have hnodup : allPids.Nodup := by
    refine List.Nodup.map (fun i j heq => ?_) List.nodup_range
    omega
  exact ⟨hcore.pidPool.congr hfree,
    hcore.pidPool.length_used hnodup (by simp [allPids]) fun p => (hfree p).symm, horder⟩

theorem fidPool_holds (hcore : Core s.view r fun _ => False)
    (horder : fidLedger.Balanced allFids s.history s.view.freeFids) :
    PoolHolds nbQueue allFids s.fids s.nbQueues (usedFid s) fidLedger s.history := by
  have hfree : ∀ fid, fid ∈ allFids ∧ usedFid s fid = false ↔ freeFid s.view.queues fid := by
    intro fid
    rw [mem_allFids]
    exact Iff.rfl
  have hnodup : allFids.Nodup := by
    refine List.Nodup.map (fun i j heq => ?_) List.nodup_range
    omega
  exact ⟨hcore.fidPool.congr hfree,
    hcore.fidPool.length_used hnodup (by simp [allFids]) fun fid => (hfree fid).symm, horder⟩

/-! ## Exhaustion -/

/-- An acceptable `start` for which there is memory is refused when all pids are in use,
and only then. -/
theorem start_refused_iff (h : Settled s r) {stackSize : Nat} {priority : Int}
    (name : Option UserString)
    (hprio : processMinPriority ≤ priority ∧ priority ≤ processMaxPriority)
    (hsize : stackSize < (stackSize + userAdditionalStackSize) % 2 ^ 32) :
    start .available s stackSize priority name = .ok (s.ret (-1)) ↔
      s.currentSize = processTableMaxSize := by
  constructor
  · intro hrefused
    have hle : s.currentSize ≤ processTableMaxSize := h.core.pidPool.count_le
    by_contra hne
    have hlt : s.view.currentSize < processTableMaxSize := Nat.lt_of_le_of_ne hle hne
    let step : Step := ⟨.available, .init stackSize priority⟩
    have hmeets : Meets (start step.mem s stackSize priority name) _ _ :=
      start_meets h stackSize priority name fun haccepts => haccepts
    obtain ⟨p, hstarted⟩ := (hmeets.of_ok hrefused).2 rfl hprio.1 hprio.2 hsize hlt
    have horder := congrArg List.length hstarted.order
    have hsame : (s.ret (-1)).view.freePids = s.view.freePids := rfl
    rw [hsame, List.length_cons] at horder
    omega
  · intro hfull
    exact if_pos (by omega)

theorem pcreate_refused_iff (h : Core s.view r fun _ => False) {count : Int}
    (hcount : 1 ≤ count ∧ count ≤ messageQueueBufferMaxSize) :
    pcreate .available s count = .ok (s.ret (-1)) ↔ s.nbQueues = nbQueue := by
  constructor
  · intro hrefused
    have hle : s.nbQueues ≤ nbQueue := h.fidPool.count_le
    by_contra hne
    have hlt : s.view.nbQueues < nbQueue := Nat.lt_of_le_of_ne hle hne
    obtain ⟨fid, fids, hpop, -, -, -⟩ := h.fidPool.pop hlt
    have hpop' : s.fids.pop nbQueue = some (fid, fids) := hpop
    have hgood : ¬(count < 1 ∨ nbQueue ≤ s.nbQueues ∨ messageQueueBufferMaxSize < count) := by
      omega
    unfold pcreate messageQueueTableRegister at hrefused
    rw [if_neg hgood, hpop', demand_some, ok_bind] at hrefused
    simp only [Memory.available, Bool.true_eq_false, if_false, pure_eq_ok, ok_bind,
      require_pos, Except.ok.injEq] at hrefused
    have hnb := congrArg Kernel.nbQueues hrefused
    have hnb' : s.nbQueues + 1 = s.nbQueues := hnb
    omega
  · intro hfull
    exact if_pos (by omega)

/-! ## The pools along a run -/

/-- The assertions of the two rings. -/
def Panic.ofRings : Panic → Bool
  | .processTableRegister => true
  | .processTableUnregister => true
  | .messageQueueTableRegister => true
  | .messageQueueTableUnregister => true
  | _ => false

theorem Fails.ofRings {e : Panic} (h : Fails step s r e) : e.ofRings = false := by
  have hexcused : ∀ {a b : Prop}, Excused a b e → e.ofRings = false := by
    intro a b h
    cases e <;> first | rfl | exact False.elim h
  rcases h with (h | ⟨rfl, -⟩) | h | ⟨rfl, -⟩ | h
  · exact hexcused h
  · rfl
  · exact hexcused h
  · rfl
  · cases h <;> rfl

structure Pools (ok : Kernel → Step → Prop) (s : Kernel) : Prop where
  pids : PoolHolds processTableMaxSize allPids s.pids s.currentSize (usedPid s) pidLedger
    s.history
  fids : PoolHolds nbQueue allFids s.fids s.nbQueues (usedFid s) fidLedger s.history
  allocates : ∀ step, step.enabled s → ok s step → Meets (exec step s)
    (fun s' => ∃ events, s'.history = s.history ++ events ∧
      (∀ pid ∈ events.filterMap pidLedger.allocated, usedPid s pid = false) ∧
      ∀ fid ∈ events.filterMap fidLedger.allocated, usedFid s fid = false)
    fun e => e.ofRings = false
  start_refused : s.control = [] → ∀ stackSize priority name,
    processMinPriority ≤ priority ∧ priority ≤ processMaxPriority →
    stackSize < (stackSize + userAdditionalStackSize) % 2 ^ 32 →
    (start .available s stackSize priority name = .ok (s.ret (-1)) ↔
      (allPids.filter (usedPid s)).length = processTableMaxSize)
  pcreate_refused : ∀ count, 1 ≤ count ∧ count ≤ messageQueueBufferMaxSize →
    (pcreate .available s count = .ok (s.ret (-1)) ↔
      (allFids.filter (usedFid s)).length = nbQueue)

/-- The identifiers given back and handed out so far. -/
structure Ordered (s : Kernel) : Prop where
  pids : pidLedger.Balanced allPids s.history s.view.freePids
  fids : fidLedger.Balanced allFids s.history s.view.freeFids

theorem booted_ordered : Ordered booted := by
  have hhistory : booted.history = [.created 0 keyBufferSize, .started processNotFoundCode 1] :=
    rfl
  constructor
  · have horder : allPids = 1 :: booted.view.freePids := by decide +kernel
    unfold Ledger.Balanced
    rw [horder, hhistory]
    simp [pidLedger]
  · have horder : allFids = 0 :: booted.view.freeFids := by decide +kernel
    unfold Ledger.Balanced
    rw [horder, hhistory]
    simp [fidLedger]

theorem Ordered.moved (h : Ordered s) (hmoved : Moved step s s' r r') : Ordered s' := by
  obtain ⟨events, hhistory, hturnovers⟩ := hmoved.turnovers
  constructor
  · rw [hhistory]
    exact h.pids.append hturnovers.pids.balanced
  · rw [hhistory]
    exact h.fids.append hturnovers.fids.balanced

theorem pools_hold (h : Running ok s) (hok : Tame ok) : Pools ok s := by
  obtain ⟨r, hsafe, hordered, hmeets⟩ := h.tame (I := fun s _ => Ordered s) hok booted_ordered
    fun s step s' r r' _ hordered _ hmoved => hordered.moved hmoved
  have hcore := hsafe.inv.core
  have hpids := pidPool_holds hcore hordered.pids
  have hfids := fidPool_holds hcore hordered.fids
  refine ⟨hpids, hfids, fun step henabled hs => ?_, ?_, ?_⟩
  · refine (hmeets step henabled hs).mono ?_ fun e he => he.ofRings
    rintro s' ⟨r', hmoved⟩
    obtain ⟨events, hhistory, hturnovers⟩ := hmoved.turnovers
    refine ⟨events, hhistory, fun p hp => ?_, fun fid hfid => ?_⟩
    · exact ((hpids.pool.mem_iff p).mp (hturnovers.pids.fresh p hp)).2
    · exact ((hfids.pool.mem_iff fid).mp (hturnovers.fids.fresh fid hfid)).2
  · intro hnil stackSize priority name hprio hsize
    rw [hpids.count_eq]
    exact start_refused_iff (hsafe.inv.settled hnil) name hprio hsize
  · intro count hcount
    rw [hfids.count_eq]
    exact pcreate_refused_iff hcore hcount

/-- A run with a `pcreate` and a `start` that fail for want of memory. -/
theorem pools_hold_run : ∃ s, s.history.filterMap fidLedger.released ≠ [] ∧
    s.history.filterMap pidLedger.released ≠ [] ∧
    Pools (fun _ step => step.event.calm = true) s := by
  have hrun : ∃ s, Running (fun _ step => step.event.calm = true) s ∧
      decide (s.history.filterMap fidLedger.released ≠ [] ∧
        s.history.filterMap pidLedger.released ≠ []) = true :=
    Running.computed [(Event.init 4096 128).step,
      ⟨{ Memory.available with messageBuffer := false }, .call (.pcreate 3)⟩,
      ⟨{ Memory.available with userStack := false },
        .call (.start 0x1000000 4096 100 ⟨0x1000000, 0⟩)⟩] [] (by decide +kernel)
  obtain ⟨s, hrun, htest⟩ := hrun
  obtain ⟨hfids, hpids⟩ := of_decide_eq_true htest
  exact ⟨s, hfids, hpids, pools_hold hrun (.inl fun _ _ hs => hs)⟩

end SchlagOS
