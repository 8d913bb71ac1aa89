import SchlagOS.Foundation.Sweep
import SchlagOS.Run.Sleep

/-!
# The loop of clock_tick

`clock_tick` takes out of `pids_waiting` every process whose deadline the clock has
reached, and puts it into the ready queue.  The loop overwrites the entry of such a
process by the last one and looks at the same place again: its index, an unsigned
word, is decremented before the loop increments it.
-/

namespace SchlagOS

open Foundation

variable {ok : Kernel → Step → Prop} {s s' : Kernel} {p : Int} {i turns : Nat}
  {stack stack' : ArrayStack Int} {out : List Int}

/-- The clock has reached the deadline of `p`. -/
def Kernel.due (s : Kernel) (p : Int) : Bool := (s.data p).sleepTime ≤ s.inter

/-- A turn of the loop that takes out the process at `i`, up to its `queue_add`. -/
def rouse (s : Kernel) (i : Nat) : Kernel :=
  { s.update (s.pidsWaiting.cells i) fun p => { p with state := .waiting } with
    pidsWaiting := s.pidsWaiting.replaceByLast processNotFoundCode i }

/-! ## The index -/

/-- The loop with the index of the source, a 32-bit word that a removal takes below 0 at the
first entry.  There is no result when it would take more than `turns` turns. -/
def clockTickLoop : Nat → Nat → Bool → Kernel → Except Panic (Option (Bool × Kernel))
  | 0, i, awaken, s => .ok (if i < s.pidsWaiting.count then none else some (awaken, s))
  | turns + 1, i, awaken, s =>
      if i < s.pidsWaiting.count then do
        let pid := s.pidsWaiting.cells i
        let process ← getProcess s pid
        if process.sleepTime ≤ s.inter then
          let s := s.update pid fun p => { p with state := .waiting }
          let s := { s with
            pidsWaiting := s.pidsWaiting.replaceByLast processNotFoundCode i }
          let i := uint32Pred i
          let s ← queueAdd s pid
          clockTickLoop turns ((i + 1) % 2 ^ 32) true s
        else clockTickLoop turns ((i + 1) % 2 ^ 32) awaken s
      else .ok (some (awaken, s))

/-- The decrement behind a removal and the increment of the loop cancel out. -/
theorem uint32Pred_succ (hi : i < 2 ^ 32) : (uint32Pred i + 1) % 2 ^ 32 = i := by
  unfold uint32Pred
  split <;> omega

theorem queueAdd_pidsWaiting : Meets (queueAdd s p)
    (fun s' => s'.pidsWaiting = s.pidsWaiting) fun _ => True := by
  unfold queueAdd
  rw [meets_bind, meets_demand]
  exact ⟨fun _ _ => rfl, fun _ => trivial⟩

/-- With enough turns for the entries from `i` on the loop ends by its own test. -/
theorem clockTickLoop_eq (awaken : Bool) (hcount : s.pidsWaiting.count < 2 ^ 32)
    (hi : i ≤ s.pidsWaiting.count) (hturns : s.pidsWaiting.count - i ≤ turns) :
    clockTickLoop turns i awaken s = (clockTickFrom turns i awaken s).map some := by
  induction turns generalizing s i awaken with
  | zero =>
      have hend : ¬i < s.pidsWaiting.count := by omega
      rw [clockTickLoop, clockTickFrom, if_neg hend]
      rfl
  | succ turns ih =>
      rw [clockTickLoop, clockTickFrom]
      by_cases hlt : i < s.pidsWaiting.count
      · rw [if_pos hlt, if_pos hlt]
        dsimp only
        cases getProcess s (s.pidsWaiting.cells i) with
        | error e => rfl
        | ok process =>
            rw [ok_bind, ok_bind]
            by_cases hdue : process.sleepTime ≤ s.inter
            · rw [if_pos hdue, if_pos hdue]
              have hadded := queueAdd_pidsWaiting (s := rouse s i) (p := s.pidsWaiting.cells i)
              change (queueAdd (rouse s i) _ >>= _) = (queueAdd (rouse s i) _ >>= _).map some
              cases hadd : queueAdd (rouse s i) (s.pidsWaiting.cells i) with
              | error e => rfl
              | ok s₂ =>
                  have hwaiting : s₂.pidsWaiting.count = s.pidsWaiting.count - 1 := by
                    rw [hadded.of_ok hadd]
                    rfl
                  rw [ok_bind, ok_bind, uint32Pred_succ (by omega)]
                  exact ih true (by omega) (by omega) (by omega)
            · rw [if_neg hdue, if_neg hdue, Nat.mod_eq_of_lt (by omega)]
              exact ih awaken hcount hlt (by omega)
      · rw [if_neg hlt, if_neg hlt]
        rfl

/-! ## The sweep -/

/-- `pids_waiting` holds sleeping processes, each once, and the ready queue is in order. -/
structure Slumber (s : Kernel) : Prop where
  distinct : s.pidsWaiting.entries.Nodup
  asleep : ∀ p ∈ s.pidsWaiting.entries, IsPid p ∧ (s.data p).state = .sleeping
  ready : ReadyQueue (fun p => (s.data p).state) (fun p => (s.data p).priority) s.processQueue

/-- The processes of a list are awake, and the contents of the two queues may have changed. -/
structure Rung (s s' : Kernel) (out : List Int) : Prop where
  data : ∀ p, s'.data p = if p ∈ out then { s.data p with state := .waiting } else s.data p
  rest : s' = { s with
    data := s'.data, pidsWaiting := s'.pidsWaiting, processQueue := s'.processQueue }

theorem Rung.refl (s : Kernel) : Rung s s [] where
  data p := by simp
  rest := rfl

theorem Rung.cons {s₁ : Kernel} (h : Rung s s₁ [p]) (h' : Rung s₁ s' out) :
    Rung s s' (p :: out) where
  data x := by
    rw [h'.data, h.data]
    by_cases hx : x = p
    · simp [hx]
    · simp [hx]
  rest := by rw [h'.rest, h.rest]

theorem Rung.due (h : Rung s s' out) : s'.due = s.due := by
  have hinter : s'.inter = s.inter := by rw [h.rest]
  funext x
  have hsleep : (s'.data x).sleepTime = (s.data x).sleepTime := by
    rw [h.data]
    split <;> rfl
  unfold Kernel.due
  rw [hinter, hsleep]

/-- One turn of the loop that wakes the process at `i`. -/
theorem Slumber.wake (h : Slumber s) (hi : i < s.pidsWaiting.count) :
    ∃ s₁, queueAdd (rouse s i) (s.pidsWaiting.cells i) = .ok s₁ ∧ Slumber s₁ ∧
      Rung s s₁ [s.pidsWaiting.cells i] ∧
        s₁.pidsWaiting = s.pidsWaiting.replaceByLast processNotFoundCode i := by
  have hperm := s.pidsWaiting.perm_replaceByLast processNotFoundCode hi
  have hmem := s.pidsWaiting.cells_mem hi
  generalize hp : s.pidsWaiting.cells i = p at hperm hmem
  have hnodup := List.nodup_cons.mp (hperm.nodup_iff.mp h.distinct)
  obtain ⟨hpid, hasleep⟩ := h.asleep p hmem
  obtain ⟨queue, hadd, hready⟩ := queueAdd_eq
    (s := { s with pidsWaiting := s.pidsWaiting.replaceByLast processNotFoundCode i })
    (f := fun q => { q with state := .waiting }) h.ready (by rw [hasleep]; decide) hpid
    fun _ => rfl
  have hadd' : queueAdd (rouse s i) p = .ok { rouse s i with processQueue := queue } := by
    unfold rouse
    rw [hp]
    exact hadd
  have hdata : ∀ x, (rouse s i).data x =
      if x = p then { s.data p with state := .waiting } else s.data x := by
    rw [← hp]
    exact s.data_update (s.pidsWaiting.cells i) fun q => { q with state := .waiting }
  refine ⟨_, hadd', ⟨hnodup.2, fun x hx => ?_, ?_⟩, ⟨fun x => ?_, rfl⟩, rfl⟩
  · have hold := h.asleep x (hperm.mem_iff.mpr (List.mem_cons_of_mem _ hx))
    have hxp : x ≠ p := by
      rintro rfl
      exact hnodup.1 hx
    dsimp only
    rw [hdata, if_neg hxp]
    exact hold
  · dsimp only
    have hstate : (fun x => ((rouse s i).data x).state) =
        Function.update (fun x => (s.data x).state) p .waiting := by
      funext x
      rw [hdata, Function.update_apply]
      split <;> rfl
    have hpriority : (fun x => ((rouse s i).data x).priority) = fun x => (s.data x).priority := by
      funext x
      rw [hdata]
      split_ifs with hx
      · rw [hx]
      · rfl
    rw [hstate, hpriority]
    exact hready
  · dsimp only
    rw [hdata]
    by_cases hx : x = p
    · simp [hx]
    · simp [hx]

/-- The loop of `clock_tick` is a sweep, and wakes the processes that it takes out. -/
theorem Slumber.loop (h : Slumber s)
    (hsweep : Sweep s.due processNotFoundCode i s.pidsWaiting out stack') (awaken : Bool) :
    ∃ s', Slumber s' ∧ Rung s s' out ∧ s'.pidsWaiting = stack' ∧
      ∀ turns, s.pidsWaiting.count - i ≤ turns →
        clockTickFrom turns i awaken s = .ok (awaken || !out.isEmpty, s') := by
  generalize hdue : s.due = due at hsweep
  generalize hstack : s.pidsWaiting = stack at hsweep
  induction hsweep generalizing s awaken with
  | @stop i stack hi =>
      have hend : ¬i < s.pidsWaiting.count := by
        rw [hstack]
        omega
      refine ⟨s, h, .refl s, hstack, fun turns _ => ?_⟩
      cases turns with
      | zero => simp [clockTickFrom]
      | succ turns => simp [clockTickFrom, hend]
  | @take i stack stack' out hi htake _ ih =>
      subst hstack hdue
      obtain ⟨s₁, hadd, hslumber, hrung, hwaiting⟩ := h.wake hi
      obtain ⟨s', hslumber', hrung', hwaiting', hloop⟩ := ih hslumber true hrung.due hwaiting
      have hcount := s.pidsWaiting.count_replaceByLast processNotFoundCode i
      have hpid := (h.asleep _ (s.pidsWaiting.cells_mem hi)).1
      have hreached : (s.data (s.pidsWaiting.cells i)).sleepTime ≤ s.inter :=
        of_decide_eq_true htake
      refine ⟨s', hslumber', hrung.cons hrung', hwaiting', fun turns hturns => ?_⟩
      obtain ⟨turns, rfl⟩ := Nat.exists_eq_succ_of_ne_zero (n := turns) (by omega)
      rw [clockTickFrom, if_pos hi]
      dsimp only
      rw [getProcess_eq hpid, ok_bind, if_pos hreached]
      change (queueAdd (rouse s i) _ >>= _) = _
      rw [hadd, ok_bind, hloop turns (by omega)]
      simp
  | @skip i stack stack' out hi hskip _ ih =>
      subst hstack hdue
      obtain ⟨s', hslumber', hrung', hwaiting', hloop⟩ := ih h awaken rfl rfl
      have hpid := (h.asleep _ (s.pidsWaiting.cells_mem hi)).1
      have hearly : ¬(s.data (s.pidsWaiting.cells i)).sleepTime ≤ s.inter :=
        of_decide_eq_false hskip
      refine ⟨s', hslumber', hrung', hwaiting', fun turns hturns => ?_⟩
      obtain ⟨turns, rfl⟩ := Nat.exists_eq_succ_of_ne_zero (n := turns) (by omega)
      rw [clockTickFrom, if_pos hi]
      dsimp only
      rw [getProcess_eq hpid, ok_bind, if_neg hearly, hloop turns (by omega)]

/-! ## The whole loop -/

/-- What the loop of `clock_tick` does: the processes whose deadline has been reached are
ready, each entered once, the others are left as they are, and the cells that were given up
hold no pid. -/
structure AlarmRings (s s' : Kernel) : Prop where
  data : ∀ p, s'.data p = if p ∈ s.pidsWaiting.entries ∧ s.due p = true then
    { s.data p with state := .waiting } else s.data p
  inserted : s'.ready.Perm (s.pidsWaiting.entries.filter s.due ++ s.ready)
  sorted : s'.ready.Pairwise fun a b => (s.data a).priority ≤ (s.data b).priority
  kept : s'.pidsWaiting.entries.Perm (s.pidsWaiting.entries.filter fun p => !s.due p)
  distinct : s'.ready.Nodup ∧ s'.pidsWaiting.entries.Nodup
  vacated : ∀ i, s'.pidsWaiting.count ≤ i → i < s.pidsWaiting.count →
    s'.pidsWaiting.cells i = processNotFoundCode
  rest : s' = { s with
    data := s'.data, pidsWaiting := s'.pidsWaiting, processQueue := s'.processQueue }

theorem Slumber.mem_ready (h : Slumber s) : p ∈ s.ready ↔ (s.data p).state = .waiting :=
  h.ready.mem_iff p

/-- A sweep of the whole array, with any number of turns that is not less than its size. -/
theorem Slumber.rings (h : Slumber s) : ∃ s', AlarmRings s s' ∧ Slumber s' ∧
    ∀ turns, s.pidsWaiting.count ≤ turns → clockTickFrom turns 0 false s =
      .ok (s.pidsWaiting.entries.any s.due, s') := by
  obtain ⟨out, stack', hsweep⟩ := exists_sweep s.due processNotFoundCode 0 s.pidsWaiting
  obtain ⟨s', hslumber, hrung, hwaiting, hloop⟩ := h.loop hsweep false
  have hswept := hsweep.swept
  have hawaken : (!out.isEmpty) = s.pidsWaiting.entries.any s.due := by
    rw [Bool.eq_iff_iff, List.any_eq_true, Bool.not_eq_true', List.isEmpty_eq_false_iff_exists_mem]
    exact exists_congr fun x => hswept.mem_out x
  refine ⟨s', ⟨fun p => ?_, ?_, ?_, ?_, ⟨hslumber.ready.holds.nodup, hslumber.distinct⟩, ?_,
    hrung.rest⟩, hslumber, fun turns hturns => ?_⟩
  · rw [hrung.data]
    exact if_congr (hswept.mem_out p) rfl rfl
  · have hmem : ∀ p, p ∈ s'.ready ↔ p ∈ out ++ s.ready := by
      intro p
      rw [hslumber.mem_ready, List.mem_append, h.mem_ready, hrung.data]
      by_cases hp : p ∈ out
      · simp [hp]
      · simp [hp]
    have hnodup : (out ++ s.ready).Nodup := by
      rw [List.nodup_append]
      refine ⟨hswept.taken.nodup_iff.mpr (h.distinct.filter _), h.ready.holds.nodup, ?_⟩
      rintro p hp q hq rfl
      have hasleep := (h.asleep p ((hswept.mem_out p).mp hp).1).2
      rw [h.mem_ready.mp hq] at hasleep
      cases hasleep
    have hperm := (List.perm_ext_iff_of_nodup hslumber.ready.holds.nodup hnodup).mpr hmem
    exact hperm.trans (hswept.taken.append_right s.ready)
  · have hpriority : ∀ p, (s'.data p).priority = (s.data p).priority := by
      intro p
      rw [hrung.data]
      split <;> rfl
    refine hslumber.ready.sorted.imp fun hab => ?_
    rwa [hpriority, hpriority] at hab
  · rw [hwaiting]
    exact hswept.kept
  · rw [hwaiting]
    exact hswept.vacated
  · rw [hloop turns hturns, Bool.false_or, hawaken]

theorem Slumber.count_lt (h : Slumber s) : s.pidsWaiting.count < 2 ^ 32 := by
  have hlength := length_le_of_isPid h.distinct fun p hp => (h.asleep p hp).1
  rw [s.pidsWaiting.length_entries] at hlength
  unfold processTableMaxSize at hlength
  omega

/-- `clock_tick` calls `schedule` behind the loop if there was a process to wake. -/
theorem Slumber.clockTick (h : Slumber s) : ∃ s', AlarmRings s s' ∧
    (∀ turns, s.pidsWaiting.count ≤ turns → clockTickFrom turns 0 false s =
      .ok (s.pidsWaiting.entries.any s.due, s')) ∧
    clockTick s = .ok (if s.pidsWaiting.entries.any s.due then s'.callSchedule [] else s') := by
  obtain ⟨s', hrings, -, hloop⟩ := h.rings
  refine ⟨s', hrings, hloop, ?_⟩
  unfold SchlagOS.clockTick
  rw [hloop _ (Nat.le_refl _), ok_bind]
  dsimp only
  split <;> rfl

/-- From every array of sleeping processes, whatever their deadlines and the clock are, the
loop ends and takes out exactly the ones that are due; `clock_tick` calls `schedule` behind it
if there was one. -/
theorem clock_tick_rings (h : Slumber s) : ∃ s', AlarmRings s s' ∧
    (∀ turns, s.pidsWaiting.count ≤ turns → clockTickLoop turns 0 false s =
      .ok (some (s.pidsWaiting.entries.any s.due, s'))) ∧
    clockTick s = .ok (if s.pidsWaiting.entries.any s.due then s'.callSchedule [] else s') := by
  obtain ⟨s', hrings, hloop, htick⟩ := h.clockTick
  refine ⟨s', hrings, fun turns hturns => ?_, htick⟩
  rw [clockTickLoop_eq false h.count_lt (Nat.zero_le _) (by omega), hloop turns hturns]
  rfl

theorem Safe.slumber {r : Int} (h : Safe s r) : Slumber s where
  distinct := h.inv.core.sleepers.1
  asleep p hp := by
    have hasleep := (h.inv.core.sleepers.2 p).mp hp
    exact ⟨h.inv.core.isPid (by rw [hasleep]; decide), hasleep⟩
  ready := h.inv.core.ready

/-- The states of runs are such states. -/
theorem Running.slumber (h : Running ok s) (hok : ∀ s step, ok s step → Careful s step) :
    Slumber s := by
  obtain ⟨r, hsafe⟩ := h.safe hok
  exact hsafe.slumber

/-- Processes 3 and 4 sleep, and the clock has reached the deadline of process 3. -/
theorem clock_tick_rings_run : ∃ s s' : Kernel, s.pidsWaiting.entries = [3, 4] ∧
    s.due 3 = true ∧ s.due 4 = false ∧ AlarmRings s s' := by
  have hrun : ∃ s, Running (fun s step => step.sparing s) s ∧
      decide (s.pidsWaiting.entries = [3, 4] ∧ s.due 3 = true ∧ s.due 4 = false) = true :=
    Running.computed ([Event.init 4096 128, .call (.start 0x1000000 4096 129 ⟨0x1000000, 0⟩),
      .call (.waitClock 1), .call (.start 0x1000000 4096 130 ⟨0x1000000, 0⟩),
      .call (.waitClock 100)].map Event.step) [Event.tick.step] (by decide +kernel)
  obtain ⟨s, hrun, htest⟩ := hrun
  obtain ⟨hentries, hthree, hfour⟩ := of_decide_eq_true htest
  obtain ⟨r, hsafe, -⟩ := hrun.sparing
  obtain ⟨s', hrings, -, -⟩ := clock_tick_rings hsafe.slumber
  exact ⟨s, s', hentries, hthree, hfour, hrings⟩

end SchlagOS
