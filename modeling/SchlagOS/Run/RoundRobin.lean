import SchlagOS.Invariant.Calm
import Mathlib.Data.List.Rotate

/-!
# Round robin among equals

`queue_add` puts a process behind those of its priority and `schedule` lets the
running one go on only if its priority is strictly higher, so that processes of
one priority take turns.
-/

namespace SchlagOS

open Foundation

variable {ok : Kernel → Step → Prop} {s s' : Kernel} {mem : Memory} {r q : Int}
  {low qs : List Int}

/-! ## Calls of schedule -/

/-- The call of `schedule` that the handler of the clock interrupt makes. -/
def timerSchedule (mem : Memory) (s : Kernel) : Except Panic Kernel := do
  let s ← kernelStep mem (s.callSchedule [.clockTick])
  let s ← kernelStep mem s
  kernelStep mem s

/-- One such call after the other, with what the allocators answer during each of them. -/
def timerSchedules (mems : List Memory) (s : Kernel) : Except Panic Kernel :=
  mems.foldlM (fun s mem => timerSchedule mem s) s

/-- A process runs, none waits for its end, and `schedule` only has to choose. -/
structure Schedulable (s : Kernel) (r : Int) : Prop where
  running : s.runningProcess = some r
  state : (s.data r).state = .running
  holds : s.processQueue.Holds s.ready
  outside : r ∉ s.ready
  sorted : s.ready.Pairwise fun a b => (s.data a).priority ≤ (s.data b).priority
  pid : ∀ x ∈ r :: s.ready, (s.data x).pid = x
  room : s.ready.length < processTableMaxSize
  size : s.currentSize < processTableMaxSize
  zombify : s.pidsToZombify.count = 0
  destroy : s.pidsToDestroy.count = 0

/-- `r` runs, those of its priority follow in the order `qs`, and those of `low` have lower
priorities. -/
structure Lined (s : Kernel) (low : List Int) (r : Int) (qs : List Int) : Prop where
  ready : s.ready = low ++ qs.reverse
  lower : ∀ x ∈ low, (s.data x).priority < (s.data r).priority
  equal : ∀ x ∈ qs, (s.data x).priority = (s.data r).priority

private theorem takePending_empty {stack : ArrayStack Int} (hempty : stack.count = 0)
    (running : Option Int) : takePending stack running = none := by
  unfold takePending
  rw [if_pos hempty]

/-- Without a pending death the phases of `schedule` pass. -/
theorem scheduleStep_passes {rest : List Frame} (hzombify : s.pidsToZombify.count = 0)
    (hdestroy : s.pidsToDestroy.count = 0) :
    scheduleStep mem s .zombify rest = .ok { s with control := .schedule .destroy :: rest } ∧
      scheduleStep mem s .destroy rest = .ok { s with control := .schedule .decide :: rest } := by
  unfold scheduleStep
  dsimp only
  rw [takePending_empty hzombify, takePending_empty hdestroy]
  exact ⟨rfl, rfl⟩

theorem timerSchedule_eq (h : Schedulable s r) :
    timerSchedule mem s = scheduleDecide { s with control := .clockTick :: s.control } := by
  have hzombify : kernelStep mem (s.callSchedule [.clockTick]) =
      .ok { s with control := .schedule .destroy :: .clockTick :: s.control } :=
    (scheduleStep_passes (s := s.callSchedule [.clockTick]) h.zombify h.destroy).1
  have hdestroy : kernelStep mem
      { s with control := .schedule .destroy :: .clockTick :: s.control } =
      .ok { s with control := .schedule .decide :: .clockTick :: s.control } :=
    (scheduleStep_passes
      (s := { s with control := .schedule .destroy :: .clockTick :: s.control })
      h.zombify h.destroy).2
  unfold timerSchedule
  rw [hzombify, ok_bind, hdestroy, ok_bind]
  rfl

/-! ## One turn -/

theorem Schedulable.decide_eq (h : Schedulable s r) :
    scheduleDecide s = match s.ready.getLast? with
      | none => .ok s
      | some c =>
          if (s.data c).priority < (s.data r).priority then .ok s
          else processSwitch { s with processQueue := s.processQueue.out.2 } r c := by
  have htop : queueTop s = s.ready.getLast? := h.holds.top_eq
  have hout : s.processQueue.out.1 = s.ready.getLast? := h.holds.out_eq.1
  have hsize : ¬((s.data r).pid ≠ 1 ∧ processTableMaxSize ≤ s.currentSize) := by
    have hlt := h.size
    omega
  unfold scheduleDecide
  rw [h.running]
  dsimp only
  rw [if_neg hsize, htop]
  unfold queueOut
  rw [hout]
  cases hlast : s.ready.getLast? with
  | none => rfl
  | some c =>
      have hc : c ∈ s.ready := List.mem_of_getLast? hlast
      have hne : (s.data r).pid ≠ (s.data c).pid := by
        rw [h.pid r (by simp), h.pid c (by simp [hc])]
        rintro rfl
        exact h.outside hc
      dsimp only
      by_cases hlt : (s.data c).priority < (s.data r).priority
      · rw [if_pos (.inr ⟨h.state, hlt⟩), if_pos hlt]
      · rw [if_neg (not_or.mpr ⟨hne, fun hr => hlt hr.2⟩), if_neg hlt]
        rfl

/-- A process without equals goes on. -/
theorem Lined.stay (hl : Lined s low r []) (h : Schedulable s r) : scheduleDecide s = .ok s := by
  rw [h.decide_eq]
  cases hlast : s.ready.getLast? with
  | none => rfl
  | some c =>
      have hc : c ∈ low := by
        have hmem := List.mem_of_getLast? hlast
        rw [hl.ready] at hmem
        simpa using hmem
      exact if_pos (hl.lower c hc)

/-- The next of its equals runs, and the running one is put behind them. -/
theorem Lined.switch (hl : Lined s low r (q :: qs)) (h : Schedulable s r) :
    ∃ queue', scheduleDecide s = .ok (contextSwitch
        { (s.update q fun p => { p with state := .running }).update r
            (fun p => { p with state := .waiting }) with
          runningProcess := some q, processQueue := queue' } r q) ∧
      queue'.Holds (low ++ (qs ++ [r]).reverse) := by
  have hready : s.ready = (low ++ qs.reverse) ++ [q] := by
    rw [hl.ready, List.reverse_cons, List.append_assoc]
  have hmem : q ∈ s.ready := by simp [hready]
  have hrq : r ≠ q := fun heq => h.outside (heq ▸ hmem)
  have hlast : s.ready.getLast? = some q := by rw [hready, List.getLast?_concat]
  have hout : s.processQueue.out.2.Holds (low ++ qs.reverse) := by
    have hholds := h.holds.out_eq.2
    rwa [hready, List.dropLast_concat] at hholds
  have hnot : r ∉ low ++ qs.reverse := by
    intro hr
    exact h.outside (by rw [hready]; exact List.mem_append_left _ hr)
  have hlength : (low ++ qs.reverse).length < processTableMaxSize + 1 := by
    have hroom := h.room
    rw [hready, List.length_append] at hroom
    omega
  set below : Int → Bool := fun i => decide ((s.data i).priority < (s.data r).priority)
    with hbelow
  obtain ⟨queue', hadd, hholds⟩ := hout.add hnot hlength below
  refine ⟨queue', ?_, ?_⟩
  · rw [h.decide_eq, hlast]
    dsimp only
    rw [if_neg (by rw [hl.equal q (by simp)]; exact lt_irrefl _)]
    set s₁ : Kernel := { s.update q fun p => { p with state := .running } with
      processQueue := s.processQueue.out.2, runningProcess := some q } with hs₁
    have hdata : s₁.data r = s.data r := by
      change (s.update q fun p => { p with state := .running }).data r = s.data r
      rw [Kernel.data_update, if_neg hrq]
    have hpriority : ∀ i, ((s₁.update r fun p => { p with state := .waiting }).data i).priority =
        (s.data i).priority := by
      intro i
      rw [Kernel.data_update]
      split_ifs with hir
      · rw [hdata, hir]
      · change ((s.update q fun p => { p with state := .running }).data i).priority = _
        rw [Kernel.data_update]
        split_ifs with hiq
        · rw [hiq]
        · rfl
    have hadd' : queueAdd (s₁.update r fun p => { p with state := .waiting }) r =
        .ok { s₁.update r fun p => { p with state := .waiting } with processQueue := queue' } := by
      unfold queueAdd
      simp only [hpriority]
      rw [← hbelow]
      have hqueue : (s₁.update r fun p => { p with state := .waiting }).processQueue =
          s.processQueue.out.2 := rfl
      rw [hqueue, hadd]
      rfl
    have hrunning : (s₁.data r).state = .running := by
      rw [hdata]
      exact h.state
    have hswitch : processSwitch { s with processQueue := s.processQueue.out.2 } r q =
        queueAdd (s₁.update r fun p => { p with state := .waiting }) r >>= fun s₂ =>
          pure (contextSwitch s₂ r q) := if_pos hrunning
    rw [hswitch, hadd']
    rfl
  · rw [LinkQueue.place_append] at hholds
    · rwa [List.reverse_append, List.reverse_singleton, List.singleton_append]
    · exact fun x hx => decide_eq_true (hl.lower x hx)
    · intro x hx
      have heq := hl.equal x (List.mem_cons_of_mem q (List.mem_reverse.mp hx))
      exact decide_eq_false (by rw [heq]; exact lt_irrefl _)

private theorem field_kept {β : Type} (field : Process → β) {p : Int} {f : Process → Process}
    (hf : ∀ process, field (f process) = field process) (s : Kernel) (x : Int) :
    field ((s.update p f).data x) = field (s.data x) := by
  rw [Kernel.data_update]
  split_ifs with hx
  · rw [hf, hx]
  · rfl

/-- After a call of `schedule` the first of the line runs and the others have moved up. -/
theorem Lined.turn (mem : Memory) (hl : Lined s low r qs) (h : Schedulable s r) :
    ∃ s' r' qs', timerSchedule mem s = .ok s' ∧ Schedulable s' r' ∧ Lined s' low r' qs' ∧
      r' :: qs' = (r :: qs).rotate 1 ∧ ∀ x, (s'.data x).priority = (s.data x).priority := by
  set s₀ : Kernel := { s with control := .clockTick :: s.control } with hs₀
  have h₀ : Schedulable s₀ r := ⟨h.running, h.state, h.holds, h.outside, h.sorted, h.pid, h.room,
    h.size, h.zombify, h.destroy⟩
  have hl₀ : Lined s₀ low r qs := ⟨hl.ready, hl.lower, hl.equal⟩
  rw [timerSchedule_eq h]
  cases qs with
  | nil => exact ⟨s₀, r, [], hl₀.stay h₀, h₀, hl₀, by simp, fun _ => rfl⟩
  | cons q qs =>
      obtain ⟨queue', hdecide, hholds⟩ := hl₀.switch h₀
      set s' : Kernel := contextSwitch
        { (s₀.update q fun p => { p with state := .running }).update r
            (fun p => { p with state := .waiting }) with
          runningProcess := some q, processQueue := queue' } r q with hs'
      have hfield : ∀ {β : Type} (field : Process → β) (x : Int),
          (∀ p state, field { p with state := state } = field p) →
          (∀ p frames, field { p with executionContext := frames } = field p) →
          field (s'.data x) = field (s.data x) := by
        intro β field x hstate hcontext
        calc field (s'.data x)
            = field ((((s₀.update q fun p => { p with state := .running }).update r
                fun p => { p with state := .waiting }).update r
                  fun p => { p with executionContext := s₀.control }).data x) := rfl
          _ = field (s.data x) := by
            rw [field_kept field (fun p => hcontext p _), field_kept field (fun p => hstate p _),
              field_kept field (fun p => hstate p _)]
      have hpriority : ∀ x, (s'.data x).priority = (s.data x).priority :=
        fun x => hfield Process.priority x (fun _ _ => rfl) fun _ _ => rfl
      have hlength : (low ++ (qs ++ [r]).reverse).length = s.ready.length := by
        rw [hl.ready]
        simp
      have hroom := h.room
      have hready : s'.ready = low ++ (qs ++ [r]).reverse := hholds.toList_eq (by omega)
      have hmem : ∀ x, x ∈ q :: s'.ready ↔ x ∈ r :: s.ready := by
        intro x
        rw [hready, hl.ready]
        simp
        tauto
      have hnodup : (r :: s.ready).Nodup := List.nodup_cons.mpr ⟨h.outside, h.holds.nodup⟩
      have hsorted := h.sorted
      rw [hl.ready] at hnodup hsorted
      obtain ⟨hr, hnodup⟩ := List.nodup_cons.mp hnodup
      have hqr : q ≠ r := by
        rintro rfl
        exact hr (by simp)
      have hlow : q ∉ low := fun hq => (List.nodup_append.mp hnodup).2.2 q hq q (by simp) rfl
      have hqs : q ∉ qs :=
        (List.nodup_cons.mp (List.nodup_reverse.mp (List.nodup_append.mp hnodup).2.1)).1
      have hline : Lined s' low q (qs ++ [r]) := by
        have hq := hl.equal q (by simp)
        refine ⟨hready, fun x hx => ?_, fun x hx => ?_⟩
        · rw [hpriority, hpriority, hq]
          exact hl.lower x hx
        · rw [hpriority, hpriority, hq]
          rcases List.mem_append.mp hx with hx | hx
          · exact hl.equal x (List.mem_cons_of_mem q hx)
          · rw [List.mem_singleton.mp hx]
      refine ⟨s', q, qs ++ [r], hdecide, ?_, hline, by simp, hpriority⟩
      constructor
      · rfl
      · change ((((s₀.update q fun p => { p with state := .running }).update r
          fun p => { p with state := .waiting }).update r
            fun p => { p with executionContext := s₀.control }).data q).state = .running
        rw [Kernel.data_update, if_neg hqr, Kernel.data_update, if_neg hqr, Kernel.data_update,
          if_pos rfl]
      · rw [hready]
        exact hholds
      · rw [hready]
        simp [hlow, hqs, hqr]
      · simp only [hpriority]
        rw [hready, List.pairwise_append]
        have hequal : ∀ x ∈ (qs ++ [r]).reverse, (s.data x).priority = (s.data r).priority := by
          intro x hx
          have hx' := hline.equal x (List.mem_reverse.mp hx)
          rw [hpriority, hpriority] at hx'
          rw [hx', hl.equal q (by simp)]
        refine ⟨(List.pairwise_append.mp hsorted).1,
          List.pairwise_of_forall_mem_list fun a ha b hb => ?_, fun a ha b hb => ?_⟩
        · rw [hequal a ha, hequal b hb]
        · rw [hequal b hb]
          exact (hl.lower a ha).le
      · intro x hx
        rw [hfield Process.pid x (fun _ _ => rfl) fun _ _ => rfl]
        exact h.pid x ((hmem x).mp hx)
      · rw [hready]
        omega
      · exact h.size
      · exact h.zombify
      · exact h.destroy

/-! ## Any number of turns -/

theorem Lined.turns (mems : List Memory) (hl : Lined s low r qs) (h : Schedulable s r) :
    ∃ s' r' qs', timerSchedules mems s = .ok s' ∧ Schedulable s' r' ∧ Lined s' low r' qs' ∧
      r' :: qs' = (r :: qs).rotate mems.length ∧
        ∀ x, (s'.data x).priority = (s.data x).priority := by
  induction mems generalizing s r qs with
  | nil => exact ⟨s, r, qs, rfl, h, hl, by simp, fun _ => rfl⟩
  | cons mem mems ih =>
      obtain ⟨s₁, r₁, qs₁, hrun, h₁, hl₁, hrotate, hpriority⟩ := hl.turn mem h
      obtain ⟨s', r', qs', hruns, h', hl', hrotate', hpriority'⟩ := ih hl₁ h₁
      refine ⟨s', r', qs', ?_, h', hl', ?_, fun x => (hpriority' x).trans (hpriority x)⟩
      · unfold timerSchedules
        rw [List.foldlM_cons, hrun, ok_bind]
        exact hruns
      · rw [hrotate', hrotate, List.rotate_rotate, List.length_cons, Nat.add_comm]

/-- The running process and the ready ones of its priority, in the order in which they are
taken out. -/
def equals (s : Kernel) (r : Int) : List Int :=
  r :: s.ready.reverse.filter fun x => decide ((s.data x).priority = (s.data r).priority)

/-- The ready processes with lower priorities. -/
def lowers (s : Kernel) (priority : Int) : List Int :=
  s.ready.filter fun x => decide ((s.data x).priority < priority)

private theorem sorted_split {f : Int → Int} {n : Int} {xs : List Int}
    (hsorted : xs.Pairwise fun a b => f a ≤ f b) (hle : ∀ x ∈ xs, f x ≤ n) :
    xs = xs.filter (fun x => decide (f x < n)) ++ xs.filter fun x => decide (f x = n) := by
  induction xs with
  | nil => rfl
  | cons a xs ih =>
      obtain ⟨ha, hsorted⟩ := List.pairwise_cons.mp hsorted
      have hle' : ∀ x ∈ xs, f x ≤ n := fun x hx => hle x (List.mem_cons_of_mem a hx)
      have han := hle a (by simp)
      by_cases hlt : f a < n
      · have hne : f a ≠ n := by omega
        simpa [hlt, hne] using ih hsorted hle'
      · have heq : f a = n := by omega
        have hequal : ∀ x ∈ xs, f x = n := by
          intro x hx
          have hax := ha x hx
          have hxn := hle' x hx
          omega
        have hnone : (a :: xs).filter (fun x => decide (f x < n)) = [] := by
          rw [List.filter_eq_nil_iff]
          intro x hx
          rcases List.mem_cons.mp hx with rfl | hx
          · simpa using hlt
          · simp [hequal x hx]
        have hall : (a :: xs).filter (fun x => decide (f x = n)) = a :: xs := by
          rw [List.filter_eq_self]
          intro x hx
          rcases List.mem_cons.mp hx with rfl | hx
          · simpa using heq
          · simp [hequal x hx]
        rw [hnone, hall, List.nil_append]

theorem Schedulable.lined (h : Schedulable s r)
    (habove : ∀ x ∈ s.ready, (s.data x).priority ≤ (s.data r).priority) :
    Lined s (lowers s (s.data r).priority) r (equals s r).tail where
  ready := by
    change s.ready = s.ready.filter _ ++ (s.ready.reverse.filter _).reverse
    rw [List.filter_reverse, List.reverse_reverse]
    exact sorted_split (f := fun x => (s.data x).priority) h.sorted habove
  lower x hx := by simpa using (List.mem_filter.mp hx).2
  equal x hx := by
    change x ∈ s.ready.reverse.filter _ at hx
    simpa using (List.mem_filter.mp hx).2

/-- What holds after `n` calls of `schedule`: the equals have run one after the other, and
those with lower priorities stand as before. -/
structure TakesTurns (s : Kernel) (r : Int) (n : Nat) (s' : Kernel) : Prop where
  running : s'.runningProcess = (equals s r)[n % (equals s r).length]?
  once : (equals s r).Nodup
  equal : ∀ x ∈ equals s r, (s'.data x).priority = (s.data r).priority
  lower : lowers s' (s.data r).priority = lowers s (s.data r).priority

theorem Schedulable.mem_equals (h : Schedulable s r)
    (habove : ∀ x ∈ s.ready, (s.data x).priority ≤ (s.data r).priority) {x : Int}
    (hx : x ∈ equals s r) : (s.data x).priority = (s.data r).priority := by
  rcases List.mem_cons.mp hx with rfl | hx
  · rfl
  · exact (h.lined habove).equal x hx

theorem round_robin (h : Schedulable s r)
    (habove : ∀ x ∈ s.ready, (s.data x).priority ≤ (s.data r).priority) (mems : List Memory) :
    ∃ s', timerSchedules mems s = .ok s' ∧ TakesTurns s r mems.length s' := by
  have hl := h.lined habove
  obtain ⟨s', r', qs', hruns, h', hl', hrotate, hpriority⟩ := hl.turns mems h
  change r' :: qs' = (equals s r).rotate mems.length at hrotate
  have hr' : (s.data r').priority = (s.data r).priority := by
    refine h.mem_equals habove ?_
    rw [← List.mem_rotate (n := mems.length), ← hrotate]
    simp
  refine ⟨s', hruns, ?_, ?_, fun x hx => ?_, ?_⟩
  · have hlt : mems.length % (equals s r).length < (equals s r).length :=
      Nat.mod_lt _ (List.length_pos_of_mem (List.mem_cons_self))
    rw [h'.running, ← List.head?_rotate hlt, List.rotate_mod, ← hrotate]
    rfl
  · have hnodup := (List.nodup_reverse.mpr h.holds.nodup).filter
      fun x => decide ((s.data x).priority = (s.data r).priority)
    refine List.nodup_cons.mpr ⟨fun hr => h.outside ?_, hnodup⟩
    exact List.mem_reverse.mp (List.mem_of_mem_filter hr)
  · rw [hpriority, h.mem_equals habove hx]
  · have hlow : (lowers s (s.data r).priority).filter
        (fun x => decide ((s'.data x).priority < (s.data r).priority)) =
          lowers s (s.data r).priority := by
      rw [List.filter_eq_self]
      intro x hx
      rw [hpriority]
      exact decide_eq_true (hl.lower x hx)
    have hnone : qs'.reverse.filter
        (fun x => decide ((s'.data x).priority < (s.data r).priority)) = [] := by
      rw [List.filter_eq_nil_iff]
      intro x hx
      have heq := hl'.equal x (List.mem_reverse.mp hx)
      rw [hpriority r', hr'] at heq
      simp [heq]
    unfold lowers at hlow ⊢
    rw [hl'.ready, List.filter_append]
    unfold lowers
    rw [hlow, hnone, List.append_nil]

/-- In the runs that keep the process table every state in user mode is such a state as soon
as no death is pending and the table has room. -/
theorem Running.schedulable (h : Running ok s) (htame : Tame ok) (hnil : s.control = [])
    (hsize : s.currentSize < processTableMaxSize) (hzombify : s.pidsToZombify.count = 0)
    (hdestroy : s.pidsToDestroy.count = 0) : ∃ r, Schedulable s r := by
  obtain ⟨r, hsafe, -, -⟩ := h.tame (I := fun _ _ => True) htame trivial
    fun _ _ _ _ _ _ _ _ _ => trivial
  have hcore := hsafe.inv.core
  have hstate : s.view.state r = .running := (hsafe.inv.settled hnil).running
  have hready := hcore.ready
  have hwaiting : ∀ x ∈ s.ready, s.view.state x = .waiting := fun x hx =>
    (hready.mem_iff x).mp hx
  have houtside : r ∉ s.ready := by
    intro hr
    have hr' := hwaiting r hr
    rw [hstate] at hr'
    cases hr'
  refine ⟨r, hcore.running, hstate, hready.holds, houtside, hready.sorted, ?_, ?_, hsize,
    hzombify, hdestroy⟩
  · intro x hx
    apply hcore.pid_eq
    rcases List.mem_cons.mp hx with rfl | hx
    · exact hcore.self
    · rw [hwaiting x hx]
      decide
  · exact length_lt_of_isPid hready.holds.nodup (fun x hx => hready.isPid x (hwaiting x hx))
      (hcore.isPid hcore.self) houtside

/-- Processes 2, 3 and 4 have the same priority; 2 runs, and after five calls 4 does. -/
theorem round_robin_run : ∃ s s', Schedulable s 2 ∧ equals s 2 = [2, 3, 4] ∧
    timerSchedules (List.replicate 5 .available) s = .ok s' ∧ s'.runningProcess = some 4 ∧
      TakesTurns s 2 5 s' := by
  have hrun : ∃ s, Running (fun _ step => step.event.calm = true) s ∧
      decide ((s.control = [] ∧ s.runningProcess = some 2 ∧ equals s 2 = [2, 3, 4]) ∧
        (s.currentSize < processTableMaxSize ∧ s.pidsToZombify.count = 0 ∧
          s.pidsToDestroy.count = 0) ∧
        ∀ x ∈ s.ready, (s.data x).priority ≤ (s.data 2).priority) = true :=
    Running.computed ([Event.init 4096 128, .call (.start 0x1000000 4096 128 ⟨0x1000000, 0⟩),
      .call (.start 0x1000000 4096 128 ⟨0x1000000, 0⟩)].map Event.step) [] (by decide +kernel)
  obtain ⟨s, hrun, htest⟩ := hrun
  obtain ⟨⟨hnil, hrunning, hequals⟩, ⟨hsize, hzombify, hdestroy⟩, habove⟩ :=
    of_decide_eq_true htest
  obtain ⟨r, h⟩ := hrun.schedulable (.inl fun _ _ hcalm => hcalm) hnil hsize hzombify hdestroy
  have hr : r = 2 := Option.some.inj (h.running.symm.trans hrunning)
  subst hr
  obtain ⟨s', hruns, hturns⟩ := round_robin h habove (List.replicate 5 .available)
  refine ⟨s, s', h, hequals, hruns, ?_, hturns⟩
  rw [hturns.running, hequals]
  rfl

end SchlagOS
