import SchlagOS.Invariant.Calm

/-!
# Sleeping processes

`wait_clock` appends the running process to `pids_waiting` and `clock_tick` takes
out the one that it wakes, but `kill` of a sleeping process drops the last entry,
whichever it is.  The array lists the sleeping processes as long as only the last
of them is killed.
-/

namespace SchlagOS

open Foundation

variable {ok : Kernel → Step → Prop} {s s' : Kernel} {step : Step} {r p x : Int}

/-! ## Runs without typing -/

def Event.untyped : Event → Bool
  | .key _ => false
  | _ => true

theorem silent_untyped (s : Kernel) {event : Event} (huntyped : event.untyped = true) :
    silent.event s event := by
  cases event with
  | call call => exact silent_call s call
  | key str => cases huntyped
  | init _ _ => trivial
  | tick => trivial
  | kernel => trivial

/-- Nobody is inside `keyboard_data`. -/
theorem Within.not_typing (h : Within silent s) {c : Int} {rest : List Int}
    {frames : List Frame} : s.control ≠ .keyboardData (c :: rest) :: frames := by
  intro hcontrol
  exact h.control (.keyboardData (c :: rest)) (by simp [hcontrol])

/-! ## kill of a sleeping process -/

/-- The process that the event kills. -/
def Event.victim : Event → Option Int
  | .call (.kill p) => some p
  | _ => none

/-- A sleeping process that is killed is the last entry of `pids_waiting`. -/
def KillsLast (s : Kernel) (event : Event) : Prop :=
  ∀ p ∈ event.victim, (s.data p).state = .sleeping →
    s.pidsWaiting.cells (s.pidsWaiting.count - 1) = p

instance (s : Kernel) (event : Event) : Decidable (KillsLast s event) :=
  inferInstanceAs (Decidable (∀ p ∈ event.victim, (s.data p).state = .sleeping →
    s.pidsWaiting.cells (s.pidsWaiting.count - 1) = p))

/-- The first `nb_waiting` entries of `pids_waiting` are the sleeping processes, each once. -/
structure ListsSleepers (s : Kernel) : Prop where
  distinct : s.pidsWaiting.entries.Nodup
  exact : ∀ p, p ∈ s.pidsWaiting.entries ↔ (s.data p).state = .sleeping

theorem Safe.lists (h : Safe s r) : ListsSleepers s :=
  ⟨h.inv.core.sleepers.1, h.inv.core.sleepers.2⟩

theorem ListsSleepers.count_pos (h : ListsSleepers s) (hp : (s.data p).state = .sleeping) :
    0 < s.pidsWaiting.count := by
  rw [← s.pidsWaiting.length_entries]
  exact List.length_pos_of_mem ((h.exact p).mpr hp)

/-- What `kill` does to a sleeping process. -/
structure Dropped (s s' : Kernel) (p : Int) : Prop where
  entries : s'.pidsWaiting.entries = s.pidsWaiting.entries.dropLast
  killed : (s'.data p).state = .zombie
  others : ∀ x, x ≠ p → (s'.data x).state = (s.data x).state

/-- The end of `request_zombify`. -/
private theorem die_dropped {t : Kernel} (hdata : t.data = s.data)
    (hwaiting : t.pidsWaiting = s.pidsWaiting) :
    Yields (do
        let t ← messageQueuesNotifyProcessusKilled t p
        return t.update p fun q => { q with state := .zombie })
      fun s' => s'.pidsWaiting = s.pidsWaiting ∧ (s'.data p).state = .zombie ∧
        ∀ x, x ≠ p → (s'.data x).state = (s.data x).state := by
  have hnotify : Yields (messageQueuesNotifyProcessusKilled t p) fun t' =>
      t'.data = t.data ∧ t'.pidsWaiting = t.pidsWaiting := by
    unfold messageQueuesNotifyProcessusKilled
    exact .skip _ fun _ => ⟨rfl, rfl⟩
  refine hnotify.bind fun t' ht' => ⟨ht'.2.trans hwaiting, ?_, fun x hx => ?_⟩
  · rw [Kernel.data_update, if_pos rfl]
  · rw [Kernel.data_update, if_neg hx, ht'.1, hdata]

private theorem requestZombify_dropped : Yields (requestZombify s p)
    fun s' => s'.pidsWaiting = s.pidsWaiting ∧ (s'.data p).state = .zombie ∧
      ∀ x, x ≠ p → (s'.data x).state = (s.data x).state := by
  have hqueue : ∀ t : Kernel, Yields (queueDel t p) fun t' =>
      t'.data = t.data ∧ t'.pidsWaiting = t.pidsWaiting := by
    intro t
    unfold queueDel
    exact .skip _ fun _ => ⟨rfl, rfl⟩
  unfold requestZombify
  refine .skip _ fun process => .skip _ fun _ => .skip _ fun pending => ?_
  refine .ite (fun _ => (hqueue _).bind fun t ht => ?_) fun _ => ?_
  · exact die_dropped ht.1 ht.2
  · exact die_dropped rfl rfl

/-- A `kill` of a sleeping process shortens `pids_waiting` by its last entry. -/
theorem kill_drops (hstate : (s.data p).state = .sleeping)
    (hpid : (s.data p).pid ≠ processNotFoundCode) (hrange : IsPid p) :
    Yields (kill s p) fun s' => Dropped s s' p := by
  have hzombie : (s.data p).state ≠ .zombie := by
    rw [hstate]
    decide
  unfold kill
  rw [if_neg (by unfold IsPid at hrange; omega), getProcess_eq hrange, ok_bind,
    if_neg (by simp [hpid, hzombie]), if_pos hstate]
  refine .skip _ fun _ => requestZombify_dropped.bind fun s' hdropped => ?_
  obtain ⟨hwaiting, hkilled, hothers⟩ := hdropped
  refine ⟨?_, hkilled, fun x hx => ?_⟩
  · change s'.pidsWaiting.entries = _
    rw [hwaiting]
    exact s.pidsWaiting.entries_shrink processNotFoundCode
  · refine (hothers x hx).trans ?_
    unfold Kernel.update
    dsimp only
    rw [Function.update_of_ne hx]

/-- The array goes on listing the sleeping processes exactly if the last one was killed. -/
theorem Dropped.lists_iff (h : Dropped s s' p) (hlists : ListsSleepers s)
    (hstate : (s.data p).state = .sleeping) :
    ListsSleepers s' ↔ s.pidsWaiting.cells (s.pidsWaiting.count - 1) = p := by
  have hpos := hlists.count_pos hstate
  have hconcat := s.pidsWaiting.entries_eq_concat (by omega) processNotFoundCode
  rw [ArrayStack.entries_shrink, ← h.entries] at hconcat
  set last := s.pidsWaiting.cells (s.pidsWaiting.count - 1) with hlast
  have hdistinct := hlists.distinct
  rw [hconcat, List.nodup_append] at hdistinct
  have hmem : ∀ x, x ∈ s'.pidsWaiting.entries ↔ x ≠ last ∧ (s.data x).state = .sleeping := by
    intro x
    rw [← hlists.exact, hconcat, List.mem_append, List.mem_singleton]
    constructor
    · exact fun hx => ⟨hdistinct.2.2 x hx last (List.mem_singleton_self last), .inl hx⟩
    · rintro ⟨hne, hx | hx⟩
      · exact hx
      · exact absurd hx hne
  constructor
  · intro hlists'
    by_contra hne
    have hp : p ∈ s'.pidsWaiting.entries := (hmem p).mpr ⟨Ne.symm hne, hstate⟩
    have hsleeping := (hlists'.exact p).mp hp
    rw [h.killed] at hsleeping
    cases hsleeping
  · intro heq
    refine ⟨hdistinct.1, fun x => ?_⟩
    rw [hmem, heq]
    by_cases hx : x = p
    · subst hx
      simp [h.killed]
    · rw [h.others x hx]
      simp [hx]

/-! ## Runs -/

theorem Running.untyped (h : Running ok s)
    (hok : ∀ s step, ok s step → step.event.untyped = true) :
    Running (fun s step => ok s step ∧ Within silent s) s ∧ Within silent s := by
  obtain ⟨start, hboot, hreach⟩ := h
  rw [kernelStart_eq, Except.ok.injEq] at hboot
  subst hboot
  have hkept : ∀ s step, Within silent s → ok s step → ok s step ∧ Within silent s :=
    fun s step hs hstep => ⟨hstep, hs⟩
  obtain ⟨hreach', hwithin⟩ := hreach.strengthen (booted_within silent) hkept
    fun s step s' hs _ hstep hrun =>
      (exec_keeps hs (silent_untyped s (hok s step hstep))).of_ok hrun
  exact ⟨⟨booted, kernelStart_eq, hreach'⟩, hwithin⟩

/-- Nothing is typed, and a sleeping process is killed as the last of them only. -/
def Step.sparing (s : Kernel) (step : Step) : Prop :=
  step.event.untyped = true ∧ KillsLast s step.event

instance (s : Kernel) (step : Step) : Decidable (step.sparing s) :=
  inferInstanceAs (Decidable (step.event.untyped = true ∧ KillsLast s step.event))

theorem Step.sparing.careful (h : step.sparing s) (hwithin : Within silent s) :
    Careful s step where
  kill p hevent hstate := h.2 p (by rw [hevent]; rfl) hstate
  key c rest frames hcontrol _ := absurd hcontrol hwithin.not_typing

theorem Running.sparing (h : Running (fun s step => step.sparing s) s) :
    ∃ r, Safe s r ∧ Within silent s := by
  obtain ⟨hrun, hwithin⟩ := h.untyped fun s step hs => hs.1
  obtain ⟨r, hsafe⟩ := hrun.safe fun s step hs => hs.1.careful hs.2
  exact ⟨r, hsafe, hwithin⟩

/-- The process that `clock_tick` puts into the ready queue was asleep. -/
theorem Safe.wakes_sleepers {mem : Memory} {frames : List Frame} (h : Safe s r)
    (hcontrol : s.control = .clockTick :: frames) (hrun : kernelStep mem s = .ok s')
    (hp : p ∈ s'.ready) : p ∈ s.ready ∨ (s.data p).state = .sleeping := by
  have hcore := h.inv.core
  have hr : s.view.state r ≠ .sleeping := by
    rw [h.inv.running (.inl (by rw [hcontrol]; rfl))]
    decide
  have hpop : ∃ t : Kernel, t.view.state = s.view.state ∧ Core t.view r (fun _ => False) ∧
      clockTick t = .ok s' := by
    unfold kernelStep at hrun
    rw [hcontrol] at hrun
    exact ⟨{ s with control := frames }, rfl, (h.inv.pop hcontrol rfl).core, hrun⟩
  obtain ⟨t, hstate, htcore, hrun⟩ := hpop
  unfold clockTick at hrun
  rw [bind_eq_ok] at hrun
  obtain ⟨⟨awaken, t'⟩, hloop, hend⟩ := hrun
  obtain ⟨hwoke, -⟩ := (clockTickFrom_meets _ _ _ htcore (by rwa [hstate])).of_ok hloop
  have hready : s'.ready = t'.ready := by
    dsimp only at hend
    split at hend
    · cases hend
      rfl
    · cases hend
      rfl
  rw [hready] at hp
  have hwaiting : t'.view.state p = .waiting := (hwoke.core.ready.mem_iff p).mp hp
  rcases hwoke.state p with hsame | ⟨hsleeping, -⟩
  · left
    apply (hcore.ready.mem_iff p).mpr
    rw [← hstate, ← hsame]
    exact hwaiting
  · right
    rw [hstate] at hsleeping
    exact hsleeping

theorem sleepers_listed (h : Running (fun s step => step.sparing s) s) :
    ListsSleepers s ∧
      (∀ p, (s.data p).state = .sleeping → 0 < s.pidsWaiting.count) ∧
      (∀ p s', (s.data p).state = .sleeping → KillsLast s (.call (.kill p)) →
        kill s p = .ok s' → s.pidsWaiting.entries = s'.pidsWaiting.entries ++ [p]) ∧
      ∀ mem frames s', s.control = .clockTick :: frames → kernelStep mem s = .ok s' →
        ∀ p ∈ s'.ready, p ∈ s.ready ∨ (s.data p).state = .sleeping := by
  obtain ⟨r, hsafe, -⟩ := h.sparing
  have hlists := hsafe.lists
  refine ⟨hlists, fun p hp => hlists.count_pos hp, ?_,
    fun mem frames s' hcontrol hrun p hp => hsafe.wakes_sleepers hcontrol hrun hp⟩
  intro p s' hp hlast hrun
  have hused : s.view.state p ≠ .unset := by
    have hp' : s.view.state p = .sleeping := hp
    rw [hp']
    decide
  have hpid : IsPid p := hsafe.inv.core.isPid hused
  have hself : (s.data p).pid = p := hsafe.inv.core.pid_eq hused
  have hfound : (s.data p).pid ≠ processNotFoundCode := by
    rw [hself]
    unfold IsPid processNotFoundCode at *
    omega
  have hdropped := (kill_drops hp hfound hpid).of_ok hrun
  have hpos := hlists.count_pos hp
  rw [hdropped.entries, s.pidsWaiting.entries_eq_concat (by omega) processNotFoundCode,
    hlast p rfl hp, List.dropLast_concat]

/-- Processes 3 and 4 sleep, and process 4, the last of them, is killed. -/
theorem sleepers_listed_run : ∃ s, (s.data 3).state = .sleeping ∧ (s.data 4).state = .zombie ∧
    ListsSleepers s := by
  have hrun : ∃ s, Running (fun s step => step.sparing s) s ∧
      decide ((s.data 3).state = .sleeping ∧ (s.data 4).state = .zombie) = true :=
    Running.computed ([Event.init 4096 128, .call (.start 0x1000000 4096 129 ⟨0x1000000, 0⟩),
      .call (.waitClock 100), .call (.start 0x1000000 4096 130 ⟨0x1000000, 0⟩),
      .call (.waitClock 100)].map Event.step) ([Event.call (.kill 4)].map Event.step)
      (by decide +kernel)
  obtain ⟨s, hrun, htest⟩ := hrun
  obtain ⟨hthree, hfour⟩ := of_decide_eq_true htest
  exact ⟨s, hthree, hfour, (sleepers_listed hrun).1⟩

/-- The calls that work on the process table, and the steps that are no calls. -/
def Event.ofTable : Event → Bool
  | .call (.start _ _ _ _) => true
  | .call (.exit _) => true
  | .call (.kill _) => true
  | .call (.waitpid _ _) => true
  | .call (.waitClock _) => true
  | .init _ _ => true
  | .tick => true
  | .kernel => true
  | _ => false

/-- Processes 3 and 4 sleep, process 3 is killed, and the entry of process 4 is dropped. -/
theorem sleepers_not_listed :
    ¬∀ s, Running (fun _ step => step.event.ofTable = true) s → ListsSleepers s := by
  intro hall
  have hrun : ∃ s, Running (fun _ step => step.event.ofTable = true) s ∧
      decide (3 ∈ s.pidsWaiting.entries ∧ (s.data 3).state = .zombie) = true :=
    Running.computed ([Event.init 4096 128, .call (.start 0x1000000 4096 129 ⟨0x1000000, 0⟩),
      .call (.waitClock 100), .call (.start 0x1000000 4096 130 ⟨0x1000000, 0⟩),
      .call (.waitClock 100)].map Event.step) ([Event.call (.kill 3)].map Event.step)
      (by decide +kernel)
  obtain ⟨s, hrun, htest⟩ := hrun
  obtain ⟨hmem, hzombie⟩ := of_decide_eq_true htest
  have hsleeping := ((hall s hrun).exact 3).mp hmem
  rw [hzombie] at hsleeping
  cases hsleeping

end SchlagOS
