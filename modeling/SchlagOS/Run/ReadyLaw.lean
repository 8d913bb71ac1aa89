import SchlagOS.Run.FailedStart

/-!
# The running process and the ready ones

Between the steps of an orderly run one process is RUNNING, and the ready
queue links the processes that are WAITING, sorted by their priorities.
-/

namespace SchlagOS

open Foundation

variable {s : Kernel} {step : Step} {r p : Int}

/-- The states of the processes, against `running_process` and the links of `process_queue`. -/
structure ReadyLaw (s : Kernel) : Prop where
  running : s.control = [] → ∃ r, s.runningProcess = some r ∧
    (∀ p, (s.data p).state = .running ↔ p = r) ∧
    s.processQueue.next (.elem r) = .null ∧ s.processQueue.prev (.elem r) = .null
  linked : s.processQueue.Holds s.ready
  waiting : ∀ p, p ∈ s.ready ↔ (s.data p).state = .waiting
  sorted : s.ready.Pairwise fun a b => (s.data a).priority ≤ (s.data b).priority
  top : ∀ p, queueTop s = some p → (s.data p).state = .waiting ∧
    ∀ x, (s.data x).state = .waiting → (s.data x).priority ≤ (s.data p).priority
  out : (queueOut s).1 = queueTop s
  asserts : ∀ step, step.enabled s → step.orderly = true →
    exec step s ≠ .error .queueAdd ∧ exec step s ≠ .error .queueDel

/-- No process is taken out of the ready queue that is not in it. -/
theorem not_notLinked (hawake : ∀ p, s.view.state p ≠ .sleeping) (hblank : Blank s.view) :
    ¬NotLinked s step := by
  rintro ⟨p, -, hsleeping | ⟨hunset, hpid⟩⟩
  · exact hawake p hsleeping
  · exact hpid (hblank p hunset)

theorem Fails.ne_queueAdd {e : Panic} (h : Fails step s r e) : e ≠ .queueAdd := by
  rintro rfl
  rcases h with (h | ⟨h, -⟩) | h | ⟨h, -⟩ | h
  · exact h
  · cases h
  · exact h
  · cases h
  · cases h

theorem Fails.ne_queueDel {e : Panic} (h : Fails step s r e) (hlinked : ¬NotLinked s step) :
    e ≠ .queueDel := by
  rintro rfl
  rcases h with (h | ⟨h, -⟩) | h | ⟨h, -⟩ | h
  · exact h
  · cases h
  · exact hlinked h
  · cases h
  · cases h

theorem ready_law (h : Running (fun _ step => step.orderly = true) s) : ReadyLaw s := by
  have hcalm : ∀ (s : Kernel) (step : Step), step.orderly = true → step.event.calm = true :=
    fun s step hs => (Step.orderly_iff.mp hs).1
  have hfed : ∀ (s : Kernel) (step : Step), step.orderly = true → ¬Starved s step := by
    rintro s step hs ⟨-, hmem⟩
    obtain ⟨-, hkernel, huser, -⟩ := Step.orderly_iff.mp hs
    simp [hkernel, huser] at hmem
  have hblank := h.blank (.inl hcalm) hfed
  have hawake := (h.calm hcalm).2.awake
  obtain ⟨r, hsafe, -, -⟩ := h.orderly (I := fun _ _ => True) (fun _ _ hs => hs) trivial
    fun _ _ _ _ _ _ _ _ _ _ => trivial
  have hcore := hsafe.inv.core
  have hready := hcore.ready
  refine ⟨fun hnil => ⟨r, hcore.running, fun p => ⟨hcore.alone p, ?_⟩, ?_⟩, hready.holds,
    hready.mem_iff, hready.sorted, fun p htop => hready.of_top htop, hready.out_eq_top, ?_⟩
  · rintro rfl
    exact (hsafe.inv.settled hnil).running
  · refine hready.holds.unlinked r fun hmem => hcore.awake ?_
    exact (hready.mem_iff r).mp hmem
  · intro step henabled hs
    obtain ⟨r', -, -, hmeets⟩ := h.orderly_meets (fun _ _ hs => hs) henabled
    constructor
    · exact fun hrun => (hmeets.of_error hrun).ne_queueAdd rfl
    · exact fun hrun => (hmeets.of_error hrun).ne_queueDel (not_notLinked hawake hblank) rfl

/-- Process 2 starts 3 and 4 and raises the priority of 4, which runs then. -/
theorem ready_law_run : ∃ s, s.ready = [1, 3, 2] ∧ s.runningProcess = some 4 ∧ ReadyLaw s := by
  have hrun : ∃ s, Running (fun _ step => step.orderly = true) s ∧
      decide (s.ready = [1, 3, 2] ∧ s.runningProcess = some 4) = true :=
    Running.computed ([Event.init 4096 128, .call (.start 0x1000000 4096 100 ⟨0x1000000, 0⟩),
      .call (.start 0x1000000 4096 90 ⟨0x1000000, 0⟩), .call (.chprio 4 150)].map Event.step) []
      (by decide +kernel)
  obtain ⟨s, hrun, htest⟩ := hrun
  obtain ⟨hready, hrunning⟩ := of_decide_eq_true htest
  exact ⟨s, hready, hrunning, ready_law hrun⟩

end SchlagOS
