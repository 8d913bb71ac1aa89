import SchlagOS.Invariant.Boot
import SchlagOS.Invariant.Depth

/-!
# How deep the kernel stacks get

Each process has a kernel stack of 2048 bytes, and `schedule` calls itself once
for every dead process that `clean_processes` finds.  However many processes
die, in whatever order, no stack holds more than three calls of `schedule`.
-/

namespace SchlagOS

open Foundation

variable {ok : Kernel → Step → Prop} {s : Kernel}

theorem booted_shallow : booted.Shallow := by
  have hkept : Kept 0 [] booted := by
    refine ⟨rfl, rfl, fun p => ⟨0, by omega, ?_⟩⟩
    unfold booted
    dsimp only
    rw [Function.update_apply]
    split
    · exact .entry rfl
    · exact .user
  exact hkept.back .user (by omega)

theorem Running.shallow (h : Running ok s) : s.Shallow := by
  obtain ⟨start, hboot, hreach⟩ := h
  rw [kernelStart_eq, Except.ok.injEq] at hboot
  subst hboot
  refine hreach.invariant booted_shallow ?_
  intro s step s' _ hshallow henabled _ hrun
  exact (exec_shallow hshallow henabled).of_ok hrun

theorem kernel_stack_bounded (h : Running ok s) (p : Int) :
    (s.stack p).length ≤ 4 ∧ (s.stack p).countP Frame.isSchedule ≤ 3 ∧
      (s.runningProcess ≠ some p →
        (s.stack p).length ≤ 3 ∧ (s.stack p).countP Frame.isSchedule ≤ 2) := by
  have hshallow := h.shallow
  obtain ⟨d, hdepth, hd⟩ := hshallow.running
  obtain ⟨e, he, hswitched⟩ := hshallow.switched p
  have hlength := hdepth.length_le
  have hschedules := hdepth.schedules_le
  have hlength' := hswitched.length_le
  have hschedules' := hswitched.schedules_le
  unfold Kernel.stack
  split_ifs with hp
  · exact ⟨by omega, by omega, fun hne => absurd hp hne⟩
  · exact ⟨by omega, by omega, fun _ => ⟨by omega, by omega⟩⟩

/-- Process 2 exits in front of 3, which then terminates 4: both deaths are pending when 3 calls
`schedule`. -/
theorem kernel_stack_bounded_run : ∃ s, Running (fun _ _ => True) s ∧
    (s.stack 3).length = 4 ∧ (s.stack 3).countP Frame.isSchedule = 3 ∧
      ∀ p, (s.stack p).length ≤ 4 ∧ (s.stack p).countP Frame.isSchedule ≤ 3 := by
  have hrun : ∃ s, Running (fun _ _ => True) s ∧ decide (s.runningProcess = some 3 ∧
      s.control = [.schedule .zombify, .schedule .zombify, .schedule .zombify, .ret 0]) = true :=
    Running.computed ([Event.init 4096 128, .call (.start 0x1000000 4096 200 ⟨0x1000000, 0⟩),
      .call (.start 0x1000000 4096 90 ⟨0x1000000, 0⟩), .call (.chprio 3 100),
      .call (.exit 0)].map Event.step)
      ([Event.call (.kill 4), .kernel, .kernel].map Event.step) (by decide +kernel)
  obtain ⟨s, hrun, htest⟩ := hrun
  obtain ⟨hrunning, hcontrol⟩ := of_decide_eq_true htest
  have hstack : s.stack 3 = s.control := if_pos hrunning
  refine ⟨s, hrun, ?_, ?_, fun p => ?_⟩
  · rw [hstack, hcontrol]
    rfl
  · rw [hstack, hcontrol]
    rfl
  · obtain ⟨hlength, hschedules, -⟩ := kernel_stack_bounded hrun p
    exact ⟨hlength, hschedules⟩

end SchlagOS
