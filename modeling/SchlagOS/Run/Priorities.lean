import SchlagOS.Invariant.Calm

/-!
# Changing a priority

`chprio` takes a process that is neither blocked nor the caller out of the ready
queue and puts it back.  A sleeping process, or the slot that a failed `start`
has left behind, passes for such a process but is not in the queue.
-/

namespace SchlagOS

open Foundation

variable {ok : Kernel → Step → Prop} {s s' s₁ : Kernel} {mem : Memory}
  {r pid newprio oldprio value : Int}

/-- A system call has returned a value, or it returns it once the `schedule` that it has
called is over. -/
def Returns (s s' : Kernel) (value : Int) : Prop :=
  s'.eax = value ∧ s'.control = s.control ∨
    s'.control = .schedule .zombify :: .ret value :: s.control

/-- One priority has changed, and the ready queue holds the same processes in order. -/
structure Reordered (s s' : Kernel) (pid newprio : Int) : Prop where
  data : s'.data = (s.update pid fun p => { p with priority := newprio }).data
  same : s'.ready.Perm s.ready
  sorted : s'.ready.Pairwise fun a b => (s'.data a).priority ≤ (s'.data b).priority

/-- What a call of `chprio` should do. -/
def ChangesPriority (mem : Memory) (s : Kernel) (pid newprio : Int) : Prop :=
  ∃ s', exec ⟨mem, .call (.chprio pid newprio)⟩ s = .ok s' ∧
    (s' = s.ret (-1) ∨ Reordered s s' pid newprio ∧ Returns s s' (s.data pid).priority)

theorem Reprioritised.reordered (h : Reprioritised s s₁ pid newprio) (hsettled : Settled s r)
    (hdata : s₁.data = (s.update pid fun p => { p with priority := newprio }).data) :
    Reordered s s₁ pid newprio := by
  refine ⟨hdata, ?_, ?_⟩
  · have hready := hsettled.core.ready
    refine (List.perm_ext_iff_of_nodup h.ready.holds.nodup hready.holds.nodup).mpr fun x => ?_
    exact (h.ready.mem_iff x).trans (hready.mem_iff x).symm
  · have hpriority : s₁.view.priority = Function.update s.view.priority pid newprio := by
      rw [h.view]
    have hsorted := h.ready.sorted
    rw [← hpriority] at hsorted
    exact hsorted

theorem chprioEnd_returns (h : Reordered s s₁ pid newprio) (hcontrol : s₁.control = s.control)
    (htop : s₁.getpid = pid → queueTop s₁ ≠ none) :
    Meets (chprioEnd s₁ pid newprio oldprio)
      (fun s' => Reordered s s' pid newprio ∧ Returns s s' oldprio) fun _ => False := by
  have hschedule : Reordered s (s₁.callSchedule [.ret oldprio]) pid newprio ∧
      Returns s (s₁.callSchedule [.ret oldprio]) oldprio := by
    refine ⟨⟨h.data, h.same, h.sorted⟩, .inr ?_⟩
    rw [← hcontrol]
    rfl
  have hreturn : Reordered s (s₁.ret oldprio) pid newprio ∧ Returns s (s₁.ret oldprio) oldprio :=
    ⟨⟨h.data, h.same, h.sorted⟩, .inl ⟨rfl, hcontrol⟩⟩
  unfold chprioEnd
  rw [meets_ite]
  refine ⟨fun _ => hschedule, fun _ => ?_⟩
  rw [meets_ite]
  refine ⟨fun hself => ?_, fun _ => hreturn⟩
  rw [meets_bind, meets_demand]
  refine ⟨fun next _ => ?_, htop hself⟩
  rw [meets_ite]
  exact ⟨fun _ => hschedule, fun _ => hreturn⟩

/-- The condition on which a call that is not refused does what it should. -/
def Requeueable (mem : Memory) (s : Kernel) (pid : Int) : Prop :=
  (s.data pid).state ≠ .sleeping ∧
    ((s.data pid).state = .unset → (s.data pid).pid = processNotFoundCode) ∧
    ((s.data pid).state = .blockedByMessage → mem.processNode = true)

theorem changesPriority_iff (h : Running ok s) (htame : Tame ok)
    (henabled : (Step.mk mem (.call (.chprio pid newprio))).enabled s) :
    ChangesPriority mem s pid newprio ↔
      (chprioRefuses s pid newprio ∨ Requeueable mem s pid) := by
  obtain ⟨r, hsafe, -, -⟩ := h.tame (I := fun _ _ => True) htame trivial
    fun _ _ _ _ _ _ _ _ _ => trivial
  have hsettled := hsafe.inv.settled henabled.1
  have hone : r ≠ 1 := by
    have hgetpid := henabled.2
    rwa [hsettled.core.getpid_eq] at hgetpid
  have hinit : s.view.state 1 = .waiting := by
    have halive := h.init_alive htame (by rw [henabled.1]; decide)
    rcases hsettled.core.init with hstate | hstate | hstate
    · exact absurd (hsettled.core.alone 1 hstate) (Ne.symm hone)
    · exact hstate
    · exact absurd hstate halive
  unfold ChangesPriority
  by_cases hrefuses : chprioRefuses s pid newprio
  · refine iff_of_true ⟨s.ret (-1), chprio_refused hrefuses, .inl rfl⟩ (.inl hrefuses)
  · rw [or_iff_right hrefuses]
    have hmove := chprioMove_meets hsettled mem hrefuses
    have heq := chprio_eq mem hrefuses
    cases hrun : chprioMove mem s pid newprio with
    | error e =>
        rw [hrun] at hmove heq
        refine iff_of_false ?_ ?_
        · rintro ⟨s', hexec, -⟩
          have hchprio : chprio mem s pid newprio = .ok s' := hexec
          rw [heq] at hchprio
          cases hchprio
        · rintro ⟨hsleeping, hunset, hblocked⟩
          rcases hmove with ⟨-, hstate, hmem⟩ | ⟨-, hstate | ⟨hstate, hpid⟩⟩
          · rw [hblocked hstate] at hmem
            cases hmem
          · exact hsleeping hstate
          · exact hpid (hunset hstate)
    | ok s₁ =>
        rw [hrun] at hmove heq
        obtain ⟨⟨hre, hdata⟩, hlinked, hmem⟩ := hmove
        refine iff_of_true ?_ ⟨fun hstate => hlinked (.inl hstate), fun hstate => ?_, hmem⟩
        · have hcontrol : s₁.control = s.control := congrArg Rest.control hre.rest
          have htop : queueTop s₁ ≠ none := fun hnone =>
            (hre.ready.top_eq_none.mp hnone) 1 hinit
          have hend : Meets (chprioEnd s₁ pid newprio (s.data pid).priority) _ _ :=
            chprioEnd_returns (hre.reordered hsettled hdata) hcontrol fun _ => htop
          obtain ⟨s', hend, hs'⟩ := hend.exists_ok
          refine ⟨s', ?_, .inr hs'⟩
          have hchprio : chprio mem s pid newprio = .ok s' := heq.trans hend
          exact hchprio
        · by_contra hpid
          exact hlinked (.inr ⟨hstate, hpid⟩)

/-- The priority of a ready process is changed. -/
theorem changesPriority_run : ∃ s, ChangesPriority .available s 3 50 := by
  have hrun : ∃ s, Running (fun _ step => step.event.calm = true) s ∧
      decide ((Event.call (.chprio 3 50)).step.enabled s ∧ (s.data 3).state = .waiting) = true :=
    Running.computed ([Event.init 4096 128, .call (.start 0x1000000 4096 100 ⟨0x1000000, 0⟩)].map
      Event.step) [] (by decide +kernel)
  obtain ⟨s, hrun, htest⟩ := hrun
  obtain ⟨henabled, hstate⟩ := of_decide_eq_true htest
  refine ⟨s, (changesPriority_iff hrun (.inl fun _ _ hcalm => hcalm) henabled).mpr (.inr ?_)⟩
  unfold Requeueable
  rw [hstate]
  exact ⟨by decide, by simp, by simp⟩

/-- The assertion of `queue_del` fails when the process sleeps. -/
theorem not_changesPriority : ∃ s, Running (fun _ _ => True) s ∧
    exec (Event.call (.chprio 3 50)).step s = .error .queueDel ∧
      ¬ChangesPriority .available s 3 50 := by
  have hrun : ∃ s, Running (fun _ _ => True) s ∧
      errorAnd (fun e => decide (e = .queueDel)) (exec (Event.call (.chprio 3 50)).step s) = true :=
    Running.computed ([Event.init 4096 128, .call (.start 0x1000000 4096 129 ⟨0x1000000, 0⟩),
      .call (.waitClock 100)].map Event.step) [] (by decide +kernel)
  obtain ⟨s, hrun, htest⟩ := hrun
  obtain ⟨e, hexec, he⟩ := errorAnd_iff.mp htest
  rw [of_decide_eq_true he] at hexec
  refine ⟨s, hrun, hexec, ?_⟩
  rintro ⟨s', hexec', -⟩
  have hchprio : exec (Event.call (.chprio 3 50)).step s = .ok s' := hexec'
  rw [hexec] at hchprio
  cases hchprio

end SchlagOS
