import SchlagOS.Invariant.Calm

/-!
# Arguments of system calls

`getprio` relies on the assertion of `get_process`, `cons_read` on an assertion
of its own, and `kill` lets process 1 pass, which `zombify` does not accept.
Without these three, no argument leads to a panic, at once or later.
-/

namespace SchlagOS

open Foundation

variable {s : Kernel} {step : Step}

/-- The arguments that the kernel checks by an assertion only. -/
def Call.asserted : Call → Bool
  | .getprio pid => decide (¬IsPid pid)
  | .consRead str length => checkArg str && decide (length = 0)
  | .kill pid => decide (pid = 1)
  | _ => false

def Event.asserted : Event → Bool
  | .call c => c.asserted
  | _ => false

/-- The calls that are refused by a check of their arguments. -/
def Call.refused : Call → Bool
  | .kill pid => decide (¬IsPid pid)
  | .chprio pid newprio =>
      decide (¬IsPid pid) || decide (newprio < processMinPriority) ||
        decide (processMaxPriority < newprio)
  | .waitpid pid retvalp =>
      !checkArg retvalp || decide (pid = 0) || decide (processTableMaxSize < pid)
  | .consRead str _ => !checkArg str
  | _ => false

/-- A refused call returns -1 and changes nothing; the history notes a `waitpid`. -/
theorem refused_eq {call : Call} (hrefused : call.refused = true) (mem : Memory) (s : Kernel) :
    ∃ events, syscallHandler mem s call =
      .ok { s with eax := -1, history := s.history ++ events } := by
  have hsame : Except.ok (s.ret (-1)) =
      (.ok { s with eax := -1, history := s.history ++ [] } : Except Panic Kernel) := by
    rw [List.append_nil]
    rfl
  cases call
  case kill pid =>
    have hpid : ¬(0 < pid ∧ pid ≤ processTableMaxSize) := of_decide_eq_true hrefused
    refine ⟨[], Eq.trans (if_pos ?_) hsame⟩
    omega
  case chprio pid newprio =>
    simp only [Call.refused, Bool.or_eq_true, decide_eq_true_eq, IsPid] at hrefused
    refine ⟨[], Eq.trans ?_ hsame⟩
    change chprio mem s pid newprio = _
    unfold chprio
    by_cases hpid : pid < 1 ∨ (processTableMaxSize : Int) < pid
    · rw [if_pos hpid]
    · have hprio : newprio < processMinPriority ∨ processMaxPriority < newprio := by
        rcases hrefused with (hnot | hlow) | hhigh
        · exact absurd ⟨by omega, by omega⟩ (of_decide_eq_true hnot)
        · exact .inl hlow
        · exact .inr hhigh
      rw [if_neg hpid, if_pos hprio]
  case waitpid pid retvalp =>
    simp only [Call.refused, Bool.or_eq_true, Bool.not_eq_true', decide_eq_true_eq]
      at hrefused
    by_cases harg : checkArg retvalp = false
    · exact ⟨[], Eq.trans (if_pos harg) hsame⟩
    · refine ⟨[.noChild s.getpid pid], Eq.trans (if_neg harg) ?_⟩
      have hrange : pid = 0 ∨ (processTableMaxSize : Int) < pid := by
        rcases hrefused with (hfalse | hzero) | hlarge
        · exact absurd hfalse harg
        · exact .inl hzero
        · exact .inr hlarge
      unfold waitpid
      dsimp only
      rw [if_neg (by omega), if_pos (by omega)]
      rfl
  case consRead str length =>
    have harg : checkArg str = false := by simpa [Call.refused] using hrefused
    exact ⟨[], Eq.trans (if_pos harg) hsame⟩
  all_goals cases hrefused

/-- A step that is careful, and whose arguments no assertion is about. -/
def Proper (s : Kernel) (step : Step) : Prop :=
  Careful s step ∧ step.event.asserted = false

/-- Arguments cause no panic, and a call with bad ones is an error without an effect. -/
theorem arguments_checked (h : Running Proper s) :
    (∀ step e, step.enabled s → Proper s step → exec step s = .error e →
      e ≠ .getProcess ∧ e ≠ .consReadLength ∧ e ≠ .zombifyInit ∧ e ≠ .destroyInit) ∧
    ∀ mem call, call.refused = true → ∃ events, syscallHandler mem s call =
      .ok { s with eax := -1, history := s.history ++ events } := by
  have hspares : ∀ s step, Proper s step → step.event ≠ .call (.kill 1) := by
    rintro s step ⟨-, hproper⟩ hevent
    rw [hevent] at hproper
    cases hproper
  obtain ⟨r, hsafe, halive⟩ := h.induct (I := fun s _ => s.view.state 1 ≠ .zombie)
    (fun s step hs => hs.1) booted_init_alive
    fun s step s' r r' _ halive hs hmoved => hmoved.init_alive (hspares s step hs) halive
  refine ⟨fun step e henabled hs hrun => ?_, fun mem call hrefused =>
    refused_eq hrefused mem s⟩
  have hfails := (exec_meets hsafe henabled hs.1).of_error hrun
  rcases hfails with (hexcused | ⟨-, hzombie⟩) | hexcused | ⟨-, p, hevent, hpid⟩ | hconsole
  · cases e <;> simp_all [Excused]
  · exact absurd hzombie halive
  · cases e <;> simp_all [Excused]
  · have hasserted := hs.2
    rw [hevent] at hasserted
    exact absurd hpid (by simpa [Event.asserted, Call.asserted] using hasserted)
  · cases hconsole
    case length str hevent hstr =>
      have hasserted := hs.2
      rw [hevent] at hasserted
      simp [Event.asserted, Call.asserted, hstr] at hasserted
    all_goals decide

private theorem badCalls_run : ∃ s, Running Proper s ∧ decide (s.eax = -1) = true := by
  have hrun : ∃ s, Running (fun _ step => step.event.asserted = false ∧
      step.event.calm = true) s ∧ decide (s.eax = -1) = true :=
    Running.computed ([Event.init 4096 128, .call (.kill 7), .call (.kill 513),
      .call (.waitpid 0 0x1000000)].map Event.step) [] (by decide +kernel)
  obtain ⟨s, hrun, htest⟩ := hrun
  exact ⟨s, (hrun.calm fun _ _ hs => hs.2).1.mono fun _ _ hs => ⟨hs.2, hs.1.1⟩, htest⟩

theorem arguments_checked_run : ∃ s : Kernel, s.eax = -1 ∧
    (∀ step e, step.enabled s → Proper s step → exec step s = .error e →
      e ≠ .getProcess ∧ e ≠ .consReadLength ∧ e ≠ .zombifyInit ∧ e ≠ .destroyInit) ∧
    ∀ mem call, call.refused = true → ∃ events, syscallHandler mem s call =
      .ok { s with eax := -1, history := s.history ++ events } := by
  obtain ⟨s, hrun, htest⟩ := badCalls_run
  exact ⟨s, of_decide_eq_true htest, arguments_checked hrun⟩

/-- `getprio` of process 0 makes the kernel panic. -/
theorem arguments_panic : ¬∀ s step e, Running (fun _ _ => True) s → step.enabled s →
    exec step s = .error e →
    e ≠ .getProcess ∧ e ≠ .consReadLength ∧ e ≠ .zombifyInit ∧ e ≠ .destroyInit := by
  intro hall
  have hrun : ∃ s, Running (fun _ _ => True) s ∧
      decide ((Event.call (.getprio 0)).step.enabled s) = true :=
    Running.computed [(Event.init 4096 128).step] [] (by decide +kernel)
  obtain ⟨s, hrun, htest⟩ := hrun
  exact (hall s (Event.call (.getprio 0)).step .getProcess hrun (of_decide_eq_true htest)
    rfl).1 rfl

end SchlagOS
