import SchlagOS.Run.Wakeups
import SchlagOS.Invariant.Rules

/-!
# A start that fails

`start` refuses bad arguments and a full table before it touches anything.  When
one of the stacks cannot be allocated it gives the pid back but leaves it in the
slot, which from then on passes for a process.
-/

namespace SchlagOS

open Foundation

variable {ok : Kernel → Step → Prop} {s s' : Kernel} {step : Step} {mem : Memory}
  {r r' p father priority : Int} {stackSize : Nat} {v v' : View} {log log' : Log}

/-- A call of `start`. -/
def Event.isStart : Event → Bool
  | .init _ _ => true
  | .call (.start _ _ _ _) => true
  | _ => false

/-- A start that is not refused but finds no memory for one of the stacks. -/
def Starved (s : Kernel) (step : Step) : Prop :=
  step.event.starts s.currentSize ∧
    (step.mem.kernelStack = false ∨ step.mem.userStack = false)

/-- What a system call hands back at once: its value and the frames that it leaves. -/
def answer (mem : Memory) (call : Call) (s : Kernel) : Except Panic (Int × List Frame) :=
  (exec ⟨mem, .call call⟩ s).map fun s' => (s'.eax, s'.control)

/-- The kernel behaves as if only -1 had been handed back. -/
structure AsBefore (s s' : Kernel) : Prop where
  size : s'.currentSize = s.currentSize
  free : s'.freePids.Perm s.freePids
  unused : ∀ p ∈ s'.freePids, (s'.data p).pid = processNotFoundCode
  blocks : s'.kernelBlocks.live.Perm s.kernelBlocks.live
  kill : ∀ mem pid, answer mem (.kill pid) s' = answer mem (.kill pid) (s.ret (-1))
  waitpid : ∀ mem pid retvalp,
    answer mem (.waitpid pid retvalp) s' = answer mem (.waitpid pid retvalp) (s.ret (-1))
  chprio : ∀ mem pid newprio,
    answer mem (.chprio pid newprio) s' = answer mem (.chprio pid newprio) (s.ret (-1))

theorem asBefore_ret (hunused : ∀ p ∈ s.freePids, (s.data p).pid = processNotFoundCode) :
    AsBefore s (s.ret (-1)) where
  size := rfl
  free := .refl _
  unused := hunused
  blocks := .refl _
  kill _ _ := rfl
  waitpid _ _ _ := rfl
  chprio _ _ _ := rfl

/-! ## The two ways to fail -/

theorem start_refused (name : Option UserString)
    (h : ¬startAccepts s.currentSize stackSize priority) :
    start mem s stackSize priority name = .ok (s.ret (-1)) := by
  unfold startAccepts at h
  unfold start
  rw [if_pos (by omega)]

/-- With memory for the stacks `start` does not return at once. -/
theorem startStacks_fed (hkernel : mem.kernelStack = true) (huser : mem.userStack = true) :
    Yields (start.startStacks mem s father p priority stackSize) fun s' => s'.control ≠ [] := by
  have hready : ∀ s₁ : Kernel, Yields (start.startReady s₁ father p priority)
      fun s' => s'.control ≠ [] := by
    intro s₁
    unfold start.startReady
    refine .skip _ fun s₂ => .ite (fun _ => ?_) fun _ => ?_
    · exact List.cons_ne_nil _ _
    · exact List.cons_ne_nil _ _
  unfold start.startStacks
  rw [if_neg (by simp [hkernel])]
  refine .ite (fun _ => .skip _ fun _ => ?_) fun _ => .skip _ fun _ => hready _
  rw [if_neg (by simp [huser])]
  exact .skip _ fun _ => .skip _ fun _ => hready _

theorem start_fed (name : Option UserString)
    (haccepts : startAccepts s.currentSize stackSize priority)
    (hkernel : mem.kernelStack = true) (huser : mem.userStack = true) :
    Yields (start mem s stackSize priority name) fun s' => s'.control ≠ [] := by
  unfold startAccepts at haccepts
  unfold start
  rw [if_neg (by omega)]
  exact .skip _ fun _ => .skip _ fun _ => startStacks_fed hkernel huser

private theorem unregister_data :
    Yields (processTableUnregister s p) fun s' => s'.data = s.data := by
  unfold processTableUnregister
  exact .skip _ fun _ => rfl

private theorem kernelStackFree_data (stack : Option Nat) :
    Yields (kernelStackFree s stack) fun s' => s'.data = s.data := by
  unfold kernelStackFree
  exact .skip _ fun _ => .skip _ fun _ => rfl

/-- The slot holds the pid of its process, which is not in use. -/
def Abandoned (s : Kernel) (p : Int) : Prop := (s.data p).pid = p ∧ (s.data p).state = .unset

theorem Abandoned.update (h : Abandoned s p) {f : Process → Process}
    (hpid : (f (s.data p)).pid = (s.data p).pid)
    (hstate : (f (s.data p)).state = (s.data p).state) : Abandoned (s.update p f) p := by
  unfold Abandoned
  rw [Kernel.data_update, if_pos rfl, hpid, hstate]
  exact h

theorem Abandoned.congr (h : Abandoned s p) (hdata : s'.data = s.data) : Abandoned s' p := by
  unfold Abandoned
  rw [hdata]
  exact h

/-- Without it the slot keeps its pid. -/
theorem startStacks_starved (hmem : mem.kernelStack = false ∨ mem.userStack = false)
    (hfather : father ≠ processNotFoundCode) (h : Abandoned s p) :
    Yields (start.startStacks mem s father p priority stackSize) fun s' => Abandoned s' p := by
  unfold start.startStacks
  refine .ite (fun _ => ?_) fun hkernel => ?_
  · refine unregister_data.bind fun s₁ hs₁ => ?_
    exact (h.update (f := fun q => { q with kernelStack := none }) rfl rfl).congr hs₁
  · have huser : mem.userStack = false := hmem.resolve_left hkernel
    dsimp only
    rw [if_pos hfather]
    refine .skip _ fun _ => ?_
    rw [if_pos huser]
    refine unregister_data.bind fun s₁ hs₁ => (kernelStackFree_data _).bind fun s₂ hs₂ => ?_
    have hallocated : Abandoned { s with
        kernelBlocks := (s.kernelBlocks.allocate kernelStackSize).2 } p := h
    refine Abandoned.congr (Abandoned.congr ?_ hs₁) hs₂
    refine ((hallocated.update ?_ ?_).update ?_ ?_).update ?_ ?_
    all_goals rfl

theorem start_starved (name : Option UserString)
    (haccepts : startAccepts s.currentSize stackSize priority)
    (hmem : mem.kernelStack = false ∨ mem.userStack = false)
    (hfather : s.getpid ≠ processNotFoundCode) {pids : LockedRing Int}
    (hpop : s.pids.pop processTableMaxSize = some (p, pids)) (hpid : IsPid p)
    (hunset : (s.data p).state = .unset) :
    Yields (start mem s stackSize priority name) fun s' => Abandoned s' p := by
  have hregister : processTableRegister s =
      .ok (p, { s with pids := pids, currentSize := s.currentSize + 1 }) := by
    unfold processTableRegister
    rw [hpop]
    rfl
  unfold startAccepts at haccepts
  unfold start
  rw [if_neg (by omega), hregister, ok_bind]
  dsimp only
  rw [getProcess_eq hpid, ok_bind]
  refine startStacks_starved hmem hfather ?_
  have hread : ∀ s₁ : Kernel, (s₁.readName name).data = s₁.data := by
    intro s₁
    cases name <;> rfl
  refine Abandoned.congr ?_ (hread _)
  unfold Abandoned
  simp [Kernel.update, hunset]

/-- A step that is no starved start finds memory if it starts a process. -/
theorem fed_of_not_starved (hfed : ¬Starved s step) (hstarts : step.event.starts s.currentSize) :
    step.mem.kernelStack = true ∧ step.mem.userStack = true := by
  unfold Starved at hfed
  simpa [hstarts] using hfed

theorem Moved.blank (hmoved : Moved step s s' r r') (hsafe : Safe s r) (hfed : ¬Starved s step)
    (h : Blank s.view) : Blank s'.view := by
  rcases hmoved.change with ⟨-, -, heffect⟩ | hturn
  · have hmem : step.event.starts s.view.currentSize →
        step.mem.kernelStack = true ∧ step.mem.userStack = true := fed_of_not_starved hfed
    have hkin := heffect.kin hsafe.inv.core hmem
    exact fun x hx => (heffect.pid_eq hmem hx).trans (h x (hkin.unset hx))
  · exact hturn.blank h

/-- The runs whose starts all found memory leave no pid behind. -/
theorem Running.blank (h : Running ok s) (htame : Tame ok)
    (hok : ∀ s step, ok s step → ¬Starved s step) : Blank s.view := by
  obtain ⟨r, -, hblank, -⟩ := h.tame (I := fun s _ => Blank s.view) htame booted_attended.blank
    fun s step s' r r' hsafe hblank hs hmoved => hmoved.blank hsafe (hok s step hs) hblank
  exact hblank

/-! ## Starts that return -1 -/

theorem exec_start (hstart : step.event.isStart = true) :
    ¬step.event.starts s.currentSize ∧ exec step s = .ok (s.ret (-1)) ∨
      step.event.starts s.currentSize ∧ ∃ stackSize priority name,
        startAccepts s.currentSize stackSize priority ∧
          exec step s = start step.mem s stackSize priority name := by
  obtain ⟨mem, event⟩ := step
  cases event with
  | init stackSize priority =>
      by_cases haccepts : startAccepts s.currentSize stackSize priority
      · exact .inr ⟨haccepts, stackSize, priority, none, haccepts, rfl⟩
      · exact .inl ⟨haccepts, start_refused none haccepts⟩
  | call call =>
      cases call with
      | start program stackSize priority name =>
          have hexec : exec ⟨mem, .call (.start program stackSize priority name)⟩ s =
              if checkArg program = false ∨ checkArg name.address = false then .ok (s.ret (-1))
              else start mem s stackSize priority (some name) := rfl
          by_cases hargs : checkArg program = false ∨ checkArg name.address = false
          · rw [if_pos hargs] at hexec
            refine .inl ⟨fun hstarts => ?_, hexec⟩
            rcases hargs with harg | harg
            · exact absurd hstarts.1.1 (by simp [harg])
            · exact absurd hstarts.1.2 (by simp [harg])
          · rw [if_neg hargs] at hexec
            rw [not_or, Bool.not_eq_false, Bool.not_eq_false] at hargs
            by_cases haccepts : startAccepts s.currentSize stackSize priority
            · exact .inr ⟨⟨hargs, haccepts⟩, stackSize, priority, some name, haccepts, hexec⟩
            · rw [start_refused (some name) haccepts] at hexec
              exact .inl ⟨fun hstarts => haccepts hstarts.2, hexec⟩
      | _ => cases hstart
  | _ => cases hstart

/-- A process calls `start` in user mode. -/
theorem control_of_isStart (henabled : step.enabled s) (hstart : step.event.isStart = true) :
    s.control = [] := by
  obtain ⟨mem, event⟩ := step
  cases event with
  | init stackSize priority => exact henabled.1
  | call call => exact henabled.1
  | _ => cases hstart

theorem careful_of_isStart (henabled : step.enabled s) (hstart : step.event.isStart = true) :
    Careful s step := by
  have hnil := control_of_isStart henabled hstart
  constructor
  · intro p hkill
    rw [hkill] at hstart
    cases hstart
  · intro c rest frames hcontrol
    rw [hnil] at hcontrol
    cases hcontrol

/-- As long as every start has found memory for the stacks, a start that returns -1 leaves
everything as it was if and only if it was refused. -/
theorem failed_start_iff (h : Running ok s) (htame : Tame ok)
    (hok : ∀ s step, ok s step → ¬Starved s step) (henabled : step.enabled s)
    (hstart : step.event.isStart = true) (hrun : exec step s = .ok s')
    (hfails : s'.eax = -1 ∧ s'.control = []) : AsBefore s s' ↔ ¬Starved s step := by
  obtain ⟨r, hsafe, -, -⟩ := h.tame (I := fun _ _ => True) htame trivial
    fun _ _ _ _ _ _ _ _ _ => trivial
  have hcore := hsafe.inv.core
  have hcareful := careful_of_isStart henabled hstart
  have hcases := exec_start (s := s) hstart
  constructor
  · intro hbefore hstarved
    rcases hcases with ⟨hrefused, -⟩ | ⟨-, stackSize, priority, name, haccepts, hexec⟩
    · exact hrefused hstarved.1
    · obtain ⟨p, pids, hpop, hfree, -, -⟩ := hcore.pidPool.pop haccepts.2.1
      have hfather : s.getpid ≠ processNotFoundCode := by
        have hpos := (hcore.isPid hcore.self).1
        rw [hcore.getpid_eq]
        unfold processNotFoundCode
        omega
      rw [hexec] at hrun
      have habandoned := (start_starved name haccepts hstarved.2 hfather hpop hfree.1
        hfree.2).of_ok hrun
      rw [← hexec] at hrun
      obtain ⟨r', hmoved⟩ := (exec_meets hsafe henabled hcareful).of_ok hrun
      have hmem : p ∈ s'.freePids :=
        (hmoved.safe.inv.core.pidPool.mem_iff p).mpr ⟨hfree.1, habandoned.2⟩
      have hpid := hbefore.unused p hmem
      rw [habandoned.1] at hpid
      have hpos := hfree.1.1
      unfold processNotFoundCode at hpid
      omega
  · intro hfed
    rcases hcases with ⟨-, hexec⟩ | ⟨hstarts, stackSize, priority, name, haccepts, hexec⟩
    · rw [hexec, Except.ok.injEq] at hrun
      subst hrun
      refine asBefore_ret fun p hp => h.blank htame hok p ?_
      exact ((hcore.pidPool.mem_iff p).mp hp).2
    · have hmem : step.mem.kernelStack = true ∧ step.mem.userStack = true := by
        unfold Starved at hfed
        simpa [hstarts] using hfed
      rw [hexec] at hrun
      exact absurd hfails.2 ((start_fed name haccepts hmem.1 hmem.2).of_ok hrun)

/-- A start with a priority out of range is refused. -/
theorem failed_start_run : ∃ s s', exec
    (Event.call (.start 0x1000000 4096 300 ⟨0x1000000, 0⟩)).step s = .ok s' ∧ AsBefore s s' := by
  have hrun : ∃ s, Running (fun _ step => step.event.calm = true ∧ step.mem = .available) s ∧
      decide ((Event.call (.start 0x1000000 4096 300 ⟨0x1000000, 0⟩)).step.enabled s) = true :=
    Running.computed [(Event.init 4096 128).step] [] (by decide +kernel)
  obtain ⟨s, hrun, htest⟩ := hrun
  have henabled := of_decide_eq_true htest
  have haccepts : ¬startAccepts s.currentSize 4096 300 := fun haccepts =>
    absurd haccepts.1.2 (by decide)
  have hrefused : start .available s 4096 300 (some ⟨0x1000000, 0⟩) = .ok (s.ret (-1)) :=
    start_refused (some ⟨0x1000000, 0⟩) haccepts
  have hexec : exec (Event.call (.start 0x1000000 4096 300 ⟨0x1000000, 0⟩)).step s =
      .ok (s.ret (-1)) := hrefused
  refine ⟨s, s.ret (-1), hexec, ?_⟩
  refine (failed_start_iff hrun (.inl fun _ _ hs => hs.1) ?_ henabled rfl hexec
    ⟨rfl, henabled.1⟩).mpr fun hstarved => haccepts hstarved.1.2
  rintro s step ⟨-, hmem⟩ ⟨-, hstarved⟩
  rw [hmem] at hstarved
  simp [Memory.available] at hstarved

/-- A start without memory for the kernel stack. -/
private def starvedStart : Step :=
  ⟨{ Memory.available with kernelStack := false },
    .call (.start 0x1000000 4096 100 ⟨0x1000000, 0⟩)⟩

private def killsAbandoned (s : Kernel) : Bool :=
  match exec starvedStart s with
  | .error _ => false
  | .ok s' => decide ((starvedStart.enabled s ∧ s'.eax = -1 ∧ s'.control = []) ∧
      answer .available (.kill 3) s' = .error .queueDel ∧
        answer .available (.kill 3) (s.ret (-1)) = .ok (-1, []))

/-- The pid of a start without memory is not in use, but to kill it is a panic. -/
theorem failed_start_not_undone : ∃ s s', Running (fun _ _ => True) s ∧
    exec starvedStart s = .ok s' ∧ (s'.eax = -1 ∧ s'.control = []) ∧
      answer .available (.kill 3) s' = .error .queueDel ∧
        answer .available (.kill 3) (s.ret (-1)) = .ok (-1, []) ∧ ¬AsBefore s s' := by
  have hrun : ∃ s, Running (fun _ _ => True) s ∧ killsAbandoned s = true :=
    Running.computed [(Event.init 4096 128).step] [] (by decide +kernel)
  obtain ⟨s, hrun, htest⟩ := hrun
  unfold killsAbandoned at htest
  cases hexec : exec starvedStart s with
  | error e =>
      rw [hexec] at htest
      cases htest
  | ok s' =>
      rw [hexec] at htest
      obtain ⟨⟨-, hfails⟩, hkill, hkill'⟩ := of_decide_eq_true htest
      refine ⟨s, s', hrun, hexec, hfails, hkill, hkill', fun hbefore => ?_⟩
      have heq := hbefore.kill .available 3
      rw [hkill, hkill'] at heq
      cases heq

end SchlagOS
