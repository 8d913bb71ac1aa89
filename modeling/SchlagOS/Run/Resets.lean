import SchlagOS.Invariant.AlikeCalls
import SchlagOS.Invariant.Boot

/-!
# A queue that was reset

A queue that `preset` has emptied behaves like one that `pcreate` has just made
with the same size.  Its ring stands elsewhere, but put the new queue in its
place and every run goes on in the same way, whatever its steps are: the same
values are returned, the same messages delivered and the same calls blocked and
released.
-/

namespace SchlagOS

open Foundation

variable {ok ok' : Kernel → Step → Prop} {s s₁ u u₁ : Kernel} {mem mem' : Memory} {fid : Int}

theorem Alike.enabled {s t : Kernel} (h : Alike s t) (step : Step) :
    machine.enabled t step ↔ machine.enabled s step := by
  obtain ⟨queues, rfl, -⟩ := h
  obtain ⟨mem, event⟩ := step
  cases event with
  | init stackSize priority => exact Iff.rfl
  | call call => exact Iff.rfl
  | tick => exact Iff.rfl
  | key str => exact Iff.rfl
  | kernel => exact Iff.rfl

theorem Alike.lockStep {s t : Kernel} (h : Alike s t) : LockStep machine Alike s t :=
  .of_coupled (fun _ _ step hab => hab.enabled step) (fun _ _ step hab => exec_alike hab step) h

theorem booted_alike : Alike booted booted := by
  have hcore := booted_safe.inv.core
  refine ⟨booted.queues, rfl, fun fid => ?_, hcore.fidPool⟩
  exact .refl (hcore.locked.live fid) (hcore.locked.idle fid)

/-- In every run the queues and the ring of the fids are in order. -/
theorem Running.alike (h : Running ok s) : Alike s s := by
  obtain ⟨start, hboot, hreach⟩ := h
  rw [kernelStart_eq, Except.ok.injEq] at hboot
  subst hboot
  refine hreach.invariant (I := fun s => Alike s s) booted_alike
    fun s step s' _ hs _ _ hrun => ?_
  have hcoupled := exec_alike hs step
  have hrun' : exec step s = .ok s' := hrun
  rwa [hrun'] at hcoupled

theorem preset_like_pcreate (h : Running ok s) (hlive : isLive s fid = true)
    (hreset : exec ⟨mem, .call (.preset fid)⟩ s = .ok s₁) (h' : Running ok' u)
    (hcreate : exec ⟨mem', .call (.pcreate (s.queues fid).size)⟩ u = .ok u₁)
    (hfid : 0 ≤ u₁.eax) :
    LockStep machine Alike s₁
      { s₁ with queues := Function.update s₁.queues fid (u₁.queues u₁.eax) } := by
  have hemptied := preset_alike h.alike fid
  have hreset' : preset s fid = .ok s₁ := hreset
  have hcreate' : pcreate mem' u (s.queues fid).size = .ok u₁ := hcreate
  have hcreated : Coupled _ (pcreate mem' u (s.queues fid).size)
      (pcreate mem' u (s.queues fid).size) := pcreate_alike h'.alike _
  rw [hreset'] at hemptied
  rw [hcreate'] at hcreated
  obtain ⟨⟨queues, heq, hqueues⟩, hfresh⟩ := hemptied
  have hfresh' : Fresh (s.queues fid).size (u₁.queues u₁.eax) := hcreated.2 hfid
  have hself : ∀ fid, AlikeQueue (s₁.queues fid) (s₁.queues fid) := fun fid' =>
    .refl (fun hallocated => ((hqueues.alike fid').live hallocated).1)
      fun hallocated => ((hqueues.alike fid').idle hallocated).1
  refine Alike.lockStep ⟨_, rfl, fun fid' => ?_, hqueues.pool⟩
  have hupdated := update_alike hself fid ((hfresh hlive).alike hfresh') fid'
  rwa [Function.update_eq_self] at hupdated

/-- A reset queue of three messages and a new one, whose rings stand at different places. -/
theorem preset_like_pcreate_run : ∃ s t, s.messages 1 = [] ∧
    (s.queues 1).ring.produce ≠ (t.queues 1).ring.produce ∧ LockStep machine Alike s t := by
  have hrun : ∃ s, Running (fun _ _ => True) s ∧
      (isLive s 1 &&
        okAnd (fun s₁ => okAnd (fun u₁ => decide (0 ≤ u₁.eax ∧ s₁.messages 1 = [] ∧
            (s₁.queues 1).ring.produce ≠ (u₁.queues u₁.eax).ring.produce))
          (exec (Event.call (.pcreate (s.queues 1).size)).step s))
          (exec (Event.call (.preset 1)).step s)) = true :=
    Running.computed ([Event.init 4096 128, .call (.pcreate 3),
      .call (.psend 1 7), .call (.psend 1 8)].map Event.step) [] (by decide +kernel)
  obtain ⟨s, hrun, htest⟩ := hrun
  rw [Bool.and_eq_true] at htest
  obtain ⟨hlive, htest⟩ := htest
  obtain ⟨s₁, hreset, htest⟩ := okAnd_iff.mp htest
  obtain ⟨u₁, hcreate, htest⟩ := okAnd_iff.mp htest
  obtain ⟨hfid, hnil, hne⟩ := of_decide_eq_true htest
  refine ⟨s₁, _, hnil, ?_, preset_like_pcreate hrun hlive hreset hrun hcreate hfid⟩
  dsimp only
  rwa [Function.update_self]

end SchlagOS
