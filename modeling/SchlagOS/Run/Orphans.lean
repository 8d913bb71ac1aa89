import SchlagOS.Invariant.Kin

/-!
# Orphan zombies

A dead process that nobody can deliver any more has been sealed: `zombify` does
so for its dead children, and for the process itself when its father is process
1 or died before.  Behind the clean-up all zombies that are left have a living
father other than process 1.
-/

namespace SchlagOS

open Foundation

variable {s s' : Kernel} {step : Step} {r r' p : Int} {v v' : View}

/-- A dead process that is not sealed is no child of process 1. -/
def Claimed (v : View) : Prop := ∀ z, v.dead z = true → v.isSealed z = false → v.father z ≠ 1

theorem Claimed.kin (h : Claimed v) (hkin : Kin r v v') : Claimed v' := by
  intro z hdead hsealed
  cases hkin with
  | same _ hfather' _ hdead' hsealed' _ =>
      rw [hdead'] at hdead
      rw [hsealed'] at hsealed
      rw [hfather']
      exact h z hdead hsealed
  | born p _ _ _ hfather' _ hdead' hsealed' _ =>
      have hzp : z ≠ p := by
        rintro rfl
        rw [hdead', Function.update_self] at hdead
        cases hdead
      rw [hdead', Function.update_of_ne hzp] at hdead
      rw [hsealed'] at hsealed
      rw [hfather', Function.update_of_ne hzp]
      exact h z hdead hsealed
  | delivered c _ _ _ hfather' _ hdead' hsealed' _ =>
      rw [hdead'] at hdead
      rw [hfather']
      refine h z hdead ?_
      rw [hsealed', Function.update_apply] at hsealed
      split at hsealed
      · cases hsealed
      · exact hsealed

theorem Claimed.zombify (h : Claimed v) (hfamily : Family v.state v.father v.childs)
    (hzombified : Zombified v v' p) : Claimed v' := by
  intro z hdead hsealed
  have hunsealed : ¬(v.isSealed z = true ∨ (z ∈ v.childs p ∧ v.dead z = true) ∨
      (z = p ∧ v.closes p)) := by
    rw [← hzombified.sealed_iff, hsealed]
    simp
  have hold : v.isSealed z = false := eq_false_of_ne_true fun heq => hunsealed (.inl heq)
  have hview := hzombified.view
  rw [hview] at hdead ⊢
  dsimp only at hdead ⊢
  by_cases hzp : z = p
  · have hnot : z ∉ v.childs p := by
      intro hz
      obtain ⟨hused, hfather, -⟩ := hfamily.child p z hzombified.ne_one hz
      exact hfamily.proper z hused (hfather.trans hzp.symm)
    have hkept : adopted v.dead v.father (v.childs p) z = v.father z := by
      simp [adopted, hnot]
    rw [hkept]
    intro hfather
    subst hzp
    exact hunsealed (.inr (.inr ⟨rfl, hold, .inr hfather⟩))
  · rw [Function.update_of_ne hzp] at hdead
    have hkept : adopted v.dead v.father (v.childs p) z = v.father z := by
      simp [adopted, hdead]
    rw [hkept]
    exact h z hdead hold

theorem Claimed.destroy (h : Claimed v) (hdestroyed : Destroyed v v' p) : Claimed v' := by
  intro z hdead hsealed
  have hview := hdestroyed.view
  have hzp : z ≠ p := by
    rintro rfl
    rw [hview] at hdead
    simp at hdead
  rw [hview] at hdead hsealed ⊢
  dsimp only at hdead hsealed ⊢
  rw [Function.update_of_ne hzp] at hdead hsealed ⊢
  exact h z hdead hsealed

theorem Claimed.moved (h : Claimed s.view) (hsafe : Safe s r) (hs : step.orderly = true)
    (hmoved : Moved step s s' r r') : Claimed s'.view := by
  have hmem := Step.orderly_iff.mp hs
  cases hmoved.kin hsafe ⟨hmem.2.1, hmem.2.2.1⟩ with
  | kin hkin => exact h.kin hkin
  | zombify p stack _ _ _ hzombified =>
      exact h.zombify hsafe.inv.core.family hzombified
  | destroy p hdestroyed => exact h.destroy hdestroyed

theorem booted_claimed : Claimed booted.view := by
  intro z hdead
  by_cases hz : z = 1
  · rw [hz] at hdead
    cases hdead
  · have hdata : booted.data z = noProcess := Function.update_of_ne hz _ _
    have hdead' : (booted.data z).deallocated = true := hdead
    rw [hdata] at hdead'
    cases hdead'

/-- `p` is dead and undelivered, and stands in the list of a living father other
than process 1. -/
structure Reapable (s : Kernel) (p : Int) : Prop where
  zombie : (s.data p).state = .zombie
  unsealed : (s.data p).sealed = false
  father_ne : (s.data p).fatherPid ≠ 1
  father_used : (s.data (s.data p).fatherPid).state ≠ .unset
  father_alive : (s.data (s.data p).fatherPid).state ≠ .zombie
  listed : p ∈ (s.data (s.data p).fatherPid).childsPids

theorem Claimed.reapable (h : Claimed s.view) (hcore : Core s.view r fun _ => False)
    (hinit : s.view.state 1 ≠ .zombie) (hzombify : s.pidsToZombify.entries = []) (hdestroy : s.pidsToDestroy.entries = [])
    (hp : (s.data p).state = .zombie) : Reapable s p := by
  have hzombie : ∀ x, s.view.state x = .zombie → s.view.dead x = true := by
    intro x hx
    by_contra hdead
    have hmem := (hcore.pending.mem_zombify x).mpr ⟨hx, eq_false_of_ne_true hdead⟩
    have hnil : s.view.toZombify = [] := hzombify
    rw [hnil] at hmem
    exact List.not_mem_nil hmem
  have hunsealed : ∀ x, s.view.isSealed x = false := by
    intro x
    by_contra hsealed
    have hmem := (hcore.pending.mem_destroy x).mpr (eq_true_of_ne_false hsealed)
    have hnil : s.view.toDestroy = [] := hdestroy
    rw [hnil] at hmem
    exact List.not_mem_nil hmem
  have hused : s.view.state p ≠ .unset := by
    have hp' : s.view.state p = .zombie := hp
    rw [hp']
    decide
  have hfather := h p (hzombie p hp) (hunsealed p)
  have hmem : s.view.state (s.view.father p) ≠ .unset ∧ p ∈ s.view.childs (s.view.father p) := by
    have hone : p ≠ 1 := by
      rintro rfl
      exact hinit hp
    rcases hcore.family.father_mem p hused hone with h1 | hmem
    · exact absurd h1 hfather
    · exact hmem
  refine ⟨hp, hunsealed p, hfather, hmem.1, fun halive => ?_, hmem.2⟩
  have hclosed := hcore.closed (s.view.father p) p hfather (fun hfalse => hfalse)
    (hzombie _ halive) hmem.2
  rw [hunsealed p] at hclosed
  cases hclosed.2

/-- `p` belongs to a process that is not dead, or can be delivered, or is free. -/
def Accounted (s : Kernel) (p : Int) : Prop :=
  ((s.data p).state ≠ .unset ∧ (s.data p).state ≠ .zombie) ∨ Reapable s p ∨ p ∈ s.freePids

theorem zombies_reapable (h : Running (fun _ step => step.orderly = true) s)
    (hzombify : s.pidsToZombify.entries = []) (hdestroy : s.pidsToDestroy.entries = []) :
    (∀ p, (s.data p).state = .zombie → Reapable s p) ∧ ∀ p, IsPid p → Accounted s p := by
  obtain ⟨r, hsafe, hinit, hclaimed⟩ := h.orderly (I := fun s _ => Claimed s.view)
    (fun s step hs => hs) booted_claimed
    fun s step s' r r' hsafe _ hclaimed hs hmoved => hclaimed.moved hsafe hs hmoved
  have hcore := hsafe.inv.core
  have hreapable : ∀ p, (s.data p).state = .zombie → Reapable s p := fun p hp =>
    hclaimed.reapable hcore hinit hzombify hdestroy hp
  refine ⟨hreapable, fun p hp => ?_⟩
  by_cases hunset : (s.data p).state = .unset
  · exact .inr (.inr ((hcore.pidPool.mem_iff p).mpr ⟨hp, hunset⟩))
  · by_cases hzombie : (s.data p).state = .zombie
    · exact .inr (.inl (hreapable p hzombie))
    · exact .inl ⟨hunset, hzombie⟩

/-- A run in which process 3 ends and process 2 goes on without waiting for it. -/
theorem zombies_reapable_run : ∃ s, Reapable s 3 ∧ Accounted s 4 := by
  have hrun : ∃ s, Running (fun _ step => step.orderly = true) s ∧
      decide (s.pidsToZombify.entries = [] ∧ s.pidsToDestroy.entries = [] ∧
        (s.data 3).state = .zombie) = true :=
    Running.computed ([Event.init 4096 128, .call (.start 0x1000000 4096 200 ⟨0x1000000, 0⟩),
      .call (.exit 5), .tick, .tick].map Event.step) [] (by decide +kernel)
  obtain ⟨s, hrun, htest⟩ := hrun
  obtain ⟨hzombify, hdestroy, hstate⟩ := of_decide_eq_true htest
  obtain ⟨hreapable, hpids⟩ := zombies_reapable hrun hzombify hdestroy
  exact ⟨s, hreapable 3 hstate, hpids 4 (by decide)⟩

end SchlagOS
