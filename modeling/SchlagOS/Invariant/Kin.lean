import SchlagOS.Invariant.Calm

/-!
# Births and deaths

What one step does to the fathers, the lists of children and the two marks of a
dead process: a primitive that starts a process enters it into the tables, one
that delivers a dead child seals it, and all others leave them as they are.
-/

namespace SchlagOS

open Foundation

variable {s s' : Kernel} {step : Step} {r r' p c : Int} {v v' : View} {log log' : Log}

/-- The slots in use are the same. -/
def SameUsed (v v' : View) : Prop := ∀ x, v'.state x = .unset ↔ v.state x = .unset

/-- What a primitive does to the family. -/
inductive Kin (r : Int) (v v' : View) : Prop
  | same (hused : SameUsed v v') (hfather : v'.father = v.father)
      (hchilds : v'.childs = v.childs) (hdead : v'.dead = v.dead)
      (hsealed : v'.isSealed = v.isSealed) (hdestroy : v'.toDestroy = v.toDestroy)
  | born (p : Int) (hfree : freePid v.state p) (hpr : p ≠ r)
      (hstate : v'.state = Function.update v.state p .waiting)
      (hfather : v'.father = Function.update v.father p r)
      (hchilds : v'.childs = Function.update (Function.update v.childs p []) r
        (p :: v.childs r))
      (hdead : v'.dead = Function.update v.dead p false)
      (hsealed : v'.isSealed = v.isSealed) (hdestroy : v'.toDestroy = v.toDestroy)
  | delivered (c : Int) (hunreaped : v.unreaped r c) (hzombie : v.state c = .zombie)
      (hstate : v'.state = v.state) (hfather : v'.father = v.father)
      (hchilds : v'.childs = v.childs) (hdead : v'.dead = v.dead)
      (hsealed : v'.isSealed = Function.update v.isSealed c true)
      (hdestroy : v'.toDestroy = v.toDestroy ++ [c])

theorem Effect.kin (heffect : Effect step r v log v' log') (hcore : Core v r fun _ => False)
    (hmem : step.event.starts v.currentSize →
      step.mem.kernelStack = true ∧ step.mem.userStack = true) : Kin r v v' := by
  have hmove : ∀ (p : Int) (b : ProcessState), v.state p ≠ .unset → b ≠ .unset →
      ∀ x, Function.update v.state p b x = .unset ↔ v.state x = .unset :=
    fun p b hp hb x => update_eq_iff hp hb x
  have hwaiter : ∀ {fid : Int} {node : ProcessNodeContent},
      node ∈ (v.queues fid).waiters → v.state node.pid ≠ .unset := by
    intro fid node hnode
    rw [hcore.locked.listed.blocked_of_mem hnode]
    decide
  cases heffect
  case start p _ _ _ _ _ hfree hpr hsize horder hframes =>
    exact .born p hfree hpr rfl rfl rfl rfl rfl rfl
  case startFails hstarts hfails hfree hpr horder horder' hwasted hframes =>
    rw [(hmem hstarts).1, (hmem hstarts).2] at hfails
    simp at hfails
  case reap c _ hunreaped hzombie hrequest hframes =>
    exact .delivered c hunreaped hzombie rfl rfl rfl rfl rfl rfl
  case exit => exact .same (hmove r _ hcore.self (by decide)) rfl rfl rfl rfl rfl
  case kill hevent hused halive hqueues hframes =>
    exact .same (hmove _ _ hused (by decide)) rfl rfl rfl rfl rfl
  case waits => exact .same (hmove r _ hcore.self (by decide)) rfl rfl rfl rfl rfl
  case sleeps => exact .same (hmove r _ hcore.self (by decide)) rfl rfl rfl rfl rfl
  case blockSend => exact .same (hmove r _ hcore.self (by decide)) rfl rfl rfl rfl rfl
  case blockReceive => exact .same (hmove r _ hcore.self (by decide)) rfl rfl rfl rfl rfl
  case hand hsame hwaiters hempty hempty' hframes =>
    exact .same (hmove _ _ (hwaiter (by rw [hwaiters]; simp)) (by decide)) rfl rfl rfl rfl rfl
  case swap hsame hwaiters hold hnew hframes =>
    exact .same (hmove _ _ (hwaiter (by rw [hwaiters]; simp)) (by decide)) rfl rfl rfl rfl rfl
  case alarm hstate hsleep hframes =>
    refine .same (fun x => ?_) rfl rfl rfl rfl rfl
    dsimp only
    rcases hstate x with heq | ⟨hold, hnew⟩
    · rw [heq]
    · rw [hold, hnew]
      decide
  case reset hlive hevent hpids hstate hreleases hwaiters hmessages hframes =>
    refine .same (fun x => ?_) rfl rfl rfl rfl rfl
    dsimp only
    rw [hstate]
    split_ifs with hmem'
    · rw [← hpids] at hmem'
      obtain ⟨node, hnode, rfl⟩ := List.mem_map.mp hmem'
      have hused := hwaiter hnode
      simp [hused]
    · exact Iff.rfl
  all_goals exact .same (fun _ => Iff.rfl) rfl rfl rfl rfl rfl

/-- The slots in use are the same after a turn of `schedule` that resets none. -/
theorem Zombified.used (h : Zombified v v' p) : SameUsed v v' := by
  intro x
  rcases h.state with ⟨heq, hwakes⟩ | ⟨heq, -⟩
  · rw [heq]
    exact update_eq_iff (by rw [hwakes.1]; decide) (by decide) x
  · rw [heq]

/-- A context switch only moves processes between running and waiting. -/
theorem switched_iff {old state : Int → ProcessState} {b : ProcessState}
    (hb : b ≠ .waiting ∧ b ≠ .running) (hp : old p = .waiting) (hp' : state p = .running)
    (hr : state r = if old r = .running then .waiting else old r)
    (hother : ∀ x, x ≠ p → x ≠ r → state x = old x) (x : Int) :
    state x = b ↔ old x = b := by
  by_cases hxp : x = p
  · rw [hxp, hp, hp']
    exact iff_of_false hb.2.symm hb.1.symm
  · by_cases hxr : x = r
    · rw [hxr, hr]
      split_ifs with hrunning
      · rw [hrunning]
        exact iff_of_false hb.1.symm hb.2.symm
      · exact Iff.rfl
    · rw [hother x hxp hxr]

/-- What a step does to the family. -/
inductive Step.Kin (s s' : Kernel) (r : Int) : Prop
  | kin (hkin : SchlagOS.Kin r s.view s'.view)
  | zombify (p : Int) (stack : ArrayStack Int) (hphase : phaseOf s.control = some .zombify)
      (htake : takePending s.pidsToZombify (some r) = some (p, stack)) (hpr : p ≠ r)
      (hzombified : Zombified s.view s'.view p)
  | destroy (p : Int) (hdestroyed : Destroyed s.view s'.view p)

theorem Moved.kin (hmoved : Moved step s s' r r') (hsafe : Safe s r)
    (hmem : step.mem.kernelStack = true ∧ step.mem.userStack = true) : Step.Kin s s' r := by
  rcases hmoved.change with ⟨-, -, heffect⟩ | hturn
  · exact .kin (heffect.kin hsafe.inv.core fun _ => hmem)
  · cases hturn with
    | pass _ hview _ =>
        refine .kin ?_
        rw [hview]
        exact .same (fun _ => Iff.rfl) rfl rfl rfl rfl rfl
    | resume _ _ _ _ hview _ _ =>
        refine .kin ?_
        rw [hview]
        exact .same (fun _ => Iff.rfl) rfl rfl rfl rfl rfl
    | zombify p stack hphase _ htake hpr hzombified _ =>
        exact .zombify p stack hphase htake hpr hzombified
    | destroy p _ hdestroyed _ => exact .destroy p hdestroyed
    | switch p state processQueue _ hp hp' hr hother hview _ =>
        refine .kin ?_
        rw [hview]
        exact .same (switched_iff (by decide) hp hp' hr hother) rfl rfl rfl rfl rfl

end SchlagOS
