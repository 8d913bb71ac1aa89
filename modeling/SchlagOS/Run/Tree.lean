import SchlagOS.Invariant.Kin

/-!
# The family tree

The lists of children and the fathers of the processes agree, also at process 1,
as long as `zombify` has no living child to hand over: it enters the pid of a
freed list node into the list of process 1.
-/

namespace SchlagOS

open Foundation

variable {s s' : Kernel} {step : Step} {r r' p c : Int} {v v' : View}

/-- `p` goes back to process 1 over processes that satisfy `used`. -/
inductive FromRoot (used : Int → Prop) (father : Int → Int) : Int → Prop
  | root : FromRoot used father 1
  | child {p : Int} (hused : used p) (h : FromRoot used father (father p)) :
      FromRoot used father p

theorem FromRoot.mono {used used' : Int → Prop} {father father' : Int → Int}
    (h : FromRoot used father p) (hused : ∀ x, used x → used' x)
    (hfather : ∀ x, used x → father' x = father x) : FromRoot used' father' p := by
  induction h with
  | root => exact .root
  | child hx _ ih =>
      refine .child (hused _ hx) ?_
      rwa [hfather _ hx]

/-- What `Family` leaves open about process 1, and that there is no other root. -/
structure Rooted (v : View) : Prop where
  mem : ∀ p, v.state p ≠ .unset → p ≠ 1 → v.father p = 1 → p ∈ v.childs 1
  child : ∀ c ∈ v.childs 1, v.state c ≠ .unset ∧ v.father c = 1 ∧ c ≠ 1
  nodup : (v.childs 1).Nodup
  descends : ∀ p, v.state p ≠ .unset → FromRoot (fun x => v.state x ≠ .unset) v.father p

theorem Rooted.congr (h : Rooted v) (hused : SameUsed v v') (hfather : v'.father = v.father)
    (hchilds : v'.childs = v.childs) : Rooted v' where
  mem p hp := by
    rw [hfather, hchilds]
    rw [Ne, hused] at hp
    exact h.mem p hp
  child c hc := by
    rw [hchilds] at hc
    rw [hfather, Ne, hused]
    exact h.child c hc
  nodup := by
    rw [hchilds]
    exact h.nodup
  descends p hp := by
    rw [Ne, hused] at hp
    refine (h.descends p hp).mono (fun x hx => ?_) fun x _ => congrFun hfather x
    rwa [Ne, hused]

/-- A new child of the running process. -/
theorem Rooted.born (h : Rooted v) (hone : v.state 1 ≠ .unset) (hr : v.state r ≠ .unset)
    (hp : v.state p = .unset) (hstate : v'.state = Function.update v.state p .waiting)
    (hfather : v'.father = Function.update v.father p r)
    (hchilds : v'.childs = Function.update (Function.update v.childs p []) r
      (p :: v.childs r)) : Rooted v' := by
  have hne : ∀ x, v.state x ≠ .unset → x ≠ p := fun x hx heq => hx (heq ▸ hp)
  have hused : ∀ x, x ≠ p → v'.state x = v.state x := by
    intro x hx
    rw [hstate, Function.update_of_ne hx]
  have hold : ∀ x, x ≠ p → v'.father x = v.father x := by
    intro x hx
    rw [hfather, Function.update_of_ne hx]
  have hnew : v'.father p = r := by rw [hfather, Function.update_self]
  have hpused : v'.state p ≠ .unset := by
    rw [hstate, Function.update_self]
    decide
  have hlist : v'.childs 1 = if r = 1 then p :: v.childs 1 else v.childs 1 := by
    rw [hchilds]
    split_ifs with hr1
    · rw [hr1, Function.update_self]
    · rw [Function.update_of_ne (Ne.symm hr1), Function.update_of_ne (hne 1 hone)]
  have hnot : p ∉ v.childs 1 := fun hmem => (h.child p hmem).1 hp
  have hdescends : ∀ x, v.state x ≠ .unset →
      FromRoot (fun x => v'.state x ≠ .unset) v'.father x := by
    intro x hx
    refine (h.descends x hx).mono (fun y hy => ?_) fun y hy => hold y (hne y hy)
    rwa [hused y (hne y hy)]
  constructor
  · intro x hx hx1 hxfather
    rw [hlist]
    by_cases hxp : x = p
    · rw [hxp, hnew] at hxfather
      rw [if_pos hxfather, hxp]
      exact List.mem_cons_self
    · rw [hused x hxp] at hx
      rw [hold x hxp] at hxfather
      have hmem := h.mem x hx hx1 hxfather
      split
      · exact List.mem_cons_of_mem p hmem
      · exact hmem
  · intro c hc
    have hcold : c ∈ v.childs 1 → v'.state c ≠ .unset ∧ v'.father c = 1 ∧ c ≠ 1 := by
      intro hc
      obtain ⟨hcused, hcfather, hc1⟩ := h.child c hc
      rw [hused c (hne c hcused), hold c (hne c hcused)]
      exact ⟨hcused, hcfather, hc1⟩
    rw [hlist] at hc
    split_ifs at hc with hr1
    · rcases List.mem_cons.mp hc with rfl | hc
      · exact ⟨hpused, hnew.trans hr1, fun heq => hne 1 hone heq.symm⟩
      · exact hcold hc
    · exact hcold hc
  · rw [hlist]
    split
    · exact List.nodup_cons.mpr ⟨hnot, h.nodup⟩
    · exact h.nodup
  · intro x hx
    by_cases hxp : x = p
    · rw [hxp]
      refine .child hpused ?_
      rw [hnew]
      exact hdescends r hr
    · rw [hused x hxp] at hx
      exact hdescends x hx

/-- A process without children goes. -/
theorem Rooted.gone (h : Rooted v) (hfamily : Family v.state v.father v.childs)
    (hp : p ≠ 1) (hnil : v.childs p = [])
    (hstate : v'.state = Function.update v.state p .unset)
    (hfather : v'.father = Function.update v.father p 0)
    (hchilds : v'.childs =
      Function.update v.childs (v.father p) ((v.childs (v.father p)).erase p)) :
    Rooted v' := by
  have hne : ∀ x, v'.state x ≠ .unset → x ≠ p ∧ v.state x ≠ .unset := by
    intro x hx
    have hxp : x ≠ p := by
      rintro rfl
      rw [hstate, Function.update_self] at hx
      exact hx rfl
    rw [hstate, Function.update_of_ne hxp] at hx
    exact ⟨hxp, hx⟩
  have hold : ∀ x, x ≠ p → v'.father x = v.father x := by
    intro x hx
    rw [hfather, Function.update_of_ne hx]
  have hlist : v'.childs 1 = (v.childs 1).erase p := by
    rw [hchilds]
    by_cases h1 : 1 = v.father p
    · rw [← h1, Function.update_self]
    · rw [Function.update_of_ne h1]
      exact (List.erase_of_not_mem fun hmem => h1 (h.child p hmem).2.1.symm).symm
  have hparent : ∀ x, v.state x ≠ .unset → x ≠ 1 → v.father x ≠ p := by
    intro x hx hx1 heq
    rcases hfamily.father_mem x hx hx1 with h1 | ⟨-, hmem⟩
    · exact hp (heq.symm.trans h1)
    · rw [heq, hnil] at hmem
      exact List.not_mem_nil hmem
  constructor
  · intro x hx hx1 hxfather
    obtain ⟨hxp, hx⟩ := hne x hx
    rw [hold x hxp] at hxfather
    rw [hlist, List.mem_erase_of_ne hxp]
    exact h.mem x hx hx1 hxfather
  · intro c hc
    rw [hlist, h.nodup.mem_erase_iff] at hc
    obtain ⟨hcused, hcfather, hc1⟩ := h.child c hc.2
    rw [hold c hc.1, hstate, Function.update_of_ne hc.1]
    exact ⟨hcused, hcfather, hc1⟩
  · rw [hlist]
    exact h.nodup.erase p
  · intro x hx'
    obtain ⟨hxp, hx⟩ := hne x hx'
    have hchain := h.descends x hx
    clear hx hx'
    induction hchain with
    | root => exact .root
    | @child y hy hfrom ih =>
        by_cases hy1 : y = 1
        · rw [hy1]
          exact .root
        · refine .child ?_ ?_
          · rwa [hstate, Function.update_of_ne hxp]
          · rw [hold y hxp]
            exact ih (hparent y hy hy1)

/-- `zombify` is about to take a process with a living child. -/
def adopts (s : Kernel) : Bool :=
  match s.control with
  | .schedule .zombify :: _ =>
      match takePending s.pidsToZombify (runningPid s) with
      | some (p, _) => (s.data p).childsPids.any fun c => !(s.data c).deallocated
      | none => false
  | _ => false

theorem childs_dead {stack : ArrayStack Int} (hsafe : Safe s r) (hadopts : adopts s = false)
    (hphase : phaseOf s.control = some .zombify)
    (htake : takePending s.pidsToZombify (some r) = some (p, stack)) :
    ∀ c ∈ s.view.childs p, s.view.dead c = true := by
  obtain ⟨rest, hcontrol⟩ : ∃ rest, s.control = .schedule .zombify :: rest := by
    cases hcontrol : s.control with
    | nil =>
        rw [hcontrol] at hphase
        cases hphase
    | cons frame rest =>
        rw [hcontrol] at hphase
        cases frame <;> simp_all [phaseOf]
  have hrunning := hsafe.inv.core.runningPid_eq
  unfold adopts at hadopts
  rw [hcontrol] at hadopts
  dsimp only at hadopts
  rw [hrunning, htake] at hadopts
  intro c hc
  have hdead : (s.data c).deallocated = true := by
    simpa using List.any_eq_false.mp hadopts c hc
  exact hdead

/-- A step of an orderly run in which no child is handed over. -/
def Settling (s : Kernel) (step : Step) : Prop := step.orderly = true ∧ adopts s = false

instance (s : Kernel) (step : Step) : Decidable (Settling s step) := by
  unfold Settling
  infer_instance

theorem Rooted.moved (h : Rooted s.view) (hsafe : Safe s r) (hs : Settling s step)
    (hmoved : Moved step s s' r r') : Rooted s'.view := by
  have hcore := hsafe.inv.core
  have hmem := Step.orderly_iff.mp hs.1
  cases hmoved.kin hsafe ⟨hmem.2.1, hmem.2.2.1⟩ with
  | kin hkin =>
      cases hkin with
      | same hused hfather hchilds _ _ _ => exact h.congr hused hfather hchilds
      | born p hfree _ hstate hfather hchilds _ _ _ =>
          refine h.born ?_ hcore.self hfree.2 hstate hfather hchilds
          intro hunset
          rcases hcore.init with h1 | h1 | h1
          all_goals
            rw [hunset] at h1
            cases h1
      | delivered c _ _ hstate hfather hchilds _ _ _ =>
          exact h.congr (fun x => by rw [hstate]) hfather hchilds
  | zombify p stack hphase htake _ hzombified =>
      have hdead := childs_dead hsafe hs.2 hphase htake
      have hfather : s'.view.father = s.view.father := by
        rw [hzombified.view]
        funext c
        dsimp only
        unfold adopted
        split_ifs with hc
        · rw [hdead c hc.1] at hc
          simp at hc
        · rfl
      exact h.congr hzombified.used hfather (hzombified.childs_eq hdead)
  | destroy p hdestroyed =>
      have hview := hdestroyed.view
      refine h.gone hcore.family hdestroyed.ne_one hdestroyed.childless ?_ ?_ hdestroyed.childs
      · rw [hview]
      · rw [hview]

theorem booted_rooted : Rooted booted.view := by
  have hother : ∀ p, booted.view.state p ≠ .unset → p = 1 := by
    intro p hp
    by_contra hne
    have hdata : booted.data p = noProcess := Function.update_of_ne hne _ _
    have hstate : (booted.data p).state ≠ .unset := hp
    rw [hdata] at hstate
    exact hstate rfl
  have hnil : booted.view.childs 1 = [] := rfl
  constructor
  · intro p hp hone
    exact absurd (hother p hp) hone
  · simp [hnil]
  · simp [hnil]
  · intro p hp
    rw [hother p hp]
    exact .root

/-- The processes in use form a tree under process 1, stored both ways. -/
structure FamilyTree (s : Kernel) : Prop where
  father : ∀ p, (s.data p).state ≠ .unset → p ≠ 1 →
    (s.data (s.data p).fatherPid).state ≠ .unset
  once : ∀ p, (s.data p).state ≠ .unset → p ≠ 1 →
    (s.data (s.data p).fatherPid).childsPids.count p = 1
  only : ∀ p o, (s.data p).state ≠ .unset → p ∈ (s.data o).childsPids →
    o = (s.data p).fatherPid
  child : ∀ o c, c ∈ (s.data o).childsPids →
    (s.data c).state ≠ .unset ∧ (s.data c).pid = c ∧ (s.data c).fatherPid = o
  rooted : ∀ p, (s.data p).state ≠ .unset →
    FromRoot (fun x => (s.data x).state ≠ .unset) (fun x => (s.data x).fatherPid) p

theorem Rooted.tree (h : Rooted s.view) (hcore : Core s.view r fun _ => False) :
    FamilyTree s := by
  have hmem : ∀ p, s.view.state p ≠ .unset → p ≠ 1 →
      s.view.state (s.view.father p) ≠ .unset ∧ p ∈ s.view.childs (s.view.father p) := by
    intro p hp hone
    refine ⟨hcore.father_pid hp hone, ?_⟩
    rcases hcore.family.father_mem p hp hone with h1 | ⟨-, hmem⟩
    · rw [h1]
      exact h.mem p hp hone h1
    · exact hmem
  have hchild : ∀ o c, c ∈ s.view.childs o → s.view.state c ≠ .unset ∧ s.view.father c = o := by
    intro o c hc
    by_cases ho : o = 1
    · rw [ho] at hc ⊢
      exact ⟨(h.child c hc).1, (h.child c hc).2.1⟩
    · exact ⟨(hcore.family.child o c ho hc).1, (hcore.family.child o c ho hc).2.1⟩
  have hnodup : ∀ o, (s.view.childs o).Nodup := by
    intro o
    by_cases ho : o = 1
    · rw [ho]
      exact h.nodup
    · exact hcore.family.nodup o ho
  constructor
  · intro p hp hone
    exact (hmem p hp hone).1
  · intro p hp hone
    exact List.count_eq_one_of_mem (hnodup _) (hmem p hp hone).2
  · intro p o _ hp
    exact (hchild o p hp).2.symm
  · intro o c hc
    obtain ⟨hused, hfather⟩ := hchild o c hc
    exact ⟨hused, hcore.pid_eq hused, hfather⟩
  · exact h.descends

theorem family_tree (h : Running Settling s) : FamilyTree s := by
  obtain ⟨r, hsafe, -, hrooted⟩ := h.orderly (I := fun s _ => Rooted s.view)
    (fun s step hs => hs.1) booted_rooted
    fun s step s' r r' hsafe _ hrooted hs hmoved => hrooted.moved hsafe hs hmoved
  exact hrooted.tree hsafe.inv.core

/-- A run in which process 2 starts process 3, which starts process 4, waits for it and exits, and
is waited for by process 2. -/
theorem family_tree_run : ∃ s, (s.data 3).state = .unset ∧ FamilyTree s := by
  have hrun : ∃ s, Running Settling s ∧ decide ((s.data 3).state = .unset) = true :=
    Running.computed ([Event.init 4096 128, .call (.start 0x1000000 4096 200 ⟨0x1000000, 0⟩),
      .call (.start 0x1000000 4096 210 ⟨0x1000000, 0⟩), .call (.exit 5), .call (.waitpid 4 0),
      .tick, .tick, .call (.exit 0), .call (.waitpid 3 0), .tick, .tick].map Event.step) []
      (by decide +kernel)
  obtain ⟨s, hrun, htest⟩ := hrun
  exact ⟨s, of_decide_eq_true htest, family_tree hrun⟩

/-- When process 2 ends with a living child, the list of process 1 gets the entry 0. -/
theorem family_tree_broken :
    ¬∀ s, Running (fun _ step => step.orderly = true) s → FamilyTree s := by
  intro hall
  have hrun : ∃ s, Running (fun _ step => step.orderly = true) s ∧
      decide (0 ∈ (s.data 1).childsPids ∧ (s.data 0).pid ≠ 0) = true :=
    Running.computed ([Event.init 4096 128, .call (.start 0x1000000 4096 100 ⟨0x1000000, 0⟩),
      .call (.exit 0), .tick, .tick].map Event.step) [] (by decide +kernel)
  obtain ⟨s, hrun, htest⟩ := hrun
  obtain ⟨hmem, hpid⟩ := of_decide_eq_true htest
  exact hpid ((hall s hrun).child 1 0 hmem).2.1

end SchlagOS
