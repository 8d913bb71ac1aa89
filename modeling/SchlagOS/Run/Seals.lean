import SchlagOS.Run.Stages

/-!
# Sealing a process twice

`request_destroy` refuses a process that it has sealed before.  `waitpid` seals a
child of the running process, and `zombify` seals the dead children of its
process and sometimes the process itself.  A process that is sealed by its own
`zombify` must have no dead child, and its father must not come up for `zombify`
in the same clean-up: otherwise it is sealed again, or its children are.
-/

namespace SchlagOS

open Foundation

variable {ok : Kernel → Step → Prop} {s s' : Kernel} {step : Step} {r r' p : Int}
  {v v' : View} {log log' : Log}

/-- A process that its own `zombify` seals has no dead child, and its father is process 1
or the running process. -/
def SparesSealed (s : Kernel) : Prop :=
  ∀ p ∈ zombifies s, (s.data p).sealed = false →
    (s.data (s.data p).fatherPid).state = .zombie ∨ (s.data p).fatherPid = 1 →
      (∀ c ∈ (s.data p).childsPids, (s.data c).deallocated = false) ∧
        ((s.data p).fatherPid = 1 ∨ s.runningProcess = some (s.data p).fatherPid)

instance (s : Kernel) : Decidable (SparesSealed s) := by
  unfold SparesSealed
  infer_instance

/-! ## The pids to destroy -/

/-- The fathers of the pids to destroy. -/
structure SealsLaw (v : View) (r : Int) : Prop where
  living : ∀ c ∈ v.toDestroy, v.state (v.father c) = .zombie → v.dead (v.father c) = false →
    v.father c = r
  order : v.toDestroy.Pairwise fun a b => v.father a ≠ b
  kept : ∀ c ∈ v.toDestroy, v.dead (v.father c) = true → v.isSealed (v.father c) = false →
    v.state (v.father (v.father c)) ≠ .zombie

/-- Outside the clean-up only children of the running process are to be destroyed. -/
structure Sealing (s : Kernel) (r : Int) : Prop where
  law : SealsLaw s.view r
  own : phaseOf s.control ≠ some .zombify → phaseOf s.control ≠ some .destroy →
    ∀ c ∈ s.view.toDestroy, s.view.father c = r

theorem SealsLaw.of_own (hcore : Core v r fun _ => False)
    (h : ∀ c ∈ v.toDestroy, v.father c = r) : SealsLaw v r where
  living c hc _ _ := h c hc
  order := by
    rw [List.pairwise_iff_getElem]
    intro i j hi hj _ heq
    have hsealed := (hcore.pending.mem_destroy _).mp (List.getElem_mem hj)
    rw [h _ (List.getElem_mem hi)] at heq
    exact hcore.pending.sealed_ne _ hsealed heq.symm
  kept c hc hdead := by
    rw [h c hc, hcore.pending.running_alive] at hdead
    cases hdead

theorem Sealing.of_own (hcore : Core s.view r fun _ => False)
    (h : ∀ c ∈ s.view.toDestroy, s.view.father c = r) : Sealing s r :=
  ⟨.of_own hcore h, fun _ _ => h⟩

/-! ## What one step does -/

theorem Effect.ownSeals (heffect : Effect step r v log v' log')
    (hcore : Core v r fun _ => False) (h : ∀ c ∈ v.toDestroy, v.father c = r) :
    ∀ c ∈ v'.toDestroy, v'.father c = r := by
  have hstart : ∀ p, v.state p = .unset → ∀ c ∈ v.toDestroy,
      Function.update v.father p r c = r := by
    intro p hp c hc
    have hne : c ≠ p := by
      rintro rfl
      have hzombie := hcore.pending.sealed_zombie c ((hcore.pending.mem_destroy c).mp hc)
      rw [hp] at hzombie
      cases hzombie
    rw [Function.update_of_ne hne]
    exact h c hc
  cases heffect
  case start p _ _ _ _ _ hfree hpr hsize horder hframes => exact hstart p hfree.2
  case startFails p _ _ _ _ _ hstarts hfails hfree hpr horder horder' hwasted hframes =>
    exact hstart p hfree.2
  case reap x frames hunreaped hzombie hrequest hframes =>
    intro c hc
    rcases List.mem_append.mp hc with hc | hc
    · exact h c hc
    · rw [List.mem_singleton.mp hc]
      exact hunreaped.2.1
  all_goals exact h

theorem SealsLaw.destroy (h : SealsLaw v r) (hcore : Core v r fun _ => False)
    (hdestroyed : Destroyed v v' p) : SealsLaw v' r := by
  have hview := hdestroyed.view
  have horder := h.order
  have hnodup := hcore.pending.nodup_destroy
  rw [hdestroyed.last, List.pairwise_append] at horder
  rw [hdestroyed.last, List.nodup_append] at hnodup
  have hmem : ∀ c ∈ v'.toDestroy, c ∈ v.toDestroy := fun c hc => by
    rw [hdestroyed.last]
    exact List.mem_append_left _ hc
  have hfather : ∀ c ∈ v'.toDestroy, v'.father c = v.father c := by
    intro c hc
    rw [hview]
    exact Function.update_of_ne (hnodup.2.2 c hc p (by simp)) _ _
  have hne : ∀ c ∈ v'.toDestroy, v.father c ≠ p := fun c hc => horder.2.2 c hc p (by simp)
  have hstate : ∀ x, x ≠ p → v'.state x = v.state x := fun x hx => by
    rw [hview]
    exact Function.update_of_ne hx _ _
  have hdead : ∀ x, x ≠ p → v'.dead x = v.dead x := fun x hx => by
    rw [hview]
    exact Function.update_of_ne hx _ _
  have hsealed : ∀ x, x ≠ p → v'.isSealed x = v.isSealed x := fun x hx => by
    rw [hview]
    exact Function.update_of_ne hx _ _
  constructor
  · intro c hc hzombie halive
    rw [hfather c hc] at hzombie halive ⊢
    rw [hstate _ (hne c hc)] at hzombie
    rw [hdead _ (hne c hc)] at halive
    exact h.living c (hmem c hc) hzombie halive
  · refine List.Pairwise.imp_of_mem (fun {a b} ha _ hab => ?_) horder.1
    rwa [hfather a ha]
  · intro c hc hdead' hunsealed
    rw [hfather c hc] at hdead' hunsealed ⊢
    rw [hdead _ (hne c hc)] at hdead'
    rw [hsealed _ (hne c hc)] at hunsealed
    have hkept := h.kept c (hmem c hc) hdead' hunsealed
    have hgrand : v'.father (v.father c) = v.father (v.father c) := by
      rw [hview]
      exact Function.update_of_ne (hne c hc) _ _
    rw [hgrand]
    by_cases hp : v.father (v.father c) = p
    · have hunset : v'.state p = .unset := by
        rw [hview]
        exact Function.update_self p _ _
      rw [hp, hunset]
      decide
    · rwa [hstate _ hp]

theorem SealsLaw.zombify (h : SealsLaw v r) (hcore : Core v r fun _ => False)
    (hinit : v.state 1 ≠ .zombie) (hzombified : Zombified v v' p) (hpr : p ≠ r)
    (hspares : v.closes p → (∀ c ∈ v.childs p, v.dead c = false) ∧
      (v.father p = 1 ∨ v.father p = r)) : SealsLaw v' r := by
  have hview := hzombified.view
  obtain ⟨hp, halive⟩ :=
    (hcore.pending.mem_zombify p).mp (hzombified.perm.mem_iff.mpr (by simp))
  have hused : v.state p ≠ .unset := by
    rw [hp]
    decide
  have hzombie : ∀ x, v'.state x = .zombie ↔ v.state x = .zombie := by
    intro x
    rcases hzombified.state with ⟨heq, hwakes⟩ | ⟨heq, -⟩
    · rw [heq]
      exact update_eq_iff (by rw [hwakes.1]; decide) (by decide) x
    · rw [heq]
  have hdead : ∀ x, v'.dead x = true ↔ x = p ∨ v.dead x = true := by
    intro x
    rw [hview]
    by_cases hx : x = p
    · simp [hx]
    · simp [hx]
  have hchild : ∀ c ∈ v.childs p, v.father c = p := fun c hc =>
    (hcore.family.child p c hzombified.ne_one hc).2.1
  have hnot : ∀ c ∈ v.toDestroy, v.father c ≠ p := fun c hc heq =>
    hpr (heq.symm.trans (h.living c hc (by rw [heq]; exact hp) (by rw [heq]; exact halive)))
  have hkept : ∀ c, (c ∈ v.childs p → v.dead c = true) → v'.father c = v.father c := by
    intro c hc
    rw [hview]
    refine if_neg ?_
    rintro ⟨hmem, hfalse⟩
    rw [hc hmem] at hfalse
    cases hfalse
  have hself : p ∉ v.childs p := fun hmem => hcore.family.proper p hused (hchild p hmem)
  have hold : ∀ c ∈ v.toDestroy, v'.father c = v.father c := fun c hc =>
    hkept c fun hmem => absurd (hchild c hmem) (hnot c hc)
  have hnew : ∀ c ∈ (v.childs p).filter v.dead, v'.father c = p ∧ v.isSealed c = false ∧
      v.dead c = true := by
    intro c hc
    obtain ⟨hmem, hdeadc⟩ := List.mem_filter.mp hc
    exact ⟨(hkept c fun _ => hdeadc).trans (hchild c hmem),
      hzombified.unsealed c hmem hdeadc, hdeadc⟩
  have hmem : ∀ c, c ∈ v'.toDestroy → c ∈ v.toDestroy ∨ c ∈ (v.childs p).filter v.dead ∨
      c = p ∧ v.closes p := by
    intro c hc
    rcases hzombified.toDestroy with ⟨heq, -⟩ | ⟨heq, hcloses⟩
    · rw [heq, List.mem_append] at hc
      rcases hc with hc | hc
      · exact .inl hc
      · exact .inr (.inl hc)
    · rw [heq, List.mem_append, List.mem_append, List.mem_singleton] at hc
      rcases hc with (hc | hc) | hc
      · exact .inl hc
      · exact .inr (.inl hc)
      · exact .inr (.inr ⟨hc, hcloses⟩)
  have hfirst : (v.toDestroy ++ (v.childs p).filter v.dead).Pairwise
      fun a b => v'.father a ≠ b := by
    rw [List.pairwise_append]
    refine ⟨List.Pairwise.imp_of_mem (fun {a b} ha _ hab => by rwa [hold a ha]) h.order, ?_, ?_⟩
    · refine List.Pairwise.imp_of_mem (fun {a b} ha hb _ heq => ?_)
        (hcore.family.nodup p hzombified.ne_one |>.filter _)
      rw [(hnew a ha).1] at heq
      subst heq
      exact hself (List.mem_filter.mp hb).1
    · intro a ha c hc heq
      rw [hold a ha] at heq
      obtain ⟨-, hunsealed, hdeadc⟩ := hnew c hc
      rw [← heq] at hunsealed hdeadc
      refine h.kept a ha hdeadc hunsealed ?_
      rw [heq, hchild c (List.mem_filter.mp hc).1]
      exact hp
  constructor
  · intro c hc hstate halive'
    rcases hmem c hc with hc | hc | ⟨rfl, hcloses⟩
    · rw [hold c hc] at hstate halive' ⊢
      refine h.living c hc ((hzombie _).mp hstate) (eq_false_of_ne_true fun hdead' => ?_)
      rw [(hdead _).mpr (.inr hdead')] at halive'
      cases halive'
    · rw [(hnew c hc).1, (hdead p).mpr (.inl rfl)] at halive'
      cases halive'
    · have hfather := hkept c fun hmem => absurd hmem hself
      rw [hfather] at hstate ⊢
      rcases (hspares hcloses).2 with hone | hr
      · rw [hone, hzombie] at hstate
        exact absurd hstate hinit
      · exact hr
  · rcases hzombified.toDestroy with ⟨heq, -⟩ | ⟨heq, hcloses⟩
    · rw [heq]
      exact hfirst
    · rw [heq, List.pairwise_append]
      refine ⟨hfirst, List.pairwise_singleton _ _, ?_⟩
      intro a ha b hb heq
      rw [List.mem_singleton.mp hb] at heq
      rcases List.mem_append.mp ha with ha | ha
      · rw [hold a ha] at heq
        exact hnot a ha heq
      · obtain ⟨hmem, hdeada⟩ := List.mem_filter.mp ha
        rw [(hspares hcloses).1 a hmem] at hdeada
        cases hdeada
  · intro c hc hdead' hunsealed hstate
    rcases hmem c hc with hc | hc | ⟨rfl, hcloses⟩
    · rw [hold c hc] at hdead' hunsealed hstate
      rcases (hdead _).mp hdead' with heq | hdeado
      · exact hnot c hc heq
      · rw [hkept _ fun _ => hdeado, hzombie] at hstate
        refine h.kept c hc hdeado (eq_false_of_ne_true fun hsealed => ?_) hstate
        rw [(hzombified.sealed_iff _).mpr (.inl hsealed)] at hunsealed
        cases hunsealed
    · rw [(hnew c hc).1] at hunsealed hstate
      rw [hkept p fun hmem => absurd hmem hself, hzombie] at hstate
      have hunsealed' : v.isSealed p = false := eq_false_of_ne_true fun hsealed => by
        rw [(hzombified.sealed_iff p).mpr (.inl hsealed)] at hunsealed
        cases hunsealed
      rw [(hzombified.sealed_iff p).mpr (.inr (.inr ⟨rfl, hunsealed', .inl hstate⟩))] at hunsealed
      cases hunsealed
    · rw [hkept c fun hmem => absurd hmem hself] at hdead'
      rcases (hdead _).mp hdead' with heq | hdeado
      · exact hcore.family.proper c hused heq
      · rcases (hspares hcloses).2 with hone | hr
        · rw [hone] at hdeado
          exact hinit (hcore.pending.dead_zombie 1 hdeado)
        · rw [hr, hcore.pending.running_alive] at hdeado
          cases hdeado

theorem zombifies_of_take {stack : ArrayStack Int} (hsafe : Safe s r)
    (hphase : phaseOf s.control = some .zombify)
    (htake : takePending s.pidsToZombify (some r) = some (p, stack)) : zombifies s = some p := by
  cases hcontrol : s.control with
  | nil =>
      rw [hcontrol] at hphase
      cases hphase
  | cons frame rest =>
      rw [hcontrol] at hphase
      have hframe : frame = .schedule .zombify := by
        cases frame <;> simp_all [phaseOf]
      unfold zombifies
      rw [hcontrol, hframe]
      dsimp only
      rw [hsafe.inv.core.runningPid_eq, htake]
      rfl

theorem Sealing.moved (h : Sealing s r) (hsafe : Safe s r) (hinit : s.view.state 1 ≠ .zombie)
    (hspares : SparesSealed s) (hmoved : Moved step s s' r r') : Sealing s' r' := by
  have hcore := hsafe.inv.core
  have hcore' := hmoved.safe.inv.core
  have hsame : s'.view.running = some r → r' = r := fun heq =>
    Option.some.inj (hcore'.running.symm.trans heq)
  have hempty : s'.view.toDestroy = [] → Sealing s' r' := fun hnil =>
    .of_own hcore' (by simp [hnil])
  rcases hmoved.change with ⟨hphase, rfl, heffect⟩ | hturn
  · exact .of_own hcore' (heffect.ownSeals hcore (h.own (by simp [hphase]) (by simp [hphase])))
  · cases hturn with
    | pass hphase hview hlog =>
        obtain rfl := hsame (by rw [hview]; exact hcore.running)
        by_cases hnone : phaseOf s'.control = none
        · apply hempty
          rw [hview]
          exact hsafe.inv.destroyed (hphase hnone)
        · refine ⟨by rw [hview]; exact h.law, fun hzombify hdestroy => ?_⟩
          have hdecide : phaseOf s'.control = some .decide := by
            cases hphase' : phaseOf s'.control with
            | none => exact absurd hphase' hnone
            | some phase => cases phase <;> simp_all
          rw [hmoved.safe.inv.destroyed hdecide]
          simp
    | resume _ _ _ _ hview _ _ hphase =>
        obtain rfl := hsame (by rw [hview]; exact hcore.running)
        refine .of_own hcore' ?_
        rw [hview]
        exact h.own (by simp [hphase]) (by simp [hphase])
    | zombify p stack hphase hphase' htake hpr hzombified hlog =>
        obtain rfl := hsame (by rw [hzombified.view]; exact hcore.running)
        refine ⟨h.law.zombify hcore hinit hzombified hpr fun hcloses => ?_,
          fun hzombify => absurd hphase' hzombify⟩
        obtain ⟨halive, hfather⟩ := hspares p (zombifies_of_take hsafe hphase htake)
          hcloses.1 hcloses.2
        refine ⟨halive, hfather.imp_right fun heq => ?_⟩
        exact (Option.some.inj (hcore.running.symm.trans heq)).symm
    | destroy p hphase hdestroyed hlog =>
        obtain rfl := hsame (by rw [hdestroyed.view]; exact hcore.running)
        exact ⟨h.law.destroy hcore hdestroyed, fun _ hdestroy => absurd hphase hdestroy⟩
    | switch p state processQueue hphase hp hp' hr hother hview hlog =>
        apply hempty
        rw [hview]
        exact hsafe.inv.destroyed hphase

/-! ## Runs -/

theorem Sealing.not_sealsTwice (h : Sealing s r) (hcore : Core s.view r fun _ => False)
    (hinit : s.view.state 1 ≠ .zombie) : ¬SealsTwice s r := by
  rintro ⟨p, c, hp, hc, hdead, hsealed⟩
  have hmem := (hcore.pending.mem_destroy c).mpr hsealed
  have hchild : p ≠ 1 → s.view.father c = p := fun hone =>
    (hcore.family.child p c hone hc).2.1
  rcases hp with ⟨hzombify, hpr⟩ | ⟨rest, hlast⟩
  · obtain ⟨hzombie, halive⟩ := (hcore.pending.mem_zombify p).mp hzombify
    have hfather := hchild (by rintro rfl; exact hinit hzombie)
    refine hpr (hfather.symm.trans (h.law.living c hmem ?_ ?_))
    · rwa [hfather]
    · rwa [hfather]
  · have hsealedp : s.view.isSealed p = true :=
      (hcore.pending.mem_destroy p).mp (by simp [hlast])
    have hzombie := hcore.pending.sealed_zombie p hsealedp
    have hfather := hchild (by rintro rfl; exact hinit hzombie)
    have hcp : c ≠ p := by
      rintro rfl
      exact hcore.family.proper c (by rw [hzombie]; decide) hfather
    have horder := h.law.order
    rw [hlast, List.pairwise_append] at horder
    rw [hlast, List.mem_append, List.mem_singleton] at hmem
    exact horder.2.2 c (hmem.resolve_right hcp) p (by simp) hfather

/-- As long as a process that its own `zombify` seals is spared, `request_destroy` is never
called for a process that is sealed. -/
theorem sealed_once (h : Running ok s) (htame : Tame ok)
    (hkill : ∀ s step, ok s step → step.event ≠ .call (.kill 1))
    (hspares : ∀ s step, ok s step → SparesSealed s) (henabled : step.enabled s)
    (hstep : ok s step) :
    Meets (exec step s) (fun _ => True) fun e => e ≠ .requestDestroy := by
  obtain ⟨r, hsafe, ⟨hinit, hsealing⟩, hnext⟩ := h.tame
    (I := fun s r => s.view.state 1 ≠ .zombie ∧ Sealing s r) htame
    ⟨booted_init_alive, .of_own booted_safe.inv.core (fun c hc => by cases hc)⟩
    fun s step s' r r' hsafe hI hs hmoved => by
      obtain ⟨hinit, hsealing⟩ := hI
      exact ⟨hmoved.init_alive (hkill s step hs) hinit,
        hsealing.moved hsafe hinit (hspares s step hs) hmoved⟩
  refine (hnext step henabled hstep).mono (fun _ _ => trivial) fun e he heq => ?_
  subst heq
  rcases he with (hexcused | ⟨hinit', -⟩) | hexcused | ⟨hgetprio, -⟩ | hconsole
  · exact hsealing.not_sealsTwice hsafe.inv.core hinit hexcused
  · cases hinit'
  · exact hexcused
  · cases hgetprio
  · cases hconsole

/-- Process 2, a child of process 1, exits in front of process 3; it has been sealed by `zombify`
and is to be destroyed next. -/
theorem sealed_once_run : ∃ s, destroys s = some 2 ∧
    Meets (exec (Event.kernel).step s) (fun _ => True) fun e => e ≠ .requestDestroy := by
  have hrun : ∃ s, Running (fun s step => (step.event.calm = true ∧
      step.event ≠ .call (.kill 1)) ∧ SparesSealed s) s ∧
        decide (destroys s = some 2 ∧ SparesSealed s ∧ s.control ≠ []) = true :=
    Running.computed ([Event.init 4096 128, .call (.start 0x1000000 4096 100 ⟨0x1000000, 0⟩),
      .call (.exit 0), .tick].map Event.step) ([Event.tick, .kernel, .kernel].map Event.step)
      (by decide +kernel)
  obtain ⟨s, hrun, htest⟩ := hrun
  obtain ⟨hdestroys, hspares, hcontrol⟩ := of_decide_eq_true htest
  exact ⟨s, hdestroys, sealed_once hrun (.inl fun _ _ hs => hs.1.1) (fun _ _ hs => hs.1.2)
    (fun _ _ hs => hs.2) hcontrol ⟨⟨rfl, by decide⟩, hspares⟩⟩

/-- Process 2, a child of process 1, exits in front of process 4 while its child 3 is dead and has
not been waited for. -/
theorem sealed_twice_run : ∃ s, Running (fun _ step => step.orderly = true) s ∧
    (Event.kernel).step.enabled s ∧ exec (Event.kernel).step s = .error .requestDestroy := by
  have hrun : ∃ s, Running (fun _ step => step.orderly = true) s ∧
      (decide (s.control ≠ []) &&
        errorAnd (fun e => decide (e = .requestDestroy)) (exec Event.kernel.step s)) = true :=
    Running.computed ([Event.init 4096 128, .call (.start 0x1000000 4096 200 ⟨0x1000000, 0⟩),
      .call (.exit 0), .tick, .tick, .call (.start 0x1000000 4096 100 ⟨0x1000000, 0⟩),
      .call (.exit 0), .tick].map Event.step) ([Event.tick, .kernel, .kernel].map Event.step)
      (by decide +kernel)
  obtain ⟨s, hrun, htest⟩ := hrun
  rw [Bool.and_eq_true, decide_eq_true_eq] at htest
  obtain ⟨e, hexec, he⟩ := errorAnd_iff.mp htest.2
  rw [of_decide_eq_true he] at hexec
  exact ⟨s, hrun, htest.1, hexec⟩

end SchlagOS
