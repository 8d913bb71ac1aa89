import SchlagOS.Invariant.Kin

/-!
# No lost wake-up

A process that waits for a child has an unsealed child that it waits for, and
none of those is dead: `waitpid` blocks only when it found no dead one, and the
`zombify` of the first one that dies wakes the father.
-/

namespace SchlagOS

open Foundation

variable {s s' : Kernel} {step : Step} {r r' p f c : Int} {v v' : View} {log log' : Log}

/-- `c` is a child that `f` waits for. -/
def View.awaited (v : View) (f c : Int) : Prop :=
  v.unreaped f c ∧ (v.code f < 0 ∨ v.code f = c)

/-- The slots that are not in use have no pid. -/
def Blank (v : View) : Prop := ∀ x, v.state x = .unset → v.pid x = processNotFoundCode

/-! ## One step -/

theorem Kin.unset (h : Kin r v v') (hp : v'.state p = .unset) : v.state p = .unset := by
  cases h with
  | same hused _ _ _ _ _ => exact (hused p).mp hp
  | born q hfree _ hstate _ _ _ _ _ =>
      rw [hstate, Function.update_apply] at hp
      split at hp
      · cases hp
      · exact hp
  | delivered c _ _ hstate _ _ _ _ _ => rwa [hstate] at hp

/-- A primitive gives a pid to the process that it starts only. -/
theorem Effect.pid_eq (heffect : Effect step r v log v' log')
    (hmem : step.event.starts v.currentSize →
      step.mem.kernelStack = true ∧ step.mem.userStack = true)
    (hp : v'.state p = .unset) : v'.pid p = v.pid p := by
  cases heffect
  case start q _ _ _ _ _ hfree hqr hsize horder hframes =>
    dsimp only at hp ⊢
    have hpq : p ≠ q := by
      rintro rfl
      rw [Function.update_self] at hp
      cases hp
    exact Function.update_of_ne hpq _ _
  case startFails hstarts hfails hfree hpr horder horder' hwasted hframes =>
    rw [(hmem hstarts).1, (hmem hstarts).2] at hfails
    simp at hfails
  all_goals rfl

/-- What `waitpid` of `r` has found when it blocks. -/
structure Asked (v v' : View) (r : Int) : Prop where
  some : Blank v → ∃ c, v.unreaped r c ∧ (v'.code r < 0 ∨ v'.code r = c)
  living : ∀ c, v.unreaped r c → v'.code r < 0 ∨ v'.code r = c → v.state c ≠ .zombie

theorem Effect.asks (heffect : Effect step r v log v' log')
    (hf : v'.state f = .blockedByChild) :
    (v.state f = .blockedByChild ∧ v'.code f = v.code f) ∨ (f = r ∧ Asked v v' r) := by
  have hmove : ∀ (x : Int) (b : ProcessState), b ≠ .blockedByChild →
      Function.update v.state x b f = .blockedByChild → v.state f = .blockedByChild := by
    intro x b hb hx
    rw [Function.update_apply] at hx
    split at hx
    · exact absurd hx hb
    · exact hx
  cases heffect
  case waits request code frame frames hawaits hcode hliving hframe =>
    dsimp only at hf
    by_cases hfr : f = r
    · refine .inr ⟨hfr, ?_, ?_⟩
      · intro hblank
        have hsome := hawaits hblank
        unfold View.awaits at hsome
        rcases hcode with ⟨rfl, hpos⟩ | ⟨rfl, hneg⟩
        · rw [if_neg (by omega)] at hsome
          exact ⟨code, hsome, .inr (Function.update_self _ _ _)⟩
        · rw [if_pos hneg] at hsome
          obtain ⟨c, hc⟩ := hsome
          refine ⟨c, hc, .inl ?_⟩
          dsimp only
          rw [Function.update_self]
          decide
      · intro c hc hmatch
        dsimp only at hmatch
        rw [Function.update_self] at hmatch
        exact hliving c hc hmatch
    · rw [Function.update_of_ne hfr] at hf
      exact .inl ⟨hf, Function.update_of_ne hfr _ _⟩
  case alarm hstate hsleep hframes =>
    dsimp only at hf
    rcases hstate f with heq | ⟨-, hnew⟩
    · exact .inl ⟨heq ▸ hf, rfl⟩
    · rw [hnew] at hf
      cases hf
  case reset hlive hevent hpids hstate hreleases hwaiters hmessages hframes =>
    dsimp only at hf
    rw [hstate] at hf
    split at hf
    · cases hf
    · exact .inl ⟨hf, rfl⟩
  case start => exact .inl ⟨hmove _ _ (by decide) hf, rfl⟩
  case exit => exact .inl ⟨hmove _ _ (by decide) hf, rfl⟩
  case kill => exact .inl ⟨hmove _ _ (by decide) hf, rfl⟩
  case sleeps => exact .inl ⟨hmove _ _ (by decide) hf, rfl⟩
  case hand => exact .inl ⟨hmove _ _ (by decide) hf, rfl⟩
  case swap => exact .inl ⟨hmove _ _ (by decide) hf, rfl⟩
  case blockSend => exact .inl ⟨hmove _ _ (by decide) hf, rfl⟩
  case blockReceive => exact .inl ⟨hmove _ _ (by decide) hf, rfl⟩
  all_goals exact .inl ⟨hf, rfl⟩

theorem Turn.asks (hturn : Turn r s s') (hf : s'.view.state f = .blockedByChild) :
    s.view.state f = .blockedByChild ∧ s'.view.code f = s.view.code f := by
  cases hturn with
  | pass _ hview _ =>
      rw [hview] at hf ⊢
      exact ⟨hf, rfl⟩
  | resume _ _ _ _ hview _ _ =>
      rw [hview] at hf ⊢
      exact ⟨hf, rfl⟩
  | zombify p stack _ _ _ _ hzombified _ =>
      rcases hzombified.state with ⟨heq, hwakes⟩ | ⟨heq, hwakes⟩
      · rw [heq, Function.update_apply] at hf
        split_ifs at hf with hne
        refine ⟨hf, ?_⟩
        rcases hzombified.code with heq' | ⟨-, heq'⟩
        · rw [heq']
        · rw [heq', Function.update_of_ne hne]
      · rw [heq] at hf
        rcases hzombified.code with heq' | ⟨hwakes', -⟩
        · exact ⟨hf, by rw [heq']⟩
        · exact absurd hwakes' hwakes
  | destroy p _ hdestroyed _ =>
      rw [hdestroyed.view] at hf ⊢
      dsimp only at hf ⊢
      have hne : f ≠ p := by
        rintro rfl
        rw [Function.update_self] at hf
        cases hf
      rw [Function.update_of_ne hne] at hf ⊢
      exact ⟨hf, rfl⟩
  | switch p state processQueue _ hp hp' hr hother hview _ =>
      rw [hview] at hf ⊢
      dsimp only at hf ⊢
      refine ⟨?_, rfl⟩
      by_cases hfp : f = p
      · rw [hfp, hp'] at hf
        cases hf
      · by_cases hfr : f = r
        · rw [hfr, hr] at hf
          split at hf
          · cases hf
          · rwa [hfr]
        · rwa [hother f hfp hfr] at hf

/-! ## The invariant -/

/-- `f` waits for a child, and no child that it waits for is dead. -/
structure Attended (v : View) (f : Int) : Prop where
  living : ∀ c, v.awaited f c → v.dead c = false
  some : ∃ c, v.awaited f c

structure AllAttended (v : View) : Prop where
  blank : Blank v
  attended : ∀ f, v.state f = .blockedByChild → Attended v f

/-- `f` goes on waiting for the same children, and none of them dies. -/
structure Undisturbed (v v' : View) (f : Int) : Prop where
  blocked : v.state f = .blockedByChild
  code : v'.code f = v.code f
  unreaped : ∀ c, v'.unreaped f c ↔ v.unreaped f c
  dead : ∀ c, v.awaited f c → v'.dead c = v.dead c

theorem Undisturbed.attended (hf : Undisturbed v v' f) (h : AllAttended v) : Attended v' f := by
  have hawaited : ∀ c, v'.awaited f c ↔ v.awaited f c := by
    intro c
    unfold View.awaited
    rw [hf.unreaped, hf.code]
  have hold := h.attended f hf.blocked
  constructor
  · intro c hc
    have hc' := (hawaited c).mp hc
    rw [hf.dead c hc']
    exact hold.living c hc'
  · obtain ⟨c, hc⟩ := hold.some
    exact ⟨c, (hawaited c).mpr hc⟩

theorem Asked.attended (hf : Asked v v' r) (hcore : Core v r fun _ => False) (h : Blank v)
    (hunreaped : ∀ c, v'.unreaped r c ↔ v.unreaped r c) (hdead : v'.dead = v.dead) :
    Attended v' r := by
  constructor
  · intro c hc
    rw [hdead]
    exact hcore.pending.dead_eq_false (hf.living c ((hunreaped c).mp hc.1) hc.2)
  · obtain ⟨c, hc, hmatch⟩ := hf.some h
    exact ⟨c, (hunreaped c).mpr hc, hmatch⟩

theorem AllAttended.effect (h : AllAttended v) (hcore : Core v r fun _ => False)
    (hrunning : v.state r = .running)
    (hmem : step.mem.kernelStack = true ∧ step.mem.userStack = true)
    (heffect : Effect step r v log v' log') : AllAttended v' := by
  have hkin := heffect.kin hcore fun _ => hmem
  refine ⟨fun x hx => (heffect.pid_eq (fun _ => hmem) hx).trans (h.blank x (hkin.unset hx)), ?_⟩
  intro f hf
  have hself : v'.state r = .running →
      f ≠ r ∧ v.state f = .blockedByChild ∧ v'.code f = v.code f := by
    intro hr
    have hfr : f ≠ r := by
      rintro rfl
      rw [hr] at hf
      cases hf
    rcases heffect.asks hf with hold | ⟨heq, -⟩
    · exact ⟨hfr, hold⟩
    · exact absurd heq hfr
  cases hkin with
  | same hused hfather _ hdead hsealed _ =>
      have hunreaped : ∀ f c, v'.unreaped f c ↔ v.unreaped f c := by
        intro f c
        unfold View.unreaped
        rw [ne_eq, hused c, hfather, hsealed]
      rcases heffect.asks hf with ⟨hold, hcode⟩ | ⟨rfl, hasked⟩
      · have hsame : Undisturbed v v' f :=
          ⟨hold, hcode, hunreaped f, fun c _ => by rw [hdead]⟩
        exact hsame.attended h
      · exact hasked.attended hcore h.blank (hunreaped f) hdead
  | born p hfree hpr hstate hfather _ hdead hsealed _ =>
      obtain ⟨hfr, hold, hcode⟩ := hself (by rwa [hstate, Function.update_of_ne hpr.symm])
      have hother : ∀ c, c ≠ p → (v'.unreaped f c ↔ v.unreaped f c) := by
        intro c hcp
        unfold View.unreaped
        rw [hstate, hfather, hsealed, Function.update_of_ne hcp, Function.update_of_ne hcp]
      have hnot : ¬v'.unreaped f p := by
        rintro ⟨-, hfp, -⟩
        rw [hfather, Function.update_self] at hfp
        exact hfr hfp.symm
      have hnot' : ¬v.unreaped f p := fun hp => hp.1 hfree.2
      have hsame : Undisturbed v v' f := by
        refine ⟨hold, hcode, fun c => ?_, fun c hc => ?_⟩
        · by_cases hcp : c = p
          · rw [hcp]
            exact iff_of_false hnot hnot'
          · exact hother c hcp
        · have hcp : c ≠ p := by
            rintro rfl
            exact hnot' hc.1
          rw [hdead, Function.update_of_ne hcp]
      exact hsame.attended h
  | delivered c hreaped _ hstate hfather _ hdead hsealed _ =>
      obtain ⟨hfr, hold, hcode⟩ := hself (by rwa [hstate])
      have hsame : Undisturbed v v' f := by
        refine ⟨hold, hcode, fun x => ?_, fun x _ => by rw [hdead]⟩
        unfold View.unreaped
        rw [hstate, hfather, hsealed]
        by_cases hxc : x = c
        · have hfather' : v.father x ≠ f := by
            rw [hxc, hreaped.2.1]
            exact hfr.symm
          exact iff_of_false (fun hx => hfather' hx.2.1) fun hx => hfather' hx.2.1
        · rw [Function.update_of_ne hxc]
      exact hsame.attended h

/-- The zombie that `zombify` takes wakes its father if he waits for it. -/
theorem Zombified.undisturbed (h : Zombified v v' p) (hcore : Core v r fun _ => False)
    (hold : v.state f = .blockedByChild) (hf : v'.state f = .blockedByChild)
    (hcode : v'.code f = v.code f) : Undisturbed v v' f := by
  have hzombie : v.state p = .zombie :=
    ((hcore.pending.mem_zombify p).mp (h.perm.mem_iff.mpr (by simp))).1
  have hfp : f ≠ p := by
    rintro rfl
    rw [hzombie] at hold
    cases hold
  have hf1 : f ≠ 1 := by
    rintro rfl
    exact hcore.waits.init.1 hold
  have hchild : ∀ c ∈ v.childs p, v.father c ≠ f := fun c hc => by
    rw [(hcore.family.child p c h.ne_one hc).2.1]
    exact hfp.symm
  have hfather : ∀ c, v'.father c = f ↔ v.father c = f := by
    intro c
    rw [h.view]
    dsimp only
    unfold adopted
    split_ifs with hc
    · exact iff_of_false hf1.symm (hchild c hc.1)
    · exact Iff.rfl
  have hsealed : ∀ c, v.father c = f → (v'.isSealed c = false ↔ v.isSealed c = false) := by
    intro c hc
    rw [← Bool.not_eq_true, ← Bool.not_eq_true, h.sealed_iff]
    apply not_congr
    refine ⟨?_, .inl⟩
    rintro (hsealed | ⟨hmem, -⟩ | ⟨rfl, -, hcloses⟩)
    · exact hsealed
    · exact absurd hc (hchild c hmem)
    · rw [hc, hold] at hcloses
      rcases hcloses with hcloses | hcloses
      · cases hcloses
      · exact absurd hcloses hf1
  have hnot : ¬v.awaited f p := by
    rintro ⟨⟨-, hpf, hpsealed⟩, hmatch⟩
    have hwakes : v.wakes p := by
      unfold View.wakes
      rw [hpf]
      exact ⟨hold, hpsealed, hmatch⟩
    rcases h.state with ⟨heq, -⟩ | ⟨-, hasleep⟩
    · rw [heq, hpf, Function.update_self] at hf
      cases hf
    · exact hasleep hwakes
  refine ⟨hold, hcode, fun c => ?_, fun c hc => ?_⟩
  · unfold View.unreaped
    rw [ne_eq, h.used c, hfather c]
    constructor
    · rintro ⟨hused, hc, hcsealed⟩
      exact ⟨hused, hc, (hsealed c hc).mp hcsealed⟩
    · rintro ⟨hused, hc, hcsealed⟩
      exact ⟨hused, hc, (hsealed c hc).mpr hcsealed⟩
  · have hcp : c ≠ p := by
      rintro rfl
      exact hnot hc
    rw [h.view]
    exact Function.update_of_ne hcp _ _

/-- A process that is destroyed has been sealed. -/
theorem Destroyed.undisturbed (h : Destroyed v v' p) (hcore : Core v r fun _ => False)
    (hold : v.state f = .blockedByChild) (hcode : v'.code f = v.code f) :
    Undisturbed v v' f := by
  have hsealed : v.isSealed p = true := by
    apply (hcore.pending.mem_destroy p).mp
    rw [h.last]
    simp
  have hnot : ¬v.unreaped f p := by
    rintro ⟨-, -, hunsealed⟩
    rw [hsealed] at hunsealed
    cases hunsealed
  have hview := h.view
  refine ⟨hold, hcode, fun c => ?_, fun c hc => ?_⟩
  · by_cases hcp : c = p
    · have hnot' : ¬v'.unreaped f p := by
        rintro ⟨hused, -⟩
        rw [hview] at hused
        exact hused (Function.update_self _ _ _)
      rw [hcp]
      exact iff_of_false hnot' hnot
    · unfold View.unreaped
      rw [hview]
      dsimp only
      rw [Function.update_of_ne hcp, Function.update_of_ne hcp, Function.update_of_ne hcp]
  · have hcp : c ≠ p := by
      rintro rfl
      exact hnot hc.1
    rw [hview]
    exact Function.update_of_ne hcp _ _

theorem Turn.undisturbed (hturn : Turn r s s') (hcore : Core s.view r fun _ => False)
    (hf : s'.view.state f = .blockedByChild) : Undisturbed s.view s'.view f := by
  obtain ⟨hold, hcode⟩ := hturn.asks hf
  cases hturn with
  | pass _ hview _ =>
      rw [hview]
      exact ⟨hold, rfl, fun _ => Iff.rfl, fun _ _ => rfl⟩
  | resume _ _ _ _ hview _ _ =>
      rw [hview]
      exact ⟨hold, rfl, fun _ => Iff.rfl, fun _ _ => rfl⟩
  | zombify p stack _ _ _ _ hzombified _ => exact hzombified.undisturbed hcore hold hf hcode
  | destroy p _ hdestroyed _ => exact hdestroyed.undisturbed hcore hold hcode
  | switch p state processQueue _ hp hp' hr hother hview _ =>
      have hused : ∀ x, state x = .unset ↔ s.view.state x = .unset :=
        switched_iff (by decide) hp hp' hr hother
      rw [hview]
      refine ⟨hold, rfl, fun c => ?_, fun _ _ => rfl⟩
      unfold View.unreaped
      rw [ne_eq, hused c]

theorem Turn.blank (hturn : Turn r s s') (h : Blank s.view) : Blank s'.view := by
  intro x hx
  cases hturn with
  | pass _ hview _ =>
      rw [hview] at hx ⊢
      exact h x hx
  | resume _ _ _ _ hview _ _ =>
      rw [hview] at hx ⊢
      exact h x hx
  | zombify p stack _ _ _ _ hzombified _ =>
      rw [hzombified.view]
      exact h x ((hzombified.used x).mp hx)
  | destroy p _ hdestroyed _ =>
      rw [hdestroyed.view] at hx ⊢
      dsimp only at hx ⊢
      rw [Function.update_apply] at hx ⊢
      split_ifs with hne
      · rfl
      · rw [if_neg hne] at hx
        exact h x hx
  | switch p state processQueue _ hp hp' hr hother hview _ =>
      rw [hview] at hx ⊢
      exact h x ((switched_iff (by decide) hp hp' hr hother x).mp hx)

theorem AllAttended.moved (h : AllAttended s.view) (hsafe : Safe s r)
    (hs : step.orderly = true) (hmoved : Moved step s s' r r') : AllAttended s'.view := by
  have hmem := Step.orderly_iff.mp hs
  have hcore := hsafe.inv.core
  rcases hmoved.change with ⟨hphase, -, heffect⟩ | hturn
  · exact h.effect hcore (hsafe.inv.running (.inl hphase)) ⟨hmem.2.1, hmem.2.2.1⟩ heffect
  · exact ⟨hturn.blank h.blank, fun f hf => (hturn.undisturbed hcore hf).attended h⟩

theorem booted_attended : AllAttended booted.view := by
  have hother : ∀ x, x ≠ 1 → booted.data x = noProcess := fun x hx =>
    Function.update_of_ne hx _ _
  refine ⟨fun x hx => ?_, fun f hf => ?_⟩
  · by_cases hone : x = 1
    · rw [hone] at hx
      cases hx
    · have hpid : (booted.data x).pid = processNotFoundCode := by rw [hother x hone]; rfl
      exact hpid
  · by_cases hone : f = 1
    · rw [hone] at hf
      cases hf
    · have hstate : (booted.data f).state = .blockedByChild := hf
      rw [hother f hone] at hstate
      cases hstate

/-! ## Runs -/

/-- `c` is an unsealed child of `f` that the `waitpid` of `f` is waiting for. -/
structure Awaited (s : Kernel) (f c : Int) : Prop where
  used : (s.data c).state ≠ .unset
  father : (s.data c).fatherPid = f
  unsealed : (s.data c).sealed = false
  request : (s.data f).waitingCode < 0 ∨ (s.data f).waitingCode = c

theorem no_lost_wakeup (h : Running (fun _ step => step.orderly = true) s)
    (hzombify : s.pidsToZombify.entries = [])
    (hblocked : (s.data f).state = .blockedByChild) :
    (∃ c ∈ (s.data f).childsPids, Awaited s f c) ∧
      ∀ c, Awaited s f c → (s.data c).state ≠ .zombie := by
  obtain ⟨r, hsafe, -, hall⟩ := h.orderly (I := fun s _ => AllAttended s.view)
    (fun s step hs => hs) booted_attended
    fun s step s' r r' hsafe _ hall hs hmoved => hall.moved hsafe hs hmoved
  have hcore := hsafe.inv.core
  have hattended := hall.attended f hblocked
  have hone : f ≠ 1 := by
    rintro rfl
    exact hcore.waits.init.1 hblocked
  have hused : s.view.state f ≠ .unset := by
    have hblocked' : s.view.state f = .blockedByChild := hblocked
    rw [hblocked']
    decide
  constructor
  · obtain ⟨c, hc, hmatch⟩ := hattended.some
    exact ⟨c, hcore.unreaped_mem hused hone hc, hc.1, hc.2.1, hc.2.2, hmatch⟩
  · intro c hc hzombie
    have hdead := hattended.living c ⟨⟨hc.used, hc.father, hc.unsealed⟩, hc.request⟩
    have hmem : c ∈ s.view.toZombify := (hcore.pending.mem_zombify c).mpr ⟨hzombie, hdead⟩
    have hnil : s.view.toZombify = [] := hzombify
    rw [hnil] at hmem
    exact List.not_mem_nil hmem

/-- A run in which process 2 waits for any child while process 3 runs. -/
theorem no_lost_wakeup_run : ∃ s, (∃ c ∈ (s.data 2).childsPids, Awaited s 2 c) ∧
    ∀ c, Awaited s 2 c → (s.data c).state ≠ .zombie := by
  have hrun : ∃ s, Running (fun _ step => step.orderly = true) s ∧
      decide (s.pidsToZombify.entries = [] ∧ (s.data 2).state = .blockedByChild) = true :=
    Running.computed ([Event.init 4096 128, .call (.start 0x1000000 4096 100 ⟨0x1000000, 0⟩),
      .call (.waitpid (-1) 0)].map Event.step) [] (by decide +kernel)
  obtain ⟨s, hrun, htest⟩ := hrun
  obtain ⟨hzombify, hblocked⟩ := of_decide_eq_true htest
  exact ⟨s, no_lost_wakeup hrun hzombify hblocked⟩

end SchlagOS
