import SchlagOS.Invariant.Life

/-!
# Waiting for children

`waitpid` keeps the invariant, whether it returns at once, finds nothing or blocks, and
so does its end when a child has died meanwhile.
-/

namespace SchlagOS

open Foundation

variable {s : Kernel} {step : Step} {r c : Int}

/-! ## Children -/

/-- The list of a process other than 1 holds its unreaped children. -/
theorem Core.unreaped_mem {v : View} {except : Int → Prop} {f : Int} (h : Core v r except)
    (hf : v.state f ≠ .unset) (hone : f ≠ 1) (hc : v.unreaped f c) : c ∈ v.childs f := by
  obtain ⟨hused, hfather, -⟩ := hc
  have hc1 : c ≠ 1 := by
    intro heq
    rw [heq, h.family.root] at hfather
    have hpos := (h.isPid hf).1
    rw [← hfather] at hpos
    exact absurd hpos (by decide)
  rcases h.family.father_mem c hused hc1 with hroot | ⟨-, hmem⟩
  · exact absurd (hfather.symm.trans hroot) hone
  · rwa [hfather] at hmem

theorem scanChildren_meets {cs : List Int} {n : Nat} (hcs : ∀ c ∈ cs, IsPid c) :
    Meets (scanChildren s cs n)
      (fun result => n ≤ result.2 ∧
        match result.1 with
        | some c => c ∈ cs ∧ s.view.isSealed c = false ∧ s.view.state c = .zombie
        | none => (∀ c ∈ cs, s.view.isSealed c = false → s.view.state c ≠ .zombie) ∧
            (n < result.2 ↔ ∃ c ∈ cs, s.view.isSealed c = false))
      (fun _ => False) := by
  induction cs generalizing n with
  | nil => simp [scanChildren]
  | cons c cs ih =>
      have hcs' : ∀ x ∈ cs, IsPid x := fun x hx => hcs x (List.mem_cons_of_mem _ hx)
      rw [scanChildren, getProcess_eq (hcs c (by simp)), ok_bind, meets_ite]
      refine ⟨fun hsealed => ?_, fun hsealed => ?_⟩
      · have hsealed' : s.view.isSealed c = false := hsealed
        rw [meets_ite]
        refine ⟨fun hzombie => ?_, fun hzombie => ?_⟩
        · rw [meets_pure]
          exact ⟨le_refl n, by simp, hsealed, hzombie⟩
        · have hzombie' : s.view.state c ≠ .zombie := hzombie
          refine (ih hcs').mono ?_ fun e he => he
          rintro ⟨found, m⟩ ⟨hle, hfound⟩
          dsimp only at hle hfound ⊢
          refine ⟨by omega, ?_⟩
          cases found with
          | some x => exact ⟨List.mem_cons_of_mem _ hfound.1, hfound.2⟩
          | none =>
              refine ⟨?_, iff_of_true (by omega) ⟨c, by simp, hsealed'⟩⟩
              intro x hx hxsealed
              rcases List.mem_cons.mp hx with rfl | hx
              · exact hzombie'
              · exact hfound.1 x hx hxsealed
      · have hsealed' : ¬s.view.isSealed c = false := hsealed
        refine (ih hcs').mono ?_ fun e he => he
        rintro ⟨found, m⟩ ⟨hle, hfound⟩
        dsimp only at hle hfound ⊢
        refine ⟨hle, ?_⟩
        cases found with
        | some x => exact ⟨List.mem_cons_of_mem _ hfound.1, hfound.2⟩
        | none =>
            refine ⟨?_, ?_⟩
            · intro x hx hxsealed
              rcases List.mem_cons.mp hx with rfl | hx
              · exact absurd hxsealed hsealed'
              · exact hfound.1 x hx hxsealed
            · rw [hfound.2]
              constructor
              · rintro ⟨x, hx, hxsealed⟩
                exact ⟨x, List.mem_cons_of_mem _ hx, hxsealed⟩
              · rintro ⟨x, hx, hxsealed⟩
                rcases List.mem_cons.mp hx with rfl | hx
                · exact absurd hxsealed hsealed'
                · exact ⟨x, hx, hxsealed⟩

/-! ## The delivery of a dead child -/

theorem waitpidReap_meets {request : Int} (h : Settled s r) (hunreaped : s.view.unreaped r c)
    (hzombie : s.view.state c = .zombie) (hrequest : request < 0 ∨ request = c)
    (retvalp : Destination) :
    Meets (waitpidReap s request c retvalp) (fun s' => After step s s' r)
      (Excused False False) := by
  obtain ⟨hused, hfather, hsealed⟩ := hunreaped
  have hgetpid := h.core.getpid_eq
  have hcr : c ≠ r := by
    intro heq
    rw [heq, h.running] at hzombie
    cases hzombie
  obtain ⟨receiver, hrest₁⟩ := s.rest_store retvalp (s.data c).returnCode
  have hview₁ := s.view_store retvalp (s.data c).returnCode
  have hcore₁ : Core (s.store retvalp (s.data c).returnCode).view r fun _ => False := by
    rw [hview₁]
    exact h.core
  have hzombie₁ : (s.store retvalp (s.data c).returnCode).view.state c = .zombie := by
    rwa [hview₁]
  have hawake : ∀ frame,
      ((s.store retvalp (s.data c).returnCode).view.state
        ((s.store retvalp (s.data c).returnCode).view.father c)).Active →
      ((s.store retvalp (s.data c).returnCode).view.call
        ((s.store retvalp (s.data c).returnCode).view.father c)).head? = some frame →
      frame.isWaitpid = false := by
    rw [hview₁, hfather, h.call_eq]
    exact fun frame _ hframe => (plain_of_outer h.outer frame hframe).1
  unfold waitpidReap
  rw [hgetpid]
  dsimp only
  rw [meets_bind]
  refine (requestDestroy_meets hcore₁ hzombie₁ hcr hawake).mono ?_ ?_
  · rintro s₂ ⟨hrest₂, hcore₂, -, hview₂⟩
    rw [hview₁] at hview₂
    rw [hrest₁] at hrest₂
    rw [meets_pure]
    have hcontrol : s₂.control = s.control := congrArg Rest.control hrest₂
    have hlog : (s₂.record (.reaped r request c (s.data c).returnCode)).log =
        s.log.record (.reaped r request c (s.log.returnCode c)) := by
      unfold Kernel.log
      rw [Kernel.rest_record, hrest₂]
      rfl
    have hafter := h.after step (s₂.record (.reaped r request c (s.data c).returnCode)) hcore₂
      (fun p hp => .inr ⟨by rwa [Kernel.view_record, hview₂] at hp,
        congrFun (congrArg Rest.context hrest₂) p⟩)
      (by
        rw [Kernel.view_record, hview₂]
        change s.view.state r ≠ _ ∧ s.view.state r ≠ _
        rw [h.running]
        decide)
      false none c (by simp) (by simp)
      (.inr (by rw [Kernel.view_record, hview₂]; exact h.running))
      (by rw [Kernel.view_record, hview₂]; exact h.alive)
      (by
        rw [hlog, Kernel.view_record, hview₂]
        exact .reap ⟨hused, hfather, hsealed⟩ hzombie hrequest (h.plain_top (by simp)))
      (.inr (by
        rw [Kernel.view_record, hview₂]
        exact fun hlaw => hlaw))
    rw [← hcontrol] at hafter
    exact hafter
  · refine fun e he => he.mono ?_ id
    rw [hview₁, hsealed]
    exact fun heq => by cases heq

/-! ## waitpid -/

/-- `waitpid` returns at once because there is nobody to wait for. -/
private theorem noChild_after {request : Int} (h : Settled s r)
    (hnone : ¬s.view.awaits r request) :
    After step s ((s.record (.noChild r request)).ret (-1)) r :=
  h.after step (s.record (.noChild r request)) h.core (fun p hp => .inr ⟨hp, rfl⟩)
    (by rw [Kernel.view_record, h.running]; decide) false none (-1) (by simp) (by simp)
    (.inr h.running) h.alive (.noChild hnone (h.plain_top (by simp))) (.inr fun hlaw => hlaw)

/-- `waitpid` blocks. -/
private theorem waits_after {request code : Int} {frame : Frame} (h : Settled s r)
    (hone : r ≠ 1)
    (hframe : (∃ pid retvalp, frame = .waitpidOne pid retvalp ∧ code = pid ∧ 0 < pid) ∨
      ∃ pid retvalp, frame = .waitpidAny pid retvalp ∧ code = -1 ∧ pid < 0)
    (hcode : code = request ∧ 0 < request ∨ code = -1 ∧ request < 0)
    (hliving : ∀ c, s.view.unreaped r c → code < 0 ∨ code = c → s.view.state c ≠ .zombie)
    (hawaits : (∀ x, s.view.state x = .unset → s.view.pid x = processNotFoundCode) →
      s.view.awaits r request) :
    After step s
      (((s.update r fun p =>
        { p with state := .blockedByChild, waitingCode := code }).record
          (.waits r request)).callSchedule [frame]) r := by
  have hwaitpid : frame.isWaitpid = true ∧ frame.isSchedule = false := by
    rcases hframe with ⟨pid, retvalp, rfl, -⟩ | ⟨pid, retvalp, rfl, -⟩
    · exact ⟨rfl, rfl⟩
    · exact ⟨rfl, rfl⟩
  set s₁ := (s.update r fun p =>
    { p with state := .blockedByChild, waitingCode := code }).record (.waits r request) with hs₁
  have hview : s₁.view = { s.view with
      state := Function.update s.view.state r .blockedByChild
      code := Function.update s.view.code r code } := by
    rw [hs₁, Kernel.view_record, s.view_update r _ rfl]
    simp
  have hrest : s₁.rest = s.rest.record (.waits r request) := by
    have hupdate := s.rest_update r
      (fun p => { p with state := .blockedByChild, waitingCode := code }) rfl
    exact congrArg (fun rest => rest.record (.waits r request)) hupdate
  have hlog : s₁.log = s.log.record (.waits r request) := by
    unfold Kernel.log
    rw [hrest]
    rfl
  have hne : ∀ b : ProcessState, b ≠ .running → s.view.state r ≠ b :=
    fun b hb heq => hb (heq.symm.trans h.running)
  have hnone : ∀ p ∈ s.view.toZombify, s.view.father p = r → s.view.isSealed p = false →
      ¬(code < 0 ∨ code = p) := by
    intro p hp hfather hsealed hmatch
    have hzombie := ((h.core.pending.mem_zombify p).mp hp).1
    exact hliving p ⟨by rw [hzombie]; decide, hfather, hsealed⟩ hmatch hzombie
  have hcore := h.core.block (b := .blockedByChild) h.running hone (by decide)
    (h.core.waits.block s.control hone hframe hnone)
    (h.core.locked.move (hne _ (by decide)) (by decide) (frame :: s.control)) (fun _ => rfl)
    (h.core.sleepers.move (hne _ (by decide)) (by decide))
  have hafter := h.finish step s₁ true (some frame) s₁.eax
    (by rintro f ⟨⟩; exact hwaitpid.2)
    (by rw [hview]; exact hcore)
    (by
      intro p hp
      rw [hview] at hp
      refine .inr ⟨?_, congrFun (congrArg Rest.context hrest) p⟩
      by_cases hpr : p = r
      · rw [hpr]
        exact h.core.self
      · simpa [hpr] using hp)
    (fun heq => absurd heq hone) (.inl ⟨rfl, hone⟩) (by rw [hview]; exact h.alive)
    (by
      rw [hlog, hview]
      exact .waits hawaits hcode hliving hwaitpid.1)
    (.inl rfl)
  exact hafter

/-- What `waitpid` finds: nobody to wait for, a dead child, or only living ones. -/
theorem waitpid_cases (h : Settled s r) (hone : r ≠ 1) (pid : Int) (retvalp : Destination) :
    (¬s.view.awaits r pid ∧ waitpid s pid retvalp = .ok ((s.record (.noChild r pid)).ret (-1))) ∨
      (∃ c, s.view.unreaped r c ∧ s.view.state c = .zombie ∧ (pid < 0 ∨ pid = c) ∧
        waitpid s pid retvalp = waitpidReap s pid c retvalp) ∨
      ∃ code frame, ((∃ pid retvalp, frame = Frame.waitpidOne pid retvalp ∧ code = pid ∧ 0 < pid) ∨
          ∃ pid retvalp, frame = Frame.waitpidAny pid retvalp ∧ code = -1 ∧ pid < 0) ∧
        (code = pid ∧ 0 < pid ∨ code = -1 ∧ pid < 0) ∧
        (∀ c, s.view.unreaped r c → code < 0 ∨ code = c → s.view.state c ≠ .zombie) ∧
        ((∀ x, s.view.state x = .unset → s.view.pid x = processNotFoundCode) →
          s.view.awaits r pid) ∧
        waitpid s pid retvalp = .ok (((s.update r fun p =>
          { p with state := .blockedByChild, waitingCode := code }).record
            (.waits r pid)).callSchedule [frame]) := by
  have hgetpid := h.core.getpid_eq
  unfold waitpid
  rw [hgetpid]
  dsimp only
  by_cases hneg : pid < 0
  · rw [if_pos hneg]
    have hchilds : s.running.childsPids = s.view.childs r := by
      rw [h.core.running_eq]
      rfl
    have hcs : ∀ c ∈ s.view.childs r, IsPid c := fun c hc =>
      h.core.isPid (h.core.family.child r c hone hc).1
    obtain ⟨⟨found, nbChilds⟩, hscan, -, hfound⟩ :=
      (scanChildren_meets (s := s) (n := 0) hcs).exists_ok
    rw [hchilds, hscan, ok_bind]
    cases found with
    | some c =>
        obtain ⟨hc, hsealed, hzombie⟩ := hfound
        obtain ⟨hused, hfather, -⟩ := h.core.family.child r c hone hc
        have hcpid : (s.data c).pid = c := h.core.pid_eq hused
        dsimp only
        rw [hcpid]
        exact .inr (.inl ⟨c, ⟨hused, hfather, hsealed⟩, hzombie, .inl hneg, rfl⟩)
    | none =>
        obtain ⟨hnozombie, hcount⟩ := hfound
        have hawaits : s.view.awaits r pid ↔ 0 < nbChilds := by
          rw [hcount]
          unfold View.awaits
          rw [if_pos hneg]
          constructor
          · rintro ⟨c, hc⟩
            exact ⟨c, h.core.unreaped_mem h.core.self hone hc, hc.2.2⟩
          · rintro ⟨c, hc, hsealed⟩
            obtain ⟨hused, hfather, -⟩ := h.core.family.child r c hone hc
            exact ⟨c, hused, hfather, hsealed⟩
        dsimp only
        by_cases hpos : 0 < nbChilds
        · rw [if_pos hpos]
          refine .inr (.inr ⟨-1, .waitpidAny pid retvalp, .inr ⟨pid, retvalp, rfl, rfl, hneg⟩,
            .inr ⟨rfl, hneg⟩, ?_, fun _ => hawaits.mpr hpos, rfl⟩)
          intro p hp _
          exact hnozombie p (h.core.unreaped_mem h.core.self hone hp) hp.2.2
        · rw [if_neg hpos]
          exact .inl ⟨fun hawaits' => hpos (hawaits.mp hawaits'), rfl⟩
  · rw [if_neg hneg]
    have hawaits : s.view.awaits r pid ↔ s.view.unreaped r pid := by
      unfold View.awaits
      rw [if_neg hneg]
    by_cases hrange : pid < 1 ∨ (processTableMaxSize : Int) < pid
    · rw [if_pos hrange]
      refine .inl ⟨fun hawaits' => ?_, rfl⟩
      have hpid := h.core.isPid (hawaits.mp hawaits').1
      obtain ⟨hpos, hle⟩ := hpid
      omega
    · have hpid : IsPid pid := by
        constructor <;> omega
      rw [if_neg hrange, getProcess_eq hpid, ok_bind]
      by_cases hnone : (s.data pid).pid = processNotFoundCode ∨ (s.data pid).sealed = true ∨
          (s.data pid).fatherPid ≠ r
      · rw [if_pos hnone]
        refine .inl ⟨fun hawaits' => ?_, rfl⟩
        obtain ⟨hused, hfather, hsealed⟩ := hawaits.mp hawaits'
        rcases hnone with hnopid | hsealed' | hfather'
        · have hpidp : (s.data pid).pid = pid := h.core.pid_eq hused
          have hpos := hpid.1
          rw [hpidp] at hnopid
          rw [hnopid] at hpos
          exact absurd hpos (by decide)
        · have hsealed'' : s.view.isSealed pid = true := hsealed'
          rw [hsealed] at hsealed''
          cases hsealed''
        · exact hfather' hfather
      · rw [if_neg hnone]
        obtain ⟨hsomepid, hunsealed, hfather⟩ : (s.data pid).pid ≠ processNotFoundCode ∧
            s.view.isSealed pid = false ∧ s.view.father pid = r := by
          refine ⟨fun heq => hnone (.inl heq), ?_, ?_⟩
          · exact eq_false_of_ne_true fun heq => hnone (.inr (.inl heq))
          · by_contra heq
            exact hnone (.inr (.inr heq))
        by_cases hzombie : (s.data pid).state = .zombie
        · rw [if_pos hzombie]
          have hzombie' : s.view.state pid = .zombie := hzombie
          exact .inr (.inl ⟨pid, ⟨by rw [hzombie']; decide, hfather, hunsealed⟩, hzombie',
            .inr rfl, rfl⟩)
        · rw [if_neg hzombie]
          refine .inr (.inr ⟨pid, .waitpidOne pid retvalp, .inl ⟨pid, retvalp, rfl, rfl, hpid.1⟩,
            .inl ⟨rfl, hpid.1⟩, ?_, fun hpids => ?_, rfl⟩)
          · intro p _ hcode
            rcases hcode with hcode | hcode
            · exact absurd hpid.1 (by omega)
            · rwa [← hcode]
          · exact hawaits.mpr ⟨fun hunset => hsomepid (hpids pid hunset), hfather, hunsealed⟩

theorem waitpid_meets (h : Settled s r) (hone : r ≠ 1) (pid : Int) (retvalp : Destination) :
    Meets (waitpid s pid retvalp) (fun s' => After step s s' r) (Excused False False) := by
  rcases waitpid_cases h hone pid retvalp with ⟨hnone, heq⟩ |
    ⟨c, hunreaped, hzombie, hrequest, heq⟩ |
    ⟨code, frame, hframe, hcode, hliving, hawaits, heq⟩
  · rw [heq, meets_ok]
    exact noChild_after h hnone
  · rw [heq]
    exact waitpidReap_meets h hunreaped hzombie hrequest retvalp
  · rw [heq, meets_ok]
    exact waits_after h hone hframe hcode hliving hawaits

/-! ## The end of a call that blocked -/

/-- A process that goes on in `waitpid` finds a child to deliver. -/
theorem Woken.unreaped {frame : Frame} (h : Settled s r)
    (hwoken : Woken s.view.father s.view.dead s.view.isSealed (s.view.code r) r frame) :
    s.view.unreaped r (s.view.code r) ∧ s.view.state (s.view.code r) = .zombie := by
  have hzombie := h.core.pending.dead_zombie _ hwoken.dead_eq
  refine ⟨⟨?_, hwoken.father_eq, hwoken.sealed_eq⟩, hzombie⟩
  rw [hzombie]
  decide

theorem waitpidAnyResume_eq {request : Int} {retvalp : Destination} (h : Settled s r)
    (hunreaped : s.view.unreaped r (s.view.code r)) :
    waitpidAnyResume s request retvalp = waitpidReap s request (s.view.code r) retvalp := by
  have hpid := h.core.isPid hunreaped.1
  have hcode : s.running.waitingCode = s.view.code r := by
    rw [h.core.running_eq]
    rfl
  have hpidp : (s.data (s.view.code r)).pid = s.view.code r := h.core.pid_eq hunreaped.1
  have hsome : (s.data (s.view.code r)).pid ≠ processNotFoundCode := by
    rw [hpidp]
    have hpos := hpid.1
    unfold processNotFoundCode
    omega
  unfold waitpidAnyResume
  rw [hcode, getProcess_eq hpid, ok_bind, require_pos hsome, ok_bind, hpidp]

theorem waitpidAnyResume_meets {request : Int} {retvalp : Destination} (h : Settled s r)
    (hwoken : Woken s.view.father s.view.dead s.view.isSealed (s.view.code r) r
      (.waitpidAny request retvalp)) :
    Meets (waitpidAnyResume s request retvalp) (fun s' => After step s s' r)
      (Excused False False) := by
  obtain ⟨hunreaped, hzombie⟩ := hwoken.unreaped h
  rw [waitpidAnyResume_eq h hunreaped]
  exact waitpidReap_meets h hunreaped hzombie (.inl (hwoken.request.2 _ _ rfl)) retvalp

theorem waitpidOneResume_meets {pid : Int} {retvalp : Destination} (h : Settled s r)
    (hwoken : Woken s.view.father s.view.dead s.view.isSealed (s.view.code r) r
      (.waitpidOne pid retvalp)) :
    Meets (waitpidReap s pid pid retvalp) (fun s' => After step s s' r)
      (Excused False False) := by
  obtain ⟨hunreaped, hzombie⟩ := hwoken.unreaped h
  rw [hwoken.request.1 _ _ rfl]
  exact waitpidReap_meets h hunreaped hzombie (.inr rfl) retvalp

end SchlagOS
