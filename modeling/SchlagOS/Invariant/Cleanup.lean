import SchlagOS.Invariant.Core
import SchlagOS.Invariant.Stacks

/-!
# The clean-up

What the functions of process.c behind `clean_processes` do to the tables, as
equations between the views before and after, and that the invariant holds on
the way.  An assertion can fail here only in the ways that `Excused` lists.
-/

namespace SchlagOS

open Foundation

/-- The panics that the invariant does not exclude, two of them on a condition:
a process is sealed twice, a process is taken out of a queue it is not in. -/
def Excused (sealedTwice notLinked : Prop) : Panic → Prop
  | .requestDestroy => sealedTwice
  | .queueDel => notLinked
  | .childNode => True
  | .processNode => True
  | .lockedProcesses => True
  | .nullDereference => True
  | _ => False

theorem Excused.mono {a b a' b' : Prop} (ha : a → a') (hb : b → b') {e : Panic}
    (h : Excused a b e) : Excused a' b' e := by
  cases e
  case requestDestroy => exact ha h
  case queueDel => exact hb h
  all_goals exact h

/-- What the clean-up leaves alone, but for the stacks. -/
structure Rest where
  control : List Frame
  history : List HistoryEvent
  resetReleases : Int → Bool
  stdinFid : Int
  inter : Nat
  context : Int → List Frame
  returnCode : Int → Int
  sleepTime : Int → Nat
  receiver : Int → Int
  stackData : Stacks

def Kernel.rest (s : Kernel) : Rest where
  control := s.control
  history := s.history
  resetReleases := s.resetReleases
  stdinFid := s.stdinFid
  inter := s.inter
  context := fun p => (s.data p).executionContext
  returnCode := fun p => (s.data p).returnCode
  sleepTime := fun p => (s.data p).sleepTime
  receiver := fun p => (s.data p).receiver
  stackData := s.stackData

/-- A write to the slot of a process. -/
theorem Kernel.rest_write (s : Kernel) (p : Int) (f : Process → Process) :
    (s.update p f).rest = { s.rest with
      context := Function.update s.rest.context p (f (s.data p)).executionContext
      returnCode := Function.update s.rest.returnCode p (f (s.data p)).returnCode
      sleepTime := Function.update s.rest.sleepTime p (f (s.data p)).sleepTime
      receiver := Function.update s.rest.receiver p (f (s.data p)).receiver
      stackData := { s.rest.stackData with
        kernelStack := Function.update s.rest.stackData.kernelStack p
          (f (s.data p)).kernelStack
        userStack := Function.update s.rest.stackData.userStack p (f (s.data p)).userStack
        userStackSize := Function.update s.rest.stackData.userStackSize p
          (f (s.data p)).userStackSize } } := by
  unfold Kernel.rest Kernel.stackData Kernel.update
  dsimp only
  rw [field_update Process.executionContext, field_update Process.returnCode,
    field_update Process.sleepTime, field_update Process.receiver,
    field_update Process.kernelStack, field_update Process.userStack,
    field_update Process.userStackSize]

namespace Rest

variable (s : Kernel) (p : Int)

@[simp] theorem update_context_self :
    Function.update s.rest.context p (s.data p).executionContext = s.rest.context :=
  Function.update_eq_self p s.rest.context

@[simp] theorem update_returnCode_self :
    Function.update s.rest.returnCode p (s.data p).returnCode = s.rest.returnCode :=
  Function.update_eq_self p s.rest.returnCode

@[simp] theorem update_sleepTime_self :
    Function.update s.rest.sleepTime p (s.data p).sleepTime = s.rest.sleepTime :=
  Function.update_eq_self p s.rest.sleepTime

@[simp] theorem update_receiver_self :
    Function.update s.rest.receiver p (s.data p).receiver = s.rest.receiver :=
  Function.update_eq_self p s.rest.receiver

@[simp] theorem update_kernelStack_self :
    Function.update s.rest.stackData.kernelStack p (s.data p).kernelStack =
      s.rest.stackData.kernelStack := Function.update_eq_self p s.rest.stackData.kernelStack

@[simp] theorem update_userStack_self :
    Function.update s.rest.stackData.userStack p (s.data p).userStack =
      s.rest.stackData.userStack := Function.update_eq_self p s.rest.stackData.userStack

@[simp] theorem update_userStackSize_self :
    Function.update s.rest.stackData.userStackSize p (s.data p).userStackSize =
      s.rest.stackData.userStackSize := Function.update_eq_self p s.rest.stackData.userStackSize

end Rest

/-- The fields of a slot that `Rest` shows. -/
def Process.kept (q : Process) : List Frame × Int × Nat × Int × Option Nat × Option Nat × Nat :=
  (q.executionContext, q.returnCode, q.sleepTime, q.receiver, q.kernelStack, q.userStack,
    q.userStackSize)

theorem Kernel.rest_update (s : Kernel) (p : Int) (f : Process → Process)
    (hkept : (f (s.data p)).kept = (s.data p).kept) : (s.update p f).rest = s.rest := by
  simp only [Process.kept, Prod.mk.injEq] at hkept
  obtain ⟨hcontext, hcode, hsleep, hreceiver, hkernel, huser, hsize⟩ := hkept
  rw [s.rest_write, hcontext, hcode, hsleep, hreceiver, hkernel, huser, hsize]
  simp

def Rest.record (rest : Rest) (event : HistoryEvent) : Rest :=
  { rest with history := rest.history ++ [event] }

theorem Kernel.rest_record (s : Kernel) (event : HistoryEvent) :
    (s.record event).rest = s.rest.record event := rfl

/-- A result that goes to a local variable of a process changes that one only. -/
theorem Kernel.rest_store (s : Kernel) (destination : Destination) (value : Int) :
    ∃ receiver, (s.store destination value).rest = { s.rest with receiver := receiver } := by
  cases destination with
  | null => exact ⟨_, rfl⟩
  | user address => exact ⟨_, rfl⟩
  | receiver pid =>
      refine ⟨Function.update s.rest.receiver pid value, ?_⟩
      have hrest := s.rest_write pid fun p => { p with receiver := value }
      simp only [Rest.update_context_self, Rest.update_returnCode_self,
        Rest.update_sleepTime_self, Rest.update_kernelStack_self, Rest.update_userStack_self,
        Rest.update_userStackSize_self] at hrest
      exact hrest

theorem getProcess_eq {s : Kernel} {p : Int} (hp : IsPid p) :
    getProcess s p = .ok (s.data p) := by
  have hrange : 0 < p ∧ p ≤ (processTableMaxSize : Int) := hp
  unfold getProcess
  rw [require_pos hrange]
  rfl

theorem pushPending_eq {stack : ArrayStack Int} {p : Int} (hnodup : stack.entries.Nodup)
    (hpids : ∀ x ∈ stack.entries, IsPid x) (hp : IsPid p) (hnot : p ∉ stack.entries) :
    pushPending stack p = .ok (stack.push p) := by
  have hlt := length_lt_of_isPid hnodup hpids hp hnot
  rw [stack.length_entries] at hlt
  unfold pushPending
  rw [require_pos hlt]
  rfl

variable {s : Kernel} {r p c : Int} {except : Int → Prop}

theorem Core.getpid_eq (h : Core s.view r except) : s.getpid = r := by
  have hrunning : s.runningProcess = some r := h.running
  unfold Kernel.getpid
  rw [hrunning]
  exact h.pid_eq h.self

theorem Core.runningPid_eq (h : Core s.view r except) : runningPid s = some r := by
  have hrunning : s.runningProcess = some r := h.running
  unfold runningPid
  rw [hrunning, Option.map_some]
  exact congrArg some (h.pid_eq h.self)

theorem Core.running_eq (h : Core s.view r except) : s.running = s.data r := by
  have hrunning : s.runningProcess = some r := h.running
  unfold Kernel.running
  rw [hrunning]

theorem isPid_one : IsPid 1 := by
  constructor <;> decide

/-! ## request_destroy -/

theorem Core.used_of_state (h : Core s.view r except) {b : ProcessState}
    (hb : (s.data p).state = b) (hne : b ≠ .unset) :
    IsPid p ∧ (s.data p).pid = p := by
  apply h.used p
  intro heq
  exact hne (hb.symm.trans heq)

theorem requestDestroy_sealed (hpid : IsPid c) (hsealed : (s.data c).sealed = true) :
    requestDestroy s c = .error .requestDestroy := by
  unfold requestDestroy
  rw [getProcess_eq hpid, ok_bind]
  simp [require, hsealed]

theorem requestDestroy_eq (h : Core s.view r except) (hzombie : (s.data c).state = .zombie)
    (hsealed : s.view.isSealed c = false) :
    requestDestroy s c = .ok { s.update c (fun p => { p with sealed := true }) with
      pidsToDestroy := s.pidsToDestroy.push c } := by
  have hpid := (h.used_of_state hzombie (by decide)).1
  have hsealed' : (s.data c).sealed = false := hsealed
  have hnot : c ∉ s.pidsToDestroy.entries := by
    intro hmem
    have := (h.pending.mem_destroy c).mp hmem
    rw [hsealed] at this
    cases this
  have hpids : ∀ x ∈ s.pidsToDestroy.entries, IsPid x := by
    intro x hx
    have hx' := h.pending.sealed_zombie x ((h.pending.mem_destroy x).mp hx)
    exact (h.used_of_state hx' (by decide)).1
  have hpush := pushPending_eq h.pending.nodup_destroy hpids hpid hnot
  unfold requestDestroy
  rw [getProcess_eq hpid, ok_bind, require_pos hsealed', ok_bind]
  change pushPending s.pidsToDestroy c >>= _ = _
  rw [hpush, ok_bind, if_neg (by simpa using hzombie)]
  rfl

theorem requestDestroy_meets (h : Core s.view r except)
    (hzombie : (s.data c).state = .zombie) (hr : c ≠ r)
    (hfather : ∀ frame, (s.view.state (s.view.father c)).Active →
      (s.view.call (s.view.father c)).head? = some frame → frame.isWaitpid = false) :
    Meets (requestDestroy s c)
      (fun s' => s'.rest = s.rest ∧ Core s'.view r except ∧ s.view.isSealed c = false ∧
        s'.view = { s.view with
          isSealed := Function.update s.view.isSealed c true
          toDestroy := s.view.toDestroy ++ [c] })
      (Excused (s.view.isSealed c = true) False) := by
  cases hsealed : s.view.isSealed c with
  | true =>
      have hpid := (h.used_of_state hzombie (by decide)).1
      rw [requestDestroy_sealed hpid hsealed, meets_error]
      rfl
  | false =>
      have hview : { s.update c (fun p => { p with sealed := true }) with
            pidsToDestroy := s.pidsToDestroy.push c }.view =
          { s.view with
            isSealed := Function.update s.view.isSealed c true
            toDestroy := s.view.toDestroy ++ [c] } := by
        calc _ = { (s.update c (fun p => { p with sealed := true })).view with
              toDestroy := (s.pidsToDestroy.push c).entries } := rfl
          _ = _ := by
            rw [s.view_update c _ rfl]
            simp
            rfl
      have hrest := s.rest_update c (fun p => { p with sealed := true }) rfl
      rw [requestDestroy_eq h hzombie hsealed, meets_ok]
      refine ⟨hrest, ?_, rfl, hview⟩
      rw [hview]
      exact h.close hzombie hsealed hr hfather

/-! ## Child lists -/

theorem Kernel.view_setChilds (s : Kernel) (p : Int) (g : List Int → List Int) :
    (s.update p fun q => { q with childsPids := g q.childsPids }).view =
      { s.view with childs := Function.update s.view.childs p (g (s.view.childs p)) } := by
  rw [s.view_update p _ rfl]
  simp
  rfl

theorem Kernel.view_setFather (s : Kernel) (p father : Int) :
    (s.update p fun q => { q with fatherPid := father }).view =
      { s.view with father := Function.update s.view.father p father } := by
  rw [s.view_update p _ rfl]
  simp

theorem Kernel.rest_setChilds (s : Kernel) (p : Int) (g : List Int → List Int) :
    (s.update p fun q => { q with childsPids := g q.childsPids }).rest = s.rest :=
  s.rest_update p _ rfl

theorem Kernel.rest_setFather (s : Kernel) (p father : Int) :
    (s.update p fun q => { q with fatherPid := father }).rest = s.rest :=
  s.rest_update p _ rfl

/-! ## The children of a dead process -/

/-- The fathers after the living ones of the children `cs` have gone to process 1. -/
def adopted (dead : Int → Bool) (father : Int → Int) (cs : List Int) (c : Int) : Int :=
  if c ∈ cs ∧ dead c = false then 1 else father c

/-- The seals after the dead ones of the children `cs` have been sealed. -/
def sealedWith (dead isSealed : Int → Bool) (cs : List Int) (c : Int) : Bool :=
  isSealed c || (decide (c ∈ cs) && dead c)

/-- The loop of `zombify` has been over the children `cs` of `p`. -/
structure Handed (v v' : View) (p : Int) (cs : List Int) : Prop where
  view : v' = { v with
    father := adopted v.dead v.father cs
    isSealed := sealedWith v.dead v.isSealed cs
    childs := v'.childs
    toDestroy := v.toDestroy ++ cs.filter v.dead }
  childs_other : ∀ x, x ≠ 1 → x ≠ p → v'.childs x = v.childs x
  childs_self : v'.childs p = (v.childs p).filter fun c => !(decide (c ∈ cs) && !v.dead c)
  childs_eq : (∀ c ∈ cs, v.dead c = true) → v'.childs = v.childs
  unsealed : ∀ c ∈ cs, v.dead c = true → v.isSealed c = false

private theorem Handed.nil (v : View) (p : Int) : Handed v v p [] := by
  have hfather : adopted v.dead v.father [] = v.father := by
    funext c
    simp [adopted]
  have hsealed : sealedWith v.dead v.isSealed [] = v.isSealed := by
    funext c
    simp [sealedWith]
  constructor
  · rw [hfather, hsealed]
    simp
  · intro x _ _
    rfl
  · simp
  · intro _
    rfl
  · simp

/-- A dead child is sealed, then the others are handled. -/
private theorem Handed.consDead {v v₁ v₂ : View} {p c : Int} {cs : List Int}
    (hdead : v.dead c = true) (hunsealed : v.isSealed c = false) (hc : c ∉ cs)
    (hv₁ : v₁ = { v with
      isSealed := Function.update v.isSealed c true
      toDestroy := v.toDestroy ++ [c] })
    (h : Handed v₁ v₂ p cs) : Handed v v₂ p (c :: cs) := by
  subst hv₁
  have hfather : adopted v.dead v.father cs = adopted v.dead v.father (c :: cs) := by
    funext x
    by_cases hx : x = c
    · subst hx
      simp [adopted, hdead]
    · simp [adopted, hx]
  have hsealed : sealedWith v.dead (Function.update v.isSealed c true) cs =
      sealedWith v.dead v.isSealed (c :: cs) := by
    funext x
    by_cases hx : x = c
    · subst hx
      simp [sealedWith, hdead]
    · simp [sealedWith, hx]
  constructor
  · rw [h.view]
    simp [hfather, hsealed, hdead]
  · exact h.childs_other
  · rw [h.childs_self]
    apply List.filter_congr
    intro x _
    by_cases hx : x = c
    · subst hx
      simp [hdead]
    · simp [hx]
  · intro hall
    exact h.childs_eq fun x hx => hall x (List.mem_cons_of_mem c hx)
  · intro x hx hxdead
    by_cases hxc : x = c
    · rwa [hxc]
    · have hunsealed' := h.unsealed x (List.mem_of_ne_of_mem hxc hx) hxdead
      simpa [hxc] using hunsealed'

/-- A living child goes to process 1, then the others are handled. -/
private theorem Handed.consAlive {v v₁ v₂ : View} {p c : Int} {cs : List Int}
    {childs : Int → List Int} (hdead : v.dead c = false) (hc : c ∉ cs)
    (hnodup : (v.childs p).Nodup)
    (hother : ∀ x, x ≠ 1 → x ≠ p → childs x = v.childs x)
    (hself : childs p = (v.childs p).erase c)
    (hv₁ : v₁ = { v with father := Function.update v.father c 1, childs := childs })
    (h : Handed v₁ v₂ p cs) : Handed v v₂ p (c :: cs) := by
  subst hv₁
  have hfather : adopted v.dead (Function.update v.father c 1) cs =
      adopted v.dead v.father (c :: cs) := by
    funext x
    by_cases hx : x = c
    · subst hx
      simp [adopted, hdead]
    · simp [adopted, hx]
  have hsealed : sealedWith v.dead v.isSealed cs = sealedWith v.dead v.isSealed (c :: cs) := by
    funext x
    by_cases hx : x = c
    · subst hx
      simp [sealedWith, hdead]
    · simp [sealedWith, hx]
  constructor
  · rw [h.view]
    simp [hfather, hsealed, hdead]
  · intro x hx hxp
    rw [h.childs_other x hx hxp]
    exact hother x hx hxp
  · rw [h.childs_self]
    dsimp only
    rw [hself, hnodup.erase_eq_filter, List.filter_filter]
    apply List.filter_congr
    intro x _
    by_cases hx : x = c
    · subst hx
      simp [hdead]
    · simp [hx]
  · intro hall
    rw [hall c (by simp)] at hdead
    cases hdead
  · intro x hx hxdead
    have hxc : x ≠ c := by
      rintro rfl
      rw [hdead] at hxdead
      cases hxdead
    exact h.unsealed x (List.mem_of_ne_of_mem hxc hx) hxdead

/-- Nobody waits in `waitpid` for a child of a dead process. -/
theorem Core.not_awaited {v : View} (hzombie : v.state (v.father c) = .zombie) (frame : Frame)
    (hstate : (v.state (v.father c)).Active)
    (_ : (v.call (v.father c)).head? = some frame) : frame.isWaitpid = false := by
  rw [hzombie] at hstate
  exact absurd hstate (by decide)

/-- The father of `p` waits for it. -/
def View.wakes (v : View) (p : Int) : Prop :=
  v.state (v.father p) = .blockedByChild ∧ v.isSealed p = false ∧
    (v.code (v.father p) < 0 ∨ v.code (v.father p) = p)

/-- Nobody will wait for `p`. -/
def View.closes (v : View) (p : Int) : Prop :=
  v.isSealed p = false ∧ (v.state (v.father p) = .zombie ∨ v.father p = 1)

theorem zombifyChildren_meets {mem : Memory} {cs : List Int}
    (h : Core s.view r fun x => x = p) (hone : p ≠ 1) (hzombie : s.view.state p = .zombie)
    (hcs : ∀ c ∈ cs, c ∈ s.view.childs p) (hnodup : cs.Nodup) :
    Meets (zombifyChildren mem p cs s)
      (fun s' => s'.rest = s.rest ∧ (Core s'.view r fun x => x = p) ∧
        Handed s.view s'.view p cs)
      (Excused (∃ c ∈ cs, s.view.dead c = true ∧ s.view.isSealed c = true) False) := by
  induction cs generalizing s with
  | nil =>
      rw [zombifyChildren, meets_ok]
      exact ⟨rfl, h, Handed.nil s.view p⟩
  | cons c cs ih =>
      have hc := hcs c (by simp)
      obtain ⟨hused, hfather, hc1⟩ := h.family.child p c hone hc
      have hpid := h.used c hused
      have hcpid : (s.data c).pid = c := hpid.2
      rw [List.nodup_cons] at hnodup
      rw [zombifyChildren, getProcess_eq hpid.1, ok_bind]
      dsimp only
      by_cases hdead : s.view.dead c = true
      · have hdead' : (s.data c).deallocated = true := hdead
        rw [if_pos hdead', hcpid, meets_bind]
        have hczombie := h.pending.dead_zombie c hdead
        have hcr : c ≠ r := by
          rintro rfl
          rw [h.pending.running_alive] at hdead
          cases hdead
        refine (requestDestroy_meets h hczombie hcr
          (Core.not_awaited (by rwa [hfather]))).mono ?_ ?_
        · rintro s₁ ⟨hrest, hcore, hunsealed, hview⟩
          have hcs₁ : ∀ x ∈ cs, x ∈ s₁.view.childs p := by
            rw [hview]
            exact fun x hx => hcs x (List.mem_cons_of_mem _ hx)
          refine (ih hcore (by rwa [hview]) hcs₁ hnodup.2).mono ?_ ?_
          · rintro s₂ ⟨hrest', hcore', hhanded⟩
            exact ⟨hrest'.trans hrest, hcore',
              hhanded.consDead hdead hunsealed hnodup.1 hview⟩
          · refine fun e he => he.mono ?_ id
            rintro ⟨x, hx, hxdead, hxsealed⟩
            have hxc : x ≠ c := fun heq => hnodup.1 (heq ▸ hx)
            rw [hview] at hxdead hxsealed
            exact ⟨x, List.mem_cons_of_mem _ hx, hxdead, by simpa [hxc] using hxsealed⟩
        · exact fun e he => he.mono (fun hsealed => ⟨c, by simp, hdead, hsealed⟩) id
      · have halive : s.view.dead c = false := eq_false_of_ne_true hdead
        have halive' : ¬((s.data c).deallocated = true) := hdead
        rw [if_neg halive', processChildListAddHead, meets_bind, meets_bind, meets_require]
        refine ⟨fun _ => ?_, fun _ => trivial⟩
        rw [meets_pure]
        set s₁ := ((processChildListRemove s p c).update c fun q =>
          { q with fatherPid := 1 }).update 1 fun q =>
            { q with childsPids := freedPid :: q.childsPids } with hs₁
        set childs := Function.update
          (Function.update s.view.childs p ((s.view.childs p).erase c)) 1
          (freedPid :: Function.update s.view.childs p ((s.view.childs p).erase c) 1)
          with hchilds
        have hview : s₁.view =
            { s.view with father := Function.update s.view.father c 1, childs := childs } := by
          have hremove := s.view_setChilds p fun xs => xs.erase c
          rw [hs₁, Kernel.view_setChilds, Kernel.view_setFather, processChildListRemove,
            hremove]
        have hrest : s₁.rest = s.rest := by
          have hremove := s.rest_setChilds p fun xs => xs.erase c
          rw [hs₁, Kernel.rest_setChilds, Kernel.rest_setFather, processChildListRemove,
            hremove]
        have hother : ∀ x, x ≠ 1 → x ≠ p → childs x = s.view.childs x := by
          intro x hx hxp
          rw [hchilds, Function.update_of_ne hx, Function.update_of_ne hxp]
        have hself : childs p = (s.view.childs p).erase c := by
          rw [hchilds, Function.update_of_ne hone, Function.update_self]
        have hcore : Core s₁.view r fun x => x = p := by
          rw [hview]
          exact h.adopt hone hc halive hother hself
        have hcs₁ : ∀ x ∈ cs, x ∈ s₁.view.childs p := by
          intro x hx
          have hxc : x ≠ c := fun heq => hnodup.1 (heq ▸ hx)
          rw [hview]
          dsimp only
          rw [hself, List.mem_erase_of_ne hxc]
          exact hcs x (List.mem_cons_of_mem _ hx)
        refine (ih hcore (by rwa [hview]) hcs₁ hnodup.2).mono ?_ ?_
        · rintro s₂ ⟨hrest', hcore', hhanded⟩
          exact ⟨hrest'.trans hrest, hcore', hhanded.consAlive halive hnodup.1
            (h.family.nodup p hone) hother hself hview⟩
        · refine fun e he => he.mono ?_ id
          rintro ⟨x, hx, hxdead, hxsealed⟩
          rw [hview] at hxdead hxsealed
          exact ⟨x, List.mem_cons_of_mem _ hx, hxdead, hxsealed⟩

theorem wakeFather_meets (h : Core s.view r except) (hdead : s.view.dead p = true)
    (hpid : (s.data p).pid = p) (hr : s.view.wakes p → s.view.father p ≠ r) :
    Meets (wakeFather s p (s.view.father p))
      (fun s' => s'.rest = s.rest ∧ Core s'.view r except ∧
        ((s.view.wakes p ∧ ∃ queue, s'.view = { s.view with
            state := Function.update s.view.state (s.view.father p) .waiting
            code := Function.update s.view.code (s.view.father p) p
            processQueue := queue }) ∨
          (¬s.view.wakes p ∧ s' = s)))
      (Excused False False) := by
  set father := s.view.father p with hfather
  unfold wakeFather
  dsimp only
  rw [hpid]
  by_cases hwakes : s.view.wakes p
  · have hwakes' : (s.data father).state = .blockedByChild ∧ (s.data p).sealed = false ∧
        ((s.data father).waitingCode < 0 ∨ (s.data father).waitingCode = p) := hwakes
    have hblocked : s.view.state father = .blockedByChild := hwakes.1
    rw [if_pos hwakes']
    have hwaiting : (s.data father).state ≠ .waiting := by
      rw [hwakes'.1]
      decide
    obtain ⟨queue, hadd, hready⟩ := queueAdd_eq
      (f := fun q => { q with waitingCode := p, state := .waiting }) h.ready hwaiting
      (h.used_of_state hwakes'.1 (by decide)).1 fun _ => rfl
    have hview : { s.update father fun q =>
        { q with waitingCode := p, state := .waiting } with processQueue := queue }.view =
        { s.view with
          state := Function.update s.view.state father .waiting
          code := Function.update s.view.code father p
          processQueue := queue } := by
      calc _ = { (s.update father fun q =>
            { q with waitingCode := p, state := .waiting }).view with
              processQueue := queue } := rfl
        _ = _ := by
          rw [s.view_update father _ rfl]
          simp
    have hrest := s.rest_update father
      (fun q => { q with waitingCode := p, state := .waiting }) rfl
    rw [hadd, meets_ok]
    refine ⟨hrest, ?_, .inl ⟨hwakes, queue, hview⟩⟩
    rw [hview]
    exact h.wake hblocked hdead hwakes.2.1 (hr hwakes) hwakes.2.2 hready
  · have hwakes' : ¬((s.data father).state = .blockedByChild ∧ (s.data p).sealed = false ∧
        ((s.data father).waitingCode < 0 ∨ (s.data father).waitingCode = p)) := hwakes
    rw [if_neg hwakes', meets_ok]
    exact ⟨rfl, h, .inr ⟨hwakes, rfl⟩⟩

/-! ## deallocate -/

theorem Kernel.rest_clear (s : Kernel) (p : Int) {f : Process → Process}
    (hcontext : (f (s.data p)).executionContext = (s.data p).executionContext)
    (hcode : (f (s.data p)).returnCode = (s.data p).returnCode)
    (hsleep : (f (s.data p)).sleepTime = (s.data p).sleepTime)
    (hreceiver : (f (s.data p)).receiver = (s.data p).receiver)
    (hkernel : (f (s.data p)).kernelStack = none) (huser : (f (s.data p)).userStack = none)
    (hsize : (f (s.data p)).userStackSize = 0) :
    (s.update p f).rest = { s.rest with stackData := s.stackData.clear p } := by
  rw [s.rest_write, hcontext, hcode, hsleep, hreceiver, hkernel, huser, hsize]
  simp
  rfl

theorem deallocate_meets (h : Backed s.view.state s.view.dead s.stackData)
    (hused : s.view.state p ≠ .unset) (hpid : (s.data p).pid = p) (hone : p ≠ 1)
    (hdead : s.view.dead p = false) :
    Meets (deallocate s p)
      (fun s' => s'.rest = { s.rest with stackData := s.stackData.free p } ∧
        s'.view = { s.view with dead := Function.update s.view.dead p true })
      (Excused False False) := by
  have hdead' : (s.data p).deallocated = false := hdead
  have hone' : (s.data p).pid ≠ 1 := by rwa [hpid]
  obtain ⟨⟨a, ha, hkernel⟩, u, hu, hsize, huser⟩ := h.releases hone hused hdead
  have ha' : (s.data p).kernelStack = some a := ha
  have hu' : (s.data p).userStack = some u := hu
  have hsize' : (s.data p).userStackSize ≠ 0 := hsize
  have hkernel' : s.kernelBlocks.release a kernelStackSize =
      some (s.stackData.free p).kernelBlocks := hkernel
  have huser' : s.userBlocks.release u (s.data p).userStackSize =
      some (s.stackData.free p).userBlocks := huser
  have hmerge : ∀ x : Kernel,
      (x.update p fun q => { q with userStack := none, userStackSize := 0 }).update p
        (fun q => { q with kernelStack := none, deallocated := true }) =
      x.update p fun q => { q with
        userStack := none, userStackSize := 0, kernelStack := none, deallocated := true } := by
    intro x
    simp [Kernel.update]
  unfold deallocate userStackFree kernelStackFree
  dsimp only
  rw [require_pos hdead', ok_bind, if_pos hone', if_neg hsize', hu', demand_some, ok_bind,
    huser', demand_some, ok_bind, pure_eq_ok, ok_bind, pure_eq_ok, ok_bind, ha', demand_some,
    ok_bind]
  change Meets (demand (s.kernelBlocks.release a kernelStackSize) _ >>= _ >>= _) _ _
  rw [hkernel', demand_some, ok_bind, pure_eq_ok, ok_bind, meets_pure]
  set s₁ : Kernel := { s with
    userBlocks := (s.stackData.free p).userBlocks
    kernelBlocks := (s.stackData.free p).kernelBlocks } with hs₁
  set s₂ := (s₁.update p fun q => { q with userStack := none, userStackSize := 0 }).update p
    fun q => { q with kernelStack := none, deallocated := true } with hs₂
  change s₂.rest = _ ∧ s₂.view = _
  rw [hs₂, hmerge]
  constructor
  · rw [s₁.rest_clear p rfl rfl rfl rfl rfl rfl rfl]
    rfl
  · rw [s₁.view_update p _ rfl]
    simp only [Kernel.update_state_self, Kernel.update_pid_self, Kernel.update_father_self,
      Kernel.update_childs_self, Kernel.update_priority_self, Kernel.update_sealed_self,
      Kernel.update_code_self]
    rfl

/-! ## zombify -/

/-- The end of `zombify` behind the loop over the children. -/
structure Closed (v v' : View) (p : Int) : Prop where
  view : v' = { v with
    state := v'.state
    code := v'.code
    processQueue := v'.processQueue
    isSealed := v'.isSealed
    toDestroy := v'.toDestroy }
  state : v'.state = Function.update v.state (v.father p) .waiting ∧ v.wakes p ∨
    v'.state = v.state ∧ ¬v.wakes p
  code : v'.code = v.code ∨ v.wakes p ∧ v'.code = Function.update v.code (v.father p) p
  close : (v'.isSealed = Function.update v.isSealed p true ∧
      v'.toDestroy = v.toDestroy ++ [p]) ∧ v.closes p ∨
    (v'.isSealed = v.isSealed ∧ v'.toDestroy = v.toDestroy) ∧ ¬v.closes p

theorem Core.father_pid {v : View} (h : Core v r except) (hused : v.state p ≠ .unset)
    (hone : p ≠ 1) : v.state (v.father p) ≠ .unset := by
  rcases h.family.father_mem p hused hone with h1 | ⟨h1, -⟩
  · rw [h1]
    intro heq
    rcases h.init with h2 | h2 | h2
    all_goals
      rw [heq] at h2
      cases h2
  · exact h1

private theorem closing_meets (father : Int) (h : Core s.view r fun x => x = p)
    (hzombie : s.view.state p = .zombie) (hdead : s.view.dead p = true) (hone : p ≠ 1)
    (hpr : p ≠ r) (hwakes : s.view.wakes p → s.view.father p ≠ r)
    (hchilds : ∀ c ∈ s.view.childs p, s.view.dead c = true ∧ s.view.isSealed c = true)
    (hfather : father = s.view.father p) :
    Meets (do
        let s ← wakeFather s p father
        let s ←
          if (s.data p).sealed = false ∧
              ((s.data father).state = .zombie ∨ (s.data father).pid = 1) then
            requestDestroy s p
          else pure s
        return s.record (.zombified p))
      (fun s' => s'.rest = s.rest.record (.zombified p) ∧
        (Core s'.view r fun _ => False) ∧ Closed s.view s'.view p)
      (Excused False False) := by
  subst hfather
  have hused : s.view.state p ≠ .unset := by
    rw [hzombie]
    decide
  rw [meets_bind]
  refine (wakeFather_meets h hdead (h.pid_eq hused) hwakes).mono ?_ fun e he => he
  rintro s₁ ⟨hrest, hcore, hcase⟩
  have hview : s₁.view = { s.view with
      state := s₁.view.state, code := s₁.view.code, processQueue := s₁.view.processQueue } := by
    rcases hcase with ⟨-, queue, hview⟩ | ⟨-, rfl⟩
    · rw [hview]
    · rfl
  have hstate : s₁.view.state = Function.update s.view.state (s.view.father p) .waiting ∧
      s.view.wakes p ∨ s₁.view.state = s.view.state ∧ ¬s.view.wakes p := by
    rcases hcase with ⟨hwakes', queue, hview⟩ | ⟨hwakes', rfl⟩
    · rw [hview]
      exact .inl ⟨rfl, hwakes'⟩
    · exact .inr ⟨rfl, hwakes'⟩
  have hcode : s₁.view.code = s.view.code ∨
      s.view.wakes p ∧ s₁.view.code = Function.update s.view.code (s.view.father p) p := by
    rcases hcase with ⟨hwakes', queue, hview⟩ | ⟨-, rfl⟩
    · rw [hview]
      exact .inr ⟨hwakes', rfl⟩
    · exact .inl rfl
  have hzombie_iff : ∀ x, s₁.view.state x = .zombie ↔ s.view.state x = .zombie := by
    intro x
    rcases hstate with ⟨heq, hwakes'⟩ | ⟨heq, -⟩
    · rw [heq]
      exact update_eq_iff (by rw [hwakes'.1]; decide) (by decide) x
    · rw [heq]
  have hfather : s₁.view.father = s.view.father := by rw [hview]
  have hsealed : s₁.view.isSealed = s.view.isSealed := by rw [hview]
  have hpid : s₁.view.pid (s.view.father p) = s.view.father p := by
    rw [hview]
    exact h.pid_eq (h.father_pid hused hone)
  have hcondition : ((s₁.data p).sealed = false ∧
      ((s₁.data (s.view.father p)).state = .zombie ∨ (s₁.data (s.view.father p)).pid = 1)) ↔
      s.view.closes p := by
    have hpid' : (s₁.data (s.view.father p)).pid = s.view.father p := hpid
    have hsealed' : (s₁.data p).sealed = s.view.isSealed p := congrFun hsealed p
    have hzombie' : (s₁.data (s.view.father p)).state = .zombie ↔
        s.view.state (s.view.father p) = .zombie := hzombie_iff _
    rw [hpid', hsealed', hzombie']
    rfl
  have hchilds₁ : p ≠ 1 → ∀ c ∈ s₁.view.childs p,
      s₁.view.dead c = true ∧ s₁.view.isSealed c = true := by
    intro _
    rw [hview]
    exact hchilds
  have hcore' := hcore.all hchilds₁
  by_cases hcloses : s.view.closes p
  · dsimp only
    rw [if_pos (hcondition.mpr hcloses), meets_bind]
    have hawake : ∀ frame, (s₁.view.state (s₁.view.father p)).Active →
        (s₁.view.call (s₁.view.father p)).head? = some frame → frame.isWaitpid = false := by
      rcases hcloses.2 with hfz | hf1
      · have hfz' : s₁.view.state (s₁.view.father p) = .zombie := by
          rw [hfather, hzombie_iff]
          exact hfz
        exact Core.not_awaited hfz'
      · rw [hfather, hf1]
        exact fun frame _ hframe => hcore.waits.init.2 frame hframe
    refine (requestDestroy_meets hcore' ((hzombie_iff p).mpr hzombie) hpr hawake).mono ?_ ?_
    · rintro s₂ ⟨hrest₂, hcore₂, -, hview₂⟩
      rw [meets_pure]
      refine ⟨by rw [Kernel.rest_record, hrest₂, hrest], hcore₂, ?_, ?_, ?_, ?_⟩
      · rw [Kernel.view_record, hview₂, hview]
      · rw [Kernel.view_record, hview₂]
        exact hstate
      · rw [Kernel.view_record, hview₂]
        exact hcode
      · rw [Kernel.view_record, hview₂]
        refine .inl ⟨⟨?_, ?_⟩, hcloses⟩
        · rw [hview]
        · rw [hview]
    · refine fun e he => he.mono ?_ id
      rw [hsealed, hcloses.1]
      exact fun heq => by cases heq
  · dsimp only
    rw [if_neg fun hc => hcloses (hcondition.mp hc), pure_eq_ok, ok_bind, meets_pure]
    refine ⟨by rw [Kernel.rest_record, hrest], hcore', ?_, ?_, ?_, ?_⟩
    · rw [Kernel.view_record, hview]
    · rw [Kernel.view_record]
      exact hstate
    · rw [Kernel.view_record]
      exact hcode
    · rw [Kernel.view_record]
      refine .inr ⟨⟨hsealed, ?_⟩, hcloses⟩
      rw [hview]

/-- What a call of `zombify` for `p` does to the tables. -/
structure Zombified (v v' : View) (p : Int) : Prop where
  ne_one : p ≠ 1
  perm : v.toZombify.Perm (p :: v'.toZombify)
  view : v' = { v with
    state := v'.state
    father := adopted v.dead v.father (v.childs p)
    childs := v'.childs
    dead := Function.update v.dead p true
    isSealed := v'.isSealed
    code := v'.code
    toZombify := v'.toZombify
    toDestroy := v'.toDestroy
    processQueue := v'.processQueue }
  childs_other : ∀ x, x ≠ 1 → x ≠ p → v'.childs x = v.childs x
  childs_self : v'.childs p = (v.childs p).filter v.dead
  childs_eq : (∀ c ∈ v.childs p, v.dead c = true) → v'.childs = v.childs
  unsealed : ∀ c ∈ v.childs p, v.dead c = true → v.isSealed c = false
  sealed_iff : ∀ c, v'.isSealed c = true ↔ v.isSealed c = true ∨
    (c ∈ v.childs p ∧ v.dead c = true) ∨ (c = p ∧ v.closes p)
  toDestroy : v'.toDestroy = v.toDestroy ++ (v.childs p).filter v.dead ∧ ¬v.closes p ∨
    v'.toDestroy = v.toDestroy ++ (v.childs p).filter v.dead ++ [p] ∧ v.closes p
  state : v'.state = Function.update v.state (v.father p) .waiting ∧ v.wakes p ∨
    v'.state = v.state ∧ ¬v.wakes p
  code : v'.code = v.code ∨ v.wakes p ∧ v'.code = Function.update v.code (v.father p) p

/-- `zombify` has freed the stacks of `p` and been over its children; `entries` is what is left of
`pids_to_zombify`. -/
structure Parted (v w : View) (p : Int) (entries : List Int) : Prop where
  view : w = { v with
    dead := Function.update v.dead p true
    father := adopted v.dead v.father (v.childs p)
    isSealed := sealedWith v.dead v.isSealed (v.childs p)
    childs := w.childs
    toZombify := entries
    toDestroy := v.toDestroy ++ (v.childs p).filter v.dead }
  fresh : p ∉ v.childs p
  childs_other : ∀ x, x ≠ 1 → x ≠ p → w.childs x = v.childs x
  childs_self : w.childs p = (v.childs p).filter v.dead
  childs_eq : (∀ c ∈ v.childs p, v.dead c = true) → w.childs = v.childs
  unsealed : ∀ c ∈ v.childs p, v.dead c = true → v.isSealed c = false

namespace Parted

variable {v v' w w' : View} {entries : List Int}

/-- No child of `p` has lost its stacks meanwhile, `p` itself being none of them. -/
theorem of_handed (hbury : w = { v with
      dead := Function.update v.dead p true, toZombify := entries })
    (hfresh : p ∉ v.childs p) (h : Handed w w' p (v.childs p)) : Parted v w' p entries := by
  subst hbury
  have hdead : ∀ c ∈ v.childs p, Function.update v.dead p true c = v.dead c := fun c hc =>
    Function.update_of_ne (fun heq : c = p => hfresh (heq ▸ hc)) _ _
  have hfather : adopted (Function.update v.dead p true) v.father (v.childs p) =
      adopted v.dead v.father (v.childs p) := by
    funext c
    unfold adopted
    by_cases hc : c ∈ v.childs p
    · rw [hdead c hc]
    · simp [hc]
  have hsealed : sealedWith (Function.update v.dead p true) v.isSealed (v.childs p) =
      sealedWith v.dead v.isSealed (v.childs p) := by
    funext c
    unfold sealedWith
    by_cases hc : c ∈ v.childs p
    · rw [hdead c hc]
    · simp [hc]
  have hfilter : (v.childs p).filter (Function.update v.dead p true) =
      (v.childs p).filter v.dead := List.filter_congr hdead
  have hview := h.view
  dsimp only at hview
  rw [hfather, hsealed, hfilter] at hview
  refine ⟨hview, hfresh, h.childs_other, ?_, fun hall => ?_, fun c hc hcdead => ?_⟩
  · rw [h.childs_self]
    refine List.filter_congr fun c hc => ?_
    simp only [hc, decide_true, Bool.true_and, Bool.not_not]
    exact hdead c hc
  · exact h.childs_eq fun c hc => (hdead c hc).trans (hall c hc)
  · exact h.unsealed c hc ((hdead c hc).trans hcdead)

theorem state (h : Parted v w p entries) : w.state = v.state := by rw [h.view]

theorem code (h : Parted v w p entries) : w.code = v.code := by rw [h.view]

theorem dead_self (h : Parted v w p entries) : w.dead p = true := by
  rw [h.view]
  exact Function.update_self p true v.dead

theorem father_self (h : Parted v w p entries) : w.father p = v.father p := by
  rw [h.view]
  simp [adopted, h.fresh]

theorem sealed_self (h : Parted v w p entries) : w.isSealed p = v.isSealed p := by
  rw [h.view]
  simp [sealedWith, h.fresh]

theorem sealed_iff (h : Parted v w p entries) (c : Int) : w.isSealed c = true ↔
    v.isSealed c = true ∨ c ∈ v.childs p ∧ v.dead c = true := by
  rw [h.view]
  simp [sealedWith]

theorem wakes_iff (h : Parted v w p entries) : w.wakes p ↔ v.wakes p := by
  unfold View.wakes
  rw [h.father_self, h.sealed_self, h.state, h.code]

theorem closes_iff (h : Parted v w p entries) : w.closes p ↔ v.closes p := by
  unfold View.closes
  rw [h.father_self, h.sealed_self, h.state]

/-- The children that are left are dead and sealed. -/
theorem childs_sealed (h : Parted v w p entries) {c : Int} (hc : c ∈ w.childs p) :
    w.dead c = true ∧ w.isSealed c = true := by
  rw [h.childs_self, List.mem_filter] at hc
  have hne : c ≠ p := fun heq => h.fresh (heq ▸ hc.1)
  refine ⟨?_, (h.sealed_iff c).mpr (.inr hc)⟩
  rw [h.view]
  exact (Function.update_of_ne hne _ _).trans hc.2

/-- With its end, the call is complete. -/
theorem zombified (h : Parted v w p entries) (hone : p ≠ 1)
    (hperm : v.toZombify.Perm (p :: entries)) (hclosed : Closed w v' p) : Zombified v v' p := by
  have hview := hclosed.view
  rw [h.view] at hview
  refine ⟨hone, ?_, ?_, fun x hx hxp => ?_, ?_, fun hall => ?_, h.unsealed, fun c => ?_, ?_, ?_, ?_⟩
  · rw [hview]
    exact hperm
  · rw [hview]
  · rw [hview]
    exact h.childs_other x hx hxp
  · rw [hview]
    exact h.childs_self
  · rw [hview]
    exact h.childs_eq hall
  · rcases hclosed.close with ⟨⟨hsealed, -⟩, hcloses⟩ | ⟨⟨hsealed, -⟩, hcloses⟩
    · rw [h.closes_iff] at hcloses
      rw [hsealed]
      by_cases hcp : c = p
      · simp [hcp, hcloses]
      · simp [hcp, h.sealed_iff]
    · rw [h.closes_iff] at hcloses
      rw [hsealed, h.sealed_iff]
      simp [hcloses]
  · have hdestroy : w.toDestroy = v.toDestroy ++ (v.childs p).filter v.dead := by rw [h.view]
    rcases hclosed.close with ⟨⟨-, hadded⟩, hcloses⟩ | ⟨⟨-, hadded⟩, hcloses⟩
    · rw [hadded, hdestroy]
      exact .inr ⟨rfl, h.closes_iff.mp hcloses⟩
    · rw [hadded, hdestroy]
      exact .inl ⟨rfl, mt h.closes_iff.mpr hcloses⟩
  · rcases hclosed.state with ⟨hstate, hwakes⟩ | ⟨hstate, hwakes⟩
    · rw [hstate, h.father_self, h.state]
      exact .inl ⟨rfl, h.wakes_iff.mp hwakes⟩
    · rw [hstate, h.state]
      exact .inr ⟨rfl, mt h.wakes_iff.mpr hwakes⟩
  · rcases hclosed.code with hcode | ⟨hwakes, hcode⟩
    · rw [hcode, h.code]
      exact .inl rfl
    · rw [hcode, h.code, h.father_self]
      exact .inr ⟨h.wakes_iff.mp hwakes, rfl⟩

end Parted

/-- The checks of `zombify` in front of its work. -/
theorem zombify_checked {mem : Memory} (hused : IsPid p) (hfather : IsPid (s.data p).fatherPid)
    (hone : p ≠ 1) (hstate : (s.data p).state = .zombie) (hrunning : s.runningProcess ≠ some p) :
    zombify mem s p = (do
      let s₁ ← deallocate s p
      let s₂ ← zombifyChildren mem p (s.data p).childsPids s₁
      let s₃ ← wakeFather s₂ p (s.data p).fatherPid
      let s₃ ←
        if (s₃.data p).sealed = false ∧ ((s₃.data (s.data p).fatherPid).state = .zombie ∨
            (s₃.data (s.data p).fatherPid).pid = 1) then
          requestDestroy s₃ p
        else pure s₃
      return s₃.record (.zombified p)) := by
  unfold zombify
  rw [require_pos hone, ok_bind, getProcess_eq hused, ok_bind,
    require_pos ⟨hstate, hrunning⟩, ok_bind]
  dsimp only
  rw [getProcess_eq hfather, ok_bind]

theorem zombify_meets {mem : Memory} {stack : ArrayStack Int}
    (h : Core s.view r fun _ => False)
    (hbacked : Backed s.view.state s.view.dead s.stackData) (hone : p ≠ 1)
    (hperm : s.pidsToZombify.entries.Perm (p :: stack.entries)) (hpr : p ≠ r) :
    Meets (zombify mem { s with pidsToZombify := stack } p)
      (fun s' => s'.rest =
          { s.rest.record (.zombified p) with stackData := s.stackData.free p } ∧
        (Core s'.view r fun _ => False) ∧ Zombified s.view s'.view p)
      (Excused (∃ c ∈ s.view.childs p, s.view.dead c = true ∧ s.view.isSealed c = true)
        False) := by
  have hmem : p ∈ s.view.toZombify := hperm.mem_iff.mpr (by simp)
  obtain ⟨hzombie, halive⟩ := (h.pending.mem_zombify p).mp hmem
  have hused : s.view.state p ≠ .unset := by
    rw [hzombie]
    decide
  obtain ⟨hpid, hpidp⟩ := h.used p hused
  have hrunning : s.runningProcess ≠ some p := by
    have hrunningr : s.runningProcess = some r := h.running
    rw [hrunningr]
    exact fun heq => hpr (Option.some.inj heq).symm
  have hfather : IsPid (s.view.father p) := by
    rcases h.family.father_mem p hused hone with h1 | ⟨h1, -⟩
    · rw [h1]
      exact isPid_one
    · exact h.isPid h1
  have hfresh : p ∉ s.view.childs p := fun hmem =>
    h.family.proper p hused (h.family.child p p hone hmem).2.1
  set s₀ : Kernel := { s with pidsToZombify := stack } with hs₀
  rw [zombify_checked (s := s₀) hpid hfather hone hzombie hrunning, meets_bind]
  -- The stacks of `p` go first, then its children.
  refine (deallocate_meets (s := s₀) hbacked hused hpidp hone halive).mono ?_
    fun e he => he.mono False.elim id
  rintro s₁ ⟨hrest₁, hview₁⟩
  have hcore₁ : Core s₁.view r fun x => x = p := by
    rw [hview₁]
    exact h.bury hperm hpr
  have hcs₁ : ∀ c ∈ s.view.childs p, c ∈ s₁.view.childs p := by
    rw [hview₁]
    exact fun c hc => hc
  rw [meets_bind]
  refine (zombifyChildren_meets hcore₁ hone (by rwa [hview₁]) hcs₁
    (h.family.nodup p hone)).mono ?_ fun e he => he.mono ?_ id
  · rintro s₂ ⟨hrest₂, hcore₂, hhanded⟩
    have hparted : Parted s.view s₂.view p stack.entries := .of_handed hview₁ hfresh hhanded
    have hawake : s₂.view.wakes p → s₂.view.father p ≠ r := by
      rw [hparted.wakes_iff, hparted.father_self]
      rintro ⟨hblocked, hopen, hmatch⟩ heq
      rw [heq] at hblocked hmatch
      exact h.waits.running hblocked p hmem heq hopen hmatch
    refine (closing_meets (s.data p).fatherPid hcore₂ (by rwa [hparted.state]) hparted.dead_self
      hone hpr hawake (fun c hc => hparted.childs_sealed hc) hparted.father_self.symm).mono ?_
      fun e he => he.mono False.elim id
    rintro s₃ ⟨hrest₃, hcore₃, hclosed⟩
    have hrest : s₂.rest = { s.rest with stackData := s.stackData.free p } :=
      hrest₂.trans hrest₁
    exact ⟨by rw [hrest₃, hrest]; rfl, hcore₃, hparted.zombified hone hperm hclosed⟩
  · rintro ⟨c, hc, hcdead, hcsealed⟩
    have hne : c ≠ p := fun heq => hfresh (heq ▸ hc)
    rw [hview₁] at hcdead hcsealed
    exact ⟨c, hc, (Function.update_of_ne hne _ _).symm.trans hcdead, hcsealed⟩

/-! ## destroy -/

/-- What a call of `destroy` for `p` does to the tables. -/
structure Destroyed (v v' : View) (p : Int) : Prop where
  ne_one : p ≠ 1
  dead : v.dead p = true
  last : v.toDestroy = v'.toDestroy ++ [p]
  childless : v.childs p = []
  childs : v'.childs =
    Function.update v.childs (v.father p) ((v.childs (v.father p)).erase p)
  freePids : v'.freePids = v.freePids ++ [p]
  view : v' = { v with
    state := Function.update v.state p .unset
    pid := Function.update v.pid p processNotFoundCode
    father := Function.update v.father p 0
    childs := v'.childs
    priority := Function.update v.priority p 0
    dead := Function.update v.dead p false
    isSealed := Function.update v.isSealed p false
    code := Function.update v.code p 0
    call := Function.update v.call p []
    pids := v'.pids
    currentSize := uint32Pred v.currentSize
    toDestroy := v'.toDestroy }

/-- The rest of a state whose slot `p` is reset. -/
def Rest.reset (rest : Rest) (p : Int) : Rest :=
  { rest with
    context := Function.update rest.context p []
    returnCode := Function.update rest.returnCode p (-1)
    sleepTime := Function.update rest.sleepTime p 0
    receiver := Function.update rest.receiver p 0
    stackData := rest.stackData.clear p }

theorem Kernel.rest_reset (s : Kernel) (p : Int) :
    (s.update p fun _ => noProcess).rest = s.rest.reset p :=
  s.rest_write p _

/-- The children of a dead process are sealed already, so the loop fails at the
first one. -/
theorem destroyChildren_meets {mem : Memory} {cs : List Int}
    (hcs : ∀ c ∈ cs, c ≠ p ∧ IsPid c ∧ (s.data c).pid = c ∧
      (s.data c).deallocated = true ∧ (s.data c).sealed = true) :
    Meets (destroyChildren mem p cs s) (fun s' => s' = s ∧ cs = [])
      (Excused (cs ≠ []) False) := by
  cases cs with
  | nil =>
      rw [destroyChildren, meets_ok]
      exact ⟨rfl, rfl⟩
  | cons c cs =>
      obtain ⟨hcp, hpid, hcpid, hdead, hsealed⟩ := hcs c (by simp)
      have hdata : (s.update p fun q => { q with childsPids := cs }).data c = s.data c := by
        rw [Kernel.data_update, if_neg hcp]
      have hsealed' : ((s.update p fun q => { q with childsPids := cs }).data c).sealed =
          true := by rwa [hdata]
      rw [destroyChildren, getProcess_eq hpid, ok_bind, hdata]
      dsimp only
      rw [if_pos hdead, hcpid, requestDestroy_sealed hpid hsealed', error_bind, meets_error]
      exact List.cons_ne_nil c cs

theorem Core.currentSize_pos {v : View} (h : Core v r except) (hp : v.state p ≠ .unset) :
    0 < v.currentSize := by
  have hnot : p ∉ v.pids.toList processTableMaxSize (processTableMaxSize - v.currentSize) := by
    rw [h.pidPool.mem_iff]
    exact fun hfree => hp hfree.2
  have hlt := length_lt_of_isPid h.pidPool.nodup
    (fun x hx => ((h.pidPool.mem_iff x).mp hx).1) (h.isPid hp) hnot
  rw [Pool.length_toList] at hlt
  omega

/-- The slot of `p` is reset, and `pids` is the ring of the free pids. -/
def Kernel.vacate (s : Kernel) (p : Int) (pids : LockedRing Int) : Kernel :=
  let s := { s with pids := pids, currentSize := uint32Pred s.currentSize }.update p
    fun _ => noProcess
  { s with processQueue := s.processQueue.clear p }.record (.destroyed p)

theorem Kernel.rest_vacate (s : Kernel) (p : Int) (pids : LockedRing Int) :
    (s.vacate p pids).rest = (s.rest.reset p).record (.destroyed p) := by
  have hreset := Kernel.rest_reset
    { s with pids := pids, currentSize := uint32Pred s.currentSize } p
  exact congrArg (fun rest => rest.record (.destroyed p)) hreset

theorem Kernel.view_vacate {pids : LockedRing Int} (hrunning : s.runningProcess ≠ some p)
    (hclear : s.processQueue.clear p = s.processQueue) (hchilds : s.view.childs p = []) :
    (s.vacate p pids).view =
      { s.view with
        state := Function.update s.view.state p .unset
        pid := Function.update s.view.pid p processNotFoundCode
        father := Function.update s.view.father p 0
        priority := Function.update s.view.priority p 0
        dead := Function.update s.view.dead p false
        isSealed := Function.update s.view.isSealed p false
        code := Function.update s.view.code p 0
        call := Function.update s.view.call p []
        pids := pids
        currentSize := uint32Pred s.view.currentSize } := by
  have hnone : Function.update s.view.childs p [] = s.view.childs :=
    Function.update_eq_self_iff.mpr hchilds.symm
  have hclear' : ({ s with pids := pids, currentSize := uint32Pred s.currentSize }.update p
      fun _ => noProcess).processQueue.clear p = s.processQueue := hclear
  unfold Kernel.vacate
  dsimp only
  rw [hclear', Kernel.view_record]
  set s₁ : Kernel := { s with pids := pids, currentSize := uint32Pred s.currentSize } with hs₁
  have hview₁ : s₁.view =
      { s.view with pids := pids, currentSize := uint32Pred s.view.currentSize } := rfl
  change (s₁.update p fun _ => noProcess).view = _
  rw [s₁.view_update_other p _ hrunning, hview₁]
  simp only [noProcess, base_nil, hnone]

/-- The checks of `destroy` in front of the loop over the children. -/
theorem destroy_checked {mem : Memory} (hpid : IsPid p) (hfather : IsPid (s.data p).fatherPid)
    (hone : p ≠ 1) (hstate : (s.data p).state ≠ .running) (hrunning : s.runningProcess ≠ some p) :
    destroy mem s p = (do
      let s₁ := processChildListRemove s (s.data p).fatherPid p
      let s₁ ← destroyChildren mem p (s₁.data p).childsPids s₁
      let s₁ ← processTableUnregister s₁ p
      let s₁ ←
        if (s₁.data p).deallocated = false then deallocate s₁ p
        else do
          require ((s₁.data p).userStack = none ∧ (s₁.data p).userStackSize = 0 ∧
            (s₁.data p).kernelStack = none) .destroyStacks
          pure s₁
      let s₁ := s₁.update p fun _ => noProcess
      let s₁ := { s₁ with processQueue := s₁.processQueue.clear p }
      return s₁.record (.destroyed p)) := by
  unfold destroy
  rw [require_pos hone, ok_bind, getProcess_eq hpid, ok_bind, require_pos ⟨hstate, hrunning⟩,
    ok_bind]
  dsimp only
  rw [getProcess_eq hfather, ok_bind]

/-- Behind the loop over the children, for a process that has lost its stacks. -/
theorem destroyEnd_eq {pids : LockedRing Int}
    (hpush : s.pids.push processTableMaxSize p = some pids) (hdead : (s.data p).deallocated = true)
    (hfreed : (s.data p).userStack = none ∧ (s.data p).userStackSize = 0 ∧
      (s.data p).kernelStack = none) :
    (do
      let s₁ ← processTableUnregister s p
      let s₁ ←
        if (s₁.data p).deallocated = false then deallocate s₁ p
        else do
          require ((s₁.data p).userStack = none ∧ (s₁.data p).userStackSize = 0 ∧
            (s₁.data p).kernelStack = none) .destroyStacks
          pure s₁
      let s₁ := s₁.update p fun _ => noProcess
      let s₁ := { s₁ with processQueue := s₁.processQueue.clear p }
      return s₁.record (.destroyed p)) = .ok (s.vacate p pids) := by
  have hdead' : ¬(s.data p).deallocated = false := by
    rw [hdead]
    decide
  unfold processTableUnregister
  rw [hpush, demand_some, ok_bind, pure_eq_ok, ok_bind]
  dsimp only
  rw [if_neg hdead', require_pos hfreed, ok_bind, pure_eq_ok, ok_bind]
  rfl

/-- The children of a dead process are dead and sealed, also behind the change in the list of its
father. -/
theorem Core.orphans (h : Core s.view r fun _ => False) (hone : p ≠ 1)
    (hdead : s.view.dead p = true) (father : Int) {c : Int} (hc : c ∈ s.view.childs p) :
    c ≠ p ∧ IsPid c ∧ ((processChildListRemove s father p).data c).pid = c ∧
      ((processChildListRemove s father p).data c).deallocated = true ∧
      ((processChildListRemove s father p).data c).sealed = true := by
  obtain ⟨hused, hcfather, -⟩ := h.family.child p c hone hc
  obtain ⟨hcdead, hcsealed⟩ := h.closed p c hone (fun hfalse => hfalse) hdead hc
  obtain ⟨hcpid, hcpidc⟩ := h.used c hused
  refine ⟨fun heq => h.family.proper c hused (hcfather.trans heq.symm), hcpid, ?_⟩
  unfold processChildListRemove
  rw [Kernel.data_update]
  by_cases hcf : c = father
  · subst hcf
    rw [if_pos rfl]
    exact ⟨hcpidc, hcdead, hcsealed⟩
  · rw [if_neg hcf]
    exact ⟨hcpidc, hcdead, hcsealed⟩

/-- Behind `clean_processes`' first loop, the last pending pid is that of a process that has lost its
stacks, is not the running one, and is not init. -/
theorem Core.destroyable (h : Core s.view r fun _ => False) (hinit : s.view.dead 1 = false)
    (hmem : p ∈ s.view.toDestroy) (hphase : ∀ x ∈ s.view.toZombify, x = r) :
    s.view.state p = .zombie ∧ s.view.dead p = true ∧ p ≠ r ∧ p ≠ 1 := by
  have hsealed := (h.pending.mem_destroy p).mp hmem
  have hzombie := h.pending.sealed_zombie p hsealed
  have hpr := h.pending.sealed_ne p hsealed
  have hdead : s.view.dead p = true := by
    by_contra halive
    have hpending : p ∈ s.view.toZombify :=
      (h.pending.mem_zombify p).mpr ⟨hzombie, eq_false_of_ne_true halive⟩
    exact hpr (hphase p hpending)
  refine ⟨hzombie, hdead, hpr, ?_⟩
  rintro rfl
  rw [hinit] at hdead
  cases hdead

theorem destroy_meets {mem : Memory} {stack : ArrayStack Int}
    (h : Core s.view r fun _ => False)
    (hbacked : Backed s.view.state s.view.dead s.stackData) (hinit : s.view.dead 1 = false)
    (hlast : s.pidsToDestroy.entries = stack.entries ++ [p])
    (hphase : ∀ x ∈ s.view.toZombify, x = r) :
    Meets (destroy mem { s with pidsToDestroy := stack } p)
      (fun s' => s'.rest = (s.rest.reset p).record (.destroyed p) ∧ (Core s'.view r fun _ => False) ∧
        Destroyed s.view s'.view p)
      (Excused (∃ c ∈ s.view.childs p, s.view.dead c = true ∧ s.view.isSealed c = true)
        False) := by
  have hperm : s.view.toDestroy.Perm (p :: stack.entries) := by
    have hentries : s.view.toDestroy = stack.entries ++ [p] := hlast
    rw [hentries]
    exact List.perm_append_singleton p stack.entries
  obtain ⟨hzombie, hdead, hpr, hone⟩ :=
    h.destroyable hinit (hperm.mem_iff.mpr List.mem_cons_self) hphase
  have hne : ∀ b : ProcessState, b ≠ .zombie → s.view.state p ≠ b :=
    fun b hb heq => hb (heq.symm.trans hzombie)
  obtain ⟨hpid, -⟩ := h.used p (hne _ (by decide))
  have hrunning : s.runningProcess ≠ some p := by
    have hrunningr : s.runningProcess = some r := h.running
    rw [hrunningr]
    exact fun heq => hpr (Option.some.inj heq).symm
  set father := s.view.father p with hfather
  have hfp : p ≠ father := Ne.symm (h.family.proper p (hne _ (by decide)))
  set s₀ : Kernel := { s with pidsToDestroy := stack } with hs₀
  set s₁ := processChildListRemove s₀ father p with hs₁
  have hself : s₁.data p = s.data p := by
    rw [hs₁, processChildListRemove, Kernel.data_update, if_neg hfp]
  have hchilds : (s₁.data p).childsPids = s.view.childs p := by
    rw [hself]
    rfl
  have hview₁ : s₁.view = { s.view with
      childs := Function.update s.view.childs father ((s.view.childs father).erase p)
      toDestroy := stack.entries } := s₀.view_setChilds father fun xs => xs.erase p
  have hrest₁ : s₁.rest = s.rest := s₀.rest_setChilds father fun xs => xs.erase p
  rw [destroy_checked (s := s₀) hpid (h.isPid (h.father_pid (hne _ (by decide)) hone)) hone
    (hne _ (by decide)) hrunning]
  change Meets (destroyChildren mem p (s₁.data p).childsPids s₁ >>= _) _ _
  rw [hchilds, meets_bind]
  refine (destroyChildren_meets (s := s₁) fun c hc => h.orphans hone hdead father hc).mono ?_ ?_
  · rintro s₂ ⟨rfl, hnil⟩
    have hnotfree : ¬freePid s.view.state p := fun hfree => hne _ (by decide) hfree.2
    obtain ⟨pids, hpush, horder, hpool⟩ := h.pidPool.push hnotfree
      (h.currentSize_pos (hne _ (by decide)))
    obtain ⟨hkernel, huser, hsize⟩ := hbacked.freed p hdead
    rw [destroyEnd_eq (s := s₁) hpush (by rwa [hself]) (by rw [hself]; exact ⟨huser, hsize, hkernel⟩),
      meets_ok]
    have hclear : s₁.processQueue.clear p = s₁.processQueue := h.ready.clear (hne _ (by decide))
    have hnone : s₁.view.childs p = [] := hchilds.trans hnil
    refine ⟨by rw [Kernel.rest_vacate, hrest₁], ?_⟩
    rw [Kernel.view_vacate (s := s₁) hrunning hclear hnone, hview₁]
    exact ⟨h.reset hperm hdead hone hnil (fun x _ hx => Function.update_of_ne hx _ _)
      (Function.update_self _ _ _) (by simp) hpool,
      ⟨hone, hdead, hlast, hnil, rfl, horder, rfl⟩⟩
  · refine fun e he => he.mono (fun hcs => ?_) id
    obtain ⟨c, cs, hcons⟩ := List.exists_cons_of_ne_nil hcs
    have hc : c ∈ s.view.childs p := by simp [hcons]
    exact ⟨c, hc, h.closed p c hone (fun hfalse => hfalse) hdead hc⟩

end SchlagOS
