import SchlagOS.Kernel.Process
import SchlagOS.Invariant.Ready

/-!
# Suspended calls

A process that is switched out stands in a call of `schedule`, and the call
behind it is where it goes on: `base` is what is left of its kernel stack below
the frames of `schedule`.  A process blocked in `waitpid` goes on in `waitpid`,
and one that was woken there finds a dead child that nobody else takes.
-/

namespace SchlagOS

open Foundation

def Frame.isSchedule : Frame → Bool
  | .schedule _ => true
  | _ => false

def Frame.isWaitpid : Frame → Bool
  | .waitpidAny _ _ => true
  | .waitpidOne _ _ => true
  | _ => false

/-- A frame that can stand below another one. -/
def Frame.isOuter : Frame → Bool
  | .keyboardSent _ => true
  | .consReceived _ _ _ => true
  | _ => false

def base (frames : List Frame) : List Frame := frames.dropWhile Frame.isSchedule

@[simp] theorem base_nil : base [] = [] := rfl

@[simp] theorem base_schedule (phase : SchedulePhase) (frames : List Frame) :
    base (.schedule phase :: frames) = base frames := rfl

theorem base_of_head {frame : Frame} {rest : List Frame} (h : frame.isSchedule = false) :
    base (frame :: rest) = frame :: rest := by
  simp [base, h]

/-- The stack of a process that does not run its own call of `schedule` yet. -/
structure Suspended (frames : List Frame) : Prop where
  nested : ∀ phase, .schedule phase ∈ frames → phase = .zombify
  settled : ∀ frame ∈ (base frames).tail, frame.isOuter = true

theorem suspended_nil : Suspended [] where
  nested := by simp
  settled := by simp

theorem Suspended.schedule {frames : List Frame} (h : Suspended frames) :
    Suspended (.schedule .zombify :: frames) where
  nested phase hphase := by
    rcases List.mem_cons.mp hphase with heq | hmem
    · cases heq
      rfl
    · exact h.nested phase hmem
  settled := by
    rw [base_schedule]
    exact h.settled

theorem Suspended.tail {frame : Frame} {frames : List Frame}
    (h : Suspended (frame :: frames)) : Suspended frames where
  nested phase hphase := h.nested phase (List.mem_cons_of_mem _ hphase)
  settled := by
    cases hframe : frame.isSchedule with
    | true =>
        have hsettled := h.settled
        cases frame <;> simp_all [Frame.isSchedule]
    | false =>
        have hsettled := h.settled
        rw [base_of_head hframe, List.tail_cons] at hsettled
        intro f hf
        cases frames with
        | nil => simp at hf
        | cons g rest =>
            have hg := hsettled g (by simp)
            rw [base_of_head (by cases g <;> simp_all [Frame.isOuter, Frame.isSchedule])]
              at hf
            exact hsettled f (List.mem_cons_of_mem _ hf)

/-- A stack below which only outer frames stand. -/
theorem Suspended.of_outer {frame : Frame} {frames : List Frame}
    (hframe : frame.isSchedule = false) (h : ∀ f ∈ frames, f.isOuter = true) :
    Suspended (frame :: frames) where
  nested phase hphase := by
    rcases List.mem_cons.mp hphase with heq | hmem
    · rw [← heq] at hframe
      simp [Frame.isSchedule] at hframe
    · have := h _ hmem
      simp [Frame.isOuter] at this
  settled := by
    rw [base_of_head hframe]
    exact h

/-- The stack of the running process, whose top may be in any phase. -/
def Executing (frames : List Frame) : Prop :=
  match frames with
  | .schedule _ :: rest => Suspended rest
  | frames => Suspended frames

theorem Suspended.executing {frames : List Frame} (h : Suspended frames) :
    Executing frames := by
  unfold Executing
  split
  · exact h.tail
  · exact h

/-! ## Waiting for a child -/

/-- The process goes on when it is scheduled, or when its time has come. -/
def ProcessState.Active (state : ProcessState) : Prop :=
  state = .waiting ∨ state = .running ∨ state = .sleeping

instance (state : ProcessState) : Decidable state.Active := by
  unfold ProcessState.Active
  infer_instance

/-- What a process finds that goes on in `waitpid`. -/
structure Woken (father : Int → Int) (dead isSealed : Int → Bool) (waitingCode p : Int)
    (frame : Frame) : Prop where
  father_eq : father waitingCode = p
  dead_eq : dead waitingCode = true
  sealed_eq : isSealed waitingCode = false
  request : (∀ pid retvalp, frame = .waitpidOne pid retvalp → pid = waitingCode) ∧
    ∀ pid retvalp, frame = .waitpidAny pid retvalp → pid < 0

structure Waits (state : Int → ProcessState) (father waitingCode : Int → Int)
    (dead isSealed : Int → Bool) (call : Int → List Frame) (toZombify : List Int)
    (r : Int) : Prop where
  blocked : ∀ p, state p = .blockedByChild → ∃ frame, (call p).head? = some frame ∧
    ((∃ pid retvalp, frame = .waitpidOne pid retvalp ∧ waitingCode p = pid ∧ 0 < pid) ∨
      ∃ pid retvalp, frame = .waitpidAny pid retvalp ∧ waitingCode p = -1 ∧ pid < 0)
  woken : ∀ p frame, (state p).Active →
    (call p).head? = some frame → frame.isWaitpid = true →
      Woken father dead isSealed (waitingCode p) p frame
  running : state r = .blockedByChild → ∀ p ∈ toZombify, father p = r →
    isSealed p = false → ¬(waitingCode r < 0 ∨ waitingCode r = p)
  init : state 1 ≠ .blockedByChild ∧
    ∀ frame, (call 1).head? = some frame → frame.isWaitpid = false

namespace Waits

variable {state state' : Int → ProcessState} {father waitingCode : Int → Int}
  {dead isSealed : Int → Bool} {call : Int → List Frame} {toZombify : List Int}
  {r p c : Int}

theorem congr (h : Waits state father waitingCode dead isSealed call toZombify r)
    (hblocked : ∀ p, state' p = .blockedByChild ↔ state p = .blockedByChild)
    (hready : ∀ p, (state' p).Active ↔ (state p).Active) :
    Waits state' father waitingCode dead isSealed call toZombify r where
  blocked p hp := h.blocked p ((hblocked p).mp hp)
  woken p frame hp := h.woken p frame ((hready p).mp hp)
  running hr := h.running ((hblocked r).mp hr)
  init := ⟨fun h1 => h.init.1 ((hblocked 1).mp h1), h.init.2⟩

/-- The rule for a process that is not in `waitpid` before and after. -/
theorem move (h : Waits state father waitingCode dead isSealed call toZombify r)
    {b : ProcessState} {frames : List Frame} (hp : state p ≠ .blockedByChild)
    (hb : b ≠ .blockedByChild)
    (hframes : ∀ frame, frames.head? = some frame → frame.isWaitpid = false) :
    Waits (Function.update state p b) father waitingCode dead isSealed
      (Function.update call p frames) toZombify r where
  blocked x hx := by
    by_cases hxp : x = p
    · rw [hxp, Function.update_self] at hx
      exact absurd hx hb
    · rw [Function.update_of_ne hxp] at hx ⊢
      exact h.blocked x hx
  woken x frame hx hframe hwait := by
    by_cases hxp : x = p
    · rw [hxp, Function.update_self] at hframe
      rw [hframes frame hframe] at hwait
      exact absurd hwait (by decide)
    · rw [Function.update_of_ne hxp] at hx hframe
      exact h.woken x frame hx hframe hwait
  running hr := by
    by_cases hrp : r = p
    · rw [hrp, Function.update_self] at hr
      exact absurd hr hb
    · rw [Function.update_of_ne hrp] at hr
      exact h.running hr
  init := by
    by_cases hp1 : p = 1
    · subst hp1
      rw [Function.update_self, Function.update_self]
      exact ⟨hb, hframes⟩
    · rw [Function.update_of_ne (Ne.symm hp1), Function.update_of_ne (Ne.symm hp1)]
      exact h.init

/-- The rule for the moves between RUNNING and WAITING, and out of both. -/
theorem settle (h : Waits state father waitingCode dead isSealed call toZombify r)
    {b : ProcessState} (hb : b ≠ .blockedByChild)
    (hback : b.Active → (state p).Active) :
    Waits (Function.update state p b) father waitingCode dead isSealed call
      toZombify r where
  blocked x hx := by
    by_cases hxp : x = p
    · rw [hxp, Function.update_self] at hx
      exact absurd hx hb
    · rw [Function.update_of_ne hxp] at hx
      exact h.blocked x hx
  woken x frame hx hframe hwait := by
    by_cases hxp : x = p
    · rw [hxp, Function.update_self] at hx
      rw [hxp] at hframe ⊢
      exact h.woken p frame (hback hx) hframe hwait
    · rw [Function.update_of_ne hxp] at hx
      exact h.woken x frame hx hframe hwait
  running hr := by
    by_cases hrp : r = p
    · rw [hrp, Function.update_self] at hr
      exact absurd hr hb
    · rw [Function.update_of_ne hrp] at hr
      exact h.running hr
  init := by
    refine ⟨?_, h.init.2⟩
    by_cases hp1 : p = 1
    · rw [← hp1, Function.update_self]
      exact hb
    · rw [Function.update_of_ne (Ne.symm hp1)]
      exact h.init.1

/-- The rule for a process that dies, whatever it was doing. -/
theorem die (h : Waits state father waitingCode dead isSealed call toZombify r)
    (hr : state r ≠ .blockedByChild) (p : Int) :
    Waits (Function.update state p .zombie) father waitingCode dead isSealed call
      (toZombify ++ [p]) r where
  blocked x hx := by
    by_cases hxp : x = p
    · rw [hxp, Function.update_self] at hx
      exact absurd hx (by decide)
    · rw [Function.update_of_ne hxp] at hx
      exact h.blocked x hx
  woken x frame hx hframe hwait := by
    by_cases hxp : x = p
    · rw [hxp, Function.update_self] at hx
      exact absurd hx (by decide)
    · rw [Function.update_of_ne hxp] at hx
      exact h.woken x frame hx hframe hwait
  running hr' := by
    by_cases hrp : r = p
    · rw [hrp, Function.update_self] at hr'
      exact absurd hr' (by decide)
    · rw [Function.update_of_ne hrp] at hr'
      exact absurd hr' hr
  init := by
    refine ⟨?_, h.init.2⟩
    by_cases hp1 : p = 1
    · rw [← hp1, Function.update_self]
      decide
    · rw [Function.update_of_ne (Ne.symm hp1)]
      exact h.init.1

/-- The rule of `deallocate`. -/
theorem bury (h : Waits state father waitingCode dead isSealed call toZombify r)
    {rest : List Int} (hrest : ∀ x ∈ rest, x ∈ toZombify) (p : Int) :
    Waits state father waitingCode (Function.update dead p true) isSealed call rest
      r where
  blocked := h.blocked
  woken x frame hx hframe hwait := by
    have hwoken := h.woken x frame hx hframe hwait
    refine ⟨hwoken.father_eq, ?_, hwoken.sealed_eq, hwoken.request⟩
    by_cases hxp : waitingCode x = p
    · rw [hxp, Function.update_self]
    · rw [Function.update_of_ne hxp]
      exact hwoken.dead_eq
  running hr x hx := h.running hr x (hrest x hx)
  init := h.init

/-- The rule of `request_destroy`: nobody was woken for the process. -/
theorem close (h : Waits state father waitingCode dead isSealed call toZombify r)
    (hfather : ∀ frame, (state (father c)).Active →
      (call (father c)).head? = some frame → frame.isWaitpid = false) :
    Waits state father waitingCode dead (Function.update isSealed c true) call
      toZombify r where
  blocked := h.blocked
  woken x frame hx hframe hwait := by
    have hwoken := h.woken x frame hx hframe hwait
    refine ⟨hwoken.father_eq, hwoken.dead_eq, ?_, hwoken.request⟩
    by_cases hxc : waitingCode x = c
    · have hf := hwoken.father_eq
      rw [hxc] at hf
      have hnot := hfather frame (by rwa [hf]) (by rwa [hf])
      rw [hnot] at hwait
      exact absurd hwait (by decide)
    · rw [Function.update_of_ne hxc]
      exact hwoken.sealed_eq
  running hr x hx hf hsealed := by
    refine h.running hr x hx hf ?_
    by_cases hxc : x = c
    · rw [hxc, Function.update_self] at hsealed
      exact absurd hsealed (by decide)
    · rwa [Function.update_of_ne hxc] at hsealed
  init := h.init

/-- The rule for a living child that goes over to process 1. -/
theorem adopt (h : Waits state father waitingCode dead isSealed call toZombify r)
    (hc : dead c = false) :
    Waits state (Function.update father c 1) waitingCode dead isSealed call toZombify
      r where
  blocked := h.blocked
  woken x frame hx hframe hwait := by
    have hwoken := h.woken x frame hx hframe hwait
    refine ⟨?_, hwoken.dead_eq, hwoken.sealed_eq, hwoken.request⟩
    have hne : waitingCode x ≠ c := by
      intro heq
      have hdead := hwoken.dead_eq
      rw [heq, hc] at hdead
      exact absurd hdead (by decide)
    rw [Function.update_of_ne hne]
    exact hwoken.father_eq
  running hr x hx hf hsealed := by
    by_cases hxc : x = c
    · rw [hxc, Function.update_self] at hf
      rw [← hf] at hr
      exact absurd hr h.init.1
    · rw [Function.update_of_ne hxc] at hf
      exact h.running hr x hx hf hsealed
  init := h.init

/-- The rule for the father woken by the child `c`. -/
theorem wake (h : Waits state father waitingCode dead isSealed call toZombify r)
    (hblocked : state (father c) = .blockedByChild) (hdead : dead c = true)
    (hsealed : isSealed c = false) (hr : father c ≠ r)
    (hmatch : waitingCode (father c) < 0 ∨ waitingCode (father c) = c) :
    Waits (Function.update state (father c) .waiting) father
      (Function.update waitingCode (father c) c) dead isSealed call toZombify r where
  blocked x hx := by
    by_cases hxf : x = father c
    · rw [hxf, Function.update_self] at hx
      exact absurd hx (by decide)
    · rw [Function.update_of_ne hxf] at hx ⊢
      exact h.blocked x hx
  woken x frame hx hframe hwait := by
    by_cases hxf : x = father c
    · rw [hxf, Function.update_self]
      refine ⟨rfl, hdead, hsealed, ?_⟩
      obtain ⟨frame', hframe', hcase⟩ := h.blocked _ hblocked
      rw [hxf, hframe'] at hframe
      obtain rfl := Option.some.inj hframe
      constructor
      · intro pid retvalp hone
        rcases hcase with ⟨q, v, heq, hcode, hpos⟩ | ⟨q, v, heq, -⟩
        · rw [hone] at heq
          cases heq
          rcases hmatch with hneg | hmatch
          · omega
          · exact hcode.symm.trans hmatch
        · rw [hone] at heq
          cases heq
      · intro pid retvalp hany
        rcases hcase with ⟨q, v, heq, -⟩ | ⟨q, v, heq, -, hneg⟩
        · rw [hany] at heq
          cases heq
        · rw [hany] at heq
          cases heq
          exact hneg
    · rw [Function.update_of_ne hxf] at hx ⊢
      exact h.woken x frame hx hframe hwait
  running hr' := by
    rw [Function.update_of_ne (Ne.symm hr)] at hr' ⊢
    exact h.running hr'
  init := by
    have hne : father c ≠ 1 := fun heq => h.init.1 (heq ▸ hblocked)
    rw [Function.update_of_ne (Ne.symm hne)]
    exact h.init

/-- The rule of `waitpid` where it blocks. -/
theorem block (h : Waits state father waitingCode dead isSealed call toZombify r)
    {code : Int} {frame : Frame} (rest : List Frame) (hone : r ≠ 1)
    (hframe : (∃ pid retvalp, frame = .waitpidOne pid retvalp ∧ code = pid ∧ 0 < pid) ∨
      ∃ pid retvalp, frame = .waitpidAny pid retvalp ∧ code = -1 ∧ pid < 0)
    (hnone : ∀ p ∈ toZombify, father p = r → isSealed p = false → ¬(code < 0 ∨ code = p)) :
    Waits (Function.update state r .blockedByChild) father
      (Function.update waitingCode r code) dead isSealed
      (Function.update call r (frame :: rest)) toZombify r where
  blocked x hx := by
    by_cases hxr : x = r
    · rw [hxr, Function.update_self, Function.update_self]
      exact ⟨frame, rfl, hframe⟩
    · rw [Function.update_of_ne hxr] at hx ⊢
      rw [Function.update_of_ne hxr]
      exact h.blocked x hx
  woken x frame hx hframe hwait := by
    by_cases hxr : x = r
    · rw [hxr, Function.update_self] at hx
      exact absurd hx (by decide)
    · rw [Function.update_of_ne hxr] at hx hframe ⊢
      exact h.woken x frame hx hframe hwait
  running _ := by
    rw [Function.update_self]
    exact hnone
  init := by
    rw [Function.update_of_ne (Ne.symm hone), Function.update_of_ne (Ne.symm hone)]
    exact h.init

/-- A process that is neither ready nor blocked in `waitpid` has no waiting code. -/
theorem codeOf (h : Waits state father waitingCode dead isSealed call toZombify r)
    (hblocked : state p ≠ .blockedByChild)
    (hready : ¬(state p).Active) (code : Int) :
    Waits state father (Function.update waitingCode p code) dead isSealed call toZombify
      r where
  blocked x hx := by
    have hxp : x ≠ p := fun heq => hblocked (heq ▸ hx)
    rw [Function.update_of_ne hxp]
    exact h.blocked x hx
  woken x frame hx hframe hwait := by
    have hxp : x ≠ p := fun heq => hready (heq ▸ hx)
    rw [Function.update_of_ne hxp]
    exact h.woken x frame hx hframe hwait
  running hr := by
    have hrp : r ≠ p := fun heq => hblocked (heq ▸ hr)
    rw [Function.update_of_ne hrp]
    exact h.running hr
  init := h.init

theorem switch (h : Waits state father waitingCode dead isSealed call toZombify r)
    (hp : state p ≠ .blockedByChild) :
    Waits state father waitingCode dead isSealed call toZombify p where
  blocked := h.blocked
  woken := h.woken
  running hr := absurd hr hp
  init := h.init

/-- The rule of `start`, whose process has no call to go on with. -/
theorem start (h : Waits state father waitingCode dead isSealed call toZombify r)
    {b : ProcessState} (hp : state p ≠ .blockedByChild) (hdead : dead p = false)
    (hr : p ≠ r) (hb : b ≠ .blockedByChild) (hr' : state r ≠ .blockedByChild) (o : Int) :
    Waits (Function.update state p b) (Function.update father p o) waitingCode dead
      isSealed (Function.update call p []) toZombify r := by
  have hnil : ∀ frame, ([] : List Frame).head? = some frame → frame.isWaitpid = false := by
    simp
  have hmove := h.move hp hb hnil
  constructor
  · exact hmove.blocked
  · intro x frame hx hframe hwait
    have hwoken := hmove.woken x frame hx hframe hwait
    have hne : waitingCode x ≠ p := by
      intro heq
      have hd := hwoken.dead_eq
      rw [heq, hdead] at hd
      exact absurd hd (by decide)
    refine ⟨?_, hwoken.dead_eq, hwoken.sealed_eq, hwoken.request⟩
    rw [Function.update_of_ne hne]
    exact hwoken.father_eq
  · intro hblocked
    rw [Function.update_of_ne (Ne.symm hr)] at hblocked
    exact absurd hblocked hr'
  · exact hmove.init

/-- The rule of `destroy`: the process was sealed, so nobody was woken for it. -/
theorem reset (h : Waits state father waitingCode dead isSealed call toZombify r)
    {value : Int} {frames : List Frame} (hp : state p = .zombie)
    (hsealed : isSealed p = true)
    (hframes : ∀ frame, frames.head? = some frame → frame.isWaitpid = false)
    (hnot : p ∉ toZombify) :
    Waits (Function.update state p .unset) (Function.update father p value) waitingCode
      (Function.update dead p false) (Function.update isSealed p false)
      (Function.update call p frames) toZombify r := by
  have hne : state p ≠ .blockedByChild := by simp [hp]
  have hmove := h.move (b := .unset) hne (by decide) hframes
  constructor
  · exact hmove.blocked
  · intro x frame hx hframe hwait
    have hwoken := hmove.woken x frame hx hframe hwait
    have hne : waitingCode x ≠ p := by
      intro heq
      have hs := hwoken.sealed_eq
      rw [heq, hsealed] at hs
      exact absurd hs (by decide)
    refine ⟨?_, ?_, ?_, hwoken.request⟩
    · rw [Function.update_of_ne hne]
      exact hwoken.father_eq
    · rw [Function.update_of_ne hne]
      exact hwoken.dead_eq
    · rw [Function.update_of_ne hne]
      exact hwoken.sealed_eq
  · intro hr x hx hf hs
    have hne : x ≠ p := fun heq => hnot (heq ▸ hx)
    rw [Function.update_of_ne hne] at hf hs
    exact hmove.running hr x hx hf hs
  · exact hmove.init

end Waits

end SchlagOS
