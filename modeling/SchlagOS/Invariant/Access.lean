import SchlagOS.Invariant.Rules

/-!
# Addresses passed by user processes

A pointer that a process passes to the kernel can be used long after the call,
from a frame of the process or from a node of a waiting list.  `Within` says
that all of them, and all accesses made so far, are among those that a `Grant`
allows.  Nothing is assumed about the state besides, so this holds of runs in
which the tables are broken as well.
-/

namespace SchlagOS

open Foundation

/-- The addresses of the words and of the bytes that may be passed, and whether anything
may be typed. -/
structure Grant where
  word : Int → Prop
  byte : Int → Prop
  typed : Prop

namespace Grant

def destination (g : Grant) : Destination → Prop
  | .null => True
  | .user address => g.word address
  | .receiver _ => True

def access (g : Grant) : UserAccess → Prop
  | .readByte address => g.byte address
  | .writeByte address _ => g.byte address
  | .writeWord address _ => g.word address

def bytes (g : Grant) (address : Int) (length : Nat) : Prop :=
  ∀ i : Nat, i < length → g.byte (address + i)

def frame (g : Grant) : Frame → Prop
  | .waitpidAny _ retvalp => g.destination retvalp
  | .waitpidOne _ retvalp => g.destination retvalp
  | .keyboardData _ => g.typed
  | .keyboardSent _ => g.typed
  | .consRead str length _ => g.bytes str length
  | .consReceived str length index => index < length ∧ g.bytes str length
  | _ => True

def list (g : Grant) : NodeList ProcessNodeContent → Prop :=
  NodeList.Every fun content => g.destination content.destination

end Grant

structure Within (g : Grant) (s : Kernel) : Prop where
  control : ∀ f ∈ s.control, g.frame f
  context : ∀ p, ∀ f ∈ (s.data p).executionContext, g.frame f
  waiting : ∀ fid, g.list (s.queues fid).lockedProcesses
  accesses : ∀ a ∈ s.userAccesses, g.access a

variable {g : Grant} {mem : Memory} {s s' : Kernel}

namespace Within

theorem still (h : Within g s) (hstill : Still s s') : Within g s' where
  control := by
    rw [hstill.control]
    exact h.control
  context p := by
    rw [hstill.context]
    exact h.context p
  waiting := by
    rw [hstill.queues]
    exact h.waiting
  accesses := by
    rw [hstill.accesses]
    exact h.accesses

theorem frames (h : Within g s) {frames : List Frame} (hframes : ∀ f ∈ frames, g.frame f) :
    Within g { s with control := frames } :=
  { h with control := hframes }

theorem push (h : Within g s) {frame : Frame} (hframe : g.frame frame) :
    Within g { s with control := frame :: s.control } := by
  refine h.frames fun f hf => ?_
  rcases List.mem_cons.mp hf with rfl | hf
  · exact hframe
  · exact h.control f hf

theorem touch (h : Within g s) {accesses : List UserAccess}
    (haccesses : ∀ a ∈ accesses, g.access a) :
    Within g { s with userAccesses := s.userAccesses ++ accesses } := by
  refine { h with accesses := fun a ha => ?_ }
  rcases List.mem_append.mp ha with ha | ha
  · exact h.accesses a ha
  · exact haccesses a ha

theorem update (h : Within g s) (p : Int) (f : Process → Process)
    (hf : ∀ frame ∈ (f (s.data p)).executionContext, g.frame frame) :
    Within g (s.update p f) := by
  refine { h with context := fun x => ?_ }
  unfold Kernel.update
  by_cases hx : x = p
  · rw [hx]
    simpa using hf
  · simpa [hx] using h.context x

theorem contextSwitch (h : Within g s) (old new : Int) :
    Within g (contextSwitch s old new) := by
  have hsaved : Within g (s.update old fun p => { p with executionContext := s.control }) :=
    h.update old _ h.control
  exact hsaved.frames (hsaved.context new)

end Within

/-- The addresses of a grant stay those that are used. -/
def Grant.rules (g : Grant) : Rules where
  Holds := Within g
  frame := g.frame
  destination := g.destination
  access := g.access
  node := fun _ content => g.destination content.destination
  spare := fun _ => True
  released := fun _ => True
  null := trivial
  writes hd _ := hd
  receives hnode := hnode
  reprioritised hnode _ := hnode
  waiting h := h.waiting
  still h hstill := h.still hstill
  write p f h hcontext := by
    refine h.update p f ?_
    rcases hcontext with heq | hnil
    · rw [heq]
      exact h.context p
    · simp [hnil]
  setQueues h hlists _ := { h with waiting := hlists }
  touch h haccesses := h.touch haccesses
  push h hframe := h.push hframe
  release h _ := ⟨h.control, h.context, h.waiting, h.accesses⟩
  resume h _ := ⟨h.control, h.context, h.waiting, h.accesses⟩

theorem Grant.calls (g : Grant) : g.rules.Calls where
  schedule := trivial
  startReturn _ := trivial
  exitLoop := trivial
  ret _ := trivial
  waitpid _ _ hd := ⟨hd, hd⟩
  psendResume _ := trivial
  preceiveResume _ := trivial
  clockTick := trivial

/-- The pointers of a system call that are not refused, each with what is accessed
through it. -/
def Grant.call (g : Grant) (s : Kernel) : Call → Prop
  | .start program stackSize priority name =>
      checkArg program = true → checkArg name.address = true →
        StartsWith s stackSize priority →
          g.bytes name.address (min (name.length + 1) processNameMaxLength)
  | .waitpid pid retvalp =>
      checkArg retvalp = true → pid ≠ 0 → pid ≤ processTableMaxSize →
        g.destination (.ofPointer retvalp)
  | .pcount fid count =>
      checkArg count = true → isLive s fid = true → g.destination (.ofPointer count)
  | .preceive fid message =>
      checkArg message = true → isLive s fid = true → g.destination (.ofPointer message)
  | .consRead str length => checkArg str = true → g.bytes str length
  | .consWrite str size => checkArg str = true → g.bytes str size.toNat
  | .clockSettings quartz ticks =>
      checkArg quartz = true → checkArg ticks = true → g.word quartz ∧ g.word ticks
  | _ => True

def Grant.event (g : Grant) (s : Kernel) : Event → Prop
  | .call call => g.call s call
  | .key _ => g.typed
  | _ => True

/-! ## The steps of the machine -/

private theorem scheduleStep_within (h : Within g s) (phase : SchedulePhase)
    {rest : List Frame} (hrest : ∀ f ∈ rest, g.frame f) :
    Meets (scheduleStep mem s phase rest) (Within g) fun _ => True := by
  have hnext : ∀ next, Within g { s with control := .schedule next :: rest } :=
    fun next => (h.frames hrest).push trivial
  cases phase with
  | zombify =>
      refine zombifyTurn_meets (fun pid stack _ => ?_) fun _ => hnext .destroy
      have htaken : g.rules.Holds { s with pidsToZombify := stack } :=
        h.still ⟨rfl, fun _ => rfl, rfl, rfl, rfl, rfl, rfl⟩
      exact (zombify_keeps htaken pid).mono (fun s₁ h₁ => Within.push h₁ trivial)
        fun _ _ => trivial
  | destroy =>
      refine destroyTurn_meets (fun pid stack _ => ?_) fun _ => hnext .decide
      have htaken : g.rules.Holds { s with pidsToDestroy := stack } :=
        h.still ⟨rfl, fun _ => rfl, rfl, rfl, rfl, rfl, rfl⟩
      exact (destroy_keeps htaken pid).mono (fun _ h' => h') fun _ _ => trivial
  | decide =>
      have hpopped : g.rules.Holds { s with control := rest } := h.frames hrest
      have hmark : ∀ (s' : Kernel) (new : Int), Within g s' →
          Within g { s' with runningProcess := some new } :=
        fun s' new h' => ⟨h'.control, h'.context, h'.waiting, h'.accesses⟩
      exact (scheduleDecide_keeps (Q := fun _ => g.rules) hpopped hpopped hmark
        fun s' old new h' _ => Within.contextSwitch h' old new).mono (fun _ h' => h')
          fun _ _ => trivial

private theorem consReceived_within (h : Within g s) {str : Int} {length index : Nat}
    (hindex : index < length) (hbytes : g.bytes str length) :
    Meets (consReceived s str length index) (Within g) fun _ => True := by
  have hloop : ∀ (s₁ : Kernel) (i : Nat), Within g s₁ →
      Within g { s₁ with control := .consRead str length i :: s₁.control } :=
    fun s₁ i h₁ => h₁.push hbytes
  have hret : Within g (s.ret index) := h.still ⟨rfl, fun _ => rfl, rfl, rfl, rfl, rfl, rfl⟩
  unfold consReceived
  rw [meets_bind, meets_require]
  refine ⟨fun _ => ?_, fun _ => trivial⟩
  dsimp only
  rw [meets_ite]
  refine ⟨fun _ => hret, fun _ => ?_⟩
  rw [meets_ite]
  refine ⟨fun _ => hloop s (index - 1) h, fun _ => ?_⟩
  rw [meets_ite]
  refine ⟨fun _ => hloop _ (index + 1) (h.touch fun a ha => ?_), fun _ => hloop s index h⟩
  rw [List.mem_singleton.mp ha]
  exact hbytes index hindex

private theorem kernelStep_within (h : Within g s) :
    Meets (kernelStep mem s) (Within g) fun _ => True := by
  cases hcontrol : s.control with
  | nil =>
      unfold kernelStep
      rw [hcontrol]
      exact h
  | cons frame rest =>
      have hframe : g.frame frame := h.control frame (by simp [hcontrol])
      have hrest : ∀ f ∈ rest, g.frame f :=
        fun f hf => h.control f (by simp [hcontrol, hf])
      have hpopped : Within g { s with control := rest } := h.frames hrest
      have hret : ∀ value, Within g ({ s with control := rest }.ret value) :=
        fun value => hpopped.still ⟨rfl, fun _ => rfl, rfl, rfl, rfl, rfl, rfl⟩
      by_cases hprimitive : frame.isPrimitive = true
      · refine (frame_keeps g.calls hcontrol hprimitive ?_ hpopped).mono (fun _ h' => h')
          fun _ _ => trivial
        rintro pid retvalp (rfl | rfl)
        · exact hframe
        · exact hframe
      unfold kernelStep
      rw [hcontrol]
      dsimp only
      cases frame with
      | schedule phase => exact scheduleStep_within h phase hrest
      | exitLoop => exact h
      | keyboardData str =>
          cases str with
          | nil => exact hpopped
          | cons c str =>
              have hsent : Within g { s with control := .keyboardSent str :: rest } :=
                hpopped.push hframe
              unfold keyboardData
              rw [meets_bind, meets_require]
              refine ⟨fun _ => ?_, fun _ => trivial⟩
              rw [meets_ite]
              refine ⟨fun _ => hpopped, fun _ => ?_⟩
              exact (psend_keeps g.calls hsent _ c fun _ => trivial).mono (fun _ h' => h')
                fun _ _ => trivial
      | keyboardSent str =>
          unfold keyboardSent
          rw [meets_bind, meets_require]
          exact ⟨fun _ => hpopped.push hframe, fun _ => trivial⟩
      | consRead str length index =>
          unfold consReadNext
          rw [meets_ite]
          refine ⟨fun hindex => ?_, fun _ => hret index⟩
          have hreceived : Within g { s with control := .consReceived str length index :: rest } :=
            hpopped.push ⟨hindex, hframe⟩
          have hreceiver : g.rules.destination (.receiver s.getpid) := trivial
          have hmeets : Meets (preceive mem
              { s with control := .consReceived str length index :: rest } s.stdinFid
              (.receiver s.getpid)) g.rules.Holds Elsewhere :=
            preceive_keeps g.calls hreceived s.stdinFid (fun _ => hreceiver)
              fun _ _ => hreceiver
          exact hmeets.mono (fun _ h' => h') fun _ _ => trivial
      | consReceived str length index =>
          exact consReceived_within hpopped hframe.1 hframe.2
      | _ => exact absurd rfl hprimitive

private theorem call_granted {call : Call} (hcall : g.call s call) : g.rules.call s call := by
  cases call with
  | pcreate count => exact fun _ _ _ _ => trivial
  | pdelete fid => exact ⟨fun _ _ => trivial, trivial⟩
  | preset fid => exact fun _ _ => trivial
  | psend fid message => exact fun _ => trivial
  | preceive fid message => exact fun harg hlive => ⟨hcall harg hlive, fun _ => hcall harg hlive⟩
  | _ => exact hcall

/-- A step passes on the addresses that it is given. -/
theorem exec_keeps (h : Within g s) {step : Step} (hevent : g.event s step.event) :
    Meets (exec step s) (Within g) fun _ => True := by
  by_cases hkernel : step.event = .kernel
  · unfold exec
    rw [hkernel]
    exact kernelStep_within h
  · refine (event_keeps g.calls h ?_ hkernel).mono (fun _ h' => h') fun _ _ => trivial
    cases hstep : step.event with
    | call call =>
        rw [hstep] at hevent
        exact call_granted hevent
    | key str =>
        rw [hstep] at hevent
        exact hevent
    | init stackSize priority => trivial
    | tick => trivial
    | kernel => trivial

end SchlagOS
