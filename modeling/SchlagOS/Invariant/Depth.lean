import SchlagOS.Invariant.Stack
import SchlagOS.Kernel.Machine

/-!
# The depth of the kernel stacks

`schedule` calls itself: the first loop of `clean_processes` calls `zombify`, and
`zombify` ends with a call of `schedule`.  One call is added for each process on
`pids_to_zombify`, so the calls on the stack and the processes on that list are
counted together.  A process is only put on the list from user mode, and a
switch only happens behind both loops; this is what keeps the sum small.
-/

namespace SchlagOS

open Foundation

variable {mem : Memory} {s : Kernel} {z d : Nat} {c rest : List Frame} {frame : Frame}
  {phase : SchedulePhase}

/-- A frame that a primitive called by other kernel code leaves behind `schedule`. -/
def Frame.isInner : Frame → Bool
  | .ret _ => true
  | .psendResume _ => true
  | .preceiveResume _ => true
  | _ => false

/-- `d` frames stand on the one with which the kernel was entered. -/
inductive Depth : Nat → List Frame → Prop
  | user : Depth 0 []
  | entry {frame : Frame} (h : frame.isSchedule = false) : Depth 0 [frame]
  | inner {frame below : Frame} (h : frame.isInner = true) (hbelow : below.isSchedule = false) :
      Depth 1 [frame, below]
  | schedule {d : Nat} {phase : SchedulePhase} {frames : List Frame} (h : Depth d frames) :
      Depth (d + 1) (.schedule phase :: frames)

namespace Depth

theorem length_le (h : Depth d c) : c.length ≤ d + 1 := by
  induction h with
  | user => simp
  | entry => simp
  | inner => simp
  | schedule _ ih => simpa using ih

theorem schedules_le (h : Depth d c) : c.countP Frame.isSchedule ≤ d := by
  induction h with
  | user => simp
  | entry h => simp [h]
  | @inner frame below h hbelow =>
      have hframe : frame.isSchedule = false := by
        cases frame <;> simp_all [Frame.isInner, Frame.isSchedule]
      simp [hframe, hbelow]
  | schedule _ ih =>
      rw [List.countP_cons]
      simp only [Frame.isSchedule, if_true]
      omega

theorem of_schedule (h : Depth d (.schedule phase :: rest)) : 0 < d ∧ Depth (d - 1) rest := by
  cases h with
  | entry h => simp [Frame.isSchedule] at h
  | inner h => simp [Frame.isInner] at h
  | schedule h => exact ⟨Nat.succ_pos _, h⟩

/-- The frame that goes on was the first on the stack, or it is an inner one. -/
theorem tail (h : Depth d (frame :: rest)) (hframe : frame.isSchedule = false) :
    Depth 0 rest := by
  cases h with
  | entry => exact .user
  | inner _ hbelow => exact .entry hbelow
  | schedule => simp [Frame.isSchedule] at hframe

theorem alone (h : Depth d (frame :: rest)) (hframe : frame.isSchedule = false)
    (hinner : frame.isInner = false) : rest = [] := by
  cases h with
  | entry => rfl
  | inner h =>
      rw [h] at hinner
      cases hinner
  | schedule => simp [Frame.isSchedule] at hframe

/-- An inner frame in front of the frame that called. -/
theorem push (h : Depth 0 c) (hframe : frame.isInner = true) :
    ∃ d ≤ 1, Depth d (frame :: c) := by
  cases h with
  | user =>
      refine ⟨0, by omega, .entry ?_⟩
      cases frame <;> simp_all [Frame.isInner, Frame.isSchedule]
  | entry h => exact ⟨1, le_refl 1, .inner hframe h⟩

end Depth

/-! ## The invariant -/

/-- A stack is at most three deep with the processes still to zombify, and two deep when its
process is switched out. -/
structure Kernel.Shallow (s : Kernel) : Prop where
  running : ∃ d, Depth d s.control ∧ d + s.pidsToZombify.count ≤ 3
  cleaned : s.control.head? ≠ some (.schedule .zombify) → s.pidsToZombify.count ≤ 1
  switched : ∀ p, ∃ d ≤ 2, Depth d (s.data p).executionContext

/-- The running process stands before `c`, with `z` processes to zombify. -/
def Kept (z : Nat) (c : List Frame) (s : Kernel) : Prop :=
  s.pidsToZombify.count = z ∧ s.control = c ∧ ∀ p, ∃ d ≤ 2, Depth d (s.data p).executionContext

theorem Kept.update (h : Kept z c s) (q : Int) (f : Process → Process)
    (hf : ∀ x, (f x).executionContext = x.executionContext ∨ (f x).executionContext = []) :
    Kept z c (s.update q f) := by
  refine ⟨h.1, h.2.1, fun p => ?_⟩
  unfold Kernel.update
  dsimp only
  rw [Function.update_apply]
  split
  · rcases hf (s.data q) with heq | hnil
    · rw [heq]
      exact h.2.2 q
    · rw [hnil]
      exact ⟨0, by omega, .user⟩
  · exact h.2.2 p

theorem Kept.store (h : Kept z c s) (destination : Destination) (value : Int) :
    Kept z c (s.store destination value) := by
  cases destination with
  | null => exact h
  | user address => exact h
  | receiver pid => exact h.update pid _ fun _ => .inl rfl

theorem Kept.shallow (h : Kept z c s) (hdepth : Depth d c) (hd : d + z ≤ 3)
    (hz : c.head? = some (.schedule .zombify) ∨ z ≤ 1) : s.Shallow where
  running := by
    rw [h.1, h.2.1]
    exact ⟨d, hdepth, hd⟩
  cleaned hhead := by
    rw [h.2.1] at hhead
    rw [h.1]
    exact hz.resolve_left hhead
  switched := h.2.2

/-- Back in the caller. -/
theorem Kept.back (h : Kept z c s) (hc : Depth 0 c) (hz : z ≤ 1) : s.Shallow :=
  h.shallow hc (by omega) (.inr hz)

/-- The first frame of a call made in user mode. -/
theorem Kept.enter (h : Kept z [] s) (hz : z ≤ 1) (hframe : frame.isSchedule = false) :
    { s with control := frame :: s.control }.Shallow := by
  have hpushed : Kept z [frame] { s with control := frame :: s.control } :=
    ⟨h.1, by rw [h.2.1], h.2.2⟩
  exact hpushed.shallow (.entry hframe) (by omega) (.inr hz)

theorem Kept.callSchedule (h : Kept z c s) {frames : List Frame} (hdepth : Depth d (frames ++ c))
    (hd : d + z ≤ 2) : (s.callSchedule frames).Shallow := by
  have hcalled : Kept z (.schedule .zombify :: (frames ++ c)) (s.callSchedule frames) := by
    refine ⟨h.1, ?_, h.2.2⟩
    unfold Kernel.callSchedule
    rw [h.2.1]
  exact hcalled.shallow (.schedule hdepth) (by omega) (.inl rfl)

/-- A call of `schedule` that a primitive makes in user mode. -/
theorem Kept.switches (h : Kept z [] s) (hz : z ≤ 2) (hframe : frame.isSchedule = false) :
    (s.callSchedule [frame]).Shallow :=
  h.callSchedule (.entry hframe) (by omega)

/-- A call of `schedule` that a primitive makes anywhere. -/
theorem Kept.suspends (h : Kept z c s) (hc : Depth 0 c) (hz : z ≤ 1)
    (hframe : frame.isInner = true) : (s.callSchedule [frame]).Shallow := by
  obtain ⟨d, hd, hdepth⟩ := hc.push hframe
  exact h.callSchedule hdepth (by omega)

/-! ## The process table -/

theorem queueAdd_kept (h : Kept z c s) (q : Int) : Yields (queueAdd s q) (Kept z c) :=
  .skip _ fun _ => h

theorem queueDel_kept (h : Kept z c s) (q : Int) : Yields (queueDel s q) (Kept z c) :=
  .skip _ fun _ => h

theorem register_kept (h : Kept z c s) :
    Yields (processTableRegister s) fun a => Kept z c a.2 :=
  .skip _ fun _ => h

theorem unregister_kept (h : Kept z c s) (q : Int) :
    Yields (processTableUnregister s q) (Kept z c) :=
  .skip _ fun _ => h

theorem notifyKilled_kept (h : Kept z c s) (q : Int) :
    Yields (messageQueuesNotifyProcessusKilled s q) (Kept z c) :=
  .skip _ fun _ => h

theorem addHead_kept (h : Kept z c s) (owner q : Int) :
    Yields (processChildListAddHead mem s owner q) (Kept z c) :=
  .skip _ fun _ => h.update owner _ fun _ => .inl rfl

theorem childRemove_kept (h : Kept z c s) (owner q : Int) :
    Kept z c (processChildListRemove s owner q) := h.update owner _ fun _ => .inl rfl

theorem notifyPriorityChanged_kept (h : Kept z c s) (q newprio : Int) :
    Yields (messageQueuesNotifyPriorityChanged mem s q newprio) (Kept z c) :=
  .skip _ fun _ => h

theorem pushPending_count (stack : ArrayStack Int) (q : Int) :
    Yields (pushPending stack q) fun stack' => stack'.count = stack.count + 1 :=
  .skip _ fun _ => rfl

/-- A process goes on the list of those to zombify. -/
theorem requestZombify_kept (h : Kept z c s) (q : Int) :
    Yields (requestZombify s q) (Kept (z + 1) c) := by
  have hend : ∀ s₁ : Kernel, Kept (z + 1) c s₁ → Yields (do
      let s ← messageQueuesNotifyProcessusKilled s₁ q
      return s.update q fun p => { p with state := .zombie }) (Kept (z + 1) c) := fun s₁ h₁ =>
    (notifyKilled_kept h₁ q).bind fun s₂ h₂ => h₂.update q _ fun _ => .inl rfl
  unfold requestZombify
  refine .skip _ fun process => .skip _ fun _ => ?_
  refine (pushPending_count s.pidsToZombify q).bind fun stack hstack => ?_
  rw [h.1] at hstack
  dsimp only
  have hpushed : Kept (z + 1) c { s with pidsToZombify := stack } := ⟨hstack, h.2⟩
  exact .ite (fun _ => (queueDel_kept hpushed q).bind hend) fun _ => hend _ hpushed

theorem requestDestroy_kept (h : Kept z c s) (q : Int) :
    Yields (requestDestroy s q) (Kept z c) := by
  unfold requestDestroy
  refine .skip _ fun process => .skip _ fun _ => ?_
  dsimp only
  refine .skip _ fun stack => ?_
  have hmarked : Kept z c { s.update q fun p => { p with sealed := true } with
      pidsToDestroy := stack } :=
    h.update q (fun p => { p with sealed := true }) fun _ => .inl rfl
  refine .ite (fun _ => .ite (fun _ => ?_) fun _ => notifyKilled_kept hmarked q) fun _ => hmarked
  exact (queueDel_kept hmarked q).bind fun s₁ h₁ => notifyKilled_kept h₁ q

theorem userStackFree_kept (h : Kept z c s) (stack : Option Nat) (size : Nat) :
    Yields (userStackFree s stack size) (Kept z c) :=
  .ite (fun _ => h) fun _ => .skip _ fun _ => .skip _ fun _ => h

theorem kernelStackFree_kept (h : Kept z c s) (stack : Option Nat) :
    Yields (kernelStackFree s stack) (Kept z c) :=
  .skip _ fun _ => .skip _ fun _ => h

theorem deallocate_kept (h : Kept z c s) (q : Int) : Yields (deallocate s q) (Kept z c) := by
  have hend : ∀ (s₁ : Kernel) (stack : Option Nat), Kept z c s₁ → Yields (do
      let s ← kernelStackFree s₁ stack
      return s.update q fun p => { p with kernelStack := none, deallocated := true })
      (Kept z c) := fun s₁ stack h₁ =>
    (kernelStackFree_kept h₁ stack).bind fun s₂ h₂ => h₂.update q _ fun _ => .inl rfl
  unfold deallocate
  refine .skip _ fun _ => ?_
  dsimp only
  refine .ite (fun _ => ?_) fun _ => hend _ _ h
  exact (userStackFree_kept h _ _).bind fun s₁ h₁ =>
    hend _ _ (h₁.update q _ fun _ => .inl rfl)

theorem zombifyChildren_kept (h : Kept z c s) (q : Int) (cs : List Int) :
    Yields (zombifyChildren mem q cs s) (Kept z c) := by
  induction cs generalizing s with
  | nil => exact h
  | cons child cs ih =>
      unfold zombifyChildren
      refine .skip _ fun process => ?_
      dsimp only
      refine .ite (fun _ => ?_) fun _ => ?_
      · exact (requestDestroy_kept h _).bind fun s₁ h₁ => ih h₁
      · have hadopted := (childRemove_kept h q child).update child
          (fun p => { p with fatherPid := 1 }) fun _ => .inl rfl
        exact (addHead_kept hadopted 1 freedPid).bind fun s₁ h₁ => ih h₁

theorem wakeFather_kept (h : Kept z c s) (q father : Int) :
    Yields (wakeFather s q father) (Kept z c) := by
  have hwoken := h.update father
    (fun p => { p with waitingCode := (s.data q).pid, state := .waiting }) fun _ => .inl rfl
  exact .ite (fun _ => queueAdd_kept hwoken father) fun _ => h

theorem zombify_kept (h : Kept z c s) (q : Int) : Yields (zombify mem s q) (Kept z c) := by
  unfold zombify
  refine .skip _ fun _ => .skip _ fun process => .skip _ fun _ => ?_
  dsimp only
  refine .skip _ fun _ => (deallocate_kept h q).bind fun s₁ h₁ => ?_
  refine (zombifyChildren_kept h₁ q _).bind fun s₂ h₂ => ?_
  refine (wakeFather_kept h₂ q _).bind fun s₃ h₃ => ?_
  refine .ite (fun _ => ?_) fun _ => h₃
  exact (requestDestroy_kept h₃ q).bind fun s₄ h₄ => h₄

theorem destroyChildren_kept (h : Kept z c s) (q : Int) (cs : List Int) :
    Yields (destroyChildren mem q cs s) (Kept z c) := by
  induction cs generalizing s with
  | nil => exact h
  | cons child cs ih =>
      have hrest := h.update q (fun p => { p with childsPids := cs }) fun _ => .inl rfl
      unfold destroyChildren
      dsimp only
      refine .skip _ fun process => .ite (fun _ => ?_) fun _ => ?_
      · exact (requestDestroy_kept hrest _).bind fun s₁ h₁ => ih h₁
      · have hadopted := hrest.update child (fun p => { p with fatherPid := 1 }) fun _ => .inl rfl
        exact (addHead_kept hadopted 1 q).bind fun s₁ h₁ => ih h₁

theorem destroy_kept (h : Kept z c s) (q : Int) : Yields (destroy mem s q) (Kept z c) := by
  have hend : ∀ s₁ : Kernel, Kept z c s₁ → Kept z c ({ s₁.update q fun _ => noProcess with
      processQueue := s₁.processQueue.clear q }.record (.destroyed q)) := fun s₁ h₁ =>
    h₁.update q (fun _ => noProcess) fun _ => .inr rfl
  unfold destroy
  refine .skip _ fun _ => .skip _ fun process => .skip _ fun _ => .skip _ fun _ => ?_
  dsimp only
  refine (destroyChildren_kept (childRemove_kept h _ q) q _).bind fun s₁ h₁ => ?_
  refine (unregister_kept h₁ q).bind fun s₂ h₂ => .ite (fun _ => ?_) fun _ => ?_
  · exact (deallocate_kept h₂ q).bind fun s₃ h₃ => hend s₃ h₃
  · exact .skip _ fun _ => hend s₂ h₂

/-! ## schedule -/

/-- What the head of a loop of `clean_processes` finds. -/
theorem takePending_count {stack : ArrayStack Int} {r : Option Int} :
    (∀ q stack', takePending stack r = some (q, stack') → stack'.count + 1 = stack.count) ∧
      (takePending stack r = none → stack.count ≤ 1) := by
  have hcount : stack.swapEnds.count = stack.count := rfl
  unfold takePending
  constructor
  · intro q stack' h
    split at h
    · cases h
    · dsimp only at h
      split at h
      · split at h
        · cases h
        · cases h
          change stack.count - 1 + 1 = stack.count
          omega
      · cases h
        change stack.count - 1 + 1 = stack.count
        omega
  · intro h
    split at h
    · omega
    · dsimp only at h
      split at h
      · split at h
        · omega
        · cases h
      · cases h

/-- Both stacks are shallow behind the loops, the one that is saved and the one taken up. -/
theorem contextSwitch_shallow (h : Kept z c s) (hdepth : Depth d c) (hd : d ≤ 2) (hz : z ≤ 1)
    (old new : Int) : (contextSwitch s old new).Shallow := by
  have hsaved : ∀ p, ∃ d ≤ 2, Depth d ((s.update old fun q =>
      { q with executionContext := s.control }).data p).executionContext := by
    intro p
    unfold Kernel.update
    dsimp only
    rw [Function.update_apply]
    split
    · rw [h.2.1]
      exact ⟨d, hd, hdepth⟩
    · exact h.2.2 p
  obtain ⟨e, he, htaken⟩ := hsaved new
  have hswitched : Kept z _ (contextSwitch s old new) := ⟨h.1, rfl, hsaved⟩
  exact hswitched.shallow htaken (by omega) (.inr hz)

theorem processSwitch_shallow (h : Kept z c s) (hdepth : Depth d c) (hd : d ≤ 2) (hz : z ≤ 1)
    (old new : Int) : Yields (processSwitch s old new) Kernel.Shallow := by
  have hnew : Kept z c { s.update new fun p => { p with state := .running } with
      runningProcess := some new } :=
    h.update new (fun p => { p with state := .running }) fun _ => .inl rfl
  unfold processSwitch
  dsimp only
  refine .ite (fun _ => ?_) fun _ => contextSwitch_shallow hnew hdepth hd hz old new
  have hold := hnew.update old (fun p => { p with state := .waiting }) fun _ => .inl rfl
  exact (queueAdd_kept hold old).bind fun s₁ h₁ => contextSwitch_shallow h₁ hdepth hd hz old new

theorem scheduleDecide_shallow (h : Kept z c s) (hdepth : Depth d c) (hd : d ≤ 2) (hz : z ≤ 1) :
    Yields (scheduleDecide s) Kernel.Shallow := by
  have hout : Kept z c (queueOut s).2 := h
  have hstay : s.Shallow := h.shallow hdepth (by omega) (.inr hz)
  unfold scheduleDecide
  dsimp only
  split
  · refine .skip _ fun first => contextSwitch_shallow ?_ hdepth hd hz first first
    exact hout.update first (fun p => { p with state := .running }) fun _ => .inl rfl
  · exact hstay
  · refine .ite (fun _ => hstay) fun _ => .skip _ fun new => ?_
    exact processSwitch_shallow hout hdepth hd hz _ new

/-- A turn of a loop of `schedule`.  `zombify` takes a process off the list and puts a call
of `schedule` on the stack. -/
theorem scheduleStep_shallow (h : s.Shallow) (hcontrol : s.control = .schedule phase :: rest) :
    Yields (scheduleStep mem s phase rest) Kernel.Shallow := by
  obtain ⟨d, hdepth, hd⟩ := h.running
  rw [hcontrol] at hdepth
  obtain ⟨hpos, hrest⟩ := hdepth.of_schedule
  have hphase : ∀ next, Depth d (.schedule next :: rest) := by
    intro next
    have hnext : Depth (d - 1 + 1) (.schedule next :: rest) := .schedule hrest
    rwa [Nat.sub_add_cancel hpos] at hnext
  have hcleaned : phase ≠ .zombify → s.pidsToZombify.count ≤ 1 := by
    intro hne
    refine h.cleaned ?_
    rw [hcontrol]
    simpa using hne
  cases phase with
  | zombify =>
      refine zombifyTurn_meets (fun q stack htake => ?_) fun htake => ?_
      · have hcount := takePending_count.1 q stack htake
        have htaken : Kept stack.count (.schedule .zombify :: rest)
            { s with pidsToZombify := stack } := ⟨rfl, hcontrol, h.switched⟩
        refine (zombify_kept htaken q).mono fun s₁ h₁ => ?_
        have hcalled : Kept stack.count (.schedule .zombify :: .schedule .zombify :: rest)
            (s₁.callSchedule []) := ⟨h₁.1, by rw [← h₁.2.1]; rfl, h₁.2.2⟩
        exact hcalled.shallow (.schedule (hphase .zombify)) (by omega) (.inl rfl)
      · have hcount := takePending_count.2 htake
        have hnext : Kept s.pidsToZombify.count (.schedule .destroy :: rest)
            { s with control := .schedule .destroy :: rest } := ⟨rfl, rfl, h.switched⟩
        exact hnext.shallow (hphase .destroy) hd (.inr hcount)
  | destroy =>
      have hcount := hcleaned (by decide)
      refine destroyTurn_meets (fun q stack _ => ?_) fun _ => ?_
      · have htaken : Kept s.pidsToZombify.count (.schedule .destroy :: rest)
            { s with pidsToDestroy := stack } := ⟨rfl, hcontrol, h.switched⟩
        refine (destroy_kept htaken q).mono fun s₁ h₁ => ?_
        exact h₁.shallow (hphase .destroy) hd (.inr hcount)
      · have hnext : Kept s.pidsToZombify.count (.schedule .decide :: rest)
            { s with control := .schedule .decide :: rest } := ⟨rfl, rfl, h.switched⟩
        exact hnext.shallow (hphase .decide) hd (.inr hcount)
  | decide =>
      have hleft : Kept s.pidsToZombify.count rest { s with control := rest } :=
        ⟨rfl, rfl, h.switched⟩
      exact scheduleDecide_shallow hleft hrest (by omega) (hcleaned (by decide))

/-! ## The primitives of process.c -/

theorem awake_kept (h : Kept z c s) (q : Int) :
    Yields (awake s q) fun a => Kept z c a.2 := by
  unfold awake
  refine .skip _ fun _ => ?_
  dsimp only
  have hwaiting : Kept z c ((s.record (.awoken q (s.data q).state)).update q
      fun p => { p with state := .waiting }) :=
    Kept.update (s := s.record _) h q _ fun _ => .inl rfl
  exact (queueAdd_kept hwaiting q).bind fun s₁ h₁ => h₁

theorem blockByMessage_kept (h : Kept z c s) (q : Int) :
    Yields (blockByMessage s q) (Kept z c) := by
  have hblocked := h.update q (fun p => { p with state := .blockedByMessage }) fun _ => .inl rfl
  exact .skip _ fun _ => .ite (fun _ => queueDel_kept hblocked q) fun _ => hblocked

theorem startReady_shallow (h : Kept z [] s) (hz : z ≤ 1) (father q priority : Int) :
    Yields (start.startReady s father q priority) Kernel.Shallow := by
  have hwaiting := h.update q (fun p => { p with state := .waiting }) fun _ => .inl rfl
  refine (queueAdd_kept hwaiting q).bind fun s₁ h₁ => ?_
  have hstarted : Kept z [] (s₁.record (.started father q)) := h₁
  exact .ite (fun _ => hstarted.switches (by omega) rfl) fun _ => hstarted.enter hz rfl

theorem startStacks_shallow (h : Kept z [] s) (hz : z ≤ 1) (father q priority : Int)
    (stackSize : Nat) :
    Yields (start.startStacks mem s father q priority stackSize) Kernel.Shallow := by
  have hreturns : ∀ {s₁ : Kernel}, Kept z [] s₁ →
      ((s₁.record (.notStarted q)).ret (-1)).Shallow := fun {s₁} h₁ =>
    Kept.back (s := (s₁.record (.notStarted q)).ret (-1)) h₁ .user hz
  unfold start.startStacks
  refine .ite (fun _ => ?_) fun _ => ?_
  · have hnone := h.update q (fun p => { p with kernelStack := none }) fun _ => .inl rfl
    exact (unregister_kept hnone q).bind fun s₁ h₁ => hreturns h₁
  dsimp only
  have hkernel : Kept z [] { s with
      kernelBlocks := (s.kernelBlocks.allocate kernelStackSize).2 } := h
  have h₁ := hkernel.update q (fun p =>
    { p with kernelStack := some (s.kernelBlocks.allocate kernelStackSize).1 }) fun _ => .inl rfl
  refine .ite (fun _ => .skip _ fun _ => ?_) fun _ => .skip _ fun _ => ?_
  · have h₂ := h₁.update q
      (fun p => { p with userStackSize := stackSize + userAdditionalStackSize }) fun _ => .inl rfl
    refine .ite (fun _ => ?_) fun _ => ?_
    · have hnone := h₂.update q (fun p => { p with userStack := none }) fun _ => .inl rfl
      refine (unregister_kept hnone q).bind fun s₃ h₃ => ?_
      exact (kernelStackFree_kept h₃ _).bind fun s₄ h₄ => hreturns h₄
    · refine .skip _ fun _ => (addHead_kept ?_ father q).bind fun s₄ h₄ =>
        startReady_shallow h₄ hz father q priority
      exact Kept.update (s := { Kernel.update _ q _ with userBlocks := _ }) h₂ q _
        fun _ => .inl rfl
  · have h₂ := h₁.update q (fun p => { p with userStackSize := 0, userStack := none })
      fun _ => .inl rfl
    exact startReady_shallow h₂ hz father q priority

/-- The slot of the new process has an empty stack. -/
theorem start_shallow (h : Kept z [] s) (hz : z ≤ 1) (stackSize : Nat) (priority : Int)
    (name : Option UserString) :
    Yields (start mem s stackSize priority name) Kernel.Shallow := by
  have hread : ∀ s₁ : Kernel, Kept z [] s₁ → Kept z [] (s₁.readName name) := by
    intro s₁ h₁
    cases name <;> exact h₁
  unfold start
  refine .ite (fun _ => Kept.back (s := s.ret (-1)) h .user hz) fun _ => ?_
  refine (register_kept h).bind fun ⟨q, s₁⟩ h₁ => ?_
  dsimp only
  refine .skip _ fun _ => startStacks_shallow (hread _ ?_) hz _ _ _ _
  exact h₁.update q (fun p =>
    { p with
      pid := q, fatherPid := s₁.getpid, childsPids := [], priority := priority
      returnCode := 0, deallocated := false, executionContext := [] }) fun _ => .inr rfl

theorem exit_shallow (h : Kept z [] s) (hz : z ≤ 1) (retval : Int) :
    Yields (exit s retval) Kernel.Shallow := by
  have hcode := h.update s.getpid (fun p => { p with returnCode := retval }) fun _ => .inl rfl
  refine (requestZombify_kept hcode _).bind fun s₁ h₁ => ?_
  exact Kept.switches (s := s₁.record _) h₁ (by omega) rfl

theorem kill_shallow (h : Kept z [] s) (hz : z ≤ 1) (q : Int) :
    Yields (kill s q) Kernel.Shallow := by
  have hrefused : (s.ret (-1)).Shallow := Kept.back (s := s.ret (-1)) h .user hz
  have hend : ∀ s₁ : Kernel, Kept z [] s₁ → Yields (do
      let s ← requestZombify (s₁.update q fun p => { p with returnCode := 0 }) q
      return (s.record (.terminated q 0)).callSchedule [.ret 0]) Kernel.Shallow := by
    intro s₁ h₁
    have hcode := h₁.update q (fun p => { p with returnCode := 0 }) fun _ => .inl rfl
    refine (requestZombify_kept hcode q).bind fun s₂ h₂ => ?_
    exact Kept.switches (s := s₂.record _) h₂ (by omega) rfl
  have hshrunk : Kept z [] { s with pidsWaiting := s.pidsWaiting.shrink processNotFoundCode } := h
  unfold kill
  refine .ite (fun _ => hrefused) fun _ => .skip _ fun process => ?_
  refine .ite (fun _ => hrefused) fun _ => ?_
  dsimp only
  exact .ite (fun _ => .skip _ fun _ => hend _ hshrunk) fun _ => hend _ h

theorem waitpidReap_shallow (h : Kept z c s) (hc : Depth 0 c) (hz : z ≤ 1) (request child : Int)
    (retvalp : Destination) :
    Yields (waitpidReap s request child retvalp) Kernel.Shallow := by
  refine (requestDestroy_kept (h.store retvalp _) child).bind fun s₁ h₁ => ?_
  exact Kept.back (s := (s₁.record _).ret _) h₁ hc hz

theorem waitpid_shallow (h : Kept z [] s) (hz : z ≤ 1) (request : Int) (retvalp : Destination) :
    Yields (waitpid s request retvalp) Kernel.Shallow := by
  have hblocked : ∀ (code : Int) {frame : Frame}, frame.isSchedule = false →
      (((s.update s.getpid fun p => { p with state := .blockedByChild, waitingCode := code }).record
        (.waits s.getpid request)).callSchedule [frame]).Shallow := by
    intro code frame hframe
    have hmarked := h.update s.getpid
      (fun p => { p with state := .blockedByChild, waitingCode := code }) fun _ => .inl rfl
    exact Kept.switches (s := (s.update s.getpid _).record _) hmarked (by omega) hframe
  have hnone : ((s.record (.noChild s.getpid request)).ret (-1)).Shallow :=
    Kept.back (s := (s.record _).ret (-1)) h .user hz
  unfold waitpid
  dsimp only
  refine .ite (fun _ => .skip _ fun ⟨zombie, nbChilds⟩ => ?_) fun _ => ?_
  · cases zombie with
    | some child => exact waitpidReap_shallow h .user hz _ _ retvalp
    | none => exact .ite (fun _ => hblocked (-1) rfl) fun _ => hnone
  · refine .ite (fun _ => hnone) fun _ => .skip _ fun process => .ite (fun _ => hnone) fun _ => ?_
    exact .ite (fun _ => waitpidReap_shallow h .user hz _ _ retvalp) fun _ => hblocked request rfl

theorem waitClock_shallow (h : Kept z [] s) (hz : z ≤ 1) (clock : Nat) :
    Yields (waitClock s clock) Kernel.Shallow := by
  have hslept := h.update s.getpid (fun p => { p with state := .sleeping, sleepTime := clock })
    fun _ => .inl rfl
  unfold waitClock
  refine .ite (fun _ => .skip _ fun stack => ?_) fun _ => Kept.back (s := s.ret 0) h .user hz
  exact Kept.switches (s := { s.update s.getpid _ with pidsWaiting := stack }) hslept (by omega) rfl

theorem clockTickFrom_kept (h : Kept z c s) (turns i : Nat) (awaken : Bool) :
    Yields (clockTickFrom turns i awaken s) fun a => Kept z c a.2 := by
  induction turns generalizing s i awaken with
  | zero => exact h
  | succ turns ih =>
      unfold clockTickFrom
      refine .ite (fun _ => ?_) fun _ => h
      dsimp only
      refine .skip _ fun process => .ite (fun _ => ?_) fun _ => ih h _ _
      have hwoken : Kept z c { s.update (s.pidsWaiting.cells i)
            (fun p => { p with state := .waiting }) with
          pidsWaiting := s.pidsWaiting.replaceByLast processNotFoundCode i } :=
        h.update (s.pidsWaiting.cells i) (fun p => { p with state := .waiting }) fun _ => .inl rfl
      exact (queueAdd_kept hwoken _).bind fun s₁ h₁ => ih h₁ _ _

theorem clockTick_shallow (h : Kept z c s) (hc : Depth 0 c) (hz : z ≤ 1) :
    Yields (clockTick s) Kernel.Shallow := by
  refine (clockTickFrom_kept h _ _ _).bind fun ⟨awaken, s₁⟩ h₁ => ?_
  have hnothing : Depth 0 ([] ++ c) := hc
  exact .ite (fun _ => h₁.callSchedule hnothing (by omega)) fun _ => h₁.back hc hz

/-- The end of `chprio`. -/
private theorem chprioReturn_shallow (h : Kept z [] s) (hz : z ≤ 1) (q newprio oldprio : Int) :
    Yields (if s.running.priority < newprio then
        (pure (s.callSchedule [.ret oldprio]) : Except Panic Kernel)
      else if s.getpid = q then do
        let next ← demand (queueTop s) .nullDereference
        if newprio < (s.data next).priority then return s.callSchedule [.ret oldprio]
        else return s.ret oldprio
      else return s.ret oldprio) Kernel.Shallow := by
  have hcalls : (s.callSchedule [.ret oldprio]).Shallow := h.switches (by omega) rfl
  have hreturns : (s.ret oldprio).Shallow := Kept.back (s := s.ret oldprio) h .user hz
  exact .ite (fun _ => hcalls) fun _ => .ite
    (fun _ => .skip _ fun _ => .ite (fun _ => hcalls) fun _ => hreturns) fun _ => hreturns

theorem chprio_shallow (h : Kept z [] s) (hz : z ≤ 1) (q newprio : Int) :
    Yields (chprio mem s q newprio) Kernel.Shallow := by
  have hrefused : (s.ret (-1)).Shallow := Kept.back (s := s.ret (-1)) h .user hz
  have hnew := h.update q (fun p => { p with priority := newprio }) fun _ => .inl rfl
  unfold chprio
  refine .ite (fun _ => hrefused) fun _ => .ite (fun _ => hrefused) fun _ => ?_
  refine .skip _ fun process => .ite (fun _ => hrefused) fun _ => ?_
  dsimp only
  have hrequeue : ∀ s₁ : Kernel, Kept z [] s₁ → Yields (if s₁.getpid ≠ q ∧
      process.state.isBlocked = false then do
        let s ← queueDel s₁ q
        let s ← queueAdd s q
        if s.running.priority < newprio then return s.callSchedule [.ret process.priority]
        else if s.getpid = q then do
          let next ← demand (queueTop s) .nullDereference
          if newprio < (s.data next).priority then return s.callSchedule [.ret process.priority]
          else return s.ret process.priority
        else return s.ret process.priority
      else if s₁.running.priority < newprio then return s₁.callSchedule [.ret process.priority]
      else if s₁.getpid = q then do
        let next ← demand (queueTop s₁) .nullDereference
        if newprio < (s₁.data next).priority then return s₁.callSchedule [.ret process.priority]
        else return s₁.ret process.priority
      else return s₁.ret process.priority) Kernel.Shallow := fun s₁ h₁ =>
    .ite (fun _ => (queueDel_kept h₁ q).bind fun s₂ h₂ => (queueAdd_kept h₂ q).bind
      fun s₃ h₃ => chprioReturn_shallow h₃ hz q newprio _)
      fun _ => chprioReturn_shallow h₁ hz q newprio _
  refine .ite (fun _ => ?_) fun _ => hrequeue _ hnew
  exact (notifyPriorityChanged_kept hnew q newprio).bind hrequeue

/-! ## The message queues -/

theorem releaseAll_kept (h : Kept z c s) (fid : Int) (turns : Nat) (needSchedule : Bool) :
    Yields (releaseAll fid turns needSchedule s) fun a => Kept z c a.2 := by
  induction turns generalizing s needSchedule with
  | zero => exact h
  | succ turns ih =>
      unfold releaseAll
      refine .ite (fun _ => .skip _ fun removed => ?_) fun _ => h
      have hset : Kept z c
          (setQueue s fid { s.queues fid with lockedProcesses := removed.2 }) := h
      refine (awake_kept (hset.store removed.1.destination (-1)) removed.1.pid).bind
        fun woken hwoken => ?_
      exact ih (s := { woken.2 with
        resetReleases := Function.update woken.2.resetReleases (removed.1.pid - 1) true }) hwoken _

theorem messageQueueReset_kept (h : Kept z c s) (fid : Int) :
    Yields (messageQueueReset s fid) fun a => Kept z c a.2.2 := by
  unfold messageQueueReset
  refine .ite (fun _ => h) fun _ => ?_
  exact (releaseAll_kept h fid _ _).bind fun ⟨needSchedule, s₁⟩ h₁ => .skip _ fun _ => h₁

theorem tableRegister_kept (h : Kept z c s) :
    Yields (messageQueueTableRegister s) fun a => Kept z c a.2 :=
  .skip _ fun _ => h

theorem tableUnregister_kept (h : Kept z c s) (fid : Int) :
    Yields (messageQueueTableUnregister s fid) (Kept z c) :=
  .skip _ fun _ => h

theorem pcreate_kept (h : Kept z c s) (count : Int) :
    Yields (pcreate mem s count) (Kept z c) := by
  unfold pcreate
  refine .ite (fun _ => h) fun _ => (tableRegister_kept h).bind fun ⟨fid, s₁⟩ h₁ => ?_
  dsimp only
  refine .ite (fun _ => ?_) fun _ => .skip _ fun _ => h₁
  have hset : Kept z c (setQueue s₁ fid { s₁.queues fid with allocated := false }) := h₁
  exact (tableUnregister_kept hset fid).bind fun s₂ h₂ => h₂

theorem pcount_kept (h : Kept z c s) (fid : Int) (count : Destination) :
    Kept z c (pcount s fid count) := by
  unfold pcount
  split
  · exact h
  · exact h.store count _

theorem preset_shallow (h : Kept z [] s) (hz : z ≤ 1) (fid : Int) :
    Yields (preset s fid) Kernel.Shallow :=
  (messageQueueReset_kept h fid).bind fun a h₁ =>
    .ite (fun _ => h₁.switches (by omega) rfl) fun _ => Kept.back (s := a.2.2.ret _) h₁ .user hz

theorem pdelete_shallow (h : Kept z [] s) (hz : z ≤ 1) (fid : Int) :
    Yields (pdelete s fid) Kernel.Shallow := by
  refine (messageQueueReset_kept h fid).bind fun ⟨result, needSchedule, s₁⟩ h₁ => ?_
  refine .ite (fun _ => Kept.back (s := s₁.ret _) h₁ .user hz) fun _ => ?_
  have hset : Kept z [] (setQueue s₁ fid emptyMessageQueue) := h₁
  refine (tableUnregister_kept hset fid).bind fun s₂ h₂ => ?_
  have hdeleted : Kept z [] (s₂.record (.deleted fid)) := h₂
  exact .ite (fun _ => hdeleted.switches (by omega) rfl) fun _ =>
    Kept.back (s := (s₂.record (.deleted fid)).ret result) hdeleted .user hz

/-- What `psend` and `preceive` do behind `awake`. -/
private theorem woken_shallow (h : Kept z c s) (hc : Depth 0 c) (hz : z ≤ 1) (q : Int) :
    Yields (awake s q >>= fun a =>
      if a.1 then (pure (a.2.callSchedule [.ret 0]) : Except Panic Kernel)
      else pure (a.2.ret 0)) Kernel.Shallow :=
  (awake_kept h q).bind fun a h₁ =>
    .ite (fun _ => h₁.suspends hc hz rfl) fun _ => Kept.back (s := a.2.ret 0) h₁ hc hz

theorem psend_shallow (h : Kept z c s) (hc : Depth 0 c) (hz : z ≤ 1) (fid message : Int) :
    Yields (psend mem s fid message) Kernel.Shallow := by
  unfold psend
  refine .ite (fun _ => Kept.back (s := s.ret (-1)) h hc hz) fun _ =>
    .ite (fun _ => ?_) fun _ => .ite (fun _ => ?_) fun _ => ?_
  · refine .skip _ fun ⟨content, locked⟩ => ?_
    dsimp only
    have hset : Kept z c
        (setQueue s fid { s.queues fid with lockedProcesses := locked }) := h
    exact woken_shallow (s := Kernel.record _ _) (hset.store content.destination message) hc hz
      content.pid
  · refine .skip _ fun priority => .skip _ fun locked => ?_
    have hset : Kept z c
        (setQueue s fid { s.queues fid with lockedProcesses := locked }) := h
    refine (blockByMessage_kept hset _).bind fun s₁ h₁ => ?_
    exact Kept.suspends (s := s₁.record _) h₁ hc hz rfl
  · exact .skip _ fun queue => Kept.back (s := Kernel.ret (Kernel.record _ _) 0) h hc hz

theorem preceive_shallow (h : Kept z c s) (hc : Depth 0 c) (hz : z ≤ 1) (fid : Int)
    (destination : Destination) :
    Yields (preceive mem s fid destination) Kernel.Shallow := by
  unfold preceive
  refine .ite (fun _ => Kept.back (s := s.ret (-1)) h hc hz) fun _ =>
    .ite (fun _ => ?_) fun _ => .ite (fun _ => ?_) fun _ => ?_
  · refine .skip _ fun ⟨received, queue⟩ => .skip _ fun ⟨content, locked⟩ => ?_
    refine .skip _ fun queue' => ?_
    dsimp only
    have hrecorded : Kept z c (((setQueue s fid queue').record
        (.received s.getpid fid received)).record
          (.taken s.getpid content.pid fid content.message)) := h
    exact woken_shallow (hrecorded.store destination received) hc hz content.pid
  · refine .skip _ fun priority => .skip _ fun locked => ?_
    have hset : Kept z c
        (setQueue s fid { s.queues fid with lockedProcesses := locked }) := h
    refine (blockByMessage_kept hset _).bind fun s₁ h₁ => ?_
    exact Kept.suspends (s := s₁.record _) h₁ hc hz rfl
  · refine .skip _ fun ⟨received, queue⟩ => ?_
    have hstored := Kept.store (s := (setQueue s fid queue).record
      (.received s.getpid fid received)) h destination received
    exact Kept.back (s := Kernel.ret _ 0) hstored hc hz

theorem messageResume_kept (h : Kept z c s) (q : Int) : Kept z c (messageResume s q) := by
  unfold messageResume
  split <;> exact h

/-! ## The keyboard -/

theorem keyboardData_shallow (h : Kept z [] s) (hz : z ≤ 1) (str : List Int) :
    Yields (keyboardData mem s str) Kernel.Shallow := by
  cases str with
  | nil => exact h.back .user hz
  | cons char str =>
      have hloop : Kept z [.keyboardSent str]
          { s with control := .keyboardSent str :: s.control } := ⟨h.1, by rw [h.2.1], h.2.2⟩
      refine .skip _ fun _ => .ite (fun _ => h.back .user hz) fun _ => ?_
      exact psend_shallow hloop (.entry rfl) hz _ char

theorem keyboardSent_shallow (h : Kept z [] s) (hz : z ≤ 1) (str : List Int) :
    Yields (keyboardSent s str) Kernel.Shallow := by
  have hentry : (Frame.keyboardData str).isSchedule = false := rfl
  exact .skip _ fun _ => h.enter hz hentry

theorem consReadNext_shallow (h : Kept z [] s) (hz : z ≤ 1) (str : Int) (length index : Nat) :
    Yields (consReadNext mem s str length index) Kernel.Shallow := by
  have hloop : Kept z [.consReceived str length index]
      { s with control := .consReceived str length index :: s.control } :=
    ⟨h.1, by rw [h.2.1], h.2.2⟩
  exact .ite (fun _ => preceive_shallow hloop (.entry rfl) hz _ _)
    fun _ => Kept.back (s := s.ret index) h .user hz

theorem consReceived_shallow (h : Kept z [] s) (hz : z ≤ 1) (str : Int) (length index : Nat) :
    Yields (consReceived s str length index) Kernel.Shallow := by
  have hagain : ∀ (i : Nat) (accesses : List UserAccess), { s with
      userAccesses := accesses, control := .consRead str length i :: s.control }.Shallow := by
    intro i accesses
    have hentry : (Frame.consRead str length i).isSchedule = false := rfl
    exact Kept.enter (s := { s with userAccesses := accesses }) h hz hentry
  refine .skip _ fun _ => .ite (fun _ => ?_) fun _ => .ite (fun _ => hagain _ _)
    fun _ => .ite (fun _ => hagain _ _) fun _ => hagain _ _
  exact Kept.back (s := s.ret index) h .user hz

/-! ## One step -/

theorem syscallHandler_shallow (h : Kept z [] s) (hz : z ≤ 1) (call : Call) :
    Yields (syscallHandler mem s call) Kernel.Shallow := by
  have hreturns : ∀ value : Int, (s.ret value).Shallow := fun value =>
    Kept.back (s := s.ret value) h .user hz
  have hrefused := hreturns (-1)
  cases call with
  | start program stackSize priority name =>
      exact .ite (fun _ => hrefused) fun _ => start_shallow h hz stackSize priority (some name)
  | exit retval => exact exit_shallow h hz retval
  | kill pid => exact kill_shallow h hz pid
  | waitpid pid retvalp =>
      exact .ite (fun _ => hrefused) fun _ => waitpid_shallow h hz pid _
  | getpid => exact hreturns _
  | getprio pid => exact .skip _ fun priority => hreturns priority
  | chprio pid newprio => exact chprio_shallow h hz pid newprio
  | waitClock clock => exact waitClock_shallow h hz clock
  | currentClock => exact hreturns _
  | pcount fid count => exact .ite (fun _ => hrefused) fun _ => (pcount_kept h fid _).back .user hz
  | pcreate count => exact (pcreate_kept h count).mono fun _ h₁ => h₁.back .user hz
  | pdelete fid => exact pdelete_shallow h hz fid
  | preceive fid message =>
      exact .ite (fun _ => hrefused) fun _ => preceive_shallow h .user hz fid _
  | preset fid => exact preset_shallow h hz fid
  | psend fid message => exact psend_shallow h .user hz fid message
  | consRead str length =>
      exact .ite (fun _ => hrefused) fun _ => .skip _ fun _ => h.enter hz rfl
  | consEcho on => exact Kept.back (s := { s with echoEnabled := on }.ret 0) h .user hz
  | consWrite str size =>
      exact .ite (fun _ => hrefused) fun _ =>
        Kept.back (s := (consWrite s str size).ret 0) h .user hz
  | clockSettings quartz ticks =>
      refine .ite (fun _ => hrefused) fun _ => ?_
      have hstored : Kept z [] (clockSettings s quartz ticks) := (h.store _ _).store _ _
      exact Kept.back (s := (clockSettings s quartz ticks).ret 0) hstored .user hz

/-- The handler of the clock interrupt up to `clock_tick`. -/
theorem ticPit_shallow (h : Kept z [] s) (hz : z ≤ 1) : (ticPit s).Shallow := by
  have hentry : Frame.clockTick.isSchedule = false := rfl
  unfold ticPit
  dsimp only
  split
  · have hcounted : Kept z []
        { s with inter := (s.inter + 1) % 2 ^ 32, schedulerDelay := 0 } := h
    exact hcounted.switches (by omega) hentry
  · have hcounted : Kept z [] { s with
        inter := (s.inter + 1) % 2 ^ 32, schedulerDelay := s.schedulerDelay + 1 } := h
    exact hcounted.enter hz hentry

/-- A frame goes on: the frames below it are those of the code that called it. -/
theorem kernelStep_shallow (h : s.Shallow) : Yields (kernelStep mem s) Kernel.Shallow := by
  unfold kernelStep
  cases hcontrol : s.control with
  | nil => exact h
  | cons frame rest =>
      dsimp only
      cases hschedule : frame.isSchedule with
      | true =>
          cases frame with
          | schedule phase => exact scheduleStep_shallow h hcontrol
          | _ => simp [Frame.isSchedule] at hschedule
      | false =>
          obtain ⟨d, hdepth, -⟩ := h.running
          rw [hcontrol] at hdepth
          have hz : s.pidsToZombify.count ≤ 1 := by
            refine h.cleaned ?_
            rw [hcontrol]
            rintro ⟨⟩
            cases hschedule
          have hc := hdepth.tail hschedule
          have hrest : Kept s.pidsToZombify.count rest { s with control := rest } :=
            ⟨rfl, rfl, h.switched⟩
          have hback : ∀ value, ({ s with control := rest }.ret value).Shallow := fun value =>
            Kept.back (s := { s with control := rest }.ret value) hrest hc hz
          have hentry : frame.isInner = false → Kept s.pidsToZombify.count []
              { s with control := rest } := by
            intro hinner
            rw [hdepth.alone hschedule hinner] at hrest ⊢
            exact hrest
          cases frame with
          | schedule phase => cases hschedule
          | startReturn pid => exact hback _
          | exitLoop => exact h
          | ret value => exact hback value
          | waitpidAny pid retvalp =>
              exact .skip _ fun _ => .skip _ fun _ => waitpidReap_shallow hrest hc hz _ _ retvalp
          | waitpidOne pid retvalp => exact waitpidReap_shallow hrest hc hz _ _ retvalp
          | psendResume pid => exact (messageResume_kept hrest pid).back hc hz
          | preceiveResume pid => exact (messageResume_kept hrest pid).back hc hz
          | clockTick => exact clockTick_shallow hrest hc hz
          | keyboardData str => exact keyboardData_shallow (hentry rfl) hz str
          | keyboardSent str => exact keyboardSent_shallow (hentry rfl) hz str
          | consRead str length index => exact consReadNext_shallow (hentry rfl) hz str length index
          | consReceived str length index =>
              exact consReceived_shallow (hentry rfl) hz str length index

theorem exec_shallow {step : Step} (h : s.Shallow) (henabled : step.enabled s) :
    Yields (exec step s) Kernel.Shallow := by
  have huser : s.control = [] → Kept s.pidsToZombify.count [] s ∧ s.pidsToZombify.count ≤ 1 :=
    fun hcontrol => ⟨⟨rfl, hcontrol, h.switched⟩, h.cleaned (by simp [hcontrol])⟩
  obtain ⟨mem, event⟩ := step
  cases event with
  | kernel => exact kernelStep_shallow h
  | init stackSize priority =>
      obtain ⟨hkept, hz⟩ := huser henabled.1
      exact start_shallow hkept hz stackSize priority none
  | call call =>
      obtain ⟨hkept, hz⟩ := huser henabled.1
      exact syscallHandler_shallow hkept hz call
  | tick =>
      obtain ⟨hkept, hz⟩ := huser henabled
      exact ticPit_shallow hkept hz
  | key str =>
      obtain ⟨hkept, hz⟩ := huser henabled
      have hentry : (Frame.keyboardData str).isSchedule = false := rfl
      exact hkept.enter hz hentry

end SchlagOS
