import SchlagOS.Boot.Paging
import SchlagOS.Run.Addresses

/-!
# Page faults of the kernel

`check_arg` lets pointers through that are `NULL` or lead out of the user area,
and leaves them to the page tables.  `Guarding` says that it may: the kernel
goes through such a pointer upwards, so its first access outside the area is to
a page that is not mapped.  As in the invariant of the addresses, the pointers
are followed through the frames and the waiting lists, from any state.
-/

namespace SchlagOS

open Foundation Boot

/-! ## Accesses -/

namespace UserAccess

def address : UserAccess → Int
  | .readByte address => address
  | .writeByte address _ => address
  | .writeWord address _ => address

def size : UserAccess → Nat
  | .readByte _ => 1
  | .writeByte _ _ => 1
  | .writeWord _ _ => 4

def writes : UserAccess → Bool
  | .readByte _ => false
  | .writeByte _ _ => true
  | .writeWord _ _ => true

/-- The access ends in a page fault. -/
def Faults (mem : Bytes) (access : UserAccess) : Prop :=
  ∃ i < access.size,
    translate mem pgdir ⟨false, access.writes⟩ ((access.address + i) % 2 ^ 32).toNat = none

end UserAccess

variable {image : Image} {mem : Memory} {s s' : Kernel} {l old : List UserAccess} {a : Int}

/-- A byte at an address that `check_arg` lets through. -/
theorem checked_byte (image : Image) (ha : checkArg a = true) (access : Access) :
    InUserArea a ∨ translate image.paged pgdir access (a % 2 ^ 32).toNat = none := by
  have hrange : a = 0 ∨ 0x1000000 ≤ a ∧ a ≤ 0x3000000 := of_decide_eq_true ha
  by_cases hin : InUserArea a
  · exact .inl hin
  · have hunmapped : walk image.paged pgdir (a % 2 ^ 32).toNat = none := by
      unfold InUserArea at hin
      rw [image.walk_paged (by omega), if_neg (by omega)]
    refine .inr ?_
    unfold Foundation.translate
    rw [hunmapped]

theorem UserAccess.word_faults {memory : Bytes} {b value : Int} {i : Nat} (hi : i < 4)
    (hb : a + i = b) (h : translate memory pgdir ⟨false, true⟩ (b % 2 ^ 32).toNat = none) :
    (UserAccess.writeWord a value).Faults memory := by
  subst hb
  exact ⟨i, hi, h⟩

theorem checked_word (ha : checkArg a = true) (value : Int) :
    (UserAccess.writeWord a value).Faults image.paged ∨
      (UserAccess.writeWord a value).inUserArea := by
  have hrange : a = 0 ∨ 0x1000000 ≤ a ∧ a ≤ 0x3000000 := of_decide_eq_true ha
  rcases checked_byte image ha ⟨false, true⟩ with hin | hnone
  · unfold InUserArea at hin
    by_cases hlast : a + 3 < 0x3000000
    · refine .inr fun i hi => ?_
      unfold InUserArea
      omega
    · -- The word sticks out of the area, and its first byte behind it is not mapped.
      have hend := checked_byte image (a := 0x3000000) (by decide) ⟨false, true⟩
      refine .inl (UserAccess.word_faults (i := (0x3000000 - a).toNat) (by omega) (by omega)
        (hend.resolve_left (by decide)))
  · exact .inl (UserAccess.word_faults (i := 0) (by decide) (Int.add_zero a) hnone)

theorem UserAccess.byte_faults {memory : Bytes} {access : UserAccess} (hsize : access.size = 1)
    (h : translate memory pgdir ⟨false, access.writes⟩ (access.address % 2 ^ 32).toNat = none) :
    access.Faults memory := by
  refine ⟨0, by omega, ?_⟩
  rw [Int.natCast_zero, Int.add_zero]
  exact h

/-- Bytes that are read upwards. -/
theorem checked_bytes (ha : checkArg a = true) (length : Nat) :
    Guarded (UserAccess.Faults image.paged) UserAccess.inUserArea
      ((List.range length).map fun i : Nat => .readByte (a + i)) := by
  induction length generalizing a with
  | zero => trivial
  | succ length ih =>
      have hshift : ∀ i : Nat, UserAccess.readByte (a + Nat.succ i) = .readByte (a + 1 + i) := by
        intro i
        congr 1
        omega
      have htail : (List.range length).map ((fun i : Nat => UserAccess.readByte (a + i)) ∘
          Nat.succ) = (List.range length).map fun i : Nat => .readByte (a + 1 + i) :=
        List.map_congr_left fun i _ => hshift i
      rw [List.range_succ_eq_map, List.map_cons, List.map_map, htail]
      rcases checked_byte image ha ⟨false, false⟩ with hin | hnone
      · unfold InUserArea at hin
        have hnext : checkArg (a + 1) = true := decide_eq_true (by omega)
        rw [Int.natCast_zero, Int.add_zero]
        exact .inr ⟨hin, ih hnext⟩
      · rw [Int.natCast_zero, Int.add_zero]
        exact .inl (UserAccess.byte_faults rfl hnone)

/-! ## The invariant -/

/-- The destination has passed `check_arg`. -/
def Checked : Destination → Prop
  | .user a => checkArg a = true
  | _ => True

theorem checked_ofPointer (ha : checkArg a = true) : Checked (.ofPointer a) := by
  unfold Destination.ofPointer
  split
  · trivial
  · exact ha

/-- `cons_read` is about to store at `str[index]` and has not left the area without a fault. -/
def Reading (image : Image) (l : List UserAccess) (str : Int) (index : Nat) : Prop :=
  (∃ access ∈ l, access.Faults image.paged) ∨
    checkArg str = true ∧ (index = 0 ∨ 0x1000000 ≤ str ∧ str + index ≤ 0x3000000)

def GuardedFrame (image : Image) (l : List UserAccess) : Frame → Prop
  | .waitpidAny _ retvalp => Checked retvalp
  | .waitpidOne _ retvalp => Checked retvalp
  | .consRead str _ index => Reading image l str index
  | .consReceived str _ index => Reading image l str index
  | _ => True

theorem Reading.append {str : Int} {index : Nat} (h : Reading image l str index)
    (m : List UserAccess) : Reading image (l ++ m) str index := by
  refine h.imp_left ?_
  rintro ⟨access, haccess, hfaults⟩
  exact ⟨access, List.mem_append_left m haccess, hfaults⟩

theorem GuardedFrame.append {f : Frame} (h : GuardedFrame image l f) (m : List UserAccess) :
    GuardedFrame image (l ++ m) f := by
  cases f with
  | consRead str length index => exact Reading.append h m
  | consReceived str length index => exact Reading.append h m
  | _ => exact h

/-- What has been accessed begins with `old`. -/
structure Guarding (image : Image) (old : List UserAccess) (s : Kernel) : Prop where
  control : ∀ f ∈ s.control, GuardedFrame image s.userAccesses f
  context : ∀ p, ∀ f ∈ (s.data p).executionContext, GuardedFrame image s.userAccesses f
  waiting : ∀ fid, (s.queues fid).lockedProcesses.Every fun content => Checked content.destination
  accesses : Guarded (UserAccess.Faults image.paged) UserAccess.inUserArea s.userAccesses
  grown : old <+: s.userAccesses

namespace Guarding

theorem still (h : Guarding image old s) (hstill : Still s s') : Guarding image old s' where
  control := by
    rw [hstill.control, hstill.accesses]
    exact h.control
  context p := by
    rw [hstill.context, hstill.accesses]
    exact h.context p
  waiting := by
    rw [hstill.queues]
    exact h.waiting
  accesses := by
    rw [hstill.accesses]
    exact h.accesses
  grown := by
    rw [hstill.accesses]
    exact h.grown

theorem frames (h : Guarding image old s) {frames : List Frame}
    (hframes : ∀ f ∈ frames, GuardedFrame image s.userAccesses f) :
    Guarding image old { s with control := frames } :=
  { h with control := hframes }

theorem push (h : Guarding image old s) {frame : Frame}
    (hframe : GuardedFrame image s.userAccesses frame) :
    Guarding image old { s with control := frame :: s.control } := by
  refine h.frames fun f hf => ?_
  rcases List.mem_cons.mp hf with rfl | hf
  · exact hframe
  · exact h.control f hf

/-- Behind a fault anything may follow. -/
theorem touch (h : Guarding image old s) {accesses : List UserAccess}
    (haccesses : (∃ access ∈ s.userAccesses, access.Faults image.paged) ∨
      Guarded (UserAccess.Faults image.paged) UserAccess.inUserArea accesses) :
    Guarding image old { s with userAccesses := s.userAccesses ++ accesses } where
  control f hf := (h.control f hf).append accesses
  context p f hf := (h.context p f hf).append accesses
  waiting := h.waiting
  accesses := h.accesses.append haccesses
  grown := h.grown.trans (List.prefix_append _ _)

theorem readBytes (h : Guarding image old s) (ha : checkArg a = true) (length : Nat) :
    Guarding image old (s.readBytes a length) := h.touch (.inr (checked_bytes ha length))

theorem update (h : Guarding image old s) (p : Int) (f : Process → Process)
    (hf : ∀ frame ∈ (f (s.data p)).executionContext, GuardedFrame image s.userAccesses frame) :
    Guarding image old (s.update p f) := by
  refine { h with context := fun x => ?_ }
  unfold Kernel.update
  by_cases hx : x = p
  · rw [hx]
    simpa using hf
  · simpa [hx] using h.context x

theorem contextSwitch (h : Guarding image old s) (out new : Int) :
    Guarding image old (contextSwitch s out new) := by
  have hsaved : Guarding image old (s.update out fun p =>
      { p with executionContext := s.control }) := h.update out _ h.control
  exact hsaved.frames (hsaved.context new)

end Guarding

/-- Pointers are only used behind `check_arg`. -/
def guardingRules (image : Image) (old : List UserAccess) : Rules where
  Holds := Guarding image old
  frame := GuardedFrame image []
  destination := Checked
  access := fun access => access.Faults image.paged ∨ access.inUserArea
  node := fun _ content => Checked content.destination
  spare := fun _ => True
  released := fun _ => True
  null := trivial
  writes hd value := checked_word hd value
  receives hnode := hnode
  reprioritised hnode _ := hnode
  waiting h := h.waiting
  still h hstill := h.still hstill
  write p f h hcontext := by
    refine h.update p f ?_
    rcases hcontext with heq | hnil
    · rw [heq]
      exact h.context p
    · simp [hnil]
  setQueues h hlists _ := { h with waiting := hlists }
  touch h haccesses := h.touch (.inr (.of_forall haccesses))
  push h hframe := h.push (hframe.append _)
  release h _ := ⟨h.control, h.context, h.waiting, h.accesses, h.grown⟩
  resume h _ := ⟨h.control, h.context, h.waiting, h.accesses, h.grown⟩

theorem guardingRules_calls : (guardingRules image old).Calls where
  schedule := trivial
  startReturn _ := trivial
  exitLoop := trivial
  ret _ := trivial
  waitpid _ _ hd := ⟨hd, hd⟩
  psendResume _ := trivial
  preceiveResume _ := trivial
  clockTick := trivial

/-! ## The steps of the machine -/

private theorem scheduleStep_guarding (h : Guarding image old s) (phase : SchedulePhase)
    {rest : List Frame} (hrest : ∀ f ∈ rest, GuardedFrame image s.userAccesses f) :
    Meets (scheduleStep mem s phase rest) (Guarding image old) fun _ => True := by
  have hnext : ∀ next, Guarding image old { s with control := .schedule next :: rest } :=
    fun next => (h.frames hrest).push trivial
  cases phase with
  | zombify =>
      refine zombifyTurn_meets (fun pid stack _ => ?_) fun _ => hnext .destroy
      have htaken : (guardingRules image old).Holds { s with pidsToZombify := stack } :=
        h.still ⟨rfl, fun _ => rfl, rfl, rfl, rfl, rfl, rfl⟩
      exact (zombify_keeps htaken pid).mono (fun s₁ h₁ => Guarding.push h₁ trivial)
        fun _ _ => trivial
  | destroy =>
      refine destroyTurn_meets (fun pid stack _ => ?_) fun _ => hnext .decide
      have htaken : (guardingRules image old).Holds { s with pidsToDestroy := stack } :=
        h.still ⟨rfl, fun _ => rfl, rfl, rfl, rfl, rfl, rfl⟩
      exact (destroy_keeps htaken pid).mono (fun _ h' => h') fun _ _ => trivial
  | decide =>
      have hpopped : (guardingRules image old).Holds { s with control := rest } := h.frames hrest
      have hmark : ∀ (s' : Kernel) (new : Int), Guarding image old s' →
          Guarding image old { s' with runningProcess := some new } :=
        fun s' new h' => ⟨h'.control, h'.context, h'.waiting, h'.accesses, h'.grown⟩
      exact (scheduleDecide_keeps (Q := fun _ => guardingRules image old) hpopped hpopped hmark
        fun s' out new h' _ => Guarding.contextSwitch h' out new).mono (fun _ h' => h')
          fun _ _ => trivial

/-- A character that is stored may fault; if it does not, the next one follows in the area. -/
private theorem consReceived_guarding (h : Guarding image old s) {str : Int} {length index : Nat}
    (hreading : Reading image s.userAccesses str index) :
    Meets (consReceived s str length index) (Guarding image old) fun _ => True := by
  have hret : Guarding image old (s.ret index) :=
    h.still ⟨rfl, fun _ => rfl, rfl, rfl, rfl, rfl, rfl⟩
  have hback : Reading image s.userAccesses str (index - 1) := by
    refine hreading.imp_right fun ⟨hchecked, hrange⟩ => ⟨hchecked, ?_⟩
    omega
  have hstore : ∀ c, Guarding image old { s with
      userAccesses := s.userAccesses ++ [.writeByte (str + index) c]
      control := .consRead str length (index + 1) :: s.control } := by
    intro c
    rcases hreading with hfault | ⟨hchecked, hrange⟩
    · exact (h.touch (.inl hfault)).push (Reading.append (.inl hfault) _)
    · have hstr : str = 0 ∨ 0x1000000 ≤ str ∧ str ≤ 0x3000000 := of_decide_eq_true hchecked
      have hbyte : checkArg (str + index) = true := decide_eq_true (by omega)
      rcases checked_byte image hbyte ⟨false, true⟩ with hin | hnone
      · refine (h.touch (.inr (.of_forall fun access haccess => .inr ?_))).push (.inr ?_)
        · rw [List.mem_singleton.mp haccess]
          exact hin
        · unfold InUserArea at hin
          exact ⟨hchecked, .inr (by omega)⟩
      · have hfaults : (UserAccess.writeByte (str + index) c).Faults image.paged :=
          UserAccess.byte_faults rfl hnone
        refine (h.touch (.inr (.of_forall fun access haccess => .inl ?_))).push
          (.inl ⟨_, List.mem_append_right _ (List.mem_singleton_self _), hfaults⟩)
        rw [List.mem_singleton.mp haccess]
        exact hfaults
  unfold consReceived
  rw [meets_bind, meets_require]
  refine ⟨fun _ => ?_, fun _ => trivial⟩
  dsimp only
  rw [meets_ite]
  refine ⟨fun _ => hret, fun _ => ?_⟩
  rw [meets_ite]
  refine ⟨fun _ => h.push hback, fun _ => ?_⟩
  rw [meets_ite]
  exact ⟨fun _ => hstore _, fun _ => h.push hreading⟩

private theorem kernelStep_guarding (h : Guarding image old s) :
    Meets (kernelStep mem s) (Guarding image old) fun _ => True := by
  cases hcontrol : s.control with
  | nil =>
      unfold kernelStep
      rw [hcontrol]
      exact h
  | cons frame rest =>
      have hframe : GuardedFrame image s.userAccesses frame := h.control frame (by simp [hcontrol])
      have hrest : ∀ f ∈ rest, GuardedFrame image s.userAccesses f :=
        fun f hf => h.control f (by simp [hcontrol, hf])
      have hpopped : Guarding image old { s with control := rest } := h.frames hrest
      have hret : ∀ value, Guarding image old ({ s with control := rest }.ret value) :=
        fun value => hpopped.still ⟨rfl, fun _ => rfl, rfl, rfl, rfl, rfl, rfl⟩
      by_cases hprimitive : frame.isPrimitive = true
      · refine (frame_keeps guardingRules_calls hcontrol hprimitive ?_
          hpopped).mono (fun _ h' => h') fun _ _ => trivial
        rintro pid retvalp (rfl | rfl)
        · exact hframe
        · exact hframe
      unfold kernelStep
      rw [hcontrol]
      dsimp only
      cases frame with
      | schedule phase => exact scheduleStep_guarding h phase hrest
      | exitLoop => exact h
      | keyboardData str =>
          cases str with
          | nil => exact hpopped
          | cons c str =>
              have hsent : Guarding image old { s with control := .keyboardSent str :: rest } :=
                hpopped.push hframe
              unfold keyboardData
              rw [meets_bind, meets_require]
              refine ⟨fun _ => ?_, fun _ => trivial⟩
              rw [meets_ite]
              refine ⟨fun _ => hpopped, fun _ => ?_⟩
              exact (psend_keeps (R := guardingRules image old) guardingRules_calls hsent _ c
                fun _ => trivial).mono (fun _ h' => h') fun _ _ => trivial
      | keyboardSent str =>
          unfold keyboardSent
          rw [meets_bind, meets_require]
          exact ⟨fun _ => hpopped.push hframe, fun _ => trivial⟩
      | consRead str length index =>
          unfold consReadNext
          rw [meets_ite]
          refine ⟨fun _ => ?_, fun _ => hret index⟩
          have hreceived : Guarding image old
              { s with control := .consReceived str length index :: rest } := hpopped.push hframe
          have hmeets : Meets (preceive mem
              { s with control := .consReceived str length index :: rest } s.stdinFid
              (.receiver s.getpid)) (guardingRules image old).Holds Elsewhere :=
            preceive_keeps guardingRules_calls hreceived s.stdinFid (fun _ => trivial)
              fun _ _ => trivial
          exact hmeets.mono (fun _ h' => h') fun _ _ => trivial
      | consReceived str length index => exact consReceived_guarding hpopped hframe
      | _ => exact absurd rfl hprimitive

/-- The calls that access nothing but words are kept by the rules. -/
private theorem call_guarded {call : Call}
    (hstart : ∀ program stackSize priority name, call ≠ .start program stackSize priority name)
    (hwrite : ∀ str size, call ≠ .consWrite str size) : (guardingRules image old).call s call := by
  cases call with
  | start program stackSize priority name => exact absurd rfl (hstart _ _ _ _)
  | consWrite str size => exact absurd rfl (hwrite _ _)
  | waitpid pid retvalp => exact fun harg _ _ => checked_ofPointer harg
  | pcount fid count => exact fun harg _ => checked_ofPointer harg
  | pcreate count => exact fun _ _ _ _ => trivial
  | pdelete fid => exact ⟨fun _ _ => trivial, trivial⟩
  | preset fid => exact fun _ _ => trivial
  | psend fid message => exact fun _ => trivial
  | preceive fid message =>
      exact fun harg _ => ⟨checked_ofPointer harg, fun _ => checked_ofPointer harg⟩
  | consRead str length => exact fun harg => .inr ⟨harg, .inl rfl⟩
  | clockSettings quartz ticks => exact fun hquartz hticks => ⟨hquartz, hticks⟩
  | _ => trivial

/-- A step goes through the pointers that it is given upwards from where `check_arg` lets
them begin. -/
theorem exec_guarding (h : Guarding image old s) (step : Step) :
    Meets (exec step s) (Guarding image old) fun _ => True := by
  have hevent : (guardingRules image old).event s step.event → step.event ≠ .kernel →
      Meets (exec step s) (Guarding image old) fun _ => True := fun hevent hkernel =>
    (event_keeps guardingRules_calls h hevent hkernel).mono (fun _ h' => h') fun _ _ => trivial
  obtain ⟨stepMem, event⟩ := step
  have hcall : ∀ call, (∀ program stackSize priority name,
      call ≠ .start program stackSize priority name) → (∀ str size, call ≠ .consWrite str size) →
      Meets (exec ⟨stepMem, .call call⟩ s) (Guarding image old) fun _ => True := by
    intro call hstart hwrite
    refine (event_keeps (R := guardingRules image old) guardingRules_calls h ?_ (by simp)).mono
      (fun _ h' => h') fun _ _ => trivial
    exact call_guarded hstart hwrite
  cases event with
  | kernel => exact kernelStep_guarding h
  | init stackSize priority => exact hevent trivial (by simp)
  | tick => exact hevent trivial (by simp)
  | key str => exact hevent trivial (by simp)
  | call call =>
      cases call with
      | start program stackSize priority name =>
          change Meets (if _ then _ else _) _ _
          rw [meets_ite]
          refine ⟨fun _ => h.still ⟨rfl, fun _ => rfl, rfl, rfl, rfl, rfl, rfl⟩, fun hargs => ?_⟩
          push Not at hargs
          have hname : checkArg name.address = true := by simpa using hargs.2
          have hreads : ∀ s', Guarding image old s' →
              Guarding image old (s'.readName (some name)) := fun s' h' => h'.readBytes hname _
          exact (start_keeps_of_reads (R := guardingRules image old) guardingRules_calls h stackSize
            priority fun _ => hreads).mono (fun _ h' => h') fun _ _ => trivial
      | consWrite str size =>
          change Meets (if _ then _ else _) _ _
          rw [meets_ite]
          refine ⟨fun _ => h.still ⟨rfl, fun _ => rfl, rfl, rfl, rfl, rfl, rfl⟩, fun harg => ?_⟩
          have hread := h.readBytes (a := str) (by simpa using harg) size.toNat
          exact hread.still ⟨rfl, fun _ => rfl, rfl, rfl, rfl, rfl, rfl⟩
      | _ => exact hcall _ (by simp) (by simp)

end SchlagOS
