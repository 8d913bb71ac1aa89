import SchlagOS.Invariant.Queues

/-!
# The keyboard and the console

`keyboard_data` feeds the characters of a string to the queue of the console
one after the other, in the context of whatever process was interrupted, and
`cons_read` takes them from there.
-/

namespace SchlagOS

open Foundation

variable {s : Kernel} {step : Step} {r : Int}

/-! ## keyboard_data -/

/-- The buffer of the console is full, but `keyboard_data` does not see it. -/
def keyboardBlocks (s : Kernel) : Prop :=
  isLive s s.stdinFid = true ∧
    pcountValue (s.queues s.stdinFid) ≤ keyBufferSize ∧
    (s.queues s.stdinFid).nbMessages = (s.queues s.stdinFid).size

instance (s : Kernel) : Decidable (keyboardBlocks s) := by
  unfold keyboardBlocks
  infer_instance

/-- The end of a step that leaves the frame to go on with. -/
private theorem goOn_after (h : Settled s r) (frame : Frame)
    (hframe : frame.isSchedule = false ∧ frame.isWaitpid = false ∧ frame.isResume = false)
    (hinit : r = 1 → frame.isInit = true) :
    After step s { s with control := frame :: s.control } r :=
  h.quiet step s rfl rfl (fun _ => rfl) (some frame) s.eax (by rintro f ⟨⟩; exact hframe)
    (by rintro hone f ⟨⟩; exact hinit hone)

theorem keyboardData_meets (h : Settled s r) (str : List Int)
    (hblocks : ∀ c rest, str = c :: rest → keyboardBlocks s → r ≠ 1) :
    Meets (keyboardData step.mem s str) (fun s' => After step s s' r)
      (fun e => Excused False False e ∨
        e = .keyboardPcount ∧ isLive s s.stdinFid = false) := by
  cases str with
  | nil => exact h.ret s.eax
  | cons c rest =>
      unfold keyboardData
      rw [meets_bind, meets_require]
      refine ⟨fun hlive => ?_, fun hdead => .inr ⟨rfl, by simpa using hdead⟩⟩
      rw [meets_ite]
      refine ⟨fun _ => h.ret s.eax, fun hroom => ?_⟩
      have hpush := h.push (.keyboardSent rest) rfl fun _ => rfl
      refine (psend_meets hpush s.stdinFid c fun _ hfull => ?_).mono
        (fun s' hafter => hafter.of_control h.runningProcess_eq) fun e he => .inl he
      exact hblocks c rest rfl ⟨hlive, Int.not_lt.mp hroom, hfull⟩

theorem keyboardSent_meets (h : Settled s r) (rest : List Int) :
    Meets (keyboardSent s rest) (fun s' => After step s s' r)
      (fun e => e = .keyboardPsend ∧ s.eax ≠ 0) := by
  unfold keyboardSent
  rw [meets_bind, meets_require]
  refine ⟨fun _ => ?_, fun hresult => ⟨rfl, hresult⟩⟩
  rw [meets_pure]
  exact goOn_after h (.keyboardData rest) ⟨rfl, rfl, rfl⟩ fun _ => rfl

/-! ## cons_read -/

theorem consRead_meets (h : Settled s r) (hone : r ≠ 1) (str : Int) (length : Nat) :
    Meets (consRead s str length) (fun s' => After step s s' r)
      (fun e => e = .consReadLength ∧ length = 0) := by
  unfold consRead
  rw [meets_bind, meets_require]
  refine ⟨fun _ => ?_, fun hlength => ⟨rfl, by omega⟩⟩
  rw [meets_pure]
  exact goOn_after h (.consRead str length 0) ⟨rfl, rfl, rfl⟩ fun heq => absurd heq hone

theorem consReadNext_meets (h : Settled s r) (hone : r ≠ 1) (str : Int)
    (length index : Nat) :
    Meets (consReadNext step.mem s str length index) (fun s' => After step s s' r)
      (Excused False False) := by
  unfold consReadNext
  rw [meets_ite]
  refine ⟨fun _ => ?_, fun _ => h.ret index⟩
  have hpush := h.push (.consReceived str length index) rfl
    fun heq => absurd heq hone
  exact (preceive_meets hpush hone s.stdinFid (.receiver s.getpid)).mono
    (fun s' hafter => hafter.of_control h.runningProcess_eq) fun e he => he

theorem consReceived_meets (h : Settled s r) (hone : r ≠ 1) (str : Int)
    (length index : Nat) :
    Meets (consReceived s str length index) (fun s' => After step s s' r)
      (fun e => e = .consReadPreceive ∧ s.eax ≠ 0) := by
  have hloop : ∀ (accesses : List UserAccess) (i : Nat),
      After step s
        { s with control := .consRead str length i :: s.control, userAccesses := accesses } r :=
    fun accesses i => h.quiet step { s with userAccesses := accesses } rfl rfl (fun _ => rfl)
      (some (.consRead str length i)) s.eax (by rintro f ⟨⟩; exact ⟨rfl, rfl, rfl⟩)
      fun heq => absurd heq hone
  unfold consReceived
  rw [meets_bind, meets_require]
  refine ⟨fun _ => ?_, fun hresult => ⟨rfl, hresult⟩⟩
  dsimp only
  rw [meets_ite]
  refine ⟨fun _ => h.ret index, fun _ => ?_⟩
  rw [meets_ite]
  refine ⟨fun _ => hloop s.userAccesses (index - 1), fun _ => ?_⟩
  rw [meets_ite]
  exact ⟨fun _ => hloop _ (index + 1), fun _ => hloop s.userAccesses index⟩

end SchlagOS
