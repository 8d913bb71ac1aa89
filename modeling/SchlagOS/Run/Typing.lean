import SchlagOS.Run.Keyboard

/-!
# A full keyboard buffer

`keyboard_data` drops a character when `pcount` reports more than
KEY_BUFFER_SIZE, but a full buffer on which nobody waits counts exactly
KEY_BUFFER_SIZE.  The interrupted process then blocks in `psend`.
-/

namespace SchlagOS

open Foundation

variable {ok : Kernel → Step → Prop} {s s' : Kernel} {mem : Memory} {fid message c : Int}
  {rest : List Int} {frames : List Frame}

/-! ## psend on a full queue and on one with room -/

private theorem awake_unblocks (p : Int) :
    Meets (awake s p) (fun result => ∀ x, (result.2.data x).state = .blockedByMessage →
      (s.data x).state = .blockedByMessage) fun _ => True := by
  unfold awake getProcess queueAdd
  simp only [meets_bind, meets_require, meets_pure, meets_demand]
  refine ⟨fun _ => ⟨fun processQueue _ x hx => ?_, fun _ => trivial⟩, fun _ => trivial⟩
  unfold Kernel.update Kernel.record at hx
  dsimp only at hx
  by_cases hxp : x = p
  · rw [hxp, Function.update_self] at hx
    cases hx
  · rwa [Function.update_of_ne hxp] at hx

private theorem store_state (destination : Destination) (value x : Int) :
    ((s.store destination value).data x).state = (s.data x).state := by
  cases destination with
  | null => rfl
  | user address => rfl
  | receiver pid =>
      unfold Kernel.store Kernel.update
      dsimp only
      by_cases hx : x = pid
      · rw [hx, Function.update_self]
      · rw [Function.update_of_ne hx]

/-- `psend` on a queue with room blocks nobody. -/
theorem psend_room (hroom : (s.queues fid).nbMessages ≠ (s.queues fid).size) :
    Meets (psend mem s fid message) (fun s' => ∀ p, (s'.data p).state = .blockedByMessage →
      (s.data p).state = .blockedByMessage) fun _ => True := by
  unfold psend
  rw [meets_ite]
  refine ⟨fun _ p hp => hp, fun _ => ?_⟩
  dsimp only
  rw [meets_ite]
  constructor
  · intro _
    rw [meets_bind]
    unfold processQueueRemoveFirst
    rw [meets_demand]
    refine ⟨fun result _ => ?_, fun _ => trivial⟩
    rw [meets_bind]
    refine (awake_unblocks result.1.pid).mono (fun woken hwoken => ?_) fun _ _ => trivial
    have hkept : ∀ p, (woken.2.data p).state = .blockedByMessage →
        (s.data p).state = .blockedByMessage := by
      intro p hp
      exact (store_state (s := setQueue s fid _) result.1.destination message p).symm.trans
        (hwoken p hp)
    rw [meets_ite]
    exact ⟨fun _ => hkept, fun _ => hkept⟩
  · intro _
    rw [if_neg hroom, meets_bind]
    unfold messageQueueRegister
    simp only [meets_bind, meets_pure, meets_demand]
    exact ⟨fun _ _ p hp => hp, fun _ => trivial⟩

/-- `psend` on a full queue blocks the running process. -/
theorem psend_full (hlive : isLive s fid = true) (hsome : (s.queues fid).nbMessages ≠ 0)
    (hfull : (s.queues fid).nbMessages = (s.queues fid).size) :
    Meets (psend mem s fid message) (fun s' =>
      s'.control = .schedule .zombify :: .psendResume s.getpid :: s.control ∧
        (s'.data s.getpid).state = .blockedByMessage) fun _ => True := by
  have hnot : ¬((s.queues fid).nbMessages = 0 ∧ 0 < (s.queues fid).lockedProcesses.size) :=
    fun hboth => hsome hboth.1
  unfold psend
  rw [if_neg (by simp [hlive])]
  dsimp only
  rw [if_neg hnot, if_pos hfull]
  unfold getprio getProcess processQueueAddOnPriority blockByMessage getProcess queueDel
  simp only [meets_bind, meets_require, meets_pure]
  refine ⟨fun _ => ⟨fun _ => ⟨fun _ => ?_, fun _ => trivial⟩, fun _ => trivial⟩, fun _ => trivial⟩
  have hmarked : ∀ s₁ : Kernel, s₁.data = s.data →
      (((s₁.update s.getpid fun p => { p with state := .blockedByMessage }).data
        s.getpid)).state = .blockedByMessage := by
    intro s₁ _
    unfold Kernel.update
    dsimp only
    rw [Function.update_self]
  rw [meets_ite]
  constructor
  · intro _
    simp only [meets_bind, meets_demand, meets_pure]
    exact ⟨fun _ _ => ⟨rfl, hmarked _ rfl⟩, fun _ => trivial⟩
  · intro _
    exact ⟨rfl, hmarked _ rfl⟩

/-! ## One character -/

theorem Running.live (h : Running ok s) (hlive : isLive s fid = true) :
    Live (s.queues fid) := by
  obtain ⟨queues, -, htable⟩ := h.alike
  exact ((htable.alike fid).live (allocated_of_isLive (by simp [hlive]))).1

/-- What `keyboard_data` is to do with the next character: it blocks nobody, and a character
for which there is no room is dropped. -/
structure KeyFed (mem : Memory) (s : Kernel) (frames : List Frame) : Prop where
  awake : ∀ s', kernelStep mem s = .ok s' → ∀ p, (s'.data p).state = .blockedByMessage →
    (s.data p).state = .blockedByMessage
  dropped : isLive s s.stdinFid = true →
    (s.queues s.stdinFid).nbMessages = (s.queues s.stdinFid).size →
      kernelStep mem s = .ok { s with control := frames }

private theorem kernelStep_key (hcontrol : s.control = .keyboardData (c :: rest) :: frames) :
    kernelStep mem s = require (isLive s s.stdinFid = true) Panic.keyboardPcount >>= fun _ =>
      if (keyBufferSize : Int) < pcountValue (s.queues s.stdinFid) then
        pure { s with control := frames }
      else psend mem { s with control := .keyboardSent rest :: frames } s.stdinFid c := by
  unfold kernelStep
  rw [hcontrol]
  rfl

theorem KeyFed.not_blocks (hfed : KeyFed mem s frames) (h : Running ok s)
    (hcontrol : s.control = .keyboardData (c :: rest) :: frames) : ¬keyboardBlocks s := by
  rintro ⟨hlive, hroom, hfull⟩
  have hdropped := hfed.dropped hlive hfull
  rw [kernelStep_key hcontrol, require_pos hlive, ok_bind, if_neg (Int.not_lt.mpr hroom)]
    at hdropped
  have hsome : (s.queues s.stdinFid).nbMessages ≠ 0 := by
    rw [hfull]
    exact Nat.ne_of_gt (h.live hlive).size_pos
  have hblocks := (psend_full (s := { s with control := .keyboardSent rest :: frames })
    hlive hsome hfull).of_ok hdropped
  have hlength := congrArg List.length hblocks.1
  simp only [List.length_cons] at hlength
  omega

theorem key_fed_iff (h : Running ok s)
    (hcontrol : s.control = .keyboardData (c :: rest) :: frames) :
    KeyFed mem s frames ↔ ¬keyboardBlocks s := by
  have hstep : kernelStep mem s = _ := kernelStep_key hcontrol
  constructor
  · exact fun hfed => hfed.not_blocks h hcontrol
  · intro hnot
    constructor
    · intro s' hrun p hp
      rw [hstep, bind_eq_ok] at hrun
      obtain ⟨u, hlive, hrun⟩ := hrun
      rw [require_eq_ok] at hlive
      split_ifs at hrun with hroom
      · cases hrun
        exact hp
      · refine (psend_room (s := { s with control := .keyboardSent rest :: frames }) ?_).of_ok
          hrun p hp
        exact fun hfull => hnot ⟨hlive, Int.not_lt.mp hroom, hfull⟩
    · intro hlive hfull
      have hmany : (keyBufferSize : Int) < pcountValue (s.queues s.stdinFid) := by
        by_contra hroom
        exact hnot ⟨hlive, Int.not_lt.mp hroom, hfull⟩
      rw [hstep, require_pos hlive, ok_bind, if_pos hmany]
      rfl

/-! ## Runs -/

/-- Process 2 runs in user mode, and `n` messages are buffered in the queue of the console. -/
structure Filled (s : Kernel) (n : Nat) : Prop where
  run : Running (fun _ _ => True) s
  user : s.control = []
  process : s.getpid ≠ 1
  stdin : s.stdinFid = 0
  live : isLive s 0 = true
  size : (s.queues 0).size = keyBufferSize
  count : (s.queues 0).nbMessages = n
  waiters : (s.queues 0).lockedProcesses.size = 0

private theorem Filled.next {n : Nat} (h : Filled s n) (hn : n < keyBufferSize) :
    ∃ s', Filled s' (n + 1) := by
  have hlive := h.run.live h.live
  have hnil : (s.queues 0).waiters = [] := by
    by_contra hsome
    have hpos := hlive.waiters_pos.mpr hsome
    rw [h.waiters] at hpos
    exact absurd hpos (Nat.lt_irrefl 0)
  obtain ⟨queue, hregister, -, -, hcount, -, hsize, hallocated⟩ :=
    hlive.register (by rw [h.count, h.size]; exact hn) hnil 0
  have hlist : queue.lockedProcesses = (s.queues 0).lockedProcesses := by
    unfold messageQueueRegister at hregister
    rw [bind_eq_ok] at hregister
    obtain ⟨ring, -, hqueue⟩ := hregister
    rw [pure_eq_ok, Except.ok.injEq] at hqueue
    rw [← hqueue]
  have hrun : exec (Event.call (.psend 0 0)).step s =
      .ok (((setQueue s 0 queue).record (.buffered s.getpid 0 0)).ret 0) := by
    change psend .available s 0 0 = _
    unfold psend
    rw [if_neg (by simp [h.live])]
    dsimp only
    rw [h.waiters, if_neg (by simp), if_neg (by rw [h.count, h.size]; omega), hregister, ok_bind]
    rfl
  have henabled : (Event.call (.psend 0 0)).step.enabled s := ⟨h.user, h.process⟩
  have hself : (setQueue s 0 queue).queues 0 = queue := by
    unfold setQueue
    exact Function.update_self 0 queue s.queues
  refine ⟨_, h.run.next henabled trivial hrun, h.user, h.process, h.stdin, ?_,
    ?_, ?_, ?_⟩
  · change isLive (setQueue s 0 queue) 0 = true
    have hold := h.live
    unfold isLive at hold ⊢
    rw [hself, hallocated]
    exact hold
  · exact (congrArg MessageQueue.size hself).trans (hsize.trans h.size)
  · exact (congrArg MessageQueue.nbMessages hself).trans (by rw [hcount, h.count])
  · exact (congrArg (fun q => q.lockedProcesses.size) hself).trans (by rw [hlist, h.waiters])

private theorem exists_filled (n : Nat) (hn : n ≤ keyBufferSize) : ∃ s, Filled s n := by
  induction n with
  | zero =>
      have hrun : ∃ s, Running (fun _ _ => True) s ∧
          decide (s.control = [] ∧ s.getpid ≠ 1 ∧ s.stdinFid = 0 ∧ isLive s 0 = true ∧
            (s.queues 0).nbMessages = 0 ∧ (s.queues 0).lockedProcesses.size = 0 ∧
            (s.queues 0).size = keyBufferSize) = true :=
        Running.computed [(Event.init 4096 128).step] [] (by decide +kernel)
      obtain ⟨s, hrun, htest⟩ := hrun
      obtain ⟨huser, hprocess, hstdin, hlive, hcount, hwaiters, hsize⟩ := of_decide_eq_true htest
      exact ⟨s, hrun, huser, hprocess, hstdin, hlive, hsize, hcount, hwaiters⟩
  | succ n ih =>
      obtain ⟨s, hs⟩ := ih (by omega)
      exact hs.next (by omega)

/-- A buffer filled by a user process, and a key press. -/
private theorem full_run : ∃ s, Running (fun _ _ => True) s ∧
    s.control = [.keyboardData [97]] ∧ keyboardBlocks s := by
  obtain ⟨s, hs⟩ := exists_filled keyBufferSize (Nat.le_refl _)
  have hrun : exec (Event.key [97]).step s =
      .ok { s with control := .keyboardData [97] :: s.control } := rfl
  have henabled : (Event.key [97]).step.enabled s := hs.user
  refine ⟨_, hs.run.next henabled trivial hrun, ?_, ?_⟩
  · dsimp only
    rw [hs.user]
  · unfold keyboardBlocks pcountValue
    dsimp only
    rw [hs.stdin, hs.count, hs.size, hs.waiters]
    refine ⟨hs.live, ?_, rfl⟩
    decide

theorem key_fed_run : ∃ s, Running (fun _ _ => True) s ∧ keyboardBlocks s ∧
    (KeyFed .available s [] ↔ ¬keyboardBlocks s) := by
  obtain ⟨s, hrun, hcontrol, hblocks⟩ := full_run
  exact ⟨s, hrun, hblocks, key_fed_iff hrun hcontrol⟩

/-- The character that is typed when the buffer is full is not dropped. -/
theorem key_not_fed : ¬∀ s c rest frames mem, Running (fun _ _ => True) s →
    s.control = .keyboardData (c :: rest) :: frames → KeyFed mem s frames := by
  intro hall
  obtain ⟨s, hrun, hcontrol, hblocks⟩ := full_run
  exact (hall s 97 [] [] .available hrun hcontrol).not_blocks hrun hcontrol hblocks

end SchlagOS
