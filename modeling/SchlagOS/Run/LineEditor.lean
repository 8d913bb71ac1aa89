import SchlagOS.Invariant.Boot
import SchlagOS.Invariant.Bystander

/-!
# cons_read is a line editor

A call of `cons_read` is followed from the system call to its return, while
other processes run whenever it waits.  An observer notes how often it calls
`preceive`, the messages it gets that way and what it writes.
-/

namespace SchlagOS

open Foundation

variable {s s' s₁ : Kernel} {step : Step} {mem : Memory} {p q str : Int} {length : Nat}
  {base : Frame} {inner rest : List Frame}

/-! ## The reference line editor -/

/-- The characters that are kept, and whether reading has stopped. -/
structure Line where
  kept : List Int
  stopped : Bool
  deriving DecidableEq, Repr

def Line.read (length : Nat) (line : Line) (message : Int) : Line :=
  let c := message % 256
  if line.stopped then line
  else if c = 13 then { line with stopped := true }
  else if c = 127 then { line with kept := line.kept.dropLast }
  else if c ≤ 126 then ⟨line.kept ++ [c], decide (length ≤ line.kept.length + 1)⟩
  else line

def readLine (length : Nat) (messages : List Int) : Line :=
  messages.foldl (Line.read length) ⟨[], false⟩

section

variable {line : Line} {message : Int}

theorem Line.read_stop (hgo : line.stopped = false) (h : message % 256 = 13) :
    line.read length message = { line with stopped := true } := by
  simp [Line.read, hgo, h]

theorem Line.read_delete (hgo : line.stopped = false) (h : message % 256 = 127) :
    line.read length message = { line with kept := line.kept.dropLast } := by
  simp [Line.read, hgo, h]

theorem Line.read_keep (hgo : line.stopped = false) (hstop : message % 256 ≠ 13)
    (h : message % 256 < 127) : line.read length message =
      ⟨line.kept ++ [message % 256], decide (length ≤ line.kept.length + 1)⟩ := by
  have hne : message % 256 ≠ 127 := by omega
  have hle : message % 256 ≤ 126 := by omega
  simp [Line.read, hgo, hstop, hne, hle]

theorem Line.read_skip (hgo : line.stopped = false) (h : 127 < message % 256) :
    line.read length message = line := by
  have hstop : message % 256 ≠ 13 := by omega
  have hne : message % 256 ≠ 127 := by omega
  have hle : ¬message % 256 ≤ 126 := by omega
  simp [Line.read, hgo, hstop, hne, hle]

end

theorem readLine_concat (length : Nat) (messages : List Int) (message : Int) :
    readLine length (messages ++ [message]) =
      (readLine length messages).read length message := by
  simp [readLine]

/-- A line that is not complete has room for another character. -/
def Line.Fits (length : Nat) (line : Line) : Prop :=
  line.kept.length ≤ length ∧ (line.stopped = false → line.kept.length < length)

theorem Line.Fits.read {line : Line} (h : line.Fits length) (message : Int) :
    (line.read length message).Fits length := by
  unfold Line.read
  dsimp only
  by_cases hgo : line.stopped = true
  · rw [if_pos hgo]
    exact h
  · rw [if_neg hgo]
    have hroom := h.2 (by simpa using hgo)
    split
    · exact ⟨h.1, fun hstop => by cases hstop⟩
    · split
      · refine ⟨?_, fun _ => ?_⟩ <;> simp only [List.length_dropLast] <;> omega
      · split
        · simp only [Line.Fits, List.length_append, List.length_singleton,
            decide_eq_false_iff_not]
          omega
        · exact h

theorem readLine_fits (hlength : 0 < length) (messages : List Int) :
    (readLine length messages).Fits length := by
  induction messages using List.reverseRecOn with
  | nil => exact ⟨Nat.zero_le _, fun _ => hlength⟩
  | append_singleton messages message ih =>
      rw [readLine_concat]
      exact ih.read message

/-! ## What was written -/

/-- The bytes that stand in memory behind the accesses. -/
def written (accesses : List UserAccess) : Int → Option Int :=
  accesses.foldl (fun bytes access =>
    match access with
    | .writeByte address value => Function.update bytes address (some value)
    | _ => bytes) fun _ => none

theorem written_concat (accesses : List UserAccess) (address value : Int) :
    written (accesses ++ [.writeByte address value]) =
      Function.update (written accesses) address (some value) := by
  simp [written]

/-! ## The observer -/

structure ReadNotes where
  calls : Nat
  messages : List Int
  accesses : List UserAccess

def ReadNotes.empty : ReadNotes := ⟨0, [], []⟩

/-- `p` calls `preceive` at the head of the loop of `cons_read`; behind it the message is in
`receiver`, and the body of the loop writes. -/
def ReadNotes.note (p : Int) (_ : Step) (s s' : Kernel) (notes : ReadNotes) : ReadNotes :=
  if s.runningProcess = some p then
    match s.control with
    | .consRead _ length index :: _ =>
        if index < length then { notes with calls := notes.calls + 1 } else notes
    | .consReceived _ _ _ :: _ =>
        { notes with
          messages := notes.messages ++ [s.running.receiver]
          accesses := notes.accesses ++ s'.userAccesses.drop s.userAccesses.length }
    | _ => notes
  else notes

/-- The steps of all processes until a call of `p` has returned, or its slot is reset. -/
def untilReturn (p : Int) : Machine Kernel Step Panic where
  enabled := fun s step => s.stack p ≠ [] ∧ step.enabled s
  step := exec

instance (p : Int) (s : Kernel) (step : Step) : Decidable ((untilReturn p).enabled s step) :=
  inferInstanceAs (Decidable (s.stack p ≠ [] ∧ step.enabled s))

/-- What `cons_read` has done by the time these notes have been taken. -/
structure ConsRead (str : Int) (length : Nat) (p : Int) (s : Kernel) (notes : ReadNotes) :
    Prop where
  bounds : ∀ access ∈ notes.accesses, ∃ i value, i < length ∧
    access = .writeByte (str + (i : Nat)) value
  unstopped : ∀ earlier message, earlier ++ [message] <+: notes.messages →
    (readLine length earlier).stopped = false
  calls : notes.calls ≤ notes.messages.length + 1
  stops : (readLine length notes.messages).stopped = true →
    notes.calls = notes.messages.length ∧
      (s.stack p = [] ∨ s.stack p = [.consRead str length length])
  returned : s.runningProcess = some p → s.stack p = [] →
    (readLine length notes.messages).stopped = true ∧
      s.eax = (readLine length notes.messages).kept.length ∧
      ∀ (i : Nat) (c : Int), (readLine length notes.messages).kept[i]? = some c →
        written notes.accesses (str + i) = some c

/-! ## Inside preceive -/

/-- The frames above `cons_read` while it is in `preceive`. -/
def Frame.inPreceive : Frame → Bool
  | .schedule _ => true
  | .ret _ => true
  | .preceiveResume _ => true
  | _ => false

/-- Somebody runs, and `p` is in `preceive`, or has just returned from it. -/
structure Receiving (p : Int) (base : Frame) (s : Kernel) : Prop where
  running : ∃ q, s.runningProcess = some q
  stack : ∃ inner, s.stack p = inner ++ [base] ∧ ∀ frame ∈ inner, frame.inPreceive = true

def steadyRules (p : Int) (frames : List Frame) : Rules where
  Holds := fun s => s.runningProcess = some p ∧ s.control = frames
  frame := fun _ => False
  destination := fun _ => True
  access := fun _ => True
  node := fun _ _ => True
  spare := fun _ => True
  released := fun _ => True
  null := trivial
  writes _ _ := trivial
  receives _ := trivial
  reprioritised _ _ := trivial
  waiting _ _ _ _ _ := trivial
  still h hstill := ⟨hstill.runningProcess.trans h.1, hstill.control.trans h.2⟩
  write _ _ h _ := h
  setQueues h _ _ := h
  touch h _ := h
  push _ hframe := False.elim hframe
  release h _ := h
  resume h _ := h

theorem receiving_of_control (inner : List Frame) (hrunning : s.runningProcess = some p)
    (hcontrol : s.control = inner ++ [base]) (hinner : ∀ frame ∈ inner, frame.inPreceive = true) :
    Receiving p base s :=
  ⟨⟨p, hrunning⟩, inner, (Kernel.stack_running hrunning).trans hcontrol, hinner⟩

theorem preceive_receiving (hrunning : s.runningProcess = some p) (hcontrol : s.control = [base])
    (fid : Int) (destination : Destination) :
    Meets (preceive mem s fid destination) (Receiving p base) fun _ => True := by
  by_cases hlive : isLive s fid = true
  · have hholds : (steadyRules p [base]).Holds s := ⟨hrunning, hcontrol⟩
    refine (preceive_answers hholds hlive trivial fun _ => trivial).mono (fun s' hs' => ?_)
      fun _ _ => trivial
    have hyields : ∀ (s₁ : Kernel) (frame : Frame), (steadyRules p [base]).Holds s₁ →
        frame.inPreceive = true → Receiving p base (s₁.callSchedule [frame]) := by
      intro s₁ frame h₁ hframe
      refine receiving_of_control [.schedule .zombify, frame] h₁.1 ?_ ?_
      · change .schedule .zombify :: frame :: s₁.control = _
        rw [h₁.2]
        rfl
      · intro f hf
        rcases List.mem_pair.mp hf with rfl | rfl
        · rfl
        · exact hframe
    cases hs' with
    | returns h₁ => exact receiving_of_control [] h₁.1 h₁.2 (by simp)
    | yields h₁ => exact hyields _ _ h₁ rfl
    | blocks h₁ _ => exact hyields _ _ h₁ rfl
  · unfold preceive
    rw [if_pos (by simpa using hlive)]
    exact receiving_of_control [] hrunning hcontrol (by simp)

theorem consReadNext_receiving {index : Nat} (hrunning : s.runningProcess = some p)
    (hcontrol : s.control = []) (hindex : index < length) :
    Meets (consReadNext mem s str length index) (Receiving p (.consReceived str length index))
      fun _ => True := by
  unfold consReadNext
  rw [if_pos hindex]
  exact preceive_receiving (s := { s with control := .consReceived str length index :: s.control })
    hrunning (by rw [hcontrol]) _ _

theorem scheduleStep_receiving (hrunning : s.runningProcess = some p) {phase : SchedulePhase}
    (hcontrol : s.control = .schedule phase :: (inner ++ [base]))
    (hinner : ∀ frame ∈ inner, frame.inPreceive = true) :
    Meets (scheduleStep mem s phase (inner ++ [base])) (Receiving p base) fun _ => True := by
  have hschedule : ∀ phase, ∀ frame ∈ Frame.schedule phase :: inner, frame.inPreceive = true := by
    intro phase frame hframe
    rcases List.mem_cons.mp hframe with rfl | hframe
    · rfl
    · exact hinner frame hframe
  have hholds : ∀ s₁ : Kernel, s₁.runningProcess = s.runningProcess →
      s₁.control = s.control → (steadyRules p s.control).Holds s₁ :=
    fun s₁ hr hc => ⟨hr.trans hrunning, hc⟩
  cases phase with
  | zombify =>
      refine zombifyTurn_meets (fun pid stack _ => ?_) fun _ =>
        receiving_of_control (.schedule .destroy :: inner) hrunning rfl (hschedule _)
      refine (zombify_keeps (hholds { s with pidsToZombify := stack } rfl rfl)
        pid).mono (fun s₁ h₁ => ?_) fun _ _ => trivial
      refine receiving_of_control (.schedule .zombify :: .schedule .zombify :: inner) h₁.1 ?_ ?_
      · change .schedule .zombify :: ([] ++ s₁.control) = _
        rw [h₁.2, hcontrol]
        rfl
      · intro frame hframe
        rcases List.mem_cons.mp hframe with rfl | hframe
        · rfl
        · exact hschedule _ frame hframe
  | destroy =>
      refine destroyTurn_meets (fun pid stack _ => ?_) fun _ =>
        receiving_of_control (.schedule .decide :: inner) hrunning rfl (hschedule _)
      refine (destroy_keeps (hholds { s with pidsToDestroy := stack } rfl rfl)
        pid).mono (fun s₁ h₁ => ?_) fun _ _ => trivial
      exact receiving_of_control (.schedule .destroy :: inner) h₁.1
        (h₁.2.trans hcontrol) (hschedule _)
  | decide =>
      have hpopped : { s with control := inner ++ [base] }.runningProcess = some p := hrunning
      refine (scheduleDecide_stack hpopped).mono (fun s' hs' => ⟨hs'.1, inner, ?_, hinner⟩)
        fun _ _ => trivial
      rw [hs'.2, Kernel.stack_running hpopped]

/-- A step of `p` inside `preceive`. -/
theorem kernelStep_receiving {frame : Frame} (hrunning : s.runningProcess = some p)
    (hcontrol : s.control = frame :: (inner ++ [base])) (hframe : frame.inPreceive = true)
    (hinner : ∀ frame ∈ inner, frame.inPreceive = true) :
    Meets (kernelStep mem s) (Receiving p base) fun _ => True := by
  unfold kernelStep
  rw [hcontrol]
  dsimp only
  cases frame with
  | schedule phase => exact scheduleStep_receiving hrunning hcontrol hinner
  | ret value => exact receiving_of_control inner hrunning rfl hinner
  | preceiveResume pid =>
      have hholds : (steadyRules p (inner ++ [base])).Holds
          { s with control := inner ++ [base] } := ⟨hrunning, rfl⟩
      have hresumed := messageResume_keeps hholds pid
      exact receiving_of_control inner hresumed.1 hresumed.2 hinner
  | _ => cases hframe

/-! ## The loop -/

/-- Where the call is, in a line that has been edited so far. -/
inductive ReadStage (str : Int) (length : Nat) (p : Int) (s : Kernel) (line : Line)
    (calls answers : Nat) : Prop
  | head (hrunning : ∃ q, s.runningProcess = some q)
      (hstack : s.stack p = [.consRead str length line.kept.length])
      (hstop : line.stopped = true → line.kept.length = length) (hcalls : calls = answers)
  | body (h : Receiving p (.consReceived str length line.kept.length) s)
      (hgo : line.stopped = false) (hcalls : calls = answers + 1)
  | returned (hrunning : s.runningProcess = some p) (hstack : s.stack p = [])
      (hstop : line.stopped = true) (hresult : s.eax = line.kept.length)
      (hcalls : calls = answers)
  | lost (hstack : s.stack p = []) (hother : s.runningProcess ≠ some p)
      (hcalls : calls ≤ answers + 1) (hstop : line.stopped = true → calls = answers)

/-- The notes of a call that has not gone wrong. -/
structure Edited (str : Int) (length : Nat) (notes : ReadNotes) : Prop where
  bounds : ∀ access ∈ notes.accesses, ∃ i value, i < length ∧
    access = .writeByte (str + (i : Nat)) value
  unstopped : ∀ earlier message, earlier ++ [message] <+: notes.messages →
    (readLine length earlier).stopped = false
  kept : ∀ (i : Nat) (c : Int), (readLine length notes.messages).kept[i]? = some c →
    written notes.accesses (str + i) = some c

/-- The calls of `preceive` that are counted do not matter to what was written. -/
theorem Edited.count {notes : ReadNotes} (h : Edited str length notes) (calls : Nat) :
    Edited str length { notes with calls := calls } := ⟨h.bounds, h.unstopped, h.kept⟩

theorem Edited.empty : Edited str length .empty where
  bounds := by simp [ReadNotes.empty]
  unstopped earlier message h := by
    have hnil := List.prefix_nil.mp h
    simp at hnil
  kept i c h := by simp [ReadNotes.empty, readLine] at h

/-- The line after one more message, with the byte that the loop writes for it. -/
theorem Edited.read {notes : ReadNotes} {message : Int} {accesses : List UserAccess}
    (h : Edited str length notes) (hlength : 0 < length)
    (hgo : (readLine length notes.messages).stopped = false)
    (haccesses : accesses = if message % 256 < 127 ∧ message % 256 ≠ 13 then
      [.writeByte (str + (readLine length notes.messages).kept.length) (message % 256)]
      else []) :
    Edited str length { notes with
      messages := notes.messages ++ [message], accesses := notes.accesses ++ accesses } := by
  have hroom := (readLine_fits hlength notes.messages).2 hgo
  have hunstopped : ∀ earlier later, earlier ++ [later] <+: notes.messages ++ [message] →
      (readLine length earlier).stopped = false := by
    intro earlier later hprefix
    rcases List.prefix_concat_iff.mp hprefix with heq | hprefix
    · obtain ⟨rfl, -⟩ := List.append_inj' heq rfl
      exact hgo
    · exact h.unstopped earlier later hprefix
  refine ⟨fun access haccess => ?_, hunstopped, fun i c hc => ?_⟩
  · rcases List.mem_append.mp haccess with haccess | haccess
    · exact h.bounds access haccess
    · rw [haccesses] at haccess
      split at haccess
      · rw [List.mem_singleton] at haccess
        exact ⟨_, _, hroom, haccess⟩
      · cases haccess
  · dsimp only at hc ⊢
    rw [readLine_concat] at hc
    have hsame : accesses = [] → (readLine length notes.messages).kept[i]? = some c →
        written (notes.accesses ++ accesses) (str + i) = some c := by
      rintro rfl hkept
      rw [List.append_nil]
      exact h.kept i c hkept
    by_cases hstop : message % 256 = 13
    · rw [Line.read_stop hgo hstop] at hc
      exact hsame (by simp [haccesses, hstop]) hc
    rcases Int.lt_trichotomy (message % 256) 127 with hkeep | hdelete | hskip
    · rw [Line.read_keep hgo hstop hkeep] at hc
      dsimp only at hc
      rw [haccesses, if_pos ⟨hkeep, hstop⟩, written_concat]
      rcases Nat.lt_trichotomy i (readLine length notes.messages).kept.length with hlt | heq | hgt
      · rw [List.getElem?_append_left hlt] at hc
        rw [Function.update_of_ne (by omega)]
        exact h.kept i c hc
      · subst heq
        rw [Function.update_self]
        simpa using hc
      · rw [List.getElem?_eq_none (by simp; omega)] at hc
        cases hc
    · rw [Line.read_delete hgo hdelete] at hc
      refine hsame (by simp [haccesses, hdelete]) ?_
      rw [List.getElem?_dropLast] at hc
      split at hc
      · exact hc
      · cases hc
    · rw [Line.read_skip hgo hskip] at hc
      exact hsame (by rw [haccesses, if_neg (by omega)]) hc

/-- One turn of the loop, from the head of its body on. -/
theorem consReceived_reads {notes : ReadNotes} (hlength : 0 < length)
    (hrunning : s.runningProcess = some p)
    (hcontrol : s.control = [.consReceived str length (readLine length notes.messages).kept.length])
    (hgo : (readLine length notes.messages).stopped = false)
    (hcalls : notes.calls = notes.messages.length + 1) (h : Edited str length notes) :
    Meets (kernelStep mem s)
      (fun s' => Edited str length (notes.note p step s s') ∧
        ReadStage str length p s' (readLine length (notes.note p step s s').messages)
          (notes.note p step s s').calls (notes.note p step s s').messages.length)
      fun _ => True := by
  have hfits := readLine_fits hlength notes.messages
  have hroom := hfits.2 hgo
  -- The notes and the line after a turn in which the loop writes `accesses`.
  have hnext : ∀ (s' : Kernel) (accesses : List UserAccess),
      s'.userAccesses = s.userAccesses ++ accesses →
      (accesses = if s.running.receiver % 256 < 127 ∧ s.running.receiver % 256 ≠ 13 then
        [.writeByte (str + (readLine length notes.messages).kept.length)
          (s.running.receiver % 256)] else []) →
      (ReadStage str length p s' ((readLine length notes.messages).read length s.running.receiver)
        notes.calls (notes.messages.length + 1)) →
      Edited str length (notes.note p step s s') ∧
        ReadStage str length p s' (readLine length (notes.note p step s s').messages)
          (notes.note p step s s').calls (notes.note p step s s').messages.length := by
    intro s' accesses hs' haccesses hstage
    have hnote : notes.note p step s s' = { notes with
        messages := notes.messages ++ [s.running.receiver]
        accesses := notes.accesses ++ accesses } := by
      unfold ReadNotes.note
      rw [if_pos hrunning, hcontrol]
      dsimp only
      rw [hs', List.drop_left]
    rw [hnote]
    refine ⟨h.read hlength hgo haccesses, ?_⟩
    dsimp only
    rw [readLine_concat, List.length_append, List.length_singleton]
    exact hstage
  unfold kernelStep
  rw [hcontrol]
  dsimp only
  unfold consReceived
  rw [meets_bind, meets_require]
  refine ⟨fun _ => ?_, fun _ => trivial⟩
  dsimp only
  change Meets (if s.running.receiver % 256 = 13 then _ else _) _ _
  rw [meets_ite]
  refine ⟨fun hstop => ?_, fun hstop => ?_⟩
  · refine hnext _ [] (List.append_nil _).symm (by simp [hstop]) ?_
    rw [Line.read_stop hgo hstop]
    exact .returned hrunning (Kernel.stack_running hrunning) rfl rfl hcalls
  -- Back at the head of the loop.
  have hhead : ∀ (s' : Kernel) (line : Line), s'.runningProcess = some p →
      s'.control = [.consRead str length line.kept.length] →
      (line.stopped = true → line.kept.length = length) →
      ReadStage str length p s' line notes.calls (notes.messages.length + 1) :=
    fun s' line hr hc hstop =>
      .head ⟨p, hr⟩ ((Kernel.stack_running hr).trans hc) hstop hcalls
  rw [meets_ite]
  refine ⟨fun (hdelete : s.running.receiver % 256 = 127) => ?_,
    fun (hdelete : s.running.receiver % 256 ≠ 127) => ?_⟩
  · refine hnext _ [] (List.append_nil _).symm (if_neg (by omega)).symm ?_
    rw [Line.read_delete hgo hdelete]
    refine hhead _ _ hrunning ?_ fun hstopped => absurd hstopped (by simp [hgo])
    rw [List.length_dropLast]
  rw [meets_ite]
  refine ⟨fun (hkeep : s.running.receiver % 256 < 127) => ?_,
    fun (hskip : ¬s.running.receiver % 256 < 127) => ?_⟩
  · refine hnext _ [.writeByte (str + (readLine length notes.messages).kept.length)
      (s.running.receiver % 256)] rfl (if_pos ⟨hkeep, hstop⟩).symm ?_
    rw [Line.read_keep hgo hstop hkeep]
    refine hhead _ _ hrunning ?_ fun hfull => ?_
    · rw [List.length_append, List.length_singleton]
    · have hle := of_decide_eq_true hfull
      rw [List.length_append, List.length_singleton]
      omega
  · refine hnext _ [] (List.append_nil _).symm (if_neg (by omega)).symm ?_
    rw [Line.read_skip hgo (by omega)]
    exact hhead _ _ hrunning rfl fun hstopped => absurd hstopped (by simp [hgo])

/-- At the head of the loop `preceive` is called, or the line is complete. -/
theorem consRead_reads {notes : ReadNotes} (hlength : 0 < length)
    (hrunning : s.runningProcess = some p)
    (hcontrol : s.control = [.consRead str length (readLine length notes.messages).kept.length])
    (hstop : (readLine length notes.messages).stopped = true →
      (readLine length notes.messages).kept.length = length)
    (hcalls : notes.calls = notes.messages.length) (h : Edited str length notes) :
    Meets (kernelStep mem s)
      (fun s' => Edited str length (notes.note p step s s') ∧
        ReadStage str length p s' (readLine length (notes.note p step s s').messages)
          (notes.note p step s s').calls (notes.note p step s s').messages.length)
      fun _ => True := by
  have hfits := readLine_fits hlength notes.messages
  have hnote : ∀ s', notes.note p step s s' =
      if (readLine length notes.messages).kept.length < length then
        { notes with calls := notes.calls + 1 } else notes := by
    intro s'
    unfold ReadNotes.note
    rw [if_pos hrunning, hcontrol]
  unfold kernelStep
  rw [hcontrol]
  dsimp only
  have hpopped : { s with control := [] }.runningProcess = some p := hrunning
  by_cases hroom : (readLine length notes.messages).kept.length < length
  · have hgo : (readLine length notes.messages).stopped = false := by
      cases hstopped : (readLine length notes.messages).stopped with
      | false => rfl
      | true => exact absurd (hstop hstopped) (by omega)
    refine (consReadNext_receiving hpopped rfl hroom).mono (fun s' hs' => ?_) fun _ he => he
    rw [hnote, if_pos hroom]
    exact ⟨h.count _, .body hs' hgo (by rw [hcalls])⟩
  · unfold consReadNext
    rw [if_neg hroom, meets_ok, hnote, if_neg hroom]
    refine ⟨h, .returned hrunning (Kernel.stack_running hpopped) ?_ rfl hcalls⟩
    cases hstopped : (readLine length notes.messages).stopped with
    | true => rfl
    | false => exact absurd (hfits.2 hstopped) hroom

theorem reads_step {notes : ReadNotes} (hlength : 0 < length) (h : Edited str length notes)
    (hstage : ReadStage str length p s (readLine length notes.messages) notes.calls
      notes.messages.length) (henabled : (untilReturn p).enabled s step)
    (hrun : exec step s = .ok s') :
    Edited str length (notes.note p step s s') ∧
      ReadStage str length p s' (readLine length (notes.note p step s s').messages)
        (notes.note p step s s').calls (notes.note p step s s').messages.length := by
  obtain ⟨hsome, henabled⟩ := henabled
  have hrunning : ∃ q, s.runningProcess = some q := by
    cases hstage with
    | head hrunning _ _ _ => exact hrunning
    | body hreceiving _ _ => exact hreceiving.running
    | returned hrunning _ _ _ _ => exact ⟨p, hrunning⟩
    | lost hstack _ _ _ => exact absurd hstack hsome
  obtain ⟨q, hq⟩ := hrunning
  by_cases hqp : p = q
  · subst hqp
    have hstack := Kernel.stack_running hq
    rw [hstack] at hsome
    rw [exec_kernel henabled hsome] at hrun
    cases hstage with
    | head _ hframes hstop hcalls =>
        exact (consRead_reads hlength hq (hstack.symm.trans hframes) hstop hcalls h).of_ok hrun
    | body hreceiving hgo hcalls =>
        obtain ⟨inner, hframes, hinner⟩ := hreceiving.stack
        rw [hstack] at hframes
        cases inner with
        | nil => exact (consReceived_reads hlength hq hframes hgo hcalls h).of_ok hrun
        | cons frame inner =>
            have hframe := hinner frame (by simp)
            have hnote : notes.note p step s s' = notes := by
              unfold ReadNotes.note
              rw [if_pos hq, hframes]
              cases frame <;> first | rfl | cases hframe
            rw [hnote]
            refine ⟨h, .body ?_ hgo hcalls⟩
            exact (kernelStep_receiving hq hframes hframe
              fun f hf => hinner f (List.mem_cons_of_mem _ hf)).of_ok hrun
    | returned _ hframes _ _ _ => exact absurd (hstack.symm.trans hframes) hsome
    | lost hframes _ _ _ => exact absurd (hstack.symm.trans hframes) hsome
  · have hnote : notes.note p step s s' = notes := by
      unfold ReadNotes.note
      rw [hq, if_neg fun heq => hqp (Option.some.inj heq).symm]
    rw [hnote]
    refine ⟨h, ?_⟩
    obtain ⟨hrunning', hkept⟩ := exec_bystander hq hqp hrun
    cases hstage with
    | head _ hframes hstop hcalls =>
        rcases hkept with heq | ⟨hnil, hother⟩
        · exact .head hrunning' (heq.trans hframes) hstop hcalls
        · exact .lost hnil hother (by omega) fun _ => hcalls
    | body hreceiving hgo hcalls =>
        rcases hkept with heq | ⟨hnil, hother⟩
        · refine .body ⟨hrunning', ?_⟩ hgo hcalls
          rw [heq]
          exact hreceiving.stack
        · exact .lost hnil hother hcalls.le fun hstopped => absurd hstopped (by simp [hgo])
    | returned _ hframes _ _ _ => exact absurd hframes hsome
    | lost hframes _ _ _ => exact absurd hframes hsome

/-- A call of `cons_read` does what the line editor does with the messages that it gets. -/
theorem cons_read_edits {steps : List Step} {notes : ReadNotes}
    (hrunning : s.runningProcess = some p)
    (henabled : (Step.mk mem (.call (.consRead str length))).enabled s)
    (hstr : checkArg str = true)
    (hcall : exec ⟨mem, .call (.consRead str length)⟩ s = .ok s₁)
    (hpath : Path ((untilReturn p).observing (ReadNotes.note p)) (s₁, .empty) steps (s', notes)) :
    ConsRead str length p s' notes := by
  have hcalled : consRead s str length = .ok s₁ := by
    unfold exec syscallHandler at hcall
    simpa [hstr] using hcall
  obtain ⟨⟨⟩, hrequire, hs₁⟩ := bind_eq_ok.mp hcalled
  have hlength : 0 < length := by
    by_contra hzero
    rw [require, if_neg hzero] at hrequire
    cases hrequire
  have hcontrol : s₁.control = [.consRead str length 0] := by
    rw [← Except.ok.inj hs₁]
    change .consRead str length 0 :: s.control = _
    rw [henabled.1]
  have hrunning₁ : s₁.runningProcess = some p := by
    rw [← Except.ok.inj hs₁]
    exact hrunning
  obtain ⟨hedited, hstage⟩ := hpath.induct (P := fun _ x => Edited str length x.2 ∧
    ReadStage str length p x.1 (readLine length x.2.messages) x.2.calls x.2.messages.length)
    ⟨.empty, .head ⟨p, hrunning₁⟩ ((Kernel.stack_running hrunning₁).trans hcontrol)
      (fun hstopped => by cases hstopped) rfl⟩ (by
      rintro steps ⟨t, seen⟩ step x - ⟨hedited, hstage⟩ hstep hrun
      obtain ⟨t', hrun', rfl⟩ := Machine.observing_step hrun
      exact reads_step hlength hedited hstage hstep hrun')
  refine ⟨hedited.bounds, hedited.unstopped, ?_, fun hstopped => ?_, fun hr hnil => ?_⟩
  · cases hstage <;> dsimp only at * <;> omega
  · cases hstage with
    | head _ hstack hstop hcalls => exact ⟨hcalls, .inr (by rw [hstack, hstop hstopped])⟩
    | body _ hgo _ => exact absurd hstopped (by simp [hgo])
    | returned _ hstack _ _ hcalls => exact ⟨hcalls, .inl hstack⟩
    | lost hstack _ _ hstop => exact ⟨hstop hstopped, .inl hstack⟩
  · cases hstage with
    | head _ hstack _ _ =>
        rw [hnil] at hstack
        cases hstack
    | body h _ _ =>
        obtain ⟨inner, hstack, -⟩ := h.stack
        simp [hnil] at hstack
    | returned _ _ hstopped hresult _ => exact ⟨hstopped, hresult, hedited.kept⟩
    | lost _ hother _ _ => exact absurd hr hother

/-- Process 2 reads a line of two characters, of which one replaces a deleted one. -/
theorem cons_read_edits_run : ∃ (s : Kernel) (notes : ReadNotes),
    s.runningProcess = some 2 ∧ s.stack 2 = [] ∧ notes.messages = [97, 98, 127, 99, 13] ∧
      s.eax = 2 ∧ written notes.accesses 0x1000001 = some 99 ∧
      ConsRead 0x1000000 8 2 s notes := by
  have hrun : ∃ s, Running (fun _ _ => True) s ∧
      decide (s.runningProcess = some 2 ∧
        (Step.mk .available (.call (.consRead 0x1000000 8))).enabled s ∧
        okAnd (fun s₁ => checkRun ((untilReturn 2).observing (ReadNotes.note 2)) (fun _ _ => True)
            (fun x => decide (x.1.runningProcess = some 2 ∧ x.1.stack 2 = [] ∧
              x.2.messages = [97, 98, 127, 99, 13] ∧ x.1.eax = 2 ∧
              written x.2.accesses 0x1000001 = some 99)) (s₁, .empty)
            (List.replicate 10 ⟨.available, .kernel⟩))
          (exec ⟨.available, .call (.consRead 0x1000000 8)⟩ s) = true) = true :=
    Running.computed ([Event.init 4096 128, .key [97, 98, 127, 99, 13]].map Event.step) []
      (by decide +kernel)
  obtain ⟨s, -, htest⟩ := hrun
  obtain ⟨hrunning, henabled, hcheck⟩ := of_decide_eq_true htest
  obtain ⟨s₁, hcall, hcheck⟩ := okAnd_iff.mp hcheck
  obtain ⟨⟨s', notes⟩, hpath, htest'⟩ := Path.of_checkRun hcheck
  obtain ⟨hrunning', hstack, hmessages, heax, hwritten⟩ := of_decide_eq_true htest'
  exact ⟨s', notes, hrunning', hstack, hmessages, heax, hwritten,
    cons_read_edits hrunning henabled (by decide) hcall hpath⟩

end SchlagOS
