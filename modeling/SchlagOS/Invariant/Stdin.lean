import SchlagOS.Invariant.Rules
import SchlagOS.Invariant.Stack
import Mathlib.Data.List.Chain

/-!
# Calls that the console waits for

`keyboard_data` and `cons_read` assert that the calls of `psend` and `preceive`
that they make return 0.  Such a call stands on the stack right above the frame
that waits for it: it has already returned 0, or it blocked and returns 0 when
nobody has released it by a reset.
-/

namespace SchlagOS

open Foundation

/-- The process for which a blocked call for a message goes on. -/
def Frame.resumes : Frame → Option Int
  | .psendResume pid => some pid
  | .preceiveResume pid => some pid
  | _ => none

/-- The frame `below` waits for a call whose end is `above`, and gets the answer 0. -/
def Answered (waits : Int → Prop) (above below : Frame) : Prop :=
  below.isOuter = true → above = .ret 0 ∨ ∃ q, above.resumes = some q ∧ waits q

/-- The stack of a process that no call returns to right now. -/
structure Served (waits : Int → Prop) (frames : List Frame) : Prop where
  chain : frames.IsChain (Answered waits)
  head : ∀ f, frames.head? = some f → f.isOuter = false

variable {waits waits' : Int → Prop} {frame : Frame} {frames : List Frame}

theorem Served.nil : Served waits [] where
  chain := .nil
  head := by simp

theorem Served.push (h : Served waits frames) (hframe : frame.isOuter = false) :
    Served waits (frame :: frames) where
  chain := by
    refine List.isChain_cons.mpr ⟨fun below hbelow houter => ?_, h.chain⟩
    rw [h.head below hbelow] at houter
    cases houter
  head f hf := by
    rw [← Option.some.inj hf]
    exact hframe

theorem Served.imp (h : Served waits frames) (himp : ∀ q, waits q → waits' q) :
    Served waits' frames where
  chain := h.chain.imp fun _ _ hanswered houter =>
    (hanswered houter).imp id fun ⟨q, hq, hwaits⟩ => ⟨q, hq, himp q hwaits⟩
  head := h.head

/-- Below a frame that is no end of a call for a message nothing waits for one. -/
theorem served_tail (h : (frame :: frames).IsChain (Answered waits)) (hret : frame ≠ .ret 0)
    (hresumes : frame.resumes = none) : Served waits frames where
  chain := (List.isChain_cons.mp h).2
  head f hf := by
    by_contra houter
    rcases (List.isChain_cons.mp h).1 f hf (by simpa using houter) with hzero | ⟨q, hq, -⟩
    · exact hret hzero
    · rw [hresumes] at hq
      cases hq

/-! ## What the primitives keep -/

/-- The queue of the console is live, and the stacks of `waits` are served.  `target` is a
queue that is reset, on which nobody of `waits` may wait. -/
structure Stdin (fid : Int) (r running : Option Int) (target : Option Int)
    (waits : Int → Prop) (top : List Frame → Prop) (s : Kernel) : Prop where
  stdinFid : s.stdinFid = fid
  running : s.runningProcess = running
  live : isLive s fid = true
  size : (s.queues fid).size = keyBufferSize
  down : ∀ q, waits q → s.resetReleases (q - 1) = false
  control : top s.control
  context : ∀ p, r ≠ some p → Served waits (s.data p).executionContext
  waiting : ∀ x, (s.queues x).lockedProcesses.Every fun content =>
    target = some x → ¬waits content.pid

variable {fid : Int} {r running target : Option Int} {top : List Frame → Prop}
  {frame : Frame → Prop} {s s' : Kernel} {mem : Memory}

namespace Stdin

theorem still (h : Stdin fid r running target waits top s) (hstill : Still s s') :
    Stdin fid r running target waits top s' where
  stdinFid := hstill.stdinFid.trans h.stdinFid
  running := hstill.runningProcess.trans h.running
  live := by
    unfold isLive
    rw [hstill.queues]
    exact h.live
  size := by
    rw [hstill.queues]
    exact h.size
  down q hq := by
    rw [hstill.resetReleases]
    exact h.down q hq
  control := by
    rw [hstill.control]
    exact h.control
  context p hp := by
    rw [hstill.context]
    exact h.context p hp
  waiting x := by
    rw [hstill.queues]
    exact h.waiting x

theorem write (h : Stdin fid r running target waits top s) (p : Int) (f : Process → Process)
    (hf : r ≠ some p → Served waits (f (s.data p)).executionContext) :
    Stdin fid r running target waits top (s.update p f) :=
  { h with
    context := by
      intro x hx
      unfold Kernel.update
      dsimp only
      by_cases hxp : x = p
      · rw [hxp, Function.update_self]
        exact hf (hxp ▸ hx)
      · rw [Function.update_of_ne hxp]
        exact h.context x hx }

theorem setQueues (h : Stdin fid r running target waits top s) {queues : Int → MessageQueue}
    (hlists : ∀ x, (queues x).lockedProcesses.Every fun content =>
      target = some x → ¬waits content.pid)
    (hsame : ∀ x, x ≠ fid ∨ (queues x).allocated = (s.queues x).allocated ∧
      (queues x).size = (s.queues x).size) :
    Stdin fid r running target waits top { s with queues := queues } := by
  obtain ⟨hallocated, hsize⟩ := (hsame fid).resolve_left fun hne => hne rfl
  exact { h with
    live := by
      have hlive := h.live
      unfold isLive at hlive ⊢
      dsimp only
      rwa [hallocated]
    size := hsize.trans h.size
    waiting := hlists }

theorem setRelease (h : Stdin fid r running target waits top s) {p : Int} {flag : Bool}
    (hflag : waits p → flag = false) : Stdin fid r running target waits top
      { s with resetReleases := Function.update s.resetReleases (p - 1) flag } :=
  { h with
    down := by
      intro q hq
      dsimp only
      by_cases hqp : q - 1 = p - 1
      · rw [hqp, Function.update_self]
        exact hflag (by rwa [show p = q by omega])
      · rw [Function.update_of_ne hqp]
        exact h.down q hq }

end Stdin

def stdinRules (fid : Int) (r running target : Option Int) (waits : Int → Prop)
    (top : List Frame → Prop) (frame : Frame → Prop)
    (hpush : ∀ f frames, top frames → frame f → top (f :: frames)) : Rules where
  Holds := Stdin fid r running target waits top
  frame := frame
  destination := fun _ => True
  access := fun _ => True
  node := fun x content => target = some x → ¬waits content.pid
  spare := fun x => x ≠ fid
  released := fun p => ¬waits p
  null := trivial
  writes _ _ := trivial
  receives _ := trivial
  reprioritised hnode _ := hnode
  waiting h := h.waiting
  still h hstill := h.still hstill
  write p f h hcontext := by
    refine h.write p f fun hp => ?_
    rcases hcontext with heq | hnil
    · rw [heq]
      exact h.context p hp
    · rw [hnil]
      exact .nil
  setQueues h hlists hsame := h.setQueues hlists hsame
  touch h _ := ⟨h.stdinFid, h.running, h.live, h.size, h.down, h.control, h.context, h.waiting⟩
  push h hframe := { h with control := hpush _ _ h.control hframe }
  release h hp := h.setRelease fun hwaits => absurd hwaits hp
  resume h p := h.setRelease fun _ => rfl

/-- The rules for a process that nothing on its stack waits for. -/
def userRules (fid : Int) (r running target : Option Int) (waits : Int → Prop) : Rules :=
  stdinRules fid r running target waits (Served waits) (fun f => f.isOuter = false)
    fun _ _ h hframe => h.push hframe

theorem userRules_calls (fid : Int) (r running target : Option Int) (waits : Int → Prop) :
    (userRules fid r running target waits).Calls where
  schedule := rfl
  startReturn _ := rfl
  exitLoop := rfl
  ret _ := rfl
  waitpid _ _ _ := ⟨rfl, rfl⟩
  psendResume _ := rfl
  preceiveResume _ := rfl
  clockTick := rfl

/-- The rules inside a call that a frame waits for. -/
def consoleRules (fid : Int) (r : Option Int) (waits : Int → Prop) (frames : List Frame) :
    Rules :=
  stdinRules fid r r none waits (fun control => control = frames) (fun _ => False)
    fun _ _ _ hframe => False.elim hframe

end SchlagOS
