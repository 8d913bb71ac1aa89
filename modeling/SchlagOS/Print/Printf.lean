import SchlagOS.Print.Doprnt
import SchlagOS.Screen.Layout
import Mathlib.Data.List.Induction

/-!
# printf and sprintf

What is done with the characters of `_doprnt`: `printf` collects them in a
buffer of 128 characters for the console, `sprintf` and `snprintf` store them
in memory.
-/

namespace SchlagOS.Print

open Foundation

variable {chars : List Nat} {memory : Nat → Nat} {c s size : Nat}

/-! ## printf -/

def printfBufmax : Nat := 128

/-- The characters in the buffer, and the calls of `console_putbytes` so far. -/
structure PrintfState where
  buf : List Nat
  calls : List (List Nat)
  deriving DecidableEq, Repr

def flush (state : PrintfState) : PrintfState := ⟨[], state.calls ++ [state.buf]⟩

def printfChar (state : PrintfState) (c : Nat) : PrintfState :=
  if c = 0 ∨ c = 10 ∨ printfBufmax ≤ state.buf.length then
    let state := flush state
    { state with calls := state.calls ++ [[c]] }
  else { state with buf := state.buf ++ [c] }

/-- The calls of `console_putbytes`. -/
def printf (fmt : List Nat) (args : List Arg) : Except Fault (List (List Nat)) := do
  let chars ← doprnt fmt args 0
  let state := chars.foldl printfChar ⟨[], []⟩
  return (if state.buf.length ≠ 0 then flush state else state).calls

/-- What the buffer never loses or reorders. -/
structure Buffered (chars : List Nat) (state : PrintfState) : Prop where
  all : state.calls.flatten ++ state.buf = chars
  room : state.buf.length ≤ printfBufmax
  small : ∀ call ∈ state.calls, call.length ≤ printfBufmax
  lines : 10 ∉ state.buf ∧ ∀ call ∈ state.calls, 10 ∈ call → call = [10]

theorem Buffered.printfChar {state : PrintfState} (h : Buffered chars state) (c : Nat) :
    Buffered (chars ++ [c]) (printfChar state c) := by
  unfold Print.printfChar
  split_ifs with hkeep
  · refine ⟨?_, by simp [flush], ?_, by simp [flush], ?_⟩
    · simp [flush, ← h.all]
    · intro call hcall
      simp only [flush, List.append_assoc, List.mem_append, List.mem_singleton] at hcall
      rcases hcall with hcall | rfl | rfl
      · exact h.small call hcall
      · exact h.room
      · simp [printfBufmax]
    · intro call hcall hline
      simp only [flush, List.append_assoc, List.mem_append, List.mem_singleton] at hcall
      rcases hcall with hcall | rfl | rfl
      · exact h.lines.2 call hcall hline
      · exact absurd hline h.lines.1
      · rw [List.mem_singleton.mp hline]
  · rw [not_or, not_or, not_le] at hkeep
    obtain ⟨-, hnewline, hroom⟩ := hkeep
    refine ⟨?_, ?_, h.small, ?_, h.lines.2⟩
    · rw [← h.all, List.append_assoc]
    · rw [List.length_append]
      exact hroom
    · simp [h.lines.1, Ne.symm hnewline]

theorem buffered_foldl (chars : List Nat) :
    Buffered chars (chars.foldl printfChar ⟨[], []⟩) := by
  induction chars using List.reverseRecOn with
  | nil => exact ⟨rfl, by simp, by simp, by simp, by simp⟩
  | append_singleton chars c ih =>
      rw [List.foldl_append, List.foldl_cons, List.foldl_nil]
      exact ih.printfChar c

/-- What is left in the buffer is flushed at the end. -/
theorem Buffered.close {state : PrintfState} (h : Buffered chars state) :
    Buffered chars (if state.buf.length ≠ 0 then flush state else state) ∧
      (if state.buf.length ≠ 0 then flush state else state).buf = [] := by
  split_ifs with hempty
  · refine ⟨⟨?_, by simp [flush], ?_, by simp [flush], ?_⟩, rfl⟩
    · simp [flush, ← h.all]
    · intro call hcall
      rcases List.mem_append.mp hcall with hcall | hcall
      · exact h.small call hcall
      · rw [List.mem_singleton.mp hcall]
        exact h.room
    · intro call hcall hline
      rcases List.mem_append.mp hcall with hcall | hcall
      · exact h.lines.2 call hcall hline
      · rw [List.mem_singleton.mp hcall] at hline
        exact absurd hline h.lines.1
  · rw [not_not, List.length_eq_zero_iff] at hempty
    exact ⟨h, hempty⟩

theorem Buffered.putChunks {state : PrintfState} (h : Buffered chars state)
    (hempty : state.buf = []) (k : Console) :
    putChunks state.calls k = consolePutbytes chars k := by
  rw [putChunks_eq, ← h.all, hempty, List.append_nil]

/-- What `printf` hands to the console. -/
theorem printf_eq {fmt : List Nat} {args : List Arg} (h : doprnt fmt args 0 = .ok chars) :
    ∃ state, Buffered chars state ∧ state.buf = [] ∧ printf fmt args = .ok state.calls := by
  have hclosed := (buffered_foldl chars).close
  refine ⟨_, hclosed.1, hclosed.2, ?_⟩
  rw [printf, h]
  rfl

/-- What reaches the console does not depend on how `printf` cuts it: the characters of the
format in their order, at most 128 in one call, and every newline in a call of its own. -/
theorem printf_console (fmt : List Nat) (args : List Arg) :
    Coupled (fun calls chars => (∀ k, putChunks calls k = consolePutbytes chars k) ∧
        (∀ call ∈ calls, call.length ≤ printfBufmax) ∧ ∀ call ∈ calls, 10 ∈ call → call = [10])
      (printf fmt args) (doprnt fmt args 0) := by
  cases hchars : doprnt fmt args 0 with
  | error e =>
      rw [printf, hchars]
      exact .error e
  | ok chars =>
      obtain ⟨state, hbuffered, hempty, hprintf⟩ := printf_eq hchars
      rw [hprintf]
      exact .ok ⟨hbuffered.putChunks hempty, hbuffered.small, hbuffered.lines.2⟩

/-! ## sprintf -/

def sprintfUnlimited : Nat := 0xfffffff

structure SprintfState where
  memory : Nat → Nat
  buf : Nat
  len : Nat
  max : Nat

def savechar (state : SprintfState) (c : Nat) : SprintfState :=
  if state.max ≠ sprintfUnlimited ∧ state.len = state.max then state
  else
    { state with
      memory := Function.update state.memory state.buf c
      buf := state.buf + 1
      len := state.len + 1 }

/-- The value that is returned, and the memory behind the call. -/
def vsnprintf (memory : Nat → Nat) (s size : Nat) (fmt : List Nat) (args : List Arg) :
    Except Fault (Nat × (Nat → Nat)) := do
  let chars ← doprnt fmt args 0
  let state := chars.foldl savechar ⟨memory, s, 0, size⟩
  return (state.len, Function.update state.memory state.buf 0)

/-- `vsprintf` differs from `vsnprintf` in the bound alone. -/
def vsprintf (memory : Nat → Nat) (s : Nat) (fmt : List Nat) (args : List Arg) :
    Except Fault (Nat × (Nat → Nat)) :=
  vsnprintf memory s sprintfUnlimited fmt args

/-- Bytes stored from an address on. -/
def stored (memory : Nat → Nat) (s : Nat) (bytes : List Nat) (address : Nat) : Nat :=
  if s ≤ address then (bytes[address - s]?).getD (memory address) else memory address

/-- The characters that are stored. -/
def shown (size : Nat) (chars : List Nat) : List Nat :=
  if size = sprintfUnlimited then chars else chars.take size

theorem stored_nil (memory : Nat → Nat) (s : Nat) : stored memory s [] = memory := by
  funext address
  unfold stored
  split <;> rfl

theorem stored_concat (memory : Nat → Nat) (s : Nat) (bytes : List Nat) (c : Nat) :
    stored memory s (bytes ++ [c]) =
      Function.update (stored memory s bytes) (s + bytes.length) c := by
  funext address
  by_cases hlast : address = s + bytes.length
  · have hindex : address - s = bytes.length := by omega
    rw [hlast, Function.update_self, stored, if_pos (by omega), ← hlast, hindex,
      List.getElem?_concat_length, Option.getD_some]
  · rw [Function.update_of_ne hlast]
    unfold stored
    by_cases hbefore : s ≤ address
    · rw [if_pos hbefore, if_pos hbefore]
      rcases lt_or_ge (address - s) bytes.length with hinside | hbehind
      · rw [List.getElem?_append_left hinside]
      · rw [List.getElem?_eq_none (by simp; omega), List.getElem?_eq_none hbehind]
    · rw [if_neg hbefore, if_neg hbefore]

theorem stored_outside {memory : Nat → Nat} {s address : Nat} {bytes : List Nat}
    (h : address < s ∨ s + bytes.length ≤ address) :
    stored memory s bytes address = memory address := by
  unfold stored
  by_cases hbefore : s ≤ address
  · rw [if_pos hbefore, List.getElem?_eq_none (by omega), Option.getD_none]
  · exact if_neg hbefore

theorem stored_inside {s i : Nat} {bytes : List Nat} (memory : Nat → Nat)
    (h : i < bytes.length) : bytes[i]? = some (stored memory s bytes (s + i)) := by
  unfold stored
  rw [if_pos (Nat.le_add_right s i), Nat.add_sub_cancel_left, List.getElem?_eq_getElem h,
    Option.getD_some]

theorem shown_concat (size : Nat) (chars : List Nat) (c : Nat) :
    shown size (chars ++ [c]) =
      if size ≠ sprintfUnlimited ∧ (shown size chars).length = size then shown size chars
      else shown size chars ++ [c] := by
  unfold shown
  by_cases hunlimited : size = sprintfUnlimited
  · rw [if_pos hunlimited, if_pos hunlimited, if_neg fun h => h.1 hunlimited]
  · rw [if_neg hunlimited, if_neg hunlimited, List.length_take]
    by_cases hfull : size ≤ chars.length
    · rw [if_pos ⟨hunlimited, Nat.min_eq_left hfull⟩, List.take_append_of_le_length hfull]
    · rw [if_neg (by omega), List.take_of_length_le (by simp; omega),
        List.take_of_length_le (by omega)]

theorem savechar_foldl (memory : Nat → Nat) (s size : Nat) (chars : List Nat) :
    chars.foldl savechar ⟨memory, s, 0, size⟩ =
      ⟨stored memory s (shown size chars), s + (shown size chars).length,
        (shown size chars).length, size⟩ := by
  induction chars using List.reverseRecOn with
  | nil =>
      have hnil : shown size [] = [] := by
        unfold shown
        split
        · rfl
        · exact List.take_nil
      rw [List.foldl_nil, hnil, stored_nil]
      rfl
  | append_singleton chars c ih =>
      rw [List.foldl_append, ih, List.foldl_cons, List.foldl_nil, savechar, shown_concat]
      split
      · rfl
      · rw [stored_concat, List.length_append]
        rfl

/-- `sprintf` and `snprintf` store what they show and a 0 behind it, return the number of the
characters shown, and leave the rest of the memory alone. -/
theorem vsnprintf_stored (memory : Nat → Nat) (s size : Nat) (fmt : List Nat) (args : List Arg) :
    vsnprintf memory s size fmt args = (do
      let chars ← doprnt fmt args 0
      return ((shown size chars).length, stored memory s (shown size chars ++ [0]))) := by
  unfold vsnprintf
  cases doprnt fmt args 0 with
  | error e => rfl
  | ok chars => rw [ok_bind, ok_bind, savechar_foldl, stored_concat]

/-- `sprintf` stores every character. -/
theorem vsprintf_stored {fmt : List Nat} {args : List Arg} (h : doprnt fmt args 0 = .ok chars)
    (memory : Nat → Nat) (s : Nat) :
    vsprintf memory s fmt args = .ok (chars.length, stored memory s (chars ++ [0])) := by
  have hshown : shown sprintfUnlimited chars = chars := if_pos rfl
  rw [vsprintf, vsnprintf_stored, h, ok_bind, pure_eq_ok, hshown]

/-- A call stays inside the `size` bytes from `s` on. -/
def Inside (s size : Nat) (fmt : List Nat) (args : List Arg) : Prop :=
  ∀ memory result, vsnprintf memory s size fmt args = .ok result →
    ∀ address, address < s ∨ s + size ≤ address → result.2 address = memory address

/-- A longer output fills the buffer, and the 0 goes to the byte behind it. -/
theorem vsnprintf_fills {fmt : List Nat} {args : List Arg} (hbound : size ≠ sprintfUnlimited)
    (hprint : doprnt fmt args 0 = .ok chars) (hlong : size ≤ chars.length) (memory : Nat → Nat)
    (s : Nat) :
    ∃ after, vsnprintf memory s size fmt args = .ok (size, after) ∧
      (∀ i < size, chars[i]? = some (after (s + i))) ∧ after (s + size) = 0 ∧
        ∀ address, address < s ∨ s + size < address → after address = memory address := by
  have hshown : shown size chars = chars.take size := if_neg hbound
  have hlength : (chars.take size).length = size := by
    rw [List.length_take]
    omega
  refine ⟨stored memory s (chars.take size ++ [0]), ?_, fun i hi => ?_, ?_,
    fun address haddress => ?_⟩
  · rw [vsnprintf_stored, hprint, ok_bind, pure_eq_ok, hshown, hlength]
  · rw [← stored_inside memory (by rw [List.length_append, hlength]; omega),
      List.getElem?_append_left (by omega), List.getElem?_take_of_lt hi]
  · rw [stored_concat, hlength, Function.update_self]
  · refine stored_outside ?_
    rw [List.length_append, hlength, List.length_singleton]
    omega

/-- The terminating 0 is not counted: a buffer of `size` bytes holds the result of `snprintf` with
that bound only where the output is shorter than the bound; a longer output fills it, and the 0
goes to the byte behind it. -/
theorem vsnprintf_inside_iff {fmt : List Nat} {args : List Arg}
    (hbound : size ≠ sprintfUnlimited) (hprint : doprnt fmt args 0 = .ok chars) :
    (Inside s size fmt args ↔ chars.length < size) ∧ (size ≤ chars.length →
      ∀ memory, ∃ after, vsnprintf memory s size fmt args = .ok (size, after) ∧
        (∀ i < size, chars[i]? = some (after (s + i))) ∧ after (s + size) = 0 ∧
          ∀ address, address < s ∨ s + size < address → after address = memory address) := by
  refine ⟨⟨fun h => ?_, fun hshort memory result hresult address haddress => ?_⟩,
    fun hlong memory => vsnprintf_fills hbound hprint hlong memory s⟩
  · by_contra hlong
    -- The byte behind the buffer was a 1 before the call.
    obtain ⟨after, hresult, -, hzero, -⟩ :=
      vsnprintf_fills hbound hprint (not_lt.mp hlong) (fun _ => 1) s
    have hlast := h _ _ hresult (s + size) (Or.inr (Nat.le_refl _))
    exact absurd (hzero.symm.trans hlast) (by decide)
  · have hshown : shown size chars = chars.take size := if_neg hbound
    rw [vsnprintf_stored, hprint, ok_bind, pure_eq_ok, hshown,
      List.take_of_length_le (Nat.le_of_lt hshort)] at hresult
    rw [← Except.ok.inj hresult]
    refine stored_outside ?_
    rw [List.length_append, List.length_singleton]
    omega

/-- The five characters of `"%d"` and 12345 fit in a buffer of six bytes.  They fill one of five,
and the 0 behind them is written past its end. -/
theorem vsnprintf_inside_iff_number :
    Inside 0x1000 6 [37, 100] [.word 12345] ∧ ¬Inside 0x1000 5 [37, 100] [.word 12345] ∧
      ∀ memory, ∃ after, vsnprintf memory 0x1000 5 [37, 100] [.word 12345] = .ok (5, after) ∧
        after 0x1004 = 53 ∧ after 0x1005 = 0 := by
  have hprint : doprnt [37, 100] [.word 12345] 0 = .ok [49, 50, 51, 52, 53] := by decide +kernel
  have h6 : (6 : Nat) ≠ sprintfUnlimited := by decide
  have h5 : (5 : Nat) ≠ sprintfUnlimited := by decide
  have hlong := vsnprintf_inside_iff (s := 0x1000) h5 hprint
  refine ⟨(vsnprintf_inside_iff h6 hprint).1.mpr (by decide),
    fun hinside => absurd (hlong.1.mp hinside) (by decide), fun memory => ?_⟩
  obtain ⟨after, hresult, hbuffer, hzero, -⟩ := hlong.2 (by decide) memory
  exact ⟨after, hresult, (Option.some.inj (hbuffer 4 (by decide))).symm, hzero⟩

end SchlagOS.Print
