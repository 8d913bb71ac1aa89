import SchlagOS.Print.Formats
import SchlagOS.Print.Printf
import SchlagOS.Screen.Clock

/-!
# The time of day

The counters that `tic_PIT` keeps next to `inter`, and the text that it prints
from them with `%02d:%02d:%02d` into nine bytes.
-/

namespace SchlagOS

open Foundation

structure TimeOfDay where
  hour : Nat
  min : Nat
  sec : Nat
  fracSec : Nat
  deriving DecidableEq, Repr

namespace TimeOfDay

def midnight : TimeOfDay where
  hour := 0
  min := 0
  sec := 0
  fracSec := 0

/-- What a clock interrupt does to the counters. -/
def tick (t : TimeOfDay) : TimeOfDay :=
  if clockFreq ≤ (t.fracSec + 1 : Nat) then
    if 60 ≤ t.sec + 1 then
      if 60 ≤ t.min + 1 then
        if 24 ≤ t.hour + 1 then ⟨0, 0, 0, 0⟩ else ⟨t.hour + 1, 0, 0, 0⟩
      else ⟨t.hour, t.min + 1, 0, 0⟩
    else ⟨t.hour, t.min, t.sec + 1, 0⟩
  else { t with fracSec := t.fracSec + 1 }

/-- The hundredths of a second since midnight. -/
def hundredths (t : TimeOfDay) : Nat := ((t.hour * 60 + t.min) * 60 + t.sec) * 100 + t.fracSec

structure Wf (t : TimeOfDay) : Prop where
  hour : t.hour < 24
  min : t.min < 60
  sec : t.sec < 60
  fracSec : t.fracSec < 100

theorem midnight_wf : midnight.Wf := by
  constructor <;> decide

theorem midnight_hundredths : midnight.hundredths = 0 % 8640000 := by decide

/-- A tick is a hundredth of a second, and the day starts again after the last one. -/
theorem Wf.tick {t : TimeOfDay} (h : t.Wf) :
    t.tick.Wf ∧ t.tick.hundredths = (t.hundredths + 1) % 8640000 := by
  obtain ⟨hhour, hmin, hsec, hfrac⟩ := h
  have hfreq : clockFreq = 100 := rfl
  unfold TimeOfDay.tick
  rw [hfreq]
  split_ifs with h1 h2 h3 h4
  · exact ⟨midnight_wf, by simp only [hundredths]; omega⟩
  · exact ⟨⟨by dsimp only; omega, Nat.zero_lt_succ _, Nat.zero_lt_succ _, Nat.zero_lt_succ _⟩,
      by simp only [hundredths]; omega⟩
  · exact ⟨⟨hhour, by dsimp only; omega, Nat.zero_lt_succ _, Nat.zero_lt_succ _⟩,
      by simp only [hundredths]; omega⟩
  · exact ⟨⟨hhour, hmin, by dsimp only; omega, Nat.zero_lt_succ _⟩,
      by simp only [hundredths]; omega⟩
  · exact ⟨⟨hhour, hmin, hsec, by dsimp only; omega⟩, by simp only [hundredths]; omega⟩

/-! ## The text -/

/-- `%02d:%02d:%02d` -/
def format : List Nat := [37, 48, 50, 100, 58, 37, 48, 50, 100, 58, 37, 48, 50, 100]

/-- The string in `char s[9]`. -/
def text (t : TimeOfDay) : Except Print.Fault (List Nat) := do
  let chars ← Print.doprnt format [.word t.hour, .word t.min, .word t.sec] 0
  require (chars.length < 9) .buffer
  return chars

/-- A number below 100 with two digits. -/
def twoDigits (n : Nat) : List Nat := [48 + n / 10, 48 + n % 10]

/-- `HH:MM:SS` -/
def digits (t : TimeOfDay) : List Nat :=
  twoDigits t.hour ++ 58 :: (twoDigits t.min ++ 58 :: twoDigits t.sec)

/-- `%02d` -/
def spec : Print.Spec where
  flags := []
  zero := true
  width := some (.number 2)
  prec := none
  long := false
  letter := 100

theorem spec_valid : spec.Valid where
  width := by
    rintro count ⟨⟩
    exact ⟨by decide, by decide⟩
  prec := by
    rintro count ⟨⟩
  letter := by decide

theorem spec_prints {n : Nat} (hn : n < 60) :
    Print.Piece.Prints 0 (.conversion spec [.word n]) (twoDigits n) := by
  refine .conversion spec_valid ?_
  revert n
  decide +kernel

theorem Wf.doprnt_eq {t : TimeOfDay} (h : t.Wf) :
    Print.doprnt format [.word t.hour, .word t.min, .word t.sec] 0 = .ok t.digits := by
  have hhour : t.hour < 60 := Nat.lt_trans h.hour (by decide)
  have hcolon : Print.Piece.Prints 0 (.text 58) [58] := .text (by decide)
  have hprint := Print.doprntLoop_pieces (List.Forall₂.cons (spec_prints hhour) (.cons hcolon
    (.cons (spec_prints h.min) (.cons hcolon (.cons (spec_prints h.sec) .nil))))) []
      (Nat.le_refl _)
  have hformat : List.flatMap Print.Piece.format [.conversion spec [.word t.hour], .text 58,
      .conversion spec [.word t.min], .text 58, .conversion spec [.word t.sec]] = format := by
    have hwidth : Print.decimal 2 = [50] := by decide
    simp [Print.Piece.format, Print.Spec.fmt, spec, Print.Count.fmt, Print.precFmt, hwidth, format]
  rw [hformat] at hprint
  exact hprint

theorem Wf.text_eq {t : TimeOfDay} (h : t.Wf) : t.text = .ok t.digits := by
  have hroom : t.digits.length < 9 := Nat.lt_succ_self 8
  rw [text, h.doprnt_eq, ok_bind, require_pos hroom, ok_bind, pure_eq_ok]

/-- `sprintf` puts the text and its 0 into the nine bytes, and nothing behind them. -/
theorem Wf.sprintf_text {t : TimeOfDay} (h : t.Wf) (memory : Nat → Nat) (s : Nat) :
    ∃ after, Print.vsprintf memory s format [.word t.hour, .word t.min, .word t.sec] =
        .ok (8, after) ∧ after (s + 8) = 0 ∧
      ∀ address, address < s ∨ s + 9 ≤ address → after address = memory address := by
  refine ⟨_, Print.vsprintf_stored h.doprnt_eq memory s, ?_, fun address haddress => ?_⟩
  · rw [Print.stored_concat]
    exact Function.update_self (s + 8) 0 _
  · exact Print.stored_outside haddress

theorem Wf.clockText {t : TimeOfDay} (h : t.Wf) : ClockText t.digits := by
  refine ⟨rfl, ?_⟩
  have hhour := h.hour
  have hmin := h.min
  have hsec := h.sec
  have hzero : '0'.toNat = 48 := rfl
  have hcolon : ':'.toNat = 58 := rfl
  rw [hzero, hcolon]
  simp only [digits, twoDigits, List.cons_append, List.nil_append, List.forall_mem_cons]
  refine ⟨?_, ?_, ?_, ?_, ?_, ?_, ?_, ?_, ?_⟩ <;> first | omega | simp

end TimeOfDay

end SchlagOS
