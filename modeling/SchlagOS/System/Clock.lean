import SchlagOS.System.Output

/-!
# The clock on the screen

The counters of the time of day only show behind the call of `clock_tick`,
which may stand on the stack of a process for a while.  When it returns, the
eight cells of the clock show the clock interrupts of all the run so far.
-/

namespace SchlagOS

open Foundation

variable {k : Console} {sys sys' : System} {str : List Nat} {ticks : Nat}

/-! ## A row of characters -/

/-- The characters of a row from a column on. -/
def rowText (k : Console) (column length : Nat) : List Nat :=
  (List.range length).map fun i => (k.screen 0 (column + i)).char

theorem rowText_succ (k : Console) (column length : Nat) :
    rowText k column (length + 1) =
      (k.screen 0 column).char :: rowText k (column + 1) length := by
  rw [rowText, List.range_succ_eq_map, List.map_cons, List.map_map, rowText, Nat.add_zero]
  refine congrArg _ (List.map_congr_left fun i _ => ?_)
  change (k.screen 0 (column + (i + 1))).char = _
  rw [Nat.add_assoc, Nat.add_comm i 1]

/-- Printable text in the first line, in front of its last column: what it shows, and that it
leaves alone what is in front of it. -/
theorem row_shown (h : k.Valid) (hnot : k.commandInfo.commandRequested = false)
    (hline : k.cursorInfo.cursorLine = 0) (hstr : ∀ c ∈ str, 32 ≤ c ∧ c ≤ 126)
    (hroom : k.cursorInfo.cursorColumn + str.length ≤ consoleWidth - 1) :
    Meets (consolePutbytes str k) (fun k' =>
      rowText k' k.cursorInfo.cursorColumn str.length = str ∧
        ∀ column < k.cursorInfo.cursorColumn, k'.screen 0 column = k.screen 0 column)
      fun _ => False := by
  induction str generalizing k with
  | nil => exact ⟨rfl, fun _ _ => rfl⟩
  | cons c rest ih =>
      rw [List.forall_mem_cons] at hstr
      rw [List.length_cons] at hroom ⊢
      set a := k.cursorInfo.last
      obtain ⟨hstays, -⟩ := h.print c a
      have htreat : treatChar c a k = .ok (k.print c a) := by
        unfold treatChar
        rw [treatCharWith_print hnot hstr.1, printChar_eq h]
      have hscreen := Console.print_screen (c := c) (a := a) (k := k) (by rw [hline]; decide)
      have hcell : ((k.print c a).screen 0 k.cursorInfo.cursorColumn).char = c := by
        rw [hscreen, if_pos ⟨hline.symm, rfl⟩]
        exact Nat.mod_eq_of_lt (by omega)
      have hfront : ∀ column < k.cursorInfo.cursorColumn,
          (k.print c a).screen 0 column = k.screen 0 column := by
        intro column hcolumn
        rw [hscreen, if_neg fun hlast => Nat.ne_of_lt hcolumn hlast.2]
      rw [consolePutbytes, htreat, ok_bind]
      cases rest with
      | nil =>
          refine ⟨?_, hfront⟩
          rw [List.length_nil, rowText_succ, hcell]
          rfl
      | cons d rest =>
          rw [List.length_cons] at hroom
          have hinfo := Console.print_within (c := c) (a := a) (k := k) (by omega)
          have hcolumn : (k.print c a).cursorInfo.cursorColumn =
              k.cursorInfo.cursorColumn + 1 := by rw [hinfo]
          refine (ih (hstays.valid h) (by rw [hstays.command, hnot]) (by rw [hinfo, ← hline])
            hstr.2 (by rw [hcolumn, List.length_cons]; omega)).mono ?_ fun e he => he
          rintro k' ⟨htext, hbefore⟩
          rw [hcolumn] at htext hbefore
          refine ⟨?_, fun column hlt => ?_⟩
          · rw [rowText_succ, htext, hbefore _ (Nat.lt_succ_self _), hcell]
          · rw [hbefore column (Nat.lt_succ_of_lt hlt), hfront column hlt]

/-- Outside a command the clock shows its text. -/
theorem printTopRight_shown (h : k.Valid) (hnot : k.commandInfo.commandRequested = false)
    (hstr : ClockText str) :
    Meets (printTopRight str k) (fun k' => rowText k' 71 8 = str) fun _ => False := by
  have hcorner : (k.moveTo 0 71).Valid := h.moveTo (by decide) (by decide)
  have hroom : (k.moveTo 0 71).cursorInfo.cursorColumn + str.length ≤ consoleWidth - 1 := by
    rw [hstr.1]
    exact le_rfl
  rw [printTopRight_eq hstr, meets_bind]
  refine (row_shown hcorner hnot rfl hstr.printable hroom).mono (fun k' hk' => ?_) fun e he => he
  rw [setCursor_eq h.line h.column]
  have htext := hk'.1
  rwa [hstr.1] at htext

/-! ## The time of a number of ticks -/

/-- The clock behind so many hundredths of a second. -/
def clockDigits (ticks : Nat) : List Nat :=
  TimeOfDay.twoDigits (ticks / 360000 % 24) ++
    58 :: (TimeOfDay.twoDigits (ticks / 6000 % 60) ++ 58 :: TimeOfDay.twoDigits (ticks / 100 % 60))

theorem TimeOfDay.Wf.digits_eq {t : TimeOfDay} (h : t.Wf)
    (htime : t.hundredths = ticks % 8640000) : t.digits = clockDigits ticks := by
  obtain ⟨hhour, hmin, hsec, hfrac⟩ := h
  unfold TimeOfDay.hundredths at htime
  have h1 : t.hour = ticks / 360000 % 24 := by omega
  have h2 : t.min = ticks / 6000 % 60 := by omega
  have h3 : t.sec = ticks / 100 % 60 := by omega
  rw [TimeOfDay.digits, clockDigits, h1, h2, h3]

theorem display_clock {event : Event} {s : Kernel} (hprints : sys.prints event s = true)
    (hwf : sys.time.Wf) (text : List Nat) : display sys event s text =
      (printTopRight sys.time.digits sys.console).mapError SystemPanic.console := by
  have htext := hwf.text_eq
  unfold display
  rw [if_pos hprints]
  simp only [htext, mapError_ok, ok_bind]

/-- Whenever the handler of the clock interrupt prints, on whichever stack and however late, the
clock on the screen tells the time that has elapsed since the start, and nothing else on the
screen changes, as long as no escape command is in progress. -/
theorem clock_shown {l : SystemStep} (h : Operating sys ticks)
    (hrun : systemExec l sys = .ok sys') (hprints : sys.prints l.step.event sys'.kernel = true)
    (hnot : sys.console.commandInfo.commandRequested = false) :
    rowText sys'.console 71 8 = clockDigits ticks ∧ SameOutside sys.console sys'.console := by
  have hsound := h.sound
  obtain ⟨-, hdisplay, -⟩ := systemExec_ok hrun
  rw [display_clock hprints hsound.wf, mapError_eq_ok] at hdisplay
  have htext := hsound.wf.clockText
  rw [← hsound.wf.digits_eq hsound.time]
  exact ⟨(printTopRight_shown hsound.console hnot htext).of_ok hdisplay,
    (printTopRight_same hsound.console hnot htext).of_ok hdisplay⟩

/-- The first tick: eight characters that tell midnight. -/
theorem clock_shown_tick : ∃ sys sys' : System, Operating sys 1 ∧
    rowText sys'.console 71 8 = [48, 48, 58, 48, 48, 58, 48, 48] ∧
      SameOutside sys.console sys'.console := by
  obtain ⟨sys, hsys, hkernel, hnot⟩ := operating_tick
  have hexec : exec ⟨.available, .kernel⟩ sys.kernel = .ok { ticPit booted with control := [] } := by
    rw [hkernel]
    rfl
  cases hrun : systemExec ⟨⟨.available, .kernel⟩, []⟩ sys with
  | error e =>
      obtain ⟨p, -, hfails⟩ := (hsys.fails_iff e).mp hrun
      rw [hexec] at hfails
      cases hfails
  | ok sys' =>
      obtain ⟨hkernel', -, -⟩ := systemExec_ok hrun
      have hend : { ticPit booted with control := [] } = sys'.kernel :=
        Except.ok.inj (hexec.symm.trans hkernel')
      have hprints : sys.prints .kernel sys'.kernel = true := by
        have hframe : handlesTick (ticPit booted) .kernel = true := rfl
        have hcalls : callsClockTick (ticPit booted) .kernel = true := rfl
        have hrunning : (ticPit booted).runningProcess = some 1 := rfl
        have hpid : ((ticPit booted).data 1).pid = 1 := rfl
        simp [System.prints, System.late, ← hend, hkernel, hframe, hcalls, hrunning, hpid]
      obtain ⟨hshown, hsame⟩ := clock_shown hsys hrun hprints hnot
      exact ⟨sys, sys', hsys, hshown, hsame⟩

end SchlagOS
