import SchlagOS.Screen.Layout

/-!
# Newlines

A newline prints the spaces up to column 78, so that the cursor wraps once; in
column 79, which only DEL reaches, there is nothing to print and nothing happens.
-/

namespace SchlagOS

open Foundation

variable {k k' : Console} {n : Nat} {a : Attributes} {str : List Nat}

/-- The line of the cursor with spaces from the cursor on. -/
def Console.pad (k : Console) : Console :=
  { k with screen := fun line column =>
      if line = k.cursorInfo.cursorLine ∧ k.cursorInfo.cursorColumn ≤ column ∧
          column < rowWidth then ⟨space, k.cursorInfo.last⟩
      else k.screen line column }

/-- The console with the cursor at the start of the next line. -/
def Console.wrap (k : Console) : Console :=
  if consoleHeight - 1 ≤ k.cursorInfo.cursorLine then k.scroll.moveTo k.cursorInfo.cursorLine 0
  else k.moveTo (k.cursorInfo.cursorLine + 1) 0

private theorem put_space (k : Console) :
    k.put k.cursorInfo.cursorLine k.cursorInfo.cursorColumn ⟨space % 256, k.cursorInfo.last⟩ =
      { k with screen := fun line column =>
          if line = k.cursorInfo.cursorLine ∧ column = k.cursorInfo.cursorColumn then
            ⟨space, k.cursorInfo.last⟩
          else k.screen line column } :=
  Console.put_eq rfl

/-- The space in column 78 wraps. -/
private theorem print_wraps (hcolumn : k.cursorInfo.cursorColumn + 1 = rowWidth) :
    k.print space k.cursorInfo.last = k.pad.wrap := by
  have hpad : k.put k.cursorInfo.cursorLine k.cursorInfo.cursorColumn
      ⟨space % 256, k.cursorInfo.last⟩ = k.pad := by
    rw [put_space]
    unfold Console.pad
    congr 1
    funext line column
    apply if_congr _ rfl rfl
    omega
  have hwrap : consoleWidth - 1 ≤ k.cursorInfo.cursorColumn + 1 := Nat.le_of_eq hcolumn.symm
  unfold Console.print
  dsimp only
  rw [if_pos hwrap, hpad]
  rfl

/-- A space further left is one of the spaces up to column 78. -/
private theorem print_pads (hcolumn : k.cursorInfo.cursorColumn + 1 < rowWidth) :
    (k.print space k.cursorInfo.last).pad.wrap = k.pad.wrap := by
  have hpad : ((k.put k.cursorInfo.cursorLine k.cursorInfo.cursorColumn
      ⟨space % 256, k.cursorInfo.last⟩).moveTo k.cursorInfo.cursorLine
        (k.cursorInfo.cursorColumn + 1)).pad =
      k.pad.moveTo k.cursorInfo.cursorLine (k.cursorInfo.cursorColumn + 1) := by
    rw [put_space]
    unfold Console.pad Console.moveTo
    dsimp only
    congr 1
    funext line column
    by_cases hline : line = k.cursorInfo.cursorLine
    · by_cases hfirst : column = k.cursorInfo.cursorColumn
      · rw [if_neg (by omega), if_pos ⟨hline, hfirst⟩, if_pos ⟨hline, by omega, by omega⟩]
      · have hnot : ¬(line = k.cursorInfo.cursorLine ∧ column = k.cursorInfo.cursorColumn) :=
          fun hand => hfirst hand.2
        rw [if_neg hnot]
        apply if_congr _ rfl rfl
        omega
    · rw [if_neg (fun hand => hline hand.1), if_neg (fun hand => hline hand.1),
        if_neg (fun hand => hline hand.1)]
  have hprint : k.print space k.cursorInfo.last =
      (k.put k.cursorInfo.cursorLine k.cursorInfo.cursorColumn
        ⟨space % 256, k.cursorInfo.last⟩).moveTo k.cursorInfo.cursorLine
          (k.cursorInfo.cursorColumn + 1) := by
    have hroom : ¬consoleWidth - 1 ≤ k.cursorInfo.cursorColumn + 1 := Nat.not_le.mpr hcolumn
    unfold Console.print
    dsimp only
    rw [if_neg hroom]
  rw [hprint, hpad]
  rfl

theorem treatSpaces_wraps {treat : Treat} (h : k.Valid)
    (hnot : k.commandInfo.commandRequested = false)
    (hn : k.cursorInfo.cursorColumn + (n + 1) = rowWidth) :
    treatSpaces (treatCharWith treat) k.cursorInfo.last (n + 1) k = .ok k.pad.wrap := by
  induction n generalizing k with
  | zero =>
      rw [treatSpaces, treatCharWith_print hnot (by decide), printChar_eq h, ok_bind, treatSpaces,
        print_wraps hn]
  | succ n ih =>
      obtain ⟨hstays, hlast⟩ := h.print space k.cursorInfo.last
      have hcolumn : k.cursorInfo.cursorColumn + 1 < rowWidth := by omega
      have hinfo := Console.print_within (c := space) (a := k.cursorInfo.last) (k := k) hcolumn
      have hcursor : (k.print space k.cursorInfo.last).cursorInfo.cursorColumn =
          k.cursorInfo.cursorColumn + 1 := by rw [hinfo]
      have hrest := ih (hstays.valid h) (by rw [hstays.command, hnot]) (by rw [hcursor]; omega)
      rw [hlast, print_pads hcolumn] at hrest
      rw [treatSpaces, treatCharWith_print hnot (by decide), printChar_eq h, ok_bind, hrest]

theorem newline_eq (h : k.Valid) (hnot : k.commandInfo.commandRequested = false) :
    consolePutbytes ['\n'.toNat] k =
      if k.cursorInfo.cursorColumn < rowWidth then .ok k.pad.wrap else .ok k := by
  have hrun : treatChar '\n'.toNat k.cursorInfo.last k =
      treatSpaces (treatCharWith fun _ _ _ => .error .recursion) k.cursorInfo.last
        (consoleWidth - k.cursorInfo.cursorColumn - 1) k := by
    unfold treatChar
    rw [treatCharWith, hnot]
    rfl
  rw [consolePutbytes, hrun]
  split_ifs with hcolumn
  · obtain ⟨n, hn⟩ := Nat.exists_eq_add_of_lt hcolumn
    have hgap : consoleWidth - k.cursorInfo.cursorColumn - 1 = n + 1 := by
      unfold rowWidth at hn
      omega
    rw [hgap, treatSpaces_wraps h hnot (by omega), ok_bind]
    rfl
  · have hgap : consoleWidth - k.cursorInfo.cursorColumn - 1 = 0 := by
      unfold rowWidth at hcolumn
      omega
    rw [hgap]
    rfl

/-- The cursor at the start of the next line, or of the last one behind a scroll. -/
structure NewLine (k k' : Console) : Prop where
  column : k'.cursorInfo.cursorColumn = 0
  next : k.cursorInfo.cursorLine < consoleHeight - 1 →
    k'.cursorInfo.cursorLine = k.cursorInfo.cursorLine + 1 ∧ k'.screen = k.pad.screen
  scrolled : k.cursorInfo.cursorLine = consoleHeight - 1 →
    k'.cursorInfo.cursorLine = consoleHeight - 1 ∧ ∀ line column, OnScreen line column →
      k'.screen line column =
        if line < consoleHeight - 1 then k.pad.screen (line + 1) column
        else ⟨space, k.cursorInfo.last⟩

theorem wrap_newLine (k : Console) : NewLine k k.pad.wrap := by
  have hpad : k.pad.cursorInfo = k.cursorInfo := rfl
  unfold Console.wrap
  constructor
  · split
    · rfl
    · rfl
  · intro hline
    rw [if_neg (by rw [hpad]; omega)]
    exact ⟨rfl, rfl⟩
  · intro hline
    rw [if_pos (by rw [hpad]; omega)]
    refine ⟨hline, fun line column hscreen => ?_⟩
    change k.pad.scroll.screen line column = _
    unfold Console.scroll
    dsimp only
    by_cases hup : column < consoleWidth ∧ line < consoleHeight - 1
    · rw [if_pos hup, if_pos hup.2]
    · have hlast : ¬line < consoleHeight - 1 := fun hlt => hup ⟨hscreen.2, hlt⟩
      have hlt := hscreen.1
      rw [if_neg hup, if_neg hlast, if_pos ⟨hscreen.2, by omega⟩]
      rfl

theorem newline_moves_iff {screen : Nat → Nat → Cell}
    (hrun : consolePutbytes str (initialConsole screen) = .ok k)
    (hnot : k.commandInfo.commandRequested = false) :
    (∃ k', consolePutbytes ['\n'.toNat] k = .ok k' ∧ NewLine k k') ↔
      k.cursorInfo.cursorColumn ≠ consoleWidth - 1 := by
  have hvalid := (consolePutbytes_valid (initialConsole_valid screen) str).of_ok hrun
  have hcolumn := hvalid.column
  have hwidth : 0 < rowWidth := by decide
  rw [newline_eq hvalid hnot]
  constructor
  · rintro ⟨k', hnewline, hmoves⟩ hlast
    have hfull : ¬consoleWidth - 1 < rowWidth := by decide
    rw [hlast, if_neg hfull, Except.ok.injEq] at hnewline
    have hzero := hmoves.column
    rw [← hnewline, hlast] at hzero
    cases hzero
  · intro hlast
    have hlt : k.cursorInfo.cursorColumn < rowWidth := by
      unfold rowWidth
      omega
    rw [if_pos hlt]
    exact ⟨_, rfl, wrap_newLine k⟩

/-- The first newline, behind no character at all. -/
theorem newline_moves_run : ∃ k', consolePutbytes ['\n'.toNat]
      (initialConsole fun _ _ => ⟨space, ⟨.white, .black, false⟩⟩) = .ok k' ∧
    NewLine (initialConsole fun _ _ => ⟨space, ⟨.white, .black, false⟩⟩) k' := by
  have hrun : consolePutbytes [] (initialConsole fun _ _ => ⟨space, ⟨.white, .black, false⟩⟩) =
      .ok (initialConsole fun _ _ => ⟨space, ⟨.white, .black, false⟩⟩) := rfl
  exact (newline_moves_iff hrun rfl).mpr (by decide)

/-- Behind a newline and a DEL the cursor is in the last column, and a newline does nothing. -/
theorem newline_stays : ∃ str k,
    consolePutbytes str (initialConsole fun _ _ => ⟨space, ⟨.white, .black, false⟩⟩) = .ok k ∧
      k.commandInfo.commandRequested = false ∧
      consolePutbytes ['\n'.toNat] k = .ok k ∧
      ¬∃ k', consolePutbytes ['\n'.toNat] k = .ok k' ∧ NewLine k k' := by
  have hlast : ((consolePutbytes ['\n'.toNat, deleteCode] (initialConsole fun _ _ =>
      ⟨space, ⟨.white, .black, false⟩⟩)).toOption.any fun k =>
        decide (k.cursorInfo.cursorColumn = consoleWidth - 1 ∧
          k.commandInfo.commandRequested = false)) = true := by
    decide +kernel
  cases hrun : consolePutbytes ['\n'.toNat, deleteCode] (initialConsole fun _ _ =>
      ⟨space, ⟨.white, .black, false⟩⟩) with
  | error e =>
      rw [hrun] at hlast
      cases hlast
  | ok k =>
      rw [hrun] at hlast
      obtain ⟨hcolumn, hnot⟩ := of_decide_eq_true hlast
      have hvalid := (consolePutbytes_valid (initialConsole_valid _) _).of_ok hrun
      have hstays : consolePutbytes ['\n'.toNat] k = .ok k := by
        rw [newline_eq hvalid hnot, hcolumn]
        rfl
      refine ⟨_, k, hrun, hnot, hstays, ?_⟩
      rintro ⟨k', hnewline, hmoves⟩
      rw [hstays, Except.ok.injEq] at hnewline
      have hzero := hmoves.column
      rw [← hnewline, hcolumn] at hzero
      cases hzero

end SchlagOS
