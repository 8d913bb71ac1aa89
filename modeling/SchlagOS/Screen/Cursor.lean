import SchlagOS.Screen.Console

/-!
# The cursor stays on the screen

Every byte leaves the cursor inside the screen and the escape command well
formed, so that no assertion of console.c fails.  A printed character is put
under the cursor, which moves on to the next cell, to the next line from column
78 on, and scrolls the screen at its end.
-/

namespace SchlagOS

open Foundation

variable {k k' : Console} {line column c n : Nat} {a : Attributes}

namespace Console

structure Valid (k : Console) : Prop where
  line : k.cursorInfo.cursorLine < consoleHeight
  column : k.cursorInfo.cursorColumn < consoleWidth
  command : k.commandInfo.commandRequested = true →
    k.commandInfo.paramsFilled = 0 ∨ k.commandInfo.paramsFilled = 1 ∧
      among k.commandInfo.commandParams.1 ['B', 'b', 'F', 'f'] = true

/-- The same command and the cursor inside the screen. -/
structure Stays (k k' : Console) : Prop where
  line : k'.cursorInfo.cursorLine < consoleHeight
  column : k'.cursorInfo.cursorColumn < consoleWidth
  command : k'.commandInfo = k.commandInfo

theorem Stays.valid (h : Stays k k') (hk : k.Valid) : k'.Valid where
  line := h.line
  column := h.column
  command := by
    rw [h.command]
    exact hk.command

def put (k : Console) (line column : Nat) (cell : Cell) : Console :=
  let row := Function.update (k.screen line) column cell
  { k with screen := Function.update k.screen line row }.withLast cell.attributes

def moveTo (k : Console) (line column : Nat) : Console :=
  { k with cursorInfo := { k.cursorInfo with cursorLine := line, cursorColumn := column } }

theorem Valid.moveTo (h : k.Valid) (hline : line < consoleHeight)
    (hcolumn : column < consoleWidth) : (k.moveTo line column).Valid :=
  ⟨hline, hcolumn, h.command⟩

/-- All cells blank. -/
def clear (k : Console) : Console :=
  { k with screen := fun line column =>
      if line < consoleHeight ∧ column < consoleWidth then ⟨space, k.cursorInfo.last⟩
      else k.screen line column }

/-- One line up, with a blank last line. -/
def scroll (k : Console) : Console :=
  { k with screen := fun line column =>
      if column < consoleWidth ∧ line < consoleHeight - 1 then k.screen (line + 1) column
      else if column < consoleWidth ∧ line = consoleHeight - 1 then
        ⟨space, k.cursorInfo.last⟩
      else k.screen line column }

/-- A character under the cursor, and the cursor behind it. -/
def print (k : Console) (c : Nat) (a : Attributes) : Console :=
  let line := k.cursorInfo.cursorLine
  let column := k.cursorInfo.cursorColumn
  let k := k.put line column ⟨c % 256, a⟩
  if consoleWidth - 1 ≤ column + 1 then
    if consoleHeight - 1 ≤ line then k.scroll.moveTo line 0
    else k.moveTo (line + 1) 0
  else k.moveTo line (column + 1)

@[simp] theorem put_commandInfo (k : Console) (line column : Nat) (cell : Cell) :
    (k.put line column cell).commandInfo = k.commandInfo := rfl

@[simp] theorem put_last (k : Console) (line column : Nat) (cell : Cell) :
    (k.put line column cell).cursorInfo.last = cell.attributes := rfl

@[simp] theorem scroll_commandInfo (k : Console) : k.scroll.commandInfo = k.commandInfo := rfl

@[simp] theorem scroll_cursorInfo (k : Console) : k.scroll.cursorInfo = k.cursorInfo := rfl

@[simp] theorem moveTo_commandInfo (k : Console) (line column : Nat) :
    (k.moveTo line column).commandInfo = k.commandInfo := rfl

@[simp] theorem moveTo_screen (k : Console) (line column : Nat) :
    (k.moveTo line column).screen = k.screen := rfl

@[simp] theorem moveTo_last (k : Console) (line column : Nat) :
    (k.moveTo line column).cursorInfo.last = k.cursorInfo.last := rfl

@[simp] theorem moveTo_cursorLine (k : Console) (line column : Nat) :
    (k.moveTo line column).cursorInfo.cursorLine = line := rfl

@[simp] theorem moveTo_cursorColumn (k : Console) (line column : Nat) :
    (k.moveTo line column).cursorInfo.cursorColumn = column := rfl

/-- From the last columns on a character goes to the next line, if there is one. -/
theorem print_wrap (hcolumn : consoleWidth - 1 ≤ k.cursorInfo.cursorColumn + 1)
    (hline : k.cursorInfo.cursorLine < consoleHeight - 1) (c : Nat) (a : Attributes) :
    (k.print c a).cursorInfo.cursorLine = k.cursorInfo.cursorLine + 1 := by
  unfold print
  dsimp only
  rw [if_pos hcolumn, if_neg (by omega)]
  rfl

theorem put_screen (k : Console) (line column l col : Nat) (cell : Cell) :
    (k.put line column cell).screen l col =
      if l = line ∧ col = column then cell else k.screen l col := by
  unfold put withLast
  dsimp only
  by_cases hl : l = line
  · subst hl
    by_cases hcol : col = column
    · subst hcol
      simp
    · simp [hcol]
  · simp [hl]

/-- Above the last line nothing is scrolled. -/
theorem print_screen (hline : k.cursorInfo.cursorLine < consoleHeight - 1) (c : Nat)
    (a : Attributes) (l col : Nat) :
    (k.print c a).screen l col =
      if l = k.cursorInfo.cursorLine ∧ col = k.cursorInfo.cursorColumn then ⟨c % 256, a⟩
      else k.screen l col := by
  have hnot : ¬consoleHeight - 1 ≤ k.cursorInfo.cursorLine := by omega
  rw [← put_screen]
  unfold print
  simp only [if_neg hnot]
  split
  · rfl
  · rfl

theorem print_within (hcolumn : k.cursorInfo.cursorColumn + 1 < consoleWidth - 1) (c : Nat)
    (a : Attributes) :
    (k.print c a).cursorInfo = { k.cursorInfo with
      cursorColumn := k.cursorInfo.cursorColumn + 1, last := a } := by
  unfold print
  dsimp only
  rw [if_neg (by omega)]
  rfl

theorem put_eq {cell : Cell} (h : k.cursorInfo.last = cell.attributes) :
    k.put line column cell = { k with screen := fun l col =>
      if l = line ∧ col = column then cell else k.screen l col } := by
  have hscreen : (k.put line column cell).screen = fun l col =>
      if l = line ∧ col = column then cell else k.screen l col := by
    funext l col
    exact put_screen k line column l col cell
  rw [← hscreen]
  unfold put withLast
  rw [← h]

end Console

/-! ## Cells -/

theorem writeChar_eq (hline : line < consoleHeight) (hcolumn : column < consoleWidth) :
    writeChar line column c a k = .ok (k.put line column ⟨c % 256, a⟩) := by
  unfold writeChar
  rw [require_pos hline, ok_bind, require_pos hcolumn, ok_bind]
  rfl

theorem setCursor_eq (hline : line < consoleHeight) (hcolumn : column < consoleWidth) :
    setCursor line column k = .ok (k.moveTo line column) := by
  unfold setCursor
  rw [require_pos hline, ok_bind, require_pos hcolumn, ok_bind]
  rfl

theorem blankColumns_eq (hline : line < consoleHeight) (hlast : k.cursorInfo.last = a)
    (hn : n ≤ consoleWidth) :
    blankColumns line a n k = .ok { k with screen := fun l col =>
      if l = line ∧ col < n then ⟨space, a⟩ else k.screen l col } := by
  induction n with
  | zero => simp [blankColumns]
  | succ n ih =>
      rw [blankColumns, ih (by omega), ok_bind, writeChar_eq hline (by omega),
        Console.put_eq hlast]
      congr 2
      funext l col
      by_cases hcol : col = n
      · subst hcol
        by_cases hl : l = line
        · simp [hl, space]
        · simp [hl]
      · have hiff : col < n + 1 ↔ col < n := by omega
        simp [hcol, hiff]

theorem blankLines_eq (hcolumn : column < consoleWidth) (hlast : k.cursorInfo.last = a)
    (hn : n ≤ consoleHeight) :
    blankLines column a n k = .ok { k with screen := fun l col =>
      if l < n ∧ col = column then ⟨space, a⟩ else k.screen l col } := by
  induction n with
  | zero => simp [blankLines]
  | succ n ih =>
      rw [blankLines, ih (by omega), ok_bind, writeChar_eq (by omega) hcolumn,
        Console.put_eq hlast]
      congr 2
      funext l col
      by_cases hl : l = n
      · subst hl
        by_cases hcol : col = column
        · simp [hcol, space]
        · simp [hcol]
      · have hiff : l < n + 1 ↔ l < n := by omega
        simp [hl, hiff]

theorem clearColumns_eq (hlast : k.cursorInfo.last = a) (hn : n ≤ consoleWidth) :
    clearColumns a n k = .ok { k with screen := fun l col =>
      if l < consoleHeight ∧ col < n then ⟨space, a⟩ else k.screen l col } := by
  induction n with
  | zero => simp [clearColumns]
  | succ n ih =>
      have hlast' : { k with screen := fun l col => if l < consoleHeight ∧ col < n then
          ⟨space, a⟩ else k.screen l col }.cursorInfo.last = a := hlast
      rw [clearColumns, ih (by omega), ok_bind, blankLines_eq (by omega) hlast' le_rfl]
      congr 2
      funext l col
      by_cases hcol : col = n
      · subst hcol
        by_cases hl : l < consoleHeight
        · simp [hl]
        · simp [hl]
      · have hiff : col < n + 1 ↔ col < n := by omega
        simp [hcol, hiff]

theorem consoleClear_eq (k : Console) : consoleClear k = .ok k.clear :=
  clearColumns_eq rfl le_rfl

theorem moveLines_eq (n : Nat) (screen : Nat → Nat → Cell) :
    moveLines n screen = fun l col =>
      if col < consoleWidth ∧ l < n then screen (l + 1) col else screen l col := by
  induction n with
  | zero => simp [moveLines]
  | succ n ih =>
      funext l col
      unfold moveLines
      rw [ih]
      by_cases hl : l = n
      · subst hl
        have hnot : ¬l + 1 < l := by omega
        simp [hnot]
      · have hiff : l < n + 1 ↔ l < n := by omega
        simp [hl, hiff]

theorem upShiftConsole_eq (k : Console) : upShiftConsole k = .ok k.scroll := by
  unfold upShiftConsole
  rw [blankColumns_eq (by decide) rfl le_rfl, moveLines_eq]
  unfold Console.scroll
  congr 2
  funext l col
  by_cases hl : l = consoleHeight - 1
  · subst hl
    simp
  · simp [hl]

theorem printChar_eq (h : k.Valid) : printChar c a k = .ok (k.print c a) := by
  have hline := h.line
  have hcolumn := h.column
  unfold printChar Console.print
  dsimp only
  rw [writeChar_eq hline hcolumn, ok_bind, upShiftConsole_eq, ok_bind]
  split
  · split
    · exact setCursor_eq hline (by decide)
    · exact setCursor_eq (by omega) (by decide)
  · exact setCursor_eq hline (by omega)

theorem Console.Valid.print (h : k.Valid) (c : Nat) (a : Attributes) :
    k.Stays (k.print c a) ∧ (k.print c a).cursorInfo.last = a := by
  have hline := h.line
  have hcolumn := h.column
  have hstays : ∀ line column (k' : Console), line < consoleHeight → column < consoleWidth →
      k'.commandInfo = k.commandInfo → k.Stays (k'.moveTo line column) :=
    fun _ _ _ hline hcolumn hcommand => ⟨hline, hcolumn, hcommand⟩
  unfold Console.print
  dsimp only
  split
  · split
    · exact ⟨hstays _ _ _ hline (by decide) rfl, rfl⟩
    · exact ⟨hstays _ _ _ (by omega) (by decide) rfl, rfl⟩
  · exact ⟨hstays _ _ _ hline (by omega) rfl, rfl⟩

/-! ## Characters -/

theorem treatCommand_valid (h : k.Valid) (hrequested : k.commandInfo.commandRequested = true) :
    Meets (treatCommand c k) Console.Valid fun _ => False := by
  have hlast : ∀ last, ({ k with commandInfo := emptyCommandInfo }.withLast last).Valid :=
    fun last => ⟨h.line, h.column, fun hfalse => by cases hfalse⟩
  unfold treatCommand
  rcases h.command hrequested with hfilled | ⟨hfilled, hparam⟩
  · rw [hfilled]
    change (commandName c k).Valid
    unfold commandName
    split_ifs with hcolor hdefault
    · exact ⟨h.line, h.column, fun _ => .inr ⟨rfl, hcolor⟩⟩
    · exact hlast _
    · exact ⟨h.line, h.column, fun hfalse => by cases hfalse⟩
  · rw [hfilled]
    change Meets (commandColor c k) _ _
    unfold commandColor
    dsimp only
    rw [meets_ite, meets_ite]
    refine ⟨fun _ => hlast _, fun hb => ⟨fun _ => hlast _, fun hf => ?_⟩⟩
    simp_all [among]

/-- A call of `treat_char` outside a command that keeps the cursor on the screen. -/
def KeepsCursor (treat : Treat) (c : Nat) : Prop :=
  ∀ k a, k.Valid → k.commandInfo.commandRequested = false →
    Meets (treat c a k) k.Stays fun _ => False

theorem Console.Stays.trans {k'' : Console} (h : k.Stays k') (h' : k'.Stays k'') : k.Stays k'' :=
  ⟨h'.line, h'.column, h'.command.trans h.command⟩

theorem Console.Valid.stays (h : k.Valid) : k.Stays k := ⟨h.line, h.column, rfl⟩

theorem treatSpaces_stays {treat : Treat} (htreat : KeepsCursor treat space) (h : k.Valid)
    (hnot : k.commandInfo.commandRequested = false) (n : Nat) :
    Meets (treatSpaces treat a n k) k.Stays fun _ => False := by
  induction n generalizing k with
  | zero => exact h.stays
  | succ n ih =>
      rw [treatSpaces, meets_bind]
      refine (htreat k a h hnot).mono (fun k' hstays => ?_) fun e he => he
      refine (ih (hstays.valid h) (by rw [hstays.command, hnot])).mono
        (fun k'' hstays' => hstays.trans hstays') fun e he => he

theorem setCursor_stays (hline : line < consoleHeight) (hcolumn : column < consoleWidth) :
    Meets (setCursor line column k) k.Stays fun _ => False := by
  rw [setCursor_eq hline hcolumn]
  exact ⟨hline, hcolumn, rfl⟩

/-- What `treat_char` does with a printable character. -/
theorem treatCharWith_print {treat : Treat} (hnot : k.commandInfo.commandRequested = false)
    (hc : 32 ≤ c ∧ c ≤ 126) : treatCharWith treat c a k = printChar c a k := by
  have hne : ∀ d, d < 32 ∨ 126 < d → c ≠ d := by omega
  unfold treatCharWith
  rw [hnot]
  simp only [Bool.false_eq_true, if_false]
  rw [if_neg (hne backspace (by decide)), if_neg (hne '\t'.toNat (by decide)),
    if_neg (hne '\n'.toNat (by decide)), if_neg (hne 12 (by decide)),
    if_neg (hne '\r'.toNat (by decide)), if_neg (hne 27 (by decide)),
    if_neg (hne deleteCode (by decide)), if_pos (.inl hc)]

theorem print_keepsCursor {treat : Treat} (hc : 32 ≤ c ∧ c ≤ 126) :
    KeepsCursor (treatCharWith treat) c := by
  intro k a h hnot
  rw [treatCharWith_print hnot hc, printChar_eq h]
  exact (h.print c a).1

theorem backspace_keepsCursor {treat : Treat} : KeepsCursor (treatCharWith treat) backspace := by
  intro k a h hnot
  have hcolumn := h.column
  unfold treatCharWith
  rw [hnot]
  simp only [Bool.false_eq_true, if_false, if_true, meets_ite]
  exact ⟨fun _ => setCursor_stays h.line (by omega), fun _ => h.stays⟩

/-- Behind column 0 the space goes to the last column of the line before, and the cursor back. -/
theorem deleteLastChar_stays {treat : Treat} (h : k.Valid)
    (hnot : k.commandInfo.commandRequested = false) :
    Meets (deleteLastChar (treatCharWith treat) k) k.Stays fun _ => False := by
  have hline := h.line
  have hspace : 32 ≤ space ∧ space ≤ 126 := by decide
  unfold deleteLastChar
  rw [meets_ite, meets_ite]
  refine ⟨fun _ => ⟨fun hpos => ?_, fun _ => h.stays⟩, fun _ => ?_⟩
  · set k₁ := k.moveTo (k.cursorInfo.cursorLine - 1) (consoleWidth - 1) with hk₁
    have hline₁ : k.cursorInfo.cursorLine - 1 < consoleHeight := by omega
    have hwidth : consoleWidth - 1 < consoleWidth := by decide
    have hvalid : k₁.Valid := ⟨hline₁, hwidth, h.command⟩
    have hnot₁ : k₁.commandInfo.commandRequested = false := hnot
    rw [setCursor_eq hline₁ hwidth, ok_bind, ← hk₁, treatCharWith_print hnot₁ hspace,
      printChar_eq hvalid, ok_bind]
    have hback : (k₁.print space k₁.cursorInfo.last).cursorInfo.cursorLine =
        k.cursorInfo.cursorLine := by
      rw [Console.print_wrap (by rw [hk₁, Console.moveTo_cursorColumn]; omega)
        (by rw [hk₁, Console.moveTo_cursorLine]; omega), hk₁, Console.moveTo_cursorLine]
      omega
    rw [hback]
    have hpred : uint32Pred k.cursorInfo.cursorLine < consoleHeight := by
      unfold uint32Pred
      rw [if_neg hpos]
      omega
    rw [setCursor_eq hpred hwidth]
    exact ⟨hpred, hwidth, (hvalid.print _ _).1.command⟩
  · rw [meets_bind]
    refine (backspace_keepsCursor k _ h hnot).mono (fun k₁ h₁ => ?_) fun e he => he
    rw [meets_bind]
    refine (print_keepsCursor hspace k₁ _ (h₁.valid h) (by rw [h₁.command, hnot])).mono
      (fun k₂ h₂ => ?_) fun e he => he
    have h₁₂ := h₁.trans h₂
    exact (backspace_keepsCursor k₂ _ (h₁₂.valid h) (by rw [h₁₂.command, hnot])).mono
      (fun k₃ h₃ => h₁₂.trans h₃) fun e he => he

theorem treatCharWith_stays {treat : Treat} (hspace : KeepsCursor treat space)
    (hdelete : ∀ k : Console, k.Valid → k.commandInfo.commandRequested = false →
      Meets (deleteLastChar treat k) k.Stays fun _ => False)
    (hc : c ≠ 27) : KeepsCursor (treatCharWith treat) c := by
  intro k a h hnot
  have hline := h.line
  have hcolumn := h.column
  unfold treatCharWith
  rw [hnot]
  simp only [Bool.false_eq_true, if_false, if_neg hc, meets_ite]
  refine ⟨fun _ => ⟨fun _ => setCursor_stays hline (by omega), fun _ => h.stays⟩, fun _ =>
    ⟨fun _ => treatSpaces_stays hspace h hnot _, fun _ =>
    ⟨fun _ => treatSpaces_stays hspace h hnot _, fun _ =>
    ⟨fun _ => ?_, fun _ => ⟨fun _ => setCursor_stays hline (by decide), fun _ =>
    ⟨fun _ => hdelete k h hnot, fun _ => ⟨fun _ => ?_, fun _ => h.stays⟩⟩⟩⟩⟩⟩⟩
  · rw [consoleClear_eq, ok_bind, setCursor_eq (by decide) (by decide)]
    exact ⟨by change 0 < consoleHeight; decide, by change 0 < consoleWidth; decide, rfl⟩
  · rw [printChar_eq h]
    exact (h.print c a).1

theorem treatChar_valid (h : k.Valid) (c : Nat) (a : Attributes) :
    Meets (treatChar c a k) Console.Valid fun _ => False := by
  cases hrequested : k.commandInfo.commandRequested with
  | true =>
      unfold treatChar treatCharWith
      rw [if_pos hrequested]
      exact treatCommand_valid h hrequested
  | false =>
      by_cases hc : c = 27
      · subst hc
        have hescape : treatChar 27 a k = .ok { k with
            commandInfo := { emptyCommandInfo with commandRequested := true } } := by
          unfold treatChar treatCharWith
          rw [hrequested]
          rfl
        rw [hescape]
        exact ⟨h.line, h.column, fun _ => .inl rfl⟩
      · refine (treatCharWith_stays (print_keepsCursor (by decide))
          (fun k h hnot => deleteLastChar_stays h hnot) hc k a h hrequested).mono
          (fun k' hstays => hstays.valid h) fun e he => he

theorem consolePutbytes_append (str rest : List Nat) (k : Console) :
    consolePutbytes (str ++ rest) k = consolePutbytes str k >>= consolePutbytes rest := by
  induction str generalizing k with
  | nil => rfl
  | cons c str ih =>
      rw [List.cons_append, consolePutbytes, consolePutbytes]
      cases treatChar c k.cursorInfo.last k with
      | ok k₁ => exact ih k₁
      | error e => rfl

theorem consolePutbytes_valid (h : k.Valid) (str : List Nat) :
    Meets (consolePutbytes str k) Console.Valid fun _ => False := by
  induction str generalizing k with
  | nil => exact h
  | cons c rest ih =>
      rw [consolePutbytes, meets_bind]
      exact (treatChar_valid h c _).mono (fun k' h' => ih h') fun e he => he

/-- Printable text outside a command leaves the command alone. -/
theorem consolePutbytes_print (h : k.Valid) (hnot : k.commandInfo.commandRequested = false)
    {str : List Nat} (hstr : ∀ c ∈ str, 32 ≤ c ∧ c ≤ 126) :
    Meets (consolePutbytes str k) k.Stays fun _ => False := by
  induction str generalizing k with
  | nil => exact h.stays
  | cons c rest ih =>
      rw [List.forall_mem_cons] at hstr
      rw [consolePutbytes, meets_bind]
      refine (print_keepsCursor hstr.1 k _ h hnot).mono (fun k₁ h₁ => ?_) fun e he => he
      exact (ih (h₁.valid h) (by rw [h₁.command, hnot]) hstr.2).mono
        (fun k₂ h₂ => h₁.trans h₂) fun e he => he

end SchlagOS
