import SchlagOS.Screen.Cursor

/-!
# The clock in the corner

The clock is printed over the console's output.  Two consoles that differ only
in its eight cells stay so whatever is written to them, for the first line is
never copied to another one.  The text goes through `treat_char` like any other,
and a command that waits for its next byte takes the clock's.
-/

namespace SchlagOS

open Foundation

variable {k t : Console} {c line column n : Nat} {a : Attributes} {str s : List Nat}

/-- A cell that the clock is printed to. -/
def ClockCell (line column : Nat) : Prop := line = 0 ∧ 71 ≤ column ∧ column ≤ 78

/-- The consoles show the same outside the clock, and go on in the same way. -/
structure SameOutside (k t : Console) : Prop where
  cursorInfo : t.cursorInfo = k.cursorInfo
  commandInfo : t.commandInfo = k.commandInfo
  screen : ∀ line column, ¬ClockCell line column → t.screen line column = k.screen line column

namespace SameOutside

/-- Only the screens are different. -/
theorem exists_screen (h : SameOutside k t) :
    ∃ screen, t = { k with screen := screen } ∧
      SameOutside k { k with screen := screen } := by
  obtain ⟨screen, cursorInfo, commandInfo⟩ := t
  obtain ⟨rfl, rfl, hscreen⟩ := h
  exact ⟨screen, rfl, rfl, rfl, hscreen⟩

theorem withLast (h : SameOutside k t) (last : Attributes) :
    SameOutside (k.withLast last) (t.withLast last) where
  cursorInfo := by
    unfold Console.withLast
    dsimp only
    rw [h.cursorInfo]
  commandInfo := h.commandInfo
  screen := h.screen

theorem withCommand (h : SameOutside k t) (commandInfo : CommandInfo) :
    SameOutside { k with commandInfo := commandInfo } { t with commandInfo := commandInfo } :=
  ⟨h.cursorInfo, rfl, h.screen⟩

theorem moveTo (h : SameOutside k t) (line column : Nat) :
    SameOutside (k.moveTo line column) (t.moveTo line column) where
  cursorInfo := by
    unfold Console.moveTo
    dsimp only
    rw [h.cursorInfo]
  commandInfo := h.commandInfo
  screen := h.screen

theorem put (h : SameOutside k t) (line column : Nat) (cell : Cell) :
    SameOutside (k.put line column cell) (t.put line column cell) where
  cursorInfo := (h.withLast cell.attributes).cursorInfo
  commandInfo := h.commandInfo
  screen l col hcell := by
    rw [Console.put_screen, Console.put_screen, h.screen l col hcell]

theorem clear (h : SameOutside k t) : SameOutside k.clear t.clear where
  cursorInfo := h.cursorInfo
  commandInfo := h.commandInfo
  screen l col hcell := by
    unfold Console.clear
    dsimp only
    rw [h.screen l col hcell, h.cursorInfo]

theorem scroll (h : SameOutside k t) : SameOutside k.scroll t.scroll where
  cursorInfo := h.cursorInfo
  commandInfo := h.commandInfo
  screen l col hcell := by
    unfold Console.scroll
    dsimp only
    have hbelow : ¬ClockCell (l + 1) col := fun hclock => Nat.succ_ne_zero l hclock.1
    rw [h.screen l col hcell, h.screen (l + 1) col hbelow, h.cursorInfo]

end SameOutside

/-! ## Writing to both -/

theorem setCursor_same (h : SameOutside k t) (line column : Nat) :
    Coupled SameOutside (setCursor line column k) (setCursor line column t) :=
  .front _ fun _ => .front _ fun _ => h.moveTo line column

theorem writeChar_same (h : SameOutside k t) (line column c : Nat) (a : Attributes) :
    Coupled SameOutside (writeChar line column c a k) (writeChar line column c a t) :=
  .front _ fun _ => .front _ fun _ => h.put line column ⟨c % 256, a⟩

theorem printChar_same (h : SameOutside k t) (c : Nat) (a : Attributes) :
    Coupled SameOutside (printChar c a k) (printChar c a t) := by
  unfold printChar
  rw [h.cursorInfo]
  refine (writeChar_same h _ _ c a).bind fun k t h => .ite (fun _ => .ite (fun _ => ?_) fun _ => ?_)
    fun _ => setCursor_same h _ _
  · rw [upShiftConsole_eq, upShiftConsole_eq, ok_bind, ok_bind]
    exact setCursor_same h.scroll _ _
  · exact setCursor_same h _ _

theorem treatCommand_same (h : SameOutside k t) (c : Nat) :
    Coupled SameOutside (treatCommand c k) (treatCommand c t) := by
  obtain ⟨screen, rfl, h⟩ := h.exists_screen
  unfold treatCommand
  dsimp only
  split
  · change SameOutside (commandName c k) (commandName c { k with screen := screen })
    unfold commandName
    split
    · exact h.withCommand _
    · split
      · exact (h.withCommand _).withLast _
      · exact h.withCommand _
  · exact .ite (fun _ => (h.withCommand _).withLast _) fun _ =>
      .ite (fun _ => (h.withCommand _).withLast _) fun _ => .error _
  · exact h.withCommand _

/-- A call of `treat_char` keeps two consoles the same. -/
def KeepsSame (treat : Treat) : Prop :=
  ∀ {k t : Console}, SameOutside k t → ∀ c a, Coupled SameOutside (treat c a k) (treat c a t)

theorem treatSpaces_same {treat : Treat} (htreat : KeepsSame treat) (h : SameOutside k t)
    (a : Attributes) (n : Nat) :
    Coupled SameOutside (treatSpaces treat a n k) (treatSpaces treat a n t) := by
  induction n generalizing k t with
  | zero => exact h
  | succ n ih => exact (htreat h space a).bind fun k t h => ih h

theorem deleteLastChar_same {treat : Treat} (htreat : KeepsSame treat) (h : SameOutside k t) :
    Coupled SameOutside (deleteLastChar treat k) (deleteLastChar treat t) := by
  unfold deleteLastChar
  rw [h.cursorInfo]
  refine .ite (fun _ => .ite (fun _ => ?_) fun _ => h) fun _ => ?_
  · refine (setCursor_same h _ _).bind fun k t h => ?_
    rw [h.cursorInfo]
    refine (htreat h _ _).bind fun k t h => ?_
    rw [h.cursorInfo]
    exact setCursor_same h _ _
  · refine (htreat h _ _).bind fun k t h => ?_
    rw [h.cursorInfo]
    refine (htreat h _ _).bind fun k t h => ?_
    rw [h.cursorInfo]
    exact htreat h _ _

theorem treatCharWith_same {treat : Treat} (htreat : KeepsSame treat) :
    KeepsSame (treatCharWith treat) := by
  intro k t h c a
  obtain ⟨screen, rfl, h⟩ := h.exists_screen
  unfold treatCharWith
  refine .ite (fun _ => treatCommand_same h c) fun _ => .ite (fun _ => ?_) fun _ =>
    .ite (fun _ => treatSpaces_same htreat h a _) fun _ =>
    .ite (fun _ => treatSpaces_same htreat h a _) fun _ => .ite (fun _ => ?_) fun _ =>
    .ite (fun _ => setCursor_same h _ _) fun _ => .ite (fun _ => h.withCommand _) fun _ =>
    .ite (fun _ => deleteLastChar_same htreat h) fun _ =>
    .ite (fun _ => printChar_same h c a) fun _ => h
  · exact .ite (fun _ => setCursor_same h _ _) fun _ => h
  · rw [consoleClear_eq, consoleClear_eq, ok_bind, ok_bind]
    exact setCursor_same (h.withLast a).clear 0 0

theorem treatChar_same : KeepsSame treatChar :=
  treatCharWith_same (treatCharWith_same fun _ _ _ => .error _)

theorem consolePutbytes_same (h : SameOutside k t) (str : List Nat) :
    Coupled SameOutside (consolePutbytes str k) (consolePutbytes str t) := by
  induction str generalizing k t with
  | nil => exact h
  | cons c rest ih =>
      unfold consolePutbytes
      rw [h.cursorInfo]
      exact (treatChar_same h c _).bind fun k t h => ih h

/-! ## The text of the clock -/

theorem ClockText.printable (hs : ClockText s) : ∀ c ∈ s, 32 ≤ c ∧ c ≤ 126 := by
  intro c hc
  have hrange := hs.2 c hc
  have hzero : '0'.toNat = 48 := rfl
  have hcolon : ':'.toNat = 58 := rfl
  omega

theorem ClockText.strlen_eq (hs : ClockText s) : strlen s = 8 := by
  have hall : s.takeWhile (fun c => c ≠ 0) = s := by
    rw [List.takeWhile_eq_self_iff]
    intro c hc
    have hprint := hs.printable c hc
    simp only [ne_eq, decide_not, Bool.not_eq_eq_eq_not, Bool.not_true, decide_eq_false_iff_not]
    omega
  unfold strlen
  rw [hall, hs.1]

/-- Printable text in the first line, in front of its last column. -/
private theorem printRow (h : k.Valid) (hnot : k.commandInfo.commandRequested = false)
    (hline : k.cursorInfo.cursorLine = 0) (hstr : ∀ c ∈ str, 32 ≤ c ∧ c ≤ 126)
    (hroom : k.cursorInfo.cursorColumn + str.length ≤ consoleWidth - 1) :
    Meets (consolePutbytes str k) (fun k' => k'.commandInfo = k.commandInfo ∧
      k'.cursorInfo.last = k.cursorInfo.last ∧
      ∀ l col, ¬(l = 0 ∧ k.cursorInfo.cursorColumn ≤ col ∧
        col < k.cursorInfo.cursorColumn + str.length) → k'.screen l col = k.screen l col)
      fun _ => False := by
  induction str generalizing k with
  | nil => exact ⟨rfl, rfl, fun _ _ _ => rfl⟩
  | cons c rest ih =>
      rw [List.forall_mem_cons] at hstr
      rw [List.length_cons] at hroom ⊢
      set a := k.cursorInfo.last with ha
      obtain ⟨hstays, hlast⟩ := h.print c a
      have htreat : treatChar c a k = .ok (k.print c a) := by
        unfold treatChar
        rw [treatCharWith_print hnot hstr.1, printChar_eq h]
      have hscreen := Console.print_screen (c := c) (a := a) (k := k) (by rw [hline]; decide)
      rw [consolePutbytes, htreat, ok_bind]
      cases rest with
      | nil =>
          refine ⟨hstays.command, hlast, fun l col hout => ?_⟩
          rw [hscreen, if_neg]
          rintro ⟨hl, rfl⟩
          exact hout ⟨hl.trans hline, le_rfl, by simp⟩
      | cons d rest =>
          rw [List.length_cons] at hroom
          have hinfo := Console.print_within (c := c) (a := a) (k := k) (by omega)
          have hcolumn : (k.print c a).cursorInfo.cursorColumn =
              k.cursorInfo.cursorColumn + 1 := by rw [hinfo]
          refine (ih (hstays.valid h) (by rw [hstays.command, hnot]) (by rw [hinfo, ← hline])
            hstr.2 (by rw [hcolumn, List.length_cons]; omega)).mono ?_ fun e he => he
          rintro k' ⟨hcommand, hlast', hscreen'⟩
          refine ⟨hcommand.trans hstays.command, hlast'.trans hlast, fun l col hout => ?_⟩
          rw [hcolumn] at hscreen'
          rw [hscreen' l col fun hin => hout ⟨hin.1, by omega, by omega⟩, hscreen, if_neg]
          rintro ⟨hl, rfl⟩
          exact hout ⟨hl.trans hline, le_rfl, by omega⟩

theorem printTopRight_eq (hs : ClockText s) (k : Console) :
    printTopRight s k = consolePutbytes s (k.moveTo 0 71) >>= fun k' =>
      setCursor k.cursorInfo.cursorLine k.cursorInfo.cursorColumn k' := by
  have hcolumn : (consoleWidth + 2 ^ 32 - (8 + 1)) % 2 ^ 32 = 71 := by decide
  have htake : s.take 8 = s := by rw [← hs.1, List.take_length]
  unfold printTopRight
  rw [hs.strlen_eq]
  dsimp only
  rw [htake, hcolumn, setCursor_eq (by decide) (by decide), ok_bind]

theorem printTopRight_valid (h : k.Valid) (hs : ClockText s) :
    Meets (printTopRight s k) Console.Valid fun _ => False := by
  have hcorner : (k.moveTo 0 71).Valid := h.moveTo (by decide) (by decide)
  rw [printTopRight_eq hs, meets_bind]
  refine (consolePutbytes_valid hcorner s).mono (fun k' hvalid => ?_) fun e he => he
  rw [setCursor_eq h.line h.column]
  exact hvalid.moveTo h.line h.column

/-- Outside a command the clock is only seen in its own cells. -/
theorem printTopRight_same (h : k.Valid) (hnot : k.commandInfo.commandRequested = false)
    (hs : ClockText s) : Meets (printTopRight s k) (SameOutside k) fun _ => False := by
  have hcorner : (k.moveTo 0 71).Valid := h.moveTo (by decide) (by decide)
  have hroom : (k.moveTo 0 71).cursorInfo.cursorColumn + s.length ≤ consoleWidth - 1 := by
    rw [hs.1]
    exact le_rfl
  rw [printTopRight_eq hs, meets_bind]
  refine (printRow hcorner hnot rfl hs.printable hroom).mono ?_ fun e he => he
  rintro k' ⟨hcommand, hlast, hscreen⟩
  rw [setCursor_eq h.line h.column]
  refine ⟨?_, hcommand, fun l col hcell => hscreen l col fun hin => hcell ⟨hin.1, hin.2.1, ?_⟩⟩
  · unfold Console.moveTo
    dsimp only
    rw [hlast]
    rfl
  · have hlt := hin.2.2
    rw [hs.1] at hlt
    change col < 71 + 8 at hlt
    omega

/-- A byte in front of the letters ends the command. -/
theorem treatCommand_ends (hc : c < 'B'.toNat) :
    Meets (treatCommand c k) (fun k' => k'.commandInfo.commandRequested = false)
      fun _ => True := by
  have hnot : among c ['B', 'b', 'F', 'f'] = false := by
    have hb : 'B'.toNat = 66 := rfl
    simp only [among, List.any_cons, List.any_nil, Bool.or_false, Bool.or_eq_false_iff,
      decide_eq_false_iff_not]
    refine ⟨?_, ?_, ?_, ?_⟩
    · change ¬66 = c
      omega
    · change ¬98 = c
      omega
    · change ¬70 = c
      omega
    · change ¬102 = c
      omega
  unfold treatCommand
  split
  · rw [meets_ok]
    unfold commandName
    rw [hnot]
    simp only [Bool.false_eq_true, if_false]
    split
    · rfl
    · rfl
  · unfold commandColor
    dsimp only
    rw [meets_ite, meets_ite]
    exact ⟨fun _ => rfl, fun _ => ⟨fun _ => rfl, fun _ => trivial⟩⟩
  · rfl

/-- A command in progress takes the first byte of the clock. -/
theorem printTopRight_pending (h : k.Valid) (hrequested : k.commandInfo.commandRequested = true)
    (hs : ClockText s) :
    Meets (printTopRight s k) (fun k' => k'.commandInfo.commandRequested = false)
      fun _ => False := by
  have hcorner : (k.moveTo 0 71).Valid := h.moveTo (by decide) (by decide)
  have hprint := hs.printable
  rw [printTopRight_eq hs, meets_bind]
  have hrange := hs.2
  obtain ⟨c, rest, rfl⟩ := List.exists_cons_of_length_eq_add_one hs.1
  rw [List.forall_mem_cons] at hprint hrange
  rw [consolePutbytes, meets_bind]
  have htreat : Meets (treatChar c (k.moveTo 0 71).cursorInfo.last (k.moveTo 0 71))
      (fun k' => k'.Valid ∧ k'.commandInfo.commandRequested = false) fun _ => False := by
    have hvalid := treatCommand_valid (c := c) hcorner hrequested
    have hends := treatCommand_ends (c := c) (k := k.moveTo 0 71)
      (Nat.lt_of_le_of_lt hrange.1.2 (by decide))
    unfold treatChar treatCharWith
    rw [if_pos (show (k.moveTo 0 71).commandInfo.commandRequested = true from hrequested)]
    cases hrun : treatCommand c (k.moveTo 0 71) with
    | ok k' =>
        rw [hrun] at hvalid hends
        exact ⟨hvalid, hends⟩
    | error e =>
        rw [hrun] at hvalid
        exact hvalid
  refine htreat.mono (fun k₁ h₁ => ?_) fun e he => he
  refine (consolePutbytes_print h₁.1 h₁.2 hprint.2).mono (fun k₂ h₂ => ?_) fun e he => he
  rw [setCursor_eq h.line h.column]
  change k₂.commandInfo.commandRequested = false
  rw [h₂.command, h₁.2]

theorem Displayed.valid (h : Displayed k) : k.Valid := by
  obtain ⟨screen, hreach⟩ := h
  have hstep : ∀ k display, k.Valid → consoleMachine.enabled k display → True →
      Meets (consoleMachine.step display k) Console.Valid fun _ => False := by
    intro k display h henabled _
    cases display with
    | putbytes str => exact consolePutbytes_valid h str
    | clock str => exact printTopRight_valid h henabled
  have hstart : (initialConsole screen).Valid :=
    ⟨Nat.zero_lt_succ 24, Nat.zero_lt_succ 79, fun hfalse => by cases hfalse⟩
  exact hreach.meets hstart hstep

/-- With the clock between `a` and `b` everything ends as without it. -/
def Transparent (k : Console) (a s b : List Nat) : Prop :=
  ∃ x y, (do
      let k ← consolePutbytes a k
      let k ← printTopRight s k
      consolePutbytes b k) = .ok x ∧
    (do
      let k ← consolePutbytes a k
      consolePutbytes b k) = .ok y ∧ SameOutside y x

theorem clock_transparent_iff (h : Displayed k) (hs : ClockText s) (a : List Nat) :
    (∀ b, Transparent k a s b) ↔
      ∀ k', consolePutbytes a k = .ok k' → k'.commandInfo.commandRequested = false := by
  have hmiddle := consolePutbytes_valid h.valid a
  cases hrun : consolePutbytes a k with
  | error e =>
      rw [hrun] at hmiddle
      exact False.elim hmiddle
  | ok k₁ =>
      rw [hrun] at hmiddle
      unfold Transparent
      simp only [hrun, ok_bind, Except.ok.injEq, forall_eq']
      constructor
      · intro htransparent
        by_contra hrequested
        obtain ⟨x, y, hx, hy, hsame⟩ := htransparent []
        have hends := printTopRight_pending hmiddle (by simpa using hrequested) hs
        obtain ⟨k₂, hclock, hk₂⟩ := bind_eq_ok.mp hx
        cases hk₂
        cases hy
        rw [hclock] at hends
        rw [← hsame.commandInfo] at hrequested
        exact hrequested hends
      · intro hnot b
        have hclock := printTopRight_same hmiddle hnot hs
        cases hprint : printTopRight s k₁ with
        | error e =>
            rw [hprint] at hclock
            exact False.elim hclock
        | ok k₂ =>
            rw [hprint] at hclock
            have hvalid := consolePutbytes_valid hmiddle b
            have hcoupled := consolePutbytes_same hclock b
            cases hlast : consolePutbytes b k₁ with
            | error e =>
                rw [hlast] at hvalid
                exact False.elim hvalid
            | ok y =>
                rw [hlast] at hcoupled
                obtain ⟨x, hx, hsame⟩ := hcoupled.of_ok
                exact ⟨x, y, hx, rfl, hsame⟩

/-- The screen is full of spaces, and eight zeros and colons are printed to it. -/
theorem clock_transparent_run : ∃ k s, Displayed k ∧ ClockText s ∧
    ∀ b, Transparent k [space, '\n'.toNat] s b := by
  have hs : ClockText (['0', '0', ':', '0', '0', ':', '0', '0'].map Char.toNat) := by
    refine ⟨rfl, ?_⟩
    decide
  have hdisplayed : Displayed (initialConsole fun _ _ => ⟨space, ⟨.white, .black, false⟩⟩) :=
    ⟨_, .start⟩
  refine ⟨_, _, hdisplayed, hs, (clock_transparent_iff hdisplayed hs _).mpr ?_⟩
  intro k' hrun
  have hcommand : ((consolePutbytes [space, '\n'.toNat] (initialConsole fun _ _ =>
      ⟨space, ⟨.white, .black, false⟩⟩)).toOption.map
        fun k => k.commandInfo.commandRequested) = some false := by
    decide +kernel
  rw [hrun] at hcommand
  exact Option.some.inj hcommand

/-- Behind `ESC F` the clock sets the colour that the next byte was to set. -/
theorem clock_not_transparent : ∃ k s, Displayed k ∧ ClockText s ∧
    ¬Transparent k [27, 'F'.toNat] s ['4'.toNat] := by
  refine ⟨initialConsole fun _ _ => ⟨space, ⟨.white, .black, false⟩⟩,
    ['0', '0', ':', '0', '0', ':', '0', '0'].map Char.toNat, ⟨_, .start⟩, ⟨rfl, by decide⟩, ?_⟩
  rintro ⟨x, y, hx, hy, hsame⟩
  have hblack := congrArg
    (fun result => result.toOption.map fun k => k.cursorInfo.last.foregroundColor) hx
  have hred := congrArg
    (fun result => result.toOption.map fun k => k.cursorInfo.last.foregroundColor) hy
  have hcolor : x.cursorInfo.last.foregroundColor = .black :=
    Option.some.inj (hblack.symm.trans (by decide +kernel))
  have hcolor' : y.cursorInfo.last.foregroundColor = .darkRed :=
    Option.some.inj (hred.symm.trans (by decide +kernel))
  rw [hsame.cursorInfo, hcolor'] at hcolor
  cases hcolor

end SchlagOS
