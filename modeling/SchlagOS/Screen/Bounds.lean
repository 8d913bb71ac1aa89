import SchlagOS.Screen.Cursor

/-!
# The bounds of the screen

Output of any bytes, interrupted by strings of eight characters in the top right
corner, fails no assertion of console.c and writes only to the 80 columns of the
25 lines.
-/

namespace SchlagOS

open Foundation

variable {k k' : Console} {c n : Nat} {a : Attributes} {str : List Nat}

/-! ## Cells outside the screen -/

def OnScreen (line column : Nat) : Prop := line < consoleHeight ∧ column < consoleWidth

namespace Console

/-- Only cells of the screen are written. -/
def Spares (k k' : Console) : Prop :=
  ∀ line column, ¬OnScreen line column → k'.screen line column = k.screen line column

theorem Spares.refl (k : Console) : k.Spares k := fun _ _ _ => rfl

theorem Spares.trans {k'' : Console} (h : k.Spares k') (h' : k'.Spares k'') : k.Spares k'' :=
  fun line column hout => (h' line column hout).trans (h line column hout)

theorem spares_of_screen (h : k'.screen = k.screen) : k.Spares k' := by
  intro line column _
  rw [h]

theorem spares_put {line column : Nat} (h : OnScreen line column) (cell : Cell) :
    k.Spares (k.put line column cell) := by
  intro l col hout
  rw [put_screen, if_neg]
  rintro ⟨rfl, rfl⟩
  exact hout h

theorem spares_clear (k : Console) : k.Spares k.clear := by
  intro line column hout
  exact if_neg hout

theorem spares_scroll (k : Console) : k.Spares k.scroll := by
  intro line column hout
  unfold OnScreen at hout
  unfold scroll
  dsimp only
  rw [if_neg (by omega), if_neg (by unfold consoleHeight at *; omega)]

end Console

theorem setCursor_spares (line column : Nat) (k : Console) :
    Meets (setCursor line column k) k.Spares fun _ => True := by
  unfold setCursor
  rw [meets_bind, meets_require]
  refine ⟨fun _ => ?_, fun _ => trivial⟩
  rw [meets_bind, meets_require]
  exact ⟨fun _ => Console.spares_of_screen rfl, fun _ => trivial⟩

theorem writeChar_spares (line column c : Nat) (a : Attributes) (k : Console) :
    Meets (writeChar line column c a k) k.Spares fun _ => True := by
  unfold writeChar
  rw [meets_bind, meets_require]
  refine ⟨fun hline => ?_, fun _ => trivial⟩
  rw [meets_bind, meets_require]
  exact ⟨fun hcolumn => Console.spares_put ⟨hline, hcolumn⟩ _, fun _ => trivial⟩

theorem printChar_spares (c : Nat) (a : Attributes) (k : Console) :
    Meets (printChar c a k) k.Spares fun _ => True := by
  have hcursor : ∀ (k₁ : Console) (line column : Nat), k.Spares k₁ →
      Meets (setCursor line column k₁) k.Spares fun _ => True :=
    fun k₁ line column h => (setCursor_spares line column k₁).mono (fun _ h' => h.trans h')
      fun e he => he
  unfold printChar
  rw [meets_bind]
  refine (writeChar_spares _ _ c a k).mono (fun k₁ h₁ => ?_) fun e he => he
  rw [meets_ite, meets_ite, upShiftConsole_eq, ok_bind]
  exact ⟨fun _ => ⟨fun _ => hcursor _ _ _ (h₁.trans k₁.spares_scroll),
    fun _ => hcursor _ _ _ h₁⟩, fun _ => hcursor _ _ _ h₁⟩

/-! ## Characters -/

/-- A call of `treat_char` that writes to the screen only. -/
def KeepsOutside (treat : Treat) : Prop :=
  ∀ c a k, Meets (treat c a k) k.Spares fun _ => True

theorem treatSpaces_spares {treat : Treat} (htreat : KeepsOutside treat) (a : Attributes)
    (n : Nat) (k : Console) : Meets (treatSpaces treat a n k) k.Spares fun _ => True := by
  induction n generalizing k with
  | zero => exact .refl k
  | succ n ih =>
      rw [treatSpaces, meets_bind]
      refine (htreat space a k).mono (fun k₁ h₁ => ?_) fun e he => he
      exact (ih k₁).mono (fun _ h₂ => h₁.trans h₂) fun e he => he

theorem deleteLastChar_spares {treat : Treat} (htreat : KeepsOutside treat) (k : Console) :
    Meets (deleteLastChar treat k) k.Spares fun _ => True := by
  have hthen : ∀ (k₁ : Console) (x : Except ConsolePanic Console), k.Spares k₁ →
      Meets x k₁.Spares (fun _ => True) → Meets x k.Spares fun _ => True :=
    fun k₁ x h₁ hx => hx.mono (fun _ h₂ => h₁.trans h₂) fun e he => he
  unfold deleteLastChar
  simp only [meets_ite, meets_bind]
  refine ⟨fun _ => ⟨fun _ => ?_, fun _ => .refl k⟩, fun _ => ?_⟩
  · refine (setCursor_spares _ _ k).mono (fun k₁ h₁ => ?_) fun e he => he
    refine (hthen k₁ _ h₁ (htreat _ _ k₁)).mono (fun k₂ h₂ => ?_) fun e he => he
    exact hthen k₂ _ h₂ (setCursor_spares _ _ k₂)
  · refine (htreat _ _ k).mono (fun k₁ h₁ => ?_) fun e he => he
    refine (hthen k₁ _ h₁ (htreat _ _ k₁)).mono (fun k₂ h₂ => ?_) fun e he => he
    exact hthen k₂ _ h₂ (htreat _ _ k₂)

theorem treatCommand_spares (c : Nat) (k : Console) :
    Meets (treatCommand c k) k.Spares fun _ => True := by
  unfold treatCommand
  split
  · apply Console.spares_of_screen
    unfold commandName
    split
    · rfl
    · split
      · rfl
      · rfl
  · unfold commandColor
    dsimp only
    rw [meets_ite, meets_ite]
    exact ⟨fun _ => Console.spares_of_screen rfl,
      fun _ => ⟨fun _ => Console.spares_of_screen rfl, fun _ => trivial⟩⟩
  · exact Console.spares_of_screen rfl

theorem treatCharWith_spares {treat : Treat} (htreat : KeepsOutside treat) :
    KeepsOutside (treatCharWith treat) := by
  intro c a k
  unfold treatCharWith
  simp only [meets_ite]
  refine ⟨fun _ => treatCommand_spares c k, fun _ =>
    ⟨fun _ => ⟨fun _ => setCursor_spares _ _ k, fun _ => .refl k⟩, fun _ =>
    ⟨fun _ => treatSpaces_spares htreat a _ k, fun _ =>
    ⟨fun _ => treatSpaces_spares htreat a _ k, fun _ =>
    ⟨fun _ => ?_, fun _ => ⟨fun _ => setCursor_spares _ _ k, fun _ =>
    ⟨fun _ => Console.spares_of_screen rfl, fun _ =>
    ⟨fun _ => deleteLastChar_spares htreat k, fun _ =>
    ⟨fun _ => printChar_spares c a k, fun _ => .refl k⟩⟩⟩⟩⟩⟩⟩⟩⟩
  rw [consoleClear_eq, ok_bind]
  refine (setCursor_spares 0 0 _).mono (fun k₁ h₁ => ?_) fun e he => he
  exact ((k.withLast a).spares_clear).trans h₁

theorem treatChar_spares : KeepsOutside treatChar :=
  treatCharWith_spares (treatCharWith_spares fun _ _ _ => trivial)

theorem consolePutbytes_spares (str : List Nat) (k : Console) :
    Meets (consolePutbytes str k) k.Spares fun _ => True := by
  induction str generalizing k with
  | nil => exact .refl k
  | cons c rest ih =>
      rw [consolePutbytes, meets_bind]
      refine (treatChar_spares c _ k).mono (fun k₁ h₁ => ?_) fun e he => he
      exact (ih k₁).mono (fun _ h₂ => h₁.trans h₂) fun e he => he

/-! ## The top right corner -/

theorem printTopRight_spares (str : List Nat) (k : Console) :
    Meets (printTopRight str k) k.Spares fun _ => True := by
  unfold printTopRight
  rw [meets_bind]
  refine (setCursor_spares _ _ k).mono (fun k₁ h₁ => ?_) fun e he => he
  rw [meets_bind]
  refine (consolePutbytes_spares _ k₁).mono (fun k₂ h₂ => ?_) fun e he => he
  exact (setCursor_spares _ _ k₂).mono (fun _ h₃ => (h₁.trans h₂).trans h₃) fun e he => he

/-- A string of eight characters starts in column 71. -/
theorem printTopRight_eight (h : k.Valid) (hlength : strlen str = 8) :
    Meets (printTopRight str k) Console.Valid fun _ => False := by
  have hcolumn : (consoleWidth + 2 ^ 32 - (8 + 1)) % 2 ^ 32 = 71 := by decide
  have hcorner : (k.moveTo 0 71).Valid := h.moveTo (by decide) (by decide)
  unfold printTopRight
  rw [hlength]
  dsimp only
  rw [hcolumn, setCursor_eq (by decide) (by decide), ok_bind, meets_bind]
  refine (consolePutbytes_valid hcorner _).mono (fun k₁ h₁ => ?_) fun e he => he
  rw [setCursor_eq h.line h.column]
  exact h₁.moveTo h.line h.column

/-! ## Runs -/

/-- The console with any eight characters in the corner. -/
def screenMachine : Machine Console Display ConsolePanic where
  enabled := fun _ display =>
    match display with
    | .putbytes _ => True
    | .clock str => strlen str = 8
  step := consoleMachine.step

def Shown (k : Console) : Prop :=
  ∃ screen, Reach screenMachine (initialConsole screen) (fun _ _ => True) k

theorem initialConsole_valid (screen : Nat → Nat → Cell) : (initialConsole screen).Valid :=
  ⟨Nat.zero_lt_succ 24, Nat.zero_lt_succ 79, fun hfalse => by cases hfalse⟩

theorem screenMachine_valid (h : k.Valid) {display : Display}
    (henabled : screenMachine.enabled k display) :
    Meets (screenMachine.step display k) Console.Valid fun _ => False := by
  cases display with
  | putbytes str => exact consolePutbytes_valid h str
  | clock str => exact printTopRight_eight h henabled

theorem Shown.valid (h : Shown k) : k.Valid := by
  obtain ⟨screen, hreach⟩ := h
  exact hreach.meets (initialConsole_valid screen)
    fun k display h henabled _ => screenMachine_valid h henabled

theorem screen_safe (h : Shown k) : OnScreen k.cursorInfo.cursorLine k.cursorInfo.cursorColumn ∧
    ∀ display, screenMachine.enabled k display →
      ∃ k', screenMachine.step display k = .ok k' ∧ k.Spares k' := by
  have hvalid := h.valid
  refine ⟨⟨hvalid.line, hvalid.column⟩, fun display henabled => ?_⟩
  have hsafe := screenMachine_valid hvalid henabled
  have hspares : Meets (screenMachine.step display k) k.Spares fun _ => True := by
    cases display with
    | putbytes str => exact consolePutbytes_spares str k
    | clock str => exact printTopRight_spares str k
  cases hrun : screenMachine.step display k with
  | ok k' => exact ⟨k', rfl, hspares.of_ok hrun⟩
  | error e => exact False.elim (hsafe.of_error hrun)

theorem Shown.putbytes (h : Shown k) (hrun : consolePutbytes str k = .ok k') : Shown k' := by
  obtain ⟨screen, hreach⟩ := h
  exact ⟨screen, hreach.step (l := .putbytes str) trivial trivial hrun⟩

/-- A newline and a DEL leave the cursor in the last column. -/
theorem screen_safe_run : ∃ k, k.cursorInfo.cursorColumn = consoleWidth - 1 ∧
    ∃ k', consolePutbytes [space] k = .ok k' ∧ k.Spares k' := by
  have hstart : Shown (initialConsole fun _ _ => ⟨space, ⟨.white, .black, false⟩⟩) :=
    ⟨_, .start⟩
  have hlast : ((consolePutbytes ['\n'.toNat, deleteCode] (initialConsole fun _ _ =>
      ⟨space, ⟨.white, .black, false⟩⟩)).toOption.any
        fun k => decide (k.cursorInfo.cursorColumn = consoleWidth - 1)) = true := by
    decide +kernel
  cases hrun : consolePutbytes ['\n'.toNat, deleteCode] (initialConsole fun _ _ =>
      ⟨space, ⟨.white, .black, false⟩⟩) with
  | error e =>
      rw [hrun] at hlast
      cases hlast
  | ok k =>
      rw [hrun] at hlast
      exact ⟨k, of_decide_eq_true hlast,
        (screen_safe (hstart.putbytes hrun)).2 (.putbytes [space]) trivial⟩

end SchlagOS
