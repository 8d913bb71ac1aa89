import Mathlib.Data.List.GetD
import SchlagOS.Screen.Bounds

/-!
# The layout of a text

The screen behind a form feed and a text without control characters other than
newlines, as a function of the text: rows of 79 characters, of which the last 25
are shown.
-/

namespace SchlagOS

open Foundation

variable {k k' : Console} {c n : Nat} {a : Attributes} {chars text : List Nat}

/-! ## The reference layout -/

/-- The columns that printing fills. -/
def rowWidth : Nat := consoleWidth - 1

/-- The characters of a text that starts behind `n` others: a newline stands for the
spaces that complete its row. -/
def expand : Nat → List Nat → List Nat
  | _, [] => []
  | n, c :: rest =>
      let gap := rowWidth - n % rowWidth
      if c = '\n'.toNat then List.replicate gap space ++ expand (n + gap) rest
      else c :: expand (n + 1) rest

/-- The first row on the screen when the cursor is behind `n` characters. -/
def topRow (n : Nat) : Nat := n / rowWidth + 1 - consoleHeight

/-- What the layout shows in a cell. -/
def layoutChar (chars : List Nat) (line column : Nat) : Nat :=
  if column < rowWidth then
    chars.getD (rowWidth * (topRow chars.length + line) + column) space
  else space

structure Laid (k : Console) (chars : List Nat) (a : Attributes) : Prop where
  cells : ∀ line column, OnScreen line column →
    k.screen line column = ⟨layoutChar chars line column, a⟩
  line : k.cursorInfo.cursorLine = chars.length / rowWidth - topRow chars.length
  column : k.cursorInfo.cursorColumn = chars.length % rowWidth
  last : k.cursorInfo.last = a
  idle : k.commandInfo.commandRequested = false

/-! ## One character -/

theorem getD_concat (chars : List Nat) (c i : Nat) :
    (chars ++ [c]).getD i space = if i = chars.length then c else chars.getD i space := by
  rcases Nat.lt_trichotomy i chars.length with hlt | heq | hgt
  · rw [List.getD_append _ _ _ _ hlt, if_neg (Nat.ne_of_lt hlt)]
  · rw [if_pos heq, heq, List.getD_append_right _ _ _ _ le_rfl, Nat.sub_self]
    rfl
  · rw [if_neg (Nat.ne_of_gt hgt), List.getD_eq_default _ _ (by rw [List.length_append]; exact hgt),
      List.getD_eq_default _ _ (Nat.le_of_lt hgt)]

/-- A character more, when no row is scrolled away. -/
theorem layoutChar_concat (htop : topRow (chars.length + 1) = topRow chars.length)
    (line column : Nat) :
    layoutChar (chars ++ [c]) line column =
      if line + topRow chars.length = chars.length / rowWidth ∧
          column = chars.length % rowWidth then c
      else layoutChar chars line column := by
  unfold layoutChar
  rw [List.length_append, List.length_singleton, htop, getD_concat]
  have hiff : column < rowWidth →
      (rowWidth * (topRow chars.length + line) + column = chars.length ↔
        line + topRow chars.length = chars.length / rowWidth ∧
          column = chars.length % rowWidth) := by
    intro hcolumn
    unfold rowWidth consoleWidth at *
    omega
  by_cases hcolumn : column < rowWidth
  · rw [if_pos hcolumn, if_pos hcolumn, if_congr (hiff hcolumn) rfl rfl]
  · rw [if_neg hcolumn, if_neg hcolumn, if_neg]
    unfold rowWidth consoleWidth at *
    omega

/-- A character more, when the first row is scrolled away. -/
theorem layoutChar_scrolls (htop : topRow (chars.length + 1) = topRow chars.length + 1)
    (line column : Nat) :
    layoutChar (chars ++ [c]) line column =
      if line + 1 + topRow chars.length = chars.length / rowWidth ∧
          column = chars.length % rowWidth then c
      else layoutChar chars (line + 1) column := by
  have hshift : topRow chars.length + 1 + line = topRow chars.length + (line + 1) := by omega
  unfold layoutChar
  rw [List.length_append, List.length_singleton, htop, getD_concat, hshift]
  have hiff : column < rowWidth →
      (rowWidth * (topRow chars.length + (line + 1)) + column = chars.length ↔
        line + 1 + topRow chars.length = chars.length / rowWidth ∧
          column = chars.length % rowWidth) := by
    intro hcolumn
    unfold rowWidth consoleWidth at *
    omega
  by_cases hcolumn : column < rowWidth
  · rw [if_pos hcolumn, if_pos hcolumn, if_congr (hiff hcolumn) rfl rfl]
  · rw [if_neg hcolumn, if_neg hcolumn, if_neg]
    unfold rowWidth consoleWidth at *
    omega

/-- Behind the text the layout is blank. -/
theorem layoutChar_behind {line : Nat}
    (h : chars.length ≤ rowWidth * (topRow chars.length + line)) (column : Nat) :
    layoutChar chars line column = space := by
  unfold layoutChar
  split
  · exact List.getD_eq_default _ _ (by omega)
  · rfl

theorem Laid.valid (h : Laid k chars a) : k.Valid where
  line := by
    rw [h.line]
    unfold topRow rowWidth consoleWidth consoleHeight
    omega
  column := by
    rw [h.column]
    unfold rowWidth consoleWidth
    omega
  command hrequested := by
    rw [h.idle] at hrequested
    cases hrequested

private theorem Laid.put (h : Laid k chars a) (hc : c < 256) {line column : Nat}
    (hscreen : OnScreen line column) :
    (k.put k.cursorInfo.cursorLine k.cursorInfo.cursorColumn ⟨c % 256, a⟩).screen line column =
      ⟨if line = k.cursorInfo.cursorLine ∧ column = chars.length % rowWidth then c
        else layoutChar chars line column, a⟩ := by
  rw [Console.put_screen, h.cells line column hscreen, h.column, Nat.mod_eq_of_lt hc]
  split
  · rfl
  · rfl

/-- A character is put under the cursor, and nothing is scrolled. -/
private theorem Laid.putMove (h : Laid k chars a) (hc : c < 256)
    (htop : topRow (chars.length + 1) = topRow chars.length) {line column : Nat}
    (hline : line = (chars.length + 1) / rowWidth - topRow chars.length)
    (hcolumn : column = (chars.length + 1) % rowWidth) :
    Laid ((k.put k.cursorInfo.cursorLine k.cursorInfo.cursorColumn ⟨c % 256, a⟩).moveTo
      line column) (chars ++ [c]) a := by
  have hlength : (chars ++ [c]).length = chars.length + 1 := by
    rw [List.length_append, List.length_singleton]
  have hold := h.line
  constructor
  · intro l col hscreen
    rw [layoutChar_concat htop, Console.moveTo_screen, h.put hc hscreen]
    congr 1
    apply if_congr _ rfl rfl
    unfold topRow rowWidth consoleWidth consoleHeight at *
    omega
  · rw [hlength, htop]
    exact hline
  · rw [hlength]
    exact hcolumn
  · rfl
  · exact h.idle

/-- A character is put at the end of the last line. -/
private theorem Laid.putScroll (h : Laid k chars a) (hc : c < 256)
    (hwrap : chars.length % rowWidth = rowWidth - 1)
    (hlast : k.cursorInfo.cursorLine = consoleHeight - 1) :
    Laid ((k.put k.cursorInfo.cursorLine k.cursorInfo.cursorColumn ⟨c % 256, a⟩).scroll.moveTo
      k.cursorInfo.cursorLine 0) (chars ++ [c]) a := by
  have hlength : (chars ++ [c]).length = chars.length + 1 := by
    rw [List.length_append, List.length_singleton]
  have hold := h.line
  have htop : topRow (chars.length + 1) = topRow chars.length + 1 := by
    unfold topRow rowWidth consoleWidth consoleHeight at *
    omega
  constructor
  · intro l col hscreen
    rw [layoutChar_scrolls htop]
    unfold Console.scroll Console.moveTo
    dsimp only
    by_cases hup : l < consoleHeight - 1
    · rw [if_pos ⟨hscreen.2, hup⟩, h.put hc ⟨by omega, hscreen.2⟩]
      congr 1
      apply if_congr _ rfl rfl
      unfold topRow rowWidth consoleWidth consoleHeight at *
      omega
    · have heq : l = consoleHeight - 1 := by
        have hlt := hscreen.1
        omega
      rw [if_neg (fun hand => hup hand.2), if_pos ⟨hscreen.2, heq⟩, heq, if_neg]
      · rw [layoutChar_behind]
        · rfl
        · unfold topRow rowWidth consoleWidth consoleHeight at *
          omega
      · unfold topRow rowWidth consoleWidth consoleHeight at *
        omega
  · rw [hlength, htop]
    change k.cursorInfo.cursorLine = _
    unfold topRow rowWidth consoleWidth consoleHeight at *
    omega
  · rw [hlength]
    change 0 = _
    unfold rowWidth consoleWidth at *
    omega
  · rfl
  · exact h.idle

theorem Laid.print (h : Laid k chars a) (hc : c < 256) :
    Laid (k.print c a) (chars ++ [c]) a := by
  have hline := h.line
  have hcolumn := h.column
  unfold Console.print
  dsimp only
  by_cases hwrap : consoleWidth - 1 ≤ k.cursorInfo.cursorColumn + 1
  · rw [if_pos hwrap]
    split_ifs with hlast
    · apply h.putScroll hc
      · unfold rowWidth consoleWidth at *
        omega
      · have hvalid := h.valid.line
        omega
    · apply h.putMove hc
      all_goals
        unfold topRow rowWidth consoleWidth consoleHeight at *
        omega
  · rw [if_neg hwrap]
    apply h.putMove hc
    all_goals
      unfold topRow rowWidth consoleWidth consoleHeight at *
      omega

/-! ## Texts -/

theorem Laid.treat_print (h : Laid k chars a) {treat : Treat} (hc : 32 ≤ c ∧ c ≤ 126) :
    Meets (treatCharWith treat c a k) (fun k' => Laid k' (chars ++ [c]) a) fun _ => False := by
  rw [treatCharWith_print h.idle hc, printChar_eq h.valid]
  exact h.print (by omega)

theorem Laid.treat_spaces (h : Laid k chars a) {treat : Treat} (n : Nat) :
    Meets (treatSpaces (treatCharWith treat) a n k)
      (fun k' => Laid k' (chars ++ List.replicate n space) a) fun _ => False := by
  induction n generalizing k chars with
  | zero =>
      rw [List.replicate_zero, List.append_nil]
      exact h
  | succ n ih =>
      rw [treatSpaces, meets_bind]
      refine (h.treat_print (by decide)).mono (fun k₁ h₁ => ?_) fun e he => he
      refine (ih h₁).mono (fun k₂ h₂ => ?_) fun e he => he
      rwa [List.append_assoc, List.singleton_append, ← List.replicate_succ] at h₂

theorem Laid.treat_newline (h : Laid k chars a) :
    Meets (treatChar '\n'.toNat a k) (fun k' =>
      Laid k' (chars ++ List.replicate (rowWidth - chars.length % rowWidth) space) a)
      fun _ => False := by
  have hgap : consoleWidth - k.cursorInfo.cursorColumn - 1 =
      rowWidth - chars.length % rowWidth := by
    rw [h.column]
    unfold rowWidth
    omega
  unfold treatChar
  rw [treatCharWith, h.idle, ← hgap]
  exact h.treat_spaces _

/-- A character of a text: printable, or a newline. -/
def IsText (c : Nat) : Prop := c = '\n'.toNat ∨ 32 ≤ c ∧ c ≤ 126

instance (c : Nat) : Decidable (IsText c) :=
  inferInstanceAs (Decidable (c = '\n'.toNat ∨ 32 ≤ c ∧ c ≤ 126))

theorem Laid.putbytes (h : Laid k chars a) (htext : ∀ c ∈ text, IsText c) :
    Meets (consolePutbytes text k)
      (fun k' => Laid k' (chars ++ expand chars.length text) a) fun _ => False := by
  induction text generalizing k chars with
  | nil =>
      rw [expand, List.append_nil]
      exact h
  | cons c rest ih =>
      rw [List.forall_mem_cons] at htext
      have hlater : ∀ more k₁, Laid k₁ (chars ++ more) a →
          expand chars.length (c :: rest) = more ++ expand (chars.length + more.length) rest →
          Meets (consolePutbytes rest k₁)
            (fun k' => Laid k' (chars ++ expand chars.length (c :: rest)) a) fun _ => False := by
        intro more k₁ h₁ hexpand
        rw [hexpand, ← List.append_assoc, ← List.length_append]
        exact ih h₁ htext.2
      rw [consolePutbytes, meets_bind, h.last]
      by_cases hnewline : c = '\n'.toNat
      · rw [hnewline] at hlater ⊢
        refine h.treat_newline.mono (fun k₁ h₁ => hlater _ k₁ h₁ ?_) fun e he => he
        rw [expand, if_pos rfl, List.length_replicate]
      · have hc := htext.1.resolve_left hnewline
        refine (h.treat_print hc).mono (fun k₁ h₁ => hlater _ k₁ h₁ ?_) fun e he => he
        rw [expand, if_neg hnewline]
        rfl

/-! ## The form feed -/

theorem formFeed_laid (hnot : k.commandInfo.commandRequested = false) :
    Meets (treatChar 12 k.cursorInfo.last k) (fun k' => Laid k' [] k.cursorInfo.last)
      fun _ => False := by
  have hrun : treatChar 12 k.cursorInfo.last k = .ok (k.clear.moveTo 0 0) := by
    unfold treatChar
    rw [treatCharWith, hnot]
    simp only [Bool.false_eq_true, if_false]
    rw [if_neg (by decide), if_neg (by decide), if_neg (by decide), if_pos trivial,
      consoleClear_eq, ok_bind, setCursor_eq (by decide) (by decide)]
    rfl
  rw [hrun]
  constructor
  · intro line column hscreen
    have hblank : layoutChar [] line column = space := layoutChar_behind (Nat.zero_le _) column
    rw [hblank]
    exact if_pos hscreen
  · rfl
  · rfl
  · rfl
  · exact hnot

/-- The pieces of a text, written one after the other. -/
def putChunks : List (List Nat) → Console → Except ConsolePanic Console
  | [], k => .ok k
  | chunk :: rest, k => do
      let k ← consolePutbytes chunk k
      putChunks rest k

theorem putChunks_eq (chunks : List (List Nat)) (k : Console) :
    putChunks chunks k = consolePutbytes chunks.flatten k := by
  induction chunks generalizing k with
  | nil => rfl
  | cons chunk rest ih =>
      rw [List.flatten_cons, consolePutbytes_append, putChunks]
      congr 1
      funext k₁
      exact ih k₁

theorem text_laid {before : List Nat} {k₁ : Console} {chunks : List (List Nat)}
    (hbefore : consolePutbytes before k = .ok k₁)
    (hnot : k₁.commandInfo.commandRequested = false)
    (hchunks : chunks.flatten = before ++ 12 :: text) (htext : ∀ c ∈ text, IsText c) :
    ∃ k', putChunks chunks k = .ok k' ∧ Laid k' (expand 0 text) k₁.cursorInfo.last := by
  have hrun : Meets (putChunks chunks k)
      (fun k' => Laid k' (expand 0 text) k₁.cursorInfo.last) fun _ => False := by
    rw [putChunks_eq, hchunks, consolePutbytes_append, hbefore, ok_bind, consolePutbytes,
      meets_bind]
    refine (formFeed_laid hnot).mono (fun k₂ h₂ => ?_) fun e he => he
    exact h₂.putbytes htext
  cases hresult : putChunks chunks k with
  | ok k' => exact ⟨k', rfl, hrun.of_ok hresult⟩
  | error e => exact False.elim (hrun.of_error hresult)

/-- A form feed and three characters, in two calls. -/
theorem text_laid_run : ∃ k', putChunks [[12, 'a'.toNat], ['\n'.toNat, 'b'.toNat]]
      (initialConsole fun _ _ => ⟨space, ⟨.white, .black, false⟩⟩) = .ok k' ∧
    Laid k' (expand 0 ['a'.toNat, '\n'.toNat, 'b'.toNat]) ⟨.white, .black, false⟩ := by
  have hbefore : consolePutbytes [] (initialConsole fun _ _ => ⟨space, ⟨.white, .black, false⟩⟩) =
      .ok (initialConsole fun _ _ => ⟨space, ⟨.white, .black, false⟩⟩) := rfl
  exact text_laid hbefore rfl rfl (by decide)

end SchlagOS
