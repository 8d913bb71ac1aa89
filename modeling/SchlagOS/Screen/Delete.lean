import SchlagOS.Screen.Bounds

/-!
# DEL behind printed characters

A character that is printed in column 78 moves the cursor to the next line, but
DEL at the start of a line goes back to column 79, and from there, by the wrap of
its own space, to the start of the line again.  DEL undoes what was printed in all
other columns.
-/

namespace SchlagOS

open Foundation

variable {k k' : Console} {c n : Nat} {str : List Nat} {x : Nat × Nat}

/-! ## The cells that printing goes through -/

/-- The bytes that `treat_char` prints. -/
def Printable (c : Nat) : Prop := 32 ≤ c ∧ c ≤ 126 ∨ 161 ≤ c ∧ c ≤ 255

instance (c : Nat) : Decidable (Printable c) :=
  inferInstanceAs (Decidable (32 ≤ c ∧ c ≤ 126 ∨ 161 ≤ c ∧ c ≤ 255))

def Console.place (k : Console) : Nat × Nat := (k.cursorInfo.cursorLine, k.cursorInfo.cursorColumn)

/-- The cursor behind a character, when nothing is scrolled. -/
def nextPlace (x : Nat × Nat) : Nat × Nat :=
  if consoleWidth - 1 ≤ x.2 + 1 then (x.1 + 1, 0) else (x.1, x.2 + 1)

theorem nextPlace_line (x : Nat × Nat) : x.1 ≤ (nextPlace x).1 := by
  unfold nextPlace
  split
  · exact Nat.le_succ _
  · exact le_rfl

theorem nextPlace_column (x : Nat × Nat) : (nextPlace x).2 < consoleWidth - 1 := by
  unfold nextPlace
  split_ifs with hroom
  · exact Nat.zero_lt_succ 78
  · exact Nat.not_le.mp hroom

theorem iterate_line (n : Nat) (x : Nat × Nat) : x.1 ≤ (nextPlace^[n] x).1 := by
  induction n generalizing x with
  | zero => exact le_rfl
  | succ n ih => exact (nextPlace_line x).trans (ih (nextPlace x))

/-- The cells printed to before the last one are on the screen as well. -/
theorem iterate_line_le {m : Nat} (h : m ≤ n) (x : Nat × Nat) :
    (nextPlace^[m] x).1 ≤ (nextPlace^[n] x).1 := by
  obtain ⟨d, rfl⟩ := Nat.exists_eq_add_of_le' h
  rw [Function.iterate_add_apply]
  exact iterate_line d _

theorem treatCharWith_printable {treat : Treat} (hnot : k.commandInfo.commandRequested = false)
    (hc : Printable c) (a : Attributes) : treatCharWith treat c a k = printChar c a k := by
  have hne : ∀ d, d < 32 ∨ d = 127 → c ≠ d := by
    unfold Printable at hc
    omega
  have hprint : 32 ≤ c ∧ c ≤ 126 ∨ 161 ≤ c := by
    unfold Printable at hc
    omega
  unfold treatCharWith
  rw [hnot]
  simp only [Bool.false_eq_true, if_false]
  rw [if_neg (hne backspace (by decide)), if_neg (hne '\t'.toNat (by decide)),
    if_neg (hne '\n'.toNat (by decide)), if_neg (hne 12 (by decide)),
    if_neg (hne '\r'.toNat (by decide)), if_neg (hne 27 (by decide)),
    if_neg (hne deleteCode (by decide)), if_pos hprint]

/-- A console in which characters are printed. -/
structure Console.Ready (k : Console) : Prop where
  valid : k.Valid
  idle : k.commandInfo.commandRequested = false

/-- A character that does not scroll the screen. -/
theorem Console.Ready.print {treat : Treat} (h : k.Ready) (hc : Printable c)
    (hroom : (nextPlace k.place).1 < consoleHeight) :
    treatCharWith treat c k.cursorInfo.last k =
      .ok ((k.put k.place.1 k.place.2 ⟨c % 256, k.cursorInfo.last⟩).moveTo
        (nextPlace k.place).1 (nextPlace k.place).2) := by
  rw [treatCharWith_printable h.idle hc, printChar_eq h.valid]
  unfold Console.print Console.place nextPlace
  unfold Console.place nextPlace at hroom
  dsimp only at hroom ⊢
  split_ifs at hroom ⊢ with hwrap hlast
  · dsimp only at hroom
    omega
  · rfl
  · rfl

theorem Console.Ready.move (h : k.Ready) {cell : Cell} (hline : x.1 < consoleHeight)
    (hcolumn : x.2 < consoleWidth) (line column : Nat) :
    ((k.put line column cell).moveTo x.1 x.2).Ready :=
  ⟨⟨hline, hcolumn, h.valid.command⟩, h.idle⟩

/-- A string that does not scroll the screen. -/
structure Printed (k k' : Console) (n : Nat) : Prop where
  ready : k'.Ready
  place : k'.place = nextPlace^[n] k.place
  last : k'.cursorInfo.last = k.cursorInfo.last

theorem Console.Ready.printAll (h : k.Ready) (hstr : ∀ c ∈ str, Printable c)
    (hroom : (nextPlace^[str.length] k.place).1 < consoleHeight) :
    ∃ k', consolePutbytes str k = .ok k' ∧ Printed k k' str.length := by
  induction str generalizing k with
  | nil => exact ⟨k, rfl, h, rfl, rfl⟩
  | cons c rest ih =>
      rw [List.forall_mem_cons] at hstr
      rw [List.length_cons] at hroom ⊢
      have hline : (nextPlace k.place).1 < consoleHeight :=
        Nat.lt_of_le_of_lt (iterate_line rest.length (nextPlace k.place)) hroom
      have hcolumn : (nextPlace k.place).2 < consoleWidth :=
        Nat.lt_trans (nextPlace_column k.place) (by decide)
      have hready : ((k.put k.place.1 k.place.2 ⟨c % 256, k.cursorInfo.last⟩).moveTo
          (nextPlace k.place).1 (nextPlace k.place).2).Ready := h.move hline hcolumn _ _
      obtain ⟨k', hrun, hprinted⟩ := ih hready hstr.2 hroom
      refine ⟨k', ?_, hprinted.ready, hprinted.place, hprinted.last⟩
      rw [consolePutbytes, treatChar, h.print hstr.1 hline, ok_bind]
      exact hrun

/-! ## DEL -/

/-- The cell that a DEL blanks. -/
def blankPlace (x : Nat × Nat) : Nat × Nat :=
  if x.2 = 0 then (x.1 - 1, consoleWidth - 1) else (x.1, x.2 - 1)

/-- The cursor behind a DEL: the space in column 78 wraps. -/
def prevPlace (x : Nat × Nat) : Nat × Nat :=
  if x.2 = consoleWidth - 1 then (x.1 + 1, 0) else blankPlace x

theorem space_printable : Printable space := by decide

private theorem treat_backspace {treat : Treat} (h : k.Ready) (a : Attributes) :
    treatCharWith treat backspace a k = .ok (k.moveTo k.place.1 (k.place.2 - 1)) := by
  have hcolumn := h.valid.column
  unfold treatCharWith Console.place
  rw [h.idle]
  simp only [Bool.false_eq_true, if_false, if_true]
  split_ifs with hzero
  · exact setCursor_eq h.valid.line (by omega)
  · have heq : k.cursorInfo.cursorColumn - 1 = k.cursorInfo.cursorColumn := by omega
    rw [heq]
    rfl

theorem delete_eq (h : k.Ready) (horigin : k.place ≠ (0, 0))
    (hroom : (prevPlace k.place).1 < consoleHeight) :
    treatChar deleteCode k.cursorInfo.last k =
      .ok ((k.put (blankPlace k.place).1 (blankPlace k.place).2 ⟨space, k.cursorInfo.last⟩).moveTo
        (prevPlace k.place).1 (prevPlace k.place).2) := by
  have hline := h.valid.line
  have hcolumn := h.valid.column
  have hdelete : treatChar deleteCode k.cursorInfo.last k =
      deleteLastChar (treatCharWith fun _ _ _ => .error .recursion) k := by
    unfold treatChar
    rw [treatCharWith, h.idle]
    rfl
  have hthen : ∀ line column, line < consoleHeight → column < consoleWidth →
      (nextPlace (line, column)).1 < consoleHeight →
      treatCharWith (fun _ _ _ => .error .recursion) space
        (k.moveTo line column).cursorInfo.last (k.moveTo line column) =
          .ok ((k.put line column ⟨space, k.cursorInfo.last⟩).moveTo
            (nextPlace (line, column)).1 (nextPlace (line, column)).2) := by
    intro line column hl hcol hnext
    have hready : (k.moveTo line column).Ready := ⟨h.valid.moveTo hl hcol, h.idle⟩
    exact hready.print space_printable hnext
  rw [hdelete]
  unfold deleteLastChar
  by_cases hzero : k.cursorInfo.cursorColumn = 0
  · have hpos : k.cursorInfo.cursorLine ≠ 0 := by
      intro hfirst
      apply horigin
      unfold Console.place
      rw [hzero, hfirst]
    have hnext : nextPlace (k.cursorInfo.cursorLine - 1, consoleWidth - 1) =
        (k.cursorInfo.cursorLine, 0) := by
      unfold nextPlace
      dsimp only
      rw [if_pos (Nat.le_succ _), Nat.sub_add_cancel (Nat.pos_of_ne_zero hpos)]
    have hback : blankPlace k.place = (k.cursorInfo.cursorLine - 1, consoleWidth - 1) :=
      if_pos hzero
    have hprev : prevPlace k.place = blankPlace k.place := by
      have hne : k.cursorInfo.cursorColumn ≠ consoleWidth - 1 := by
        rw [hzero]
        decide
      exact if_neg hne
    have hpred : uint32Pred k.cursorInfo.cursorLine = k.cursorInfo.cursorLine - 1 := if_neg hpos
    rw [if_pos hzero, if_pos hpos, setCursor_eq (by omega) (by decide), ok_bind,
      hthen _ _ (by omega) (by decide) (by rw [hnext]; exact hline), ok_bind, hprev, hback, hnext,
      Console.moveTo_cursorLine, hpred, setCursor_eq (by omega) (by decide)]
    rfl
  · have hback : blankPlace k.place = (k.cursorInfo.cursorLine, k.cursorInfo.cursorColumn - 1) :=
      if_neg hzero
    have hnext : (nextPlace (k.cursorInfo.cursorLine, k.cursorInfo.cursorColumn - 1)).1 =
          (prevPlace k.place).1 ∧
        (nextPlace (k.cursorInfo.cursorLine, k.cursorInfo.cursorColumn - 1)).2 - 1 =
          (prevPlace k.place).2 := by
      unfold nextPlace prevPlace
      rw [hback]
      unfold Console.place
      dsimp only
      by_cases hlast : k.cursorInfo.cursorColumn = consoleWidth - 1
      · rw [if_pos hlast, if_pos (by omega)]
        exact ⟨rfl, rfl⟩
      · rw [if_neg hlast, if_neg (by omega)]
        exact ⟨rfl, by dsimp only; omega⟩
    obtain ⟨hnextLine, hnextColumn⟩ := hnext
    have hready : ((k.put k.cursorInfo.cursorLine (k.cursorInfo.cursorColumn - 1)
        ⟨space, k.cursorInfo.last⟩).moveTo
          (nextPlace (k.cursorInfo.cursorLine, k.cursorInfo.cursorColumn - 1)).1
          (nextPlace (k.cursorInfo.cursorLine, k.cursorInfo.cursorColumn - 1)).2).Ready :=
      h.move (by rw [hnextLine]; exact hroom)
        (Nat.lt_trans (nextPlace_column _) (Nat.lt_succ_self _)) _ _
    have hspace := hthen k.cursorInfo.cursorLine (k.cursorInfo.cursorColumn - 1) hline (by omega)
      (by rw [hnextLine]; exact hroom)
    have hstart : treatCharWith (fun _ _ _ => .error .recursion) backspace k.cursorInfo.last k =
        .ok (k.moveTo k.cursorInfo.cursorLine (k.cursorInfo.cursorColumn - 1)) :=
      treat_backspace h _
    rw [if_neg hzero, hstart, ok_bind, hspace, ok_bind, treat_backspace hready, hback,
      ← hnextLine, ← hnextColumn]
    rfl

/-! ## What DEL undoes -/

theorem prevPlace_next (hcolumn : x.2 ≠ consoleWidth - 2) (hwidth : x.2 < consoleWidth) :
    blankPlace (nextPlace x) = x ∧ prevPlace (nextPlace x) = x := by
  obtain ⟨line, column⟩ := x
  dsimp only at hcolumn hwidth
  unfold prevPlace blankPlace nextPlace
  dsimp only
  by_cases hwrap : consoleWidth - 1 ≤ column + 1
  · rw [if_pos hwrap]
    have hlast : consoleWidth - 1 = column := by omega
    have hzero : (0 : Nat) ≠ consoleWidth - 1 := by decide
    dsimp only
    rw [if_pos rfl, if_neg hzero, Nat.add_sub_cancel, hlast]
    exact ⟨rfl, rfl⟩
  · rw [if_neg hwrap, if_neg (by dsimp only; omega), if_neg (by dsimp only; omega)]
    exact ⟨rfl, rfl⟩

theorem nextPlace_ne (x : Nat × Nat) : nextPlace x ≠ (0, 0) := by
  unfold nextPlace
  split
  · simp
  · simp

/-- What a string and as many DELs leave. -/
structure Back (k k' : Console) (n : Nat) : Prop where
  ready : k'.Ready
  place : k'.place = k.place
  last : k'.cursorInfo.last = k.cursorInfo.last
  blank : ∀ i < n, k'.screen (nextPlace^[i] k.place).1 (nextPlace^[i] k.place).2 =
    ⟨space, k.cursorInfo.last⟩

theorem Console.Ready.undo (h : k.Ready) (hstr : ∀ c ∈ str, Printable c)
    (hroom : (nextPlace^[str.length] k.place).1 < consoleHeight)
    (hcolumns : ∀ i < str.length, (nextPlace^[i] k.place).2 ≠ consoleWidth - 2) :
    ∃ k₁ k₂, consolePutbytes str k = .ok k₁ ∧
      consolePutbytes (List.replicate str.length deleteCode) k₁ = .ok k₂ ∧
      Back k k₂ str.length := by
  induction str generalizing k with
  | nil => exact ⟨k, k, rfl, rfl, h, rfl, rfl, fun i hi => absurd hi (Nat.not_lt_zero i)⟩
  | cons c rest ih =>
      rw [List.forall_mem_cons] at hstr
      rw [List.length_cons] at hroom hcolumns ⊢
      have hline : (nextPlace k.place).1 < consoleHeight :=
        Nat.lt_of_le_of_lt (iterate_line rest.length (nextPlace k.place)) hroom
      have hcolumn : (nextPlace k.place).2 < consoleWidth :=
        Nat.lt_trans (nextPlace_column k.place) (by decide)
      set k₀ := (k.put k.place.1 k.place.2 ⟨c % 256, k.cursorInfo.last⟩).moveTo
        (nextPlace k.place).1 (nextPlace k.place).2 with hk₀
      have hready : k₀.Ready := h.move hline hcolumn _ _
      have hplace : k₀.place = nextPlace k.place := rfl
      obtain ⟨k₁, k₂, hrun, hdeletes, hback⟩ := ih hready hstr.2 hroom
        fun i hi => hcolumns (i + 1) (by omega)
      have hprev := prevPlace_next (x := k.place) (hcolumns 0 (by omega)) h.valid.column
      have hplace₂ : k₂.place = nextPlace k.place := hback.place
      have hdelete := delete_eq hback.ready (by rw [hplace₂]; exact nextPlace_ne _)
        (by rw [hplace₂, hprev.2]; exact h.valid.line)
      have hlast₂ : k₂.cursorInfo.last = k.cursorInfo.last := hback.last
      rw [hplace₂, hprev.1, hprev.2, hlast₂] at hdelete
      refine ⟨k₁, (k₂.put k.place.1 k.place.2 ⟨space, k.cursorInfo.last⟩).moveTo k.place.1
        k.place.2, ?_, ?_, ?_⟩
      · rw [consolePutbytes, treatChar, h.print hstr.1 hline, ok_bind]
        exact hrun
      · rw [List.replicate_succ', consolePutbytes_append, hdeletes, ok_bind, consolePutbytes,
          hlast₂, hdelete, ok_bind]
        rfl
      · refine ⟨hback.ready.move h.valid.line h.valid.column _ _, rfl, rfl, fun i hi => ?_⟩
        rw [Console.moveTo_screen, Console.put_screen]
        split_ifs with hother
        · rfl
        · cases i with
          | zero => exact absurd ⟨rfl, rfl⟩ hother
          | succ i => exact hback.blank i (by omega)

/-! ## What DEL does not undo -/

/-- The start of a line behind a wrap, and what DEL reaches from there. -/
def Past (m : Nat) (x : Nat × Nat) : Prop :=
  x.1 = m ∧ x.2 < consoleWidth - 1 ∨ x.1 + 1 = m ∧ x.2 = consoleWidth - 1

theorem Past.prev {m : Nat} (h : Past m x) (hm : 0 < m) : Past m (prevPlace x) := by
  obtain ⟨line, column⟩ := x
  unfold Past prevPlace blankPlace consoleWidth at *
  dsimp only at *
  rcases h with ⟨hline, hcolumn⟩ | ⟨hline, hcolumn⟩
  · rw [if_neg (by omega)]
    split
    · exact .inr ⟨by dsimp only; omega, rfl⟩
    · exact .inl ⟨hline, by dsimp only; omega⟩
  · rw [if_pos hcolumn]
    exact .inl ⟨hline, by dsimp only; omega⟩

theorem Console.Ready.deletes {m : Nat} (h : k.Ready) (hpast : Past m k.place) (hm : 0 < m)
    (hroom : m < consoleHeight) (n : Nat) :
    Meets (consolePutbytes (List.replicate n deleteCode) k) (fun k' => Past m k'.place)
      fun _ => False := by
  induction n generalizing k with
  | zero => exact hpast
  | succ n ih =>
      have hprev := hpast.prev hm
      have horigin : k.place ≠ (0, 0) := by
        intro heq
        rw [heq] at hpast
        unfold Past consoleWidth at hpast
        omega
      have hline : (prevPlace k.place).1 < consoleHeight := by
        unfold Past at hprev
        omega
      have hcolumn : (prevPlace k.place).2 < consoleWidth := by
        unfold Past consoleWidth at *
        omega
      rw [List.replicate_succ, consolePutbytes, delete_eq h horigin hline, ok_bind]
      exact ih (h.move hline hcolumn _ _) hprev

theorem iterate_column (hn : 0 < n) (x : Nat × Nat) :
    (nextPlace^[n] x).2 < consoleWidth - 1 := by
  obtain ⟨m, rfl⟩ := Nat.exists_eq_add_of_lt hn
  rw [Nat.zero_add, Function.iterate_succ_apply']
  exact nextPlace_column _

/-- A character in column 78 moves on to the next line. -/
theorem iterate_wraps {i : Nat} (hi : i < n) (hwrap : (nextPlace^[i] x).2 = consoleWidth - 2) :
    x.1 + 1 ≤ (nextPlace^[n] x).1 := by
  have hnext : (nextPlace^[i + 1] x).1 = (nextPlace^[i] x).1 + 1 := by
    rw [Function.iterate_succ_apply']
    unfold nextPlace at hwrap ⊢
    rw [if_pos (by rw [hwrap]; decide)]
  calc x.1 + 1 ≤ (nextPlace^[i] x).1 + 1 := Nat.succ_le_succ (iterate_line i x)
    _ = (nextPlace^[i + 1] x).1 := hnext.symm
    _ ≤ (nextPlace^[n] x).1 := iterate_line_le hi x

/-- Behind a start in the last column it is the second line. -/
theorem iterate_wraps_last {i : Nat} (hi : i < n)
    (hwrap : (nextPlace^[i] x).2 = consoleWidth - 2) (hlast : x.2 = consoleWidth - 1) :
    x.1 + 2 ≤ (nextPlace^[n] x).1 := by
  have hfirst : nextPlace x = (x.1 + 1, 0) := if_pos (by rw [hlast]; exact Nat.le_succ _)
  cases i with
  | zero =>
      rw [Function.iterate_zero, id_eq, hlast] at hwrap
      cases hwrap
  | succ i =>
      obtain ⟨m, rfl⟩ := Nat.exists_eq_add_of_lt (Nat.lt_of_le_of_lt (Nat.zero_le _) hi)
      rw [Nat.zero_add, Function.iterate_succ_apply] at *
      have hlater := iterate_wraps (n := m) (by omega) hwrap
      rw [hfirst] at hlater ⊢
      exact hlater

/-! ## The law -/

/-- The string and as many DELs bring the cursor back and leave blanks. -/
def Undone (k : Console) (str : List Nat) : Prop :=
  ∃ k₁ k₂, consolePutbytes str k = .ok k₁ ∧
    consolePutbytes (List.replicate str.length deleteCode) k₁ = .ok k₂ ∧
    k₂.place = k.place ∧
    ∀ i < str.length, ∀ kᵢ, consolePutbytes (str.take i) k = .ok kᵢ →
      (k₂.screen kᵢ.place.1 kᵢ.place.2).char = space

theorem undone_iff (h : Shown k) (hnot : k.commandInfo.commandRequested = false)
    (hstr : ∀ c ∈ str, Printable c)
    (hroom : (nextPlace^[str.length] k.place).1 < consoleHeight) :
    Undone k str ↔ ∀ i < str.length, (nextPlace^[i] k.place).2 ≠ consoleWidth - 2 := by
  have hready : k.Ready := ⟨h.valid, hnot⟩
  constructor
  · rintro ⟨k₁, k₂, hrun, hdeletes, hplace, -⟩ i hi hwrap
    obtain ⟨k', hrun', hprinted⟩ := hready.printAll hstr hroom
    rw [hrun', Except.ok.injEq] at hrun
    subst hrun
    set m := (nextPlace^[str.length] k.place).1 with hm
    have hline := iterate_wraps hi hwrap
    have hlast : (nextPlace^[str.length] k.place).2 < consoleWidth - 1 :=
      iterate_column (by omega) k.place
    have hpast : Past m k'.place := by
      rw [hprinted.place]
      exact .inl ⟨rfl, hlast⟩
    have hdeleted := (hprinted.ready.deletes hpast (by omega) hroom str.length).of_ok hdeletes
    rw [hplace] at hdeleted
    rcases hdeleted with ⟨hfirst, -⟩ | ⟨hfirst, hcolumn⟩
    · omega
    · have htwo := iterate_wraps_last hi hwrap hcolumn
      omega
  · intro hcolumns
    obtain ⟨k₁, k₂, hrun, hdeletes, hback⟩ := hready.undo hstr hroom hcolumns
    refine ⟨k₁, k₂, hrun, hdeletes, hback.place, fun i hi kᵢ hprefix => ?_⟩
    have hroomᵢ : (nextPlace^[(str.take i).length] k.place).1 < consoleHeight :=
      Nat.lt_of_le_of_lt (iterate_line_le (List.length_take_le' i str) k.place) hroom
    obtain ⟨k', hrun', hprinted⟩ := hready.printAll
      (fun c hc => hstr c (List.mem_of_mem_take hc)) hroomᵢ
    rw [hrun', Except.ok.injEq] at hprefix
    subst hprefix
    have hlength : (str.take i).length = i := List.length_take_of_le (Nat.le_of_lt hi)
    rw [hprinted.place, hlength, hback.blank i hi]

/-- Two characters at the start of the screen. -/
theorem undone_run : Undone (initialConsole fun _ _ => ⟨space, ⟨.white, .black, false⟩⟩)
    ['a'.toNat, 'b'.toNat] := by
  have hstart : Shown (initialConsole fun _ _ => ⟨space, ⟨.white, .black, false⟩⟩) :=
    ⟨_, .start⟩
  exact (undone_iff hstart rfl (by decide) (by decide)).mpr (by decide)

/-- The character in column 78 of the first line is not undone. -/
theorem not_undone : ∃ k, Shown k ∧ k.commandInfo.commandRequested = false ∧
    (nextPlace k.place).1 < consoleHeight ∧ ¬Undone k ['a'.toNat] := by
  set start := initialConsole fun _ _ => ⟨space, ⟨.white, .black, false⟩⟩ with hstart
  have hshown : Shown start := ⟨_, .start⟩
  have htest : ((consolePutbytes (List.replicate 78 'a'.toNat) start).toOption.any fun k =>
      decide (k.place = (0, 78) ∧ k.commandInfo.commandRequested = false)) = true := by
    decide +kernel
  have hback : ((consolePutbytes (List.replicate 78 'a'.toNat ++ ['a'.toNat, deleteCode])
      start).toOption.any fun k => decide (k.place = (0, 79))) = true := by
    decide +kernel
  cases hrun : consolePutbytes (List.replicate 78 'a'.toNat) start with
  | error e =>
      rw [hrun] at htest
      cases htest
  | ok k =>
      rw [hrun] at htest
      obtain ⟨hplace, hnot⟩ := of_decide_eq_true htest
      refine ⟨k, hshown.putbytes hrun, hnot, by rw [hplace]; decide, ?_⟩
      rintro ⟨k₁, k₂, hprint, hdelete, hplace₂, -⟩
      have hboth : consolePutbytes ['a'.toNat, deleteCode] k = .ok k₂ := by
        have happend := consolePutbytes_append ['a'.toNat] [deleteCode] k
        rw [hprint, ok_bind] at happend
        exact happend.trans hdelete
      rw [consolePutbytes_append, hrun, ok_bind, hboth] at hback
      have hlast : k₂.place = (0, 79) := of_decide_eq_true hback
      rw [hplace₂, hplace] at hlast
      cases hlast

end SchlagOS
