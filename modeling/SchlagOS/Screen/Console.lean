import SchlagOS.Foundation.Machine
import SchlagOS.Kernel.State

/-!
# The console

console.c: the screen, the cursor and the escape commands.  A cell is the
16-bit value of the video memory cut into its fields.  The hardware cursor is
left out: `set_cursor` moves it together with `cursor_info`.  The three values
that the source passes around for the look of a character are one record.

`treat_char` calls itself on a space or a backspace, for which it calls itself
no further, so two levels of it are enough.
-/

namespace SchlagOS

open Foundation

def consoleWidth : Nat := 80

def consoleHeight : Nat := 25

def tabulationSize : Nat := 8

inductive ForegroundColor where
  | black
  | darkBlue
  | darkGreen
  | cyan
  | darkRed
  | purple
  | brown
  | gray
  | darkGray
  | blue
  | green
  | aqua
  | red
  | pink
  | yellow
  | white
  deriving DecidableEq, Repr

inductive BackgroundColor where
  | black
  | darkBlue
  | darkGreen
  | cyan
  | darkRed
  | purple
  | brown
  | gray
  deriving DecidableEq, Repr

structure Attributes where
  foregroundColor : ForegroundColor
  backgroundColor : BackgroundColor
  blink : Bool
  deriving DecidableEq, Repr

structure Cell where
  char : Nat
  attributes : Attributes
  deriving DecidableEq, Repr

structure CommandInfo where
  commandRequested : Bool
  paramsFilled : Nat
  commandParams : Nat × Nat
  deriving DecidableEq, Repr

def emptyCommandInfo : CommandInfo where
  commandRequested := false
  paramsFilled := 0
  commandParams := (0, 0)

structure CursorInfo where
  cursorLine : Nat
  cursorColumn : Nat
  last : Attributes
  deriving DecidableEq, Repr

structure Console where
  screen : Nat → Nat → Cell
  cursorInfo : CursorInfo
  commandInfo : CommandInfo

/-- The console before the first character; the screen shows what the firmware left. -/
def initialConsole (screen : Nat → Nat → Cell) : Console where
  screen := screen
  cursorInfo := { cursorLine := 0, cursorColumn := 0, last := ⟨.white, .black, false⟩ }
  commandInfo := emptyCommandInfo

/-- The assertions of console.c; `recursion` stands for a third level of `treat_char`. -/
inductive ConsolePanic where
  | writeChar
  | setCursor
  | commandParams
  | recursion
  deriving DecidableEq, Repr

namespace Console

def withLast (k : Console) (last : Attributes) : Console :=
  { k with cursorInfo := { k.cursorInfo with last := last } }

end Console

def space : Nat := ' '.toNat

def backspace : Nat := 8

def deleteCode : Nat := 127

/-- `c` is one of the characters. -/
def among (c : Nat) (chars : List Char) : Bool := chars.any fun x => x.toNat = c

/-! ## Cells and cursor -/

def writeChar (line column c : Nat) (attributes : Attributes) (k : Console) :
    Except ConsolePanic Console := do
  require (line < consoleHeight) .writeChar
  require (column < consoleWidth) .writeChar
  let row := Function.update (k.screen line) column ⟨c % 256, attributes⟩
  return { k with screen := Function.update k.screen line row }.withLast attributes

def setCursor (line column : Nat) (k : Console) : Except ConsolePanic Console := do
  require (line < consoleHeight) .setCursor
  require (column < consoleWidth) .setCursor
  return { k with
    cursorInfo := { k.cursorInfo with cursorLine := line, cursorColumn := column } }

/-- Write spaces to the first `n` columns of a line. -/
def blankColumns (line : Nat) (attributes : Attributes) : Nat → Console →
    Except ConsolePanic Console
  | 0, k => .ok k
  | n + 1, k => do
      let k ← blankColumns line attributes n k
      writeChar line n space attributes k

/-- Write spaces to the first `n` lines of a column. -/
def blankLines (column : Nat) (attributes : Attributes) : Nat → Console →
    Except ConsolePanic Console
  | 0, k => .ok k
  | n + 1, k => do
      let k ← blankLines column attributes n k
      writeChar n column space attributes k

/-- The outer loop of `console_clear`, over the first `n` columns. -/
def clearColumns (attributes : Attributes) : Nat → Console → Except ConsolePanic Console
  | 0, k => .ok k
  | n + 1, k => do
      let k ← clearColumns attributes n k
      blankLines n attributes consoleHeight k

def consoleClear (k : Console) : Except ConsolePanic Console :=
  clearColumns k.cursorInfo.last consoleWidth k

/-- Move each of the lines 1 to `n` one line up. -/
def moveLines : Nat → (Nat → Nat → Cell) → Nat → Nat → Cell
  | 0, screen => screen
  | n + 1, screen =>
      let screen := moveLines n screen
      Function.update screen n fun column =>
        if column < consoleWidth then screen (n + 1) column else screen n column

def upShiftConsole (k : Console) : Except ConsolePanic Console :=
  let k := { k with screen := moveLines (consoleHeight - 1) k.screen }
  blankColumns (consoleHeight - 1) k.cursorInfo.last consoleWidth k

/-! ## Escape commands -/

def backgroundOf (c : Nat) : Option BackgroundColor :=
  if among c ['0', '8'] then some .black
  else if among c ['1', '9'] then some .darkBlue
  else if among c ['2', 'A', 'a'] then some .darkGreen
  else if among c ['3', 'B', 'b'] then some .cyan
  else if among c ['4', 'C', 'c'] then some .darkRed
  else if among c ['5', 'D', 'd'] then some .purple
  else if among c ['6', 'E', 'e'] then some .brown
  else if among c ['7', 'F', 'f'] then some .gray
  else none

def foregroundOf (c : Nat) : Option ForegroundColor :=
  if among c ['0'] then some .black
  else if among c ['1'] then some .darkBlue
  else if among c ['2'] then some .darkGreen
  else if among c ['3'] then some .cyan
  else if among c ['4'] then some .darkRed
  else if among c ['5'] then some .purple
  else if among c ['6'] then some .brown
  else if among c ['7'] then some .gray
  else if among c ['8'] then some .darkGray
  else if among c ['9'] then some .blue
  else if among c ['A'] then some .green
  else if among c ['B'] then some .aqua
  else if among c ['C'] then some .red
  else if among c ['D'] then some .pink
  else if among c ['E'] then some .yellow
  else if among c ['F'] then some .white
  else none

/-- The first byte of a command. -/
def commandName (c : Nat) (k : Console) : Console :=
  if among c ['B', 'b', 'F', 'f'] then
    { k with commandInfo := { k.commandInfo with
      commandParams := (c, k.commandInfo.commandParams.2)
      paramsFilled := 1 } }
  else if among c ['D', 'd'] then
    { k with commandInfo := emptyCommandInfo }.withLast ⟨.white, .black, false⟩
  else { k with commandInfo := emptyCommandInfo }

/-- The colour behind the first byte. -/
def commandColor (c : Nat) (k : Console) : Except ConsolePanic Console :=
  let last := k.cursorInfo.last
  let done : Console := { k with commandInfo := emptyCommandInfo }
  if among k.commandInfo.commandParams.1 ['B', 'b'] then
    .ok (done.withLast { last with
      backgroundColor := (backgroundOf c).getD last.backgroundColor
      blink := decide ('7'.toNat < c) })
  else if among k.commandInfo.commandParams.1 ['F', 'f'] then
    .ok (done.withLast { last with
      foregroundColor := (foregroundOf c).getD last.foregroundColor })
  else .error .commandParams

/-- `treat_char` while a command is requested. -/
def treatCommand (c : Nat) (k : Console) : Except ConsolePanic Console :=
  match k.commandInfo.paramsFilled with
  | 0 => .ok (commandName c k)
  | 1 => commandColor c k
  | _ => .ok { k with commandInfo := emptyCommandInfo }

/-! ## Characters -/

/-- The printable branch of `treat_char`. -/
def printChar (c : Nat) (attributes : Attributes) (k : Console) :
    Except ConsolePanic Console := do
  let line := k.cursorInfo.cursorLine
  let column := k.cursorInfo.cursorColumn
  let k ← writeChar line column c attributes k
  if consoleWidth - 1 ≤ column + 1 then
    if consoleHeight - 1 ≤ line then
      let k ← upShiftConsole k
      setCursor line 0 k
    else setCursor (line + 1) 0 k
  else setCursor line (column + 1) k

/-- A call of `treat_char`. -/
abbrev Treat := Nat → Attributes → Console → Except ConsolePanic Console

/-- The loops of the tabulation and of the newline. -/
def treatSpaces (treat : Treat) (attributes : Attributes) : Nat → Console →
    Except ConsolePanic Console
  | 0, k => .ok k
  | n + 1, k => do
      let k ← treat space attributes k
      treatSpaces treat attributes n k

def deleteLastChar (treat : Treat) (k : Console) : Except ConsolePanic Console :=
  if k.cursorInfo.cursorColumn = 0 then
    if k.cursorInfo.cursorLine ≠ 0 then do
      let k ← setCursor (k.cursorInfo.cursorLine - 1) (consoleWidth - 1) k
      let k ← treat space k.cursorInfo.last k
      setCursor (uint32Pred k.cursorInfo.cursorLine) (consoleWidth - 1) k
    else .ok k
  else do
    let k ← treat backspace k.cursorInfo.last k
    let k ← treat space k.cursorInfo.last k
    treat backspace k.cursorInfo.last k

def treatCharWith (treat : Treat) : Treat := fun c attributes k =>
  if k.commandInfo.commandRequested then treatCommand c k
  else if c = backspace then
    if 0 < k.cursorInfo.cursorColumn then
      setCursor k.cursorInfo.cursorLine (k.cursorInfo.cursorColumn - 1) k
    else .ok k
  else if c = '\t'.toNat then
    treatSpaces treat attributes
      (tabulationSize - k.cursorInfo.cursorColumn % tabulationSize) k
  else if c = '\n'.toNat then
    treatSpaces treat attributes (consoleWidth - k.cursorInfo.cursorColumn - 1) k
  else if c = 12 then do
    let k ← consoleClear (k.withLast attributes)
    setCursor 0 0 k
  else if c = '\r'.toNat then setCursor k.cursorInfo.cursorLine 0 k
  else if c = 27 then
    .ok { k with commandInfo := { emptyCommandInfo with commandRequested := true } }
  else if c = deleteCode then deleteLastChar treat k
  else if 32 ≤ c ∧ c ≤ 126 ∨ 161 ≤ c then printChar c attributes k
  else .ok k

def treatChar : Treat := treatCharWith (treatCharWith fun _ _ _ => .error .recursion)

def consolePutbytes : List Nat → Console → Except ConsolePanic Console
  | [], k => .ok k
  | c :: rest, k => do
      let k ← treatChar c k.cursorInfo.last k
      consolePutbytes rest k

def strlen (str : List Nat) : Nat := (str.takeWhile fun c => c ≠ 0).length

def printTopRight (str : List Nat) (k : Console) : Except ConsolePanic Console := do
  let previous := k.cursorInfo
  let len := strlen str
  let k ← setCursor 0 ((consoleWidth + 2 ^ 32 - (len + 1)) % 2 ^ 32) k
  let k ← consolePutbytes (str.take len) k
  setCursor previous.cursorLine previous.cursorColumn k

/-! ## Runs -/

/-- What reaches the console: bytes of the kernel and of the processes, and the clock. -/
inductive Display where
  | putbytes (str : List Nat)
  | clock (str : List Nat)
  deriving DecidableEq, Repr

/-- The text of the clock: eight digits and colons. -/
def ClockText (str : List Nat) : Prop :=
  str.length = 8 ∧ ∀ c ∈ str, '0'.toNat ≤ c ∧ c ≤ ':'.toNat

def consoleMachine : Machine Console Display ConsolePanic where
  enabled := fun _ display =>
    match display with
    | .putbytes _ => True
    | .clock str => ClockText str
  step := fun display k =>
    match display with
    | .putbytes str => consolePutbytes str k
    | .clock str => printTopRight str k

/-- `k` is reached from the initial console. -/
def Displayed (k : Console) : Prop :=
  ∃ screen, Reach consoleMachine (initialConsole screen) (fun _ _ => True) k

end SchlagOS
