import SchlagOS.Foundation.Machine
import SchlagOS.Keyboard.Keymaps
import Mathlib.Logic.Function.Basic

/-!
# The keyboard driver

From the scancodes of the keyboard interrupt to the strings that are handed to
`keyboard_data`.  There is one console, and its terminal always exists; the
glue code ignores requests to switch or scroll it.  An access outside a table
is an error that names the table.
-/

namespace SchlagOS.Keyboard

open Foundation

inductive KbdMode where
  | xlate
  | mediumraw
  | raw
  | unicode
  deriving DecidableEq, Repr

structure KbdStruct where
  lockstate : Nat
  slockstate : Nat
  ledflagstate : Nat
  kbdmode : KbdMode
  modeflags : Nat
  deriving DecidableEq, Repr

inductive Table where
  | highKeys
  | e0Keys
  | keyMaps
  | keyMap
  | kDown
  | specFnTable
  | funcTable
  | padChars
  | appMap
  | curChars
  | retDiacr
  deriving DecidableEq, Repr

structure Driver where
  init : Bool
  prevScancode : Nat
  highKeys : List Nat
  e0Keys : List Nat
  kDown : Nat → Nat
  keyDown : Nat → Bool
  deadKeyNext : Bool
  shiftState : Nat
  npadch : Int
  diacr : Nat
  rep : Bool
  kbd : KbdStruct
  ledstate : Nat
  stopped : Bool
  /-- What was written to the keyboard, and the strings for `keyboard_data`. -/
  leds : List Nat
  sent : List (List Int)

def vcNumlock : Nat := 1

def vcCapslock : Nat := 2

def vcApplic : Nat := 0

def vcCkmode : Nat := 1

def vcRepeat : Nat := 2

def vcCrlf : Nat := 3

def vcMeta : Nat := 4

def vcKbdMode (kbd : KbdStruct) (flag : Nat) : Bool := kbd.modeflags.testBit flag

def vcKbdLed (kbd : KbdStruct) (flag : Nat) : Bool := kbd.ledflagstate.testBit flag

/-- A bit of a 32-bit number is cleared. -/
def clearBit (n flag : Nat) : Nat := n &&& (0xffffffff ^^^ 1 <<< flag)

def setVcKbdLed (kbd : KbdStruct) (flag : Nat) : KbdStruct :=
  { kbd with ledflagstate := (kbd.ledflagstate ||| 1 <<< flag) % 8 }

def clrVcKbdLed (kbd : KbdStruct) (flag : Nat) : KbdStruct :=
  { kbd with ledflagstate := clearBit kbd.ledflagstate flag }

def chgVcKbdLed (kbd : KbdStruct) (flag : Nat) : KbdStruct :=
  { kbd with ledflagstate := (kbd.ledflagstate ^^^ 1 <<< flag) % 8 }

def chgVcKbdLock (kbd : KbdStruct) (flag : Nat) : KbdStruct :=
  { kbd with lockstate := (kbd.lockstate ^^^ 1 <<< flag) % 256 }

def chgVcKbdSlock (kbd : KbdStruct) (flag : Nat) : KbdStruct :=
  { kbd with slockstate := (kbd.slockstate ^^^ 1 <<< flag) % 256 }

/-! ## Scancodes -/

def scLim : Nat := 89

def defaultHighKeys : List Nat := [
  124, 125, 126, 127, 0, 0, 0,
  0, 0, 0, 0, 0, 0, 0, 0,
  0, 0, 0, 0, 0, 122, 0, 123,
  0, 0, 0, 89, 120, 0, 0, 90,
  91, 92, 93, 94,
  95, 124, 121, 0]

def defaultE0Keys : List Nat := [
  0, 0, 0, 0, 0, 0, 0, 0,
  0, 0, 0, 0, 0, 0, 0, 0,
  0, 0, 0, 0, 0, 0, 0, 0,
  0, 0, 0, 0, 96, 97, 0, 0,
  0, 0, 0, 0, 0, 0, 0, 0,
  0, 0, 0, 0, 0, 0, 0, 0,
  0, 0, 0, 0, 0, 98, 0, 99,
  100, 0, 0, 0, 0, 113, 114, 115,
  116, 117, 0, 0, 0, 0, 101, 102,
  103, 104, 0, 105, 124, 106, 118, 107,
  108, 109, 110, 111, 0, 0, 0, 0,
  0, 0, 0, 125, 126, 127, 0, 0,
  0, 0, 0, 0, 0, 0, 0, 0,
  0, 0, 0, 0, 0, 0, 0, 112,
  0, 0, 0, 0, 0, 0, 0, 0,
  0, 0, 0, 0, 0, 0, 0, 0]

def e1Pause : Nat := 119

/-- The key that a scancode completes, if it does. -/
def kbdTranslate (scancode : Nat) (k : Driver) : Except Table (Driver × Option Nat) :=
  if scancode = 0xe0 ∨ scancode = 0xe1 then .ok ({ k with prevScancode := scancode }, none)
  else if scancode = 0 ∨ scancode = 0xff then .ok ({ k with prevScancode := 0 }, none)
  else
    let scancode := scancode % 128
    if k.prevScancode ≠ 0 then
      if k.prevScancode ≠ 0xe0 then
        if k.prevScancode = 0xe1 ∧ scancode = 0x1d then
          .ok ({ k with prevScancode := 0x100 }, none)
        else if k.prevScancode = 0x100 ∧ scancode = 0x45 then
          .ok ({ k with prevScancode := 0 }, some e1Pause)
        else .ok ({ k with prevScancode := 0 }, none)
      -- The keyboard's own shift codes around an escaped key.
      else if scancode = 0x2a ∨ scancode = 0x36 then .ok ({ k with prevScancode := 0 }, none)
      else do
        let keycode ← demand k.e0Keys[scancode]? .e0Keys
        return ({ k with prevScancode := 0 }, if keycode ≠ 0 then some keycode else none)
    else if scLim ≤ scancode then do
      let keycode ← demand k.highKeys[scancode - scLim]? .highKeys
      return (k, if keycode ≠ 0 then some keycode else none)
    else .ok (k, some scancode)

/-- Whether a release of a key that is not down stays a release. -/
def kbdUnexpectedUp (keycode : Nat) : Bool := ¬(scLim ≤ keycode ∨ keycode = 85)

/-! ## Output -/

/-- A `char` of the value of a byte. -/
def signedChar (byte : Nat) : Int :=
  if byte % 256 < 128 then (byte % 256 : Nat) else (byte % 256 : Nat) - 256

/-- The characters in front of the terminating 0. -/
def cString (bytes : List Nat) : List Int :=
  (bytes.takeWhile fun byte => byte % 256 ≠ 0).map signedChar

def putQueue (k : Driver) (ch : Nat) : Driver := { k with sent := k.sent ++ [cString [ch]] }

def putsQueue (k : Driver) (cp : List Nat) : Driver := { k with sent := k.sent ++ [cString cp] }

def toUtf8 (k : Driver) (c : Nat) : Driver :=
  if c < 0x80 then putQueue k c
  else if c < 0x800 then
    putQueue (putQueue k (0xc0 ||| c >>> 6)) (0x80 ||| (c &&& 0x3f))
  else
    putQueue (putQueue (putQueue k (0xe0 ||| c >>> 12)) (0x80 ||| (c >>> 6 &&& 0x3f)))
      (0x80 ||| (c &&& 0x3f))

def applkey (k : Driver) (key : Nat) (mode : Bool) : Driver :=
  putsQueue k [0x1b, if mode then 79 else 91, key]

/-! ## The state of the modifiers -/

/-- A key whose plain symbol is a modifier counts for it. -/
def countShift (sym : Nat) (k : Driver) : Except Table Driver :=
  let sym := sym ^^^ 0xf000
  if ktyp sym = ktShift ∨ ktyp sym = ktSlock then do
    let val := if kval sym = kgCapsshift then kgShift else kval sym
    require (val < nrShift) .kDown
    return { k with
      kDown := Function.update k.kDown val ((k.kDown val + 1) % 256)
      shiftState := k.shiftState ||| 1 <<< val }
  else .ok k

def countKey (k : Driver) (i : Nat) : Except Table Driver :=
  if k.keyDown i then do
    let sym ← demand plainMap[i]? .keyMap
    countShift sym k
  else .ok k

def computeShiftstate (k : Driver) : Except Table Driver :=
  (List.range nrKeys).foldlM countKey { k with shiftState := 0, kDown := fun _ => 0 }

/-! ## Special functions -/

def doNull (k : Driver) : Except Table Driver := computeShiftstate k

def enter (k : Driver) : Driver :=
  let k := if k.diacr ≠ 0 then { putQueue k k.diacr with diacr := 0 } else k
  let k := putQueue k 13
  if vcKbdMode k.kbd vcCrlf then putQueue k 10 else k

def capsToggle (k : Driver) : Driver :=
  if k.rep then k else { k with kbd := chgVcKbdLed k.kbd vcCapslock }

def capsOn (k : Driver) : Driver :=
  if k.rep then k else { k with kbd := setVcKbdLed k.kbd vcCapslock }

def hold (k : Driver) : Driver :=
  if k.rep then k else { k with stopped := !k.stopped }

def bareNum (k : Driver) : Driver :=
  if k.rep then k else { k with kbd := chgVcKbdLed k.kbd vcNumlock }

def num (k : Driver) : Driver :=
  if vcKbdMode k.kbd vcApplic then applkey k 80 true else bareNum k

def compose (k : Driver) : Driver := { k with deadKeyNext := true }

/-- The functions whose glue code does nothing: `show_ptregs`, `show_mem`, `show_state`,
`send_intr`, `lastcons`, `scroll_forw`, `scroll_back`, `boot_it`, `SAK`, `decr_console`,
`incr_console` and `spawn_console`. -/
def ignored (k : Driver) : Except Table Driver := .ok k

def specFnTable : List (Driver → Except Table Driver) :=
  [doNull, fun k => .ok (enter k), ignored, ignored,
    ignored, ignored, ignored, fun k => .ok (capsToggle k),
    fun k => .ok (num k), fun k => .ok (hold k), ignored, ignored,
    ignored, fun k => .ok (capsOn k), fun k => .ok (compose k), ignored,
    ignored, ignored, ignored, fun k => .ok (bareNum k)]

/-! ## Handlers -/

def doSpec (value : Nat) (up : Bool) (k : Driver) : Except Table Driver :=
  if up then .ok k
  else if specFnTable.length ≤ value then .ok k
  else if (k.kbd.kbdmode = .raw ∨ k.kbd.kbdmode = .mediumraw) ∧ value ≠ 15 then .ok k
  else do
    let f ← demand specFnTable[value]? .specFnTable
    f k

structure KbDiacr where
  diacr : Nat
  base : Nat
  result : Nat
  deriving DecidableEq, Repr

def accentTable : List KbDiacr := []

def handleDiacr (ch : Nat) (k : Driver) : Driver × Nat :=
  let d := k.diacr
  let k := { k with diacr := 0 }
  match accentTable.find? fun entry => entry.diacr = d ∧ entry.base = ch with
  | some entry => (k, entry.result)
  | none => if ch = 32 ∨ ch = d then (k, d) else (putQueue k d, ch)

def doSelf (value : Nat) (up : Bool) (k : Driver) : Except Table Driver :=
  if up then .ok k
  else
    let combined := if k.diacr ≠ 0 then handleDiacr value k else (k, value)
    if combined.1.deadKeyNext then
      .ok { combined.1 with deadKeyNext := false, diacr := combined.2 }
    else .ok (putQueue combined.1 combined.2)

def retDiacr : List Nat := [96, 39, 94, 126, 34, 44]

def doDead2 (value : Nat) (up : Bool) (k : Driver) : Except Table Driver :=
  if up then .ok k
  else
    let combined := if k.diacr ≠ 0 then handleDiacr value k else (k, value)
    .ok { combined.1 with diacr := combined.2 }

def doDead (value : Nat) (up : Bool) (k : Driver) : Except Table Driver := do
  let value ← demand retDiacr[value]? .retDiacr
  doDead2 value up k

def doFn (value : Nat) (up : Bool) (k : Driver) : Except Table Driver :=
  if up then .ok k
  else do
    let string ← demand funcTable[value]? .funcTable
    match string with
    | some offset => return putsQueue k (funcBuf.drop offset)
    | none => return k

/-- `BDCA` and the terminating 0 -/
def curChars : List Nat := [66, 68, 67, 65, 0]

def doCur (value : Nat) (up : Bool) (k : Driver) : Except Table Driver :=
  if up then .ok k
  else do
    let key ← demand curChars[value]? .curChars
    return applkey k key (vcKbdMode k.kbd vcCkmode)

/-- The characters of `0123456789+-*/`, carriage return, `,.?()` and the terminating 0. -/
def padChars : List Nat :=
  [48, 49, 50, 51, 52, 53, 54, 55, 56, 57, 43, 45, 42, 47, 13, 44, 46, 63, 40, 41, 0]

/-- `pqrstuvwxylSRQMnnmPQ` and the terminating 0 -/
def appMap : List Nat :=
  [112, 113, 114, 115, 116, 117, 118, 119, 120, 121, 108, 83, 82, 81, 77, 110, 110, 109, 80, 81, 0]

/-- What a key of the pad does as a cursor key. -/
def padCursor (value : Nat) (k : Driver) : Option (Except Table Driver) :=
  match value with
  | 15 => some (doFn 22 false k)
  | 16 => some (doFn 22 false k)
  | 0 => some (doFn 21 false k)
  | 1 => some (doFn 23 false k)
  | 2 => some (doCur 0 false k)
  | 3 => some (doFn 25 false k)
  | 4 => some (doCur 1 false k)
  | 6 => some (doCur 2 false k)
  | 7 => some (doFn 20 false k)
  | 8 => some (doCur 3 false k)
  | 9 => some (doFn 24 false k)
  | 5 => some (.ok (applkey k 71 (vcKbdMode k.kbd vcApplic)))
  | _ => none

def padNumber (value : Nat) (k : Driver) : Except Table Driver := do
  let ch ← demand padChars[value]? .padChars
  let k := putQueue k ch
  return if value = 14 ∧ vcKbdMode k.kbd vcCrlf then putQueue k 10 else k

def doPad (value : Nat) (up : Bool) (k : Driver) : Except Table Driver :=
  if up then .ok k
  else if vcKbdMode k.kbd vcApplic ∧ k.kDown kgShift = 0 then do
    let key ← demand appMap[value]? .appMap
    return applkey k key true
  else if vcKbdLed k.kbd vcNumlock then padNumber value k
  else (padCursor value k).getD (padNumber value k)

def doShift (value : Nat) (up : Bool) (k : Driver) : Except Table Driver :=
  if k.rep then .ok k
  else do
    let oldState := k.shiftState
    let k := if value = kgCapsshift ∧ up = false then
      { k with kbd := clrVcKbdLed k.kbd vcCapslock } else k
    let value := if value = kgCapsshift then kgShift else value
    require (value < nrShift) .kDown
    let down := if up then k.kDown value - 1 else (k.kDown value + 1) % 256
    let k := { k with
      kDown := Function.update k.kDown value down
      shiftState :=
        if down ≠ 0 then k.shiftState ||| 1 <<< value else clearBit k.shiftState value }
    -- The last of the keys that a number was typed under is released.
    if up = true ∧ k.shiftState ≠ oldState ∧ k.npadch ≠ -1 then
      let k := if k.kbd.kbdmode = .unicode then toUtf8 k (k.npadch % 0x10000).toNat
        else putQueue k (k.npadch % 256).toNat
      return { k with npadch := -1 }
    else return k

def doMeta (value : Nat) (up : Bool) (k : Driver) : Except Table Driver :=
  if up then .ok k
  else if vcKbdMode k.kbd vcMeta then .ok (putQueue (putQueue k 0x1b) value)
  else .ok (putQueue k (value ||| 0x80))

def doAscii (value : Nat) (up : Bool) (k : Driver) : Except Table Driver :=
  if up then .ok k
  else
    let base : Int := if value < 10 then 10 else 16
    let digit : Int := if value < 10 then value else (value : Int) - 10
    if k.npadch = -1 then .ok { k with npadch := digit }
    else .ok { k with npadch := (k.npadch * base + digit).bmod 0x100000000 }

def doLock (value : Nat) (up : Bool) (k : Driver) : Except Table Driver :=
  if up ∨ k.rep then .ok k else .ok { k with kbd := chgVcKbdLock k.kbd value }

def doSlock (value : Nat) (up : Bool) (k : Driver) : Except Table Driver := do
  let k ← doShift value up k
  if up ∨ k.rep then return k
  else
    let kbd := chgVcKbdSlock k.kbd value
    let map ← demand keyMaps[kbd.lockstate ^^^ kbd.slockstate]? .keyMaps
    return { k with
      kbd := if map.isNone then chgVcKbdSlock { kbd with slockstate := 0 } value else kbd }

/-- `do_cons`, `do_lowercase` and `do_ignore`, which do nothing here -/
def doIgnore (_ : Nat) (_ : Bool) (k : Driver) : Except Table Driver := .ok k

def keyHandler (type : Nat) : Nat → Bool → Driver → Except Table Driver :=
  match type with
  | 0 => doSelf
  | 1 => doFn
  | 2 => doSpec
  | 3 => doPad
  | 4 => doDead
  | 6 => doCur
  | 7 => doShift
  | 8 => doMeta
  | 9 => doAscii
  | 10 => doLock
  | 12 => doSlock
  | 13 => doDead2
  | _ => doIgnore

/-! ## handle_scancode -/

/-- The bit of the key in `key_down`, `rep`, and whether it still counts as released. -/
def trackKey (keycode : Nat) (up : Bool) (k : Driver) : Driver × Bool :=
  if up then
    ({ k with rep := false, keyDown := Function.update k.keyDown keycode false },
      if k.keyDown keycode then true else kbdUnexpectedUp keycode)
  else
    ({ k with rep := k.keyDown keycode, keyDown := Function.update k.keyDown keycode true }, false)

/-- CapsLock exchanges the two maps of a letter. -/
def letterSym (keycode keysym shiftFinal : Nat) (k : Driver) : Except Table Nat :=
  if vcKbdLed k.kbd vcCapslock then do
    let map ← demand keyMaps[shiftFinal ^^^ 1 <<< kgShift]? .keyMaps
    match map with
    | some map => demand map[keycode]? .keyMap
    | none => return keysym
  else .ok keysym

/-- A symbol of the type of a handler. -/
def handleSym (keycode keysym shiftFinal : Nat) (up rawMode : Bool) (k : Driver) :
    Except Table Driver :=
  let type := ktyp keysym - 0xf0
  if rawMode = true ∧ type ≠ 2 ∧ type ≠ ktShift then .ok k
  else do
    let sym ← if type = ktLetter then letterSym keycode keysym shiftFinal k else .ok keysym
    let type := if type = ktLetter then 0 else type
    let k ← keyHandler type (kval sym) up k
    return if type ≠ ktSlock then { k with kbd := { k.kbd with slockstate := 0 } } else k

/-- The symbol of the key under the modifiers. -/
def handleKey (keycode : Nat) (up rawMode : Bool) (k : Driver) : Except Table Driver := do
  let shiftFinal := (k.shiftState ||| k.kbd.slockstate) ^^^ k.kbd.lockstate
  let map ← demand keyMaps[shiftFinal]? .keyMaps
  match map with
  | some map =>
      let keysym ← demand map[keycode]? .keyMap
      if 0xf0 ≤ ktyp keysym then handleSym keycode keysym shiftFinal up rawMode k
      else if up = false ∧ rawMode = false then return toUtf8 k keysym
      else return k
  | none =>
      let k ← computeShiftstate k
      return { k with kbd := { k.kbd with slockstate := 0 } }

def handleKeycode (keycode : Nat) (up rawMode : Bool) (k : Driver) : Except Table Driver :=
  let tracked := trackKey keycode up k
  let k := tracked.1
  let up := tracked.2
  let mediumraw := decide (k.kbd.kbdmode = .mediumraw)
  let k := if mediumraw then putQueue k (if up then keycode + 128 else keycode) else k
  if k.rep = false ∨ vcKbdMode k.kbd vcRepeat = true then handleKey keycode up (rawMode || mediumraw) k
  else .ok k

def handleScancode (scancode : Nat) (down : Bool) (k : Driver) : Except Table Driver := do
  let rawMode := decide (k.kbd.kbdmode = .raw)
  let k := if rawMode then putQueue k (if down then scancode else scancode ||| 0x80) else k
  let translated ← kbdTranslate scancode k
  match translated.2 with
  | some keycode => handleKeycode keycode (!down) rawMode translated.1
  | none => return translated.1

/-! ## The interrupt -/

/-- `kbd_bh`, with the lights that show the flags. -/
def kbdBh (k : Driver) : Driver :=
  if k.kbd.ledflagstate ≠ k.ledstate then
    { k with ledstate := k.kbd.ledflagstate, leds := k.leds ++ [k.kbd.ledflagstate] }
  else k

def keyboardInit (k : Driver) : Driver :=
  kbdBh { k with
    init := true
    kbd := {
      lockstate := 0
      slockstate := 0
      ledflagstate := 0
      kbdmode := .xlate
      modeflags := 1 <<< vcRepeat ||| 1 <<< vcMeta } }

/-- The first interrupt initialises the driver. -/
def Driver.ready (k : Driver) : Driver := if k.init then k else keyboardInit k

def doScancode (code : UInt8) (k : Driver) : Except Table Driver := do
  let k := k.ready
  let scancode := code.toNat
  if scancode ≠ 0 ∧ scancode ≠ 0xff then
    let k ← handleScancode scancode (decide (scancode < 128)) k
    return kbdBh k
  else return k

/-- The static data before the first interrupt. -/
def unused : Driver where
  init := false
  prevScancode := 0
  highKeys := defaultHighKeys
  e0Keys := defaultE0Keys
  kDown := fun _ => 0
  keyDown := fun _ => false
  deadKeyNext := false
  shiftState := 0
  npadch := -1
  diacr := 0
  rep := false
  kbd := ⟨0, 0, 0, .xlate, 0⟩
  ledstate := 0xff
  stopped := false
  leds := []
  sent := []

/-- The bytes that the keyboard sends, one interrupt each. -/
def machine : Machine Driver UInt8 Table where
  enabled := fun _ _ => True
  step := doScancode

instance (k : Driver) (code : UInt8) : Decidable (machine.enabled k code) := .isTrue trivial

end SchlagOS.Keyboard
