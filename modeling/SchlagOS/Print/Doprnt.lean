import SchlagOS.Foundation.Outcome
import Mathlib.Algebra.GroupWithZero.Nat

/-!
# Formatted output

`_doprnt`: the directives of a format and the characters that they put out.
The characters do not depend on what is done with them, so the model returns
them as a list.  A format is the list of its bytes in front of the terminating
0.  An argument is a 32-bit word or a string.  A missing argument, a division
by zero, a counter that overflows and an access outside an array are errors;
the negation of the least `long` wraps around.
-/

namespace SchlagOS.Print

open Foundation

inductive Arg where
  | word (u : Nat)
  | string (bytes : List Nat)
  deriving DecidableEq, Repr

inductive Fault where
  | missingArgument
  | wrongArgument
  | divideByZero
  | buffer
  | digits
  | shift
  | overrun
  | overflow
  deriving DecidableEq, Repr

/-- What has been read of a directive. -/
structure Directive where
  length : Int
  prec : Int
  ladjust : Bool
  padc : Nat
  plusSign : Nat
  altfmt : Bool
  deriving DecidableEq, Repr

def Directive.plain : Directive where
  length := 0
  prec := -1
  ladjust := false
  padc := 32
  plusSign := 0
  altfmt := false

/-- A 32-bit word as an `int` or a `long`. -/
def signed (u : Nat) : Int := (u : Int).bmod 0x100000000

def maxbuf : Nat := 32

def isdigit (c : Nat) : Bool := decide (48 ≤ c ∧ c ≤ 57)

/-! ## Numbers -/

/-- `0123456789abcdef` -/
def digitChars : List Nat := [48, 49, 50, 51, 52, 53, 54, 55, 56, 57, 97, 98, 99, 100, 101, 102]

/-- The digits that are built in a buffer with `cells` cells left. -/
def buildDigits (base : Nat) : Nat → Nat → Except Fault (List Nat)
  | 0, _ => .error .buffer
  | cells + 1, u => do
      require (base ≠ 0) .divideByZero
      let c ← demand digitChars[u % base]? .digits
      if u / base = 0 then return [c]
      else
        let front ← buildDigits base cells (u / base)
        return front ++ [c]

def printnum (u base : Nat) : Except Fault (List Nat) := buildDigits base maxbuf u

/-- `print_num`: padding, sign, prefix, zeros and digits. -/
def printNum (d : Directive) (base signChar u : Nat) : Except Fault (List Nat) := do
  let digits ← buildDigits base maxbuf u
  let pre : List Nat :=
    if u ≠ 0 ∧ d.altfmt = true then
      if base = 8 then [48] else if base = 16 then [48, 120] else []
    else []
  let sign : List Nat := if signChar ≠ 0 then [signChar] else []
  let prec := d.prec - digits.length
  let length := d.length - digits.length - sign.length - pre.length - max prec 0
  -- What the decrements of the counters reach below 0.
  let last := length - if d.padc = 48 ∧ d.ladjust = true then 2 else 1
  require (-0x80000000 < prec ∧ -0x80000000 ≤ last) .overflow
  -- Each of the loops that pad leaves a negative `length` to the next one.
  let blanks := if d.padc = 32 ∧ d.ladjust = false then length.toNat else 0
  let length := if d.padc = 32 ∧ d.ladjust = false then -1 else length
  let zeros := if d.padc = 48 then length.toNat else 0
  let length := if d.padc = 48 then -1 else length
  let trailing := if d.ladjust = true then length.toNat else 0
  return List.replicate blanks 32 ++ sign ++ pre ++ List.replicate prec.toNat 48 ++
    List.replicate zeros 48 ++ digits ++ List.replicate trailing 32

/-! ## Arguments -/

def wordArg : List Arg → Except Fault (Nat × List Arg)
  | [] => .error .missingArgument
  | .word u :: args => .ok (u % 0x100000000, args)
  | .string _ :: _ => .error .wrongArgument

/-- A pointer to characters; a null pointer stands for the empty string. -/
def stringArg : List Arg → Except Fault (List Nat × List Arg)
  | [] => .error .missingArgument
  | .string bytes :: args => .ok (bytes.takeWhile (· ≠ 0), args)
  | .word u :: args => if u = 0 then .ok ([], args) else .error .wrongArgument

/-! ## Conversions -/

/-- The character of an index into the bits of a register. -/
def nameChar (c : Nat) : Bool := decide (32 < c ∧ c < 128)

/-- The names of the bits behind the base. -/
def printBits (u base : Nat) : Nat → Bool → List Nat → Except Fault (List Nat)
  | 0, any, _ => .ok (if any then [62] else [])
  | _, any, [] => .ok (if any then [62] else [])
  | fuel + 1, any, i :: p =>
      let opening := if any then 44 else 60
      match p with
      | [] => .error .overrun
      | j :: behind =>
          if nameChar j then do
            require (1 ≤ i ∧ i ≤ 32) .shift
            let name := p.takeWhile nameChar
            let rest := p.dropWhile nameChar
            if u.testBit (i - 1) then
              let out ← printBits u base fuel true rest
              return opening :: name ++ out
            else printBits u base fuel any rest
          else do
            require (1 ≤ j ∧ j ≤ i ∧ i ≤ 32) .shift
            let field ← printnum ((u >>> (j - 1)) &&& (2 <<< (i - j) - 1)) base
            let out ← printBits u base fuel true (behind.dropWhile nameChar)
            return opening :: behind.takeWhile nameChar ++ field ++ out

/-- `%s` -/
def printString (d : Directive) (p : List Nat) : List Nat :=
  let prec : Int := if d.prec = -1 then 0x7fffffff else d.prec
  let shown := p.take prec.toNat
  let blanks := if 0 < d.length ∧ d.ladjust = false then (d.length - shown.length).toNat else 0
  -- The counter has passed the precision when the precision ends the loop.
  let n : Int := min p.length (max prec 0 + 1)
  let trailing := if d.ladjust = true then (d.length - n).toNat else 0
  List.replicate blanks 32 ++ shown ++ List.replicate trailing 32

def printSigned (d : Directive) (base : Nat) (args : List Arg) :
    Except Fault (List Nat × List Arg) := do
  let arg ← wordArg args
  let n := signed arg.1
  let out ← printNum d base (if 0 ≤ n then d.plusSign else 45) n.natAbs
  return (out, arg.2)

def printUnsigned (d : Directive) (base : Nat) (args : List Arg) :
    Except Fault (List Nat × List Arg) := do
  let arg ← wordArg args
  let out ← printNum d base 0 arg.1
  return (out, arg.2)

/-- The `switch` over the letter of a directive. -/
def convert (letter : Nat) (d : Directive) (radix : Nat) (args : List Arg) :
    Except Fault (List Nat × List Arg) :=
  if letter = 98 ∨ letter = 66 then do
    let value ← wordArg args
    let bits ← stringArg value.2
    let base := bits.1.headD 0
    require (base < 128) .digits
    let number ← printnum value.1 base
    if value.1 = 0 then return (number, bits.2)
    else
      let names ← printBits value.1 base bits.1.length false bits.1.tail
      return (number ++ names, bits.2)
  else if letter = 99 then do
    let arg ← wordArg args
    return ([arg.1 % 256], arg.2)
  else if letter = 115 then do
    let arg ← stringArg args
    return (printString d arg.1, arg.2)
  else if letter = 111 ∨ letter = 79 then printUnsigned d 8 args
  else if letter = 100 ∨ letter = 105 ∨ letter = 68 then printSigned d 10 args
  else if letter = 117 ∨ letter = 85 then printUnsigned d 10 args
  else if letter = 112 then do
    let out ← printUnsigned { d with padc := 48, length := 8 } 16 args
    return (48 :: 120 :: out.1, out.2)
  else if letter = 120 ∨ letter = 88 then printUnsigned d 16 args
  else if letter = 122 ∨ letter = 90 then printSigned d 16 args
  else if letter = 114 ∨ letter = 82 then printSigned d radix args
  else if letter = 110 ∨ letter = 78 then printUnsigned d radix args
  else .ok ([letter], args)

/-! ## Directives -/

def readFlags : List Nat → Directive → Directive × List Nat
  | [], d => (d, [])
  | c :: fmt, d =>
      if c = 35 then readFlags fmt { d with altfmt := true }
      else if c = 45 then readFlags fmt { d with ladjust := true }
      else if c = 43 then readFlags fmt { d with plusSign := 43 }
      else if c = 32 then
        readFlags fmt { d with plusSign := if d.plusSign = 0 then 32 else d.plusSign }
      else (d, c :: fmt)

def readNumber : List Nat → Nat → Except Fault (Nat × List Nat)
  | [], n => .ok (n, [])
  | c :: fmt, n =>
      if isdigit c then do
        let n := 10 * n + (c - 48)
        require (n < 0x80000000) .overflow
        readNumber fmt n
      else .ok (n, c :: fmt)

def readZero (fmt : List Nat) (d : Directive) : Directive × List Nat :=
  match fmt with
  | 48 :: fmt => ({ d with padc := 48 }, fmt)
  | fmt => (d, fmt)

def readLength (fmt : List Nat) (d : Directive) (args : List Arg) :
    Except Fault (Directive × List Nat × List Arg) :=
  match fmt with
  | [] => .ok (d, [], args)
  | c :: rest =>
      if isdigit c then do
        let number ← readNumber fmt 0
        return ({ d with length := number.1 }, number.2, args)
      else if c = 42 then do
        let arg ← wordArg args
        let length := signed arg.1
        if length < 0 then
          require (length ≠ -0x80000000) .overflow
          return ({ d with ladjust := !d.ladjust, length := -length }, rest, arg.2)
        else return ({ d with length := length }, rest, arg.2)
      else .ok (d, fmt, args)

def readPrec (fmt : List Nat) (d : Directive) (args : List Arg) :
    Except Fault (Directive × List Nat × List Arg) :=
  match fmt with
  | 46 :: rest =>
      match rest with
      | [] => .ok (d, [], args)
      | c :: behind =>
          if isdigit c then do
            let number ← readNumber rest 0
            return ({ d with prec := number.1 }, number.2, args)
          else if c = 42 then do
            let arg ← wordArg args
            return ({ d with prec := signed arg.1 }, behind, arg.2)
          else .ok (d, rest, args)
  | fmt => .ok (d, fmt, args)

def skipL (fmt : List Nat) : List Nat :=
  match fmt with
  | 108 :: fmt => fmt
  | fmt => fmt

/-- A directive behind its `%`: what it puts out, and what is left of the format and of the
arguments.  A format that ends inside a directive puts out nothing for it. -/
def directive (fmt : List Nat) (args : List Arg) (radix : Nat) :
    Except Fault (List Nat × List Nat × List Arg) := do
  let flags := readFlags fmt .plain
  let zero := readZero flags.2 flags.1
  let length ← readLength zero.2 zero.1 args
  let prec ← readPrec length.2.1 length.1 length.2.2
  match skipL prec.2.1 with
  | [] => return ([], [], prec.2.2)
  | letter :: fmt =>
      let out ← convert letter prec.1 radix prec.2.2
      return (out.1, fmt, out.2)

/-- The loop over the format; each turn takes at least one character of it. -/
def doprntLoop (radix : Nat) : Nat → List Nat → List Arg → Except Fault (List Nat)
  | 0, _, _ => .ok []
  | _, [], _ => .ok []
  | fuel + 1, c :: fmt, args =>
      if c = 37 then do
        let done ← directive fmt args radix
        let rest ← doprntLoop radix fuel done.2.1 done.2.2
        return done.1 ++ rest
      else do
        let rest ← doprntLoop radix fuel fmt args
        return c :: rest

def doprnt (fmt : List Nat) (args : List Arg) (radix : Nat) : Except Fault (List Nat) :=
  doprntLoop radix fmt.length fmt args

end SchlagOS.Print
