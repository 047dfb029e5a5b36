import ViewBinding.Json.Value

namespace ViewBinding.Json

inductive Fault where
  | endInList | endInObject | endInString | endInValue
  | expectedColon | expectedListEnd | expectedObjectEnd | expectedWord | expectedValue
  | badEscape | badNumber | numberRange | controlCharacter | keyNotString | loneSurrogate
  | trailingComma | trailingText | endOfEscape
  deriving DecidableEq, Repr

namespace Fault

def message : Fault → String
  | .endInList => "EOF while parsing a list"
  | .endInObject => "EOF while parsing an object"
  | .endInString => "EOF while parsing a string"
  | .endInValue => "EOF while parsing a value"
  | .expectedColon => "expected `:`"
  | .expectedListEnd => "expected `,` or `]`"
  | .expectedObjectEnd => "expected `,` or `\x7d`"
  | .expectedWord => "expected ident"
  | .expectedValue => "expected value"
  | .badEscape => "invalid escape"
  | .badNumber => "invalid number"
  | .numberRange => "number out of range"
  | .controlCharacter => "control character (\\u0000-\\u001F) found while parsing a string"
  | .keyNotString => "key must be a string"
  | .loneSurrogate => "lone leading surrogate in hex escape"
  | .trailingComma => "trailing comma"
  | .trailingText => "trailing characters"
  | .endOfEscape => "unexpected end of hex escape"

end Fault

def isSpace (c : Char) : Bool := c = ' ' || c = '\n' || c = '\t' || c = '\r'

def skipSpace (s : List Char) : List Char := s.dropWhile isSpace

/-- The rest of a word whose first letter has been read. -/
def readWord : List Char → List Char → Except Fault (List Char)
  | [], s => .ok s
  | _ :: _, [] => .error .endInValue
  | w :: ws, c :: s => if w = c then readWord ws s else .error .expectedWord

def hexValue? (c : Char) : Option Nat :=
  if c.isDigit then some (c.toNat - '0'.toNat)
  else if 'a' ≤ c ∧ c ≤ 'f' then some (c.toNat - 'a'.toNat + 10)
  else if 'A' ≤ c ∧ c ≤ 'F' then some (c.toNat - 'A'.toNat + 10)
  else none

def utf8Length (s : List Char) : Nat := s.foldr (fun c n => c.utf8Size + n) 0

/-- Four hexadecimal digits. A text of fewer than four bytes ends too early for them. -/
def readHex4 (s : List Char) : Except Fault (Nat × List Char) :=
  if utf8Length (s.take 4) < 4 then .error .endInString
  else match s with
    | a :: b :: c :: d :: r =>
        match hexValue? a, hexValue? b, hexValue? c, hexValue? d with
        | some a, some b, some c, some d => .ok (((a * 16 + b) * 16 + c) * 16 + d, r)
        | _, _, _, _ => .error .badEscape
    | _ => .error .badEscape

def isLeading (unit : Nat) : Bool := 0xD800 ≤ unit && unit ≤ 0xDBFF

def isTrailing (unit : Nat) : Bool := 0xDC00 ≤ unit && unit ≤ 0xDFFF

def readTrailing (leading : Nat) : List Char → Except Fault (Char × List Char)
  | [] => .error .endInString
  | '\\' :: [] => .error .endInString
  | '\\' :: 'u' :: s => do
      let (unit, r) ← readHex4 s
      if isTrailing unit then
        .ok (Char.ofNat (0x10000 + (leading - 0xD800) * 0x400 + (unit - 0xDC00)), r)
      else .error .loneSurrogate
  | _ => .error .endOfEscape

def readEscape : List Char → Except Fault (Char × List Char)
  | [] => .error .endInString
  | '"' :: r => .ok ('"', r)
  | '\\' :: r => .ok ('\\', r)
  | '/' :: r => .ok ('/', r)
  | 'b' :: r => .ok ('\x08', r)
  | 'f' :: r => .ok ('\x0c', r)
  | 'n' :: r => .ok ('\n', r)
  | 'r' :: r => .ok ('\r', r)
  | 't' :: r => .ok ('\t', r)
  | 'u' :: s => do
      let (unit, r) ← readHex4 s
      if isLeading unit then readTrailing unit r
      else if isTrailing unit then .error .loneSurrogate
      else .ok (Char.ofNat unit, r)
  | _ => .error .badEscape

def readStringBody : Nat → List Char → Except Fault (List Char × List Char)
  | 0, _ => .error .endInString
  | _, [] => .error .endInString
  | n + 1, c :: s =>
      if c = '"' then .ok ([], s)
      else if c = '\\' then do
        let (d, r) ← readEscape s
        let (t, r) ← readStringBody n r
        .ok (d :: t, r)
      else if c.toNat < 0x20 then .error .controlCharacter
      else do
        let (t, r) ← readStringBody n s
        .ok (c :: t, r)

def readString (s : List Char) : Except Fault (String × List Char) := do
  let (t, r) ← readStringBody s.length s
  .ok (String.ofList t, r)

structure Numeral where
  negative : Bool
  whole : List Nat
  fraction : List Nat
  exponent : Option Int
  isReal : Bool
  deriving DecidableEq, Repr

def digit? (c : Char) : Option Nat := if c.isDigit then some (c.toNat - '0'.toNat) else none

def readDigits : List Char → List Nat × List Char
  | [] => ([], [])
  | c :: s => match digit? c with
      | some d => (d :: (readDigits s).1, (readDigits s).2)
      | none => ([], c :: s)

def readDigits1 (s : List Char) : Except Fault (List Nat × List Char) :=
  match s, readDigits s with
  | [], _ => .error .endInValue
  | _, ([], _) => .error .badNumber
  | _, (d :: ds, r) => .ok (d :: ds, r)

def wholeValue (digits : List Nat) : Nat := digits.foldl (fun n d => 10 * n + d) 0

def readExponent : List Char → Except Fault (Option Int × List Char)
  | c :: s =>
      if c = 'e' || c = 'E' then do
        let (negative, s) := match s with
          | '+' :: s => (false, s)
          | '-' :: s => (true, s)
          | s => (false, s)
        let (digits, r) ← readDigits1 s
        let e : Int := wholeValue digits
        .ok (some (if negative then -e else e), r)
      else .ok (none, c :: s)
  | [] => .ok (none, [])

def readFraction : List Char → Except Fault (Option (List Nat) × List Char)
  | '.' :: s => do
      let (digits, r) ← readDigits1 s
      .ok (some digits, r)
  | s => .ok (none, s)

def readWhole (s : List Char) : Except Fault (List Nat × List Char) := do
  let (digits, r) ← readDigits1 s
  if digits.head? = some 0 && digits.length ≠ 1 then .error .badNumber else .ok (digits, r)

def readNumeral (s : List Char) : Except Fault (Numeral × List Char) := do
  let (negative, s) := match s with
    | '-' :: s => (true, s)
    | s => (false, s)
  let (whole, s) ← readWhole s
  let (fraction, s) ← readFraction s
  let (exponent, s) ← readExponent s
  .ok (⟨negative, whole, fraction.getD [], exponent, fraction.isSome || exponent.isSome⟩, s)

inductive Number where
  | integer (n : Int)
  | real (x : Float)

/-- Appends digits to a number as long as it fits into 64 bits; the digits left over stay. -/
def absorb (n : Nat) : List Nat → Nat × List Nat
  | [] => (n, [])
  | d :: ds => if 10 * n + d < Nat.pow 2 64 then absorb (10 * n + d) ds else (n, d :: ds)

/-- `x * 10 ^ e`, rounded after each step. A quotient that vanishes is zero whatever the exponent. -/
def scale (e : Int) : Nat → Float → Except Fault Float
  | 0, x => .ok x
  | n + 1, x =>
      if e.natAbs ≤ 308 then
        let power := Float.ofScientific 1 false e.natAbs
        if 0 ≤ e then if (x * power).isInf then .error .numberRange else .ok (x * power)
        else .ok (x / power)
      else if x == 0.0 then .ok x
      else if 0 ≤ e then .error .numberRange
      else scale (e + 308) n (x / Float.ofScientific 1 false 308)

/-- The real number with the leading digits of a numeral; digits that do not fit count in the
exponent before the point and are dropped after it. -/
def Numeral.toReal (m : Numeral) : Except Fault Float := do
  let (n, surplus) := absorb 0 m.whole
  let (n, dropped) := absorb n m.fraction
  let taken := m.fraction.length - dropped.length
  let x ← scale (surplus.length - taken + m.exponent.getD 0) 4 (Float.ofNat n)
  .ok (if m.negative then -x else x)

/-- A whole number that fits into 64 bits is an integer; minus zero is not. -/
def Numeral.value (m : Numeral) : Except Fault Number :=
  let n := wholeValue m.whole
  if m.isReal then m.toReal.map .real
  else if m.negative then
    if 0 < n ∧ n ≤ Nat.pow 2 63 then .ok (.integer (-n)) else m.toReal.map .real
  else if n < Nat.pow 2 64 then .ok (.integer n) else m.toReal.map .real

def readNumber (s : List Char) : Except Fault (Number × List Char) := do
  let (m, r) ← readNumeral s
  let v ← m.value
  .ok (v, r)

def startsNumber (c : Char) : Bool := c = '-' || c.isDigit

end ViewBinding.Json
