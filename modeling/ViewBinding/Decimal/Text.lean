import ViewBinding.Decimal.Shortest

namespace ViewBinding.Decimal

/-- `low` and `high` bound the exponents of the leading digit that are written positionally. -/
structure Layout where
  low : Int
  high : Int
  exponentMark : Char
  plusSign : Bool
  deriving DecidableEq, Repr

/-- Whole numbers keep `.0`; from `1e16` on and below `1e-5` an exponent follows, with its sign. -/
def reals : Layout := ⟨-5, 15, 'e', true⟩

def numeral (n : Nat) : List Char := Nat.toDigits 10 n

def Layout.exponent (l : Layout) (e : Int) : List Char :=
  let sign := if e < 0 then ['-'] else if l.plusSign then ['+'] else []
  l.exponentMark :: sign ++ numeral e.natAbs

def Layout.write (l : Layout) (m : Magnitude) : List Char :=
  let digits := numeral m.digits
  let leading := m.exponent + (digits.length - 1 : Nat)
  if l.low ≤ leading && leading ≤ l.high then
    if 0 ≤ m.exponent then digits ++ List.replicate m.exponent.toNat '0' ++ ['.', '0']
    else if 0 ≤ leading then
      digits.take (leading.toNat + 1) ++ '.' :: digits.drop (leading.toNat + 1)
    else ['0', '.'] ++ List.replicate (-leading - 1).toNat '0' ++ digits
  else
    match digits with
    | [] => []
    | [d] => d :: l.exponent leading
    | d :: ds => d :: '.' :: ds ++ l.exponent leading

/-- The shortest text that reads back as the given finite number. -/
def ofFloat (x : Float) : List Char :=
  let sign := if x.toBits.toNat / Nat.pow 2 63 = 1 then ['-'] else []
  if x == 0.0 then sign ++ ['0', '.', '0'] else sign ++ reals.write (shortest x)

def readNat? (bound : Nat) (s : List Char) : Option Nat :=
  let digits := match s with
    | '+' :: r => r
    | r => r
  if digits.isEmpty || !digits.all Char.isDigit then none
  else
    let n := digits.foldl (fun n c => 10 * n + (c.toNat - '0'.toNat)) 0
    if n ≤ bound then some n else none

end ViewBinding.Decimal
