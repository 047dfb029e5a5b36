namespace ViewBinding.Decimal

structure Magnitude where
  digits : Nat
  exponent : Int
  deriving DecidableEq, Repr

/-- The reals that round to one binary number, in quarters of its last place `2 ^ scale`; the ends
belong to it when `closed`. -/
structure Interval where
  low : Nat
  value : Nat
  high : Nat
  scale : Int
  closed : Bool
  deriving DecidableEq, Repr

namespace Interval

/-- The interval around `mantissa * 2 ^ exponent`. Below a power of two the numbers lie twice as
dense, so there the lower half is smaller. -/
def around (mantissa : Nat) (exponent : Int) (atPower : Bool) : Interval :=
  ⟨4 * mantissa - (if atPower then 1 else 2), 4 * mantissa, 4 * mantissa + 2, exponent - 2,
    mantissa % 2 = 0⟩

/-- Multiplies `n * 2 ^ scale` and `10 ^ grid` by one factor that makes both whole. -/
def scaled (i : Interval) (grid : Int) (n : Nat) : Nat :=
  n * Nat.pow 2 i.scale.toNat * Nat.pow 10 (-grid).toNat

def step (i : Interval) (grid : Int) : Nat := Nat.pow 10 grid.toNat * Nat.pow 2 (-i.scale).toNat

def holds (i : Interval) (grid : Int) (k : Nat) : Bool :=
  let x := k * i.step grid
  let low := i.scaled grid i.low
  let high := i.scaled grid i.high
  if i.closed then low ≤ x && x ≤ high else low < x && x < high

/-- The point of the grid to take, if one lies in the interval; halfway between two the even one. -/
def point? (i : Interval) (grid : Int) : Option Nat :=
  let value := i.scaled grid i.value
  let below := value / i.step grid
  let above := below + 1
  let toBelow := value - below * i.step grid
  let toAbove := above * i.step grid - value
  match i.holds grid below, i.holds grid above with
  | true, true =>
      some (if toBelow < toAbove || toBelow = toAbove && below % 2 = 0 then below else above)
  | true, false => some below
  | false, true => some above
  | false, false => none

def search (i : Interval) : Nat → Int → Magnitude
  | 0, grid => ⟨i.value, grid⟩
  | n + 1, grid => match i.point? grid with
      | some k => ⟨k, grid⟩
      | none => search i n (grid - 1)

end Interval

/-- Of all grids of powers of ten, the coarsest with a point that rounds to the number, and on it the
point nearest to the number. -/
def shortest (x : Float) : Magnitude :=
  let bits := x.abs.toBits.toNat
  let fraction := bits % Nat.pow 2 52
  let field : Nat := bits / Nat.pow 2 52
  let interval :=
    if field = 0 then Interval.around fraction (-1074) false
    else Interval.around (Nat.pow 2 52 + fraction) ((field : Int) - 1075) (fraction = 0 && 1 < field)
  interval.search 640 310

end ViewBinding.Decimal
