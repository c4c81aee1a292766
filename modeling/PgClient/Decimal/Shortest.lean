/-
  PgClient.Decimal.Shortest

  Binary floating-point numbers as exact fractions, and the shortest decimal
  that reads back as a given one.

  A number stands for every real that rounds to it. The decimal is looked for on
  the grids of the multiples of 10^k, coarsest grid first: the first grid with a
  positive multiple among those reals gives the fewest digits, and of the two
  multiples beside the number the nearer one is taken.
-/

namespace PgClient.Decimal

/-! ## Binary layouts -/

/-- The widths of the two number fields of a binary floating-point layout. -/
structure Layout where
  fractionBits : Nat
  exponentBits : Nat

def Layout.single : Layout := ⟨23, 8⟩
def Layout.double : Layout := ⟨52, 11⟩

/-- What a bit pattern stands for. -/
inductive Reading where
  | nan
  | infinite (negative : Bool)
  /-- The number `m * 2 ^ e`; `narrow` where the gap to the next smaller number is half the
  gap to the next larger one. -/
  | finite (negative : Bool) (m : Nat) (e : Int) (narrow : Bool)
  deriving DecidableEq, Repr

/-- How many fractions there are. -/
def Layout.fractions (l : Layout) : Nat := Nat.pow 2 l.fractionBits

/-- How many exponents there are, the lowest and the highest with a meaning of their own. -/
def Layout.exponents (l : Layout) : Nat := Nat.pow 2 l.exponentBits

def Layout.read (l : Layout) (bits : Nat) : Reading :=
  let fraction := bits % l.fractions
  let biased := bits / l.fractions % l.exponents
  let negative := bits / (l.fractions * l.exponents) % 2 = 1
  let lowest : Int := 2 - (l.exponents / 2 : Nat) - l.fractionBits
  if biased = l.exponents - 1 then
    if fraction = 0 then .infinite negative else .nan
  else if biased = 0 then .finite negative fraction lowest false
  else
    .finite negative (l.fractions + fraction) (lowest + (biased - 1)) (fraction = 0 && 1 < biased)

/-! ## The search -/

/-- The decimal number `digits * 10 ^ exponent`. -/
structure Number where
  digits : Nat
  exponent : Int
  deriving DecidableEq, Repr

/-- Which neighbour is taken where both are equally near. -/
inductive Tie where
  | even
  | up
  deriving DecidableEq, Repr

/-- The reals that round to a number, as fractions over `scale`; `closed` where the ends
round to it as well. -/
structure Interval where
  low : Nat
  number : Nat
  high : Nat
  scale : Nat
  closed : Bool

/-- The interval of `m * 2 ^ e`: half a gap to either side, measured in quarters. -/
def Interval.of (m : Nat) (e : Int) (narrow : Bool) : Interval :=
  let up := Nat.pow 2 (e - 2).toNat
  { low := (4 * m - if narrow then 1 else 2) * up
    number := 4 * m * up
    high := (4 * m + 2) * up
    scale := Nat.pow 2 (2 - e).toNat
    closed := m % 2 = 0 }

/-- The positive multiple of `10 ^ k` in the interval that is nearest to its number. -/
def Interval.nearest (i : Interval) (tie : Tie) (k : Int) : Option Nat :=
  -- Both sides of every comparison are multiplied by `scale` and by the power of ten.
  let unit := i.scale * Nat.pow 10 k.toNat
  let finer := Nat.pow 10 (-k).toNat
  let number := i.number * finer
  let inside (d : Nat) : Bool :=
    if i.closed then i.low * finer ≤ d * unit && d * unit ≤ i.high * finer
    else i.low * finer < d * unit && d * unit < i.high * finer
  let below := number / unit
  let rest := 2 * (number % unit)
  match decide (0 < below) && inside below, inside (below + 1) with
  | true, false => some below
  | false, true => some (below + 1)
  | false, false => none
  | true, true =>
    -- Both neighbours read back: twice the rest tells which is nearer.
    if rest < unit then some below
    else if unit < rest then some (below + 1)
    else match tie with
      | .up => some (below + 1)
      | .even => some (if below % 2 = 0 then below else below + 1)

/-- The first grid with a hit, from `10 ^ k` downwards. -/
def Interval.search (i : Interval) (tie : Tie) : Nat → Int → Number
  | 0, k => ⟨0, k⟩
  | grids + 1, k =>
    match i.nearest tie k with
    | some d => ⟨d, k⟩
    | none => search i tie grids (k - 1)

/-- The shortest decimal that reads back as `m * 2 ^ e`. Every finite number of both layouts
is below 10^309 and has a gap above 10^-324, so the grids between the two suffice. -/
def shortest (tie : Tie) (m : Nat) (e : Int) (narrow : Bool) : Number :=
  if m = 0 then ⟨0, 0⟩ else (Interval.of m e narrow).search tie 634 309

end PgClient.Decimal
