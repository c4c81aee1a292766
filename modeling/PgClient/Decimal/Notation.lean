/-
  PgClient.Decimal.Notation

  Decimal numbers as text: positional, with as many zeros as the place of the
  point asks for, and scientific, with one digit before the point.
-/
import PgClient.Decimal.Shortest
import PgClient.Text.Integer

namespace PgClient.Decimal

/-- The place of the point: the number is `0.d₁d₂… * 10 ^ point`. -/
def Number.point (n : Number) : Int :=
  (Integer.natural n.digits).length + n.exponent

/-- All digits, none of them after the point unless the number needs it. -/
def Number.positional (n : Number) : List Char :=
  let ds := Integer.natural n.digits
  if 0 ≤ n.exponent then ds ++ List.replicate n.exponent.toNat '0'
  else if 0 < n.point then ds.take n.point.toNat ++ '.' :: ds.drop n.point.toNat
  else '0' :: '.' :: List.replicate (-n.point).toNat '0' ++ ds

/-- One digit before the point, and a sign on every exponent. -/
def Number.scientific (n : Number) : List Char :=
  let power := n.point - 1
  let mantissa :=
    match Integer.natural n.digits with
    | d :: e :: rest => d :: '.' :: e :: rest
    | ds => ds
  mantissa ++ 'e' :: (if power < 0 then '-' else '+') :: Integer.natural power.natAbs

/-- A minus sign for a negative number. -/
def signed (negative : Bool) (text : List Char) : List Char :=
  if negative then '-' :: text else text

end PgClient.Decimal
