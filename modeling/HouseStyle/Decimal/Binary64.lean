/-
HouseStyle.Decimal.Binary64 — numbers with 53 binary digits.

A number with a fraction or an exponent in a configuration is read as the nearest number of the
form `m · 2^q` with `m < 2^53` and `-1074 ≤ q ≤ 971`, the even one of two that are equally near.
Everything is exact arithmetic on natural numbers.
-/

namespace HouseStyle

/-- A number as it is kept: `± m · 2^q`, an infinity, or not a number. -/
inductive Binary64 where
  | nan
  | infinite (negative : Bool)
  | finite (negative : Bool) (m : Nat) (q : Int)
  deriving DecidableEq, Repr

namespace Binary64

/-- The quotient rounded to the nearest whole number, a half going to the even neighbour. -/
def roundDiv (num den : Nat) : Nat :=
  let low := num / den
  let twice := 2 * (num % den)
  if twice < den then low else if den < twice then low + 1 else low + low % 2

/-- The largest `l` with `2^l ≤ num / den`, for positive arguments. -/
def floorLog2 (num den : Nat) : Int :=
  let l : Int := (num.log2 : Int) - (den.log2 : Int)
  if den * Nat.pow 2 l.toNat ≤ num * Nat.pow 2 (-l).toNat then l else l - 1

/-- The kept number nearest to `num / den`, for positive arguments. -/
def ofRatio (negative : Bool) (num den : Nat) : Binary64 :=
  let q : Int := max (floorLog2 num den - 52) (-1074)
  let m := roundDiv (num * Nat.pow 2 (-q).toNat) (den * Nat.pow 2 q.toNat)
  let (m, q) := if m = Nat.pow 2 53 then (Nat.pow 2 52, q + 1) else (m, q)
  if 971 < q then .infinite negative else .finite negative m q

/-- The kept number nearest to `± digits · 10^exponent`. Numbers beyond the range by more than a
hundred places are settled by their size alone. -/
def ofDecimal (negative : Bool) (digits : Nat) (exponent : Int) : Binary64 :=
  let places : Int := (Nat.toDigits 10 digits).length + exponent
  if digits = 0 ∨ places < -400 then .finite negative 0 (-1074)
  else if 400 < places then .infinite negative
  else ofRatio negative (digits * Nat.pow 10 exponent.toNat) (Nat.pow 10 (-exponent).toNat)

/-- The decimal `digits / 10^places` is nearer to zero than to the smallest positive number, or as
near. -/
def roundsToZero (digits places : Nat) : Bool :=
  digits * Nat.pow 2 1075 ≤ Nat.pow 10 places

end Binary64

end HouseStyle
