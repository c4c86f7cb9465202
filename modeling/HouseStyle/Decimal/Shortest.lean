/-
HouseStyle.Decimal.Shortest — the shortest decimal that reads back.

A kept number stands for all reals that round to it. On a grid of multiples of a power of ten only
the two neighbours of the number can be the grid's best member of that interval, so the coarsest
grid with such a neighbour gives the fewest digits, and the nearer of two neighbours the best ones.
-/
import HouseStyle.Decimal.Binary64
import HouseStyle.Text

namespace HouseStyle

namespace Binary64

/-- A member of the grid of multiples of `10^g` that rounds to `m · 2^q`: the nearer one if both
neighbours do, the even one if they are equally near. Lengths are measured in quarters of `2^q`. -/
def gridMember? (m : Nat) (q g : Int) : Option Nat :=
  let scale := Nat.pow 2 (q - 2).toNat * Nat.pow 10 (-g).toNat
  let unit := Nat.pow 10 g.toNat * Nat.pow 2 (2 - q).toNat
  let value := 4 * m * scale
  let below := (if m = Nat.pow 2 52 ∧ -1074 < q then 4 * m - 1 else 4 * m - 2) * scale
  let above := (4 * m + 2) * scale
  let reads (c : Nat) : Bool :=
    if m % 2 = 0 then below ≤ c * unit && c * unit ≤ above else below < c * unit && c * unit < above
  let low := value / unit
  match reads low, reads (low + 1) with
  | true, true =>
    let down := value - low * unit
    let up := (low + 1) * unit - value
    some (if down < up then low else if up < down then low + 1 else low + low % 2)
  | true, false => some low
  | false, true => some (low + 1)
  | false, false => none

/-- Digits and exponent of the shortest decimal that reads back as `m · 2^q`, for positive `m`: the
first grid that has a member, from the coarsest on. -/
def shortest (m : Nat) (q : Int) : Nat × Int :=
  ((List.range 660).findSome? fun (i : Nat) =>
    let g : Int := 310 - (i : Int)
    (gridMember? m q g).map fun c => (c, g)).getD (m, q)

end Binary64

/-- How a number with a fraction is written: the texts of what is no number, and the places of the
decimal point, counted from the first digit, between which no exponent is used. -/
structure DecimalStyle where
  nan : String
  infinite : String
  leastPoint : Int
  greatestPoint : Int

namespace DecimalStyle

/-- Digits with a decimal point behind the first `point` of them; a whole number keeps one zero
behind the point. -/
def positional (digits : Text) (point : Int) : Text :=
  if point ≤ 0 then
    '0' :: '.' :: (List.replicate (-point).toNat '0' ++ digits)
  else
    let whole := digits.take point.toNat
    let fraction := digits.drop point.toNat
    whole ++ List.replicate (point.toNat - digits.length) '0' ++
      '.' :: (if fraction.isEmpty then ['0'] else fraction)

/-- Digits with one of them in front of the point, and an exponent of at least two digits. -/
def scientific (digits : Text) (point : Int) : Text :=
  let exponent := point - 1
  let size := (toString exponent.natAbs).toList
  digits.take 1 ++ (if digits.length ≤ 1 then [] else '.' :: digits.drop 1) ++
    'e' :: (if exponent < 0 then '-' else '+') ::
      (List.replicate (2 - size.length) '0' ++ size)

def write (style : DecimalStyle) : Binary64 → Text
  | .nan => style.nan.toList
  | .infinite negative => (if negative then ['-'] else []) ++ style.infinite.toList
  | .finite negative m q =>
    let sign := if negative then ['-'] else []
    if m = 0 then sign ++ ['0', '.', '0']
    else
      let (c, g) := Binary64.shortest m q
      let digits := (toString c).toList
      let point : Int := digits.length + g
      sign ++
        if style.leastPoint ≤ point && point ≤ style.greatestPoint then positional digits point
        else scientific digits point

end DecimalStyle

end HouseStyle
