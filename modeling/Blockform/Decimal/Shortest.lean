-- SUMMARY: The shortest decimal text that reads back as a given double.
/-!
# Shortest decimals

A message that quotes a floating-point number shows the fewest digits that
still read back as the same double. The double is a rational `m · 2^q`; the
reals that round to it form an interval around it, and the digits are found on
the coarsest decimal grid with a point inside that interval. All of it is exact
arithmetic on natural numbers.
-/

namespace Blockform.Decimal

/-- A finite double without its sign: `mantissa · 2^exponent`. The doubles below
    a power of two lie twice as close as those above it; `boundary` marks such a
    power, whose interval is narrower on its lower side. -/
structure Magnitude where
  mantissa : Nat
  exponent : Int
  boundary : Bool

namespace Magnitude

/-- Split the bits of a finite double. -/
def ofBits (bits : UInt64) : Magnitude :=
  let fraction := (bits &&& 0xfffffffffffff).toNat
  let biased := ((bits >>> 52) &&& 0x7ff).toNat
  if biased = 0 then ⟨fraction, -1074, false⟩
  else ⟨fraction + 0x10000000000000, (biased : Int) - 1075, fraction = 0 && biased > 1⟩

/-- Numerator and denominator of `n · 2^(exponent - 2)`. -/
def quarters (x : Magnitude) (n : Nat) : Nat × Nat :=
  if 2 ≤ x.exponent then (n * Nat.pow 2 (x.exponent - 2).toNat, 1)
  else (n, Nat.pow 2 (2 - x.exponent).toNat)

/-- Does `d · 10^grid` round to this double? The ends of the interval do exactly
    when the mantissa is even. -/
def holds (x : Magnitude) (d : Nat) (grid : Int) : Bool :=
  let (low, den) := x.quarters (4 * x.mantissa - if x.boundary then 1 else 2)
  let (high, _) := x.quarters (4 * x.mantissa + 2)
  let point := if 0 ≤ grid then d * Nat.pow 10 grid.toNat * den else d * den
  let scale := if 0 ≤ grid then 1 else Nat.pow 10 (-grid).toNat
  if x.mantissa % 2 = 0 then low * scale ≤ point && point ≤ high * scale
  else low * scale < point && point < high * scale

/-- The two points of the grid around the value, and whether the upper one is
    the nearer (a tie goes to the even one). -/
def neighbours (x : Magnitude) (grid : Int) : Nat × Bool :=
  let (num, den) := x.quarters (4 * x.mantissa)
  let (num, den) :=
    if 0 ≤ grid then (num, den * Nat.pow 10 grid.toNat) else (num * Nat.pow 10 (-grid).toNat, den)
  let d := num / den
  let rest := 2 * (num % den)
  (d, rest > den || (rest = den && d % 2 = 1))

/-- The decimal exponent of the leading digit: the greatest `e` with `10^e` no
    greater than the value. -/
def leading (x : Magnitude) : Int :=
  let (num, den) := x.quarters (4 * x.mantissa)
  if den ≤ num then ((Nat.toDigits 10 (num / den)).length : Int) - 1
  else
    .negOfNat (((List.range 400).find? fun k => den ≤ num * Nat.pow 10 k).getD 400)

/-- The digits of the shortest point, over the grids of 1 to 17 digits. -/
def shortest (x : Magnitude) : Nat × Int :=
  let lead := x.leading
  let tries := (List.range 17).filterMap fun (n : Nat) =>
    let grid := lead - (n : Int)
    let (d, up) := x.neighbours grid
    match x.holds d grid, x.holds (d + 1) grid with
    | true, true => some (if up then d + 1 else d, grid)
    | true, false => some (d, grid)
    | false, true => some (d + 1, grid)
    | false, false => none
  tries.headD (0, 0)

end Magnitude

/-- Remove zeros at the end of the digits, counting them in the exponent. -/
def trimZeros (d : Nat) (e : Int) : Nat × Int :=
  if 0 < d ∧ d % 10 = 0 then trimZeros (d / 10) (e + 1) else (d, e)
termination_by d
decreasing_by omega

/-- `n` zeros. -/
def zeros (n : Nat) : String := String.ofList (List.replicate n '0')

/-- Digits and exponent as text: positional, always with a point, while the
    point falls within sixteen digits or at most four zeros precede the first
    digit, and with a signed exponent otherwise. -/
def layout (digits : Nat) (exponent : Int) : String :=
  let ds := toString digits
  let point : Int := ds.length + exponent
  if 0 ≤ exponent && point ≤ 16 then ds ++ zeros exponent.toNat ++ ".0"
  else if 0 < point && point ≤ 16 then
    (ds.take point.toNat).toString ++ "." ++ (ds.drop point.toNat).toString
  else if -5 < point && point ≤ 0 then "0." ++ zeros (-point).toNat ++ ds
  else
    let mantissa :=
      if ds.length = 1 then ds else (ds.take 1).toString ++ "." ++ (ds.drop 1).toString
    mantissa ++ (if 0 < point then "e+" else "e") ++ toString (point - 1)

/-- The shortest text of a finite double. -/
def text (x : Float) : String :=
  let bits := x.toBits
  let sign := if bits >>> 63 = 1 then "-" else ""
  let magnitude := Magnitude.ofBits bits
  if magnitude.mantissa = 0 then sign ++ "0.0"
  else
    let (d, e) := magnitude.shortest
    let (d, e) := trimZeros d e
    sign ++ layout d e

end Blockform.Decimal
