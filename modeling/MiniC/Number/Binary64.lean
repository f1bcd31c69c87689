import MiniC.Place

/-!
# Binary floating point numbers

A number is a mantissa times a power of two, or infinite. `ofDecimal` rounds a decimal to the nearest such
number, `shortest` writes the fewest digits that read back as the number, and `fixed` writes a given number
of places.
-/

namespace MiniC

/-- A floating point number with 53 bits of precision. -/
inductive Binary64 where
  | finite (negative : Bool) (mantissa : Nat) (exponent : Int)
  | infinite (negative : Bool)
  deriving DecidableEq, Repr, Inhabited

namespace Binary64

/-- A quotient, rounded to the nearest number, and to the even one of two that are equally near. -/
def roundDiv (n d : Nat) : Nat :=
  let q := n / d
  let r := 2 * (n % d)
  if d < r ∨ (r = d ∧ q % 2 = 1) then q + 1 else q

/-- A quotient of natural numbers times a power of two, as a quotient of natural numbers. -/
def scale (n d : Nat) (e : Int) : Nat × Nat :=
  if 0 ≤ e then (n <<< e.toNat, d) else (n, d <<< (-e).toNat)

def minExponent : Int := -1074

/-- The number nearest to a positive quotient. -/
def ofRatio (negative : Bool) (n d : Nat) : Binary64 :=
  if n = 0 then finite negative 0 minExponent
  else
    let guess : Int := Int.ofNat n.log2 - Int.ofNat d.log2 - 53
    let (a, b) := scale n d (-guess)
    let exact := if b <<< 53 ≤ a then guess + 1 else guess
    let e := max exact minExponent
    let (a, b) := scale n d (-e)
    let m := roundDiv a b
    let (m, e) := if m = 1 <<< 53 then (1 <<< 52, e + 1) else (m, e)
    if 971 < e then infinite negative else finite negative m e

def ofDecimal (negative : Bool) (digits : Nat) (exponent : Int) : Binary64 :=
  let size := Int.ofNat (Nat.toDigits 10 digits).length + exponent
  if digits = 0 ∨ size < -330 then finite negative 0 minExponent
  else if 330 < size then infinite negative
  else if 0 ≤ exponent then ofRatio negative (digits * Nat.pow 10 exponent.toNat) 1
  else ofRatio negative digits (Nat.pow 10 (-exponent).toNat)

/-- The value of a number without its sign, as a quotient. -/
def ratio (mantissa : Nat) (exponent : Int) : Nat × Nat := scale mantissa 1 exponent

/-- Whether a point lies among those that round to a number: halfway to the neighbours, which belong to an
even mantissa. -/
def roundsTo (mantissa : Nat) (exponent : Int) (n d : Nat) : Bool :=
  let narrow := mantissa = 1 <<< 52 ∧ minExponent < exponent
  let (lowA, lowB) := scale (if narrow then 4 * mantissa - 1 else 4 * mantissa - 2) 4 exponent
  let (highA, highB) := scale (4 * mantissa + 2) 4 exponent
  let low := compare (lowA * d) (n * lowB)
  let high := compare (n * highB) (highA * d)
  if mantissa % 2 = 0 then low != .gt && high != .gt else low == .lt && high == .lt

/-- A natural number times a power of ten, as a quotient. -/
def decimalRatio (n : Nat) (e : Int) : Nat × Nat :=
  if 0 ≤ e then (n * Nat.pow 10 e.toNat, 1) else (n, Nat.pow 10 (-e).toNat)

/-- The number of digits before the point, less one: the power of ten of the first digit. -/
def leadingPower (n d : Nat) : Int :=
  let guess := Int.ofNat (Nat.toDigits 10 n).length - Int.ofNat (Nat.toDigits 10 d).length
  let (a, b) := decimalRatio 1 guess
  if a * d ≤ n * b then guess else guess - 1

/-- The neighbour of a number with so many digits that reads back as the number, if there is one: the nearer
of two, and the even one of two that are equally near. -/
def withDigits (mantissa : Nat) (exponent : Int) (first : Int) (count : Nat) : Option (Nat × Int) :=
  let unit := first - Int.ofNat count + 1
  let (n, d) := ratio mantissa exponent
  let (a, b) := decimalRatio 1 unit
  let below := n * b / (d * a)
  let reads (k : Nat) : Bool :=
    let (x, y) := decimalRatio k unit
    roundsTo mantissa exponent x y
  let nearest := roundDiv (n * b) (d * a)
  if reads nearest then some (nearest, unit)
  else if reads below then some (below, unit)
  else if reads (below + 1) then some (below + 1, unit)
  else none

/-- The fewest digits that read back as a number that is not zero, and the power of ten of the last one. -/
def shortestDigits (mantissa : Nat) (exponent : Int) : Nat × Int :=
  let (n, d) := ratio mantissa exponent
  let first := leadingPower n d
  ((List.range 17).findSome? fun i => withDigits mantissa exponent first (i + 1)).getD (mantissa, exponent)

def dropZeros (digits : List Char) : List Char := (digits.reverse.dropWhile (· == '0')).reverse

def sign (negative : Bool) : String := if negative then "-" else ""

/-- Digits with a point in them, or with a power of ten if the first digit stands before the fourth place
after the point or from the sixteenth place before it on. -/
def layout (digits : List Char) (first : Int) : String :=
  if -4 ≤ first ∧ first < 16 then
    if first < 0 then
      "0." ++ String.ofList (List.replicate (-first - 1).toNat '0' ++ digits)
    else
      let whole := digits.take (first.toNat + 1)
      let zeros := List.replicate (first.toNat + 1 - whole.length) '0'
      let rest := digits.drop (first.toNat + 1)
      String.ofList (whole ++ zeros ++ ['.'] ++ (if rest.isEmpty then ['0'] else rest))
  else
    let power := Nat.toDigits 10 first.natAbs
    let power := if power.length < 2 then '0' :: power else power
    let mark := if first < 0 then "e-" else "e+"
    let lead := match digits with
      | [c] => [c]
      | c :: rest => c :: '.' :: rest
      | [] => []
    String.ofList lead ++ mark ++ String.ofList power

def shortest : Binary64 → String
  | infinite negative => sign negative ++ "inf"
  | finite negative m e =>
    if m = 0 then sign negative ++ "0.0"
    else
      let (digits, last) := shortestDigits m e
      let text := Nat.toDigits 10 digits
      sign negative ++ layout (dropZeros text) (last + Int.ofNat text.length - 1)

def fixed (places : Nat) : Binary64 → String
  | infinite negative => sign negative ++ "inf"
  | finite negative m e =>
    let (n, d) := ratio m e
    let text := Nat.toDigits 10 (roundDiv (n * Nat.pow 10 places) d)
    let text := List.replicate (places + 1 - text.length) '0' ++ text
    let whole := text.length - places
    sign negative ++ String.ofList (text.take whole ++ '.' :: text.drop whole)

def digitsValue (digits : List Char) : Nat := digits.foldl (fun n c => n * 10 + (c.toNat - '0'.toNat)) 0

/-- The number that a text stands for: digits, with a point and a power of ten if need be. -/
def ofText (text : String) : Binary64 :=
  let cs := text.toList
  let (negative, cs) := match cs with
    | '-' :: rest => (true, rest)
    | '+' :: rest => (false, rest)
    | _ => (false, cs)
  let isPower (c : Char) : Bool := c == 'e' || c == 'E'
  let number := cs.takeWhile fun c => !isPower c
  let power := (cs.dropWhile fun c => !isPower c).drop 1
  let whole := number.takeWhile (· != '.')
  let part := (number.dropWhile (· != '.')).drop 1
  let power : Int := match power with
    | '-' :: rest => -Int.ofNat (digitsValue rest)
    | '+' :: rest => Int.ofNat (digitsValue rest)
    | rest => Int.ofNat (digitsValue rest)
  ofDecimal negative (digitsValue (whole ++ part)) (power - Int.ofNat part.length)

end Binary64

end MiniC
