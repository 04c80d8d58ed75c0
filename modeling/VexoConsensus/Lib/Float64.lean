import VexoConsensus.Lib.TextCodec

namespace Float64

open ByteCodec

-- A finite double that is not negative, as a multiple of the smallest one.
abbrev Double := Nat

def one : Double := 2 ^ 1074

def halfEven (numerator denominator : Nat) : Nat :=
  let quotient := numerator / denominator
  let twice := 2 * (numerator % denominator)
  if twice < denominator then quotient
  else if denominator < twice then quotient + 1
  else quotient + quotient % 2

-- The double nearest to a ratio of smallest doubles: 53 significant bits, ties to even.
def nearest (numerator denominator : Nat) : Double :=
  let excess := (numerator / denominator).log2 + 1 - 53
  halfEven numerator (denominator * 2 ^ excess) * 2 ^ excess

def ofNat (number : Nat) : Double := nearest (number * one) 1

def sub (left right : Double) : Double := nearest (left - right) 1

def mul (left right : Double) : Double := nearest (left * right) one

def truncate (double : Double) : Nat := double / one

structure Parsed where
  negative : Bool
  double : Double

variable (text : Bytes)

def signed : Bool × Bytes :=
  match text with
  | 45 :: rest => (true, rest)
  | 43 :: rest => (false, rest)
  | _ => (false, text)

-- The digits of an exponent, with the power of ten they stand for on either side of the fraction bar.
def scale : Option (Nat × Nat) :=
  match text with
  | [] => some (1, 1)
  | mark :: rest =>
    let (negative, digits) := signed rest
    if (mark = 101 ∨ mark = 69) ∧ digits ≠ [] ∧ digits.all Decimal.isDigit then
      let power := 10 ^ Decimal.value digits
      some (if negative then (1, power) else (power, 1))
    else none

-- strconv.ParseFloat of a decimal literal; hexadecimal literals, infinities and NaN are left out.
def parseFloat : Option Parsed :=
  let (negative, rest) := signed text
  let whole := rest.takeWhile Decimal.isDigit
  let rest := rest.dropWhile Decimal.isDigit
  let (fraction, rest) := match rest with
    | 46 :: rest => (rest.takeWhile Decimal.isDigit, rest.dropWhile Decimal.isDigit)
    | _ => ([], rest)
  if whole ++ fraction = [] then none
  else (scale rest).map fun (up, down) =>
    ⟨negative, nearest (Decimal.value (whole ++ fraction) * up * one) (10 ^ fraction.length * down)⟩

example : truncate (mul (ofNat 100) (sub one (nearest (5 * one) 100))) = 95 := by decide +kernel

end Float64
