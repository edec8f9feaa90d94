/-!
# Amounts

Integers and floating-point numbers as they are compared with each other: exactly, as an integer
times a power of two.  Infinity is beyond every amount, and what is no number has no place among
them.
-/

namespace Interlock

/-- A number: a mantissa times a power of two, an infinity, or no number at all. -/
inductive Amount where
  | finite (mantissa exponent : Int)
  | infinite (negative : Bool)
  | undefined
  deriving DecidableEq, Repr

namespace Amount

/-- The amount of an integer. -/
def ofInt (value : Int) : Amount := finite value 0

/-- The bit in front of the fraction that a floating-point number leaves out. -/
def hiddenBit : Nat := 0x10000000000000

/-- The amount that the bits of a floating-point number stand for. -/
def ofFloat (value : Float) : Amount :=
  let bits := value.toBits.toNat
  let negative := 0x8000000000000000 ≤ bits
  let exponent : Nat := bits / hiddenBit % 0x800
  let fraction : Nat := bits % hiddenBit
  let signed (mantissa : Nat) : Int := if negative then -mantissa else mantissa
  if exponent = 0x7ff then if fraction = 0 then infinite negative else undefined
  else if exponent = 0 then finite (signed fraction) (-1074)
  else finite (signed (hiddenBit + fraction)) (exponent - 1075)

/-- How two amounts compare, if both are numbers. -/
def compare? : Amount → Amount → Option Ordering
  | finite left leftExponent, finite right rightExponent =>
      let least := min leftExponent rightExponent
      let scaled (mantissa exponent : Int) : Int :=
        mantissa * ((1 <<< (exponent - least).toNat : Nat) : Int)
      some (compare (scaled left leftExponent) (scaled right rightExponent))
  | infinite left, infinite right => some (compare right left)
  | infinite negative, finite _ _ => some (if negative then .lt else .gt)
  | finite _ _, infinite negative => some (if negative then .gt else .lt)
  | _, _ => none

end Amount

end Interlock
