import Throttle.Binary64.Basic

/-!
# The 64-bit interchange form

One sign bit, eleven bits of exponent biased by 1023 and 52 bits of fraction. An exponent field of
2047 holds the infinities and the not-a-number, one of 0 the zeros and the subnormal values.
-/

set_option autoImplicit false

namespace Throttle.Binary64

/-- The bit of a significand that normal values leave out, which is also the lowest bit of the
exponent field: 2^52. -/
def hiddenBit : Nat := 4503599627370496

/-- The sign bit, 2^63. -/
def signBit : Nat := 9223372036854775808

/-- The bits below the sign of a positive finite magnitude: subnormal values have no hidden bit. -/
def magnitudeBits (q : Rat) : Nat :=
  let place := placeExponent q
  let significand := (nearestInt (q / 2 ^ place)).natAbs
  if significand < hiddenBit then significand
  else (place + 1075).toNat * hiddenBit + (significand - hiddenBit)

/-- The word that encodes a value; every not-a-number has the same one. -/
def toBits (x : Binary64) : UInt64 :=
  let sign : Nat := if x.isNegative then signBit else 0
  match x with
  | nan => 0x7ff8000000000000
  | infinity _ => UInt64.ofNat (sign + 2047 * hiddenBit)
  | negZero => UInt64.ofNat sign
  | finite q _ => if q = 0 then 0 else UInt64.ofNat (sign + magnitudeBits q)

def ofBits (word : UInt64) : Binary64 :=
  let negative := word.toNat / signBit = 1
  let field : Nat := word.toNat / hiddenBit % 2048
  let fraction : Nat := word.toNat % hiddenBit
  let sign : Rat := if negative then -1 else 1
  if field = 2047 then
    if fraction = 0 then infinity negative else nan
  else if field = 0 then
    signed negative (sign * fraction * 2 ^ (-1074 : Int))
  else
    ofRat (sign * (hiddenBit + fraction) * 2 ^ ((field : Int) - 1075))

end Throttle.Binary64
