/-!
Contract: doubles taken apart into a sign and a magnitude word, in exact integers.

Owns:
- the sign and the magnitude word of a double, and the double made of them;
- the value of a finite magnitude as a multiple of the least positive double, 2 ^ -1074.

Does not own: rounding; see `Number/Nearest`.

The magnitude word is the bit pattern below the sign bit. Among finite doubles and infinity it
is ordered as the magnitudes are, and the words of finite doubles are those below
`infinityWord`.
-/

namespace PocketCalc.Number

/-- The magnitude word of infinity: all exponent bits set, all fraction bits clear. -/
def infinityWord : Nat := 0x7ff0000000000000

/-- The one value that is not a number. -/
def notANumber : Float := Float.ofBits 0x7ff8000000000000

/-- The bits of a double below the sign bit. -/
def magnitudeWord (value : Float) : Nat := value.toBits.toNat % 0x8000000000000000

/-- Whether the sign bit is set; it is so for minus zero too. -/
def isNegative (value : Float) : Bool := 0x8000000000000000 ≤ value.toBits.toNat

/-- Whether the double is neither an infinity nor the value that is not a number. -/
def isFinite (value : Float) : Bool := magnitudeWord value < infinityWord

/-- The double with the given sign and magnitude word. -/
def ofMagnitude (negative : Bool) (word : Nat) : Float :=
  Float.ofBits (UInt64.ofNat (word + if negative then 0x8000000000000000 else 0))

/-- The significand of a finite magnitude: below 2 ^ 52 for a subnormal word, and from there to
2 ^ 53 for a normal one. -/
def significand (word : Nat) : Nat :=
  if word < 0x10000000000000 then word else 0x10000000000000 + word % 0x10000000000000

/-- How often the significand is doubled, counted from the least positive double. -/
def doublings (word : Nat) : Nat := word / 0x10000000000000 - 1

/-- A finite magnitude as a multiple of 2 ^ -1074. -/
def units (word : Nat) : Nat := significand word * Nat.pow 2 (doublings word)

/-- How many of the units in `units` make one. -/
def unitsPerOne : Nat := Nat.pow 2 1074

end PocketCalc.Number
