/-! The eight-bit cyclic redundancy check that closes every message: reflected polynomial `0x8C`,
initial value zero, no final inversion. -/

namespace KnitBench.Wire.Checksum

/-- The reflected generator polynomial. -/
def polynomial : UInt8 := 0x8C

/-- Divides one bit out of the remainder. -/
def shift (remainder : UInt8) : UInt8 :=
  if remainder &&& 1 = 1 then (remainder >>> 1) ^^^ polynomial else remainder >>> 1

/-- Divides `n` bits out of the remainder. -/
def shifts : Nat → UInt8 → UInt8
  | 0, remainder => remainder
  | n + 1, remainder => shifts n (shift remainder)

/-- Takes one byte into the remainder, its lowest bit first. -/
def absorb (remainder byte : UInt8) : UInt8 :=
  shifts 8 (remainder ^^^ byte)

end Checksum

/-- The check byte of a body. -/
def checksum (body : List UInt8) : UInt8 :=
  body.foldl Checksum.absorb 0

@[simp] theorem checksum_nil : checksum [] = 0 := rfl

@[simp] theorem checksum_concat (body : List UInt8) (b : UInt8) :
    checksum (body ++ [b]) = Checksum.absorb (checksum body) b := by
  simp [checksum]

end KnitBench.Wire
