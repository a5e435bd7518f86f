import KnitBench.Needle

/-! The bitmap of a line: one bit for each needle, lowest bit first. -/

namespace KnitBench

/-- The bytes of a bitmap. -/
def LineBitmap.size : Nat := 25

/-- The needles that a line selects, eight to a byte. -/
abbrev LineBitmap := Vector UInt8 LineBitmap.size

namespace LineBitmap

/-- Whether bytes select needle `k`. Bits that are not there are clear. -/
def bitAt (bytes : Array UInt8) (k : Nat) : Bool :=
  (bytes[k / 8]?).any fun b => b.toNat.testBit (k % 8)

/-- The byte whose bit `i` is `bits i`. -/
def byteOf (bits : Nat → Bool) : UInt8 :=
  (List.range 8).foldl
    (fun b i => if bits i then b ||| (1 : UInt8) <<< UInt8.ofNat i else b) 0

/-- Whether a row of cells, repeated from `start` to `stop`, selects needle `k`. -/
def wants (cells : Array Needle) (start stop k : Nat) : Bool :=
  decide (start ≤ k ∧ k ≤ stop) && cells[(k - start) % cells.size]? == some .selected

/-- The bitmap of a row of cells repeated from `start` to `stop`. No cells select no needle. -/
def ofCells (cells : Array Needle) (start stop : Nat) : LineBitmap :=
  Vector.ofFn fun i => byteOf fun j => wants cells start stop (8 * i + j)

/-- No needle selected. -/
def blank : LineBitmap := Vector.replicate _ 0

/-- Whether the line selects needle `k`. -/
def selects (b : LineBitmap) (k : Nat) : Bool := bitAt b.toArray k

/-- The first 25 bytes of a payload, if there are so many. -/
def ofBytes? (bytes : List UInt8) : Option LineBitmap :=
  let front := (bytes.take size).toArray
  if h : front.size = size then some ⟨front, h⟩ else none

/-- The number of needles that bytes select. -/
def count (bytes : List UInt8) : Nat :=
  let a := bytes.toArray
  ((List.range (8 * bytes.length)).filter (bitAt a)).length

end LineBitmap

end KnitBench
