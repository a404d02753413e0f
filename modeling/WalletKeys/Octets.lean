/-!
# Octet strings

Every codec of this library reads and writes octet strings. A number is written most significant
octet first unless a format asks for the reverse, and in exactly as many octets as the format has
for it (`length_ofNat`, `length_ofNatReversed`).
-/

namespace WalletKeys

/-- A string of octets of any length. -/
abbrev Octets := List UInt8

namespace Octets

/-- The number written by an octet string, most significant octet first. -/
def toNat : Octets → Nat :=
  List.foldl (fun number octet => number * 256 + octet.toNat) 0

/-- The low `width` octets of a number, most significant first. Higher octets are dropped. -/
def ofNat : (width : Nat) → Nat → Octets
  | 0, _ => []
  | width + 1, number => UInt8.ofNat (number >>> (8 * width)) :: ofNat width number

@[simp] theorem length_ofNat (width number : Nat) : (ofNat width number).length = width := by
  induction width with
  | zero => rfl
  | succ width ih => simp [ofNat, ih]

@[simp] theorem toNat_nil : toNat [] = 0 := rfl

/-- The low `width` octets of a number, least significant first. -/
def ofNatReversed (width number : Nat) : Octets :=
  (ofNat width number).reverse

@[simp] theorem length_ofNatReversed (width number : Nat) :
    (ofNatReversed width number).length = width := by
  simp [ofNatReversed]

def ofText (text : String) : Octets :=
  text.toList.flatMap String.utf8EncodeChar

/-- The first `count` pieces of `size` octets each, in order. -/
def pieces (size : Nat) : (count : Nat) → Octets → List Octets
  | 0, _ => []
  | count + 1, octets => octets.take size :: pieces size count (octets.drop size)

end Octets

/-- An octet string of exactly `size` octets. -/
structure Block (size : Nat) where
  octets : Octets
  length_eq : octets.length = size
  deriving DecidableEq, Repr

namespace Block

variable {size : Nat}

@[simp] theorem length_octets (block : Block size) : block.octets.length = size :=
  block.length_eq

/-- The block whose octets are given, if there are as many as the block holds. -/
def ofOctets? (size : Nat) (octets : Octets) : Option (Block size) :=
  if h : octets.length = size then some ⟨octets, h⟩ else none

def ofNat (size number : Nat) : Block size :=
  ⟨Octets.ofNat size number, Octets.length_ofNat size number⟩

def toNat (block : Block size) : Nat :=
  Octets.toNat block.octets

def front {left right : Nat} (block : Block (left + right)) : Block left :=
  ⟨block.octets.take left, by simp⟩

def back {left right : Nat} (block : Block (left + right)) : Block right :=
  ⟨block.octets.drop left, by simp⟩

instance : Inhabited (Block size) :=
  ⟨ofNat size 0⟩

end Block

end WalletKeys
