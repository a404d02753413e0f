import WalletKeys.Digest.Sha2

/-!
# Keccak-256

The sponge of rate 136 over twenty-five lanes of 64 bits. The message is closed by a single set bit
before the filling, which is what tells this digest from SHA3-256.
-/

namespace WalletKeys

namespace Keccak

/-- Twenty-five lanes; the lane of column `x` and row `y` stands at `x + 5 * y`. -/
abbrev Lanes := Vector UInt64 25

/-- The lane of a column and a row, both taken modulo five. -/
def lane (lanes : Lanes) (x y : Nat) : UInt64 :=
  lanes.get ⟨x % 5 + 5 * (y % 5), by omega⟩

/-- The state whose lane at column `x` and row `y` is given. -/
def ofColumnsRows (value : (x y : Nat) → UInt64) : Lanes :=
  Vector.ofFn fun place => value (place.val % 5) (place.val / 5)

/-- How far each lane is rotated, in the order of the lanes. -/
def offsets : Vector UInt64 25 :=
  #v[
    0, 1, 62, 28, 27,
    36, 44, 6, 55, 20,
    3, 10, 43, 25, 39,
    41, 45, 15, 21, 8,
    18, 2, 61, 56, 14]

def roundConstants : List UInt64 := [
    0x0000000000000001, 0x0000000000008082, 0x800000000000808a, 0x8000000080008000,
    0x000000000000808b, 0x0000000080000001, 0x8000000080008081, 0x8000000000008009,
    0x000000000000008a, 0x0000000000000088, 0x0000000080008009, 0x000000008000000a,
    0x000000008000808b, 0x800000000000008b, 0x8000000000008089, 0x8000000000008003,
    0x8000000000008002, 0x8000000000000080, 0x000000000000800a, 0x800000008000000a,
    0x8000000080008081, 0x8000000000008080, 0x0000000080000001, 0x8000000080008008]

def rotateLeft (value count : UInt64) : UInt64 :=
  (value <<< count) ||| (value >>> (64 - count))

/-- Adds to each lane the parities of the two neighbouring columns. -/
def theta (lanes : Lanes) : Lanes :=
  let parities : Vector UInt64 5 := Vector.ofFn fun x =>
    lane lanes x 0 ^^^ lane lanes x 1 ^^^ lane lanes x 2 ^^^ lane lanes x 3 ^^^ lane lanes x 4
  let parity (x : Nat) : UInt64 := parities.get ⟨x % 5, by omega⟩
  ofColumnsRows fun x y => lane lanes x y ^^^ parity (x + 4) ^^^ rotateLeft (parity (x + 1)) 1

/-- Rotates each lane by its own offset. -/
def rho (lanes : Lanes) : Lanes :=
  Vector.zipWith rotateLeft lanes offsets

/-- Moves the lanes to their new places. -/
def pi (lanes : Lanes) : Lanes :=
  ofColumnsRows fun x y => lane lanes (x + 3 * y) x

/-- Mixes each lane with the next two of its row. -/
def chi (lanes : Lanes) : Lanes :=
  ofColumnsRows fun x y => lane lanes x y ^^^ (~~~lane lanes (x + 1) y &&& lane lanes (x + 2) y)

/-- Adds the constant of the round to the first lane. -/
def iota (constant : UInt64) (lanes : Lanes) : Lanes :=
  lanes.set 0 (lane lanes 0 0 ^^^ constant)

def permute (lanes : Lanes) : Lanes :=
  roundConstants.foldl (fun lanes constant => iota constant (chi (pi (rho (theta lanes))))) lanes

/-- Octets taken in between two permutations. -/
def rate : Nat := 136

/-- The message followed by one set bit, zeros, and a set bit that ends the last block. -/
def padded (message : Octets) : Octets :=
  let room := rate - message.length % rate
  message ++ if room = 1 then [0x81] else 0x01 :: List.replicate (room - 2) 0 ++ [0x80]

/-- Adds one block to the first lanes and permutes. -/
def absorb (lanes : Lanes) (block : Octets) : Lanes :=
  let added := (Octets.pieces 8 (rate / 8) block).map fun piece =>
    UInt64.ofNat (Octets.toNat piece.reverse)
  permute (Vector.ofFn fun place => lanes[place] ^^^ added.getD place.val 0)

end Keccak

def keccak256 (message : Octets) : Block 32 :=
  let padded := Keccak.padded message
  let blocks := Octets.pieces Keccak.rate (padded.length / Keccak.rate) padded
  let last := blocks.foldl Keccak.absorb (Vector.replicate 25 0)
  ⟨[Keccak.lane last 0 0, Keccak.lane last 1 0, Keccak.lane last 2 0,
      Keccak.lane last 3 0].flatMap fun value => Octets.ofNatReversed 8 value.toNat,
    by simp⟩

end WalletKeys
