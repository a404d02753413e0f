import WalletKeys.Octets

/-!
# The SHA-2 family

One compression function over words of 32 or 64 bits gives SHA-256 and SHA-512. A `Variant` holds
what tells the two apart: the word, the round constants, the start registers and the four rotation
mixtures.
-/

namespace WalletKeys

/-- The message followed by a set bit, as many zeros as fill the last block, and its length in
bits, written by `writeLength` in `lengthSize` octets. -/
def Octets.padded (blockSize lengthSize : Nat) (writeLength : Nat → Octets)
    (message : Octets) : Octets :=
  let used := message.length + 1 + lengthSize
  let zeros := (blockSize - used % blockSize) % blockSize
  message ++ 0x80 :: List.replicate zeros 0 ++ writeLength (8 * message.length)

namespace Sha2

/-- The eight chaining words. -/
structure Registers (word : Type) where
  a : word
  b : word
  c : word
  d : word
  e : word
  f : word
  g : word
  h : word

/-- What tells one member of the family from another. -/
structure Variant (word : Type) where
  wordSize : Nat
  ofNat : Nat → word
  toNat : word → Nat
  scheduleEarly : word → word
  scheduleLate : word → word
  roundFirst : word → word
  roundFifth : word → word
  constants : List word
  start : Registers word

variable {word : Type} [Add word] [AndOp word] [XorOp word] [Complement word]

/-- Adds `count` words in front of a schedule that is held latest word first. -/
@[specialize] def extendSchedule (variant : Variant word) :
    (count : Nat) → List word → List word
  | 0, latestFirst => latestFirst
  | count + 1, latestFirst =>
      let back (count : Nat) : word := latestFirst.getD (count - 1) (variant.ofNat 0)
      let next :=
        variant.scheduleLate (back 2) + back 7 + variant.scheduleEarly (back 15) + back 16
      extendSchedule variant count (next :: latestFirst)

/-- One word for every round: the sixteen words of the block and those that follow from them. -/
@[specialize] def schedule (variant : Variant word) (block : Octets) : List word :=
  let given := (Octets.pieces variant.wordSize 16 block).map fun piece =>
    variant.ofNat (Octets.toNat piece)
  (extendSchedule variant (variant.constants.length - 16) given.reverse).reverse

/-- One round, with its constant and its word of the schedule. -/
@[specialize] def round (variant : Variant word) (registers : Registers word)
    (input : word × word) : Registers word :=
  let ⟨a, b, c, d, e, f, g, h⟩ := registers
  let choice := (e &&& f) ^^^ (~~~e &&& g)
  let majority := (a &&& b) ^^^ (a &&& c) ^^^ (b &&& c)
  let first := h + variant.roundFifth e + choice + input.1 + input.2
  let second := variant.roundFirst a + majority
  ⟨first + second, a, b, c, d + first, e, f, g⟩

/-- The registers after one block. -/
@[specialize] def compress (variant : Variant word) (before : Registers word)
    (block : Octets) : Registers word :=
  let after := (variant.constants.zip (schedule variant block)).foldl (round variant) before
  ⟨before.a + after.a, before.b + after.b, before.c + after.c, before.d + after.d,
    before.e + after.e, before.f + after.f, before.g + after.g, before.h + after.h⟩

def Registers.toBlock (variant : Variant word) (registers : Registers word) :
    Block (8 * variant.wordSize) :=
  ⟨[registers.a, registers.b, registers.c, registers.d,
      registers.e, registers.f, registers.g, registers.h].flatMap fun value =>
        Octets.ofNat variant.wordSize (variant.toNat value),
    by simp; omega⟩

/-- The digest of a message. -/
@[specialize] def digest (variant : Variant word) (message : Octets) :
    Block (8 * variant.wordSize) :=
  let blockSize := 16 * variant.wordSize
  let lengthSize := 2 * variant.wordSize
  let padded := Octets.padded blockSize lengthSize (Octets.ofNat lengthSize) message
  let blocks := Octets.pieces blockSize (padded.length / blockSize) padded
  (blocks.foldl (compress variant) variant.start).toBlock variant

end Sha2

def rotateRight32 (value : UInt32) (count : UInt32) : UInt32 :=
  (value >>> count) ||| (value <<< (32 - count))

def rotateRight64 (value : UInt64) (count : UInt64) : UInt64 :=
  (value >>> count) ||| (value <<< (64 - count))

/-- Words of 32 bits and 64 rounds. -/
def Sha2.short : Sha2.Variant UInt32 where
  wordSize := 4
  ofNat := UInt32.ofNat
  toNat := UInt32.toNat
  scheduleEarly x := rotateRight32 x 7 ^^^ rotateRight32 x 18 ^^^ (x >>> 3)
  scheduleLate x := rotateRight32 x 17 ^^^ rotateRight32 x 19 ^^^ (x >>> 10)
  roundFirst x := rotateRight32 x 2 ^^^ rotateRight32 x 13 ^^^ rotateRight32 x 22
  roundFifth x := rotateRight32 x 6 ^^^ rotateRight32 x 11 ^^^ rotateRight32 x 25
  constants := [
    0x428a2f98, 0x71374491, 0xb5c0fbcf, 0xe9b5dba5, 0x3956c25b, 0x59f111f1,
    0x923f82a4, 0xab1c5ed5, 0xd807aa98, 0x12835b01, 0x243185be, 0x550c7dc3,
    0x72be5d74, 0x80deb1fe, 0x9bdc06a7, 0xc19bf174, 0xe49b69c1, 0xefbe4786,
    0x0fc19dc6, 0x240ca1cc, 0x2de92c6f, 0x4a7484aa, 0x5cb0a9dc, 0x76f988da,
    0x983e5152, 0xa831c66d, 0xb00327c8, 0xbf597fc7, 0xc6e00bf3, 0xd5a79147,
    0x06ca6351, 0x14292967, 0x27b70a85, 0x2e1b2138, 0x4d2c6dfc, 0x53380d13,
    0x650a7354, 0x766a0abb, 0x81c2c92e, 0x92722c85, 0xa2bfe8a1, 0xa81a664b,
    0xc24b8b70, 0xc76c51a3, 0xd192e819, 0xd6990624, 0xf40e3585, 0x106aa070,
    0x19a4c116, 0x1e376c08, 0x2748774c, 0x34b0bcb5, 0x391c0cb3, 0x4ed8aa4a,
    0x5b9cca4f, 0x682e6ff3, 0x748f82ee, 0x78a5636f, 0x84c87814, 0x8cc70208,
    0x90befffa, 0xa4506ceb, 0xbef9a3f7, 0xc67178f2
  ]
  start := ⟨
    0x6a09e667, 0xbb67ae85, 0x3c6ef372, 0xa54ff53a,
    0x510e527f, 0x9b05688c, 0x1f83d9ab, 0x5be0cd19
  ⟩

/-- Words of 64 bits and 80 rounds. -/
def Sha2.long : Sha2.Variant UInt64 where
  wordSize := 8
  ofNat := UInt64.ofNat
  toNat := UInt64.toNat
  scheduleEarly x := rotateRight64 x 1 ^^^ rotateRight64 x 8 ^^^ (x >>> 7)
  scheduleLate x := rotateRight64 x 19 ^^^ rotateRight64 x 61 ^^^ (x >>> 6)
  roundFirst x := rotateRight64 x 28 ^^^ rotateRight64 x 34 ^^^ rotateRight64 x 39
  roundFifth x := rotateRight64 x 14 ^^^ rotateRight64 x 18 ^^^ rotateRight64 x 41
  constants := [
    0x428a2f98d728ae22, 0x7137449123ef65cd, 0xb5c0fbcfec4d3b2f, 0xe9b5dba58189dbbc,
    0x3956c25bf348b538, 0x59f111f1b605d019, 0x923f82a4af194f9b, 0xab1c5ed5da6d8118,
    0xd807aa98a3030242, 0x12835b0145706fbe, 0x243185be4ee4b28c, 0x550c7dc3d5ffb4e2,
    0x72be5d74f27b896f, 0x80deb1fe3b1696b1, 0x9bdc06a725c71235, 0xc19bf174cf692694,
    0xe49b69c19ef14ad2, 0xefbe4786384f25e3, 0x0fc19dc68b8cd5b5, 0x240ca1cc77ac9c65,
    0x2de92c6f592b0275, 0x4a7484aa6ea6e483, 0x5cb0a9dcbd41fbd4, 0x76f988da831153b5,
    0x983e5152ee66dfab, 0xa831c66d2db43210, 0xb00327c898fb213f, 0xbf597fc7beef0ee4,
    0xc6e00bf33da88fc2, 0xd5a79147930aa725, 0x06ca6351e003826f, 0x142929670a0e6e70,
    0x27b70a8546d22ffc, 0x2e1b21385c26c926, 0x4d2c6dfc5ac42aed, 0x53380d139d95b3df,
    0x650a73548baf63de, 0x766a0abb3c77b2a8, 0x81c2c92e47edaee6, 0x92722c851482353b,
    0xa2bfe8a14cf10364, 0xa81a664bbc423001, 0xc24b8b70d0f89791, 0xc76c51a30654be30,
    0xd192e819d6ef5218, 0xd69906245565a910, 0xf40e35855771202a, 0x106aa07032bbd1b8,
    0x19a4c116b8d2d0c8, 0x1e376c085141ab53, 0x2748774cdf8eeb99, 0x34b0bcb5e19b48a8,
    0x391c0cb3c5c95a63, 0x4ed8aa4ae3418acb, 0x5b9cca4f7763e373, 0x682e6ff3d6b2b8a3,
    0x748f82ee5defb2fc, 0x78a5636f43172f60, 0x84c87814a1f0ab72, 0x8cc702081a6439ec,
    0x90befffa23631e28, 0xa4506cebde82bde9, 0xbef9a3f7b2c67915, 0xc67178f2e372532b,
    0xca273eceea26619c, 0xd186b8c721c0c207, 0xeada7dd6cde0eb1e, 0xf57d4f7fee6ed178,
    0x06f067aa72176fba, 0x0a637dc5a2c898a6, 0x113f9804bef90dae, 0x1b710b35131c471b,
    0x28db77f523047d84, 0x32caab7b40c72493, 0x3c9ebe0a15c9bebc, 0x431d67c49c100d4c,
    0x4cc5d4becb3e42b6, 0x597f299cfc657e2a, 0x5fcb6fab3ad6faec, 0x6c44198c4a475817
  ]
  start := ⟨
    0x6a09e667f3bcc908, 0xbb67ae8584caa73b, 0x3c6ef372fe94f82b, 0xa54ff53a5f1d36f1,
    0x510e527fade682d1, 0x9b05688c2b3e6c1f, 0x1f83d9abfb41bd6b, 0x5be0cd19137e2179
  ⟩

def sha256 (message : Octets) : Block 32 :=
  Sha2.digest Sha2.short message

def sha512 (message : Octets) : Block 64 :=
  Sha2.digest Sha2.long message

end WalletKeys
