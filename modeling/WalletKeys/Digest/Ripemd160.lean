import WalletKeys.Digest.Sha2

/-!
# RIPEMD-160

Two lines of five passes run side by side over every block, each with an order of words, rotation
counts and constants of its own. The lines meet when the block ends.
-/

namespace WalletKeys

namespace Ripemd160

/-- The five chaining words. -/
structure Registers where
  a : UInt32
  b : UInt32
  c : UInt32
  d : UInt32
  e : UInt32
  deriving DecidableEq, Repr

/-- Sixteen steps of one line: how three words mix, the constant, and for each step the word of the
block that is taken and the rotation count. -/
structure Pass where
  mix : UInt32 → UInt32 → UInt32 → UInt32
  constant : UInt32
  order : List Nat
  turns : List UInt32

def parity (x y z : UInt32) : UInt32 := x ^^^ y ^^^ z

def choice (x y z : UInt32) : UInt32 := (x &&& y) ||| (~~~x &&& z)

def orNot (x y z : UInt32) : UInt32 := (x ||| ~~~y) ^^^ z

def choiceLast (x y z : UInt32) : UInt32 := (x &&& z) ||| (y &&& ~~~z)

def orNotLast (x y z : UInt32) : UInt32 := x ^^^ (y ||| ~~~z)

def leftLine : List Pass := [
  ⟨parity, 0x00000000,
    [0, 1, 2, 3, 4, 5, 6, 7, 8, 9, 10, 11, 12, 13, 14, 15],
    [11, 14, 15, 12, 5, 8, 7, 9, 11, 13, 14, 15, 6, 7, 9, 8]⟩,
  ⟨choice, 0x5a827999,
    [7, 4, 13, 1, 10, 6, 15, 3, 12, 0, 9, 5, 2, 14, 11, 8],
    [7, 6, 8, 13, 11, 9, 7, 15, 7, 12, 15, 9, 11, 7, 13, 12]⟩,
  ⟨orNot, 0x6ed9eba1,
    [3, 10, 14, 4, 9, 15, 8, 1, 2, 7, 0, 6, 13, 11, 5, 12],
    [11, 13, 6, 7, 14, 9, 13, 15, 14, 8, 13, 6, 5, 12, 7, 5]⟩,
  ⟨choiceLast, 0x8f1bbcdc,
    [1, 9, 11, 10, 0, 8, 12, 4, 13, 3, 7, 15, 14, 5, 6, 2],
    [11, 12, 14, 15, 14, 15, 9, 8, 9, 14, 5, 6, 8, 6, 5, 12]⟩,
  ⟨orNotLast, 0xa953fd4e,
    [4, 0, 5, 9, 7, 12, 2, 10, 14, 1, 3, 8, 11, 6, 15, 13],
    [9, 15, 5, 11, 6, 8, 13, 12, 5, 12, 13, 14, 11, 8, 5, 6]⟩]

def rightLine : List Pass := [
  ⟨orNotLast, 0x50a28be6,
    [5, 14, 7, 0, 9, 2, 11, 4, 13, 6, 15, 8, 1, 10, 3, 12],
    [8, 9, 9, 11, 13, 15, 15, 5, 7, 7, 8, 11, 14, 14, 12, 6]⟩,
  ⟨choiceLast, 0x5c4dd124,
    [6, 11, 3, 7, 0, 13, 5, 10, 14, 15, 8, 12, 4, 9, 1, 2],
    [9, 13, 15, 7, 12, 8, 9, 11, 7, 7, 12, 7, 6, 15, 13, 11]⟩,
  ⟨orNot, 0x6d703ef3,
    [15, 5, 1, 3, 7, 14, 6, 9, 11, 8, 12, 2, 10, 0, 4, 13],
    [9, 7, 15, 11, 8, 6, 6, 14, 12, 13, 5, 14, 13, 13, 7, 5]⟩,
  ⟨choice, 0x7a6d76e9,
    [8, 6, 4, 1, 3, 11, 15, 0, 5, 12, 2, 13, 9, 7, 10, 14],
    [15, 5, 8, 11, 14, 14, 6, 14, 6, 9, 12, 9, 12, 5, 15, 8]⟩,
  ⟨parity, 0x00000000,
    [12, 15, 10, 4, 1, 5, 8, 7, 6, 2, 13, 14, 0, 3, 9, 11],
    [8, 5, 12, 9, 12, 5, 14, 6, 8, 13, 6, 5, 15, 13, 11, 11]⟩]

def step (pass : Pass) (words : List UInt32) (registers : Registers)
    (place : Nat × UInt32) : Registers :=
  let ⟨a, b, c, d, e⟩ := registers
  let sum := a + pass.mix b c d + words.getD place.1 0 + pass.constant
  ⟨e, rotateRight32 sum (32 - place.2) + e, b, rotateRight32 c 22, d⟩

def runLine (line : List Pass) (words : List UInt32) (registers : Registers) : Registers :=
  line.foldl (fun registers pass =>
    (pass.order.zip pass.turns).foldl (step pass words) registers) registers

def compress (before : Registers) (block : Octets) : Registers :=
  let words := (Octets.pieces 4 16 block).map fun piece =>
    UInt32.ofNat (Octets.toNat piece.reverse)
  let left := runLine leftLine words before
  let right := runLine rightLine words before
  ⟨before.b + left.c + right.d, before.c + left.d + right.e, before.d + left.e + right.a,
    before.e + left.a + right.b, before.a + left.b + right.c⟩

def start : Registers :=
  ⟨0x67452301, 0xefcdab89, 0x98badcfe, 0x10325476, 0xc3d2e1f0⟩

end Ripemd160

def ripemd160 (message : Octets) : Block 20 :=
  let padded := Octets.padded 64 8 (Octets.ofNatReversed 8) message
  let last := (Octets.pieces 64 (padded.length / 64) padded).foldl
    Ripemd160.compress Ripemd160.start
  ⟨[last.a, last.b, last.c, last.d, last.e].flatMap fun word =>
      Octets.ofNatReversed 4 word.toNat,
    by simp⟩

end WalletKeys
