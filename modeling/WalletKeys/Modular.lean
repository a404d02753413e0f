/-!
# Arithmetic modulo a number

Operands are residues below the modulus, and so are results. Inverse and square root are powers:
they are right when the modulus is prime, and for the root when it is three modulo four.
-/

namespace WalletKeys

def bitLength (number : Nat) : Nat :=
  if number = 0 then 0 else number.log2 + 1

namespace Modular

def add (left right modulus : Nat) : Nat :=
  (left + right) % modulus

def sub (left right modulus : Nat) : Nat :=
  if right ≤ left then left - right else modulus - (right - left)

def mul (left right modulus : Nat) : Nat :=
  left * right % modulus

def neg (residue modulus : Nat) : Nat :=
  if residue = 0 then 0 else modulus - residue

/-- Continues a power through the lowest `count` digits of the exponent, highest first. -/
def powDigits (base exponent modulus : Nat) : (count : Nat) → (power : Nat) → Nat
  | 0, power => power
  | count + 1, power =>
      let square := mul power power modulus
      powDigits base exponent modulus count
        (if exponent.testBit count then mul square base modulus else square)

/-- The residue of `base ^ exponent`, by squaring along the digits of the exponent. -/
def pow (base exponent modulus : Nat) : Nat :=
  powDigits base exponent modulus (bitLength exponent) (1 % modulus)

/-- The inverse of a residue modulo a prime, by Fermat's little theorem; zero for zero. -/
def inverse (residue modulus : Nat) : Nat :=
  pow residue (modulus - 2) modulus

/-- A square root modulo a prime that is three modulo four, if there is one. -/
def sqrt? (residue modulus : Nat) : Option Nat :=
  let root := pow residue ((modulus + 1) >>> 2) modulus
  if mul root root modulus = residue % modulus then some root else none

end Modular

end WalletKeys
