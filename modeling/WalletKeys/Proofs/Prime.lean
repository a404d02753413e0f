import Mathlib.Data.List.Prime
import Mathlib.NumberTheory.LucasPrimality
import Mathlib.Tactic.NormNum.Prime
import WalletKeys.Proofs.Residue
import WalletKeys.Secp256k1.Field

/-!
# The two moduli are prime

A number is prime if some base has its predecessor as order, and the order is
read off the prime factors of the predecessor. A list of such certificates,
smaller numbers first, is worked through from primes that are small enough to
be divided out; every number that it admits is prime
(`prime_of_mem_primesFrom`). The field prime and the group order are among
them.
-/

namespace WalletKeys

/-- A number with the prime factors of its predecessor, repeated ones too, and
a base whose order is to be the predecessor. -/
structure LucasCertificate where
  number : ℕ
  base : ℕ
  factors : List ℕ

namespace LucasCertificate

/-- The factors are known and complete, and the order of the base is that of a
primitive root. -/
def isValid (known : List ℕ) (certificate : LucasCertificate) : Bool :=
  let order := certificate.number - 1
  let power := fun exponent =>
    Modular.pow certificate.base exponent certificate.number
  decide (1 < certificate.number) &&
    certificate.factors.all known.contains &&
    certificate.factors.prod == order &&
    power order == 1 &&
    certificate.factors.all fun factor => power (order / factor) != 1

theorem pow_eq_one_iff {base exponent modulus : ℕ} (large : 1 < modulus) :
    Modular.pow base exponent modulus = 1 ↔
      (base : ZMod modulus) ^ exponent = 1 := by
  rw [Modular.pow_eq, ← Nat.cast_pow, ← Nat.cast_one (R := ZMod modulus),
    ZMod.natCast_eq_natCast_iff', Nat.mod_eq_of_lt large]

/-- A number with a valid certificate is prime. -/
theorem prime_of_isValid {known : List ℕ} {certificate : LucasCertificate}
    (knownPrime : ∀ factor ∈ known, factor.Prime)
    (valid : certificate.isValid known) :
    certificate.number.Prime := by
  simp only [isValid, Bool.and_eq_true, decide_eq_true_eq, List.all_eq_true,
    List.contains_iff_mem, beq_iff_eq, bne_iff_ne] at valid
  obtain ⟨⟨⟨⟨large, factorsKnown⟩, complete⟩, fullPower⟩, partialPowers⟩ :=
    valid
  apply lucas_primality certificate.number (certificate.base : ZMod _)
  · exact (pow_eq_one_iff large).mp fullPower
  · intro divisor divisorPrime divides power
    rw [← complete] at divides
    obtain ⟨factor, factorMember, dividesFactor⟩ :=
      (Prime.dvd_prod_iff divisorPrime.prime).mp divides
    have factorPrime : factor.Prime :=
      knownPrime factor (factorsKnown factor factorMember)
    have same : divisor = factor :=
      (Nat.prime_dvd_prime_iff_eq divisorPrime factorPrime).mp dividesFactor
    apply partialPowers factor factorMember
    rw [← same]
    exact (pow_eq_one_iff large).mpr power

/-- The known primes together with the numbers that the certificates admit,
each of which may use the ones before it. -/
def primesFrom (known : List ℕ) : List LucasCertificate → List ℕ
  | [] => known
  | certificate :: rest =>
      primesFrom
        (if certificate.isValid known then certificate.number :: known
        else known)
        rest

theorem prime_of_mem_primesFrom
    {known : List ℕ} {certificates : List LucasCertificate}
    (knownPrime : ∀ number ∈ known, number.Prime) :
    ∀ number ∈ primesFrom known certificates, number.Prime := by
  induction certificates generalizing known with
  | nil =>
      exact knownPrime
  | cons certificate rest inductionHypothesis =>
      apply inductionHypothesis
      split
      · next valid =>
          intro number member
          rcases List.mem_cons.mp member with equal | older
          · rw [equal]
            exact prime_of_isValid knownPrime valid
          · exact knownPrime number older
      · exact knownPrime

end LucasCertificate

namespace Secp256k1

/-- Primes that the certificates start from. -/
def smallPrimes : List ℕ :=
  [2, 3, 5, 7, 11, 17, 29, 31, 41, 53, 59, 97, 109, 149, 293, 461, 631, 797,
    971, 1373, 1627, 1871, 2011, 2621, 2657, 4051, 4423, 5323, 7723, 9349,
    13441, 16699, 20113, 24809, 28181, 41201, 85831, 96557, 120233, 305873]

theorem prime_of_mem_smallPrimes :
    ∀ number ∈ smallPrimes, number.Prime := by
  simp only [smallPrimes, List.forall_mem_cons]
  norm_num

/-- Certificates that lead to the field prime. -/
def fieldCertificates : List LucasCertificate :=
  [⟨1206781, 10, [2, 2, 3, 5, 20113]⟩,
    ⟨7240687, 3, [2, 3, 1206781]⟩,
    ⟨13331831, 13, [2, 5, 971, 1373]⟩,
    ⟨107590001, 3, [2, 2, 2, 2, 5, 5, 5, 5, 7, 29, 53]⟩,
    ⟨173378833005251801, 6, [2, 2, 2, 5, 5, 2621, 24809, 13331831]⟩,
    ⟨22149492674086928081353, 5, [2, 2, 2, 3, 5323, 173378833005251801]⟩,
    ⟨132896956044521568488119, 6, [2, 3, 22149492674086928081353]⟩,
    ⟨255515944373312847190720520512484175977, 3,
      [2, 2, 2, 7, 7, 11, 1627, 2657, 4423, 41201, 96557, 7240687,
        107590001]⟩,
    ⟨205115282021455665897114700593932402728804164701536103180137503955397371,
      10,
      [2, 3, 5, 29, 29, 31, 7723, 132896956044521568488119,
        255515944373312847190720520512484175977]⟩,
    ⟨fieldPrime, 3,
      [2, 3, 7, 13441,
        205115282021455665897114700593932402728804164701536103180137503955397371]⟩]

/-- Certificates that lead to the group order. -/
def orderCertificates : List LucasCertificate :=
  [⟨1627771, 3, [2, 3, 5, 29, 1871]⟩,
    ⟨4681609, 23, [2, 2, 2, 3, 97, 2011]⟩,
    ⟨44706919, 6, [2, 3, 797, 9349]⟩,
    ⟨545358713, 5, [2, 2, 2, 41, 59, 28181]⟩,
    ⟨297159362677, 2, [2, 2, 3, 3, 11, 461, 1627771]⟩,
    ⟨107361793816595537, 3, [2, 2, 2, 2, 16699, 85831, 4681609]⟩,
    ⟨174723607534414371449, 3, [2, 2, 2, 17, 59, 4051, 120233, 44706919]⟩,
    ⟨29047611873442575647497758179, 2,
      [2, 293, 305873, 545358713, 297159362677]⟩,
    ⟨341948486974166000522343609283189, 2,
      [2, 2, 3, 3, 3, 109, 29047611873442575647497758179]⟩,
    ⟨groupOrder, 7,
      [2, 2, 2, 2, 2, 2, 3, 149, 631, 107361793816595537,
        174723607534414371449, 341948486974166000522343609283189]⟩]

theorem prime_fieldPrime : fieldPrime.Prime := by
  have admitted :
      fieldPrime ∈
        LucasCertificate.primesFrom smallPrimes fieldCertificates := by
    decide +kernel
  exact
    LucasCertificate.prime_of_mem_primesFrom
      prime_of_mem_smallPrimes fieldPrime admitted

theorem prime_groupOrder : groupOrder.Prime := by
  have admitted :
      groupOrder ∈
        LucasCertificate.primesFrom smallPrimes orderCertificates := by
    decide +kernel
  exact
    LucasCertificate.prime_of_mem_primesFrom
      prime_of_mem_smallPrimes groupOrder admitted

instance : Fact fieldPrime.Prime :=
  ⟨prime_fieldPrime⟩

instance : Fact groupOrder.Prime :=
  ⟨prime_groupOrder⟩

end Secp256k1

end WalletKeys
