import WalletKeys.Proofs.Codec.BurstErrors
import WalletKeys.Proofs.Codec.CashAddr

/-!
# CashAddr bodies belong to one tag

A tag is in a CashAddr body only by the remainder that its symbols leave before the
data. Since no step of an invertible code makes different remainders equal, data that
verify behind two tags show that these leave the same one
(`FitsWord.remainder_eq_of_verify`). The tags of the three networks leave different
ones, so without its tag an address is still an address of one network at most
(`CashAddr.bodies_separated`).
-/

namespace WalletKeys

namespace ChecksumCode

variable {code : ChecksumCode}

theorem FitsWord.remainder_lt (fits : code.FitsWord) {symbols : List UInt8}
    (fit : SymbolsFit (5 * code.width) symbols) :
    (code.remainder symbols).toNat < 2 ^ (5 * code.width) := by
  have wide := fits.width_pos
  rw [remainder]
  cases symbols using List.reverseRecOn with
  | nil =>
      exact Nat.one_lt_two_pow (by omega)
  | append_singleton front symbol =>
      rw [List.foldl_append]
      exact fits.push_lt _ (fit symbol (List.mem_append_right _ (List.mem_cons_self ..)))

/-- Leads behind which the same data verify leave the same remainder. -/
theorem FitsWord.remainder_eq_of_verify (fits : code.FitsWord)
    (invertible : code.IsInvertible) {lead other data : List UInt8}
    (leadFit : SymbolsFit (5 * code.width) lead)
    (otherFit : SymbolsFit (5 * code.width) other)
    (dataFit : SymbolsFit (5 * code.width) data)
    (verified : code.verify lead data = true)
    (otherVerified : code.verify other data = true) :
    code.remainder lead = code.remainder other := by
  rw [verify, beq_iff_eq, remainder, List.foldl_append] at verified otherVerified
  exact
    fits.eq_of_foldl_push_eq invertible (fits.remainder_lt leadFit)
      (fits.remainder_lt otherFit) dataFit (verified.trans otherVerified.symm)

/-- Whole octets may stand for symbols, since a remainder has room for them. -/
theorem remainder_eq_of_verify_cashAddr {lead other data : List UInt8}
    (verified : cashAddr.verify lead data = true)
    (otherVerified : cashAddr.verify other data = true) :
    cashAddr.remainder lead = cashAddr.remainder other := by
  have fit (symbols : List UInt8) : SymbolsFit (5 * cashAddr.width) symbols :=
    fun symbol _ => symbol.toNat_lt.trans (by decide)
  exact
    fitsWord_cashAddr.remainder_eq_of_verify isInvertible_cashAddr (fit lead)
      (fit other) (fit data) verified otherVerified

end ChecksumCode

namespace CashAddr

open ChecksumCode

variable {tag other address : String} {version : UInt8} {hash : Octets}

/-- What is read without a tag verifies under the tag that is expected. -/
theorem verify_of_decode (absent : ':' ∉ address.toList)
    (read : decode tag address = .ok (version, hash)) :
    ∃ symbols,
      Base32.symbols (Text.lowercase address).toList = .ok symbols ∧
        cashAddr.verify (expandTag (Text.lowercase tag)) symbols = true := by
  let data := regroupOctets 5 (version :: hash)
  obtain ⟨-, -, bare | ⟨-, whole⟩⟩ := decode_eq_ok_iff.mp read
  · refine ⟨_, ?_, fitsWord_cashAddr.verify_checked _ data⟩
    exact Base32.symbols_eq_ok_iff.mpr ⟨symbolsFit_checked _ (version :: hash), bare⟩
  · rw [← colon_mem_lowercase_iff, whole, written, String.toList_ofList] at absent
    exact absurd (List.mem_append_right _ (List.mem_cons_self ..)) absent

/-- A text without a tag is read under no two tags that leave different
remainders. -/
theorem remainder_eq_of_decode {otherVersion : UInt8} {otherHash : Octets}
    (absent : ':' ∉ address.toList) (read : decode tag address = .ok (version, hash))
    (otherRead : decode other address = .ok (otherVersion, otherHash)) :
    cashAddr.remainder (expandTag (Text.lowercase tag)) =
      cashAddr.remainder (expandTag (Text.lowercase other)) := by
  obtain ⟨symbols, found, verified⟩ := verify_of_decode absent read
  obtain ⟨others, otherFound, otherVerified⟩ := verify_of_decode absent otherRead
  rw [found] at otherFound
  cases otherFound
  exact remainder_eq_of_verify_cashAddr verified otherVerified

theorem remainders_separated :
    ∀ tag ∈ ["bitcoincash", "bchtest", "bchreg"],
      ∀ other ∈ ["bitcoincash", "bchtest", "bchreg"], tag ≠ other →
        cashAddr.remainder (expandTag (Text.lowercase tag)) ≠
          cashAddr.remainder (expandTag (Text.lowercase other)) := by
  decide +kernel

/-- A text without a tag is an address of no two networks. The reason is the
checksum: no data verify behind two leads that leave different remainders. -/
theorem bodies_separated :
    (∀ tag ∈ ["bitcoincash", "bchtest", "bchreg"],
      ∀ other ∈ ["bitcoincash", "bchtest", "bchreg"], tag ≠ other →
        ∀ address : String, ':' ∉ address.toList →
          ¬((∃ read, decode tag address = .ok read) ∧
            ∃ read, decode other address = .ok read)) ∧
      ∀ lead other data : List UInt8,
        cashAddr.remainder lead ≠ cashAddr.remainder other →
          ¬(cashAddr.verify lead data = true ∧ cashAddr.verify other data = true) := by
  constructor
  · rintro tag known other otherKnown different address absent
      ⟨⟨⟨version, hash⟩, read⟩, ⟨⟨otherVersion, otherHash⟩, otherRead⟩⟩
    exact
      remainders_separated tag known other otherKnown different
        (remainder_eq_of_decode absent read otherRead)
  · rintro lead other data different ⟨verified, otherVerified⟩
    exact different (remainder_eq_of_verify_cashAddr verified otherVerified)

/-- The body of an address of the main network is none of the test network, and its
symbols verify behind no lead but that of its own network. -/
theorem bodies_separated_main :
    let body := "qpm2qsznhks23z7629mms6s4cwef74vcwvy22gdx6a"
    (∃ read, decode "bitcoincash" body = .ok read) ∧
      (¬∃ read, decode "bchtest" body = .ok read) ∧
        cashAddr.verify (expandTag "bchreg")
          (cashAddr.checked (expandTag "bitcoincash") [0, 31, 1]) = false := by
  intro body
  have read :
      decode "bitcoincash" body =
        .ok (0,
          [0x76, 0xa0, 0x40, 0x53, 0xbd, 0xa0, 0xa8, 0x8b, 0xda, 0x51, 0x77, 0xb8, 0x6a,
            0x15, 0xc3, 0xb2, 0x9f, 0x55, 0x98, 0x73]) := by
    decide +kernel
  obtain ⟨networks, leads⟩ := bodies_separated
  refine ⟨⟨_, read⟩, ?_, ?_⟩
  · intro otherRead
    exact
      networks "bitcoincash" (by decide) "bchtest" (by decide) (by decide) body
        (by decide) ⟨⟨_, read⟩, otherRead⟩
  · have different :
        cashAddr.remainder (expandTag "bitcoincash") ≠
          cashAddr.remainder (expandTag "bchreg") := by
      decide +kernel
    rw [← Bool.not_eq_true]
    intro otherVerified
    exact
      leads _ _ _ different ⟨fitsWord_cashAddr.verify_checked _ _, otherVerified⟩

end CashAddr

end WalletKeys
