import WalletKeys.Proofs.KeyPair
import WalletKeys.Proofs.Secp256k1.Sec1

/-!
# Octets of a public key

A public key is written as its point is, in its own form, and is read back with
that form (`PublicKey.ofOctets_eq_ok_iff`). Points of the curve and the octets
that are read correspond one to one within each form
(`PublicKey.octets_canonical`).
-/

namespace WalletKeys.PublicKey

open Secp256k1

theorem encode_point (key : PublicKey) (onCurve : key.point.isOnCurve = true) :
    key.point.encode key.compressed = .ok key.octets := by
  rw [Point.encode_of_isOnCurve onCurve, octets, shortOctets_eq, longOctets_eq]

theorem length_octets (key : PublicKey) :
    key.octets.length = if key.compressed then 33 else 65 := by
  rw [octets, apply_ite List.length, shortOctets_eq, longOctets_eq,
    Point.length_compressed, Point.length_uncompressed]

/-- The length tells the form. -/
theorem length_octets_beq (key : PublicKey) :
    (key.octets.length == 33) = key.compressed := by
  rw [length_octets]
  cases key.compressed <;> rfl

theorem ofOctets_eq_ok_iff {octets : Octets} {key : PublicKey} :
    ofOctets octets = .ok key ↔
      key.point.isOnCurve = true ∧ octets = key.octets := by
  constructor
  · intro read
    obtain ⟨point, found, same⟩ := bind_eq_ok_iff.mp read
    rw [mapError_eq_ok_iff, Point.decode_eq_ok_iff] at found
    obtain ⟨onCurve, written⟩ := found
    cases same
    have own := encode_point ⟨point, octets.length == 33⟩ onCurve
    exact ⟨onCurve, Except.ok.inj (written.symm.trans own)⟩
  · rintro ⟨onCurve, rfl⟩
    have found : Point.decode key.octets = .ok key.point := by
      rw [Point.decode_eq_ok_iff, length_octets_beq]
      exact ⟨onCurve, encode_point key onCurve⟩
    rw [ofOctets, found, length_octets_beq]
    rfl

/-- Every point of the curve is read back from either form, and every key from
its own, which is the one that its point has. Only what is written is read: a
lead octet that tells a parity before an abscissa of the curve, or the lead octet
of the long form before two coordinates that satisfy the equation. -/
theorem octets_canonical :
    (∀ point : Point, point.isOnCurve = true → ∀ short : Bool,
      ∃ written, point.encode short = .ok written ∧
        written.length = (if short then 33 else 65) ∧
        Point.decode written = .ok point) ∧
      (∀ key : PublicKey, key.point.isOnCurve = true →
        key.point.encode true = .ok key.shortOctets ∧
          key.point.encode false = .ok key.longOctets ∧
          ofOctets key.octets = .ok key) ∧
      (∀ (written : Octets) (point : Point), Point.decode written = .ok point →
        point.isOnCurve = true ∧
          point.encode (written.length == 33) = .ok written) ∧
      ∀ written : Octets,
        (∃ point, Point.decode written = .ok point) ↔
          Point.IsShortForm written ∨ Point.IsLongForm written := by
  refine ⟨?_, ?_, ?_, Point.exists_decode_iff⟩
  · intro point onCurve short
    let key : PublicKey := ⟨point, short⟩
    have written : point.encode short = .ok key.octets :=
      encode_point key onCurve
    refine ⟨key.octets, written, key.length_octets, ?_⟩
    rw [Point.decode_eq_ok_iff, length_octets_beq]
    exact ⟨onCurve, written⟩
  · intro key onCurve
    refine ⟨?_, ?_, ofOctets_eq_ok_iff.mpr ⟨onCurve, rfl⟩⟩
    · rw [shortOctets_eq]
      exact Point.encode_of_isOnCurve onCurve true
    · rw [longOctets_eq]
      exact Point.encode_of_isOnCurve onCurve false
  · intro written point read
    exact Point.decode_eq_ok_iff.mp read

/-- The generator in both forms and as a key in the long one, and the point over
one with an odd root. The same abscissa with the field prime added fits its
octets and is refused. -/
theorem octets_canonical_generator :
    let key : PublicKey := ⟨Point.generator, false⟩
    let lifted := fun x => 0x03 :: Octets.ofNat 32 x
    key.point.isOnCurve = true ∧
      (∀ short, ∃ written, key.point.encode short = .ok written ∧
        Point.decode written = .ok key.point) ∧
      ofOctets key.octets = .ok key ∧
      (∃ point, Point.decode (lifted 1) = .ok point ∧
        point.encode true = .ok (lifted 1)) ∧
      ¬Point.IsShortForm (lifted (fieldPrime + 1)) := by
  intro key lifted
  have onCurve : key.point.isOnCurve = true :=
    isOnCurve_generator
  have accepted : (Point.decode (lifted 1)).toOption.isSome := by
    decide +kernel
  have refused : Point.decode (lifted (fieldPrime + 1)) = .error .notOnCurve := by
    decide +kernel
  obtain ⟨points, keys, canonical, forms⟩ := octets_canonical
  refine ⟨onCurve, ?_, (keys key onCurve).2.2, ?_, ?_⟩
  · intro short
    obtain ⟨written, encoded, -, read⟩ := points key.point onCurve short
    exact ⟨written, encoded, read⟩
  · obtain ⟨point, read⟩ := exists_eq_ok_of_isSome accepted
    exact ⟨point, read, (canonical _ point read).2⟩
  · intro form
    obtain ⟨point, read⟩ := (forms _).mpr (Or.inl form)
    rw [refused] at read
    cases read

end WalletKeys.PublicKey
