import WalletKeys.Proofs.OctetNumbers
import WalletKeys.Proofs.Secp256k1.Abscissa
import WalletKeys.Secp256k1.Sec1

/-!
# Octets of a point are read back

An abscissa and a parity are read as the one point of the curve that has them
(`Point.ofAbscissa_eq_ok_iff`). Octets of the length of a form are read exactly
if they are this form of a point of the curve (`Point.decode_short_eq_ok_iff`,
`Point.decode_long_eq_ok_iff`), and octets of any other length are not read
(`Point.decode_eq_ok_iff`). Which octets these are can be said without a point:
an abscissa over which a root exists, or coordinates that satisfy the equation
(`Point.exists_decode_iff`).
-/

namespace WalletKeys.Secp256k1.Point

theorem ofAbscissa_eq (odd : Bool) (x : ℕ) :
    ofAbscissa odd x =
      (Coordinate.solve? x).elim (.error .notOnCurve) fun y =>
        ofCoordinates x (Coordinate.withParity odd y) := by
  rw [ofAbscissa, demand_bind]

theorem ofAbscissa_eq_ok_iff {odd : Bool} {x : ℕ} {point : Point} :
    ofAbscissa odd x = .ok point ↔
      point.isOnCurve = true ∧ point.x = x ∧ point.isOdd = odd := by
  constructor
  · intro read
    cases found : Coordinate.solve? x with
    | none =>
        rw [ofAbscissa_eq, found] at read
        cases read
    | some y =>
        obtain ⟨element, nonzero, coordinates, parity⟩ :=
          exists_ofGroup_of_solve? odd found
        have onCurve := (isOnCurve_ofGroup element).mpr nonzero
        have sameX : (ofGroup element).x = x := by
          rw [coordinates]
        rw [ofAbscissa_eq, found, Option.elim_some, ofCoordinates, ← coordinates,
          if_pos onCurve] at read
        cases read
        exact ⟨onCurve, sameX, parity⟩
  · rintro ⟨onCurve, rfl, rfl⟩
    have written : ofGroup point.toGroup = point :=
      ofGroup_toGroup onCurve
    obtain ⟨y, found⟩ := solve?_x_ofGroup (toGroup_ne_zero onCurve)
    rw [written] at found
    obtain ⟨element, -, coordinates, parity⟩ :=
      exists_ofGroup_of_solve? point.isOdd found
    have same : element = point.toGroup := by
      apply eq_of_x_eq_of_isOdd_eq
      · rw [coordinates, written]
      · rw [parity, written]
    rw [ofAbscissa_eq, found, Option.elim_some, ofCoordinates, ← coordinates, same,
      written, if_pos onCurve]

@[simp]
theorem length_compressed (point : Point) : point.compressed.length = 33 := by
  rw [compressed, List.length_cons, coordinateOctets, Octets.length_ofNat]

theorem toNat_coordinateOctets {coordinate : ℕ} (bound : coordinate < fieldPrime) :
    Octets.toNat (coordinateOctets coordinate) = coordinate := by
  have width : fieldPrime < 256 ^ 32 := by
    decide
  rw [coordinateOctets, Octets.toNat_ofNat_of_lt (bound.trans width)]

/-- The lead octet of the short form. -/
def shortLead (odd : Bool) : UInt8 :=
  if odd then 0x03 else 0x02

theorem shortLead_eq_or (odd : Bool) : shortLead odd = 0x02 ∨ shortLead odd = 0x03 := by
  cases odd
  · exact Or.inl rfl
  · exact Or.inr rfl

theorem shortLead_eq_iff {lead : UInt8} (short : lead = 0x02 ∨ lead = 0x03)
    (odd : Bool) : lead = shortLead odd ↔ (lead == 0x03) = odd := by
  rcases short with rfl | rfl <;> cases odd <;> decide

theorem decode_short {lead : UInt8} {rest : Octets} (length : rest.length = 32) :
    decode (lead :: rest) =
      if lead = 0x02 ∨ lead = 0x03 then
        ofAbscissa (lead == 0x03) (Octets.toNat rest)
      else .error (.invalidLead lead) := by
  rw [decode, if_pos length]

theorem decode_short_eq_ok_iff {octets : Octets} (length : octets.length = 33)
    {point : Point} :
    decode octets = .ok point ↔
      point.isOnCurve = true ∧ octets = point.compressed := by
  cases octets with
  | nil =>
      cases length
  | cons lead rest =>
      have restLength : rest.length = 32 :=
        Nat.succ.inj length
      rw [decode_short restLength]
      constructor
      · intro read
        split at read
        · next short =>
            obtain ⟨onCurve, sameX, parity⟩ := ofAbscissa_eq_ok_iff.mp read
            have leadEq : lead = shortLead point.isOdd :=
              (shortLead_eq_iff short point.isOdd).mpr parity.symm
            refine ⟨onCurve, ?_⟩
            rw [compressed, coordinateOctets, sameX,
              Octets.ofNat_toNat restLength]
            exact congrArg (· :: rest) leadEq
        · cases read
      · rintro ⟨onCurve, written⟩
        obtain ⟨leadEq, restEq⟩ := List.cons.inj written
        have short : lead = 0x02 ∨ lead = 0x03 := by
          rw [leadEq]
          exact shortLead_eq_or point.isOdd
        have parity := (shortLead_eq_iff short point.isOdd).mp leadEq
        obtain ⟨xBound, -, -⟩ := (isOnCurve_iff point).mp onCurve
        rw [if_pos short, ofAbscissa_eq_ok_iff]
        refine ⟨onCurve, ?_, parity.symm⟩
        rw [restEq, toNat_coordinateOctets xBound]

@[simp]
theorem length_uncompressed (point : Point) : point.uncompressed.length = 65 := by
  rw [uncompressed, List.length_cons, List.length_append, coordinateOctets,
    coordinateOctets, Octets.length_ofNat, Octets.length_ofNat]

theorem ofCoordinates_eq_ok_iff {x y : ℕ} {point : Point} :
    ofCoordinates x y = .ok point ↔
      point.isOnCurve = true ∧ point.x = x ∧ point.y = y := by
  rw [ofCoordinates]
  constructor
  · intro made
    split at made
    · next onCurve =>
        cases made
        exact ⟨onCurve, rfl, rfl⟩
    · cases made
  · rintro ⟨onCurve, rfl, rfl⟩
    exact if_pos onCurve

theorem decode_long {lead : UInt8} {rest : Octets} (length : rest.length = 64) :
    decode (lead :: rest) =
      if lead = 0x04 then
        ofCoordinates (Octets.toNat (rest.take 32)) (Octets.toNat (rest.drop 32))
      else .error (.invalidLead lead) := by
  have notShort : ¬rest.length = 32 := by
    omega
  rw [decode, if_neg notShort, if_pos length]

theorem decode_long_eq_ok_iff {octets : Octets} (length : octets.length = 65)
    {point : Point} :
    decode octets = .ok point ↔
      point.isOnCurve = true ∧ octets = point.uncompressed := by
  cases octets with
  | nil =>
      cases length
  | cons lead rest =>
      have restLength : rest.length = 64 :=
        Nat.succ.inj length
      rw [decode_long restLength]
      constructor
      · intro read
        split at read
        · next long =>
            obtain ⟨onCurve, sameX, sameY⟩ := ofCoordinates_eq_ok_iff.mp read
            have front : (rest.take 32).length = 32 := by
              rw [List.length_take, restLength]
              rfl
            have back : (rest.drop 32).length = 32 := by
              rw [List.length_drop, restLength]
            refine ⟨onCurve, ?_⟩
            rw [uncompressed, coordinateOctets, coordinateOctets, sameX, sameY,
              Octets.ofNat_toNat front, Octets.ofNat_toNat back,
              List.take_append_drop, long]
        · cases read
      · rintro ⟨onCurve, written⟩
        obtain ⟨leadEq, restEq⟩ := List.cons.inj written
        obtain ⟨xBound, yBound, -⟩ := (isOnCurve_iff point).mp onCurve
        have width : (coordinateOctets point.x).length = 32 :=
          Octets.length_ofNat ..
        rw [if_pos leadEq, ofCoordinates_eq_ok_iff, restEq, List.take_left' width,
          List.drop_left' width, toNat_coordinateOctets xBound,
          toNat_coordinateOctets yBound]
        exact ⟨onCurve, rfl, rfl⟩

theorem encode_of_isOnCurve {point : Point} (onCurve : point.isOnCurve = true)
    (short : Bool) :
    point.encode short =
      .ok (if short then point.compressed else point.uncompressed) := by
  rw [encode, not_isInfinity_of_isOnCurve onCurve]
  rfl

theorem length_of_decode {octets : Octets} {point : Point}
    (read : decode octets = .ok point) :
    octets.length = 33 ∨ octets.length = 65 := by
  cases octets with
  | nil =>
      cases read
  | cons lead rest =>
      rw [decode] at read
      split at read
      · next short =>
          exact Or.inl (congrArg Nat.succ short)
      · split at read
        · next long =>
            exact Or.inr (congrArg Nat.succ long)
        · cases read

/-- What is read is a point of the curve, and it is written as what was read, in
the form that has its length. -/
theorem decode_eq_ok_iff {octets : Octets} {point : Point} :
    decode octets = .ok point ↔
      point.isOnCurve = true ∧
        point.encode (octets.length == 33) = .ok octets := by
  constructor
  · intro read
    rcases length_of_decode read with short | long
    · obtain ⟨onCurve, written⟩ := (decode_short_eq_ok_iff short).mp read
      rw [short, encode_of_isOnCurve onCurve]
      exact ⟨onCurve, congrArg Except.ok written.symm⟩
    · obtain ⟨onCurve, written⟩ := (decode_long_eq_ok_iff long).mp read
      rw [long, encode_of_isOnCurve onCurve]
      exact ⟨onCurve, congrArg Except.ok written.symm⟩
  · rintro ⟨onCurve, written⟩
    rw [encode_of_isOnCurve onCurve] at written
    split at written
    · next short =>
        cases written
        exact
          (decode_short_eq_ok_iff point.length_compressed).mpr ⟨onCurve, rfl⟩
    · cases written
      exact
        (decode_long_eq_ok_iff point.length_uncompressed).mpr ⟨onCurve, rfl⟩

/-- A lead octet that tells a parity, and an abscissa over which a root
exists. -/
def IsShortForm (octets : Octets) : Prop :=
  ∃ lead, ∃ x : Octets,
    octets = lead :: x ∧ x.length = 32 ∧ (lead = 0x02 ∨ lead = 0x03) ∧
      Octets.toNat x < fieldPrime ∧
      ∃ y, y ^ 2 ≡ Octets.toNat x ^ 3 + 7 [MOD fieldPrime]

/-- The lead octet of the long form, and two coordinates that satisfy the
equation. -/
def IsLongForm (octets : Octets) : Prop :=
  ∃ x y : Octets,
    octets = 0x04 :: (x ++ y) ∧ x.length = 32 ∧ y.length = 32 ∧
      Octets.toNat x < fieldPrime ∧ Octets.toNat y < fieldPrime ∧
      Octets.toNat y ^ 2 ≡ Octets.toNat x ^ 3 + 7 [MOD fieldPrime]

theorem isShortForm_compressed {point : Point} (onCurve : point.isOnCurve = true) :
    IsShortForm point.compressed := by
  obtain ⟨xBound, -, equation⟩ := (isOnCurve_iff_modEq point).mp onCurve
  refine
    ⟨shortLead point.isOdd, coordinateOctets point.x, rfl,
      Octets.length_ofNat .., shortLead_eq_or point.isOdd, ?_⟩
  rw [toNat_coordinateOctets xBound]
  exact ⟨xBound, point.y, equation⟩

theorem isLongForm_uncompressed {point : Point} (onCurve : point.isOnCurve = true) :
    IsLongForm point.uncompressed := by
  obtain ⟨xBound, yBound, equation⟩ := (isOnCurve_iff_modEq point).mp onCurve
  refine
    ⟨coordinateOctets point.x, coordinateOctets point.y, rfl,
      Octets.length_ofNat .., Octets.length_ofNat .., ?_⟩
  rw [toNat_coordinateOctets xBound, toNat_coordinateOctets yBound]
  exact ⟨xBound, yBound, equation⟩

/-- Over an abscissa where a root exists there is a point of either parity. -/
theorem exists_ofAbscissa {x y : ℕ} (odd : Bool) (bound : x < fieldPrime)
    (equation : y ^ 2 ≡ x ^ 3 + 7 [MOD fieldPrime]) :
    ∃ point, ofAbscissa odd x = .ok point := by
  have square : IsSquare ((x : CoordinateField) ^ 3 + 7) := by
    have classes := (ZMod.natCast_eq_natCast_iff _ _ _).mpr equation
    push_cast at classes
    exact ⟨y, by rw [← classes, pow_two]⟩
  obtain ⟨root, found⟩ :=
    Option.isSome_iff_exists.mp (Coordinate.solve?_isSome bound square)
  obtain ⟨element, nonzero, coordinates, parity⟩ :=
    exists_ofGroup_of_solve? odd found
  refine ⟨ofGroup element, ofAbscissa_eq_ok_iff.mpr ⟨?_, ?_, parity⟩⟩
  · exact (isOnCurve_ofGroup element).mpr nonzero
  · rw [coordinates]

theorem exists_decode_of_isShortForm {octets : Octets} (form : IsShortForm octets) :
    ∃ point, decode octets = .ok point := by
  obtain ⟨lead, x, rfl, width, short, bound, y, equation⟩ := form
  rw [decode_short width, if_pos short]
  exact exists_ofAbscissa _ bound equation

theorem exists_decode_of_isLongForm {octets : Octets} (form : IsLongForm octets) :
    ∃ point, decode octets = .ok point := by
  obtain ⟨x, y, rfl, xWidth, yWidth, xBound, yBound, equation⟩ := form
  have width : (x ++ y).length = 64 := by
    rw [List.length_append, xWidth, yWidth]
  have onCurve : Point.isOnCurve ⟨Octets.toNat x, Octets.toNat y⟩ = true :=
    (isOnCurve_iff_modEq _).mpr ⟨xBound, yBound, equation⟩
  rw [decode_long width, if_pos rfl, List.take_left' xWidth,
    List.drop_left' xWidth]
  exact ⟨_, ofCoordinates_eq_ok_iff.mpr ⟨onCurve, rfl, rfl⟩⟩

theorem exists_decode_iff (octets : Octets) :
    (∃ point, decode octets = .ok point) ↔
      IsShortForm octets ∨ IsLongForm octets := by
  constructor
  · rintro ⟨point, read⟩
    rcases length_of_decode read with short | long
    · obtain ⟨onCurve, rfl⟩ := (decode_short_eq_ok_iff short).mp read
      exact Or.inl (isShortForm_compressed onCurve)
    · obtain ⟨onCurve, rfl⟩ := (decode_long_eq_ok_iff long).mp read
      exact Or.inr (isLongForm_uncompressed onCurve)
  · rintro (short | long)
    · exact exists_decode_of_isShortForm short
    · exact exists_decode_of_isLongForm long

end WalletKeys.Secp256k1.Point
