import WalletKeys.Codec.Regroup
import WalletKeys.Proofs.Codec.BitStream
import WalletKeys.Proofs.OctetNumbers
import WalletKeys.Proofs.Text

/-!
# Base64 is read back

Every symbol has a character of its own and the filling is none of them, so that
the reader finds the symbols of the writer (`decode?_encode`). What is written
has neither blanks nor colons.
-/

namespace WalletKeys.Base64

/-- The character of a symbol of six bits. -/
def character (symbol : UInt8) : Char :=
  alphabet.getD symbol.toNat 'A'

theorem idxOf?_character {symbol : UInt8} (fits : symbol.toNat < 2 ^ 6) :
    alphabet.idxOf? (character symbol) = some symbol.toNat := by
  have distinct : alphabet.Nodup := by
    decide
  exact (Text.idxOf?_eq_some_iff distinct 'A').mpr ⟨fits, rfl⟩

theorem character_mem (symbol : UInt8) : character symbol ∈ alphabet :=
  Text.getD_mem (by decide) symbol.toNat

theorem toList_encode (octets : Octets) :
    (encode octets).toList =
      (regroupOctets 6 octets).map character ++
        List.replicate (fillCount (regroupOctets 6 octets).length) '=' :=
  String.toList_ofList

theorem mem_of_mem_encode {octets : Octets} {written : Char}
    (member : written ∈ (encode octets).toList) :
    written ∈ '=' :: alphabet := by
  rw [toList_encode, List.mem_append, List.mem_map] at member
  rcases member with ⟨symbol, -, rfl⟩ | filling
  · exact List.mem_cons_of_mem _ (character_mem symbol)
  · rw [List.eq_of_mem_replicate filling]
    exact List.mem_cons_self ..

theorem solid_encode (octets : Octets) : Text.Solid (encode octets).toList := by
  have all : Text.Solid ('=' :: alphabet) := by
    decide
  exact fun written member => all written (mem_of_mem_encode member)

theorem colon_not_mem_encode (octets : Octets) : ':' ∉ (encode octets).toList := by
  have absent : ':' ∉ '=' :: alphabet := by
    decide
  exact fun member => absent (mem_of_mem_encode member)

theorem takeWhile_characters (symbols : List UInt8) (filling : ℕ) :
    (symbols.map character ++ List.replicate filling '=').takeWhile (· ≠ '=') =
      symbols.map character := by
  have noFilling :
      ∀ written ∈ symbols.map character, decide (written ≠ '=') = true := by
    have absent : '=' ∉ alphabet := by
      decide
    intro written member
    obtain ⟨symbol, -, rfl⟩ := List.mem_map.mp member
    apply decide_eq_true
    intro equal
    exact absent (equal ▸ character_mem symbol)
  rw [List.takeWhile_append_of_pos noFilling]
  cases filling with
  | zero =>
      exact List.append_nil _
  | succ filling =>
      simp [List.replicate_succ]

theorem mapM_idxOf? {symbols : List UInt8} (fit : SymbolsFit 6 symbols) :
    ((symbols.map character).mapM fun written => alphabet.idxOf? written) =
      some (symbols.map UInt8.toNat) := by
  induction symbols with
  | nil =>
      rfl
  | cons symbol rest inductionHypothesis =>
      obtain ⟨fits, restFit⟩ := symbolsFit_cons_iff.mp fit
      rw [List.map_cons, List.mapM_cons, idxOf?_character fits,
        inductionHypothesis restFit]
      rfl

/-- What is written is read back. -/
theorem decode?_encode (octets : Octets) : decode? (encode octets) = some octets := by
  have fit : SymbolsFit 6 (regroupOctets 6 octets) :=
    (regroupOctets_spec (by decide) (by decide) octets).1
  have regrouped : regroup 6 8 false (regroupOctets 6 octets) = .ok octets :=
    regroup_regroupOctets (by decide) (by decide) octets
  have filled :
      ((regroupOctets 6 octets).map character ++
          List.replicate (fillCount (regroupOctets 6 octets).length) '=').drop
          ((regroupOctets 6 octets).map character).length =
        List.replicate
          (fillCount ((regroupOctets 6 octets).map character).length) '=' := by
    rw [List.drop_left, List.length_map]
  rw [decode?, toList_encode]
  rw [takeWhile_characters, if_neg (not_not.mpr filled), mapM_idxOf? fit]
  change
    (regroup 6 8 false
      (((regroupOctets 6 octets).map UInt8.toNat).map UInt8.ofNat)).toOption = _
  rw [Octets.map_ofNat_toNat, regrouped]
  rfl

end WalletKeys.Base64
