import Mathlib
import TraceGraph.Decimal.Binary64

/-!
# Doubles and their bits

The parts of a double are read off its bits (`Binary64.ofFloat`), and the operations on doubles unpack them,
compute, and pack the result.  Both ways of taking a double apart agree (`Binary64.ofFloat_eq`), and what is
packed is unpacked again, unless its exponent is too large, in which case it is an infinity
(`unpack_pack_normal`, `unpack_pack_subnormal`, `unpack_pack_of_lt`).
-/

namespace TraceGraph.Decimal

open Float.Model (UnpackedFloat Format pack)
open Float.Model.UnpackedFloat (Sign unpackMantissa unpackExponent unpackSign packComponents)

/-! ### The parts of a double -/

namespace Binary64

/-- Is the sign a minus? -/
def isNegative : Sign → Bool
  | .negative => true
  | .positive => false

/-- The parts of an unpacked double.  Both zeros have the mantissa `0`. -/
def ofUnpacked : UnpackedFloat → Binary64
  | .notANumber => .nan
  | .infinity sign => .infinite (isNegative sign)
  | .zero sign => .finite (isNegative sign) 0 (-1074)
  | .finite sign mantissa exponent _ => .finite (isNegative sign) mantissa exponent

section

variable (bits : BitVec 64)

theorem toNat_unpackMantissa :
    (@unpackMantissa .binary64 bits).toNat = bits.toNat % Nat.pow 2 52 := by
  rw [unpackMantissa, BitVec.toNat_cast, BitVec.extractLsb_toNat, Nat.shiftRight_zero]
  rfl

theorem toNat_unpackExponent :
    (@unpackExponent .binary64 bits).toNat = bits.toNat / Nat.pow 2 52 % Nat.pow 2 11 := by
  rw [unpackExponent, BitVec.toNat_cast, BitVec.extractLsb_toNat, Nat.shiftRight_eq_div_pow]
  rfl

theorem isNegative_unpackSign :
    isNegative (Sign.ofBitVec (@unpackSign .binary64 bits)) = (bits.toNat / Nat.pow 2 63 == 1) := by
  have hsign : (@unpackSign .binary64 bits).toNat = bits.toNat / Nat.pow 2 63 % 2 := by
    rw [unpackSign, BitVec.toNat_cast, BitVec.extractLsb_toNat, Nat.shiftRight_eq_div_pow]
    rfl
  have hlt : bits.toNat / Nat.pow 2 63 < 2 := Nat.div_lt_of_lt_mul bits.isLt
  rcases Nat.le_one_iff_eq_zero_or_eq_one.1 (Nat.le_of_lt_succ hlt) with h | h
  · have hvec : @unpackSign .binary64 bits = 0#1 := BitVec.eq_of_toNat_eq (by rw [hsign, h]; rfl)
    rw [h, hvec]
    rfl
  · have hvec : @unpackSign .binary64 bits = 1#1 := BitVec.eq_of_toNat_eq (by rw [hsign, h]; rfl)
    rw [h, hvec]
    rfl

end

/-- The first bit of a full mantissa is not written down. -/
theorem toNat_one_append (mantissa : BitVec 52) :
    (1#1 ++ mantissa).toNat = Nat.pow 2 52 + mantissa.toNat := by
  rw [BitVec.toNat_append, ← Nat.shiftLeft_add_eq_or_of_lt mantissa.isLt]
  rfl

/-- The parts of a double are those that it is unpacked to. -/
theorem ofFloat_eq (x : Float) : ofFloat x = ofUnpacked x.toModel.unpack := by
  change ofBits x.toModel.toBits.toBitVec.toNat =
    ofUnpacked (UnpackedFloat.unpack Format.binary64 x.toModel.toBits.toBitVec)
  generalize x.toModel.toBits.toBitVec = bits
  have hmax : @unpackExponent .binary64 bits = -1#11 ↔ (@unpackExponent .binary64 bits).toNat = 2047 :=
    BitVec.toNat_inj.symm
  have hmin : @unpackExponent .binary64 bits = 0#11 ↔ (@unpackExponent .binary64 bits).toNat = 0 :=
    BitVec.toNat_inj.symm
  have hzero : @unpackMantissa .binary64 bits = 0#52 ↔ (@unpackMantissa .binary64 bits).toNat = 0 :=
    BitVec.toNat_inj.symm
  unfold UnpackedFloat.unpack ofBits
  dsimp only
  rw [← isNegative_unpackSign, ← toNat_unpackMantissa, ← toNat_unpackExponent]
  by_cases h : (@unpackExponent .binary64 bits).toNat = 2047
  · rw [if_pos h, if_pos (hmax.2 h)]
    by_cases h' : (@unpackMantissa .binary64 bits).toNat = 0
    · rw [if_pos h', if_pos (hzero.2 h')]
      rfl
    · rw [if_neg h', if_neg (mt hzero.1 h')]
      rfl
  rw [if_neg h, if_neg (mt hmax.1 h)]
  by_cases h' : (@unpackExponent .binary64 bits).toNat = 0
  · rw [if_pos h', if_pos (hmin.2 h')]
    by_cases h'' : (@unpackMantissa .binary64 bits).toNat = 0
    · rw [dif_pos (hzero.2 h''), h'']
      rfl
    · rw [dif_neg (mt hzero.1 h''), ofUnpacked, h']
      rfl
  · rw [if_neg h', if_neg (mt hmin.1 h'), ofUnpacked, toNat_one_append]
    rfl

/-- The mantissa of a double has at most fifty-three bits, and has all of them unless the exponent is the
least one. -/
theorem bounds_of_ofFloat {x : Float} {negative : Bool} {mantissa : Nat} {exponent : Int}
    (h : ofFloat x = .finite negative mantissa exponent) :
    mantissa < 2 ^ 53 ∧ -1074 ≤ exponent ∧ exponent ≤ 971 ∧ (2 ^ 52 ≤ mantissa ∨ exponent = -1074) := by
  have hfraction : x.toBits.toNat % Nat.pow 2 52 < 2 ^ 52 := Nat.mod_lt _ (by decide)
  have hfield : x.toBits.toNat / Nat.pow 2 52 % Nat.pow 2 11 < 2 ^ 11 := Nat.mod_lt _ (by decide)
  have hpow : Nat.pow 2 52 = 2 ^ 52 := rfl
  unfold ofFloat ofBits at h
  dsimp only at h
  split at h
  · split at h <;> cases h
  · split at h
    · cases h
      omega
    · cases h
      omega

theorem exists_finite_iff {x : Float} :
    (∃ negative mantissa exponent, ofFloat x = .finite negative mantissa exponent) ↔ x.isFinite = true := by
  change _ ↔ x.toModel.unpack.isFinite = true
  rw [ofFloat_eq]
  cases x.toModel.unpack <;> simp [ofUnpacked, UnpackedFloat.isFinite]

end Binary64

/-! ### Packing -/

theorem unpack_pack_infinity (sign : Sign) : (pack (.infinity sign)).unpack = .infinity sign := by
  cases sign <;> rfl

theorem unpack_pack_zero (sign : Sign) : (pack (.zero sign)).unpack = .zero sign := by
  cases sign <;> rfl

variable {sign : Sign} {m : Nat} {e : Int} {hm : 0 < m}

/-- How a number is packed: as an infinity, with its exponent, or with the least exponent. -/
theorem pack_finite :
    UnpackedFloat.pack .binary64 (.finite sign m e hm) =
      if 971 < e then UnpackedFloat.packedInfinity .binary64 sign
      else if m.log2 = 52 then
        packComponents .binary64 sign (BitVec.ofNat 11 (e + 1075).toNat) (BitVec.ofNat 52 m)
      else packComponents .binary64 sign 0#11 (BitVec.ofNat 52 m) := by
  have hbiased : (e + (Format.binary64.exponentBias : Int) + (52 : Nat)).toNat = (e + 1075).toNat := by
    change (e + 1023 + 52).toNat = _
    omega
  have hlarge : 2 ^ 11 ≤ (e + 1075).toNat + 1 ↔ 971 < e := by omega
  have hfull : m.log2 + 1 = Format.binary64.mantissaBits ↔ m.log2 = 52 := by
    change m.log2 + 1 = 53 ↔ _
    omega
  unfold UnpackedFloat.pack
  simp only [hbiased, hlarge, hfull]

/-- A number whose exponent is too large is packed as an infinity. -/
theorem unpack_pack_of_lt (he : 971 < e) : (pack (.finite sign m e hm)).unpack = .infinity sign := by
  change UnpackedFloat.unpack .binary64 (UnpackedFloat.pack .binary64 (.finite sign m e hm)) = _
  rw [pack_finite, if_pos he]
  exact unpack_pack_infinity sign

/-- A number with a full mantissa keeps its parts. -/
theorem unpack_pack_normal (hmin : 2 ^ 52 ≤ m) (hmax : m < 2 ^ 53) (he : -1074 ≤ e) (he' : e ≤ 971) :
    (pack (.finite sign m e hm)).unpack = .finite sign m e hm := by
  have hlog : m.log2 = 52 := (Nat.log2_eq_iff hm.ne').2 ⟨hmin, hmax⟩
  have hexponent : (BitVec.ofNat 11 (e + 1075).toNat).toNat = (e + 1075).toNat :=
    Nat.mod_eq_of_lt (by omega)
  have hmin' : BitVec.ofNat 11 (e + 1075).toNat ≠ 0#11 := by
    rw [Ne, ← BitVec.toNat_inj, hexponent, BitVec.toNat_ofNat]
    omega
  have hmax' : BitVec.ofNat 11 (e + 1075).toNat ≠ -1#11 := by
    rw [Ne, ← BitVec.toNat_inj, hexponent]
    change ¬ (e + 1075).toNat = 2047
    omega
  have hmantissa : (1#1 ++ BitVec.ofNat 52 m).toNat = m := by
    rw [Binary64.toNat_one_append, BitVec.toNat_ofNat]
    change 2 ^ 52 + m % 2 ^ 52 = m
    omega
  change UnpackedFloat.unpack .binary64 (UnpackedFloat.pack .binary64 (.finite sign m e hm)) = _
  rw [pack_finite, if_neg (by omega), if_pos hlog]
  unfold UnpackedFloat.unpack
  simp only [UnpackedFloat.unpackExponent_packComponents, UnpackedFloat.unpackMantissa_packComponents,
    UnpackedFloat.unpackSign_packComponents, Sign.ofBitVec_toBitVec, if_neg hmin', if_neg hmax',
    hmantissa, hexponent]
  congr 1
  change ((e + 1075).toNat : Int) - (1023 + 52) = e
  omega

/-- A smaller mantissa goes with the least exponent. -/
theorem unpack_pack_subnormal (hmax : m < 2 ^ 52) (he : e ≤ 971) :
    (pack (.finite sign m e hm)).unpack = .finite sign m (-1074) hm := by
  have hlog : m.log2 ≠ 52 := ((Nat.log2_lt hm.ne').2 hmax).ne
  have hmantissa : (BitVec.ofNat 52 m).toNat = m := Nat.mod_eq_of_lt hmax
  have hzero : BitVec.ofNat 52 m ≠ 0#52 := by
    rw [Ne, ← BitVec.toNat_inj, hmantissa, BitVec.toNat_ofNat]
    omega
  change UnpackedFloat.unpack .binary64 (UnpackedFloat.pack .binary64 (.finite sign m e hm)) = _
  rw [pack_finite, if_neg (by omega), if_neg hlog]
  unfold UnpackedFloat.unpack
  simp only [UnpackedFloat.unpackExponent_packComponents, UnpackedFloat.unpackMantissa_packComponents,
    UnpackedFloat.unpackSign_packComponents, Sign.ofBitVec_toBitVec, dif_neg hzero, hmantissa]
  rfl

end TraceGraph.Decimal
