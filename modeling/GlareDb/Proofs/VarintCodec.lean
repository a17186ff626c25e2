import GlareDb.Prost.Varint
import Mathlib.Tactic.Ring

set_option autoImplicit false

/-! `decode_varint` inverts `encode_varint` on every `u64`, whatever follows it, and
`encoded_len_varint` is the number of bytes `encode_varint` writes. The same holds for
field keys of every valid tag and wire type. -/

namespace GlareDb.Proofs.VarintCodec
open GlareDb.Prost

theorem low_bits (value : Nat) : value &&& 0x7F = value % 128 := by
  simpa using Nat.and_pow_two_sub_one_eq_mod value 7

/-- Setting bits above the ones `low` uses is addition. -/
theorem or_shift_eq_add {low shift : Nat} (below : low < 2 ^ shift) (high : Nat) :
    low ||| high * 2 ^ shift = low + high * 2 ^ shift := by
  rw [Nat.or_comm, Nat.mul_comm, ← Nat.mul_add_lt_is_or below, Nat.add_comm]

theorem continuation_byte (value : Nat) : (value &&& 0x7F) ||| 0x80 = value % 128 + 128 := by
  rw [low_bits]
  exact or_shift_eq_add (Nat.mod_lt value (by decide : 0 < 2 ^ 7)) 1

theorem encodeVarintLoop_of_lt {iterations value : Nat} (small : value < 0x80) :
    encodeVarintLoop (iterations + 1) value = [value.toUInt8] := by
  simp [encodeVarintLoop, small]

theorem encodeVarintLoop_of_le {iterations value : Nat} (large : 0x80 ≤ value) :
    encodeVarintLoop (iterations + 1) value =
      (value % 128 + 128).toUInt8 :: encodeVarintLoop iterations (value / 128) := by
  simp [encodeVarintLoop, Nat.not_lt.mpr large, continuation_byte, Nat.shiftRight_eq_div_pow]

/-! ### Decoding what was encoded -/

private theorem count_le_eight {value : Nat} (count : Nat) (large : 0x80 ≤ value)
    (fits : value * 2 ^ (7 * count) < 2 ^ 64) : count ≤ 8 := by
  by_contra over
  have : 2 ^ 64 ≤ 0x80 * 2 ^ (7 * count) := by
    rw [show (0x80 : Nat) = 2 ^ 7 from rfl, ← Nat.pow_add]
    exact Nat.pow_le_pow_right (by decide) (by omega)
  exact absurd (Nat.lt_of_le_of_lt (Nat.mul_le_mul_right _ large) fits) (by omega)

private theorem pow_seven_succ (count : Nat) : 2 ^ (7 * (count + 1)) = 128 * 2 ^ (7 * count) := by
  rw [Nat.mul_succ, Nat.pow_add, Nat.mul_comm]

/-- A value placed at group `count` is its low seven bits there plus the rest one group up. -/
private theorem split_low_group (value count : Nat) :
    value * 2 ^ (7 * count) = value % 128 * 2 ^ (7 * count) + value / 128 * 2 ^ (7 * (count + 1)) := by
  rw [pow_seven_succ]
  calc value * 2 ^ (7 * count) = (value % 128 + 128 * (value / 128)) * 2 ^ (7 * count) := by
        rw [Nat.mod_add_div]
    _ = _ := by ring

/-- The decoder's loop at byte `count`, with `acc` holding the groups already read,
reads back the remaining groups of a value of at most 64 bits. -/
theorem decodeVarintLoop_encode (rest : List UInt8) :
    ∀ iterations count acc value, count + iterations = 10 → count ≤ 9 →
      acc < 2 ^ (7 * count) → acc + value * 2 ^ (7 * count) < 2 ^ 64 →
      decodeVarintLoop iterations count acc (encodeVarintLoop iterations value ++ rest) =
        .ok (acc + value * 2 ^ (7 * count), rest) := by
  intro iterations
  induction iterations with
  | zero => intro count _ _ total inside; omega
  | succ iterations ih =>
    intro count acc value total inside below fits
    have shifted : ∀ low, low < 128 → (low &&& 0x7F) <<< (count * 7) = low * 2 ^ (7 * count) := by
      intro low small
      rw [low_bits, Nat.mod_eq_of_lt small, Nat.shiftLeft_eq, Nat.mul_comm count]
    by_cases small : value < 0x80
    · have stop : ¬ (count = 9 ∧ 2 ≤ value) := by
        rintro ⟨rfl, two⟩
        have := Nat.mul_le_mul_right (2 ^ (7 * 9)) two
        norm_num at this fits
        omega
      have group : value * 2 ^ (7 * count) % 2 ^ 64 = value * 2 ^ (7 * count) :=
        Nat.mod_eq_of_lt (by omega)
      simp only [encodeVarintLoop_of_lt small, List.singleton_append, decodeVarintLoop,
        Nat.toUInt8, UInt8.toNat_ofNat_of_lt (by omega : value < 256), shifted value small, group,
        or_shift_eq_add below]
      simp [stop, Nat.le_of_lt_succ small]
    · have large : 0x80 ≤ value := Nat.not_lt.mp small
      have eight := count_le_eight count large (by omega)
      have low : value % 128 < 128 := Nat.mod_lt _ (by decide)
      have scale := pow_seven_succ count
      have lowPart : value % 128 * 2 ^ (7 * count) ≤ 127 * 2 ^ (7 * count) :=
        Nat.mul_le_mul_right _ (Nat.le_of_lt_succ low)
      have bounded : 2 ^ (7 * count) ≤ 2 ^ 56 := Nat.pow_le_pow_right (by decide) (by omega)
      have split := split_low_group value count
      have byte : (value % 128 + 128) &&& 0x7F = value % 128 := by
        rw [low_bits]; omega
      have next := ih (count + 1) (acc + value % 128 * 2 ^ (7 * count)) (value / 128) (by omega)
        (by omega) (by rw [scale]; omega) (by omega)
      rw [encodeVarintLoop_of_le large, List.cons_append, decodeVarintLoop]
      simp only [Nat.toUInt8, UInt8.toNat_ofNat_of_lt (by omega : value % 128 + 128 < 256),
        show ¬ value % 128 + 128 ≤ 0x7F by omega, if_false, byte, Nat.shiftLeft_eq,
        Nat.mul_comm count 7, Nat.mod_eq_of_lt (by omega : value % 128 * 2 ^ (7 * count) < 2 ^ 64),
        or_shift_eq_add below]
      rw [next, split, Nat.add_assoc]

/-- `decode_varint` reads back every `u64` `encode_varint` wrote, leaving what follows. -/
theorem decodeVarint_encodeVarint {value : Nat} (fits : value < 2 ^ 64) (rest : List UInt8) :
    decodeVarint (encodeVarint value ++ rest) = .ok (value, rest) := by
  have := decodeVarintLoop_encode rest 10 0 0 value rfl (by decide) (by decide) (by simpa using fits)
  simpa [decodeVarint, encodeVarint] using this

/-! ### The length `encoded_len_varint` predicts -/

theorem encodeVarintLoop_ne_nil (iterations value : Nat) :
    encodeVarintLoop (iterations + 1) value ≠ [] := by
  by_cases small : value < 0x80
  · simp [encodeVarintLoop_of_lt small]
  · simp [encodeVarintLoop_of_le (Nat.not_lt.mp small)]

/-- `k` groups of seven bits suffice exactly for the values below `2 ^ (7 * k)`. -/
theorem length_encodeVarintLoop_le_iff :
    ∀ iterations value k, value < 2 ^ (7 * iterations) → 1 ≤ k →
      ((encodeVarintLoop iterations value).length ≤ k ↔ value < 2 ^ (7 * k)) := by
  intro iterations
  induction iterations with
  | zero =>
    intro value k fits _
    have := Nat.two_pow_pos (7 * k)
    simp only [Nat.mul_zero, Nat.pow_zero] at fits
    simp only [encodeVarintLoop, List.length_nil]
    omega
  | succ iterations ih =>
    intro value k fits one
    have wide : 2 ^ 7 ≤ 2 ^ (7 * k) := Nat.pow_le_pow_right (by decide) (by omega)
    by_cases small : value < 0x80
    · simp only [encodeVarintLoop_of_lt small, List.length_singleton]
      omega
    · have large : 0x80 ≤ value := Nat.not_lt.mp small
      have rest : value / 128 < 2 ^ (7 * iterations) := by
        rw [Nat.div_lt_iff_lt_mul (by decide)]
        rwa [Nat.mul_succ, Nat.pow_add] at fits
      have nonempty : iterations ≠ 0 := by rintro rfl; omega
      obtain ⟨iterations, rfl⟩ := Nat.exists_eq_succ_of_ne_zero nonempty
      have more := List.length_pos.mpr (encodeVarintLoop_ne_nil iterations (value / 128))
      rw [encodeVarintLoop_of_le large, List.length_cons]
      rcases Nat.lt_or_ge k 2 with single | _
      · obtain rfl : k = 1 := by omega
        rw [Nat.mul_one]
        constructor <;> intro <;> omega
      · have scale : 2 ^ (7 * (k - 1 + 1)) = 2 ^ (7 * (k - 1)) * 128 := by
          rw [Nat.mul_add, Nat.mul_one, Nat.pow_add]
        rw [show k = (k - 1) + 1 by omega, Nat.add_le_add_iff_right, ih _ _ rest (by omega),
          scale, Nat.div_lt_iff_lt_mul (by decide)]

/-- A value below `2 ^ width` has at most `k` significant bits exactly when it is below
`2 ^ k`. -/
theorem bitLength_le_iff :
    ∀ width value k, value < 2 ^ width → (bitLength width value ≤ k ↔ value < 2 ^ k) := by
  intro width
  induction width with
  | zero =>
    intro value k fits
    have := Nat.two_pow_pos k
    simp only [Nat.pow_zero] at fits
    simp only [bitLength, Nat.zero_le, true_iff]
    omega
  | succ width ih =>
    intro value k fits
    by_cases zero : value = 0
    · simp [bitLength, zero, Nat.two_pow_pos]
    · have half : value >>> 1 < 2 ^ width := by
        rw [Nat.shiftRight_eq_div_pow, Nat.div_lt_iff_lt_mul (by decide)]
        rwa [Nat.pow_succ] at fits
      cases k with
      | zero => simp [bitLength, zero]
      | succ k =>
        rw [bitLength, if_neg zero, Nat.add_le_add_iff_right, ih _ _ half,
          Nat.shiftRight_eq_div_pow, Nat.pow_one, Nat.div_lt_iff_lt_mul (by decide), Nat.pow_succ]

theorem or_one (value : Nat) : value ||| 1 = 2 * (value / 2) + 1 := by
  have lowBit : value % 2 ||| 1 = 1 := by
    rcases Nat.mod_two_eq_zero_or_one value with parity | parity <;> simp [parity]
  calc value ||| 1 = (2 ^ 1 * (value / 2) + value % 2) ||| 1 := by rw [Nat.pow_one, Nat.div_add_mod]
    _ = 2 ^ 1 * (value / 2) + 1 := by
      rw [Nat.mul_add_lt_is_or (Nat.mod_lt _ (by decide)), Nat.or_assoc, lowBit,
        ← Nat.mul_add_lt_is_or (by decide : 1 < 2 ^ 1)]
    _ = 2 * (value / 2) + 1 := by rw [Nat.pow_one]

theorem or_one_lt_iff {value k : Nat} (one : 1 ≤ k) : value ||| 1 < 2 ^ k ↔ value < 2 ^ k := by
  have double : 2 ^ k = 2 * 2 ^ (k - 1) := by rw [← Nat.pow_succ']; congr 1; omega
  rw [or_one, double]
  omega

theorem xor_sixty_three : ∀ x < 64, x ^^^ 63 = 63 - x := by decide

/-- `encoded_len_varint` is the length of what `encode_varint` writes, for every `u64`. -/
theorem encodedLenVarint_eq_length {value : Nat} (fits : value < 2 ^ 64) :
    encodedLenVarint value = (encodeVarint value).length := by
  set bits := bitLength 64 (value ||| 1)
  have below : value ||| 1 < 2 ^ 64 := (or_one_lt_iff (by decide)).mpr fits
  have upper : bits ≤ 64 := (bitLength_le_iff 64 _ 64 below).mpr below
  have lower : 1 ≤ bits := by
    by_contra none
    have := (bitLength_le_iff 64 _ 0 below).mp (by omega)
    rw [or_one] at this; omega
  have formula : encodedLenVarint value = (bits - 1) / 7 + 1 := by
    rw [encodedLenVarint, leadingZeros64, xor_sixty_three _ (by omega)]
    omega
  have groups := fun k => length_encodeVarintLoop_le_iff 10 value k
    (Nat.lt_of_lt_of_le fits (Nat.pow_le_pow_right (by decide) (by decide)))
  have nonempty : 0 < (encodeVarintLoop 10 value).length :=
    List.length_pos.mpr (encodeVarintLoop_ne_nil 9 value)
  rw [formula, encodeVarint]
  apply Nat.le_antisymm
  · by_contra short
    have fewer := (groups ((bits - 1) / 7) (by omega)).mp (by omega)
    have := (bitLength_le_iff 64 _ _ below).mpr ((or_one_lt_iff (by omega)).mpr fewer)
    omega
  · apply (groups _ (by omega)).mpr
    calc value < 2 ^ bits := (or_one_lt_iff lower).mp ((bitLength_le_iff 64 _ _ below).mp le_rfl)
      _ ≤ 2 ^ (7 * ((bits - 1) / 7 + 1)) := Nat.pow_le_pow_right (by decide) (by omega)

/-! ### Field keys -/

theorem WireType.tryFrom_toNat (wireType : WireType) :
    WireType.tryFrom wireType.toNat = .ok wireType := by
  cases wireType <;> rfl

theorem keyValue_eq (tag : Tag) (wireType : WireType) :
    keyValue tag.val wireType = tag.val * 8 + wireType.toNat := by
  have small : wireType.toNat < 2 ^ 3 := by cases wireType <;> decide
  rw [keyValue, Nat.shiftLeft_eq, Nat.or_comm, or_shift_eq_add small, Nat.add_comm]
  exact Nat.mod_eq_of_lt (by have := tag.le_max; omega)

/-- `decode_key` reads back the tag and wire type `encode_key` wrote, for every valid tag. -/
theorem decodeKey_encodeKey (tag : Tag) (wireType : WireType) (rest : List UInt8) :
    decodeKey (encodeKey tag wireType ++ rest) = .ok ((tag.val, wireType), rest) := by
  have small : wireType.toNat < 8 := by cases wireType <;> decide
  have bound := tag.le_max
  have positive := tag.min_le
  rw [decodeKey, encodeKey, keyValue_eq, decodeVarint_encodeVarint (by omega)]
  have mask : (tag.val * 8 + wireType.toNat) &&& 0x07 = wireType.toNat := by
    rw [show (0x07 : Nat) = 2 ^ 3 - 1 from rfl, Nat.and_pow_two_sub_one_eq_mod]; omega
  have shift : (tag.val * 8 + wireType.toNat) >>> 3 = tag.val := by
    rw [Nat.shiftRight_eq_div_pow]; omega
  simp only [bind, Except.bind, mask, WireType.tryFrom_toNat, shift, pure, Except.pure,
    show ¬ tag.val * 8 + wireType.toNat > 0xFFFFFFFF by omega, show ¬ tag.val < 1 by omega,
    if_false]

end GlareDb.Proofs.VarintCodec
