import Mathlib.Data.List.Basic
import Mathlib.Algebra.Group.Nat.Basic

set_option autoImplicit false

/-! The prost primitives the plan codec is built from: LEB128 varints, field keys and the
decode errors (`prost::encoding`). Values are `Nat`; every `as u64` and every `u32`
shift of the source is an explicit reduction. -/

namespace GlareDb.Prost

instance instDecidableEqExcept {ε α : Type} [DecidableEq ε] [DecidableEq α] :
    DecidableEq (Except ε α)
  | .ok a, .ok b => if same : a = b then isTrue (same ▸ rfl) else isFalse fun e => by cases e; exact same rfl
  | .error a, .error b =>
    if same : a = b then isTrue (same ▸ rfl) else isFalse fun e => by cases e; exact same rfl
  | .ok _, .error _ => isFalse fun e => by cases e
  | .error _, .ok _ => isFalse fun e => by cases e

/-- `prost::DecodeError`: a description and the `(message, field)` path that
`DecodeError::push` builds while an error leaves nested messages. -/
structure DecodeError where
  description : String
  stack : List (String × String)
  deriving DecidableEq, Repr

/-- `DecodeError::new`. -/
def DecodeError.new (description : String) : DecodeError := ⟨description, []⟩

/-- `DecodeError::push`. -/
def DecodeError.push (error : DecodeError) (message field : String) : DecodeError :=
  { error with stack := error.stack ++ [(message, field)] }

/-- `WireType`. -/
inductive WireType where
  | varint
  | sixtyFourBit
  | lengthDelimited
  | startGroup
  | endGroup
  | thirtyTwoBit
  deriving DecidableEq, Repr

/-- `wire_type as u32`. -/
def WireType.toNat : WireType → Nat
  | .varint => 0
  | .sixtyFourBit => 1
  | .lengthDelimited => 2
  | .startGroup => 3
  | .endGroup => 4
  | .thirtyTwoBit => 5

/-- `{:?}` of a wire type. -/
def WireType.debug : WireType → String
  | .varint => "Varint"
  | .sixtyFourBit => "SixtyFourBit"
  | .lengthDelimited => "LengthDelimited"
  | .startGroup => "StartGroup"
  | .endGroup => "EndGroup"
  | .thirtyTwoBit => "ThirtyTwoBit"

/-- `WireType::try_from(u64)`. -/
def WireType.tryFrom (value : Nat) : Except DecodeError WireType :=
  match value with
  | 0 => .ok .varint
  | 1 => .ok .sixtyFourBit
  | 2 => .ok .lengthDelimited
  | 3 => .ok .startGroup
  | 4 => .ok .endGroup
  | 5 => .ok .thirtyTwoBit
  | _ => .error (.new ("invalid wire type value: " ++ toString value))

/-- The loop of `encode_varint`, with the iterations it has left: seven payload bits per
byte, low group first, the continuation bit on every byte but the last. -/
def encodeVarintLoop : Nat → Nat → List UInt8
  | 0, _ => []
  | iterations + 1, value =>
    if value < 0x80 then [value.toUInt8]
    else ((value &&& 0x7F) ||| 0x80).toUInt8 :: encodeVarintLoop iterations (value >>> 7)

/-- `encode_varint`: a `u64` never needs more than ten bytes. -/
def encodeVarint (value : Nat) : List UInt8 := encodeVarintLoop 10 value

/-- The number of significant bits of a value below `2 ^ width`. -/
def bitLength : Nat → Nat → Nat
  | 0, _ => 0
  | width + 1, value => if value = 0 then 0 else bitLength width (value >>> 1) + 1

/-- `u64::leading_zeros`. -/
def leadingZeros64 (value : Nat) : Nat := 64 - bitLength 64 value

/-- `encoded_len_varint`: `(((value | 1).leading_zeros() ^ 63) * 9 + 73) / 64`. -/
def encodedLenVarint (value : Nat) : Nat := ((leadingZeros64 (value ||| 1) ^^^ 63) * 9 + 73) / 64

/-- The loop of `decode_varint_slow` at byte `count`, with the iterations it has left:
`value |= u64::from(byte & 0x7F) << (count * 7)` until a byte below `0x80`; a tenth byte
above `1` overflows a `u64`. Running out of bytes or of iterations is an invalid varint. -/
def decodeVarintLoop : Nat → Nat → Nat → List UInt8 → Except DecodeError (Nat × List UInt8)
  | 0, _, _, _ => .error (.new "invalid varint")
  | _ + 1, _, _, [] => .error (.new "invalid varint")
  | iterations + 1, count, value, byte :: rest =>
    let value := value ||| ((byte.toNat &&& 0x7F) <<< (count * 7)) % 2 ^ 64
    if byte.toNat ≤ 0x7F then
      if count = 9 ∧ byte.toNat ≥ 0x02 then .error (.new "invalid varint")
      else .ok (value, rest)
    else decodeVarintLoop iterations (count + 1) value rest

/-- `decode_varint` on a contiguous buffer: the value and the bytes after it. -/
def decodeVarint (buf : List UInt8) : Except DecodeError (Nat × List UInt8) :=
  decodeVarintLoop 10 0 0 buf

/-- The tags a field may carry: `MIN_TAG ..= MAX_TAG`. -/
structure Tag where
  val : Nat
  min_le : 1 ≤ val
  le_max : val < 2 ^ 29
  deriving DecidableEq

/-- `(tag << 3) | wire_type as u32`, the `u32` a key carries. -/
def keyValue (tag : Nat) (wireType : WireType) : Nat := (tag <<< 3 ||| wireType.toNat) % 2 ^ 32

/-- `encode_key`. -/
def encodeKey (tag : Tag) (wireType : WireType) : List UInt8 :=
  encodeVarint (keyValue tag.val wireType)

/-- `key_len`. -/
def keyLen (tag : Tag) : Nat := encodedLenVarint ((tag.val <<< 3) % 2 ^ 32)

/-- `decode_key`: the tag and wire type of the next field. -/
def decodeKey (buf : List UInt8) : Except DecodeError ((Nat × WireType) × List UInt8) := do
  let (key, buf) ← decodeVarint buf
  if key > 0xFFFFFFFF then
    throw (.new ("invalid key value: " ++ toString key))
  let wireType ← WireType.tryFrom (key &&& 0x07)
  let tag := key >>> 3
  if tag < 1 then
    throw (.new "invalid tag value: 0")
  pure ((tag, wireType), buf)

/-- `check_wire_type`. -/
def checkWireType (expected actual : WireType) : Except DecodeError Unit :=
  if expected ≠ actual then
    .error (.new ("invalid wire type: " ++ actual.debug ++ " (expected " ++ expected.debug ++ ")"))
  else .ok ()

/-- `DecodeContext`: how many more nested messages may be entered. -/
structure DecodeContext where
  recurseCount : Nat
  deriving DecidableEq, Repr

/-- `DecodeContext::default`: `RECURSION_LIMIT` is 100. -/
def DecodeContext.default : DecodeContext := ⟨100⟩

/-- `DecodeContext::limit_reached`. -/
def DecodeContext.limitReached (ctx : DecodeContext) : Except DecodeError Unit :=
  if ctx.recurseCount = 0 then .error (.new "recursion limit reached") else .ok ()

/-- `DecodeContext::enter_recursion`. -/
def DecodeContext.enterRecursion (ctx : DecodeContext) : DecodeContext := ⟨ctx.recurseCount - 1⟩

end GlareDb.Prost
