import GlareDb.Prost.Varint

set_option autoImplicit false

/-! Field codecs of prost used by the plan messages: repeated strings, bools and nested
messages, the loop that merges a message's fields, and `skip_field` for unknown ones. -/

namespace GlareDb.Prost

/-- Well-formed UTF-8 (Unicode Table 3-7), the check `str::from_utf8` makes. -/
def utf8Valid : List UInt8 → Bool
  | [] => true
  | b0 :: rest =>
    if b0 < 0x80 then utf8Valid rest else
    match rest with
    | [] => false
    | b1 :: rest =>
      if 0xC2 ≤ b0 && b0 ≤ 0xDF then continuation b1 && utf8Valid rest else
      match rest with
      | [] => false
      | b2 :: rest =>
        if b0 = 0xE0 then (0xA0 ≤ b1 && b1 ≤ 0xBF) && continuation b2 && utf8Valid rest
        else if (0xE1 ≤ b0 && b0 ≤ 0xEC) || b0 = 0xEE || b0 = 0xEF then
          continuation b1 && continuation b2 && utf8Valid rest
        else if b0 = 0xED then (0x80 ≤ b1 && b1 ≤ 0x9F) && continuation b2 && utf8Valid rest
        else
        match rest with
        | [] => false
        | b3 :: rest =>
          if b0 = 0xF0 then
            (0x90 ≤ b1 && b1 ≤ 0xBF) && continuation b2 && continuation b3 && utf8Valid rest
          else if 0xF1 ≤ b0 && b0 ≤ 0xF3 then
            continuation b1 && continuation b2 && continuation b3 && utf8Valid rest
          else if b0 = 0xF4 then
            (0x80 ≤ b1 && b1 ≤ 0x8F) && continuation b2 && continuation b3 && utf8Valid rest
          else false
where
  continuation (byte : UInt8) : Bool := 0x80 ≤ byte && byte ≤ 0xBF

/-- `String`: its UTF-8 bytes, well formed as Rust's type guarantees. -/
structure RustString where
  bytes : List UInt8
  valid : utf8Valid bytes = true
  deriving DecidableEq

/-- `string::encode`: key, byte length, bytes. -/
def encodeString (tag : Tag) (value : RustString) : List UInt8 :=
  encodeKey tag .lengthDelimited ++ encodeVarint (value.bytes.length % 2 ^ 64) ++ value.bytes

/-- `string::encode_repeated`: one length-delimited field per value, in order. -/
def encodeRepeatedString (tag : Tag) (values : List RustString) : List UInt8 :=
  values.flatMap (encodeString tag)

/-- `string::encoded_len_repeated`. -/
def encodedLenRepeatedString (tag : Tag) (values : List RustString) : Nat :=
  keyLen tag * values.length +
    (values.map fun value => encodedLenVarint (value.bytes.length % 2 ^ 64) + value.bytes.length).foldr
      (· + ·) 0

/-- `bool::encode`. -/
def encodeBool (tag : Tag) (value : Bool) : List UInt8 :=
  encodeKey tag .varint ++ encodeVarint (if value then 1 else 0)

/-- `bool::encoded_len`. -/
def encodedLenBool (tag : Tag) (value : Bool) : Nat :=
  keyLen tag + encodedLenVarint (if value then 1 else 0)

/-- `message::encode`, given the nested message's `encoded_len` and `encode_raw`. -/
def encodeMessage (tag : Tag) (encodedLen : Nat) (encodeRaw : List UInt8) : List UInt8 :=
  encodeKey tag .lengthDelimited ++ encodeVarint (encodedLen % 2 ^ 64) ++ encodeRaw

/-- `message::encoded_len`. -/
def encodedLenMessage (tag : Tag) (encodedLen : Nat) : Nat :=
  keyLen tag + encodedLenVarint (encodedLen % 2 ^ 64) + encodedLen

/-- `string::merge`: `bytes::merge_one_copy`, then the UTF-8 check. -/
def mergeString (wireType : WireType) (buf : List UInt8) :
    Except DecodeError (RustString × List UInt8) := do
  checkWireType .lengthDelimited wireType
  let (len, buf) ← decodeVarint buf
  if len > buf.length then
    throw (.new "buffer underflow")
  let bytes := buf.take len
  if valid : utf8Valid bytes = true then pure (⟨bytes, valid⟩, buf.drop len)
  else throw (.new "invalid string value: data is not UTF-8 encoded")

/-- `string::merge_repeated`: a new value is merged and pushed. -/
def mergeRepeatedString (wireType : WireType) (values : List RustString) (buf : List UInt8) :
    Except DecodeError (List RustString × List UInt8) := do
  checkWireType .lengthDelimited wireType
  let (value, buf) ← mergeString wireType buf
  pure (values ++ [value], buf)

/-- `bool::merge`. -/
def mergeBool (wireType : WireType) (buf : List UInt8) : Except DecodeError (Bool × List UInt8) := do
  checkWireType .varint wireType
  let (value, buf) ← decodeVarint buf
  pure (value ≠ 0, buf)

mutual
/-- `skip_field`. `fuel` bounds the depth of the recursion through groups; every level
reads a key first, so twice the buffer's length is always enough. -/
def skipField : Nat → WireType → Nat → List UInt8 → DecodeContext →
    Except DecodeError (List UInt8)
  | 0, _, _, _, _ => .error (.new "recursion limit reached")
  | fuel + 1, wireType, tag, buf, ctx => do
    ctx.limitReached
    let (len, buf) ← match wireType with
      | .varint => do
        let (_, buf) ← decodeVarint buf
        pure (0, buf)
      | .thirtyTwoBit => pure (4, buf)
      | .sixtyFourBit => pure (8, buf)
      | .lengthDelimited => decodeVarint buf
      | .startGroup => skipGroup fuel tag buf ctx
      | .endGroup => throw (.new "unexpected end group tag")
    if len > buf.length then
      throw (.new "buffer underflow")
    pure (buf.drop len)

/-- The `StartGroup` loop of `skip_field`: skip fields until the matching end tag. -/
def skipGroup : Nat → Nat → List UInt8 → DecodeContext → Except DecodeError (Nat × List UInt8)
  | 0, _, _, _ => .error (.new "recursion limit reached")
  | fuel + 1, tag, buf, ctx => do
    let ((innerTag, innerWireType), buf) ← decodeKey buf
    match innerWireType with
    | .endGroup =>
      if innerTag ≠ tag then throw (.new "unexpected end group tag")
      else pure (0, buf)
    | _ => do
      let buf ← skipField fuel innerWireType innerTag buf ctx.enterRecursion
      skipGroup fuel tag buf ctx
end

/-- What a message's generated `merge_field` does with one field: given the remaining
fuel, the value so far, the field's tag and wire type, the buffer and the context. -/
abbrev MergeField (M : Type) :=
  Nat → M → Nat → WireType → List UInt8 → DecodeContext → Except DecodeError (M × List UInt8)

variable {M : Type}

/-- The loop of `merge_loop` and of `Message::merge`: decode a key and merge that field
while more than `limit` bytes remain. Every field consumes its key, so `fuel` at the
buffer's length never runs out. -/
def mergeFields (mergeField : MergeField M) :
    Nat → Nat → M → List UInt8 → DecodeContext → Except DecodeError (M × List UInt8)
  | fuel, limit, value, buf, ctx =>
    if buf.length > limit then
      match fuel with
      | 0 => .error (.new "recursion limit reached")
      | fuel + 1 => do
        let ((tag, wireType), buf) ← decodeKey buf
        let (value, buf) ← mergeField fuel value tag wireType buf ctx
        mergeFields mergeField fuel limit value buf ctx
    else pure (value, buf)

/-- `merge_loop`: a byte length, then the fields within exactly that many bytes. -/
def mergeLoop (mergeField : MergeField M) (fuel : Nat) (value : M) (buf : List UInt8)
    (ctx : DecodeContext) : Except DecodeError (M × List UInt8) := do
  let (len, buf) ← decodeVarint buf
  let remaining := buf.length
  if len > remaining then
    throw (.new "buffer underflow")
  let limit := remaining - len
  let (value, buf) ← mergeFields mergeField fuel limit value buf ctx
  if buf.length ≠ limit then
    throw (.new "delimited length exceeded")
  pure (value, buf)

/-- `message::merge`: a nested message, one recursion level deeper. -/
def mergeMessage (mergeField : MergeField M) (fuel : Nat) (wireType : WireType) (value : M)
    (buf : List UInt8) (ctx : DecodeContext) : Except DecodeError (M × List UInt8) := do
  checkWireType .lengthDelimited wireType
  ctx.limitReached
  mergeLoop mergeField fuel value buf ctx.enterRecursion

/-- `Message::decode`: merge every field of the buffer into the default value. -/
def decodeMessage (mergeField : MergeField M) (default : M) (buf : List UInt8) :
    Except DecodeError M := do
  let (value, _) ← mergeFields mergeField (2 * buf.length + 1) 0 default buf .default
  pure value

end GlareDb.Prost
