import GlareDb.Proofs.DecodeFuel
import GlareDb.Proofs.VarintCodec

set_option autoImplicit false

/-! Every `DropCredentials` node survives `try_encode` followed by prost's decoder and
`try_decode`: any list of names, empty, duplicated or non-ASCII, and either flag. The
length prefix of the nested message is `encoded_len`, so this rests on `encoded_len`
agreeing with `encode_raw`, which is proved first. The decoder here is prost's own: its
model's fuel never decides a result (`DecodeFuel.decode_fuel_sufficient`). -/

namespace GlareDb.Proofs.DropCredentialsCodec
open GlareDb.Prost GlareDb.Sqlexec GlareDb.Proofs.VarintCodec

/-! ### `encoded_len` is the length of `encode_raw` -/

/-- Two `u64`s below the same powers `2 ^ (7 * k)` take the same number of bytes. -/
private theorem length_encodeVarint_congr {small large : Nat} (fitsSmall : small < 2 ^ 64)
    (fitsLarge : large < 2 ^ 64) (same : ∀ k, 1 ≤ k → (small < 2 ^ (7 * k) ↔ large < 2 ^ (7 * k))) :
    (encodeVarint small).length = (encodeVarint large).length := by
  have wide : 2 ^ 64 ≤ 2 ^ (7 * 10) := Nat.pow_le_pow_right (by decide) (by decide)
  have groups := fun value (below : value < 2 ^ 64) k (one : 1 ≤ k) =>
    length_encodeVarintLoop_le_iff 10 value k (Nat.lt_of_lt_of_le below wide) one
  have one : ∀ value, 1 ≤ (encodeVarint value).length := fun value =>
    List.length_pos.mpr (encodeVarintLoop_ne_nil 9 value)
  apply Nat.le_antisymm
  · exact (groups small fitsSmall _ (one large)).mpr
      ((same _ (one large)).mpr ((groups large fitsLarge _ (one large)).mp le_rfl))
  · exact (groups large fitsLarge _ (one small)).mpr
      ((same _ (one small)).mp ((groups small fitsSmall _ (one small)).mp le_rfl))

theorem keyLen_eq (tag : Tag) (wireType : WireType) :
    keyLen tag = (encodeKey tag wireType).length := by
  have bound := tag.le_max
  have small : wireType.toNat < 8 := by cases wireType <;> decide
  have shifted : (tag.val <<< 3) % 2 ^ 32 = tag.val * 8 := by
    rw [Nat.shiftLeft_eq]; exact Nat.mod_eq_of_lt (by omega)
  rw [keyLen, shifted, encodedLenVarint_eq_length (by omega), encodeKey, keyValue_eq]
  apply length_encodeVarint_congr (by omega) (by omega)
  intro k one
  have split : 2 ^ (7 * k) = 2 ^ (7 * k - 3) * 8 := by
    rw [show (8 : Nat) = 2 ^ 3 from rfl, ← Nat.pow_add]; congr 1; omega
  rw [split]
  omega

theorem encodedLenVarint_mod (value : Nat) :
    encodedLenVarint (value % 2 ^ 64) = (encodeVarint (value % 2 ^ 64)).length :=
  encodedLenVarint_eq_length (Nat.mod_lt _ (Nat.two_pow_pos 64))

theorem encodedLenRepeatedString_eq (tag : Tag) (values : List RustString) :
    encodedLenRepeatedString tag values = (encodeRepeatedString tag values).length := by
  induction values with
  | nil => simp [encodedLenRepeatedString, encodeRepeatedString]
  | cons value values ih =>
    simp only [encodedLenRepeatedString, encodeRepeatedString, List.flatMap_cons,
      List.length_append, encodeString, ← keyLen_eq, ← encodedLenVarint_mod,
      List.map_cons, List.foldr_cons, List.length_cons] at ih ⊢
    rw [← ih]
    ring

theorem encodedLenBool_eq (tag : Tag) (value : Bool) :
    encodedLenBool tag value = (encodeBool tag value).length := by
  have fits : (if value then 1 else 0) < 2 ^ 64 := by split <;> decide
  rw [encodedLenBool, encodeBool, List.length_append, ← keyLen_eq, encodedLenVarint_eq_length fits]

theorem encodedLenMessage_eq (tag : Tag) (raw : List UInt8) :
    encodedLenMessage tag raw.length = (encodeMessage tag raw.length raw).length := by
  simp only [encodedLenMessage, encodeMessage, List.length_append, ← keyLen_eq,
    encodedLenVarint_mod]

variable (tags : ProtoTags)

theorem DropCredentialsProto.encodedLen_eq (proto : DropCredentialsProto) :
    proto.encodedLen tags = (proto.encodeRaw tags).length := by
  cases proto with
  | mk names ifExists =>
    cases ifExists <;>
      simp [DropCredentialsProto.encodedLen, DropCredentialsProto.encodeRaw,
        encodedLenRepeatedString_eq, encodedLenBool_eq]

theorem LogicalPlanExtension.encodedLen_eq (extension : LogicalPlanExtension) :
    extension.encodedLen tags = (extension.encodeRaw tags).length := by
  rcases extension with ⟨_ | ⟨proto⟩⟩
  · rfl
  · simp only [LogicalPlanExtension.encodedLen, LogicalPlanExtension.encodeRaw,
      DropCredentialsProto.encodedLen_eq, encodedLenMessage_eq]

/-! ### Decoding what was encoded -/

theorem checkWireType_self (wireType : WireType) : checkWireType wireType wireType = .ok () := by
  simp [checkWireType]

theorem mergeString_encode (value : RustString) (fits : value.bytes.length < 2 ^ 64)
    (rest : List UInt8) :
    mergeString .lengthDelimited
        (encodeVarint (value.bytes.length % 2 ^ 64) ++ (value.bytes ++ rest)) = .ok (value, rest) := by
  obtain ⟨bytes, valid⟩ := value
  rw [Nat.mod_eq_of_lt fits]
  simp [mergeString, checkWireType_self, decodeVarint_encodeVarint fits, bind, Except.bind, pure,
    Except.pure, valid]

theorem mergeBool_encode (value : Bool) (rest : List UInt8) :
    mergeBool .varint (encodeVarint (if value then 1 else 0) ++ rest) = .ok (value, rest) := by
  cases value <;>
    simp [mergeBool, checkWireType_self, decodeVarint_encodeVarint, bind, Except.bind, pure,
      Except.pure]

section Loop
variable {M : Type} (mergeField : MergeField M)

theorem mergeFields_done {fuel limit : Nat} {value : M} {buf : List UInt8} {ctx : DecodeContext}
    (stop : buf.length ≤ limit) : mergeFields mergeField fuel limit value buf ctx = .ok (value, buf) := by
  unfold mergeFields
  simp [Nat.not_lt.mpr stop, pure, Except.pure]

theorem mergeFields_field {fuel limit tag : Nat} {wireType : WireType} {value next : M}
    {buf after rest : List UInt8} {ctx : DecodeContext} (more : limit < buf.length)
    (key : decodeKey buf = .ok ((tag, wireType), after))
    (field : mergeField fuel value tag wireType after ctx = .ok (next, rest)) :
    mergeFields mergeField (fuel + 1) limit value buf ctx =
      mergeFields mergeField fuel limit next rest ctx := by
  conv_lhs => unfold mergeFields
  simp [more, key, field, bind, Except.bind]

end Loop

theorem mergeField_names (fuel : Nat) (proto : DropCredentialsProto) (value : RustString)
    (fits : value.bytes.length < 2 ^ 64) (rest : List UInt8) (ctx : DecodeContext) :
    DropCredentialsProto.mergeField tags fuel proto tags.names.val .lengthDelimited
        (encodeVarint (value.bytes.length % 2 ^ 64) ++ (value.bytes ++ rest)) ctx =
      .ok ({ proto with names := proto.names ++ [value] }, rest) := by
  simp only [DropCredentialsProto.mergeField, if_true, mergeRepeatedString, checkWireType_self,
    mergeString_encode value fits, bind, Except.bind, pure, Except.pure]

theorem mergeField_ifExists (fuel : Nat) (proto : DropCredentialsProto) (rest : List UInt8)
    (ctx : DecodeContext) :
    DropCredentialsProto.mergeField tags fuel proto tags.ifExists.val .varint
        (encodeVarint 1 ++ rest) ctx = .ok ({ proto with ifExists := true }, rest) := by
  have decoded : mergeBool .varint (encodeVarint 1 ++ rest) = .ok (true, rest) :=
    mergeBool_encode true rest
  simp only [DropCredentialsProto.mergeField, Ne.symm tags.distinct, if_false, if_true, decoded]

private theorem encodeKey_ne_nil (tag : Tag) (wireType : WireType) : encodeKey tag wireType ≠ [] :=
  encodeVarintLoop_ne_nil 9 _

/-- The repeated `names` field: one merged and pushed value per encoded name. -/
theorem mergeFields_names (names : List RustString)
    (fits : ∀ name ∈ names, name.bytes.length < 2 ^ 64) :
    ∀ (proto : DropCredentialsProto) (fuel limit : Nat) (tail : List UInt8) (ctx : DecodeContext),
      names.length ≤ fuel → limit ≤ tail.length →
      mergeFields (DropCredentialsProto.mergeField tags) fuel limit proto
          (encodeRepeatedString tags.names names ++ tail) ctx =
        mergeFields (DropCredentialsProto.mergeField tags) (fuel - names.length) limit
          { proto with names := proto.names ++ names } tail ctx := by
  induction names with
  | nil => intro proto fuel limit tail ctx _ _; simp [encodeRepeatedString]
  | cons name names ih =>
    intro proto fuel limit tail ctx enough short
    obtain ⟨fuel, rfl⟩ : ∃ rest, fuel = rest + 1 := ⟨fuel - 1, by simp at enough; omega⟩
    have key := List.length_pos.mpr (encodeKey_ne_nil tags.names .lengthDelimited)
    have more : limit < (encodeKey tags.names .lengthDelimited ++
        (encodeVarint (name.bytes.length % 2 ^ 64) ++
          (name.bytes ++ (encodeRepeatedString tags.names names ++ tail)))).length := by
      simp only [List.length_append]; omega
    have step := mergeFields_field (DropCredentialsProto.mergeField tags) more
      (decodeKey_encodeKey tags.names .lengthDelimited _)
      (mergeField_names tags fuel proto name (fits name (List.mem_cons_self _ _)) _ ctx)
    have next := ih (fun other member => fits other (List.mem_cons_of_mem _ member))
      { proto with names := proto.names ++ [name] } fuel limit tail ctx
      (by simp at enough; omega) short
    simp only [encodeRepeatedString, List.flatMap_cons, encodeString, List.append_assoc] at step next ⊢
    rw [step, next]
    simp

theorem length_le_encodeRepeatedString (tag : Tag) (names : List RustString) :
    names.length ≤ (encodeRepeatedString tag names).length := by
  induction names with
  | nil => simp [encodeRepeatedString]
  | cons name names ih =>
    have key := List.length_pos.mpr (encodeKey_ne_nil tag .lengthDelimited)
    simp only [encodeRepeatedString, List.flatMap_cons, encodeString, List.length_append,
      List.length_cons] at ih ⊢
    omega

theorem name_length_le (tag : Tag) {names : List RustString} {name : RustString}
    (member : name ∈ names) : name.bytes.length ≤ (encodeRepeatedString tag names).length := by
  induction names with
  | nil => cases member
  | cons first names ih =>
    simp only [encodeRepeatedString, List.flatMap_cons, encodeString, List.length_append] at ih ⊢
    rcases List.mem_cons.mp member with rfl | later
    · omega
    · have := ih later; omega

/-- The whole body of a `DropCredentials` message merges into the default value. -/
theorem mergeFields_encodeRaw (proto : DropCredentialsProto)
    (fits : ∀ name ∈ proto.names, name.bytes.length < 2 ^ 64) (fuel : Nat)
    (enough : proto.names.length + 1 ≤ fuel) (tail : List UInt8) (ctx : DecodeContext) :
    mergeFields (DropCredentialsProto.mergeField tags) fuel tail.length DropCredentialsProto.default
        (proto.encodeRaw tags ++ tail) ctx = .ok (proto, tail) := by
  obtain ⟨names, ifExists⟩ := proto
  cases ifExists with
  | false =>
    simp only [DropCredentialsProto.encodeRaw, ne_eq, not_true_eq_false, if_false,
      List.append_nil]
    rw [mergeFields_names tags names fits _ _ _ _ _ (by simp at enough; omega) le_rfl,
      mergeFields_done _ le_rfl]
    rfl
  | true =>
    obtain ⟨rest, split⟩ : ∃ rest, fuel - names.length = rest + 1 :=
      ⟨fuel - names.length - 1, by simp at enough; omega⟩
    simp only [DropCredentialsProto.encodeRaw, ne_eq, Bool.true_eq_false, not_false_eq_true,
      if_true, List.append_assoc]
    rw [mergeFields_names tags names fits _ _ _ _ _ (by simp at enough; omega)
      (by simp only [List.length_append]; omega), split]
    have key := List.length_pos.mpr (encodeKey_ne_nil tags.ifExists .varint)
    have more : tail.length < (encodeKey tags.ifExists .varint ++ (encodeVarint 1 ++ tail)).length := by
      simp only [List.length_append]; omega
    simp only [encodeBool, List.append_assoc, if_true]
    rw [mergeFields_field _ more (decodeKey_encodeKey tags.ifExists .varint _)
        (mergeField_ifExists tags rest _ tail ctx), mergeFields_done _ le_rfl]
    rfl

theorem mergeMessage_encode (proto : DropCredentialsProto)
    (fits : ∀ name ∈ proto.names, name.bytes.length < 2 ^ 64)
    (fitsLen : proto.encodedLen tags < 2 ^ 64) (fuel : Nat) (enough : proto.names.length + 1 ≤ fuel)
    (rest : List UInt8) (ctx : DecodeContext) (live : ctx.recurseCount ≠ 0) :
    mergeMessage (DropCredentialsProto.mergeField tags) fuel .lengthDelimited .default
        (encodeVarint (proto.encodedLen tags % 2 ^ 64) ++ (proto.encodeRaw tags ++ rest)) ctx =
      .ok (proto, rest) := by
  rw [DropCredentialsProto.encodedLen_eq] at fitsLen ⊢
  rw [Nat.mod_eq_of_lt fitsLen]
  have body := mergeFields_encodeRaw tags proto fits fuel enough rest ctx.enterRecursion
  simp only [mergeMessage, mergeLoop, checkWireType_self, DecodeContext.limitReached, live,
    if_false, decodeVarint_encodeVarint fitsLen, bind, Except.bind, pure, Except.pure,
    List.length_append, Nat.add_sub_cancel_left, body]
  simp

/-- A buffer holding one field, which its `merge_field` reads whole from the default
value, decodes to what that field gives. -/
theorem decodeMessage_single {M : Type} (mergeField : MergeField M) (default value : M) (tag : Tag)
    (wireType : WireType) (body : List UInt8)
    (field : ∀ fuel, body.length ≤ fuel →
      mergeField fuel default tag.val wireType body .default = .ok (value, [])) :
    decodeMessage mergeField default (encodeKey tag wireType ++ body) = .ok value := by
  have key := List.length_pos.mpr (encodeKey_ne_nil tag wireType)
  have whole : mergeFields mergeField (2 * (encodeKey tag wireType ++ body).length + 1) 0 default
      (encodeKey tag wireType ++ body) .default =
      mergeFields mergeField (2 * (encodeKey tag wireType ++ body).length) 0 value [] .default :=
    mergeFields_field mergeField (by simp only [List.length_append]; omega)
      (decodeKey_encodeKey tag wireType body) (field _ (by simp only [List.length_append]; omega))
  rw [decodeMessage, whole,
    mergeFields_done mergeField (show ([] : List UInt8).length ≤ 0 from Nat.le_refl 0)]
  rfl

/-- `Message::decode` reads back a `LogicalPlanExtension` holding a `DropCredentials`
message whose encoding fits a `Vec<u8>`. -/
theorem decode_encodeRaw (proto : DropCredentialsProto)
    (fits : (LogicalPlanExtension.mk (some (.dropCredentials proto))).encodedLen tags ≤ isizeMax) :
    LogicalPlanExtension.decode tags
        ((LogicalPlanExtension.mk (some (.dropCredentials proto))).encodeRaw tags) =
      .ok ⟨some (.dropCredentials proto)⟩ := by
  rw [LogicalPlanExtension.encodedLen_eq] at fits
  simp only [LogicalPlanExtension.encodeRaw, encodeMessage, List.length_append,
    DropCredentialsProto.encodedLen_eq] at fits ⊢
  have rawLength : (proto.encodeRaw tags).length < 2 ^ 64 := by unfold isizeMax at fits; omega
  have namesFit : ∀ name ∈ proto.names, name.bytes.length < 2 ^ 64 := by
    intro name member
    have := name_length_le tags.names member
    simp only [DropCredentialsProto.encodeRaw, List.length_append] at rawLength
    omega
  have fewer : proto.names.length ≤ (proto.encodeRaw tags).length := by
    have := length_le_encodeRepeatedString tags.names proto.names
    simp only [DropCredentialsProto.encodeRaw, List.length_append]; omega
  rw [List.append_assoc]
  apply decodeMessage_single
  intro fuel enough
  have prefixed : 0 < (encodeVarint ((proto.encodeRaw tags).length % 2 ^ 64)).length :=
    List.length_pos.mpr (encodeVarintLoop_ne_nil 9 _)
  have nested := mergeMessage_encode tags proto namesFit
    (by rw [DropCredentialsProto.encodedLen_eq]; exact rawLength) fuel
    (by simp only [List.length_append] at enough; omega) [] .default (by decide)
  rw [DropCredentialsProto.encodedLen_eq, List.append_nil] at nested
  simp only [LogicalPlanExtension.mergeField, if_true, LogicalPlanExtensionType.merge, nested]

/-- `try_encode` into an empty buffer, then prost's decoder, then `try_decode`, give back
the node: the decoder never fails on those bytes, and finds the `DropCredentials`
variant with the node's names, in order, and its flag. -/
theorem try_encode_round_trip (node : DropCredentials) (bytes : List UInt8)
    (encoded : node.tryEncode tags [] = .ok bytes) :
    ∃ proto, LogicalPlanExtension.decode tags bytes = .ok ⟨some (.dropCredentials proto)⟩ ∧
      DropCredentials.tryDecode proto = .ok node := by
  refine ⟨⟨node.names, node.ifExists⟩, ?_, rfl⟩
  by_cases fits : (LogicalPlanExtension.mk
      (some (.dropCredentials ⟨node.names, node.ifExists⟩))).encodedLen tags ≤ isizeMax
  · simp only [DropCredentials.tryEncode, LogicalPlanExtension.encode, List.length_nil,
      Nat.sub_zero, Nat.not_lt.mpr fits, if_false, List.nil_append, Except.ok.injEq] at encoded
    rw [← encoded]
    exact decode_encodeRaw tags _ fits
  · simp [DropCredentials.tryEncode, LogicalPlanExtension.encode, Nat.lt_of_not_le fits] at encoded

/-- Field numbers for a sample: the repeated names first, then the flag. -/
def sampleTags : ProtoTags :=
  ⟨⟨1, by decide, by decide⟩, ⟨2, by decide, by decide⟩, ⟨12, by decide, by decide⟩, by decide⟩

/-- A node with a non-ASCII name, an empty name and the flag set. -/
def sampleNode : DropCredentials :=
  ⟨[⟨[0x61, 0xC3, 0xA9], by decide⟩, ⟨[], by decide⟩], true⟩

theorem try_encode_round_trip_sample :
    sampleNode.tryEncode sampleTags [] = .ok [98, 9, 10, 3, 97, 195, 169, 10, 0, 16, 1] ∧
      ∃ proto, LogicalPlanExtension.decode sampleTags [98, 9, 10, 3, 97, 195, 169, 10, 0, 16, 1] =
        .ok ⟨some (.dropCredentials proto)⟩ ∧ DropCredentials.tryDecode proto = .ok sampleNode :=
  ⟨by decide, try_encode_round_trip sampleTags sampleNode _ (by decide)⟩

end GlareDb.Proofs.DropCredentialsCodec
