import GlareDb.Sqlexec.DropCredentials

set_option autoImplicit false

/-! The fuel of the decoder model never decides its result. prost's loops stop because each
step consumes input: a varint takes one to ten bytes, a key is a varint, `skip_field`
returns a suffix of its buffer, and so do `merge_field`, the field loop and a nested
message. So twice the buffer's length bounds every recursion, and `Message::decode` of a
`LogicalPlanExtension` gives the same result with any larger fuel: on every input the
decoder terminates with what the fuel-free code returns. -/

namespace GlareDb.Proofs.DecodeFuel
open GlareDb.Prost GlareDb.Sqlexec

/-- `decode_varint` on any buffer: a success reads the bytes up to the first one without
the continuation bit, within the iterations left, and yields a `u64`. -/
theorem decodeVarintLoop_consumes : ∀ (iterations count value : Nat) (buf : List UInt8) (decoded : Nat)
    (rest : List UInt8), decodeVarintLoop iterations count value buf = .ok (decoded, rest) →
    value < 2 ^ 64 →
    decoded < 2 ^ 64 ∧ ∃ continued last, buf = continued ++ last :: rest ∧
      continued.length < iterations ∧ (∀ byte ∈ continued, 0x80 ≤ byte.toNat) ∧ last.toNat < 0x80
  | 0, _, _, _, _, _, loop, _ => by simp [decodeVarintLoop] at loop
  | _ + 1, _, _, [], _, _, loop, _ => by simp [decodeVarintLoop] at loop
  | iterations + 1, count, value, byte :: more, decoded, rest, loop, fits => by
    have next : value ||| ((byte.toNat &&& 0x7F) <<< (count * 7)) % 2 ^ 64 < 2 ^ 64 :=
      Nat.or_lt_two_pow fits (Nat.mod_lt _ (Nat.two_pow_pos 64))
    simp only [decodeVarintLoop] at loop
    split at loop
    next last =>
      split at loop
      · cases loop
      · obtain ⟨rfl, rfl⟩ := Prod.mk.inj (Except.ok.inj loop)
        exact ⟨next, [], byte, rfl, by simp, by simp, by omega⟩
    next continued =>
      obtain ⟨below, bytes, last, split, shorter, high, low⟩ :=
        decodeVarintLoop_consumes iterations (count + 1) _ more decoded rest loop next
      refine ⟨below, byte :: bytes, last, by rw [split]; rfl, by simp; omega, ?_, low⟩
      simp only [List.mem_cons, forall_eq_or_imp]
      exact ⟨by omega, high⟩

/-- A bind that succeeded: both of its parts did. -/
theorem bind_eq_ok {ε α β : Type} {x : Except ε α} {f : α → Except ε β} {b : β} :
    x >>= f = .ok b ↔ ∃ a, x = .ok a ∧ f a = .ok b := by
  cases x <;> simp [bind, Except.bind]

theorem decodeVarint_shorter {buf rest : List UInt8} {value : Nat}
    (decoded : decodeVarint buf = .ok (value, rest)) : rest.length < buf.length := by
  obtain ⟨-, continued, last, rfl, -⟩ := decodeVarintLoop_consumes 10 0 0 buf value rest decoded (by decide)
  simp only [List.length_append, List.length_cons]
  omega

theorem decodeKey_shorter {buf rest : List UInt8} {key : Nat × WireType}
    (decoded : decodeKey buf = .ok (key, rest)) : rest.length < buf.length := by
  simp only [decodeKey, bind_eq_ok] at decoded
  obtain ⟨⟨value, after⟩, varint, decoded⟩ := decoded
  suffices rest = after from this ▸ decodeVarint_shorter varint
  split at decoded
  · cases decoded
  · simp only [bind_eq_ok] at decoded
    obtain ⟨-, -, wireType, -, decoded⟩ := decoded
    split at decoded
    · cases decoded
    · simp only [bind_eq_ok] at decoded
      obtain ⟨-, -, same⟩ := decoded
      cases same
      rfl

/-- The end of `skip_field`: whatever the length, it returns a suffix. -/
theorem skip_tail {len : Nat} {after rest : List UInt8}
    (tail : (if len > after.length then (do throw (DecodeError.new "buffer underflow"); pure (after.drop len))
      else (do pure PUnit.unit; pure (after.drop len)) : Except DecodeError (List UInt8)) = .ok rest) :
    rest.length ≤ after.length := by
  split at tail
  · cases tail
  · cases tail
    simp

/-- `skip_field` and its group loop return a suffix of their buffer. -/
theorem skip_shorter : ∀ fuel : Nat,
    (∀ wireType tag buf ctx rest, skipField fuel wireType tag buf ctx = .ok rest → rest.length ≤ buf.length) ∧
    (∀ tag buf ctx len rest, skipGroup fuel tag buf ctx = .ok (len, rest) → rest.length ≤ buf.length)
  | 0 => ⟨fun _ _ _ _ _ skipped => by simp [skipField] at skipped,
      fun _ _ _ _ _ skipped => by simp [skipGroup] at skipped⟩
  | fuel + 1 => by
    obtain ⟨field, group⟩ := skip_shorter fuel
    constructor
    · intro wireType tag buf ctx rest skipped
      cases wireType <;> simp only [skipField, bind_eq_ok] at skipped
      case varint =>
        obtain ⟨-, -, ⟨value, after⟩, varint, _, same, tail⟩ := skipped
        cases same
        exact (skip_tail tail).trans (decodeVarint_shorter varint).le
      case lengthDelimited =>
        obtain ⟨-, -, ⟨len, after⟩, varint, tail⟩ := skipped
        exact (skip_tail tail).trans (decodeVarint_shorter varint).le
      case startGroup =>
        obtain ⟨-, -, ⟨len, after⟩, skippedGroup, tail⟩ := skipped
        exact (skip_tail tail).trans (group _ _ _ _ _ skippedGroup)
      case endGroup =>
        obtain ⟨-, -, _, thrown, -⟩ := skipped
        cases thrown
      all_goals
        obtain ⟨-, -, _, same, tail⟩ := skipped
        cases same
        exact skip_tail tail
    · intro tag buf ctx len rest skipped
      simp only [skipGroup, bind_eq_ok] at skipped
      obtain ⟨⟨⟨innerTag, wireType⟩, after⟩, key, skipped⟩ := skipped
      have := decodeKey_shorter key
      cases wireType <;> simp only [bind_eq_ok] at skipped
      case endGroup =>
        split at skipped
        · cases skipped
        · cases skipped
          exact this.le
      all_goals
        obtain ⟨middle, inner, outer⟩ := skipped
        exact (group _ _ _ _ _ outer).trans ((field _ _ _ _ _ inner).trans this.le)

/-- Fuel only bounds `skip_field`: twice the buffer's length is enough, and more changes nothing. -/
theorem skip_fuel : ∀ fuel : Nat,
    (∀ more wireType tag buf ctx, 2 * buf.length + 2 ≤ fuel →
      skipField (fuel + more) wireType tag buf ctx = skipField fuel wireType tag buf ctx) ∧
    (∀ more tag buf ctx, 2 * buf.length + 1 ≤ fuel →
      skipGroup (fuel + more) tag buf ctx = skipGroup fuel tag buf ctx)
  | 0 => ⟨fun _ _ _ _ _ enough => absurd enough (by omega), fun _ _ _ _ enough => absurd enough (by omega)⟩
  | fuel + 1 => by
    obtain ⟨field, group⟩ := skip_fuel fuel
    constructor
    · intro more wireType tag buf ctx enough
      rw [Nat.add_right_comm]
      cases wireType <;> simp only [skipField]
      rw [group more tag buf ctx (by omega)]
    · intro more tag buf ctx enough
      rw [Nat.add_right_comm]
      simp only [skipGroup]
      cases key : decodeKey buf with
      | error error => rfl
      | ok read =>
        obtain ⟨⟨innerTag, wireType⟩, after⟩ := read
        have shorter := decodeKey_shorter key
        simp only [bind, Except.bind]
        cases wireType
        case endGroup => rfl
        all_goals
          rw [field more _ innerTag after _ (by omega)]
          cases inner : skipField fuel _ innerTag after ctx.enterRecursion with
          | error error => rfl
          | ok middle =>
            have := (skip_shorter fuel).1 _ _ _ _ _ inner
            exact group more tag middle ctx (by omega)

section Loop
variable {M : Type}

/-- A `merge_field` that returns a suffix of its buffer, and for which twice the buffer's
length, and two more, is all the fuel that matters. -/
structure Consuming (mergeField : MergeField M) : Prop where
  shorter : ∀ fuel value tag wireType buf ctx next rest,
    mergeField fuel value tag wireType buf ctx = .ok (next, rest) → rest.length ≤ buf.length
  fuel : ∀ fuel more value tag wireType buf ctx, 2 * buf.length + 2 ≤ fuel →
    mergeField (fuel + more) value tag wireType buf ctx = mergeField fuel value tag wireType buf ctx

variable {mergeField : MergeField M} (consuming : Consuming mergeField)
include consuming

theorem mergeFields_shorter : ∀ (fuel limit : Nat) (value : M) (buf : List UInt8) (ctx : DecodeContext)
    (next : M) (rest : List UInt8),
    mergeFields mergeField fuel limit value buf ctx = .ok (next, rest) → rest.length ≤ buf.length
  | fuel, limit, value, buf, ctx, next, rest, merged => by
    unfold mergeFields at merged
    split at merged
    · cases fuel with
      | zero => cases merged
      | succ fuel =>
        simp only [bind_eq_ok] at merged
        obtain ⟨⟨⟨tag, wireType⟩, after⟩, key, ⟨middle, remaining⟩, field, loop⟩ := merged
        have := decodeKey_shorter key
        have : remaining.length ≤ after.length := consuming.shorter _ _ _ _ _ _ _ _ field
        have := mergeFields_shorter fuel limit middle remaining ctx next rest loop
        omega
    · cases merged
      exact le_rfl

theorem mergeFields_fuel : ∀ (fuel more limit : Nat) (value : M) (buf : List UInt8) (ctx : DecodeContext),
    2 * buf.length + 1 ≤ fuel →
    mergeFields mergeField (fuel + more) limit value buf ctx = mergeFields mergeField fuel limit value buf ctx
  | 0, _, _, _, _, _, enough => absurd enough (by omega)
  | fuel + 1, more, limit, value, buf, ctx, enough => by
    rw [Nat.add_right_comm]
    unfold mergeFields
    split
    · cases key : decodeKey buf with
      | error error => simp only [key, bind, Except.bind]
      | ok read =>
        obtain ⟨⟨tag, wireType⟩, after⟩ := read
        have := decodeKey_shorter key
        simp only [key, bind, Except.bind]
        rw [consuming.fuel fuel more value tag wireType after ctx (by omega)]
        cases field : mergeField fuel value tag wireType after ctx with
        | error error => rfl
        | ok merged =>
          obtain ⟨middle, remaining⟩ := merged
          have := consuming.shorter _ _ _ _ _ _ _ _ field
          exact mergeFields_fuel fuel more limit middle remaining ctx (by omega)
    · rfl

theorem mergeMessage_shorter {fuel : Nat} {wireType : WireType} {value next : M} {buf rest : List UInt8}
    {ctx : DecodeContext} (merged : mergeMessage mergeField fuel wireType value buf ctx = .ok (next, rest)) :
    rest.length ≤ buf.length := by
  simp only [mergeMessage, mergeLoop, bind_eq_ok] at merged
  obtain ⟨-, -, -, -, ⟨len, after⟩, varint, merged⟩ := merged
  have := decodeVarint_shorter varint
  split at merged
  · cases merged
  · simp only [bind_eq_ok] at merged
    obtain ⟨-, -, ⟨middle, remaining⟩, loop, checked⟩ := merged
    have := mergeFields_shorter consuming _ _ _ _ _ _ _ loop
    split at checked
    · cases checked
    · cases checked
      omega

theorem mergeMessage_fuel (fuel more : Nat) (wireType : WireType) (value : M) (buf : List UInt8)
    (ctx : DecodeContext) (enough : 2 * buf.length + 2 ≤ fuel) :
    mergeMessage mergeField (fuel + more) wireType value buf ctx =
      mergeMessage mergeField fuel wireType value buf ctx := by
  simp only [mergeMessage, mergeLoop]
  cases varint : decodeVarint buf with
  | error error => simp only [varint, bind, Except.bind]
  | ok read =>
    obtain ⟨len, after⟩ := read
    have := decodeVarint_shorter varint
    simp only [varint, bind, Except.bind]
    rw [mergeFields_fuel consuming fuel more _ value after _ (by omega)]

end Loop

theorem mergeString_shorter {wireType : WireType} {buf rest : List UInt8} {value : RustString}
    (merged : mergeString wireType buf = .ok (value, rest)) : rest.length ≤ buf.length := by
  simp only [mergeString, bind_eq_ok] at merged
  obtain ⟨-, -, ⟨len, after⟩, varint, merged⟩ := merged
  have := decodeVarint_shorter varint
  split at merged
  · cases merged
  · simp only [bind_eq_ok] at merged
    obtain ⟨-, -, merged⟩ := merged
    split at merged
    · cases merged
      simp only [List.length_drop]
      omega
    · cases merged

theorem mergeRepeatedString_shorter {wireType : WireType} {values next : List RustString}
    {buf rest : List UInt8} (merged : mergeRepeatedString wireType values buf = .ok (next, rest)) :
    rest.length ≤ buf.length := by
  simp only [mergeRepeatedString, bind_eq_ok] at merged
  obtain ⟨-, -, ⟨value, after⟩, string, same⟩ := merged
  cases same
  exact mergeString_shorter string

theorem mergeBool_shorter {wireType : WireType} {buf rest : List UInt8} {value : Bool}
    (merged : mergeBool wireType buf = .ok (value, rest)) : rest.length ≤ buf.length := by
  simp only [mergeBool, bind_eq_ok] at merged
  obtain ⟨-, -, ⟨read, after⟩, varint, same⟩ := merged
  cases same
  exact (decodeVarint_shorter varint).le

variable (tags : ProtoTags)

theorem dropCredentials_consuming : Consuming (DropCredentialsProto.mergeField tags) where
  shorter := by
    intro fuel proto tag wireType buf ctx next rest merged
    unfold DropCredentialsProto.mergeField at merged
    split_ifs at merged
    · cases string : mergeRepeatedString wireType proto.names buf with
      | error error => simp only [string] at merged; cases merged
      | ok read =>
        simp only [string] at merged
        cases merged
        exact mergeRepeatedString_shorter string
    · cases flag : mergeBool wireType buf with
      | error error => simp only [flag] at merged; cases merged
      | ok read =>
        simp only [flag] at merged
        cases merged
        exact mergeBool_shorter flag
    · simp only [bind_eq_ok] at merged
      obtain ⟨after, skipped, same⟩ := merged
      cases same
      exact (skip_shorter fuel).1 _ _ _ _ _ skipped
  fuel := by
    intro fuel more proto tag wireType buf ctx enough
    unfold DropCredentialsProto.mergeField
    split_ifs
    · rfl
    · rfl
    · rw [(skip_fuel fuel).1 more wireType tag buf ctx enough]

theorem extension_consuming : Consuming (LogicalPlanExtension.mergeField tags) where
  shorter := by
    intro fuel extension tag wireType buf ctx next rest merged
    unfold LogicalPlanExtension.mergeField at merged
    split_ifs at merged
    · cases variant : LogicalPlanExtensionType.merge tags fuel extension.inner wireType buf ctx with
      | error error => simp only [variant] at merged; cases merged
      | ok read =>
        simp only [variant] at merged
        cases merged
        unfold LogicalPlanExtensionType.merge at variant
        split at variant <;> dsimp only at variant <;> split at variant <;> cases variant
        all_goals exact mergeMessage_shorter (dropCredentials_consuming tags) ‹_›
    · simp only [bind_eq_ok] at merged
      obtain ⟨after, skipped, same⟩ := merged
      cases same
      exact (skip_shorter fuel).1 _ _ _ _ _ skipped
  fuel := by
    intro fuel more extension tag wireType buf ctx enough
    unfold LogicalPlanExtension.mergeField
    split_ifs
    · simp only [LogicalPlanExtensionType.merge]
      rw [mergeMessage_fuel (dropCredentials_consuming tags) fuel more wireType _ buf ctx enough]
    · rw [(skip_fuel fuel).1 more wireType tag buf ctx enough]

/-- The decoder model is prost's decoder: it stops on every input before its fuel could,
since every loop step and every level of groups or nested messages consumes a byte, so any
fuel beyond twice the buffer's length gives the same result as `LogicalPlanExtension.decode`.
The codec results about `decode` rest on this to be about prost's unbounded loops. -/
theorem decode_fuel_sufficient (buf : List UInt8) (more : Nat) :
    (do
      let (value, _) ← mergeFields (LogicalPlanExtension.mergeField tags) (2 * buf.length + 1 + more) 0
        ⟨none⟩ buf .default
      pure value) = LogicalPlanExtension.decode tags buf := by
  rw [mergeFields_fuel (extension_consuming tags) _ more _ _ _ _ le_rfl]
  rfl

end GlareDb.Proofs.DecodeFuel
