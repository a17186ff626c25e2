import GlareDb.Prost.Fields
import GlareDb.Proofs.VarintCodec

set_option autoImplicit false

/-! Fields on the wire as prost's encoder writes them, with minimal varints and keys, and
what `skip_field` does with the ones a message does not know. A field is a key and a
payload: a varint, eight or four raw bytes, a length-prefixed run of bytes, or a group of
nested fields closed by an end-group key of the same tag. On every such field, with fuel
above its length, `skip_field` returns exactly the bytes after it when its groups nest less
deeply than the context still allows, and otherwise fails with "recursion limit reached".
The merge of a `DropCredentials` message over such fields builds on this. -/

namespace GlareDb.Proofs.ProstSkip
open GlareDb.Prost GlareDb.Proofs.VarintCodec

mutual
/-- The payload of a field, by wire type. -/
inductive Payload where
  | varint (value : Nat)
  | sixtyFourBit (bytes : List UInt8)
  | lengthDelimited (bytes : List UInt8)
  | group (fields : Fields)
  | thirtyTwoBit (bytes : List UInt8)

/-- A run of fields, each with its tag: a message body, or what a group holds. -/
inductive Fields where
  | nil
  | cons (tag : Tag) (payload : Payload) (rest : Fields)
end

def Payload.wireType : Payload → WireType
  | .varint _ => .varint
  | .sixtyFourBit _ => .sixtyFourBit
  | .lengthDelimited _ => .lengthDelimited
  | .group _ => .startGroup
  | .thirtyTwoBit _ => .thirtyTwoBit

mutual
/-- The bytes after the key: a group ends with the end-group key of its own tag. -/
def Payload.body (tag : Tag) : Payload → List UInt8
  | .varint value => encodeVarint value
  | .sixtyFourBit bytes => bytes
  | .lengthDelimited bytes => encodeVarint bytes.length ++ bytes
  | .group fields => fields.encode ++ encodeKey tag .endGroup
  | .thirtyTwoBit bytes => bytes

def Fields.encode : Fields → List UInt8
  | .nil => []
  | .cons tag payload rest => encodeKey tag payload.wireType ++ payload.body tag ++ rest.encode
end

mutual
/-- Varints and lengths fit a `u64`; fixed-width payloads have their width. The encoding of
a field is then the one prost writes. -/
def Payload.wellFormed : Payload → Bool
  | .varint value => value < 2 ^ 64
  | .sixtyFourBit bytes => bytes.length = 8
  | .lengthDelimited bytes => bytes.length < 2 ^ 64
  | .group fields => fields.wellFormed
  | .thirtyTwoBit bytes => bytes.length = 4

def Fields.wellFormed : Fields → Bool
  | .nil => true
  | .cons _ payload rest => payload.wellFormed && rest.wellFormed
end

mutual
/-- How many groups a payload nests. -/
def Payload.depth : Payload → Nat
  | .group fields => fields.depth
  | _ => 0

def Fields.depth : Fields → Nat
  | .nil => 0
  | .cons _ payload rest => max (payload.depth + 1) rest.depth
end

/-- The fields of one run followed by those of another. -/
def Fields.append : Fields → Fields → Fields
  | .nil, other => other
  | .cons tag payload rest, other => .cons tag payload (rest.append other)

/-- The fields of several runs, one after another. -/
def Fields.concat (runs : List Fields) : Fields := runs.foldr Fields.append .nil

@[simp] theorem Fields.concat_cons (first : Fields) (rest : List Fields) :
    Fields.concat (first :: rest) = first.append (Fields.concat rest) := rfl

theorem Fields.append_nil : ∀ fields : Fields, fields.append .nil = fields
  | .nil => rfl
  | .cons tag payload rest => congrArg (Fields.cons tag payload) rest.append_nil

theorem Payload.wireType_ne_endGroup (payload : Payload) : payload.wireType ≠ .endGroup := by
  cases payload <;> simp [Payload.wireType]

theorem length_encodeKey_pos (tag : Tag) (wireType : WireType) : 0 < (encodeKey tag wireType).length :=
  List.length_pos.mpr (encodeVarintLoop_ne_nil 9 _)

theorem limitReached_bind {α : Type} (ctx : DecodeContext) (next : Unit → Except DecodeError α) :
    ctx.limitReached >>= next =
      if ctx.recurseCount = 0 then .error (.new "recursion limit reached") else next () := by
  unfold DecodeContext.limitReached
  split <;> rfl

mutual
theorem skipField_body : ∀ (payload : Payload) (tag : Tag) (rest : List UInt8) (ctx : DecodeContext)
    (fuel : Nat), payload.wellFormed = true → (payload.body tag).length < fuel →
    skipField fuel payload.wireType tag.val (payload.body tag ++ rest) ctx =
      if payload.depth < ctx.recurseCount then .ok rest else .error (.new "recursion limit reached")
  | _, _, _, _, 0, _, enough => absurd enough (Nat.not_lt_zero _)
  | .sixtyFourBit bytes, tag, rest, ctx, fuel + 1, wf, _
  | .thirtyTwoBit bytes, tag, rest, ctx, fuel + 1, wf, _ => by
    simp only [skipField, Payload.wireType, Payload.body, limitReached_bind]
    simp [Payload.depth, bind, Except.bind, pure, Except.pure, of_decide_eq_true wf, Nat.pos_iff_ne_zero]
  | .varint value, tag, rest, ctx, fuel + 1, wf, _
  | .lengthDelimited value, tag, rest, ctx, fuel + 1, wf, _ => by
    simp only [skipField, Payload.wireType, Payload.body, limitReached_bind]
    simp [Payload.depth, decodeVarint_encodeVarint (of_decide_eq_true wf), bind, Except.bind, pure,
      Except.pure, Nat.pos_iff_ne_zero]
  | .group fields, tag, rest, ctx, fuel + 1, wf, enough => by
    simp only [skipField, Payload.wireType, Payload.body, Payload.depth, limitReached_bind]
    split
    next zero => simp [zero]
    next entered =>
      simp only [Payload.body, List.length_append] at enough
      rw [skipGroup_body fields tag rest ctx fuel wf (Nat.pos_of_ne_zero entered)
        (by simp only [List.length_append]; omega)]
      split <;> rfl

theorem skipGroup_body : ∀ (fields : Fields) (tag : Tag) (rest : List UInt8) (ctx : DecodeContext)
    (fuel : Nat), fields.wellFormed = true → 0 < ctx.recurseCount →
    (fields.encode ++ encodeKey tag .endGroup).length ≤ fuel →
    skipGroup fuel tag.val (fields.encode ++ encodeKey tag .endGroup ++ rest) ctx =
      if fields.depth < ctx.recurseCount then .ok (0, rest) else .error (.new "recursion limit reached")
  | _, tag, _, _, 0, _, _, enough => by
    have := length_encodeKey_pos tag .endGroup
    simp only [List.length_append] at enough
    omega
  | .nil, tag, rest, ctx, fuel + 1, _, entered, _ => by
    simp [skipGroup, Fields.encode, Fields.depth, decodeKey_encodeKey, bind, Except.bind, pure,
      Except.pure, entered]
  | .cons inner payload fields, tag, rest, ctx, fuel + 1, wf, entered, enough => by
    simp only [Fields.wellFormed, Bool.and_eq_true] at wf
    have := length_encodeKey_pos inner payload.wireType
    have := length_encodeKey_pos tag .endGroup
    simp only [Fields.encode, List.length_append] at enough
    simp only [Fields.encode, List.append_assoc, skipGroup, decodeKey_encodeKey, bind, Except.bind]
    split
    next ended => exact absurd ended payload.wireType_ne_endGroup
    next =>
      have skipped := skipField_body payload inner (fields.encode ++ encodeKey tag .endGroup ++ rest)
        ctx.enterRecursion fuel wf.1 (by omega)
      simp only [List.append_assoc] at skipped
      rw [skipped]
      simp only [DecodeContext.enterRecursion, Fields.depth, max_lt_iff]
      by_cases shallow : payload.depth < ctx.recurseCount - 1
      · rw [if_pos shallow, ← List.append_assoc]
        dsimp only
        rw [skipGroup_body fields tag rest ctx fuel wf.2 entered
          (by simp only [List.length_append]; omega)]
        simp only [show payload.depth + 1 < ctx.recurseCount by omega, true_and]
      · simp only [if_neg shallow, show ¬payload.depth + 1 < ctx.recurseCount by omega, false_and,
          if_false]
end

end GlareDb.Proofs.ProstSkip
