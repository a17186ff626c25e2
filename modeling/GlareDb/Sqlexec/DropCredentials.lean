import GlareDb.Prost.Fields
import GlareDb.Sqlexec.Executor

set_option autoImplicit false

/-! The `DropCredentials` extension node and its wire form
(`sqlexec/src/planner/logical_plan/drop_credentials.rs`), with the prost messages it is
encoded through. -/

namespace GlareDb.Sqlexec
open GlareDb.Prost

/-- `DropCredentials`. -/
structure DropCredentials where
  names : List RustString
  ifExists : Bool
  deriving DecidableEq

/-- The field numbers of the generated messages. Modelled from the spec: the `.proto`
file is not under `src/`, so any valid numbers are allowed, those of one message
distinct. -/
structure ProtoTags where
  names : Tag
  ifExists : Tag
  dropCredentials : Tag
  distinct : names.val ≠ ifExists.val

/-- `protogen::sqlexec::logical_plan::DropCredentials`. -/
structure DropCredentialsProto where
  names : List RustString
  ifExists : Bool
  deriving DecidableEq

/-- `LogicalPlanExtensionType`. Only the variant this node uses is modelled: the other
variants' messages are not under `src/`. prost's generated merge sets `inner` to another
variant when a field of that variant arrives; the model skips such a field as unknown. The
results about decoding only decode what `try_encode` writes, which holds no such field. -/
inductive LogicalPlanExtensionType where
  | dropCredentials (proto : DropCredentialsProto)
  deriving DecidableEq

/-- `LogicalPlanExtension`: a `oneof inner`. -/
structure LogicalPlanExtension where
  inner : Option LogicalPlanExtensionType
  deriving DecidableEq

variable (tags : ProtoTags)

/-- `encode_raw` of `DropCredentials`: proto3 writes no field holding its default. -/
def DropCredentialsProto.encodeRaw (proto : DropCredentialsProto) : List UInt8 :=
  encodeRepeatedString tags.names proto.names ++
    if proto.ifExists ≠ false then encodeBool tags.ifExists proto.ifExists else []

/-- `encoded_len` of `DropCredentials`. -/
def DropCredentialsProto.encodedLen (proto : DropCredentialsProto) : Nat :=
  encodedLenRepeatedString tags.names proto.names +
    if proto.ifExists ≠ false then encodedLenBool tags.ifExists proto.ifExists else 0

/-- `merge_field` of `DropCredentials`: an error is tagged with the field it came from. -/
def DropCredentialsProto.mergeField : MergeField DropCredentialsProto :=
  fun fuel proto tag wireType buf ctx =>
    if tag = tags.names.val then
      match mergeRepeatedString wireType proto.names buf with
      | .ok (names, buf) => .ok ({ proto with names }, buf)
      | .error error => .error (error.push "DropCredentials" "names")
    else if tag = tags.ifExists.val then
      match mergeBool wireType buf with
      | .ok (ifExists, buf) => .ok ({ proto with ifExists }, buf)
      | .error error => .error (error.push "DropCredentials" "if_exists")
    else do
      let buf ← skipField fuel wireType tag buf ctx
      pure (proto, buf)

/-- `DropCredentials::default`. -/
def DropCredentialsProto.default : DropCredentialsProto := ⟨[], false⟩

/-- `encode_raw` of `LogicalPlanExtension`: the set variant of the oneof, if any. -/
def LogicalPlanExtension.encodeRaw (extension : LogicalPlanExtension) : List UInt8 :=
  match extension.inner with
  | some (.dropCredentials proto) =>
    encodeMessage tags.dropCredentials (proto.encodedLen tags) (proto.encodeRaw tags)
  | none => []

/-- `encoded_len` of `LogicalPlanExtension`. -/
def LogicalPlanExtension.encodedLen (extension : LogicalPlanExtension) : Nat :=
  match extension.inner with
  | some (.dropCredentials proto) => encodedLenMessage tags.dropCredentials (proto.encodedLen tags)
  | none => 0

/-- `LogicalPlanExtensionType::merge`: a field of the set variant merges into it, any
other variant is replaced by a fresh one. -/
def LogicalPlanExtensionType.merge (fuel : Nat) (field : Option LogicalPlanExtensionType)
    (wireType : WireType) (buf : List UInt8) (ctx : DecodeContext) :
    Except DecodeError (Option LogicalPlanExtensionType × List UInt8) :=
  let start := match field with
    | some (.dropCredentials proto) => proto
    | none => .default
  match mergeMessage (DropCredentialsProto.mergeField tags) fuel wireType start buf ctx with
  | .ok (proto, buf) => .ok (some (.dropCredentials proto), buf)
  | .error error => .error error

/-- `merge_field` of `LogicalPlanExtension`. -/
def LogicalPlanExtension.mergeField : MergeField LogicalPlanExtension :=
  fun fuel extension tag wireType buf ctx =>
    if tag = tags.dropCredentials.val then
      match LogicalPlanExtensionType.merge tags fuel extension.inner wireType buf ctx with
      | .ok (inner, buf) => .ok ({ inner }, buf)
      | .error error => .error (error.push "LogicalPlanExtension" "inner")
    else do
      let buf ← skipField fuel wireType tag buf ctx
      pure (extension, buf)

/-- `isize::MAX`, the capacity a `Vec<u8>` can still grow by when empty. -/
def isizeMax : Nat := 2 ^ 63 - 1

/-- `EncodeError`. -/
structure EncodeError where
  required : Nat
  remaining : Nat
  deriving DecidableEq

/-- `Display` of `EncodeError`. -/
def EncodeError.toString (error : EncodeError) : String :=
  "failed to encode Protobuf message; insufficient buffer capacity (required: " ++
    Nat.repr error.required ++ ", remaining: " ++ Nat.repr error.remaining ++ ")"

/-- `Message::encode` into a `Vec<u8>`, whose `remaining_mut` is `isize::MAX - len`. -/
def LogicalPlanExtension.encode (extension : LogicalPlanExtension) (buf : List UInt8) :
    Except EncodeError (List UInt8) :=
  let required := extension.encodedLen tags
  let remaining := isizeMax - buf.length
  if required > remaining then .error ⟨required, remaining⟩
  else .ok (buf ++ extension.encodeRaw tags)

/-- `Message::decode` of a `LogicalPlanExtension`. prost's loops have no bound; the fuel of
`decodeMessage` never decides the result (`DecodeFuel.decode_fuel_sufficient`). -/
def LogicalPlanExtension.decode (buf : List UInt8) : Except DecodeError LogicalPlanExtension :=
  decodeMessage (LogicalPlanExtension.mergeField tags) ⟨none⟩ buf

/-- `DropCredentials::try_encode`: the bytes of the node's `LogicalPlanExtension`
appended to `buf`. -/
def DropCredentials.tryEncode (node : DropCredentials) (buf : List UInt8) :
    Except ExecError (List UInt8) :=
  let proto : DropCredentialsProto := { names := node.names, ifExists := node.ifExists }
  let extension : LogicalPlanExtension := { inner := some (.dropCredentials proto) }
  match extension.encode tags buf with
  | .ok buf => .ok buf
  | .error error => .error (.internal error.toString)

/-- `DropCredentials::try_decode`. -/
def DropCredentials.tryDecode (proto : DropCredentialsProto) : Except ExecError DropCredentials :=
  .ok { names := proto.names, ifExists := proto.ifExists }

/-- A `LogicalPlanExtension` node behind `dyn UserDefinedLogicalNode`, as far as a
downcast can tell. -/
inductive ExtensionNode where
  | dropCredentials (node : DropCredentials)
  | other (name : String)

/-- `DropCredentials::try_decode_extension`: the downcast. -/
def DropCredentials.tryDecodeExtension (extension : ExtensionNode) :
    Except ExecError DropCredentials :=
  match extension with
  | .dropCredentials node => .ok node
  | .other _ => .error (.internal "DropCredentials::try_decode_extension failed")

end GlareDb.Sqlexec
