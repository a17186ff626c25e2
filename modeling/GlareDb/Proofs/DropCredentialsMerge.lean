import GlareDb.Proofs.ProstSkip
import GlareDb.Proofs.DropCredentialsCodec

set_option autoImplicit false

/-! What prost's decoder does with the bytes of several `try_encode` calls written one
after another, and what `try_encode` does with a buffer that already holds bytes. A
message body is read as a stream of fields in prost's encoding and merged field by field by
the protobuf rules: a name is appended, the flag is set from its varint (the last one
wins), a field the message does not have is skipped; a name that is not UTF-8 or a known
field of another wire type fails with its field path. Several `DropCredentials` messages in
one `LogicalPlanExtension` merge into one, as if their fields had been written in one
message, so the concatenated bytes decode to one node holding all the names. -/

namespace GlareDb.Proofs.DropCredentialsMerge
open GlareDb.Prost GlareDb.Sqlexec GlareDb.Proofs.VarintCodec GlareDb.Proofs.ProstSkip
  GlareDb.Proofs.DropCredentialsCodec

variable (tags : ProtoTags)

/-- What merging one field into a `DropCredentials` message does, by the protobuf rules. -/
def mergeOne (ctx : DecodeContext) (proto : DropCredentialsProto) (tag : Tag) (payload : Payload) :
    Except DecodeError DropCredentialsProto :=
  if tag.val = tags.names.val then
    match payload with
    | .lengthDelimited bytes =>
      if valid : utf8Valid bytes = true then .ok { proto with names := proto.names ++ [⟨bytes, valid⟩] }
      else .error ((DecodeError.new "invalid string value: data is not UTF-8 encoded").push
        "DropCredentials" "names")
    | _ => .error ((DecodeError.new ("invalid wire type: " ++ payload.wireType.debug ++
        " (expected " ++ "LengthDelimited" ++ ")")).push "DropCredentials" "names")
  else if tag.val = tags.ifExists.val then
    match payload with
    | .varint value => .ok { proto with ifExists := value ≠ 0 }
    | _ => .error ((DecodeError.new ("invalid wire type: " ++ payload.wireType.debug ++
        " (expected " ++ "Varint" ++ ")")).push "DropCredentials" "if_exists")
  else if payload.depth < ctx.recurseCount then .ok proto
  else .error (.new "recursion limit reached")

/-- A body merged field after field; the first error ends it. -/
def mergeAll (ctx : DecodeContext) : DropCredentialsProto → Fields → Except DecodeError DropCredentialsProto
  | proto, .nil => .ok proto
  | proto, .cons tag payload rest => mergeOne tags ctx proto tag payload >>= fun proto => mergeAll ctx proto rest

/-- `merge_field` of `DropCredentials` on one well-formed field is `mergeOne`. -/
theorem mergeField_eq (tag : Tag) (payload : Payload) (wf : payload.wellFormed = true)
    (proto : DropCredentialsProto) (fuel : Nat) (enough : (payload.body tag).length < fuel)
    (rest : List UInt8) (ctx : DecodeContext) :
    DropCredentialsProto.mergeField tags fuel proto tag.val payload.wireType (payload.body tag ++ rest) ctx =
      (fun proto => (proto, rest)) <$> mergeOne tags ctx proto tag payload := by
  unfold DropCredentialsProto.mergeField mergeOne
  by_cases isNames : tag.val = tags.names.val
  · simp only [isNames, if_true]
    cases payload with
    | lengthDelimited bytes =>
      simp only [mergeRepeatedString, mergeString, Payload.wireType, Payload.body, checkWireType_self,
        List.append_assoc, decodeVarint_encodeVarint (of_decide_eq_true wf), bind, Except.bind, pure,
        Except.pure]
      by_cases valid : utf8Valid bytes = true <;> simp [valid, Functor.map, Except.map]
    | _ =>
      simp [mergeRepeatedString, Payload.wireType, checkWireType, bind, Except.bind, Functor.map,
        Except.map, WireType.debug]
  · simp only [isNames, if_false]
    by_cases isIfExists : tag.val = tags.ifExists.val
    · simp only [isIfExists, if_true]
      cases payload with
      | varint value =>
        simp [mergeBool, Payload.wireType, Payload.body, checkWireType_self,
          decodeVarint_encodeVarint (of_decide_eq_true wf), bind, Except.bind, pure, Except.pure,
          Functor.map, Except.map]
      | _ =>
        simp [mergeBool, Payload.wireType, checkWireType, bind, Except.bind, Functor.map, Except.map,
          WireType.debug]
    · simp only [isIfExists, if_false, skipField_body payload tag rest ctx fuel wf enough]
      split <;> rfl

/-- One turn of the loop: the field under the next key is merged, then the loop goes on. -/
theorem mergeFields_key {M : Type} (mergeField : MergeField M) {fuel limit tag : Nat}
    {wireType : WireType} {value : M} {buf after : List UInt8} {ctx : DecodeContext}
    (more : limit < buf.length) (key : decodeKey buf = .ok ((tag, wireType), after)) :
    mergeFields mergeField (fuel + 1) limit value buf ctx =
      mergeField fuel value tag wireType after ctx >>= fun (next, rest) =>
        mergeFields mergeField fuel limit next rest ctx := by
  conv_lhs => unfold mergeFields
  simp only [more, if_true, key, bind, Except.bind]

/-- The loop over a whole body, with fuel above its length, is `mergeAll`. -/
theorem mergeFields_body : ∀ (fields : Fields) (proto : DropCredentialsProto) (fuel : Nat)
    (tail : List UInt8) (ctx : DecodeContext), fields.wellFormed = true → fields.encode.length < fuel →
    mergeFields (DropCredentialsProto.mergeField tags) fuel tail.length proto (fields.encode ++ tail) ctx =
      (fun proto => (proto, tail)) <$> mergeAll tags ctx proto fields
  | .nil, proto, fuel, tail, ctx, _, _ => by
    simp [Fields.encode, mergeAll, mergeFields_done, Functor.map, Except.map]
  | .cons _ _ _, _, 0, _, _, _, enough => absurd enough (Nat.not_lt_zero _)
  | .cons tag payload rest, proto, fuel + 1, tail, ctx, wf, enough => by
    simp only [Fields.wellFormed, Bool.and_eq_true] at wf
    have key := length_encodeKey_pos tag payload.wireType
    simp only [Fields.encode, List.length_append] at enough
    simp only [Fields.encode, List.append_assoc]
    rw [mergeFields_key _ (by simp only [List.length_append]; omega) (decodeKey_encodeKey _ _ _),
      mergeField_eq tags tag payload wf.1 proto fuel (by omega)]
    cases merged : mergeOne tags ctx proto tag payload with
    | error error => simp [mergeAll, merged, Functor.map, Except.map, bind, Except.bind]
    | ok next =>
      simp only [mergeAll, merged, Functor.map, Except.map, bind, Except.bind]
      exact mergeFields_body rest next fuel tail ctx wf.2 (by omega)

/-- The message the oneof merges into: the variant already set, or the default value. -/
def current : Option LogicalPlanExtensionType → DropCredentialsProto
  | some (.dropCredentials proto) => proto
  | none => .default

/-- The extension for a merged `DropCredentials` message; an error leaves through `inner`. -/
def wrapInner : Except DecodeError DropCredentialsProto → Except DecodeError LogicalPlanExtension
  | .ok proto => .ok ⟨some (.dropCredentials proto)⟩
  | .error error => .error (error.push "LogicalPlanExtension" "inner")

theorem extension_mergeField (extension : LogicalPlanExtension) (body : Fields)
    (wf : body.wellFormed = true) (fits : body.encode.length < 2 ^ 64) (fuel : Nat)
    (enough : body.encode.length < fuel) (rest : List UInt8) :
    LogicalPlanExtension.mergeField tags fuel extension tags.dropCredentials.val .lengthDelimited
        (encodeVarint body.encode.length ++ (body.encode ++ rest)) .default =
      (fun extension => (extension, rest)) <$> wrapInner (mergeAll tags ⟨99⟩ (current extension.inner) body) := by
  have inner := mergeFields_body tags body (current extension.inner) fuel rest ⟨99⟩ wf enough
  rcases extension with ⟨_ | ⟨⟨proto⟩⟩⟩ <;>
  · simp only [current] at inner ⊢
    simp only [LogicalPlanExtension.mergeField, if_true, LogicalPlanExtensionType.merge, mergeMessage,
      mergeLoop, checkWireType_self, DecodeContext.limitReached, DecodeContext.default,
      DecodeContext.enterRecursion, List.append_assoc, decodeVarint_encodeVarint fits, List.length_append,
      Nat.add_sub_cancel_left, bind, Except.bind, pure, Except.pure, inner]
    cases mergeAll tags ⟨99⟩ _ body <;> simp [wrapInner, Functor.map, Except.map]

theorem mergeAll_append (ctx : DecodeContext) :
    ∀ (proto : DropCredentialsProto) (first second : Fields),
      mergeAll tags ctx proto (first.append second) =
        mergeAll tags ctx proto first >>= fun proto => mergeAll tags ctx proto second
  | proto, .nil, second => rfl
  | proto, .cons tag payload rest, second => by
    simp only [Fields.append, mergeAll]
    cases mergeOne tags ctx proto tag payload with
    | error error => rfl
    | ok next => exact mergeAll_append ctx next rest second

/-- The top-level fields of a `LogicalPlanExtension` holding one `DropCredentials` message
per body. -/
def extensionFields (bodies : List Fields) : Fields :=
  bodies.foldr (fun body rest => .cons tags.dropCredentials (.lengthDelimited body.encode) rest) .nil

theorem extensionFields_cons (body : Fields) (rest : List Fields) :
    extensionFields tags (body :: rest) =
      .cons tags.dropCredentials (.lengthDelimited body.encode) (extensionFields tags rest) := rfl

/-- The messages decoded one after another, each merged into the variant set so far. -/
def mergeMessages (extension : LogicalPlanExtension) : List Fields → Except DecodeError LogicalPlanExtension
  | [] => .ok extension
  | body :: rest =>
    wrapInner (mergeAll tags ⟨99⟩ (current extension.inner) body) >>= fun extension =>
      mergeMessages extension rest

/-- The top-level loop over a stream of `DropCredentials` messages. -/
theorem mergeFields_messages : ∀ (bodies : List Fields) (extension : LogicalPlanExtension) (fuel : Nat),
    (∀ body ∈ bodies, body.wellFormed = true ∧ body.encode.length < 2 ^ 64) →
    (extensionFields tags bodies).encode.length < fuel →
    mergeFields (LogicalPlanExtension.mergeField tags) fuel 0 extension
        (extensionFields tags bodies).encode .default =
      (fun extension => (extension, [])) <$> mergeMessages tags extension bodies
  | [], extension, fuel, _, _ => by
    simp [extensionFields, Fields.encode, mergeMessages, mergeFields_done, Functor.map, Except.map]
  | _ :: _, _, 0, _, enough => absurd enough (Nat.not_lt_zero _)
  | body :: rest, extension, fuel + 1, wf, enough => by
    have key := length_encodeKey_pos tags.dropCredentials .lengthDelimited
    obtain ⟨bodyWf, fits⟩ := wf body (List.mem_cons_self _ _)
    simp only [extensionFields_cons, Fields.encode, Payload.body, Payload.wireType,
      List.length_append] at enough
    simp only [extensionFields_cons, Fields.encode, Payload.body, Payload.wireType, List.append_assoc]
    rw [mergeFields_key _ (by simp only [List.length_append]; omega) (decodeKey_encodeKey _ _ _),
      extension_mergeField tags extension body bodyWf fits fuel (by omega)]
    simp only [mergeMessages]
    cases wrapInner (mergeAll tags ⟨99⟩ (current extension.inner) body) with
    | error error => rfl
    | ok next =>
      simp only [Functor.map, Except.map, bind, Except.bind]
      exact mergeFields_messages rest next fuel
        (fun other member => wf other (List.mem_cons_of_mem _ member)) (by unfold extensionFields; omega)

/-- Merging the messages one after another is merging their fields in one run. -/
theorem mergeMessages_concat : ∀ (rest : List Fields) (first : Fields) (extension : LogicalPlanExtension),
    mergeMessages tags extension (first :: rest) =
      wrapInner (mergeAll tags ⟨99⟩ (current extension.inner) (Fields.concat (first :: rest)))
  | [], first, extension => by
    simp only [mergeMessages, Fields.concat, List.foldr_cons, List.foldr_nil, Fields.append_nil]
    cases wrapInner (mergeAll tags ⟨99⟩ (current extension.inner) first) <;> rfl
  | second :: rest, first, extension => by
    rw [mergeMessages, Fields.concat, List.foldr_cons, mergeAll_append]
    cases mergeAll tags ⟨99⟩ (current extension.inner) first with
    | error error => rfl
    | ok proto => exact mergeMessages_concat rest second ⟨some (.dropCredentials proto)⟩

/-- The fields `encode_raw` writes for a message: one per name, then the flag when set. -/
def protoFields (proto : DropCredentialsProto) : Fields :=
  proto.names.foldr (fun name rest => .cons tags.names (.lengthDelimited name.bytes) rest)
    (if proto.ifExists then .cons tags.ifExists (.varint 1) .nil else .nil)

section Names
variable (ifExists : Bool) (names : List RustString)

theorem protoFields_encode (fits : ∀ name ∈ names, name.bytes.length < 2 ^ 64) :
    (protoFields tags ⟨names, ifExists⟩).encode = DropCredentialsProto.encodeRaw tags ⟨names, ifExists⟩ := by
  induction names with
  | nil =>
    cases ifExists <;> simp [protoFields, Fields.encode, Payload.body, Payload.wireType,
      DropCredentialsProto.encodeRaw, encodeRepeatedString, encodeBool]
  | cons name names ih =>
    have fit := fits name (List.mem_cons_self _ _)
    have rest := ih fun other member => fits other (List.mem_cons_of_mem _ member)
    simp only [protoFields, DropCredentialsProto.encodeRaw, List.foldr_cons] at rest ⊢
    simp only [Fields.encode, Payload.body, Payload.wireType, rest, encodeRepeatedString,
      List.flatMap_cons, encodeString, Nat.mod_eq_of_lt fit, List.append_assoc]

theorem protoFields_wellFormed (fits : ∀ name ∈ names, name.bytes.length < 2 ^ 64) :
    (protoFields tags ⟨names, ifExists⟩).wellFormed = true := by
  induction names with
  | nil => cases ifExists <;> rfl
  | cons name names ih =>
    have fit := fits name (List.mem_cons_self _ _)
    have rest := ih fun other member => fits other (List.mem_cons_of_mem _ member)
    simp only [protoFields, List.foldr_cons] at rest ⊢
    simp only [Fields.wellFormed, Payload.wellFormed, rest, Bool.and_true, decide_eq_true_eq]
    exact fit

theorem mergeAll_protoFields (ctx : DecodeContext) (proto : DropCredentialsProto) :
    mergeAll tags ctx proto (protoFields tags ⟨names, ifExists⟩) =
      .ok ⟨proto.names ++ names, ifExists || proto.ifExists⟩ := by
  induction names generalizing proto with
  | nil => cases ifExists <;> simp [protoFields, mergeAll, mergeOne, Ne.symm tags.distinct, bind, Except.bind]
  | cons name names ih =>
    simp only [protoFields, List.foldr_cons] at ih ⊢
    simp [mergeAll, mergeOne, name.valid, bind, Except.bind, ih]
end Names

/-- The message `try_encode` writes for a node, as a body of fields. -/
def nodeFields (node : DropCredentials) : Fields := protoFields tags ⟨node.names, node.ifExists⟩

/-- What `try_encode` writes into an empty buffer, as a stream of fields. -/
theorem tryEncode_fields {node : DropCredentials} {bytes : List UInt8}
    (encoded : node.tryEncode tags [] = .ok bytes) :
    bytes = (extensionFields tags [nodeFields tags node]).encode ∧
      (nodeFields tags node).wellFormed = true ∧ (nodeFields tags node).encode.length < 2 ^ 64 := by
  by_cases fits : (LogicalPlanExtension.mk
      (some (.dropCredentials ⟨node.names, node.ifExists⟩))).encodedLen tags ≤ isizeMax
  · simp only [DropCredentials.tryEncode, LogicalPlanExtension.encode, List.length_nil,
      Nat.sub_zero, Nat.not_lt.mpr fits, if_false, List.nil_append, Except.ok.injEq] at encoded
    rw [LogicalPlanExtension.encodedLen_eq] at fits
    simp only [LogicalPlanExtension.encodeRaw, encodeMessage, List.length_append,
      DropCredentialsProto.encodedLen_eq] at fits encoded
    have rawLength : (DropCredentialsProto.encodeRaw tags ⟨node.names, node.ifExists⟩).length < 2 ^ 64 := by
      unfold isizeMax at fits; omega
    have namesFit : ∀ name ∈ node.names, name.bytes.length < 2 ^ 64 := by
      intro name member
      have := name_length_le tags.names member
      simp only [DropCredentialsProto.encodeRaw, List.length_append] at rawLength
      omega
    rw [nodeFields, protoFields_encode tags _ _ namesFit]
    refine ⟨?_, protoFields_wellFormed tags _ _ namesFit, rawLength⟩
    rw [← encoded, Nat.mod_eq_of_lt rawLength]
    simp [extensionFields, Fields.encode, Payload.body, Payload.wireType, protoFields_encode tags _ _ namesFit]
  · simp [DropCredentials.tryEncode, LogicalPlanExtension.encode, Nat.lt_of_not_le fits] at encoded

/-- What merging the messages of several nodes gives. -/
theorem mergeAll_nodeFields (ctx : DecodeContext) :
    ∀ (nodes : List DropCredentials) (proto : DropCredentialsProto),
      mergeAll tags ctx proto (Fields.concat (nodes.map (nodeFields tags))) =
        .ok ⟨proto.names ++ (nodes.map DropCredentials.names).flatten,
          nodes.any DropCredentials.ifExists || proto.ifExists⟩
  | [], proto => by simp [Fields.concat, mergeAll]
  | node :: nodes, proto => by
    rw [List.map_cons, Fields.concat_cons, mergeAll_append, nodeFields, mergeAll_protoFields]
    simp only [bind, Except.bind, mergeAll_nodeFields ctx nodes, List.map_cons, List.flatten_cons,
      List.any_cons, List.append_assoc, Bool.or_assoc, Bool.or_comm, Bool.or_left_comm]

theorem extensionFields_encodings : ∀ {nodes : List DropCredentials} {encodings : List (List UInt8)},
    List.Forall₂ (fun node bytes => node.tryEncode tags [] = .ok bytes) nodes encodings →
    encodings.flatten = (extensionFields tags (nodes.map (nodeFields tags))).encode ∧
      ∀ body ∈ nodes.map (nodeFields tags), body.wellFormed = true ∧ body.encode.length < 2 ^ 64
  | _, _, .nil => ⟨rfl, by simp⟩
  | _, _, .cons encoded rest => by
    obtain ⟨bytes, wf, fits⟩ := tryEncode_fields tags encoded
    obtain ⟨flat, all⟩ := extensionFields_encodings rest
    refine ⟨?_, ?_⟩
    · simp only [List.flatten_cons, flat, bytes, List.map_cons, extensionFields_cons, Fields.encode]
      simp [extensionFields]
    · simp only [List.map_cons, List.mem_cons, forall_eq_or_imp]
      exact ⟨⟨wf, fits⟩, all⟩

/-- The bytes of several `try_encode` calls, concatenated, decode to one `DropCredentials`
variant, and `try_decode` gives a node with all the names, in order, and the flag set when
any node had it. -/
theorem try_encode_concat_merges (nodes : List DropCredentials) (encodings : List (List UInt8))
    (encoded : List.Forall₂ (fun node bytes => node.tryEncode tags [] = .ok bytes) nodes encodings)
    (nonempty : nodes ≠ []) :
    ∃ proto, LogicalPlanExtension.decode tags encodings.flatten = .ok ⟨some (.dropCredentials proto)⟩ ∧
      DropCredentials.tryDecode proto =
        .ok ⟨(nodes.map DropCredentials.names).flatten, nodes.any DropCredentials.ifExists⟩ := by
  obtain ⟨flat, wf⟩ := extensionFields_encodings tags encoded
  obtain ⟨first, rest, rfl⟩ := List.exists_cons_of_ne_nil nonempty
  refine ⟨⟨((first :: rest).map DropCredentials.names).flatten,
    (first :: rest).any DropCredentials.ifExists⟩, ?_, rfl⟩
  rw [flat, LogicalPlanExtension.decode, decodeMessage, mergeFields_messages tags _ _ _ wf (by omega),
    List.map_cons, mergeMessages_concat, ← List.map_cons]
  dsimp only [current]
  rw [mergeAll_nodeFields]
  simp [wrapInner, DropCredentialsProto.default, Functor.map, Except.map, bind, Except.bind, pure,
    Except.pure]

theorem try_encode_concat_merges_sample :
    List.Forall₂ (fun node bytes => node.tryEncode sampleTags [] = .ok bytes)
        [sampleNode, ⟨[⟨[0x62], by decide⟩], false⟩] [[98, 9, 10, 3, 97, 195, 169, 10, 0, 16, 1], [98, 3, 10, 1, 98]] ∧
      ∃ proto, LogicalPlanExtension.decode sampleTags [98, 9, 10, 3, 97, 195, 169, 10, 0, 16, 1, 98, 3, 10, 1, 98] =
          .ok ⟨some (.dropCredentials proto)⟩ ∧
        DropCredentials.tryDecode proto = .ok ⟨[⟨[0x61, 0xC3, 0xA9], by decide⟩, ⟨[], by decide⟩, ⟨[0x62], by decide⟩], true⟩ :=
  have encoded : List.Forall₂ (fun node bytes => node.tryEncode sampleTags [] = .ok bytes)
      [sampleNode, ⟨[⟨[0x62], by decide⟩], false⟩] [[98, 9, 10, 3, 97, 195, 169, 10, 0, 16, 1], [98, 3, 10, 1, 98]] :=
    .cons (by decide) (.cons (by decide) .nil)
  ⟨encoded, try_encode_concat_merges sampleTags _ _ encoded (by simp)⟩

/-- \`try_encode\` into any buffer: it fails exactly when the message does not fit in what is
left of the buffer's capacity, with an error naming the number of bytes the message takes;
otherwise it keeps the buffer and appends the message, whose bytes decode back to the same
extension. -/
theorem try_encode_any_buffer (node : DropCredentials) (buf : List UInt8) :
    let extension : LogicalPlanExtension := ⟨some (.dropCredentials ⟨node.names, node.ifExists⟩)⟩
    (node.tryEncode tags buf =
      if (extension.encodeRaw tags).length > isizeMax - buf.length then
        .error (.internal (EncodeError.toString ⟨(extension.encodeRaw tags).length, isizeMax - buf.length⟩))
      else .ok (buf ++ extension.encodeRaw tags)) ∧
    ((extension.encodeRaw tags).length ≤ isizeMax - buf.length →
      LogicalPlanExtension.decode tags (extension.encodeRaw tags) = .ok extension) := by
  refine ⟨?_, fun fits => decode_encodeRaw tags _ ?_⟩
  · simp only [DropCredentials.tryEncode, LogicalPlanExtension.encode, LogicalPlanExtension.encodedLen_eq]
    split_ifs <;> rfl
  · rw [LogicalPlanExtension.encodedLen_eq]
    omega

theorem try_encode_any_buffer_sample :
    sampleNode.tryEncode sampleTags [1, 2] = .ok [1, 2, 98, 9, 10, 3, 97, 195, 169, 10, 0, 16, 1] ∧
      LogicalPlanExtension.decode sampleTags [98, 9, 10, 3, 97, 195, 169, 10, 0, 16, 1] =
        .ok ⟨some (.dropCredentials ⟨sampleNode.names, sampleNode.ifExists⟩)⟩ :=
  ⟨(try_encode_any_buffer sampleTags sampleNode [1, 2]).1.trans rfl,
    (try_encode_any_buffer sampleTags sampleNode [1, 2]).2 (by decide)⟩

end GlareDb.Proofs.DropCredentialsMerge
