/-
  NearLedger.Signing.Nep413

  What the wire form of an NEP-413 request tells about the message.  The borsh
  format of the payload is self-delimiting (`NEP413Payload.codec`), so behind the
  bytes of a path of known depth the chunk data is read back as the four fields
  with nothing left over, wherever the chunks are cut
  (`nep413Stream_determines_message`).
-/

import NearLedger.Signing.Ambiguity

namespace NearLedger

open Interaction Slices

/-! ## The payload -/

namespace NEP413Payload

/-- The borsh format of the struct: its fields one after another. -/
def codec : Codec UInt8 NEP413Payload :=
  (Borsh.string.pair ((Codec.vector UInt8 32).pair
    (Borsh.string.pair (Borsh.option Borsh.string)))).via
      (fun p => (p.message, p.nonce, p.recipient, p.callbackUrl))
      (fun r => some { message := r.1, nonce := r.2.1, recipient := r.2.2.1, callbackUrl := r.2.2.2 })
      fun _ => rfl

theorem valid_codec {p : NEP413Payload} (h : p.Encodable) : codec.Valid p :=
  ⟨h.1, trivial, h.2.1, h.2.2⟩

theorem encode_codec (p : NEP413Payload) : codec.encode p = p.borsh := by
  change Borsh.string.encode p.message ++ (p.nonce.toList ++ (Borsh.string.encode p.recipient ++
    (Borsh.option Borsh.string).encode p.callbackUrl)) = _
  rw [borsh, List.append_assoc, List.append_assoc]

/-- The bytes of a payload are read back as its four fields, and all of them are used. -/
theorem decode_borsh {p : NEP413Payload} (h : p.Encodable) :
    codec.decode p.borsh = some (p, []) := by
  rw [← encode_codec, codec.decode_encode_self (valid_codec h)]

theorem borsh_injective {p q : NEP413Payload} (hp : p.Encodable) (hq : q.Encodable)
    (h : p.borsh = q.borsh) : p = q := by
  rw [← encode_codec, ← encode_codec] at h
  exact codec.encode_injective (valid_codec hp) (valid_codec hq) h

end NEP413Payload

/-! ## The stream of a request -/

/-- The two transports. -/
inductive Transport where
  | hid
  | ble
  deriving DecidableEq, Repr

variable {C : Crates} {F : Type}

/-- The APDU stream of `sign_message_nep413`, or of `sign_message_nep413_ble`, against a device. -/
def nep413Stream (view : FailureView C F) (dev : Device C F) (payload : NEP413Payload)
    (path : C.BIP32Path) : Transport → List APDUCommand
  | .hid => exchanged (Call.run (hidEnv view dev) [] (Hid.signMessageNep413 payload path)).1
  | .ble => (Call.run (bleEnv view dev) [] (BleApi.signMessageNep413Ble payload path)).1

/-- The stream has its last chunk. -/
def Whole (stream : List APDUCommand) : Prop := ∃ c ∈ stream, c.p1 = p1SignNormalLastChunk

/-- The device gets the stream of the path and the payload, up to its first failure. -/
theorem nep413Stream_eq (hB : C.BorshDoc) (view : FailureView C F) (dev : Device C F)
    {path : C.BIP32Path} {indices : List UInt32} (hpath : pathIndices path = some indices)
    {payload : NEP413Payload} (hpayload : payload.Encodable) (t : Transport) :
    nep413Stream view dev payload path t =
      issued dev (signingCommands insSignNep413Message
        (indices.flatMap Bytes.u32ToBeBytes ++ payload.borsh)) := by
  have hborsh := hB.borshToVec_eq payload hpayload
  cases t with
  | hid =>
      rw [nep413Stream, Hid.signMessageNep413, hborsh]
      exact (run_sendPayloadApdus view dev hpath payload.borsh insSignNep413Message).1
  | ble =>
      rw [nep413Stream, BleApi.signMessageNep413Ble, hborsh]
      exact congrArg Prod.fst
        (run_sendPayloadApdusBle view dev hpath payload.borsh insSignNep413Message)

theorem issued_prefix_stream (dev : Device C F) (stream : List APDUCommand) :
    issued dev stream <+: stream := by
  rw [issued]
  cases firstFailure dev stream with
  | none => exact List.prefix_refl _
  | some i => exact List.take_prefix _ _

/-- A device that has the last chunk has the whole stream. -/
theorem nep413Stream_of_whole (hB : C.BorshDoc) {view : FailureView C F} {dev : Device C F}
    {path : C.BIP32Path} {indices : List UInt32} (hpath : pathIndices path = some indices)
    {payload : NEP413Payload} (hpayload : payload.Encodable) {t : Transport}
    (h : Whole (nep413Stream view dev payload path t)) :
    nep413Stream view dev payload path t =
      signingCommands insSignNep413Message
        (indices.flatMap Bytes.u32ToBeBytes ++ payload.borsh) := by
  rw [nep413Stream_eq hB view dev hpath hpayload] at h ⊢
  exact eq_of_prefix_of_last (issued_prefix_stream dev _) h

/-- The tag of the last field alone makes the payload at least one byte long. -/
theorem borsh_ne_nil (payload : NEP413Payload) : payload.borsh ≠ [] := by
  rw [NEP413Payload.borsh]
  apply List.append_ne_nil_of_right_ne_nil
  cases payload.callbackUrl <;> exact List.cons_ne_nil _ _

/-- A device that accepts every chunk gets the last one. -/
theorem whole_of_accepting (hB : C.BorshDoc) (view : FailureView C F) {dev : Device C F}
    (hdev : Accepting dev) {path : C.BIP32Path} {indices : List UInt32}
    (hpath : pathIndices path = some indices) {payload : NEP413Payload}
    (hpayload : payload.Encodable) (t : Transport) :
    Whole (nep413Stream view dev payload path t) := by
  rw [nep413Stream_eq hB view dev hpath hpayload, issued_of_accepting hdev]
  apply exists_last_commandsOf
  rw [Ne, chunks_eq_nil_iff (by decide)]
  exact List.append_ne_nil_of_right_ne_nil _ (borsh_ne_nil payload)

/-- Two NEP-413 requests with paths of one depth and the same whole stream, over either transport,
    carry the same message, along the same path when it has at most 255 indices; and behind the bytes
    of the path the chunk data is read back as the message, with nothing left over.  Every device
    that accepts the chunks gets a whole stream. -/
theorem nep413Stream_determines_message (hP : C.PathDoc) (hE : C.PathExt) (hB : C.BorshDoc)
    (view : FailureView C F) (dev dev' : Device C F) (t t' : Transport) {p q : C.BIP32Path}
    (hdepth : C.depth p = C.depth q) {x y : NEP413Payload} (hx : x.Encodable) (hy : y.Encodable) :
    (Whole (nep413Stream view dev x p t) →
      nep413Stream view dev x p t = nep413Stream view dev' y q t' →
        ((C.indices p).length ≤ 255 → (C.indices q).length ≤ 255 → p = q) ∧
          x.message = y.message ∧ x.nonce = y.nonce ∧ x.recipient = y.recipient ∧
          x.callbackUrl = y.callbackUrl) ∧
      (Whole (nep413Stream view dev x p t) →
        NEP413Payload.codec.decode (((nep413Stream view dev x p t).map APDUCommand.data).flatten.drop
          (4 * (C.depth p).toNat)) = some (x, [])) ∧
      (Accepting dev → Whole (nep413Stream view dev x p t)) := by
  obtain ⟨pi, hp⟩ := pathIndices_eq_some hP p
  obtain ⟨qi, hq⟩ := pathIndices_eq_some hP q
  have hlenp := length_pathIndices hp
  have hlenq := length_pathIndices hq
  refine ⟨fun hwhole heq => ?_, fun hwhole => ?_, fun hdev => ?_⟩
  · have hwhole' : Whole (nep413Stream view dev' y q t') := heq ▸ hwhole
    rw [nep413Stream_of_whole hB hp hx hwhole, nep413Stream_of_whole hB hq hy hwhole'] at heq
    have hbytes := signingCommands_injective heq
    have hlen : pi.length = qi.length := by rw [hlenp, hlenq, hdepth]
    obtain ⟨rfl, hborsh⟩ := Bytes.flatMap_u32ToBeBytes_append_inj hlen hbytes
    obtain rfl := NEP413Payload.borsh_injective hx hy hborsh
    refine ⟨fun hshortp hshortq => ?_, rfl, rfl, rfl, rfl⟩
    exact pathIndices_injective hE hshortp hshortq (hp.trans hq.symm)
  · have hpathBytes : (pi.flatMap Bytes.u32ToBeBytes).length = 4 * (C.depth p).toNat := by
      rw [Bytes.length_flatMap_u32ToBeBytes, hlenp]
    rw [nep413Stream_of_whole hB hp hx hwhole, flatten_map_data_signingCommands,
      List.drop_left' hpathBytes, NEP413Payload.decode_borsh hx]
  · exact whole_of_accepting hB view hdev hp hx t

/-- A message without a callback URL. -/
def plainMessage : NEP413Payload where
  message := "hi"
  nonce := Vector.replicate 32 7
  recipient := "bob"
  callbackUrl := none

/-- Another message to the same recipient. -/
def otherMessage : NEP413Payload := { plainMessage with message := "ho" }

theorem plainMessage_encodable : plainMessage.Encodable := by decide

/-- Of two paths of 256 indices no index is sent, so the requests have one stream, and its data has
    no 1024 bytes in front of the message. -/
theorem nep413Stream_deep_collision :
    ∃ p q : Crates.reference.BIP32Path, (Crates.reference.indices p).length = 256 ∧
      (Crates.reference.indices q).length = 256 ∧ p ≠ q ∧
      ∀ t, Whole (nep413Stream textView countingDevice plainMessage p t) ∧
        nep413Stream textView countingDevice plainMessage p t =
          nep413Stream textView countingDevice plainMessage q t ∧
        NEP413Payload.codec.decode (((nep413Stream textView countingDevice plainMessage p t).map
          APDUCommand.data).flatten.drop (4 * 256)) ≠ some (plainMessage, []) := by
  refine ⟨deepPath 0, deepPath 1, List.length_replicate, List.length_replicate, deepPath_ne, ?_⟩
  intro t
  have hwhole := whole_of_accepting Crates.reference_borshDoc textView countingDevice_accepting
    (pathIndices_deepPath 0) plainMessage_encodable t
  refine ⟨hwhole, ?_, ?_⟩
  · rw [nep413Stream_eq Crates.reference_borshDoc textView countingDevice (pathIndices_deepPath 0)
      plainMessage_encodable,
      nep413Stream_eq Crates.reference_borshDoc textView countingDevice (pathIndices_deepPath 1)
      plainMessage_encodable]
  · rw [nep413Stream_of_whole Crates.reference_borshDoc (pathIndices_deepPath 0)
      plainMessage_encodable hwhole, flatten_map_data_signingCommands]
    have hnil : (([] : List UInt32).flatMap Bytes.u32ToBeBytes ++ plainMessage.borsh).drop
        (4 * 256) = [] := List.drop_eq_nil_of_le (by decide)
    have hnone : NEP413Payload.codec.decode [] = none := rfl
    rw [hnil, hnone]
    simp

theorem nep413Stream_determines_message_plain :
    nep413Stream textView countingDevice plainMessage (Crates.pathOne 44) .ble ≠
        nep413Stream textView countingDevice otherMessage (Crates.pathOne 44) .hid ∧
      NEP413Payload.codec.decode (((nep413Stream textView countingDevice plainMessage
        (Crates.pathOne 44) .ble).map APDUCommand.data).flatten.drop 4) =
          some (plainMessage, []) := by
  have hother : otherMessage.Encodable := by decide
  obtain ⟨hsame, hdecode, hwhole⟩ := nep413Stream_determines_message Crates.reference_pathDoc
    Crates.reference_pathExt Crates.reference_borshDoc textView countingDevice countingDevice .ble
    .hid (rfl : Crates.reference.depth (Crates.pathOne 44) = _) plainMessage_encodable hother
  have hplain := hwhole countingDevice_accepting
  refine ⟨fun heq => ?_, hdecode hplain⟩
  have hmessage : plainMessage.message = otherMessage.message := (hsame hplain heq).2.1
  exact absurd hmessage (by decide)

end NearLedger
