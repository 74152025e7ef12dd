/-
  NearLedger.Signing.Ambiguity

  What the wire form of a signing request tells about the request.  The bytes of
  the path and the payload are concatenated without a length, so the stream
  determines the concatenation and nothing more: two requests with the same
  stream are equal when their paths have the same depth, and otherwise the
  longer path has swallowed the beginning of the other payload.  Of a path of
  more than 255 indices not even these are all sent, since `depth` is one byte.
-/

import NearLedger.Signing.Agreement

namespace NearLedger

open Interaction Slices

variable {C : Crates} {F : Type}

/-- A device that answers every command with `0x9000`. -/
def Accepting (dev : Device C F) : Prop := ∀ h, Succeeds (dev h)

/-- The APDU stream of `send_payload_apdus` against a device. -/
def hidStream (view : FailureView C F) (dev : Device C F) (payload : Bytes) (path : C.BIP32Path)
    (ins : UInt8) : List APDUCommand :=
  exchanged (Call.run (hidEnv view dev) [] (Hid.sendPayloadApdus payload path ins)).1

/-- An accepting device gets the whole stream. -/
theorem issued_of_accepting {dev : Device C F} (h : Accepting dev) (stream : List APDUCommand) :
    issued dev stream = stream := by
  rw [issued, firstFailure_eq_none_iff.mpr fun i _ => h _]

theorem hidStream_eq {view : FailureView C F} {dev : Device C F} (h : Accepting dev)
    {path : C.BIP32Path} {indices : List UInt32} (hpath : pathIndices path = some indices)
    (payload : Bytes) (ins : UInt8) :
    hidStream view dev payload path ins =
      signingCommands ins (indices.flatMap Bytes.u32ToBeBytes ++ payload) := by
  rw [hidStream, (run_sendPayloadApdus view dev hpath payload ins).1, issued_of_accepting h]

/-- Two index lists followed by payloads with the same bytes: the longer list extends the shorter
    one, by indices whose bytes begin the other payload. -/
theorem exists_indices_of_bytes_eq {vs ws : List UInt32} {xs ys : Bytes} (hlen : vs.length ≤ ws.length)
    (h : vs.flatMap Bytes.u32ToBeBytes ++ xs = ws.flatMap Bytes.u32ToBeBytes ++ ys) :
    ∃ us, ws = vs ++ us ∧ xs = us.flatMap Bytes.u32ToBeBytes ++ ys := by
  have htake : (ws.take vs.length).length = vs.length := by
    rw [List.length_take]
    omega
  have hsplit : ws.flatMap Bytes.u32ToBeBytes ++ ys =
      (ws.take vs.length).flatMap Bytes.u32ToBeBytes ++
        ((ws.drop vs.length).flatMap Bytes.u32ToBeBytes ++ ys) := by
    rw [← List.append_assoc, ← List.flatMap_append, List.take_append_drop]
  obtain ⟨hvs, hxs⟩ := Bytes.flatMap_u32ToBeBytes_append_inj htake.symm (h.trans hsplit)
  refine ⟨ws.drop vs.length, ?_, hxs⟩
  conv_rhs => rw [hvs]
  rw [htake, List.take_append_drop]

/-- Equal streams carry equal path-and-payload bytes: with paths of one depth the requests are
    equal, and otherwise the deeper path is the shallower one with indices read off the front of
    the other payload. -/
theorem hidStream_determines_request (hE : C.PathExt) (view : FailureView C F)
    {dev dev' : Device C F} (hdev : Accepting dev) (hdev' : Accepting dev') (p q : C.BIP32Path)
    (hp : (C.indices p).length ≤ 255) (hq : (C.indices q).length ≤ 255) (x y : Bytes) (ins : UInt8)
    (h : hidStream view dev x p ins = hidStream view dev' y q ins) :
    (C.depth p = C.depth q → p = q ∧ x = y) ∧
      (C.depth p ≤ C.depth q → ∃ us, C.indices q = C.indices p ++ us ∧
        x = us.flatMap Bytes.u32ToBeBytes ++ y) := by
  have hpathp := pathIndices_eq_indices hE hp
  have hpathq := pathIndices_eq_indices hE hq
  rw [hidStream_eq hdev hpathp, hidStream_eq hdev' hpathq] at h
  have hbytes := signingCommands_injective h
  have hlenp := length_pathIndices hpathp
  have hlenq := length_pathIndices hpathq
  refine ⟨fun hdepth => ?_, fun hdepth => ?_⟩
  · have hlen : (C.indices p).length = (C.indices q).length := by rw [hlenp, hlenq, hdepth]
    obtain ⟨hindices, hxy⟩ := Bytes.flatMap_u32ToBeBytes_append_inj hlen hbytes
    exact ⟨hE.ext p q hindices, hxy⟩
  · have hlen : (C.indices p).length ≤ (C.indices q).length := by
      rw [hlenp, hlenq]
      exact UInt8.le_iff_toNat_le.mp hdepth
    exact exists_indices_of_bytes_eq hlen hbytes

theorem countingDevice_accepting : Accepting countingDevice :=
  fun _ => ⟨_, rfl, rfl⟩

/-- A path of 256 indices. -/
def deepPath (index : UInt32) : Crates.reference.BIP32Path :=
  Crates.pathOf (List.replicate 256 index)

/-- Its depth is 0, so none of them is sent. -/
theorem pathIndices_deepPath (index : UInt32) : pathIndices (deepPath index) = some [] := by
  have hdepth : Crates.reference.depth (deepPath index) = 0 := by
    show UInt8.ofNat (List.replicate 256 index).length = 0
    rw [List.length_replicate]
    rfl
  rw [pathIndices, hdepth]
  rfl

theorem deepPath_ne : deepPath 0 ≠ deepPath 1 := by
  intro h
  have hhead := congrArg List.head? h
  exact absurd hhead (by decide)

/-- The path `m/1/2` with no payload, and the path `m/1` with the four bytes of the index 2; and two
    paths of 256 indices, with the same payload. -/
theorem hidStream_collision :
    (∃ (p q : Crates.reference.BIP32Path) (x y : Bytes), p ≠ q ∧ x ≠ y ∧
      Accepting countingDevice ∧ hidStream textView countingDevice x p insSignTransaction =
        hidStream textView countingDevice y q insSignTransaction) ∧
    ∃ p q : Crates.reference.BIP32Path, (Crates.reference.indices p).length = 256 ∧
      (Crates.reference.indices q).length = 256 ∧ p ≠ q ∧
      ∀ x, hidStream textView countingDevice x p insSignTransaction =
        hidStream textView countingDevice x q insSignTransaction := by
  constructor
  · refine ⟨Crates.pathOne 1, Crates.pathOf [1, 2], [0, 0, 0, 2], [], by decide, by decide,
      countingDevice_accepting, ?_⟩
    decide
  · refine ⟨deepPath 0, deepPath 1, List.length_replicate, List.length_replicate, deepPath_ne, ?_⟩
    intro x
    rw [hidStream_eq countingDevice_accepting (pathIndices_deepPath 0),
      hidStream_eq countingDevice_accepting (pathIndices_deepPath 1)]

theorem hidStream_determines_request_counting :
    ∃ us : List UInt32, Crates.reference.indices (Crates.pathOf [1, 2]) =
        Crates.reference.indices (Crates.pathOne 1) ++ us ∧
      ([0, 0, 0, 2] : Bytes) = us.flatMap Bytes.u32ToBeBytes ++ [] := by
  have hstream : hidStream textView countingDevice [0, 0, 0, 2] (Crates.pathOne 1)
      insSignTransaction =
      hidStream textView countingDevice [] (Crates.pathOf [1, 2]) insSignTransaction := by decide
  exact (hidStream_determines_request Crates.reference_pathExt textView countingDevice_accepting
    countingDevice_accepting (Crates.pathOne 1) (Crates.pathOf [1, 2]) (by decide) (by decide)
    [0, 0, 0, 2] [] insSignTransaction hstream).2 (by decide)

end NearLedger
