/-
  NearLedger.Ble.SendFramed

  `TransportBle::send_framed`.  An `async fn` is a state machine that stops at
  its await points, the sender at each packet write: a state says what is being
  written and what the function remembers, and `onWrite` goes on to the next
  write or to the end.

  The sender writes exactly the packets of `framePackets` (`writes_start`).
-/

import NearLedger.Ble.Packet
import NearLedger.Lib.Slices

namespace NearLedger

open Slices

variable {C : Crates}

/-! ## `send_framed` -/

/-- `send_framed` at a write or at its end. -/
inductive SendState (C : Crates) where
  | writingInitial (packet : Bytes) (firstDataEnd : Nat)
  | writingSubsequent (packet : Bytes) (stop : Nat) (seqIndex : UInt16)
  | returned (r : Except (BleError C) Unit)
  | panicked

/-- The packet being written. -/
def SendState.packet? : SendState C → Option Bytes
  | .writingInitial packet _ => some packet
  | .writingSubsequent packet _ _ => some packet
  | .returned _ => none
  | .panicked => none

namespace SendFramed

variable (commandTag : UInt8) (payload : Bytes) (mtuSize : Nat)

/-- The `while` loop, from its condition to the next write. -/
def loop (offset : Nat) (seqIndex : UInt16) : SendState C :=
  if offset < payload.length then
    let stop := min (offset + (mtuSize - 3)) payload.length
    match slice payload offset stop with
    | none => .panicked
    | some chunk =>
        let packet : SubsequentPacket :=
          { commandTag := commandTag, packetSequenceIndex := seqIndex, payload := chunk }
        .writingSubsequent packet.serialize stop seqIndex
  else .returned (.ok ())

/-- From the call to the first write. -/
def start : SendState C :=
  if payload.length > 65535 then
    .returned (.error (.comm "Payload too large for BLE framing (>65535 bytes)"))
  else
    let firstDataEnd := min (mtuSize - 5) payload.length
    match slice payload 0 firstDataEnd with
    | none => .panicked
    | some chunk =>
        let packet : InitialPacket :=
          { commandTag := commandTag, dataLength := UInt16.ofNat payload.length, payload := chunk }
        .writingInitial packet.serialize firstDataEnd

/-- From the result of a write to the next one. -/
def onWrite : SendState C → Except C.BtleError Unit → SendState C
  | .writingInitial _ firstDataEnd, .ok () => loop commandTag payload mtuSize firstDataEnd 1
  | .writingSubsequent _ stop seqIndex, .ok () =>
      -- `seq_index += 1` on a `u16`
      if seqIndex = 65535 then .panicked
      else loop commandTag payload mtuSize stop (seqIndex + 1)
  | .writingInitial _ _, .error err => .returned (.error (.ble err))
  | .writingSubsequent _ _ _, .error err => .returned (.error (.ble err))
  | .returned r, _ => .returned r
  | .panicked, _ => .panicked

/-- `Writes s packets r`: from the state `s`, when every write succeeds, `send_framed` writes the
    packets and returns `r`. -/
inductive Writes : SendState C → List Bytes → Except (BleError C) Unit → Prop where
  | returned (r : Except (BleError C) Unit) : Writes (.returned r) [] r
  | write {s : SendState C} {packet : Bytes} {packets : List Bytes} {r : Except (BleError C) Unit} :
      s.packet? = some packet →
      Writes (onWrite commandTag payload mtuSize s (.ok ())) packets r →
      Writes s (packet :: packets) r

variable {commandTag payload mtuSize}

theorem Writes.deterministic {s : SendState C} {ps ps' : List Bytes}
    {r r' : Except (BleError C) Unit} (h : Writes commandTag payload mtuSize s ps r)
    (h' : Writes commandTag payload mtuSize s ps' r') : ps = ps' ∧ r = r' := by
  induction h generalizing ps' with
  | returned r =>
      cases h' with
      | returned => exact ⟨rfl, rfl⟩
      | write hp => cases hp
  -- a state at a write has one packet, and a returned state has none
  | write hp _ ih =>
      cases h' with
      | returned => cases hp
      | write hp' h' =>
          obtain ⟨rfl, rfl⟩ := ih h'
          rw [hp] at hp'
          cases hp'
          exact ⟨rfl, rfl⟩

/-- A sender that can finish does not panic, whatever the results of its writes. -/
theorem Writes.foldl_ne_panicked {s : SendState C} {ps : List Bytes}
    {r : Except (BleError C) Unit} (h : Writes commandTag payload mtuSize s ps r) :
    ∀ results : List (Except C.BtleError Unit),
      results.foldl (onWrite commandTag payload mtuSize) s ≠ .panicked := by
  have hreturned : ∀ (r : Except (BleError C) Unit) (results : List (Except C.BtleError Unit)),
      results.foldl (onWrite commandTag payload mtuSize) (.returned r) = .returned r := by
    intro r results
    induction results with
    | nil => rfl
    | cons result results ih => exact ih
  induction h with
  | returned r =>
      intro results
      rw [hreturned]
      simp
  | @write s packet packets r hp _ ih =>
      intro results
      cases results with
      | nil =>
          rintro rfl
          cases hp
      | cons result results =>
          cases result with
          | ok _ => exact ih results
          | error err =>
              -- a failed write ends the call
              have herr : onWrite commandTag payload mtuSize s (.error err) =
                  .returned (.error (.ble err)) := by
                cases s with
                | writingInitial => rfl
                | writingSubsequent => rfl
                | returned => cases hp
                | panicked => cases hp
              rw [List.foldl_cons, herr, hreturned]
              simp

end SendFramed

/-! ## The packets of a message -/

/-- The initial packet of a message. -/
def initialPacketOf (commandTag : UInt8) (payload : Bytes) (mtuSize : Nat) : InitialPacket :=
  { commandTag := commandTag
    dataLength := UInt16.ofNat payload.length
    payload := payload.take (mtuSize - 5) }

/-- The subsequent packets for the chunks, numbered from `k`. -/
def subsequentPacketsFrom (commandTag : UInt8) (k : Nat) : List Bytes → List SubsequentPacket
  | [] => []
  | chunk :: rest =>
      { commandTag := commandTag, packetSequenceIndex := UInt16.ofNat k, payload := chunk } ::
        subsequentPacketsFrom commandTag (k + 1) rest

/-- The subsequent packets of a message. -/
def subsequentPacketsOf (commandTag : UInt8) (payload : Bytes) (mtuSize : Nat) :
    List SubsequentPacket :=
  subsequentPacketsFrom commandTag 1 (chunks (mtuSize - 3) (payload.drop (mtuSize - 5)))

/-- The packets of a message: the first `mtu - 5` bytes behind the initial header, then pieces of
    `mtu - 3` bytes. -/
def framePackets (commandTag : UInt8) (payload : Bytes) (mtuSize : Nat) : List Bytes :=
  (initialPacketOf commandTag payload mtuSize).serialize ::
    (subsequentPacketsOf commandTag payload mtuSize).map SubsequentPacket.serialize

@[simp] theorem length_subsequentPacketsFrom (commandTag : UInt8) (k : Nat) (cs : List Bytes) :
    (subsequentPacketsFrom commandTag k cs).length = cs.length := by
  induction cs generalizing k with
  | nil => rfl
  | cons c cs ih => rw [subsequentPacketsFrom, List.length_cons, ih, List.length_cons]

@[simp] theorem map_payload_subsequentPacketsFrom (commandTag : UInt8) (k : Nat) (cs : List Bytes) :
    (subsequentPacketsFrom commandTag k cs).map SubsequentPacket.payload = cs := by
  induction cs generalizing k with
  | nil => rfl
  | cons c cs ih => rw [subsequentPacketsFrom, List.map_cons, ih]

/-- The indices are `k`, `k + 1`, and so on, as long as they fit. -/
theorem map_index_subsequentPacketsFrom (commandTag : UInt8) {k : Nat} {cs : List Bytes}
    (h : k + cs.length ≤ 65536) :
    (subsequentPacketsFrom commandTag k cs).map (fun p => p.packetSequenceIndex.toNat) =
      List.range' k cs.length := by
  induction cs generalizing k with
  | nil => rfl
  | cons c cs ih =>
      rw [List.length_cons] at h
      rw [subsequentPacketsFrom, List.map_cons, ih (by omega), List.length_cons, List.range'_succ,
        Bytes.toNat_u16_ofNat (by omega)]

theorem commandTag_of_mem_subsequentPacketsFrom {commandTag : UInt8} {k : Nat} {cs : List Bytes}
    {p : SubsequentPacket} (h : p ∈ subsequentPacketsFrom commandTag k cs) :
    p.commandTag = commandTag := by
  induction cs generalizing k with
  | nil => simp [subsequentPacketsFrom] at h
  | cons c cs ih =>
      rcases List.mem_cons.mp h with rfl | h
      · rfl
      · exact ih h

/-- What a subsequent packet carries is one of the pieces. -/
theorem payload_mem_chunks {commandTag : UInt8} {payload : Bytes} {mtuSize : Nat}
    {p : SubsequentPacket} (h : p ∈ subsequentPacketsOf commandTag payload mtuSize) :
    p.payload ∈ chunks (mtuSize - 3) (payload.drop (mtuSize - 5)) := by
  rw [← map_payload_subsequentPacketsFrom commandTag 1 (chunks _ _)]
  exact List.mem_map_of_mem h

/-- With pieces of at least three bytes there are fewer than `2^16 - 1` subsequent packets. -/
theorem length_chunks_frame {payload : Bytes} {mtuSize : Nat} (hmtu : 6 ≤ mtuSize)
    (hlen : payload.length ≤ 65535) :
    1 + (chunks (mtuSize - 3) (payload.drop (mtuSize - 5))).length ≤ 65535 := by
  have hle : payload.length - (mtuSize - 5) + (mtuSize - 3) - 1 < 65534 * (mtuSize - 3) := by
    omega
  rw [length_chunks (by omega), List.length_drop]
  have := (Nat.div_lt_iff_lt_mul (show 0 < mtuSize - 3 by omega)).mpr hle
  omega

/-! ## The sender writes these packets -/

namespace SendFramed

variable {commandTag : UInt8} {payload : Bytes} {mtuSize : Nat}

/-- One round of the loop: the next piece is inside the payload and becomes the next packet. -/
theorem loop_of_lt (hmtu : 6 ≤ mtuSize) {offset : Nat} (seqIndex : UInt16)
    (h : offset < payload.length) :
    (loop commandTag payload mtuSize offset seqIndex : SendState C) =
      .writingSubsequent (SubsequentPacket.serialize
        { commandTag := commandTag
          packetSequenceIndex := seqIndex
          payload := (payload.drop offset).take (mtuSize - 3) })
        (min (offset + (mtuSize - 3)) payload.length) seqIndex := by
  have hslice : slice payload offset (min (offset + (mtuSize - 3)) payload.length) =
      some ((payload.drop offset).take (mtuSize - 3)) := by
    rw [slice_eq_some (by omega) (by omega), Option.some.injEq, List.drop_take]
    rw [List.take_eq_take_iff, List.length_drop]
    omega
  rw [loop, if_pos h]
  simp only [hslice]

/-- The loop writes the rest of the payload in pieces, numbered from `seqIndex`. -/
theorem writes_loop (hmtu : 6 ≤ mtuSize) :
    ∀ (offset : Nat) (seqIndex : UInt16),
      seqIndex.toNat + (chunks (mtuSize - 3) (payload.drop offset)).length ≤ 65535 →
      Writes commandTag payload mtuSize (loop commandTag payload mtuSize offset seqIndex : SendState C)
        ((subsequentPacketsFrom commandTag seqIndex.toNat
          (chunks (mtuSize - 3) (payload.drop offset))).map SubsequentPacket.serialize) (.ok ()) := by
  intro offset
  -- on the number of bytes not yet sent
  induction hleft : payload.length - offset using Nat.strongRecOn generalizing offset with
  | ind left ih =>
      intro seqIndex hseq
      by_cases hlt : offset < payload.length
      · have hne : payload.drop offset ≠ [] := by
          rw [Ne, List.drop_eq_nil_iff]
          omega
        have hdrop : (payload.drop offset).drop (mtuSize - 3) =
            payload.drop (min (offset + (mtuSize - 3)) payload.length) := by
          rw [List.drop_drop]
          by_cases hle : offset + (mtuSize - 3) ≤ payload.length
          · rw [Nat.min_eq_left hle]
          · rw [Nat.min_eq_right (by omega), List.drop_length, List.drop_eq_nil_iff]
            omega
        rw [chunks_of_ne_nil (by omega) hne, hdrop] at hseq ⊢
        rw [List.length_cons] at hseq
        have hseq' : (seqIndex + 1).toNat = seqIndex.toNat + 1 := by
          rw [UInt16.toNat_add]
          simp only [UInt16.toNat_one]
          omega
        -- there is room for this index and the next one
        have hmax : seqIndex ≠ 65535 := by
          rintro rfl
          have h65535 : (65535 : UInt16).toNat = 65535 := rfl
          omega
        have hnext := ih (payload.length - min (offset + (mtuSize - 3)) payload.length) (by omega)
          _ rfl (seqIndex + 1) (by rw [hseq']; omega)
        rw [loop_of_lt hmtu seqIndex hlt, subsequentPacketsFrom, List.map_cons, UInt16.ofNat_toNat]
        refine .write rfl ?_
        rw [onWrite, if_neg hmax, ← hseq']
        exact hnext
      · have hnil : payload.drop offset = [] := List.drop_eq_nil_iff.mpr (by omega)
        rw [hnil, loop, if_neg hlt]
        exact .returned _

/-- `send_framed` writes the packets of the message and returns. -/
theorem writes_start (hmtu : 6 ≤ mtuSize) (hlen : payload.length ≤ 65535) :
    Writes commandTag payload mtuSize (start commandTag payload mtuSize : SendState C)
      (framePackets commandTag payload mtuSize) (.ok ()) := by
  have hslice : slice payload 0 (min (mtuSize - 5) payload.length) =
      some (payload.take (mtuSize - 5)) := by
    rw [slice_eq_some (Nat.zero_le _) (by omega), Option.some.injEq, List.drop_zero,
      List.take_eq_take_iff]
    omega
  have hdrop : payload.drop (min (mtuSize - 5) payload.length) = payload.drop (mtuSize - 5) := by
    by_cases hle : mtuSize - 5 ≤ payload.length
    · rw [Nat.min_eq_left hle]
    · rw [Nat.min_eq_right (by omega), List.drop_length, List.drop_eq_nil_iff.mpr (by omega)]
  rw [start, if_neg (by omega)]
  simp only [hslice]
  refine .write rfl ?_
  have hloop := @writes_loop C commandTag payload mtuSize hmtu (min (mtuSize - 5) payload.length) 1
  rw [hdrop, UInt16.toNat_one] at hloop
  exact hloop (length_chunks_frame hmtu hlen)

/-- A payload of more than 65535 bytes is refused, with nothing written. -/
theorem start_of_gt (hlen : 65535 < payload.length) :
    (start commandTag payload mtuSize : SendState C) =
      .returned (.error (.comm "Payload too large for BLE framing (>65535 bytes)")) := by
  rw [start, if_pos hlen]

end SendFramed

end NearLedger
