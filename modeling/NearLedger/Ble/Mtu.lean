/-
  NearLedger.Ble.Mtu

  `TransportBle::infer_mtu`, the last thing `connect` does.  Whatever arrives,
  the MTU it stores is between 6 and 255, and nothing stores another one later.
  With such an MTU `send_framed` makes progress in every round and its sequence
  index stays far below the limit of a `u16`.
-/

import NearLedger.Ble.System

namespace NearLedger

open Slices

variable {C : Crates}

/-- `infer_mtu` at its write, at a read, or at its end with what it has stored in `mtu_size`. -/
inductive InferState (C : Crates) where
  | writingCommand (packet : Bytes)
  | awaitingResponse
  | returned (mtuSize : Option Nat) (r : Except (BleError C) Nat)
  | panicked

namespace InferMtu

/-- From the call to the write. -/
def start : InferState C := .writingCommand [mtuCommandTag, 0x00, 0x00, 0x00, 0x00]

/-- Store an MTU and return it. -/
def store (mtuSize : Nat) : InferState C := .returned (some mtuSize) (.ok mtuSize)

/-- What is made of the response. -/
def onResponse (raw : Bytes) : InferState C :=
  if raw.length < 6 then store defaultMtuSize
  else
    match raw[5]? with
    | none => .panicked
    | some b =>
        let mtuSize := b.toNat
        -- the initial packet header is 5 bytes, so the MTU must be > 5 to carry any data
        store (if mtuSize > 5 then mtuSize else defaultMtuSize)

def onWrite : InferState C → Except C.BtleError Unit → InferState C
  | .writingCommand _, .ok () => .awaitingResponse
  | .writingCommand _, .error err => .returned none (.error (.ble err))
  | s, _ => s

def onNotification : InferState C → Except (BleError C) Bytes → InferState C
  | .awaitingResponse, .ok data =>
      if data.head? = some mtuCommandTag then onResponse data else .awaitingResponse
  | .awaitingResponse, .error err => .returned none (.error err)
  | s, _ => s

end InferMtu

/-- `infer_mtu` with the result of its write and the results of its reads. -/
def inferMtu (write : Except C.BtleError Unit) (reads : List (Except (BleError C) Bytes)) :
    InferState C :=
  reads.foldl InferMtu.onNotification (InferMtu.onWrite InferMtu.start write)

/-- The values `infer_mtu` can store in a run that lets `connect` return a transport. -/
def StorableMtu (C : Crates) (mtuSize : Nat) : Prop :=
  ∃ (write : Except C.BtleError Unit) (reads : List (Except (BleError C) Bytes)),
    inferMtu write reads = .returned (some mtuSize) (.ok mtuSize)

namespace InferMtu

/-- The states of `infer_mtu` as they should be: no panic, and a stored MTU in range. -/
def Sound : InferState C → Prop
  | .writingCommand _ => True
  | .awaitingResponse => True
  | .returned mtuSize (.ok m) => mtuSize = some m ∧ 6 ≤ m ∧ m ≤ 255
  | .returned mtuSize (.error _) => mtuSize = none
  | .panicked => False

theorem sound_store {m : Nat} (h : 6 ≤ m) (h' : m ≤ 255) : Sound (store m : InferState C) :=
  ⟨rfl, h, h'⟩

theorem sound_onResponse (raw : Bytes) : Sound (onResponse raw : InferState C) := by
  rw [onResponse]
  by_cases hlt : raw.length < 6
  · rw [if_pos hlt]
    exact sound_store (by decide) (by decide)
  · rw [if_neg hlt, List.getElem?_eq_getElem (show 5 < raw.length by omega)]
    have hb := raw[5].toNat_lt
    dsimp only
    -- a byte is at most 255, so only the lower bound needs the fallback
    by_cases hgt : raw[5].toNat > 5
    · rw [if_pos hgt]
      exact sound_store (by omega) (by omega)
    · rw [if_neg hgt]
      exact sound_store (by decide) (by decide)

theorem sound_onWrite (write : Except C.BtleError Unit) : Sound (onWrite start write) := by
  cases write with
  | ok _ => trivial
  | error err => rfl

theorem sound_onNotification {s : InferState C} (h : Sound s) (read : Except (BleError C) Bytes) :
    Sound (onNotification s read) := by
  cases s with
  | awaitingResponse =>
      cases read with
      | ok data =>
          rw [onNotification]
          split
          · exact sound_onResponse data
          · trivial
      | error err => rfl
  | writingCommand packet => exact h
  | returned mtuSize r => exact h
  | panicked => exact h

end InferMtu

/-- Every run of `infer_mtu` is sound. -/
theorem inferMtu_sound (write : Except C.BtleError Unit)
    (reads : List (Except (BleError C) Bytes)) : InferMtu.Sound (inferMtu write reads) := by
  rw [inferMtu]
  generalize hs : InferMtu.onWrite InferMtu.start write = s
  have h : InferMtu.Sound s := hs ▸ InferMtu.sound_onWrite write
  clear hs
  induction reads generalizing s with
  | nil => exact h
  | cons read reads ih => exact ih _ (InferMtu.sound_onNotification h read)

theorem StorableMtu.bounds {mtuSize : Nat} (h : StorableMtu C mtuSize) :
    6 ≤ mtuSize ∧ mtuSize ≤ 255 := by
  obtain ⟨write, reads, hrun⟩ := h
  have hsound := inferMtu_sound write reads
  rw [hrun] at hsound
  exact hsound.2

/-- Every value in the range can be stored. -/
theorem storableMtu_of_bounds {mtuSize : Nat} (h : 6 ≤ mtuSize) (h' : mtuSize ≤ 255) :
    StorableMtu C mtuSize := by
  -- a response with that value in byte 5
  refine ⟨.ok (), [.ok [mtuCommandTag, 0, 0, 0, 1, UInt8.ofNat mtuSize]], ?_⟩
  have hbyte : (UInt8.ofNat mtuSize).toNat = mtuSize := by
    rw [UInt8.toNat_ofNat']
    omega
  rw [inferMtu, List.foldl_cons, List.foldl_nil, InferMtu.start, InferMtu.onWrite,
    InferMtu.onNotification, List.head?_cons, if_pos rfl, InferMtu.onResponse, if_neg (by simp)]
  have hgt : mtuSize > 5 := by omega
  simp only [List.getElem?_cons_succ, List.getElem?_cons_zero, hbyte, if_pos hgt]
  rfl

/-! ## Sending with a negotiated MTU -/

theorem length_le_of_mem_framePackets {commandTag : UInt8} {payload : Bytes} {mtuSize : Nat}
    (hmtu : 6 ≤ mtuSize) {packet : Bytes} (h : packet ∈ framePackets commandTag payload mtuSize) :
    packet.length ≤ mtuSize := by
  rcases List.mem_cons.mp h with rfl | h
  · rw [InitialPacket.length_serialize, initialPacketOf, List.length_take]
    omega
  · obtain ⟨p, hp, rfl⟩ := List.mem_map.mp h
    have hle := (length_of_mem_chunks (by omega) (payload_mem_chunks hp)).2
    rw [SubsequentPacket.length_serialize]
    omega

theorem length_pos_of_mem_subsequentPacketsOf {commandTag : UInt8} {payload : Bytes} {mtuSize : Nat}
    (hmtu : 6 ≤ mtuSize) {p : SubsequentPacket}
    (hp : p ∈ subsequentPacketsOf commandTag payload mtuSize) : 1 ≤ p.payload.length :=
  (length_of_mem_chunks (by omega) (payload_mem_chunks hp)).1

theorem index_subsequentPacketsOf {commandTag : UInt8} {payload : Bytes} {mtuSize : Nat}
    (hmtu : 6 ≤ mtuSize) (hlen : payload.length ≤ 65535) :
    (subsequentPacketsOf commandTag payload mtuSize).map (fun p => p.packetSequenceIndex.toNat) =
      List.range' 1 (subsequentPacketsOf commandTag payload mtuSize).length := by
  have hcount := length_chunks_frame hmtu hlen
  rw [subsequentPacketsOf, map_index_subsequentPacketsFrom commandTag (by omega),
    length_subsequentPacketsFrom]

/-- The MTU that a completed `infer_mtu` leaves is safe for good: it is in range now, it is what
    every later state of the transport has, and with it `send_framed` ends, stays inside its
    payload and numbers its packets 1, 2, ..., n. -/
theorem negotiated_mtu_safe (dev : FrameDevice) {ι α : Type} [DecidableEq ι] :
    (∀ (write : Except C.BtleError Unit) (reads : List (Except (BleError C) Bytes)),
      inferMtu write reads ≠ .panicked ∧
      ∀ (stored : Option Nat) (m : Nat), inferMtu write reads = .returned stored (.ok m) →
        stored = some m ∧ 6 ≤ m ∧ m ≤ 255 ∧
        ∀ (s s' : System C ι α) (as : List (ι × Act C α)), s.link.mtuSize = stored →
          Transition.Run (Transition.ofFn (System.step dev)) s as s' → 6 ≤ s'.link.getMtuSize) ∧
    (∀ (mtuSize : Nat) (commandTag : UInt8) (payload : Bytes),
      6 ≤ mtuSize → mtuSize ≤ 255 → payload.length ≤ 65535 →
      ∃ (initial : InitialPacket) (subsequent : List SubsequentPacket),
        SendFramed.Writes commandTag payload mtuSize
          (SendFramed.start commandTag payload mtuSize : SendState C)
          (initial.serialize :: subsequent.map SubsequentPacket.serialize) (.ok ()) ∧
        (∀ results : List (Except C.BtleError Unit),
          results.foldl (SendFramed.onWrite commandTag payload mtuSize)
            (SendFramed.start commandTag payload mtuSize) ≠ .panicked) ∧
        (∀ packet ∈ initial.serialize :: subsequent.map SubsequentPacket.serialize,
          packet.length ≤ mtuSize) ∧
        (∀ p ∈ subsequent, 1 ≤ p.payload.length) ∧
        subsequent.map (fun p => p.packetSequenceIndex.toNat) =
          List.range' 1 subsequent.length) := by
  refine ⟨fun write reads => ?_, fun mtuSize commandTag payload hmtu _ hlen => ?_⟩
  · have hsound := inferMtu_sound write reads
    refine ⟨fun h => by rw [h] at hsound; exact hsound, fun stored m h => ?_⟩
    rw [h] at hsound
    obtain ⟨rfl, hge, hle⟩ := hsound
    refine ⟨rfl, hge, hle, fun s s' as hs hrun => ?_⟩
    rw [Link.getMtuSize, System.mtuSize_run hrun, hs]
    exact hge
  · have hwrites : SendFramed.Writes commandTag payload mtuSize
        (SendFramed.start commandTag payload mtuSize : SendState C) _ (.ok ()) :=
      SendFramed.writes_start hmtu hlen
    exact ⟨initialPacketOf commandTag payload mtuSize, subsequentPacketsOf commandTag payload mtuSize,
      hwrites, hwrites.foldl_ne_panicked, fun packet => length_le_of_mem_framePackets hmtu,
      fun p => length_pos_of_mem_subsequentPacketsOf hmtu, index_subsequentPacketsOf hmtu hlen⟩

end NearLedger
