/-
  NearLedger.Ble.RecvFramed

  `TransportBle::recv_framed` as a state machine that stops at each notification
  read, and its run over a stream of notifications.

  Behind the initial packet it collects fragments (`run_loop`), so it returns
  any message cut into an initial packet and subsequent packets the last of
  which carries something (`FramedMessage`), and leaves what follows unread
  (`recvFramed_packets`).  What `send_framed` writes is cut that way.
-/

import NearLedger.Ble.SendFramed
import NearLedger.Lib.Fragments

namespace NearLedger

open Slices Fragments

variable {C : Crates}

/-- `recv_framed` at a read, in its first or in its second loop, or at its end. -/
inductive RecvState (C : Crates) where
  | awaitingInitial
  | awaitingSubsequent (totalLength : Nat) (buffer : Bytes)
  | returned (r : Except (BleError C) Bytes)

/-- At a read; in the second loop its condition holds. -/
def RecvState.Awaiting : RecvState C → Prop
  | .awaitingInitial => True
  | .awaitingSubsequent totalLength buffer => buffer.length < totalLength
  | .returned _ => False

namespace RecvFramed

/-- The `while` loop, from its condition to the next read or to the end. -/
def loop (totalLength : Nat) (buffer : Bytes) : RecvState C :=
  if buffer.length < totalLength then .awaitingSubsequent totalLength buffer
  else .returned (.ok (buffer.take totalLength))

/-- From the result of a read to the next one. -/
def onNotification (commandTag : UInt8) : RecvState C → Except (BleError C) Bytes → RecvState C
  | .awaitingInitial, .ok [] => .returned (.error .invalidPacket)
  | .awaitingInitial, .ok (b :: bs) =>
      if b = commandTag then
        match InitialPacket.tryFrom C (b :: bs) with
        | .ok packet => loop packet.dataLength.toNat packet.payload
        | .error err => .returned (.error err)
      else .awaitingInitial
  | .awaitingSubsequent totalLength buffer, .ok raw =>
      match SubsequentPacket.tryFrom C raw with
      | .ok packet =>
          -- a packet with another tag is skipped, after it has been parsed
          if packet.commandTag ≠ commandTag then loop totalLength buffer
          else loop totalLength (buffer ++ packet.payload)
      | .error err => .returned (.error err)
  | .awaitingInitial, .error err => .returned (.error err)
  | .awaitingSubsequent _ _, .error err => .returned (.error err)
  | .returned r, _ => .returned r

/-- Read from the stream until the function returns; the state reached and what is left unread. -/
def run (commandTag : UInt8) : List Bytes → RecvState C → RecvState C × List Bytes
  | ns, .returned r => (.returned r, ns)
  | [], s => (s, [])
  | n :: ns, s => run commandTag ns (onNotification commandTag s (.ok n))

end RecvFramed

/-- `recv_framed` on a stream of notifications. -/
def recvFramed (C : Crates) (commandTag : UInt8) (notifications : List Bytes) :
    RecvState C × List Bytes :=
  RecvFramed.run commandTag notifications .awaitingInitial

namespace RecvFramed

variable {commandTag : UInt8}

@[simp] theorem run_returned (ns : List Bytes) (r : Except (BleError C) Bytes) :
    run commandTag ns (.returned r) = (.returned r, ns) := by
  cases ns <;> rfl

theorem run_nil (s : RecvState C) : run commandTag [] s = (s, []) := by
  cases s <;> rfl

theorem run_cons {s : RecvState C} (h : ∀ r, s ≠ .returned r) (n : Bytes) (ns : List Bytes) :
    run commandTag (n :: ns) s = run commandTag ns (onNotification commandTag s (.ok n)) := by
  cases s with
  | awaitingInitial => rfl
  | awaitingSubsequent => rfl
  | returned r => exact absurd rfl (h r)

/-- Once it has returned, more notifications only stay unread. -/
theorem run_append {ns rest : List Bytes} {s : RecvState C} {r : Except (BleError C) Bytes}
    (h : run commandTag ns s = (.returned r, rest)) (more : List Bytes) :
    run commandTag (ns ++ more) s = (.returned r, rest ++ more) := by
  induction ns generalizing s with
  | nil =>
      rw [run_nil] at h
      cases h
      simp
  | cons n ns ih =>
      cases s with
      | returned r' =>
          rw [run_returned] at h
          cases h
          simp
      | awaitingInitial => exact ih h
      | awaitingSubsequent total buffer => exact ih h

/-- As long as it has not returned, it goes on with what comes next. -/
theorem run_append_of_awaiting {ns : List Bytes} {s s' : RecvState C}
    (h : run commandTag ns s = (s', [])) (hs' : ∀ r, s' ≠ .returned r) (more : List Bytes) :
    run commandTag (ns ++ more) s = run commandTag more s' := by
  induction ns generalizing s with
  | nil =>
      rw [run_nil] at h
      cases h
      rfl
  | cons n ns ih =>
      cases s with
      | returned r =>
          rw [run_returned] at h
          cases h
      | awaitingInitial => exact ih h
      | awaitingSubsequent total buffer => exact ih h

/-- What is left unread is the end of the stream. -/
theorem run_unread_suffix (ns : List Bytes) (s : RecvState C) :
    (run commandTag ns s).2 <:+ ns := by
  induction ns generalizing s with
  | nil => simp [run_nil]
  | cons n ns ih =>
      cases s with
      | returned r => simp [run_returned]
      | awaitingInitial => exact (ih _).trans (List.suffix_cons n ns)
      | awaitingSubsequent total buffer => exact (ih _).trans (List.suffix_cons n ns)

/-! ## The second loop collects fragments -/

/-- A notification with the tag, long enough for a subsequent packet. -/
def OfTag (commandTag : UInt8) (n : Bytes) : Prop :=
  n.head? = some commandTag ∧ 3 ≤ n.length

theorem onNotification_ofTag {n : Bytes} (h : OfTag commandTag n) (total : Nat) (buffer : Bytes) :
    onNotification commandTag (.awaitingSubsequent total buffer : RecvState C) (.ok n) =
      loop total (buffer ++ n.drop 3) := by
  obtain ⟨hhead, hlen⟩ := h
  rcases n with _ | ⟨a, _ | ⟨b, _ | ⟨c, n⟩⟩⟩
  · simp at hlen
  · simp at hlen
  · simp at hlen
  · obtain rfl : a = commandTag := by simpa using hhead
    simp [onNotification, SubsequentPacket.tryFrom]

theorem loop_of_lt {total : Nat} {buffer : Bytes} (h : buffer.length < total) :
    (loop total buffer : RecvState C) = .awaitingSubsequent total buffer := by
  rw [loop, if_pos h]

theorem loop_of_le {total : Nat} {buffer : Bytes} (h : total ≤ buffer.length) :
    (loop total buffer : RecvState C) = .returned (.ok (buffer.take total)) := by
  rw [loop, if_neg (by omega)]

/-- The second loop stops at a read or returns. -/
theorem loop_awaiting (total : Nat) (buffer : Bytes) :
    (loop total buffer : RecvState C).Awaiting ∨
      ∃ r, (loop total buffer : RecvState C) = .returned r := by
  by_cases hlt : buffer.length < total
  · rw [loop_of_lt hlt]
    exact .inl hlt
  · rw [loop_of_le (by omega)]
    exact .inr ⟨_, rfl⟩

/-- After a read `recv_framed` is at the next read or has returned. -/
theorem onNotification_awaiting (s : RecvState C) (read : Except (BleError C) Bytes)
    (hs : s.Awaiting) : (onNotification commandTag s read).Awaiting ∨
      ∃ r, onNotification commandTag s read = .returned r := by
  cases s with
  | returned r => exact absurd hs id
  | awaitingInitial =>
      rcases read with err | n
      · exact .inr ⟨_, rfl⟩
      · cases n with
        | nil => exact .inr ⟨_, rfl⟩
        | cons b bs =>
            rw [onNotification]
            by_cases hb : b = commandTag
            · rw [if_pos hb]
              cases InitialPacket.tryFrom C (b :: bs) with
              | ok packet => exact loop_awaiting _ _
              | error err => exact .inr ⟨_, rfl⟩
            · rw [if_neg hb]
              exact .inl trivial
  | awaitingSubsequent total buffer =>
      rcases read with err | n
      · exact .inr ⟨_, rfl⟩
      · rw [onNotification]
        cases SubsequentPacket.tryFrom C n with
        | ok packet =>
            dsimp only
            split
            · exact loop_awaiting _ _
            · exact loop_awaiting _ _
        | error err => exact .inr ⟨_, rfl⟩

/-- The first loop skips a notification that begins with another byte. -/
theorem onNotification_initial_foreign {n : Bytes} (hne : n ≠ []) (htag : n.head? ≠ some commandTag) :
    onNotification commandTag (.awaitingInitial : RecvState C) (.ok n) = .awaitingInitial := by
  cases n with
  | nil => exact absurd rfl hne
  | cons b bs =>
      have hb : b ≠ commandTag := by simpa using htag
      rw [onNotification, if_neg hb]

/-- The second loop skips such a notification when it can be parsed. -/
theorem onNotification_foreign {n : Bytes} (hlen : 3 ≤ n.length) (htag : n.head? ≠ some commandTag)
    {total : Nat} {buffer : Bytes} (hbuffer : buffer.length < total) :
    onNotification commandTag (.awaitingSubsequent total buffer : RecvState C) (.ok n) =
      .awaitingSubsequent total buffer := by
  rcases n with _ | ⟨a, _ | ⟨b, _ | ⟨c, n⟩⟩⟩
  · simp at hlen
  · simp at hlen
  · simp at hlen
  · have ha : a ≠ commandTag := by simpa using htag
    rw [onNotification, SubsequentPacket.tryFrom]
    simp only [ne_eq, ha, not_false_eq_true, if_true]
    exact loop_of_lt hbuffer

/-- A notification shorter than the header of a subsequent packet ends it, whatever its tag is. -/
theorem onNotification_short {n : Bytes} (hlen : n.length < 3) (total : Nat) (buffer : Bytes) :
    onNotification commandTag (.awaitingSubsequent total buffer : RecvState C) (.ok n) =
      .returned (.error .invalidPacket) := by
  rcases n with _ | ⟨a, _ | ⟨b, _ | ⟨c, n⟩⟩⟩
  · rfl
  · rfl
  · rfl
  · simp only [List.length_cons] at hlen
    omega

/-- Over packets of the tag the second loop is `Fragments.collect` on their payloads. -/
theorem run_loop {total : Nat} {ps : List Bytes} (hps : ∀ p ∈ ps, OfTag commandTag p) :
    ∀ buffer : Bytes, run commandTag ps (loop total buffer : RecvState C) =
      match collect (List.drop 3) total buffer ps with
      | some (m, rest) => (.returned (.ok m), rest)
      | none => (.awaitingSubsequent total (buffer ++ ps.flatMap (List.drop 3)), []) := by
  induction ps with
  | nil =>
      intro buffer
      by_cases hlt : buffer.length < total
      · rw [loop_of_lt hlt, run_nil, collect, if_pos hlt]
        simp
      · rw [loop_of_le (by omega), run_returned, collect, if_neg hlt]
  | cons p ps ih =>
      intro buffer
      have hp := hps p List.mem_cons_self
      by_cases hlt : buffer.length < total
      -- the condition holds: one more packet is read and its payload appended
      · rw [loop_of_lt hlt, run_cons (by simp), onNotification_ofTag hp, collect_of_lt _ hlt,
          ih fun q hq => hps q (List.mem_cons_of_mem _ hq)]
        simp
      · rw [loop_of_le (by omega), run_returned, collect_of_le _ (by omega)]

/-- A serialized initial packet starts the second loop. -/
theorem onNotification_initial (packet : InitialPacket) :
    onNotification packet.commandTag (.awaitingInitial : RecvState C) (.ok packet.serialize) =
      loop packet.dataLength.toNat packet.payload := by
  have htry := InitialPacket.tryFrom_serialize (C := C) packet
  rw [InitialPacket.serialize] at htry ⊢
  rw [onNotification, if_pos rfl, htry]

theorem ofTag_serialize (packet : SubsequentPacket) :
    OfTag packet.commandTag packet.serialize :=
  ⟨rfl, by rw [SubsequentPacket.length_serialize]; omega⟩

end RecvFramed

/-! ## Framed messages -/

/-- A message of at most 65535 bytes, cut for transport: what the initial packet carries, and the
    subsequent packets with their indices.  No packet follows the one that completes it. -/
structure FramedMessage where
  message : Bytes
  first : Bytes
  rest : List (UInt16 × Bytes)
  length_le : message.length ≤ 65535
  concat : first ++ (rest.map Prod.snd).flatten = message
  complete : LastNonempty (rest.map Prod.snd)

namespace FramedMessage

/-- The initial packet. -/
def initial (commandTag : UInt8) (f : FramedMessage) : InitialPacket :=
  { commandTag := commandTag, dataLength := UInt16.ofNat f.message.length, payload := f.first }

/-- The subsequent packets. -/
def subsequent (commandTag : UInt8) (f : FramedMessage) : List SubsequentPacket :=
  f.rest.map fun r =>
    { commandTag := commandTag, packetSequenceIndex := r.1, payload := r.2 }

/-- The packets on the wire. -/
def packets (commandTag : UInt8) (f : FramedMessage) : List Bytes :=
  (f.initial commandTag).serialize :: (f.subsequent commandTag).map SubsequentPacket.serialize

end FramedMessage

/-- The receiver returns a framed message and reads nothing beyond it. -/
theorem recvFramed_packets (commandTag : UInt8) (f : FramedMessage) (ns : List Bytes) :
    recvFramed C commandTag (f.packets commandTag ++ ns) = (.returned (.ok f.message), ns) := by
  -- behind the three header bytes of each packet are the pieces of the message
  have hpayloads : ((f.subsequent commandTag).map SubsequentPacket.serialize).map (List.drop 3) =
      f.rest.map Prod.snd := by
    rw [FramedMessage.subsequent, List.map_map, List.map_map]
    rfl
  have hflat : ((f.subsequent commandTag).map SubsequentPacket.serialize).flatMap (List.drop 3) =
      (f.rest.map Prod.snd).flatten := by
    rw [List.flatMap_def, hpayloads]
  have htag : ∀ p ∈ (f.subsequent commandTag).map SubsequentPacket.serialize,
      RecvFramed.OfTag commandTag p := by
    intro p hp
    rw [FramedMessage.subsequent, List.map_map] at hp
    obtain ⟨r, -, rfl⟩ := List.mem_map.mp hp
    exact RecvFramed.ofTag_serialize _
  have hcollect := @collect_of_lastNonempty _ _ (List.drop 3) []
    ((f.subsequent commandTag).map SubsequentPacket.serialize) f.first
    (by rw [hpayloads]; exact f.complete)
  rw [List.append_nil, hflat, f.concat] at hcollect
  have hrun := @RecvFramed.run_loop C commandTag f.message.length _ htag f.first
  rw [hcollect] at hrun
  rw [recvFramed, FramedMessage.packets, List.cons_append, RecvFramed.run_cons (by simp)]
  have hinit := RecvFramed.onNotification_initial (C := C) (f.initial commandTag)
  rw [show (f.initial commandTag).commandTag = commandTag from rfl] at hinit
  rw [hinit, show (f.initial commandTag).dataLength.toNat = f.message.length from
    Bytes.toNat_u16_ofNat f.length_le]
  exact RecvFramed.run_append hrun ns

/-! ## What `send_framed` writes is a framed message -/

/-- The packets of `send_framed` as a framed message. -/
def FramedMessage.sent (commandTag : UInt8) (payload : Bytes) {mtuSize : Nat} (hmtu : 6 ≤ mtuSize)
    (hlen : payload.length ≤ 65535) : FramedMessage where
  message := payload
  first := payload.take (mtuSize - 5)
  rest := (subsequentPacketsOf commandTag payload mtuSize).map fun p =>
    (p.packetSequenceIndex, p.payload)
  length_le := hlen
  concat := by
    rw [List.map_map, show Prod.snd ∘ (fun p : SubsequentPacket => (p.packetSequenceIndex, p.payload)) =
      SubsequentPacket.payload from rfl, subsequentPacketsOf, map_payload_subsequentPacketsFrom,
      flatten_chunks (by omega), List.take_append_drop]
  complete := by
    rw [List.map_map, show Prod.snd ∘ (fun p : SubsequentPacket => (p.packetSequenceIndex, p.payload)) =
      SubsequentPacket.payload from rfl, subsequentPacketsOf, map_payload_subsequentPacketsFrom]
    exact LastNonempty.of_forall fun c hc => ne_nil_of_mem_chunks (by omega) hc

theorem FramedMessage.packets_sent (commandTag : UInt8) {payload : Bytes} {mtuSize : Nat}
    (hmtu : 6 ≤ mtuSize) (hlen : payload.length ≤ 65535) :
    (FramedMessage.sent commandTag payload hmtu hlen).packets commandTag =
      framePackets commandTag payload mtuSize := by
  have hsub : (FramedMessage.sent commandTag payload hmtu hlen).subsequent commandTag =
      subsequentPacketsOf commandTag payload mtuSize := by
    rw [FramedMessage.subsequent, FramedMessage.sent, List.map_map]
    refine (List.map_congr_left fun p hp => ?_).trans (List.map_id _)
    rw [subsequentPacketsOf] at hp
    simp [← commandTag_of_mem_subsequentPacketsFrom hp]
  rw [FramedMessage.packets, hsub]
  rfl

/-- Receiving what was sent. -/
theorem recvFramed_framePackets (commandTag : UInt8) {payload : Bytes} {mtuSize : Nat}
    (hmtu : 6 ≤ mtuSize) (hlen : payload.length ≤ 65535) (ns : List Bytes) :
    recvFramed C commandTag (framePackets commandTag payload mtuSize ++ ns) =
      (.returned (.ok payload), ns) := by
  rw [← FramedMessage.packets_sent commandTag hmtu hlen, recvFramed_packets]
  rfl

end NearLedger
