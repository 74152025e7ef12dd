/-
  NearLedger.Ble.Reassembly

  The receiver against the sender.  A sequence of messages, sent back to back,
  is received message by message with nothing left over
  (`recvSuccessive_of_sent`).  Packets that are lost, repeated or reordered are
  not detected: the receiver never looks at the sequence index.  What holds is
  `recvFramed_of_sublist`: reading packets of the message in the order they were
  sent, the initial one first and none twice, it returns the message or waits.
-/

import Mathlib.Data.List.Forall2
import NearLedger.Ble.RecvFramed

namespace NearLedger

open Slices Fragments

variable {C : Crates}

/-! ## Messages one after another -/

/-- `k` successive calls of `recv_framed` that all return a message; the messages and what is left
    unread. -/
def recvSuccessive (C : Crates) (commandTag : UInt8) :
    Nat → List Bytes → Option (List Bytes × List Bytes)
  | 0, ns => some ([], ns)
  | k + 1, ns =>
      match recvFramed C commandTag ns with
      | (.returned (.ok message), unread) =>
          (recvSuccessive C commandTag k unread).map fun r => (message :: r.1, r.2)
      | _ => none

/-- `send_framed` for one message with its MTU writes these packets and returns `Ok`. -/
def Sent (C : Crates) (commandTag : UInt8) (m : Bytes × Nat) (packets : List Bytes) : Prop :=
  SendFramed.Writes commandTag m.1 m.2 (SendFramed.start commandTag m.1 m.2 : SendState C) packets
    (.ok ())

theorem sent_iff {commandTag : UInt8} {m : Bytes × Nat} (hlen : m.1.length ≤ 65535) (hmtu : 6 ≤ m.2)
    {packets : List Bytes} :
    Sent C commandTag m packets ↔ packets = framePackets commandTag m.1 m.2 := by
  constructor
  · intro h
    exact (h.deterministic (SendFramed.writes_start hmtu hlen)).1
  · rintro rfl
    exact SendFramed.writes_start hmtu hlen

/-- Messages sent one after another are received one after another. -/
theorem recvSuccessive_of_sent (commandTag : UInt8) {ms : List (Bytes × Nat)}
    (hms : ∀ m ∈ ms, m.1.length ≤ 65535 ∧ 6 ≤ m.2) :
    (∃ pss, List.Forall₂ (Sent C commandTag) ms pss) ∧
      ∀ pss, List.Forall₂ (Sent C commandTag) ms pss →
        recvSuccessive C commandTag ms.length pss.flatten = some (ms.map Prod.fst, []) := by
  induction ms with
  | nil =>
      refine ⟨⟨[], .nil⟩, fun pss h => ?_⟩
      cases h
      rfl
  | cons m ms ih =>
      obtain ⟨hlen, hmtu⟩ := hms m List.mem_cons_self
      obtain ⟨⟨pss, hpss⟩, hrecv⟩ := ih fun m' hm' => hms m' (List.mem_cons_of_mem _ hm')
      refine ⟨⟨_, .cons ((sent_iff hlen hmtu).mpr rfl) hpss⟩, fun qss h => ?_⟩
      cases h with
      | @cons _ packets _ pss' hsent hrest =>
          -- the first message is received by itself, and the other packets are left to the other calls
          rw [sent_iff hlen hmtu] at hsent
          subst hsent
          rw [List.length_cons, List.flatten_cons, recvSuccessive,
            recvFramed_framePackets commandTag hmtu hlen]
          simp only [hrecv pss' hrest, Option.map_some, List.map_cons]

theorem recvSuccessive_of_sent_pair :
    recvSuccessive Crates.reference apduCommandTag 2
        (framePackets apduCommandTag [1, 2, 3, 4, 5, 6, 7] 6 ++ framePackets apduCommandTag [] 20) =
      some ([[1, 2, 3, 4, 5, 6, 7], []], []) :=
  (@recvSuccessive_of_sent Crates.reference apduCommandTag [([1, 2, 3, 4, 5, 6, 7], 6), ([], 20)]
    (by decide)).2 [_, _]
    (.cons (SendFramed.writes_start (by decide) (by decide))
      (.cons (SendFramed.writes_start (by decide) (by decide)) .nil))

/-! ## Lost, repeated and reordered packets -/

/-- Read in the wrong order, the two subsequent packets make a wrong message of the right length. -/
theorem recvFramed_reordered :
    ∃ (message b : Bytes) (mtuSize : Nat) (ns : List Bytes),
      message.length ≤ 65535 ∧ 6 ≤ mtuSize ∧
      Sent Crates.reference apduCommandTag (message, mtuSize)
        (framePackets apduCommandTag message mtuSize) ∧
      ns.Perm (framePackets apduCommandTag message mtuSize) ∧
      recvFramed Crates.reference apduCommandTag ns = (.returned (.ok b), []) ∧ b ≠ message := by
  refine ⟨[1, 2, 3, 4, 5, 6, 7], [1, 5, 6, 7, 2, 3, 4], 6,
    [[5, 0, 0, 0, 7, 1], [5, 0, 2, 5, 6, 7], [5, 0, 1, 2, 3, 4]], by decide, by decide,
    SendFramed.writes_start (by decide) (by decide), by decide, rfl, by decide⟩

/-- The same notification up to the two bytes of the sequence index. -/
def SameButIndex (n n' : Bytes) : Prop :=
  ∃ tag hi lo hi' lo' payload, n = tag :: hi :: lo :: payload ∧ n' = tag :: hi' :: lo' :: payload

theorem onNotification_sameButIndex {commandTag : UInt8} {n n' : Bytes} (h : SameButIndex n n')
    (s : RecvState C) :
    RecvFramed.onNotification commandTag s (.ok n) =
      RecvFramed.onNotification commandTag s (.ok n') := by
  obtain ⟨tag, hi, lo, hi', lo', payload, rfl, rfl⟩ := h
  cases s with
  | awaitingInitial =>
      rw [RecvFramed.onNotification, RecvFramed.onNotification]
      rcases payload with _ | ⟨a, _ | ⟨b, payload⟩⟩ <;> rfl
  | awaitingSubsequent total buffer => rfl
  | returned r => rfl

/-- The receiver does not look at the sequence indices. -/
theorem run_sameButIndex {commandTag : UInt8} {ns ns' : List Bytes}
    (h : List.Forall₂ SameButIndex ns ns') (s : RecvState C) :
    (RecvFramed.run commandTag ns s).1 = (RecvFramed.run commandTag ns' s).1 := by
  induction h generalizing s with
  | nil => rfl
  | cons hn _ ih =>
      cases s with
      | returned r => rw [RecvFramed.run_returned, RecvFramed.run_returned]
      | awaitingInitial =>
          rw [RecvFramed.run_cons (by simp), RecvFramed.run_cons (by simp),
            onNotification_sameButIndex hn, ih]
      | awaitingSubsequent total buffer =>
          rw [RecvFramed.run_cons (by simp), RecvFramed.run_cons (by simp),
            onNotification_sameButIndex hn, ih]

/-- The subsequent packets on the wire carry the tag and at least one byte. -/
theorem subsequent_serialized {commandTag : UInt8} {payload : Bytes} {mtuSize : Nat}
    (hmtu : 6 ≤ mtuSize) {n : Bytes}
    (hn : n ∈ (subsequentPacketsOf commandTag payload mtuSize).map SubsequentPacket.serialize) :
    RecvFramed.OfTag commandTag n ∧ n.drop 3 ≠ [] := by
  obtain ⟨p, hp, rfl⟩ := List.mem_map.mp hn
  have htag := commandTag_of_mem_subsequentPacketsFrom hp
  refine ⟨htag ▸ RecvFramed.ofTag_serialize p, ?_⟩
  rw [SubsequentPacket.drop_serialize]
  exact ne_nil_of_mem_chunks (by omega) (payload_mem_chunks hp)

/-- The bytes behind the headers of the subsequent packets are the rest of the payload. -/
theorem subsequent_payloads {commandTag : UInt8} {payload : Bytes} {mtuSize : Nat}
    (hmtu : 6 ≤ mtuSize) :
    payload.take (mtuSize - 5) ++ ((subsequentPacketsOf commandTag payload mtuSize).map
      SubsequentPacket.serialize).flatMap (List.drop 3) = payload := by
  rw [List.flatMap_def, List.map_map, show List.drop 3 ∘ SubsequentPacket.serialize =
    SubsequentPacket.payload from rfl, subsequentPacketsOf, map_payload_subsequentPacketsFrom,
    flatten_chunks (by omega), List.take_append_drop]

/-- If the packets read belong to one message, are in the order they were sent, begin with the
    initial packet and none of them is read twice, then the receiver returns the message, having
    read all of its packets, or it waits for more; it never returns an error. -/
theorem recvFramed_of_sublist (commandTag : UInt8) {payload : Bytes} {mtuSize : Nat}
    (hmtu : 6 ≤ mtuSize) (hlen : payload.length ≤ 65535) {read unread : List Bytes} {s : RecvState C}
    (h : recvFramed C commandTag (read ++ unread) = (s, unread))
    (hsub : read.Sublist (framePackets commandTag payload mtuSize))
    (hhead : read.head? = (framePackets commandTag payload mtuSize).head?) :
    (s = .returned (.ok payload) ∧ read = framePackets commandTag payload mtuSize) ∨
      (unread = [] ∧ ∃ total buffer, s = .awaitingSubsequent total buffer) := by
  rw [framePackets, List.head?_cons] at hhead
  obtain ⟨qs, rfl⟩ := List.head?_eq_some_iff.mp hhead
  rw [framePackets, List.cons_sublist_cons] at hsub
  generalize hps : (subsequentPacketsOf commandTag payload mtuSize).map SubsequentPacket.serialize =
    ps at hsub
  have hofTag : ∀ q ∈ qs, RecvFramed.OfTag commandTag q := fun q hq =>
    (subsequent_serialized hmtu (hps ▸ hsub.subset hq)).1
  have hinit := RecvFramed.onNotification_initial (C := C)
    (initialPacketOf commandTag payload mtuSize)
  rw [show (initialPacketOf commandTag payload mtuSize).commandTag = commandTag from rfl,
    show (initialPacketOf commandTag payload mtuSize).dataLength.toNat = payload.length from
      Bytes.toNat_u16_ofNat hlen] at hinit
  rw [recvFramed, List.cons_append, RecvFramed.run_cons (by simp), hinit] at h
  have hrun := @RecvFramed.run_loop C commandTag payload.length qs hofTag
    (payload.take (mtuSize - 5))
  cases hcollect : collect (List.drop 3) payload.length (payload.take (mtuSize - 5)) qs with
  | none =>
      -- packets are missing: everything is read and more is awaited
      rw [hcollect] at hrun
      have hrest := RecvFramed.run_append_of_awaiting hrun (by simp) unread
      rw [show (initialPacketOf commandTag payload mtuSize).payload = payload.take (mtuSize - 5) from
        rfl, hrest] at h
      right
      cases unread with
      | nil =>
          rw [RecvFramed.run_nil] at h
          cases h
          exact ⟨rfl, _, _, rfl⟩
      | cons n ns =>
          rw [RecvFramed.run_cons (by simp)] at h
          have hsuffix := @RecvFramed.run_unread_suffix C commandTag ns
            (RecvFramed.onNotification commandTag (.awaitingSubsequent payload.length
              (payload.take (mtuSize - 5) ++ qs.flatMap (List.drop 3))) (.ok n))
          rw [h] at hsuffix
          have hlength := hsuffix.length_le
          simp only [List.length_cons] at hlength
          omega
  -- enough bytes: a subsequence of the packets with as many bytes is all of them
  | some r =>
      obtain ⟨m, rest⟩ := r
      rw [hcollect] at hrun
      have hret := RecvFramed.run_append hrun unread
      rw [show (initialPacketOf commandTag payload mtuSize).payload = payload.take (mtuSize - 5) from
        rfl, hret] at h
      obtain ⟨rfl, hunread⟩ := Prod.mk.inj h
      obtain rfl : rest = [] := List.append_left_eq_self.mp hunread
      obtain ⟨used, hused, rfl, hle⟩ := collect_eq_some hcollect
      rw [List.append_nil] at hused
      subst hused
      have hbytes := @subsequent_payloads commandTag payload mtuSize hmtu
      rw [hps] at hbytes
      have hlength := congrArg List.length hbytes
      rw [List.length_append] at hle hlength
      have hall : qs = ps := @eq_of_sublist_of_length _ _ (List.drop 3) ps qs hsub
        (fun p hp => (subsequent_serialized hmtu (hps ▸ hp)).2) (by omega)
      subst hall
      left
      rw [hbytes, List.take_length, framePackets, hps]
      exact ⟨rfl, rfl⟩

/-- What holds of the packets of one message, however the stream treats them: read in order from
    the initial one on, none twice, they give the message or leave the receiver waiting, and their
    sequence indices decide nothing. -/
theorem recvFramed_integrity (commandTag : UInt8) {payload : Bytes} {mtuSize : Nat}
    (hmtu : 6 ≤ mtuSize) (hlen : payload.length ≤ 65535) :
    (∀ (read unread : List Bytes) (s : RecvState C),
      recvFramed C commandTag (read ++ unread) = (s, unread) →
      read.Sublist (framePackets commandTag payload mtuSize) →
      read.head? = (framePackets commandTag payload mtuSize).head? →
      (s = .returned (.ok payload) ∧ read = framePackets commandTag payload mtuSize) ∨
        (unread = [] ∧ ∃ total buffer, s = .awaitingSubsequent total buffer)) ∧
    (∀ ns ns' : List Bytes, List.Forall₂ SameButIndex ns ns' →
      (recvFramed C commandTag ns).1 = (recvFramed C commandTag ns').1) :=
  ⟨fun _ _ _ h hsub hhead => recvFramed_of_sublist commandTag hmtu hlen h hsub hhead,
    fun _ _ h => run_sameButIndex h _⟩

theorem recvFramed_integrity_lost :
    ∃ total buffer, (recvFramed Crates.reference apduCommandTag
      [[5, 0, 0, 0, 7, 1], [5, 0, 2, 5, 6, 7]]).1 = .awaitingSubsequent total buffer := by
  have h := (@recvFramed_integrity Crates.reference apduCommandTag [1, 2, 3, 4, 5, 6, 7] 6
    (by decide) (by decide)).1 [[5, 0, 0, 0, 7, 1], [5, 0, 2, 5, 6, 7]] [] _ rfl (by decide) rfl
  rcases h with ⟨-, hread⟩ | ⟨-, h⟩
  · exact absurd hread (by decide)
  · exact h

end NearLedger
