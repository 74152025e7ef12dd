/-
  NearLedger.Ble.Fragmentation

  An answer cut into packets by the device.  However it is cut, `recv_framed`
  returns the first bytes of the concatenated payloads, as many as the initial
  packet declares, and stops right behind the first packet with which there are
  enough of them (`recvFramed_fragmentation`); with too few it waits for more.
-/

import NearLedger.Ble.RecvFramed

namespace NearLedger

open Fragments

variable {C : Crates} {commandTag : UInt8}

/-- Well-formed notifications with one tag: an initial packet of at least five bytes and subsequent
    packets of at least three.  Their sequence indices are arbitrary. -/
structure TaggedStream (commandTag : UInt8) where
  initial : Bytes
  subsequent : List Bytes
  initial_tag : initial.head? = some commandTag
  initial_length : 5 ≤ initial.length
  subsequent_ofTag : ∀ n ∈ subsequent, RecvFramed.OfTag commandTag n

namespace TaggedStream

def notifications (s : TaggedStream commandTag) : List Bytes := s.initial :: s.subsequent

/-- The length the initial packet declares, in its bytes 3 and 4. -/
def declaredLength (s : TaggedStream commandTag) : Nat :=
  match s.initial with
  | _ :: _ :: _ :: hi :: lo :: _ => 256 * hi.toNat + lo.toNat
  | _ => 0

/-- The payloads of the initial packet and of the first `k` subsequent ones. -/
def accumulated (s : TaggedStream commandTag) (k : Nat) : Bytes :=
  s.initial.drop 5 ++ (s.subsequent.take k).flatMap (List.drop 3)

/-- All payloads. -/
def payload (s : TaggedStream commandTag) : Bytes :=
  s.initial.drop 5 ++ s.subsequent.flatMap (List.drop 3)

/-- The accumulated payload reaches the declared length at the `k`-th subsequent packet, or at the
    initial one when `k` is 0, and not before. -/
def CompleteAt (s : TaggedStream commandTag) (k : Nat) : Prop :=
  s.declaredLength ≤ (s.accumulated k).length ∧
    ∀ j, j < k → (s.accumulated j).length < s.declaredLength

end TaggedStream

/-- The initial packet leads to the second loop with its payload. -/
theorem onNotification_tagged (s : TaggedStream commandTag) :
    RecvFramed.onNotification commandTag (.awaitingInitial : RecvState C) (.ok s.initial) =
      RecvFramed.loop s.declaredLength (s.initial.drop 5) := by
  obtain ⟨initial, subsequent, htag, hlen, -⟩ := s
  rcases initial with _ | ⟨a, _ | ⟨b, _ | ⟨c, _ | ⟨hi, _ | ⟨lo, initial⟩⟩⟩⟩⟩
  · simp at hlen
  · simp at hlen
  · simp at hlen
  · simp at hlen
  · simp at hlen
  · obtain rfl : a = commandTag := by simpa using htag
    have hlength : (Bytes.u16FromBeBytes hi lo).toNat = 256 * hi.toNat + lo.toNat := by
      have := hi.toNat_lt
      have := lo.toNat_lt
      exact Bytes.toNat_u16_ofNat (by omega)
    rw [RecvFramed.onNotification, if_pos rfl, InitialPacket.tryFrom]
    simp only [hlength]
    rfl

/-- The receiver on a well-formed stream is the second loop on the subsequent packets. -/
theorem recvFramed_tagged (s : TaggedStream commandTag) :
    recvFramed C commandTag s.notifications =
      RecvFramed.run commandTag s.subsequent
        (RecvFramed.loop s.declaredLength (s.initial.drop 5)) := by
  rw [recvFramed, TaggedStream.notifications, RecvFramed.run_cons (by simp), onNotification_tagged]

/-- With enough payload the receiver returns the declared number of bytes, and what follows the
    packet that completes them is unread. -/
theorem recvFramed_of_completeAt (s : TaggedStream commandTag) {k : Nat} (h : s.CompleteAt k) :
    recvFramed C commandTag s.notifications =
      (.returned (.ok (s.payload.take s.declaredLength)), s.subsequent.drop k) := by
  rw [recvFramed_tagged, RecvFramed.run_loop s.subsequent_ofTag, collect_of_reachesAt h,
    TaggedStream.payload]

/-- With too little payload it has read everything and waits. -/
theorem recvFramed_of_short (s : TaggedStream commandTag)
    (h : s.payload.length < s.declaredLength) :
    recvFramed C commandTag s.notifications =
      (.awaitingSubsequent s.declaredLength s.payload, []) := by
  rw [recvFramed_tagged, RecvFramed.run_loop s.subsequent_ofTag, collect_of_short h,
    TaggedStream.payload]

/-- Two well-formed streams that declare the same length and whose payloads agree up to it give the
    same message, each stopping at the first packet that completes it.  A stream that ends before
    gives none: the receiver waits, and whatever error ends the wait is what it returns. -/
theorem recvFramed_fragmentation (C : Crates) (commandTag : UInt8) :
    (∀ (s t : TaggedStream commandTag) (len : Nat), s.declaredLength = len → t.declaredLength = len →
      len ≤ s.payload.length → len ≤ t.payload.length → s.payload.take len = t.payload.take len →
      ∃ b, b.length = len ∧ b = s.payload.take len ∧
        (∃ k, s.CompleteAt k ∧
          recvFramed C commandTag s.notifications = (.returned (.ok b), s.subsequent.drop k)) ∧
        (∃ k, t.CompleteAt k ∧
          recvFramed C commandTag t.notifications = (.returned (.ok b), t.subsequent.drop k))) ∧
    (∀ s : TaggedStream commandTag, s.payload.length < s.declaredLength →
      ∃ state, recvFramed C commandTag s.notifications = (state, []) ∧
        (∀ r, state ≠ .returned r) ∧
        ∀ err, RecvFramed.onNotification commandTag state (.error err) = .returned (.error err)) := by
  refine ⟨fun s t len hs ht hslen htlen hagree => ?_, fun s hshort => ?_⟩
  · subst hs
    obtain ⟨k, hk⟩ := exists_reachesAt hslen
    obtain ⟨l, hl⟩ := exists_reachesAt htlen
    rw [← ht] at hl
    refine ⟨_, ?_, rfl, ⟨k, hk, recvFramed_of_completeAt s hk⟩, l, hl, ?_⟩
    · rw [List.length_take]
      omega
    · rw [hagree, ← ht]
      exact recvFramed_of_completeAt t hl
  · exact ⟨_, recvFramed_of_short s hshort, by simp, fun _ => rfl⟩

/-- Two bytes and one too many, in an initial packet without payload and two subsequent ones. -/
def cutStream : TaggedStream apduCommandTag where
  initial := [5, 0, 0, 0, 2]
  subsequent := [[5, 0, 1, 7], [5, 0, 2, 8, 9]]
  initial_tag := rfl
  initial_length := by decide
  subsequent_ofTag := by simp [RecvFramed.OfTag, apduCommandTag]

/-- The same two bytes in the initial packet, and a packet of the next answer. -/
def wholeStream : TaggedStream apduCommandTag where
  initial := [5, 0, 0, 0, 2, 7, 8]
  subsequent := [[5, 0, 0, 0, 0]]
  initial_tag := rfl
  initial_length := by decide
  subsequent_ofTag := by simp [RecvFramed.OfTag, apduCommandTag]

theorem recvFramed_fragmentation_cut :
    (recvFramed Crates.reference apduCommandTag cutStream.notifications).1 =
        (recvFramed Crates.reference apduCommandTag wholeStream.notifications).1 ∧
      ∃ k, wholeStream.CompleteAt k ∧ recvFramed Crates.reference apduCommandTag
        wholeStream.notifications = (.returned (.ok [7, 8]), wholeStream.subsequent.drop k) := by
  obtain ⟨b, -, rfl, ⟨k, -, hcut⟩, l, hl, hwhole⟩ :=
    (recvFramed_fragmentation Crates.reference apduCommandTag).1 cutStream wholeStream 2 rfl rfl
      (by decide) (by decide) rfl
  exact ⟨by rw [hcut, hwhole], l, hl, hwhole⟩

end NearLedger
