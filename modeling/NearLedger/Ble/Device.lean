/-
  NearLedger.Ble.Device

  The device at the other end of the link.  It puts the written packets back
  together by their tag, sequence index and declared length (`Reassembler`), and
  answers every complete frame with one framed message.

  Fed with the packets of one message, whatever it had begun before, it has
  exactly that frame after the last packet and no new frame earlier
  (`finishes_framePackets`).

  The firmware is not part of the repository.  That whole frames are taken as
  they come is the protocol; that a frame which was cut off is given up when the
  next one begins is what `Reassembler` does, and another device may do something
  else.  What is said of cut frames is said of every `Firmware` that does so
  (`Firmware.GivesUpCut`), and `Reassembler` is one (`givesUpCut_reassembler`).
-/

import NearLedger.Ble.RecvFramed

namespace NearLedger

open Slices Fragments

/-- A frame of which the end is missing. -/
structure PendingFrame where
  total : Nat
  nextIndex : Nat
  buffer : Bytes
  deriving DecidableEq, Repr

/-- The device's side of the framing: the complete frames, the frame that is being received, and
    what belongs to no frame. -/
structure Reassembler where
  frames : List Bytes
  pending : Option PendingFrame
  discarded : List Bytes
  deriving DecidableEq, Repr

namespace Reassembler

/-- Nothing received yet. -/
def empty : Reassembler := { frames := [], pending := none, discarded := [] }

/-- Give up the frame that is being received. -/
def abandon (r : Reassembler) : Reassembler :=
  match r.pending with
  | none => r
  | some pending =>
      { frames := r.frames, pending := none, discarded := r.discarded ++ [pending.buffer] }

/-- The frame is complete when the declared length is reached; what is too much is discarded. -/
def settle (r : Reassembler) (total nextIndex : Nat) (buffer : Bytes) : Reassembler :=
  if buffer.length < total then
    { r with pending := some { total := total, nextIndex := nextIndex, buffer := buffer } }
  else
    { frames := r.frames ++ [buffer.take total]
      pending := none
      discarded :=
        if buffer.length = total then r.discarded else r.discarded ++ [buffer.drop total] }

/-- Receive one packet.  Index 0 begins a frame, and a frame that is being received is given up; any
    other packet has to carry on that frame. -/
def feed (r : Reassembler) (packet : Bytes) : Reassembler :=
  match packet with
  | tag :: hi :: lo :: body =>
      if tag ≠ apduCommandTag then { r with discarded := r.discarded ++ [packet] }
      else if Bytes.u16FromBeBytes hi lo = 0 then
        match body with
        | lenHi :: lenLo :: payload =>
            r.abandon.settle (Bytes.u16FromBeBytes lenHi lenLo).toNat 1 payload
        | _ => { r with discarded := r.discarded ++ [packet] }
      else
        match r.pending with
        | none => { r with discarded := r.discarded ++ [packet] }
        | some pending =>
            if (Bytes.u16FromBeBytes hi lo).toNat = pending.nextIndex then
              r.settle pending.total (pending.nextIndex + 1) (pending.buffer ++ body)
            else { r.abandon with discarded := r.abandon.discarded ++ [packet] }
  | _ => { r with discarded := r.discarded ++ [packet] }

theorem abandon_of_none {r : Reassembler} (h : r.pending = none) : r.abandon = r := by
  rw [abandon, h]

@[simp] theorem frames_abandon (r : Reassembler) : r.abandon.frames = r.frames := by
  rw [abandon]
  cases r.pending <;> rfl

theorem settle_of_lt (r : Reassembler) {total nextIndex : Nat} {buffer : Bytes}
    (h : buffer.length < total) :
    r.settle total nextIndex buffer =
      { r with pending := some { total := total, nextIndex := nextIndex, buffer := buffer } } := by
  rw [settle, if_pos h]

theorem settle_of_length_eq (r : Reassembler) (nextIndex : Nat) (buffer : Bytes) :
    r.settle buffer.length nextIndex buffer =
      { r with frames := r.frames ++ [buffer], pending := none } := by
  rw [settle, if_neg (Nat.lt_irrefl _), if_pos rfl, List.take_length]

theorem feed_initial (r : Reassembler) (packet : InitialPacket)
    (htag : packet.commandTag = apduCommandTag) :
    r.feed packet.serialize = r.abandon.settle packet.dataLength.toNat 1 packet.payload := by
  simp only [InitialPacket.serialize, Bytes.u16ToBeBytes, List.cons_append, List.nil_append, feed,
    htag, ne_eq, not_true_eq_false, if_false, Bytes.u16FromBeBytes_toBeBytes, if_true]

theorem feed_subsequent {r : Reassembler} {pending : PendingFrame} (hr : r.pending = some pending)
    (packet : SubsequentPacket) (htag : packet.commandTag = apduCommandTag)
    (hne : packet.packetSequenceIndex ≠ 0)
    (hindex : packet.packetSequenceIndex.toNat = pending.nextIndex) :
    r.feed packet.serialize =
      r.settle pending.total (pending.nextIndex + 1) (pending.buffer ++ packet.payload) := by
  simp only [SubsequentPacket.serialize, Bytes.u16ToBeBytes, List.cons_append, List.nil_append, feed,
    htag, ne_eq, not_true_eq_false, if_false, Bytes.u16FromBeBytes_toBeBytes]
  rw [if_neg hne, hr]
  simp only [hindex, if_true]

end Reassembler

/-- The device's view of the packets it has received. -/
def reassemble (packets : List Bytes) : Reassembler :=
  packets.foldl Reassembler.feed .empty

theorem reassemble_append (packets : List Bytes) (packet : Bytes) :
    reassemble (packets ++ [packet]) = (reassemble packets).feed packet := by
  rw [reassemble, List.foldl_append]
  rfl

/-- `Finishes r packets r'`: the packets lead from `r` to `r'`, and the last one, and no earlier one,
    completes a frame. -/
inductive Finishes : Reassembler → List Bytes → Reassembler → Prop where
  | last {r : Reassembler} {packet : Bytes} :
      (r.feed packet).frames.length ≠ r.frames.length → Finishes r [packet] (r.feed packet)
  | more {r r' : Reassembler} {packet : Bytes} {packets : List Bytes} :
      (r.feed packet).frames = r.frames → Finishes (r.feed packet) packets r' →
      Finishes r (packet :: packets) r'

theorem Finishes.ne_nil {r r' : Reassembler} {packets : List Bytes} (h : Finishes r packets r') :
    packets ≠ [] := by
  cases h <;> simp

/-- Where the packets lead. -/
theorem Finishes.foldl_feed {r r' : Reassembler} {packets : List Bytes}
    (h : Finishes r packets r') : packets.foldl Reassembler.feed r = r' := by
  induction h with
  | last _ => rfl
  | more _ _ ih => exact ih

/-! ## The packets of a frame -/

/-- The subsequent packets carry on the frame to its end. -/
theorem finishes_subsequent {k : Nat} (hk : 1 ≤ k) :
    ∀ {cs : List Bytes} {r : Reassembler} {buffer : Bytes}, cs ≠ [] → (∀ c ∈ cs, c ≠ []) →
      k + cs.length ≤ 65536 →
      r.pending = some
        { total := (buffer ++ cs.flatten).length, nextIndex := k, buffer := buffer } →
      Finishes r ((subsequentPacketsFrom apduCommandTag k cs).map SubsequentPacket.serialize)
        { r with frames := r.frames ++ [buffer ++ cs.flatten], pending := none } := by
  intro cs
  induction cs generalizing k with
  | nil =>
      intro r buffer h
      exact absurd rfl h
  | cons c cs ih =>
      intro r buffer _ hne hlen hr
      rw [List.length_cons] at hlen
      have hindex : (UInt16.ofNat k).toNat = k := Bytes.toNat_u16_ofNat (by omega)
      have hzero : UInt16.ofNat k ≠ 0 := by
        intro h
        rw [h] at hindex
        simp at hindex
        omega
      have hfeed := Reassembler.feed_subsequent hr
        { commandTag := apduCommandTag, packetSequenceIndex := UInt16.ofNat k, payload := c } rfl
        hzero hindex
      rw [subsequentPacketsFrom, List.map_cons, List.flatten_cons, ← List.append_assoc]
      cases cs with
      | nil =>
          rw [List.flatten_cons, List.flatten_nil, List.append_nil] at hfeed
          dsimp only at hfeed
          rw [Reassembler.settle_of_length_eq] at hfeed
          rw [List.flatten_nil, List.append_nil, ← hfeed]
          refine .last ?_
          rw [hfeed]
          simp
      | cons c' cs =>
          have hc' := List.length_pos_iff.mpr (hne c' (by simp))
          have hlt : (buffer ++ c).length < (buffer ++ (c :: c' :: cs).flatten).length := by
            simp only [List.flatten_cons, List.length_append]
            omega
          rw [Reassembler.settle_of_lt _ hlt] at hfeed
          have hrest := @ih (k + 1) (by omega)
            { r with pending := some ⟨(buffer ++ (c :: c' :: cs).flatten).length, k + 1, buffer ++ c⟩ }
            (buffer ++ c) (by simp)
            (fun d hd => hne d (List.mem_cons_of_mem _ hd)) (by omega) (by simp)
          refine .more (by rw [hfeed]) ?_
          rw [hfeed]
          exact hrest

/-- The packets of a frame, after any packets before: the frame is complete with the last packet,
    and a frame begun before is given up. -/
theorem finishes_framePackets (r : Reassembler) {frame : Bytes} {mtuSize : Nat} (hmtu : 6 ≤ mtuSize)
    (hlen : frame.length ≤ 65535) :
    Finishes r (framePackets apduCommandTag frame mtuSize)
      { frames := r.frames ++ [frame], pending := none, discarded := r.abandon.discarded } := by
  have hfeed := r.feed_initial (initialPacketOf apduCommandTag frame mtuSize) rfl
  rw [show (initialPacketOf apduCommandTag frame mtuSize).dataLength.toNat = frame.length from
    Bytes.toNat_u16_ofNat hlen, show (initialPacketOf apduCommandTag frame mtuSize).payload =
      frame.take (mtuSize - 5) from rfl] at hfeed
  rw [framePackets, subsequentPacketsOf]
  -- the initial packet may be the last one, too
  by_cases hshort : frame.length ≤ mtuSize - 5
  · -- everything fits the initial packet
    rw [List.take_of_length_le hshort, Reassembler.settle_of_length_eq] at hfeed
    rw [List.drop_of_length_le hshort, chunks_nil, subsequentPacketsFrom, List.map_nil]
    have hlast : Finishes r [(initialPacketOf apduCommandTag frame mtuSize).serialize] _ :=
      .last (by rw [hfeed]; simp)
    rw [hfeed] at hlast
    simpa using hlast
  · have hlt : (frame.take (mtuSize - 5)).length < frame.length := by
      rw [List.length_take]
      omega
    have hpieces : (chunks (mtuSize - 3) (frame.drop (mtuSize - 5))).flatten =
        frame.drop (mtuSize - 5) := flatten_chunks (by omega) _
    have hne : chunks (mtuSize - 3) (frame.drop (mtuSize - 5)) ≠ [] := by
      rw [Ne, chunks_eq_nil_iff (by omega), List.drop_eq_nil_iff]
      exact hshort
    rw [Reassembler.settle_of_lt _ hlt] at hfeed
    have hrest := @finishes_subsequent 1 (Nat.le_refl 1) _
      { r.abandon with pending := some ⟨frame.length, 1, frame.take (mtuSize - 5)⟩ }
      (frame.take (mtuSize - 5)) hne (fun c hc => ne_nil_of_mem_chunks (by omega) hc)
      (by have := length_chunks_frame hmtu hlen; omega)
      (by rw [hpieces, List.take_append_drop])
    rw [hpieces, List.take_append_drop] at hrest
    refine .more (by rw [hfeed]; simp) ?_
    rw [hfeed]
    simpa using hrest

/-- Before the last packet no frame is complete. -/
theorem Finishes.frames_of_cut {r r' : Reassembler} {packets : List Bytes}
    (h : Finishes r packets r') :
    ∀ {ps : List Bytes}, ps <+: packets → ps ≠ packets →
      (ps.foldl Reassembler.feed r).frames = r.frames := by
  induction h with
  | last _ =>
      intro ps hps hne
      cases ps with
      | nil => rfl
      | cons p ps =>
          obtain ⟨rfl, htail⟩ := List.cons_prefix_cons.mp hps
          obtain rfl := List.prefix_nil.mp htail
          exact absurd rfl hne
  | @more r _ packet packets hframes _ ih =>
      intro ps hps hne
      cases ps with
      | nil => rfl
      | cons p ps =>
          obtain ⟨rfl, htail⟩ := List.cons_prefix_cons.mp hps
          have hne' : ps ≠ packets := fun heq => hne (congrArg (List.cons p) heq)
          rw [List.foldl_cons, ih htail hne', hframes]

/-! ## Other devices -/

/-- The device's side of the framing, whatever it is: a state that each packet changes, and the
    frames that are complete in it. -/
structure Firmware where
  State : Type
  feed : State → Bytes → State
  frames : State → List Bytes

/-- The state after packets. -/
def Firmware.read (F : Firmware) (s : F.State) (packets : List Bytes) : F.State :=
  packets.foldl F.feed s

/-- A frame that is cut off is given up when the next one begins: the packets of a whole frame
    complete that frame, whatever was received before, and a beginning of them completes none. -/
structure Firmware.GivesUpCut (F : Firmware) : Prop where
  whole : ∀ (s : F.State) (frame : Bytes) (mtuSize : Nat), 6 ≤ mtuSize → frame.length ≤ 65535 →
    F.frames (F.read s (framePackets apduCommandTag frame mtuSize)) = F.frames s ++ [frame]
  cut : ∀ (s : F.State) (frame : Bytes) (mtuSize : Nat) (packets : List Bytes), 6 ≤ mtuSize →
    frame.length ≤ 65535 → packets <+: framePackets apduCommandTag frame mtuSize →
    packets ≠ framePackets apduCommandTag frame mtuSize →
    F.frames (F.read s packets) = F.frames s

theorem Firmware.read_append (F : Firmware) (s : F.State) (ps qs : List Bytes) :
    F.read s (ps ++ qs) = F.read (F.read s ps) qs :=
  List.foldl_append

/-- The device of this model. -/
def reassemblerFirmware : Firmware where
  State := Reassembler
  feed := Reassembler.feed
  frames := Reassembler.frames

theorem givesUpCut_reassembler : reassemblerFirmware.GivesUpCut where
  whole s frame mtuSize hmtu hlen := by
    have hfinishes := (finishes_framePackets s hmtu hlen).foldl_feed
    exact congrArg Reassembler.frames hfinishes
  cut s frame mtuSize packets hmtu hlen hpre hne :=
    (finishes_framePackets s hmtu hlen).frames_of_cut hpre hne

/-! ## Whole frames -/

/-- The packets of whole frames, one after another, after which nothing is begun: exactly these
    frames, and nothing is left over. -/
theorem reassemble_frames {w : List Bytes} (hw : (reassemble w).pending = none) {mtuSize : Nat}
    (hmtu : 6 ≤ mtuSize) {frames : List Bytes} (hlen : ∀ f ∈ frames, f.length ≤ 65535) :
    reassemble (w ++ (frames.map fun f => framePackets apduCommandTag f mtuSize).flatten) =
      { frames := (reassemble w).frames ++ frames
        pending := none
        discarded := (reassemble w).discarded } := by
  induction frames generalizing w with
  | nil =>
      simp only [List.map_nil, List.flatten_nil, List.append_nil]
      rw [← hw]
  | cons f frames ih =>
      -- the first frame, and then the others behind it
      have hone : reassemble (w ++ framePackets apduCommandTag f mtuSize) =
          { frames := (reassemble w).frames ++ [f]
            pending := none
            discarded := (reassemble w).discarded } := by
        have hfinishes := (finishes_framePackets (reassemble w) hmtu
          (hlen f List.mem_cons_self)).foldl_feed
        rw [Reassembler.abandon_of_none hw] at hfinishes
        rw [reassemble, List.foldl_append]
        exact hfinishes
      have hrest := @ih (w ++ framePackets apduCommandTag f mtuSize) (by rw [hone])
        fun f' hf' => hlen f' (List.mem_cons_of_mem _ hf')
      rw [hone] at hrest
      rw [List.map_cons, List.flatten_cons, ← List.append_assoc, hrest]
      simp

/-- What answers the frames: the frames received so far determine the answer to the last one. -/
abbrev FrameDevice := List Bytes → FramedMessage

/-- A device that answers every frame with data followed by `0x9000`. -/
structure SigningDevice where
  answer : FrameDevice
  data : List Bytes → Bytes
  message_eq : ∀ frames, (answer frames).message = data frames ++ [0x90, 0x00]

/-- A device that answers every frame with the number of frames so far and `0x9000`, in one
    packet. -/
def countingSigner : SigningDevice where
  answer frames :=
    { message := [UInt8.ofNat frames.length, 0x90, 0x00]
      first := [UInt8.ofNat frames.length, 0x90, 0x00]
      rest := []
      length_le := by simp
      concat := by simp
      complete := LastNonempty.nil }
  data frames := [UInt8.ofNat frames.length]
  message_eq _ := rfl

end NearLedger
