/-
  NearLedger.Ble.Exchange

  One `exchange` from its first write to its result, as long as nothing fails:
  the device ends with exactly the frame of the command, queues its answer, and
  the exchange returns that answer and nothing else is taken from the queue.
-/

import NearLedger.Ble.Transport

namespace NearLedger

variable {C : Crates} {dev : FrameDevice}

/-- `exchange` on the answer the device sent. -/
def answered (C : Crates) (message : Bytes) : Except (BleError C) C.APDUAnswer :=
  match C.fromAnswer message with
  | some response => .ok response
  | none => .error (.comm "Response was too short")

/-- The packets still to be written complete the frame that leads the device to `r'`. -/
def SendingTo (apduData : Bytes) (mtuSize : Nat) (r' : Reassembler) (packets : List Bytes)
    (s : SendState C) (l : Link) : Prop :=
  SendFramed.Writes apduCommandTag apduData mtuSize s packets (.ok ()) ∧
    Finishes l.reassembler packets r'

/-- What is queued gives the receiver the message, and leaves `unread`. -/
def ReceivingFrom (message : Bytes) (unread : List Bytes) (s : RecvState C) (l : Link) : Prop :=
  s.Awaiting ∧ RecvFramed.run apduCommandTag l.notifications s = (.returned (.ok message), unread)

/-! ## Writing -/

/-- Where the packet just received does not complete a frame, nothing is queued. -/
theorem Link.notifications_receive_of_eq {l : Link} {packet : Bytes}
    (h : (l.reassembler.feed packet).frames = l.reassembler.frames) :
    (l.receive dev packet).notifications = l.notifications := by
  rw [Link.receive]
  simp only [h, if_true]

/-- The packet that completes a frame queues the answer. -/
theorem Link.notifications_receive_of_ne {l : Link} {packet : Bytes}
    (h : (l.reassembler.feed packet).frames.length ≠ l.reassembler.frames.length) :
    (l.receive dev packet).notifications =
      l.notifications ++ (dev (l.reassembler.feed packet).frames).packets apduCommandTag := by
  rw [Link.receive]
  simp only [if_neg h]

theorem ofSend_of_writes {apduData : Bytes} {mtuSize : Nat} {s : SendState C} {packet : Bytes}
    {packets : List Bytes}
    (h : SendFramed.Writes apduCommandTag apduData mtuSize s (packet :: packets) (.ok ())) :
    ExchangeState.ofSend apduData mtuSize s = .sending apduData mtuSize s ∧
      s.packet? = some packet ∧
      SendFramed.Writes apduCommandTag apduData mtuSize
        (SendFramed.onWrite apduCommandTag apduData mtuSize s (.ok ())) packets (.ok ()) := by
  cases h with
  | write hp h =>
      refine ⟨?_, hp, h⟩
      cases s with
      | returned r => cases hp
      | panicked => cases hp
      | _ => rfl

/-- A write that is not the last one. -/
theorem step_writeOk_more {apduData : Bytes} {mtuSize : Nat} {r' : Reassembler} {p q : Bytes}
    {ps : List Bytes} {s : SendState C} {l : Link}
    (h : SendingTo apduData mtuSize r' (p :: q :: ps) s l) :
    ∃ s', (ExchangeState.sending apduData mtuSize s).step dev l .writeOk =
        some (.sending apduData mtuSize s', l.receive dev p) ∧
      SendingTo apduData mtuSize r' (q :: ps) s' (l.receive dev p) ∧
      (l.receive dev p).reassembler.frames = l.reassembler.frames ∧
      (l.receive dev p).notifications = l.notifications := by
  obtain ⟨hwrites, hfinishes⟩ := h
  obtain ⟨-, hp, hrest⟩ := ofSend_of_writes hwrites
  obtain ⟨hsend, -, -⟩ := ofSend_of_writes hrest
  cases hfinishes with
  | more hframes hfinishes =>
      refine ⟨_, ?_, ⟨hrest, ?_⟩, ?_, Link.notifications_receive_of_eq hframes⟩
      · rw [ExchangeState.step, hp, Option.map_some, hsend]
      · rw [Link.reassembler_receive]
        exact hfinishes
      · rw [Link.reassembler_receive, hframes]

/-- The last write: the frame is complete and the answer is queued. -/
theorem step_writeOk_last {apduData : Bytes} {mtuSize : Nat} {r' : Reassembler} {p : Bytes}
    {s : SendState C} {l : Link} (h : SendingTo apduData mtuSize r' [p] s l) :
    (ExchangeState.sending apduData mtuSize s).step dev l .writeOk =
        some (.receiving .awaitingInitial, l.receive dev p) ∧
      (l.receive dev p).reassembler = r' ∧
      (l.receive dev p).notifications =
        l.notifications ++ (dev r'.frames).packets apduCommandTag := by
  obtain ⟨hwrites, hfinishes⟩ := h
  obtain ⟨-, hp, hrest⟩ := ofSend_of_writes hwrites
  generalize hs' : SendFramed.onWrite apduCommandTag apduData mtuSize s (.ok ()) = s' at hrest
  cases hrest
  cases hfinishes with
  | more _ h => exact absurd rfl h.ne_nil
  | last hframes =>
      refine ⟨?_, Link.reassembler_receive _ _ _, Link.notifications_receive_of_ne hframes⟩
      rw [ExchangeState.step, hp, Option.map_some, hs']
      rfl

/-- The exchange begins with the packets of its command to write. -/
theorem start_sendingTo {l : Link} {command : APDUCommand} {mtuSize : Nat} (hmtu : 6 ≤ mtuSize)
    (hlen : (C.serialize command).length ≤ 65535) :
    ∃ s, (ExchangeState.start mtuSize command : ExchangeState C) =
        .sending (C.serialize command) mtuSize s ∧
      SendingTo (C.serialize command) mtuSize
        { frames := l.reassembler.frames ++ [C.serialize command]
          pending := none
          discarded := l.reassembler.abandon.discarded }
        (framePackets apduCommandTag (C.serialize command) mtuSize) s l := by
  have hwrites : SendFramed.Writes apduCommandTag (C.serialize command) mtuSize
      (SendFramed.start apduCommandTag (C.serialize command) mtuSize : SendState C) _ (.ok ()) :=
    SendFramed.writes_start hmtu hlen
  refine ⟨_, (ofSend_of_writes hwrites).1, hwrites, ?_⟩
  exact finishes_framePackets l.reassembler hmtu hlen

/-! ## Reading -/

theorem RecvState.Awaiting.ne_returned {s : RecvState C} (h : s.Awaiting)
    (r : Except (BleError C) Bytes) : s ≠ .returned r := by
  rintro rfl
  exact h

theorem ofRecv_of_awaiting {s : RecvState C} (h : s.Awaiting) :
    ExchangeState.ofRecv s = .receiving s := by
  cases s with
  | returned r => exact absurd h id
  | _ => rfl

theorem ofRecv_returned_ok (message : Bytes) :
    ExchangeState.ofRecv (.returned (.ok message) : RecvState C) = .returned (answered C message) := by
  rw [ExchangeState.ofRecv, answered]
  cases C.fromAnswer message <;> rfl

/-- The answer of the device, queued in front of `unread`, can be received. -/
theorem receivingFrom_packets {l : Link} {f : FramedMessage} {unread : List Bytes}
    (h : l.notifications = f.packets apduCommandTag ++ unread) :
    ReceivingFrom f.message unread (.awaitingInitial : RecvState C) l := by
  refine ⟨trivial, ?_⟩
  rw [h]
  exact recvFramed_packets apduCommandTag f unread

/-- A read takes the front of the queue; the message is complete, or it can still be received. -/
theorem step_deliver {message : Bytes} {unread : List Bytes} {s : RecvState C} {l : Link}
    (h : ReceivingFrom message unread s l) :
    ∃ n ns x', l.notifications = n :: ns ∧
      (ExchangeState.receiving s).step dev l .deliver = some (x', { l with notifications := ns }) ∧
      ((∃ s', x' = .receiving s' ∧
          ReceivingFrom message unread s' { l with notifications := ns }) ∨
        (x' = .returned (answered C message) ∧ ns = unread)) := by
  obtain ⟨hs, hrun⟩ := h
  cases hn : l.notifications with
  | nil =>
      rw [hn, RecvFramed.run_nil] at hrun
      exact absurd (Prod.mk.inj hrun).1 (hs.ne_returned _)
  | cons n ns =>
      rw [hn, RecvFramed.run_cons hs.ne_returned] at hrun
      refine ⟨n, ns, .ofRecv (RecvFramed.onNotification apduCommandTag s (.ok n)), rfl, ?_, ?_⟩
      · rw [ExchangeState.step, hn]
      -- the receiver reads on or has returned; `hrun` says what it returns
      · have hnext := @RecvFramed.onNotification_awaiting C apduCommandTag s (.ok n) hs
        generalize RecvFramed.onNotification apduCommandTag s (.ok n) = s' at hrun hnext
        rcases hnext with hawaiting | ⟨r, rfl⟩
        · exact .inl ⟨s', ofRecv_of_awaiting hawaiting, hawaiting, hrun⟩
        · rw [RecvFramed.run_returned] at hrun
          cases hrun
          exact .inr ⟨ofRecv_returned_ok message, rfl⟩

/-- More in the queue does not change what is received. -/
theorem ReceivingFrom.append {message : Bytes} {unread : List Bytes} {s : RecvState C} {l l' : Link}
    (h : ReceivingFrom message unread s l) {more : List Bytes}
    (hl' : l'.notifications = l.notifications ++ more) :
    ReceivingFrom message (unread ++ more) s l' := by
  refine ⟨h.1, ?_⟩
  rw [hl']
  exact RecvFramed.run_append h.2 more

end NearLedger
