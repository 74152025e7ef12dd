/-
  NearLedger.Ble.AwaitPoints

  What the end of an await point can do, said once for a write and once for a
  read, whatever the event is.  Results about all runs of calls that may fail
  are case analyses over these.
-/

import NearLedger.Ble.Exchange

namespace NearLedger

variable {C : Crates} {dev : FrameDevice}

/-- The end of a write: the next write follows, or the first read, or the write has failed, with the
    packet at the device or not. -/
theorem step_sending_cases {apduData : Bytes} {mtuSize : Nat} {p : Bytes} {ps : List Bytes}
    {s : SendState C} {l l' : Link} {e : Event C} {x' : ExchangeState C}
    (hw : SendFramed.Writes apduCommandTag apduData mtuSize s (p :: ps) (.ok ()))
    (h : (ExchangeState.sending apduData mtuSize s).step dev l e = some (x', l')) :
    (e = .writeOk ∧ l' = l.receive dev p ∧
      ((ps ≠ [] ∧ ∃ s', x' = .sending apduData mtuSize s' ∧
          SendFramed.Writes apduCommandTag apduData mtuSize s' ps (.ok ())) ∨
        (ps = [] ∧ x' = .receiving .awaitingInitial))) ∨
    ∃ delivered err, e = .writeErr delivered err ∧ x' = .returned (.error (.ble err)) ∧
      l' = if delivered then l.receive dev p else l := by
  obtain ⟨-, hp, hrest⟩ := ofSend_of_writes hw
  cases e with
  | writeOk =>
      left
      rw [ExchangeState.step, hp, Option.map_some, Option.some.injEq, Prod.mk.injEq] at h
      refine ⟨rfl, h.2.symm, ?_⟩
      cases ps with
      | nil =>
          generalize SendFramed.onWrite apduCommandTag apduData mtuSize s (.ok ()) = s' at h hrest
          cases hrest
          exact .inr ⟨rfl, h.1.symm⟩
      | cons q ps =>
          obtain ⟨hsend, -, -⟩ := ofSend_of_writes hrest
          exact .inl ⟨by simp, _, h.1.symm.trans hsend, hrest⟩
  | writeErr delivered err =>
      right
      have hreturned : ExchangeState.ofSend apduData mtuSize
          (SendFramed.onWrite apduCommandTag apduData mtuSize s (.error err)) =
            .returned (.error (.ble err)) := by
        cases s with
        | returned r => cases hp
        | panicked => cases hp
        | _ => rfl
      rw [ExchangeState.step, hp, Option.map_some, hreturned, Option.some.injEq,
        Prod.mk.injEq] at h
      exact ⟨delivered, err, rfl, h.1.symm, h.2.symm⟩
  | _ => cases h

/-- After a read the exchange is at the next read or has returned. -/
theorem ofRecv_onNotification_cases {s : RecvState C} (hs : s.Awaiting)
    (read : Except (BleError C) Bytes) :
    (∃ s', ExchangeState.ofRecv (RecvFramed.onNotification apduCommandTag s read) = .receiving s' ∧
        s'.Awaiting) ∨
      ∃ r, ExchangeState.ofRecv (RecvFramed.onNotification apduCommandTag s read) =
        .returned r := by
  have hnext := @RecvFramed.onNotification_awaiting C apduCommandTag s read hs
  rcases hnext with hawaiting | ⟨r, hr⟩
  · exact .inl ⟨_, ofRecv_of_awaiting hawaiting, hawaiting⟩
  · rw [hr]
    cases r with
    | error err => exact .inr ⟨_, rfl⟩
    | ok message => exact .inr ⟨_, ofRecv_returned_ok message⟩

/-- The end of a read: the next read follows, or the exchange has returned; the device has received
    nothing. -/
theorem step_receiving_cases {s : RecvState C} (hs : s.Awaiting) {l l' : Link} {e : Event C}
    {x' : ExchangeState C} (h : (ExchangeState.receiving s).step dev l e = some (x', l')) :
    l'.written = l.written ∧
      ((∃ s', x' = .receiving s' ∧ s'.Awaiting) ∨ ∃ r, x' = .returned r) := by
  have hread : ∃ read, x' = .ofRecv (RecvFramed.onNotification apduCommandTag s read) ∧
      l'.written = l.written := by
    cases e with
    | deliver =>
        rw [ExchangeState.step] at h
        split at h
        · cases h
        · cases h
          exact ⟨_, rfl, rfl⟩
    | foreign n =>
        rw [ExchangeState.step] at h
        split at h
        · cases h
        · cases h
          exact ⟨_, rfl, rfl⟩
    | timeout =>
        cases h
        exact ⟨_, rfl, rfl⟩
    | ended =>
        cases h
        exact ⟨_, rfl, rfl⟩
    | _ => cases h
  obtain ⟨read, rfl, hwritten⟩ := hread
  exact ⟨hwritten, ofRecv_onNotification_cases hs read⟩

/-- A command that does not fit a frame is refused, with nothing written. -/
theorem start_of_too_long {command : APDUCommand} (mtuSize : Nat)
    (h : 65535 < (C.serialize command).length) :
    (ExchangeState.start mtuSize command : ExchangeState C) =
      .returned (.error (.comm "Payload too large for BLE framing (>65535 bytes)")) := by
  rw [ExchangeState.start, SendFramed.start_of_gt h]
  rfl

end NearLedger
