/-
  NearLedger.Ble.Transport

  `TransportBle::exchange` and the calls of `ble_api.rs` over a link to a device.

  An exchange sends its command and then receives; at each await point the
  environment decides how it goes on (`Event`).  The notification stream is a
  queue: what the device answers is appended to it, and a read takes its front.
  A call (`Task`) is an exchange that is under way together with the rest of the
  program.
-/

import NearLedger.Ble.Device
import NearLedger.BleApi
import NearLedger.Lib.Transition

namespace NearLedger

open Interaction

variable {C : Crates}

/-! ## The link -/

/-- What a `TransportBle` shares between its calls, and what the device has received. -/
structure Link where
  -- `TransportBle::mtu_size`
  mtuSize : Option Nat
  -- what is still to be read from `TransportBle::notifications`
  notifications : List Bytes
  -- the packets the device has received on the write characteristic
  written : List Bytes
  deriving DecidableEq, Repr

namespace Link

/-- The link of a new transport. -/
def opened (mtuSize : Nat) : Link :=
  { mtuSize := some mtuSize, notifications := [], written := [] }

/-- `get_mtu_size`. -/
def getMtuSize (l : Link) : Nat := l.mtuSize.getD defaultMtuSize

/-- The link with another queue. -/
def withQueue (l : Link) (queue : List Bytes) : Link :=
  { mtuSize := l.mtuSize, notifications := queue, written := l.written }

/-- The device's side of the framing. -/
def reassembler (l : Link) : Reassembler := reassemble l.written

/-- The device receives a packet; when it completes a frame, the answer is queued. -/
def receive (dev : FrameDevice) (l : Link) (packet : Bytes) : Link :=
  let r := l.reassembler.feed packet
  { mtuSize := l.mtuSize
    notifications :=
      if r.frames.length = l.reassembler.frames.length then l.notifications
      else l.notifications ++ (dev r.frames).packets apduCommandTag
    written := l.written ++ [packet] }

@[simp] theorem written_receive (dev : FrameDevice) (l : Link) (packet : Bytes) :
    (l.receive dev packet).written = l.written ++ [packet] := rfl

@[simp] theorem reassembler_receive (dev : FrameDevice) (l : Link) (packet : Bytes) :
    (l.receive dev packet).reassembler = l.reassembler.feed packet :=
  reassemble_append _ _

end Link

/-! ## `exchange` -/

/-- `exchange` at an await point of `send_framed` or of `recv_framed`, or at its end. -/
inductive ExchangeState (C : Crates) where
  | sending (apduData : Bytes) (mtuSize : Nat) (s : SendState C)
  | receiving (s : RecvState C)
  | returned (r : Except (BleError C) C.APDUAnswer)
  | panicked

/-- How an await point ends. -/
inductive Event (C : Crates) where
  -- a write succeeds
  | writeOk
  -- a write fails, the packet having reached the device or not
  | writeErr (delivered : Bool) (err : C.BtleError)
  -- a read takes the next packet of the device
  | deliver
  -- a read takes a notification that is no APDU packet of the device
  | foreign (n : Bytes)
  -- a read runs into the timeout
  | timeout
  -- the notification stream has ended
  | ended

namespace ExchangeState

/-- `exchange` after a step of `send_framed`. -/
def ofSend (apduData : Bytes) (mtuSize : Nat) : SendState C → ExchangeState C
  | .returned (.ok ()) => .receiving .awaitingInitial
  | .returned (.error err) => .returned (.error err)
  | .panicked => .panicked
  | .writingInitial packet firstDataEnd =>
      .sending apduData mtuSize (.writingInitial packet firstDataEnd)
  | .writingSubsequent packet stop seqIndex =>
      .sending apduData mtuSize (.writingSubsequent packet stop seqIndex)

/-- `exchange` after a step of `recv_framed`. -/
def ofRecv : RecvState C → ExchangeState C
  | .returned (.ok answer) =>
      match C.fromAnswer answer with
      | some response => .returned (.ok response)
      | none => .returned (.error (.comm "Response was too short"))
  | .returned (.error err) => .returned (.error err)
  | .awaitingInitial => .receiving .awaitingInitial
  | .awaitingSubsequent totalLength buffer => .receiving (.awaitingSubsequent totalLength buffer)

/-- `exchange`, from the call to the first await point. -/
def start (mtuSize : Nat) (command : APDUCommand) : ExchangeState C :=
  let apduData := C.serialize command
  ofSend apduData mtuSize (SendFramed.start apduCommandTag apduData mtuSize)

/-- What the end of an await point does to the exchange and to the link. -/
def step (dev : FrameDevice) : ExchangeState C → Link → Event C → Option (ExchangeState C × Link)
  | .sending apduData mtuSize s, l, .writeOk =>
      s.packet?.map fun packet =>
        (ofSend apduData mtuSize (SendFramed.onWrite apduCommandTag apduData mtuSize s (.ok ())),
          l.receive dev packet)
  | .sending apduData mtuSize s, l, .writeErr delivered err =>
      s.packet?.map fun packet =>
        (ofSend apduData mtuSize (SendFramed.onWrite apduCommandTag apduData mtuSize s (.error err)),
          if delivered then l.receive dev packet else l)
  | .receiving s, l, .deliver =>
      match l.notifications with
      | [] => none
      | n :: ns =>
          some (ofRecv (RecvFramed.onNotification apduCommandTag s (.ok n)),
            { l with notifications := ns })
  | .receiving s, l, .foreign n =>
      if n.head? = some apduCommandTag then none
      else some (ofRecv (RecvFramed.onNotification apduCommandTag s (.ok n)), l)
  | .receiving s, l, .timeout =>
      some (ofRecv (RecvFramed.onNotification apduCommandTag s (.error .timeout)), l)
  | .receiving s, l, .ended =>
      some (ofRecv (RecvFramed.onNotification apduCommandTag s
        (.error (.comm "BLE notification stream ended unexpectedly"))), l)
  | _, _, _ => none

/-- No step changes the stored MTU. -/
theorem mtuSize_step {dev : FrameDevice} {x x' : ExchangeState C} {l l' : Link} {e : Event C}
    (h : x.step dev l e = some (x', l')) : l'.mtuSize = l.mtuSize := by
  cases x with
  | sending apduData mtuSize s =>
      cases e with
      | writeOk =>
          obtain ⟨packet, -, heq⟩ := Option.map_eq_some_iff.mp h
          cases heq
          rfl
      | writeErr delivered err =>
          obtain ⟨packet, -, heq⟩ := Option.map_eq_some_iff.mp h
          cases heq
          cases delivered <;> rfl
      | _ => cases h
  | receiving s =>
      cases e with
      | deliver =>
          rw [step] at h
          split at h
          · cases h
          · cases h
            rfl
      | foreign n =>
          rw [step] at h
          split at h
          · cases h
          · cases h
            rfl
      | timeout =>
          cases h
          rfl
      | ended =>
          cases h
          rfl
      | _ => cases h
  | returned r => cases h
  | panicked => cases h

end ExchangeState

/-! ## Calls -/

/-- A call of `ble_api.rs`: an exchange and what is done with its result, or the outcome. -/
inductive Task (C : Crates) (α : Type) where
  | running (x : ExchangeState C) (k : Except (BleError C) C.APDUAnswer → BleCall C α)
  | finished (o : Outcome (NEARLedgerError C) α)

/-- A step of a call: its exchange goes on, or the code behind `exchange(..).await` runs. -/
inductive TaskEvent (C : Crates) where
  | transport (e : Event C)
  | resume

namespace Task

variable {α : Type}

/-- A call, up to its first `exchange`. -/
def ofCall (mtuSize : Nat) : BleCall C α → Task C α
  | .ret o => .finished o
  | .request command k => .running (.start mtuSize command) k

def step (dev : FrameDevice) : Task C α → Link → TaskEvent C → Option (Task C α × Link)
  | .running x k, l, .transport e => (x.step dev l e).map fun r => (.running r.1 k, r.2)
  | .running (.returned r) k, l, .resume => some (ofCall l.getMtuSize (k r), l)
  | .running .panicked _, l, .resume => some (.finished .panicked, l)
  | _, _, _ => none

theorem mtuSize_step {dev : FrameDevice} {t t' : Task C α} {l l' : Link} {e : TaskEvent C}
    (h : t.step dev l e = some (t', l')) : l'.mtuSize = l.mtuSize := by
  cases t with
  | finished o => cases e <;> cases h
  | running x k =>
      cases e with
      | transport e =>
          obtain ⟨r, hr, heq⟩ := Option.map_eq_some_iff.mp h
          cases heq
          exact ExchangeState.mtuSize_step hr
      | resume =>
          cases x with
          | returned r =>
              cases h
              rfl
          | panicked =>
              cases h
              rfl
          | _ => cases h

end Task

end NearLedger
