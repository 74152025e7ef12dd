/-
  NearLedger.Ble.Packet

  The two packet formats of `ble.rs`.  An initial packet is
  `[tag, seq(2), data_len(2), ...payload]` with sequence index 0, a subsequent
  packet is `[tag, seq(2), ...payload]`.
-/

import NearLedger.Errors

namespace NearLedger

/-- BLE command tag for MTU negotiation. -/
def mtuCommandTag : UInt8 := 0x08

/-- BLE command tag for APDU exchange. -/
def apduCommandTag : UInt8 := 0x05

/-- The MTU before negotiation. -/
def defaultMtuSize : Nat := 20

structure InitialPacket where
  commandTag : UInt8
  dataLength : UInt16
  payload : Bytes
  deriving DecidableEq, Repr

structure SubsequentPacket where
  commandTag : UInt8
  packetSequenceIndex : UInt16
  payload : Bytes
  deriving DecidableEq, Repr

namespace InitialPacket

def serialize (packet : InitialPacket) : Bytes :=
  packet.commandTag :: (Bytes.u16ToBeBytes 0 ++ Bytes.u16ToBeBytes packet.dataLength ++
    packet.payload)

/-- `TryFrom<Vec<u8>>`: an error below five bytes. -/
def tryFrom (C : Crates) : Bytes → Except (BleError C) InitialPacket
  | tag :: _ :: _ :: hi :: lo :: payload =>
      .ok { commandTag := tag, dataLength := Bytes.u16FromBeBytes hi lo, payload := payload }
  | _ => .error .invalidPacket

theorem length_serialize (packet : InitialPacket) :
    packet.serialize.length = packet.payload.length + 5 := rfl

theorem tryFrom_serialize {C : Crates} (packet : InitialPacket) :
    tryFrom C packet.serialize = .ok packet := by
  simp only [serialize, tryFrom, Bytes.u16ToBeBytes, List.cons_append, List.nil_append,
    Bytes.u16FromBeBytes_toBeBytes]

end InitialPacket

namespace SubsequentPacket

def serialize (packet : SubsequentPacket) : Bytes :=
  packet.commandTag :: (Bytes.u16ToBeBytes packet.packetSequenceIndex ++ packet.payload)

/-- `TryFrom<Vec<u8>>`: an error below three bytes. -/
def tryFrom (C : Crates) : Bytes → Except (BleError C) SubsequentPacket
  | tag :: hi :: lo :: payload =>
      .ok { commandTag := tag, packetSequenceIndex := Bytes.u16FromBeBytes hi lo, payload := payload }
  | _ => .error .invalidPacket

theorem length_serialize (packet : SubsequentPacket) :
    packet.serialize.length = packet.payload.length + 3 := rfl

theorem tryFrom_serialize {C : Crates} (packet : SubsequentPacket) :
    tryFrom C packet.serialize = .ok packet := by
  simp only [serialize, tryFrom, Bytes.u16ToBeBytes, List.cons_append, List.nil_append,
    Bytes.u16FromBeBytes_toBeBytes]

theorem drop_serialize (packet : SubsequentPacket) :
    packet.serialize.drop 3 = packet.payload := rfl

end SubsequentPacket

end NearLedger
