/-
  NearLedger.WellFormed

  The commands that carry an HD path.  `ledger_apdu` writes the length of the
  data as one byte, so a command can be read back when it has at most 255 bytes
  of data.  The signing functions cut the path and the payload in chunks and
  stay below that; the functions for public keys and wallet ids put the whole
  path in one command, and nothing refuses a path of more than 63 indices
  (`hdPath_commands_wellFormed_iff`).
-/

import NearLedger.Signing.Commands

namespace NearLedger

open Interaction Slices

variable {C : Crates}

/-! ## Reading a command back -/

/-- Read `[cla, ins, p1, p2, Lc]` and `Lc` data bytes off the front of a byte string. -/
def decodeApdu : Bytes → Option (APDUCommand × Bytes)
  | cla :: ins :: p1 :: p2 :: lc :: rest =>
      if lc.toNat ≤ rest.length then
        some ({ cla := cla, ins := ins, p1 := p1, p2 := p2, data := rest.take lc.toNat },
          rest.drop lc.toNat)
      else none
  | _ => none

/-- The command has at most 255 bytes of data, and its serialized bytes are read back as the command
    with nothing left over. -/
def WellFormed (C : Crates) (c : APDUCommand) : Prop :=
  c.data.length ≤ 255 ∧ decodeApdu (C.serialize c) = some (c, [])

/-- With a truncated length byte the data is read only in part. -/
theorem decodeApdu_serialize (hA : C.ApduDoc) (c : APDUCommand) :
    decodeApdu (C.serialize c) =
      some ({ c with data := c.data.take (c.data.length % 256) },
        c.data.drop (c.data.length % 256)) := by
  have hle : c.data.length % 256 ≤ c.data.length := Nat.mod_le _ _
  rw [hA.serialize_eq]
  simp only [List.cons_append, List.nil_append, decodeApdu, UInt8.toNat_ofNat', Nat.reducePow]
  rw [if_pos hle]

theorem wellFormed_iff (hA : C.ApduDoc) (c : APDUCommand) :
    WellFormed C c ↔ c.data.length ≤ 255 := by
  refine ⟨And.left, fun h => ⟨h, ?_⟩⟩
  have hmod : c.data.length % 256 = c.data.length := Nat.mod_eq_of_lt (by omega)
  rw [decodeApdu_serialize hA, hmod, List.take_length, List.drop_length]

/-! ## What a call sends -/

section

variable {Req : Type} {Resp : Req → Type} {ε α : Type}

/-- Every command the call can issue is well-formed, whatever the replies are. -/
def IssuesWellFormed (C : Crates) (exchange : APDUCommand → Req) (call : Call Req Resp ε α) : Prop :=
  call.Only fun q => ∀ c, q = exchange c → WellFormed C c

/-- The call sends no command and ends in an error. -/
def Refused (exchange : APDUCommand → Req) (call : Call Req Resp ε α) : Prop :=
  (call.Only fun q => ∀ c, q ≠ exchange c) ∧ call.Ends fun o => ∃ e, o = .err e

/-- A call that sends a path as the data of one command: its commands are well-formed, and a path
    that does not fit is refused. -/
structure SendsPath (C : Crates) (exchange : APDUCommand → Req) (path : C.BIP32Path)
    (call : Call Req Resp ε α) : Prop where
  wellFormed : IssuesWellFormed C exchange call
  refused : 255 < 4 * (C.depth path).toNat → Refused exchange call

end

/-- Opening the transport sends no command. -/
theorem only_getTransport_bind {α : Type} (P : HidReq → Prop) (f : Unit → HidCall C α) :
    ((Hid.getTransport : HidCall C Unit) >>= f).Only P ↔
      P .hidApiNew ∧ P .transportNew ∧ (f ()).Only P := by
  constructor
  · rintro ⟨hnew, hrest⟩
    obtain ⟨htransport, hf⟩ := hrest (.ok ())
    exact ⟨hnew, htransport, hf (.ok ())⟩
  · rintro ⟨hnew, htransport, hf⟩
    refine ⟨hnew, fun reply => ?_⟩
    cases reply with
    | error e => trivial
    | ok u =>
        refine ⟨htransport, fun reply => ?_⟩
        cases reply with
        | error e => trivial
        | ok u => exact hf

/-! ## Public keys and wallet ids -/

/-- The command that carries a path by itself. -/
def pathCommand (ins p1 : UInt8) (indices : List UInt32) : APDUCommand :=
  { cla := cla
    ins := ins
    p1 := p1
    p2 := networkId
    data := indices.flatMap Bytes.u32ToBeBytes }

/-- It has four bytes of data for each index. -/
theorem wellFormed_pathCommand_iff (hA : C.ApduDoc) {path : C.BIP32Path} {indices : List UInt32}
    (hpath : pathIndices path = some indices) (ins p1 : UInt8) :
    WellFormed C (pathCommand ins p1 indices) ↔ (C.depth path).toNat ≤ 63 := by
  rw [wellFormed_iff hA, pathCommand, Bytes.length_flatMap_u32ToBeBytes, length_pathIndices hpath]
  omega

/-- What the HID functions do with the command. -/
def sendPathCommand (command : APDUCommand) : HidCall C C.VerifyingKey := do
  Hid.getTransport
  (Wire.hid C).command command keyOf

/-- What the BLE functions do with it. -/
def sendPathCommandBle (command : APDUCommand) : BleCall C C.VerifyingKey :=
  (Wire.ble C).command command keyOf

section

variable {Req E : Type} {Resp : Req → Type} {w : Wire C Resp E} (hw : Function.Injective w.exchange)

include hw

/-- A command that is answered with a key is the only one. -/
theorem issuesWellFormed_command_iff {c : APDUCommand} :
    IssuesWellFormed C w.exchange (w.command c keyOf) ↔ WellFormed C c := by
  constructor
  · intro h
    exact h.1 c rfl
  · intro h
    refine Wire.only_command (fun c' hc' => ?_) (only_keyOf _)
    obtain rfl := hw hc'
    exact h

end

/-- A call of which the command for the path decides sends it whatever the depth is, so it is right
    up to 63 indices. -/
theorem sendsPath_iff {Req : Type} {Resp : Req → Type} {exchange : APDUCommand → Req}
    (hA : C.ApduDoc) {path : C.BIP32Path} {indices : List UInt32}
    (hpath : pathIndices path = some indices) {ins p1 : UInt8}
    {call : Call Req Resp (NEARLedgerError C) C.VerifyingKey}
    (hcall : IssuesWellFormed C exchange call ↔ WellFormed C (pathCommand ins p1 indices)) :
    SendsPath C exchange path call ↔ (C.depth path).toNat ≤ 63 := by
  rw [← wellFormed_pathCommand_iff hA hpath ins p1, ← hcall]
  refine ⟨SendsPath.wellFormed, fun hissues => ?_⟩
  have hdepth := (wellFormed_pathCommand_iff hA hpath ins p1).mp (hcall.mp hissues)
  exact { wellFormed := hissues, refused := fun hlong => by omega }

theorem hid_exchange_injective : Function.Injective (Wire.hid C).exchange :=
  fun _ _ h => HidReq.exchange.inj h

theorem ble_exchange_injective : Function.Injective (Wire.ble C).exchange :=
  fun _ _ h => h

theorem sendsPath_hid_iff (hA : C.ApduDoc) {path : C.BIP32Path} {indices : List UInt32}
    (hpath : pathIndices path = some indices) (ins p1 : UInt8) :
    SendsPath C HidReq.exchange path
        (sendPathCommand (pathCommand ins p1 indices) : HidCall C C.VerifyingKey) ↔
      (C.depth path).toNat ≤ 63 := by
  refine @sendsPath_iff C _ _ HidReq.exchange hA path indices hpath ins p1 _ ?_
  rw [← issuesWellFormed_command_iff (@hid_exchange_injective C), sendPathCommand, IssuesWellFormed,
    only_getTransport_bind]
  exact ⟨fun h => h.2.2, fun h => ⟨by simp, by simp, h⟩⟩

theorem sendsPath_ble_iff (hA : C.ApduDoc) {path : C.BIP32Path} {indices : List UInt32}
    (hpath : pathIndices path = some indices) (ins p1 : UInt8) :
    SendsPath C (fun c => c) path
        (sendPathCommandBle (pathCommand ins p1 indices) : BleCall C C.VerifyingKey) ↔
      (C.depth path).toNat ≤ 63 :=
  sendsPath_iff hA hpath (issuesWellFormed_command_iff (@ble_exchange_injective C))

/-! ### The functions of the source -/

section

variable {path : C.BIP32Path} {indices : List UInt32} (hpath : pathIndices path = some indices)

include hpath

theorem getPublicKeyWithDisplayFlag_eq (displayAndConfirm : Bool) :
    Hid.getPublicKeyWithDisplayFlag path displayAndConfirm =
      sendPathCommand (pathCommand insGetPublicKey
        (if displayAndConfirm then p1GetPubDisplay else p1GetPubSilent) indices) := by
  rw [Hid.getPublicKeyWithDisplayFlag, hdPathToBytes_eq_some hpath, sendPathCommand]
  refine Wire.getTransport_exchange_eq_command fun reply => ?_
  cases reply with
  | error err => rfl
  | ok response => exact handlePublicKeyResponse_eq response

theorem getWalletId_eq :
    Hid.getWalletId path = sendPathCommand (pathCommand insGetWalletId 0 indices) := by
  rw [Hid.getWalletId, hdPathToBytes_eq_some hpath, sendPathCommand]
  refine Wire.getTransport_exchange_eq_command fun reply => ?_
  cases reply with
  | error err => rfl
  | ok response => exact handlePublicKeyResponse_eq response

theorem getPublicKeyWithDisplayFlagBle_eq (displayAndConfirm : Bool) :
    BleApi.getPublicKeyWithDisplayFlagBle path displayAndConfirm =
      sendPathCommandBle (pathCommand insGetPublicKey
        (if displayAndConfirm then p1GetPubDisplay else p1GetPubSilent) indices) := by
  rw [BleApi.getPublicKeyWithDisplayFlagBle, hdPathToBytes_eq_some hpath]
  refine (Wire.ble C).ask_bind_eq_command fun reply => ?_
  cases reply with
  | error err => rfl
  | ok response => exact handlePublicKeyResponseBle_eq response

theorem getWalletIdBle_eq :
    BleApi.getWalletIdBle path = sendPathCommandBle (pathCommand insGetWalletId 0 indices) := by
  rw [BleApi.getWalletIdBle, hdPathToBytes_eq_some hpath]
  refine (Wire.ble C).ask_bind_eq_command fun reply => ?_
  cases reply with
  | error err => rfl
  | ok response => exact handlePublicKeyResponseBle_eq response

end

/-! ## Signing -/

/-- The loop over the chunks issues their commands and no others. -/
theorem only_signingLoop {Req E : Type} {Resp : Req → Type} {w : Wire C Resp E} {P : Req → Prop}
    {ins : UInt8} {cs : List Bytes} (h : ∀ c ∈ commandsOf ins cs, P (w.exchange c)) :
    (w.signingLoop ins cs).Only P := by
  induction cs with
  | nil => trivial
  | cons chunk rest ih =>
      have hrest := ih fun c hc => h c (List.mem_cons_of_mem _ hc)
      rw [Wire.signingLoop]
      refine Wire.only_command (h _ List.mem_cons_self) fun response => ?_
      split
      · trivial
      · exact hrest

/-- Its chunks have at most 250 bytes. -/
theorem issuesWellFormed_signingLoop (hA : C.ApduDoc) {Req E : Type} {Resp : Req → Type}
    {w : Wire C Resp E} (hw : Function.Injective w.exchange) (ins : UInt8) (data : Bytes) :
    IssuesWellFormed C w.exchange (w.signingLoop ins (chunks chunkSize data)) := by
  refine only_signingLoop fun c hc c' hc' => ?_
  obtain rfl := hw hc'
  have hlen := (mem_signingCommands hc).2.2.2.2
  exact (wellFormed_iff hA c).mpr (by omega)

theorem issuesWellFormed_sendPayloadApdus (hA : C.ApduDoc) {path : C.BIP32Path}
    {indices : List UInt32} (hpath : pathIndices path = some indices) (payload : Bytes)
    (ins : UInt8) :
    IssuesWellFormed C HidReq.exchange (Hid.sendPayloadApdus payload path ins) := by
  rw [sendPayloadApdus_eq hpath, IssuesWellFormed, only_getTransport_bind]
  exact ⟨by simp, by simp, issuesWellFormed_signingLoop hA hid_exchange_injective ins _⟩

theorem issuesWellFormed_sendPayloadApdusBle (hA : C.ApduDoc) {path : C.BIP32Path}
    {indices : List UInt32} (hpath : pathIndices path = some indices) (payload : Bytes)
    (ins : UInt8) :
    IssuesWellFormed C (fun c => c) (BleApi.sendPayloadApdusBle payload path ins) := by
  rw [sendPayloadApdusBle_eq hpath, loopBle_eq]
  exact issuesWellFormed_signingLoop hA ble_exchange_injective ins _

/-! ## All of them -/

/-- The functions that send a path by itself do it right exactly for paths of at most 63 indices; the
    signing functions issue well-formed commands for every path and payload. -/
theorem hdPath_commands_wellFormed_iff (hA : C.ApduDoc) (hP : C.PathDoc) (path : C.BIP32Path)
    (displayAndConfirm : Bool) (payload : Bytes) (ins : UInt8) :
    (SendsPath C HidReq.exchange path (Hid.getPublicKeyWithDisplayFlag path displayAndConfirm) ↔
        (C.depth path).toNat ≤ 63) ∧
      (SendsPath C HidReq.exchange path (Hid.getWalletId path) ↔ (C.depth path).toNat ≤ 63) ∧
      (SendsPath C (fun c => c) path
          (BleApi.getPublicKeyWithDisplayFlagBle path displayAndConfirm) ↔
        (C.depth path).toNat ≤ 63) ∧
      (SendsPath C (fun c => c) path (BleApi.getWalletIdBle path) ↔ (C.depth path).toNat ≤ 63) ∧
      IssuesWellFormed C HidReq.exchange (Hid.sendPayloadApdus payload path ins) ∧
      IssuesWellFormed C (fun c => c) (BleApi.sendPayloadApdusBle payload path ins) := by
  obtain ⟨indices, hpath⟩ := pathIndices_eq_some hP path
  rw [getPublicKeyWithDisplayFlag_eq hpath, getWalletId_eq hpath,
    getPublicKeyWithDisplayFlagBle_eq hpath, getWalletIdBle_eq hpath]
  exact ⟨sendsPath_hid_iff hA hpath _ _, sendsPath_hid_iff hA hpath _ _,
    sendsPath_ble_iff hA hpath _ _, sendsPath_ble_iff hA hpath _ _,
    issuesWellFormed_sendPayloadApdus hA hpath payload ins,
    issuesWellFormed_sendPayloadApdusBle hA hpath payload ins⟩

theorem hdPath_commands_wellFormed_iff_one :
    SendsPath Crates.reference HidReq.exchange (Crates.pathOne 44)
      (Hid.getPublicKeyWithDisplayFlag (Crates.pathOne 44) true) :=
  (hdPath_commands_wellFormed_iff Crates.reference_apduDoc Crates.reference_pathDoc
    (Crates.pathOne 44) true [] 0).1.mpr (by decide)

/-- A path of 64 indices. -/
def path64 : Crates.reference.BIP32Path :=
  Crates.pathOf (List.replicate 64 0)

theorem pathIndices_path64 : pathIndices path64 = some (List.replicate 64 0) := by decide

/-- Its 256 bytes are sent behind a length byte of 0, and read back as a command without data. -/
theorem getPublicKey_lengthByte_wraps :
    ∃ c : APDUCommand, c.data.length = 256 ∧
      Hid.getPublicKeyWithDisplayFlag path64 true = sendPathCommand c ∧
      decodeApdu (Crates.reference.serialize c) = some ({ c with data := [] }, c.data) ∧
      ¬ SendsPath Crates.reference HidReq.exchange path64
        (Hid.getPublicKeyWithDisplayFlag path64 true) := by
  have hpath := pathIndices_path64
  have hlen :
      (pathCommand insGetPublicKey p1GetPubDisplay (List.replicate 64 0)).data.length = 256 := by
    rw [pathCommand, Bytes.length_flatMap_u32ToBeBytes, List.length_replicate]
  refine ⟨_, hlen, getPublicKeyWithDisplayFlag_eq hpath true, ?_, ?_⟩
  · rw [decodeApdu_serialize Crates.reference_apduDoc, hlen]
    rfl
  · rw [getPublicKeyWithDisplayFlag_eq hpath, sendsPath_hid_iff Crates.reference_apduDoc hpath]
    decide

end NearLedger
