/-
  NearLedger.BleApi

  The functions of `ble_api.rs`, which mirror those of `lib.rs` over a
  `TransportBle`.  The only request they make is `TransportBle::exchange`; how
  it is carried out in packets is in `NearLedger.Ble`.
-/

import NearLedger.Errors
import NearLedger.HdPath
import NearLedger.Lib.Interaction
import NearLedger.Lib.Slices
import NearLedger.Lib.Utf8

namespace NearLedger

open Interaction Slices

/-- The reply to `exchange`. -/
abbrev BleReply (C : Crates) : APDUCommand → Type := fun _ => Except (BleError C) C.APDUAnswer

/-- A function of `ble_api.rs`. -/
abbrev BleCall (C : Crates) := Call APDUCommand (BleReply C) (NEARLedgerError C)

namespace BleApi

variable {C : Crates}

/-- `transport.exchange(&command).await`. -/
def exchange (command : APDUCommand) : BleCall C (Except (BleError C) C.APDUAnswer) :=
  Call.ask command

/-! ## Version, application -/

/-- `get_version_ble`. -/
def getVersionBle : BleCall C Bytes := do
  match ← exchange { cla := cla, ins := insGetVersion, p1 := 0, p2 := 0, data := [] } with
  | .ok response =>
      if C.retcode response = returnCodeOk then pure (C.answerData response)
      else Call.throw (.apduExchangeError (retcodeToErrorString (C.retcode response)))
  | .error err => Call.throw (.ofBleError err)

/-- `running_app_name_ble`. -/
def runningAppNameBle : BleCall C String := do
  match ← exchange { cla := claDashboard, ins := insGetAppName, p1 := 0, p2 := 0, data := [] } with
  | .ok response =>
      if C.retcode response = returnCodeOk then
        let data := C.answerData response
        if data.length < 2 then
          Call.throw (.apduExchangeError "App name response too short")
        else do
          let appNameLen ← Call.orPanic data[1]?
          if data.length < 2 + appNameLen.toNat then
            Call.throw (.apduExchangeError "App name response truncated")
          else do
            let appName ← Call.orPanic (slice data 2 (2 + appNameLen.toNat))
            pure (Utf8.fromUtf8Lossy appName)
      else if C.retcode response = returnCodeUnknownError then
        Call.throw (.apduExchangeError
          "The ledger most likely is locked. Please unlock ledger or reconnect it")
      else Call.throw (.apduExchangeError (retcodeToErrorString (C.retcode response)))
  | .error err => Call.throw (.ofBleError err)

/-- `quit_open_application_ble`. -/
def quitOpenApplicationBle : BleCall C Unit := do
  match ← exchange { cla := claDashboard, ins := insQuitApp, p1 := 0, p2 := 0, data := [] } with
  | .ok response =>
      if C.retcode response = returnCodeOk then pure ()
      else Call.throw (.apduExchangeError (retcodeToErrorString (C.retcode response)))
  | .error err => Call.throw (.ofBleError err)

/-- The part of `open_near_application_ble` after the application to replace is closed. -/
def openApplicationBle : BleCall C Unit := do
  -- b"NEAR"
  match ← exchange
      { cla := claOpenApp, ins := insOpenApp, p1 := 0, p2 := 0, data := [0x4E, 0x45, 0x41, 0x52] } with
  | .ok response =>
      if C.retcode response = returnCodeOk then pure ()
      else Call.throw (.apduExchangeError (retcodeToErrorString (C.retcode response)))
  | .error err => Call.throw (.ofBleError err)

/-- `open_near_application_ble`. -/
def openNearApplicationBle : BleCall C Unit := do
  let name ← runningAppNameBle
  if name = "NEAR" then pure ()
  else if name = "BOLOS" then openApplicationBle
  else do
    quitOpenApplicationBle
    openApplicationBle

/-! ## Public keys -/

/-- `handle_public_key_response_ble`. -/
def handlePublicKeyResponseBle (response : C.APDUAnswer) : BleCall C C.VerifyingKey :=
  if C.retcode response = returnCodeOk then
    let data := C.answerData response
    if data.length ≠ publicKeyLength then
      Call.throw (.apduExchangeError ("`" ++ C.hexEncode data ++
        "` response obtained of invalid length " ++ toString data.length ++ " != " ++
        toString publicKeyLength ++ " (expected)"))
    else
      match C.verifyingKeyFromBytes data with
      | .ok key => pure key
      | .error err => Call.throw (.apduExchangeError
          ("problem constructing `ed25519_dalek::VerifyingKey` from received byte array: " ++
            C.hexEncode data ++ ", err: " ++ C.debugSignatureError err))
  else Call.throw (.apduExchangeError (retcodeToErrorString (C.retcode response)))

/-- `get_public_key_with_display_flag_ble`. -/
def getPublicKeyWithDisplayFlagBle (hdPath : C.BIP32Path) (displayAndConfirm : Bool) :
    BleCall C C.VerifyingKey := do
  let hdPathBytes ← Call.orPanic (hdPathToBytes hdPath)
  let p1 := if displayAndConfirm then p1GetPubDisplay else p1GetPubSilent
  match ← exchange
      { cla := cla, ins := insGetPublicKey, p1 := p1, p2 := networkId, data := hdPathBytes } with
  | .ok response => handlePublicKeyResponseBle response
  | .error err => Call.throw (.ofBleError err)

/-- `get_public_key_ble`. -/
def getPublicKeyBle (hdPath : C.BIP32Path) : BleCall C C.VerifyingKey :=
  getPublicKeyWithDisplayFlagBle hdPath true

/-- `get_wallet_id_ble`. -/
def getWalletIdBle (hdPath : C.BIP32Path) : BleCall C C.VerifyingKey := do
  let hdPathBytes ← Call.orPanic (hdPathToBytes hdPath)
  match ← exchange
      { cla := cla, ins := insGetWalletId, p1 := 0, p2 := networkId, data := hdPathBytes } with
  | .ok response => handlePublicKeyResponseBle response
  | .error err => Call.throw (.ofBleError err)

/-! ## Signing -/

/-- The `for` loop of `send_payload_apdus_ble`, over the chunks with their indices. -/
def sendChunksBle (ins : UInt8) (chunksCount : Nat) : List (Bytes × Nat) → BleCall C Bytes
  | [] => Call.throw (.apduExchangeError "Unable to process request")
  | (chunk, i) :: rest => do
      let isLastChunk := decide (chunksCount = i + 1)
      let command : APDUCommand :=
        { cla := cla
          ins := ins
          p1 := if isLastChunk then p1SignNormalLastChunk else p1SignNormal
          p2 := networkId
          data := chunk }
      match ← exchange command with
      | .ok response =>
          if C.retcode response = returnCodeOk then
            if isLastChunk then pure (C.answerData response)
            else sendChunksBle ins chunksCount rest
          else Call.throw (.apduExchangeError (retcodeToErrorString (C.retcode response)))
      | .error err => Call.throw (.ofBleError err)

/-- `send_payload_apdus_ble`. -/
def sendPayloadApdusBle (payload : Bytes) (seedPhraseHdPath : C.BIP32Path) (ins : UInt8) :
    BleCall C Bytes := do
  let hdPathBytes ← Call.orPanic (hdPathToBytes seedPhraseHdPath)
  let data := hdPathBytes ++ payload
  let chunks := chunks chunkSize data
  sendChunksBle ins chunks.length chunks.zipIdx

/-- `sign_transaction_ble`. -/
def signTransactionBle (unsignedTx : Bytes) (seedPhraseHdPath : C.BIP32Path) : BleCall C Bytes :=
  sendPayloadApdusBle unsignedTx seedPhraseHdPath insSignTransaction

/-- `sign_message_nep413_ble`. -/
def signMessageNep413Ble (payload : NEP413Payload) (seedPhraseHdPath : C.BIP32Path) :
    BleCall C Bytes := do
  let payload ← Call.orPanic (C.borshToVec payload)
  sendPayloadApdusBle payload seedPhraseHdPath insSignNep413Message

/-- `sign_message_nep366_delegate_action_ble`. -/
def signMessageNep366DelegateActionBle (payload : Bytes) (seedPhraseHdPath : C.BIP32Path) :
    BleCall C Bytes :=
  sendPayloadApdusBle payload seedPhraseHdPath insSignNep366DelegateAction

end BleApi

end NearLedger
