/-
  NearLedger.Hid

  The functions of `lib.rs`, over USB HID.  A function is a `Call` that issues
  the requests it makes of the transport crates: `HidApi::new`,
  `TransportNativeHID::new` and `exchange`.  Logging and the one-second sleep
  after quitting an application are left out; they decide nothing.
-/

import NearLedger.Errors
import NearLedger.HdPath
import NearLedger.Lib.Interaction
import NearLedger.Lib.Slices
import NearLedger.Lib.Utf8

namespace NearLedger

open Interaction Slices

/-- What the HID functions ask of the transport crates. -/
inductive HidReq where
  | hidApiNew
  | transportNew
  | exchange (command : APDUCommand)
  deriving DecidableEq

/-- The type of the reply to each request. -/
@[reducible] def HidReq.Reply (C : Crates) : HidReq → Type
  | .hidApiNew => Except C.HidError Unit
  | .transportNew => Except C.LedgerHIDError Unit
  | .exchange _ => Except C.LedgerHIDError C.APDUAnswer

/-- A function of `lib.rs`. -/
abbrev HidCall (C : Crates) := Call HidReq (HidReq.Reply C) (NEARLedgerError C)

namespace Hid

variable {C : Crates}

/-- `HidApi::new()`. -/
def hidApiNew : HidCall C (HidReq.Reply C .hidApiNew) := Call.ask HidReq.hidApiNew

/-- `TransportNativeHID::new(&hidapi)`. -/
def transportNew : HidCall C (HidReq.Reply C .transportNew) := Call.ask HidReq.transportNew

/-- `transport.exchange(&command)`. -/
def exchange (command : APDUCommand) : HidCall C (HidReq.Reply C (.exchange command)) :=
  Call.ask (HidReq.exchange command)

/-- `get_transport`. -/
def getTransport : HidCall C Unit := do
  match ← hidApiNew with
  | .error e => Call.throw (.hidApiError e)
  | .ok () =>
      match ← transportNew with
      | .error e => Call.throw (.ledgerHidError e)
      | .ok () => pure ()

/-! ## Version, application -/

/-- `get_version`. -/
def getVersion : HidCall C Bytes := do
  getTransport
  match ← exchange { cla := cla, ins := insGetVersion, p1 := 0, p2 := 0, data := [] } with
  | .ok response =>
      if C.retcode response = returnCodeOk then pure (C.answerData response)
      else Call.throw (.apduExchangeError (retcodeToErrorString (C.retcode response)))
  | .error err => Call.throw (.ledgerHIDError err)

/-- `running_app_name`. -/
def runningAppName : HidCall C String := do
  getTransport
  match ← exchange { cla := claDashboard, ins := insGetAppName, p1 := 0, p2 := 0, data := [] } with
  | .ok response =>
      if C.retcode response = returnCodeOk then
        -- Output format: format u8, ascii name length u8, name in ascii
        let data := C.answerData response
        let appNameLen ← Call.orPanic data[1]?
        let appName ← Call.orPanic (slice data 2 (2 + appNameLen.toNat))
        pure (Utf8.fromUtf8Lossy appName)
      else if C.retcode response = returnCodeUnknownError then
        Call.throw (.apduExchangeError
          "The ledger most likely is locked. Please unlock ledger or reconnect it")
      else Call.throw (.apduExchangeError (retcodeToErrorString (C.retcode response)))
  | .error err => Call.throw (.ledgerHIDError err)

/-- `quit_open_application`. -/
def quitOpenApplication : HidCall C Unit := do
  getTransport
  match ← exchange { cla := claDashboard, ins := insQuitApp, p1 := 0, p2 := 0, data := [] } with
  | .ok response =>
      if C.retcode response = returnCodeOk then pure ()
      else Call.throw (.apduExchangeError (retcodeToErrorString (C.retcode response)))
  | .error err => Call.throw (.ledgerHIDError err)

/-- The part of `open_near_application` after the application to replace is closed. -/
def openApplication : HidCall C Unit := do
  getTransport
  -- b"NEAR"
  match ← exchange
      { cla := claOpenApp, ins := insOpenApp, p1 := 0, p2 := 0, data := [0x4E, 0x45, 0x41, 0x52] } with
  | .ok response =>
      if C.retcode response = returnCodeOk then pure ()
      else Call.throw (.apduExchangeError (retcodeToErrorString (C.retcode response)))
  | .error err => Call.throw (.ledgerHIDError err)

/-- `open_near_application`. -/
def openNearApplication : HidCall C Unit := do
  let name ← runningAppName
  if name = "NEAR" then pure ()
  -- BOLOS is a ledger dashboard
  else if name = "BOLOS" then openApplication
  else do
    quitOpenApplication
    openApplication

/-! ## Public keys -/

/-- `handle_public_key_response`. -/
def handlePublicKeyResponse (response : C.APDUAnswer) : HidCall C C.VerifyingKey :=
  if C.retcode response = returnCodeOk then
    let data := C.answerData response
    if data.length ≠ publicKeyLength then
      Call.throw (.apduExchangeError ("`" ++ C.hexEncode data ++
        "` response obtained of invalid length " ++ toString data.length ++ " != " ++
        toString publicKeyLength ++ " (expected)"))
    else
      match C.verifyingKeyFromBytes data with
      | .ok key => pure key
      | .error err => Call.throw (.apduExchangeError
          ("problem constructing `ed25519_dalek::VerifyingKey` from received byte array: " ++
            C.hexEncode data ++ ", err: " ++ C.debugSignatureError err))
  else Call.throw (.apduExchangeError (retcodeToErrorString (C.retcode response)))

/-- `get_public_key_with_display_flag`. -/
def getPublicKeyWithDisplayFlag (hdPath : C.BIP32Path) (displayAndConfirm : Bool) :
    HidCall C C.VerifyingKey := do
  getTransport
  let hdPathBytes ← Call.orPanic (hdPathToBytes hdPath)
  let p1 := if displayAndConfirm then p1GetPubDisplay else p1GetPubSilent
  match ← exchange
      { cla := cla, ins := insGetPublicKey, p1 := p1, p2 := networkId, data := hdPathBytes } with
  | .ok response => handlePublicKeyResponse response
  | .error err => Call.throw (.ledgerHIDError err)

/-- `get_public_key`. -/
def getPublicKey (hdPath : C.BIP32Path) : HidCall C C.VerifyingKey :=
  getPublicKeyWithDisplayFlag hdPath true

/-- `get_wallet_id`. -/
def getWalletId (hdPath : C.BIP32Path) : HidCall C C.VerifyingKey := do
  getTransport
  let hdPathBytes ← Call.orPanic (hdPathToBytes hdPath)
  match ← exchange
      { cla := cla, ins := insGetWalletId, p1 := 0, p2 := networkId, data := hdPathBytes } with
  | .ok response => handlePublicKeyResponse response
  | .error err => Call.throw (.ledgerHIDError err)

/-! ## Signing -/

/-- The `for` loop of `send_payload_apdus`, over the chunks with their indices. -/
def sendChunks (ins : UInt8) (chunksCount : Nat) : List (Bytes × Nat) → HidCall C Bytes
  | [] => Call.throw (.apduExchangeError "Unable to process request")
  | (chunk, i) :: rest => do
      let isLastChunk := decide (chunksCount = i + 1)
      let command : APDUCommand :=
        { cla := cla
          ins := ins
          p1 := if isLastChunk then p1SignNormalLastChunk else p1SignNormal
          p2 := networkId
          data := chunk }
      match ← exchange command with
      | .ok response =>
          if C.retcode response = returnCodeOk then
            if isLastChunk then pure (C.answerData response)
            else sendChunks ins chunksCount rest
          else Call.throw (.apduExchangeError (retcodeToErrorString (C.retcode response)))
      | .error err => Call.throw (.ledgerHIDError err)

/-- `send_payload_apdus`. -/
def sendPayloadApdus (payload : Bytes) (seedPhraseHdPath : C.BIP32Path) (ins : UInt8) :
    HidCall C Bytes := do
  getTransport
  let hdPathBytes ← Call.orPanic (hdPathToBytes seedPhraseHdPath)
  let data := hdPathBytes ++ payload
  let chunks := chunks chunkSize data
  sendChunks ins chunks.length chunks.zipIdx

/-- `sign_transaction`. -/
def signTransaction (unsignedTx : Bytes) (seedPhraseHdPath : C.BIP32Path) : HidCall C Bytes :=
  sendPayloadApdus unsignedTx seedPhraseHdPath insSignTransaction

/-- `sign_message_nep413`. -/
def signMessageNep413 (payload : NEP413Payload) (seedPhraseHdPath : C.BIP32Path) :
    HidCall C Bytes := do
  let payload ← Call.orPanic (C.borshToVec payload)
  sendPayloadApdus payload seedPhraseHdPath insSignNep413Message

/-- `sign_message_nep366_delegate_action`. -/
def signMessageNep366DelegateAction (payload : Bytes) (seedPhraseHdPath : C.BIP32Path) :
    HidCall C Bytes :=
  sendPayloadApdus payload seedPhraseHdPath insSignNep366DelegateAction

end Hid

end NearLedger
