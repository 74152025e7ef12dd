/-
  NearLedger.Errors

  The constants of `lib.rs`, the error types and the texts of the return codes.
-/

import NearLedger.Crates

namespace NearLedger

/-! ## Constants -/

def cla : UInt8 := 0x80 -- Instruction class
def insGetPublicKey : UInt8 := 4
def insGetWalletId : UInt8 := 0x05
def insGetVersion : UInt8 := 6
def insSignTransaction : UInt8 := 2
def insSignNep413Message : UInt8 := 7
def insSignNep366DelegateAction : UInt8 := 8
def networkId : UInt8 := 0x57 -- b'W', instruction parameter 2
def returnCodeOk : UInt16 := 0x9000
def chunkSize : Nat := 250
def publicKeyLength : Nat := 32 -- ed25519_dalek::PUBLIC_KEY_LENGTH

-- Dashboard APDU constants (BOLOS / device-level commands)
def claDashboard : UInt8 := 0xB0
def insGetAppName : UInt8 := 0x01
def insQuitApp : UInt8 := 0xA7
def claOpenApp : UInt8 := 0xE0
def insOpenApp : UInt8 := 0xD8

def returnCodeAppMissing : UInt16 := 0x6807
def returnCodeErrorInput : UInt16 := 0x670A
def returnCodeUnknownError : UInt16 := 0x5515
def returnCodeDecline : UInt16 := 0x5501
def returnCodeClaNotSupported : UInt16 := 0x6E01
def returnCodeInsNotSupported : UInt16 := 0x6D00

def p1GetPubDisplay : UInt8 := 0
def p1GetPubSilent : UInt8 := 1

def p1SignNormal : UInt8 := 0
def p1SignNormalLastChunk : UInt8 := 0x80

/-! ## Errors -/

/-- `NEARLedgerError`. -/
inductive NEARLedgerError (C : Crates) where
  | hidApiError (e : C.HidError)
  | ledgerHidError (e : C.LedgerHIDError)
  | apduExchangeError (msg : String)
  | ledgerHIDError (e : C.LedgerHIDError)
  | bleError (msg : String)

/-- `BleError`. -/
inductive BleError (C : Crates) where
  | ble (err : C.BtleError)
  | deviceNotFound
  | invalidPacket
  | comm (msg : String)
  | timeout

/-- `impl Display for BleError`. -/
def BleError.display {C : Crates} : BleError C → String
  | ble err => "BLE error: " ++ C.displayBtleError err
  | deviceNotFound => "No Ledger device found via BLE"
  | invalidPacket => "Invalid BLE packet received from Ledger"
  | comm msg => "BLE communication error: " ++ msg
  | timeout => "Timeout waiting for Ledger BLE response"

/-- `impl From<BleError> for NEARLedgerError`. -/
def NEARLedgerError.ofBleError {C : Crates} (err : BleError C) : NEARLedgerError C :=
  .bleError err.display

/-- `{:X}`: upper-case hexadecimal digits. -/
def upperHex (n : Nat) : String :=
  String.ofList ((Nat.toDigits 16 n).map Char.toUpper)

/-- `retcode_to_error_string`. -/
def retcodeToErrorString (retcode : UInt16) : String :=
  if retcode = returnCodeOk then "Success"
  else if retcode = returnCodeClaNotSupported then
    "NEAR app is not open on the Ledger device (CLA not supported, 0x6E01)"
  else if retcode = returnCodeInsNotSupported then
    "Instruction not supported by the Ledger app (INS not supported, 0x6D00)"
  else if retcode = returnCodeAppMissing then
    "NEAR application is missing on the Ledger device (0x6807)"
  else if retcode = returnCodeErrorInput then
    "Internal error: the input length of bytes is not correct (0x670A)"
  else if retcode = returnCodeDecline then
    "User declined the request on the Ledger device (0x5501)"
  else if retcode = returnCodeUnknownError then
    "Unknown error from the Ledger device (0x5515)"
  else "Ledger APDU retcode: 0x" ++ upperHex retcode.toNat

end NearLedger
