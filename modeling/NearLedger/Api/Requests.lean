/-
  NearLedger.Api.Requests

  The public functions of the crate as requests, each carried out by a function
  of `lib.rs` and by its mirror in `ble_api.rs`.  Against one device the two
  issue the same commands and end alike, a panic included, except that opening
  the application panics over HID alone when the app name is malformed
  (`api_agrees`).
-/

import NearLedger.Lib.Handlers
import NearLedger.OpenApplication
import NearLedger.Signing.Calls
import NearLedger.WellFormed

namespace NearLedger

open Interaction Slices

/-- A call of a public function, by its arguments. -/
inductive ApiRequest (C : Crates) where
  | getVersion
  | openNearApplication
  | getPublicKey (hdPath : C.BIP32Path)
  | getPublicKeyWithDisplayFlag (hdPath : C.BIP32Path) (displayAndConfirm : Bool)
  | getWalletId (hdPath : C.BIP32Path)
  | sign (request : Request C)

namespace ApiRequest

variable {C : Crates}

/-- What the function returns. -/
@[reducible] def Value : ApiRequest C → Type
  | getVersion => Bytes
  | openNearApplication => Unit
  | getPublicKey _ => C.VerifyingKey
  | getPublicKeyWithDisplayFlag _ _ => C.VerifyingKey
  | getWalletId _ => C.VerifyingKey
  | sign _ => Bytes

/-- The function of `lib.rs`. -/
def hid : (q : ApiRequest C) → HidCall C q.Value
  | getVersion => Hid.getVersion
  | openNearApplication => Hid.openNearApplication
  | getPublicKey hdPath => Hid.getPublicKey hdPath
  | getPublicKeyWithDisplayFlag hdPath displayAndConfirm =>
      Hid.getPublicKeyWithDisplayFlag hdPath displayAndConfirm
  | getWalletId hdPath => Hid.getWalletId hdPath
  | sign request => request.hid

/-- The function of `ble_api.rs`. -/
def ble : (q : ApiRequest C) → BleCall C q.Value
  | getVersion => BleApi.getVersionBle
  | openNearApplication => BleApi.openNearApplicationBle
  | getPublicKey hdPath => BleApi.getPublicKeyBle hdPath
  | getPublicKeyWithDisplayFlag hdPath displayAndConfirm =>
      BleApi.getPublicKeyWithDisplayFlagBle hdPath displayAndConfirm
  | getWalletId hdPath => BleApi.getWalletIdBle hdPath
  | sign request => request.ble

end ApiRequest

variable {C : Crates} {F α : Type}

/-! ## Functions that agree -/

/-- Against the device, the two functions issue the same commands and end alike: with the same
    value, with errors of one cause, or with a panic. -/
def Agrees (view : FailureView C F) (dev : Device C F) (hid : HidCall C α) (ble : BleCall C α) :
    Prop :=
  ∃ (cmds : List APDUCommand) (o : Outcome (Cause F) α),
    exchanged (Call.run (hidEnv view dev) [] hid).1 = cmds ∧
      (Call.run (hidEnv view dev) [] hid).2 = o.mapErr (Cause.hid view) ∧
      Call.run (bleEnv view dev) [] ble = (cmds, o.mapErr (Cause.ble view))

/-- A result as an outcome. -/
def outcomeOf : Except (Cause F) α → Outcome (Cause F) α
  | .ok a => .ok a
  | .error cause => .err cause

theorem report_eq (toError : Cause F → NEARLedgerError C) (r : Except (Cause F) α) :
    report toError r = (outcomeOf r).mapErr toError := by
  cases r <;> rfl

variable {view : FailureView C F} {dev : Device C F}

theorem agrees_of_report {hid : HidCall C α} {ble : BleCall C α} {cmds : List APDUCommand}
    {r : Except (Cause F) α} (hcmds : exchanged (Call.run (hidEnv view dev) [] hid).1 = cmds)
    (hhid : (Call.run (hidEnv view dev) [] hid).2 = report (Cause.hid view) r)
    (hble : Call.run (bleEnv view dev) [] ble = (cmds, report (Cause.ble view) r)) :
    Agrees view dev hid ble := by
  rw [report_eq] at hhid hble
  exact ⟨cmds, outcomeOf r, hcmds, hhid, hble⟩

/-- Functions that panic before they send anything. -/
theorem agrees_of_panic {hid : HidCall C α} {ble : BleCall C α}
    (hcmds : exchanged (Call.run (hidEnv view dev) [] hid).1 = [])
    (hhid : (Call.run (hidEnv view dev) [] hid).2 = .panicked)
    (hble : Call.run (bleEnv view dev) [] ble = ([], .panicked)) : Agrees view dev hid ble :=
  ⟨[], .panicked, hcmds, hhid, hble⟩

/-- Functions that issue one command, and that end alike after a response of `0x9000`. -/
theorem agrees_of_command (command : APDUCommand) {g : C.APDUAnswer → HidCall C α}
    {g' : C.APDUAnswer → BleCall C α}
    (hends : ∀ response, ∃ o : Outcome (Cause F) α,
      g response = .ret (o.mapErr (Cause.hid view)) ∧
        g' response = .ret (o.mapErr (Cause.ble view))) :
    Agrees view dev (do Hid.getTransport; (Wire.hid C).command command g)
      ((Wire.ble C).command command g') := by
  have hhid : ∀ {qs : List HidReq} {o : Outcome (NEARLedgerError C) α},
      Call.run (hidEnv view dev) [.hidApiNew, .transportNew] ((Wire.hid C).command command g) =
        (qs, o) →
      Call.run (hidEnv view dev) [] (do Hid.getTransport; (Wire.hid C).command command g) =
        ([.hidApiNew, .transportNew] ++ qs, o) := by
    intro qs o h
    rw [Call.run_bind, run_getTransport]
    dsimp only
    rw [List.nil_append, h]
  by_cases hs : Succeeds (dev [command])
  · obtain ⟨response, hreply, hok⟩ := hs
    obtain ⟨o, hg, hg'⟩ := hends response
    have hrun := (hidEnv_reaches view dev).run_command_of_ok (g := g)
      (h := [.hidApiNew, .transportNew]) hreply hok
    have hrun' := (bleEnv_reaches view dev).run_command_of_ok (g := g') (h := []) hreply hok
    rw [hg] at hrun
    rw [hg'] at hrun'
    refine ⟨[command], o, ?_, ?_, hrun'⟩
    · rw [hhid hrun]
      rfl
    · rw [hhid hrun]
      rfl
  · have hrun := (hidEnv_reaches view dev).run_command_of_fails (g := g)
      (h := [.hidApiNew, .transportNew]) hs
    have hrun' := (bleEnv_reaches view dev).run_command_of_fails (g := g') (h := []) hs
    refine ⟨[command], .err (causeOf (dev [command])), ?_, ?_, hrun'⟩
    · rw [hhid hrun]
      rfl
    · rw [hhid hrun]
      rfl

/-! ## One command -/

def getVersionCommand : APDUCommand :=
  { cla := cla, ins := insGetVersion, p1 := 0, p2 := 0, data := [] }

theorem getVersion_eq :
    (Hid.getVersion : HidCall C Bytes) = (do
      Hid.getTransport
      (Wire.hid C).command getVersionCommand fun response => pure (C.answerData response)) := by
  rw [Hid.getVersion]
  refine Wire.getTransport_exchange_eq_command fun reply => ?_
  cases reply <;> rfl

theorem getVersionBle_eq :
    (BleApi.getVersionBle : BleCall C Bytes) =
      (Wire.ble C).command getVersionCommand fun response => pure (C.answerData response) := by
  refine (Wire.ble C).ask_bind_eq_command fun reply => ?_
  cases reply <;> rfl

theorem getVersion_agrees :
    Agrees view dev (Hid.getVersion : HidCall C Bytes) BleApi.getVersionBle := by
  rw [getVersion_eq, getVersionBle_eq]
  exact agrees_of_command _ fun response => ⟨.ok (C.answerData response), rfl, rfl⟩

/-- A public key, or an error about the data that names its cause. -/
theorem keyOf_eq_mapErr (response : C.APDUAnswer) :
    ∃ o : Outcome (Cause F) C.VerifyingKey,
      (keyOf response : HidCall C _) = .ret (o.mapErr (Cause.hid view)) ∧
        (keyOf response : BleCall C _) = .ret (o.mapErr (Cause.ble view)) := by
  rw [keyOf, keyOf]
  by_cases hlen : (C.answerData response).length ≠ publicKeyLength
  · rw [if_pos hlen, if_pos hlen]
    exact ⟨.err (.message _), rfl, rfl⟩
  · rw [if_neg hlen, if_neg hlen]
    cases C.verifyingKeyFromBytes (C.answerData response) with
    | ok key => exact ⟨.ok key, rfl, rfl⟩
    | error err => exact ⟨.err (.message _), rfl, rfl⟩

theorem sendPathCommand_agrees (command : APDUCommand) :
    Agrees view dev (sendPathCommand command : HidCall C C.VerifyingKey)
      (sendPathCommandBle command) :=
  agrees_of_command command keyOf_eq_mapErr

theorem getPublicKeyWithDisplayFlag_agrees (hdPath : C.BIP32Path) (displayAndConfirm : Bool) :
    Agrees view dev (Hid.getPublicKeyWithDisplayFlag hdPath displayAndConfirm)
      (BleApi.getPublicKeyWithDisplayFlagBle hdPath displayAndConfirm) := by
  cases hpath : pathIndices hdPath with
  | some indices =>
      rw [getPublicKeyWithDisplayFlag_eq hpath, getPublicKeyWithDisplayFlagBle_eq hpath]
      exact sendPathCommand_agrees _
  | none =>
      have hbytes : hdPathToBytes hdPath = none := by rw [hdPathToBytes, hpath, Option.map_none]
      rw [Hid.getPublicKeyWithDisplayFlag, BleApi.getPublicKeyWithDisplayFlagBle, hbytes]
      exact agrees_of_panic rfl rfl rfl

theorem getWalletId_agrees (hdPath : C.BIP32Path) :
    Agrees view dev (Hid.getWalletId hdPath) (BleApi.getWalletIdBle hdPath) := by
  cases hpath : pathIndices hdPath with
  | some indices =>
      rw [getWalletId_eq hpath, getWalletIdBle_eq hpath]
      exact sendPathCommand_agrees _
  | none =>
      have hbytes : hdPathToBytes hdPath = none := by rw [hdPathToBytes, hpath, Option.map_none]
      rw [Hid.getWalletId, BleApi.getWalletIdBle, hbytes]
      exact agrees_of_panic rfl rfl rfl

/-! ## Several commands -/

theorem sign_agrees (request : Request C) : Agrees view dev request.hid request.ble := by
  rw [Request.hid_eq, Request.ble_eq]
  cases request.payload with
  | none => exact agrees_of_panic rfl rfl rfl
  | some payload =>
      change Agrees view dev (Hid.sendPayloadApdus payload request.path request.ins)
        (BleApi.sendPayloadApdusBle payload request.path request.ins)
      cases hpath : pathIndices request.path with
      | some indices =>
          obtain ⟨hcmds, hend⟩ := run_sendPayloadApdus view dev hpath payload request.ins
          exact agrees_of_report hcmds hend
            (run_sendPayloadApdusBle view dev hpath payload request.ins)
      | none =>
          have hbytes : hdPathToBytes request.path = none := by
            rw [hdPathToBytes, hpath, Option.map_none]
          rw [Hid.sendPayloadApdus, BleApi.sendPayloadApdusBle, hbytes]
          exact agrees_of_panic rfl rfl rfl

theorem openNearApplication_agrees (hname : ¬ MalformedAppName dev) :
    Agrees view dev (Hid.openNearApplication : HidCall C Unit) BleApi.openNearApplicationBle := by
  obtain ⟨hcmds, hend⟩ := run_openNearApplication view dev hname
  exact agrees_of_report hcmds hend (run_openNearApplicationBle view dev)

/-- The two functions of a request agree; for opening the application this takes an app name that
    is not malformed. -/
theorem api_agrees (q : ApiRequest C) (h : q = .openNearApplication → ¬ MalformedAppName dev) :
    Agrees view dev q.hid q.ble := by
  cases q with
  | getVersion => exact getVersion_agrees
  | openNearApplication => exact openNearApplication_agrees (h rfl)
  | getPublicKey hdPath => exact getPublicKeyWithDisplayFlag_agrees hdPath true
  | getPublicKeyWithDisplayFlag hdPath displayAndConfirm =>
      exact getPublicKeyWithDisplayFlag_agrees hdPath displayAndConfirm
  | getWalletId hdPath => exact getWalletId_agrees hdPath
  | sign request => exact sign_agrees request

end NearLedger
