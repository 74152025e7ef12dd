/-
  NearLedger.Api.FailStop

  What the public functions do with a reply that is not a success.  Over HID a
  command is only sent over a transport that has been opened for it.  Over both
  transports the first reply that is a failure is the last thing that a function
  has asked for, and its error is the one that is returned.
-/

import NearLedger.Api.Requests
import NearLedger.Lib.Monitor

namespace NearLedger

open Interaction Monitor Slices

variable {C : Crates} {α β : Type}

/-! ## Failures -/

/-- The error for a return code, where it is not `0x9000`. -/
def statusFailure (C : Crates) (command : APDUCommand) (retcode : UInt16) :
    Option (NEARLedgerError C) :=
  if retcode = returnCodeOk then none
  else if command = getAppNameCommand ∧ retcode = returnCodeUnknownError then
    some (.apduExchangeError
      "The ledger most likely is locked. Please unlock ledger or reconnect it")
  else some (.apduExchangeError (retcodeToErrorString retcode))

/-- The error for a reply of the HID crates. -/
def hidFailure (C : Crates) : (q : HidReq) → q.Reply C → Option (NEARLedgerError C)
  | .hidApiNew, .ok _ => none
  | .hidApiNew, .error e => some (.hidApiError e)
  | .transportNew, .ok _ => none
  | .transportNew, .error e => some (.ledgerHidError e)
  | .exchange command, .ok response => statusFailure C command (C.retcode response)
  | .exchange _, .error e => some (.ledgerHIDError e)

/-- The error for a reply over BLE. -/
def bleFailure (C : Crates) : (command : APDUCommand) → BleReply C command →
    Option (NEARLedgerError C)
  | command, .ok response => statusFailure C command (C.retcode response)
  | _, .error e => some (.ofBleError e)

theorem statusFailure_eq_none_iff {command : APDUCommand} {retcode : UInt16} :
    statusFailure C command retcode = none ↔ retcode = returnCodeOk := by
  rw [statusFailure]
  split
  · simp_all
  · split <;> simp_all

/-- Every command but the one for the app name reports the text of the return code. -/
theorem statusFailure_eq_some {command : APDUCommand} {retcode : UInt16} {e : NEARLedgerError C}
    (hcommand : command ≠ getAppNameCommand) (h : statusFailure C command retcode = some e) :
    retcode ≠ returnCodeOk ∧ e = .apduExchangeError (retcodeToErrorString retcode) := by
  rw [statusFailure] at h
  by_cases hok : retcode = returnCodeOk
  · rw [if_pos hok] at h
    cases h
  · rw [if_neg hok, if_neg (fun hname => hcommand hname.1)] at h
    cases h
    exact ⟨hok, rfl⟩

/-- The commands of the NEAR application have another class. -/
theorem ne_getAppNameCommand {command : APDUCommand} (h : command.cla = cla) :
    command ≠ getAppNameCommand := by
  rintro rfl
  exact absurd h (by decide)

/-- The command for the app name has a text of its own for one return code. -/
theorem statusFailure_getAppName {retcode : UInt16} {e : NEARLedgerError C}
    (h : statusFailure C getAppNameCommand retcode = some e) :
    retcode ≠ returnCodeOk ∧ e = .apduExchangeError (if retcode = returnCodeUnknownError then
      "The ledger most likely is locked. Please unlock ledger or reconnect it"
      else retcodeToErrorString retcode) := by
  rw [statusFailure] at h
  by_cases hok : retcode = returnCodeOk
  · rw [if_pos hok] at h
    cases h
  · refine ⟨hok, ?_⟩
    rw [if_neg hok] at h
    by_cases hlocked : retcode = returnCodeUnknownError
    · rw [if_pos ⟨rfl, hlocked⟩] at h
      rw [if_pos hlocked]
      exact (Option.some.inj h).symm
    · rw [if_neg (fun hname => hlocked hname.2)] at h
      rw [if_neg hlocked]
      exact (Option.some.inj h).symm

/-- The texts of the errors about the data of a response of `0x9000`, and of a signing request with
    nothing to send. -/
inductive DataMessage (C : Crates) : String → Prop where
  | noChunks : DataMessage C "Unable to process request"
  | nameTooShort : DataMessage C "App name response too short"
  | nameTruncated : DataMessage C "App name response truncated"
  | keyLength (data : Bytes) : DataMessage C ("`" ++ C.hexEncode data ++
      "` response obtained of invalid length " ++ toString data.length ++ " != " ++
      toString publicKeyLength ++ " (expected)")
  | key (data : Bytes) (err : C.SignatureError) : DataMessage C
      ("problem constructing `ed25519_dalek::VerifyingKey` from received byte array: " ++
        C.hexEncode data ++ ", err: " ++ C.debugSignatureError err)

/-- An outcome that is no error, or one about data. -/
def Explained (o : Outcome (NEARLedgerError C) α) : Prop :=
  ∀ e, o = .err e → ∃ msg, e = .apduExchangeError msg ∧ DataMessage C msg

theorem explained_ok (a : α) : Explained (.ok a : Outcome (NEARLedgerError C) α) := by
  intro e h
  cases h

theorem explained_panicked : Explained (.panicked : Outcome (NEARLedgerError C) α) := by
  intro e h
  cases h

theorem explained_err {msg : String} (hmsg : DataMessage C msg) :
    Explained (.err (.apduExchangeError msg) : Outcome (NEARLedgerError C) α) := by
  intro e h
  cases h
  exact ⟨msg, rfl, hmsg⟩

/-- An error is explained for every type of values. -/
theorem Explained.err {e : NEARLedgerError C}
    (h : Explained (.err e : Outcome (NEARLedgerError C) α)) :
    Explained (.err e : Outcome (NEARLedgerError C) β) :=
  fun e' he' => h e' (congrArg Outcome.err (Outcome.err.inj he'))

/-! ## Sessions -/

/-- The transport of a function of `lib.rs`. -/
inductive HidSession where
  | closed
  | apiOpen
  | opened

/-- The transport after a reply. -/
def HidSession.step (C : Crates) : HidSession → (q : HidReq) → q.Reply C → HidSession
  | _, .hidApiNew, _ => .apiOpen
  | _, .transportNew, _ => .opened
  | s, .exchange _, _ => s

/-- What may be asked.  A transport is opened anew when the one before has been dropped. -/
def HidSession.Allowed : HidSession → HidReq → Prop
  | .closed, q => q = .hidApiNew
  | .apiOpen, q => q = .transportNew
  | .opened, q => q ≠ .transportNew

/-- The sessions of the functions of `lib.rs`. -/
def hidSession (C : Crates) : Monitor HidSession HidReq (HidReq.Reply C) where
  step := HidSession.step C
  allowed := HidSession.Allowed

/-- How a HID function ends when nothing has failed: with an open transport, and with a value, a
    panic, or an error about the data of the last response. -/
def HidEnded : HidSession → Outcome (NEARLedgerError C) α → Prop
  | .closed, o => o = .panicked
  | .apiOpen, _ => False
  | .opened, o => Explained o

/-- How a BLE function ends when nothing has failed; the transport is there already. -/
def BleEnded : Unit → Outcome (NEARLedgerError C) α → Prop
  | _, o => Explained o

/-! ## Rules for both transports -/

section

variable {σ Req E : Type} {Resp : Req → Type}

/-- A function that stops at the first failure. -/
abbrev Stops (m : Monitor σ Req Resp) (failure : (q : Req) → Resp q → Option (NEARLedgerError C))
    (ended : σ → Outcome (NEARLedgerError C) α → Prop) (s : σ)
    (p : Call Req Resp (NEARLedgerError C) α) : Prop :=
  p.Keeps (m.failStop failure) (FailStopped ended) (.ok s)

/-- A session in which commands go over the transport, and a function may end explained. -/
structure Wire.Ready (w : Wire C Resp E) (m : Monitor σ Req Resp)
    (failure : (q : Req) → Resp q → Option (NEARLedgerError C))
    (ended : (α : Type) → σ → Outcome (NEARLedgerError C) α → Prop) (s : σ) : Prop where
  explained : ∀ {α : Type} {o : Outcome (NEARLedgerError C) α}, Explained o → ended α s o
  allowed : ∀ c, m.allowed s (w.exchange c)
  step : ∀ c reply, m.step s (w.exchange c) reply = s
  failure_ok : ∀ c reply response, w.answer c reply = .ok response →
    failure (w.exchange c) reply = statusFailure C c (C.retcode response)
  failure_error : ∀ c reply err, w.answer c reply = .error err →
    failure (w.exchange c) reply = some (w.toError err)

namespace Wire.Ready

variable {w : Wire C Resp E} {m : Monitor σ Req Resp}
  {failure : (q : Req) → Resp q → Option (NEARLedgerError C)}
  {ended : (α : Type) → σ → Outcome (NEARLedgerError C) α → Prop} {s : σ}
  (hw : w.Ready m failure ended s)

include hw

theorem returns (a : α) : Stops m failure (ended α) s (pure a) :=
  hw.explained (explained_ok a)

theorem throws {msg : String} (hmsg : DataMessage C msg) :
    Stops m failure (ended α) s (Call.throw (.apduExchangeError msg)) :=
  hw.explained (explained_err hmsg)

theorem orPanic_bind (x : Option β) {f : β → Call Req Resp (NEARLedgerError C) α}
    (hf : ∀ b, Stops m failure (ended α) s (f b)) :
    Stops m failure (ended α) s (Call.orPanic x >>= f) := by
  cases x with
  | none => exact hw.explained explained_panicked
  | some b => exact hf b

/-- A command and the rest of the function, which throws the errors of its reply. -/
theorem ask_bind {c : APDUCommand} {f : Resp (w.exchange c) → Call Req Resp (NEARLedgerError C) α}
    (hok : ∀ reply response, w.answer c reply = .ok response → C.retcode response = returnCodeOk →
      Stops m failure (ended α) s (f reply))
    (hstatus : ∀ reply response e, w.answer c reply = .ok response →
      statusFailure C c (C.retcode response) = some e → f reply = Call.throw e)
    (herr : ∀ reply err, w.answer c reply = .error err → f reply = Call.throw (w.toError err)) :
    Stops m failure (ended α) s (Call.ask (w.exchange c) >>= f) := by
  refine failStop_keeps_ask_bind (hw.allowed c) (fun reply hreply => ?_) fun reply e hreply => ?_
  · rw [hw.step c reply]
    cases hanswer : w.answer c reply with
    | error err =>
        rw [hw.failure_error c reply err hanswer] at hreply
        cases hreply
    | ok response =>
        rw [hw.failure_ok c reply response hanswer] at hreply
        exact hok reply response hanswer (statusFailure_eq_none_iff.mp hreply)
  · cases hanswer : w.answer c reply with
    | error err =>
        rw [hw.failure_error c reply err hanswer] at hreply
        rw [herr reply err hanswer, Option.some.inj hreply]
    | ok response =>
        rw [hw.failure_ok c reply response hanswer] at hreply
        exact hstatus reply response e hanswer hreply

/-- A command of whose response the return code is looked at first. -/
theorem command {c : APDUCommand} (hc : c ≠ getAppNameCommand)
    {g : C.APDUAnswer → Call Req Resp (NEARLedgerError C) α}
    (hg : ∀ response, Stops m failure (ended α) s (g response)) :
    Stops m failure (ended α) s (w.command c g) := by
  show Stops m failure (ended α) s (Call.ask (w.exchange c) >>= fun reply =>
    w.onReply g (w.answer c reply))
  refine hw.ask_bind ?_ ?_ ?_
  · intro reply response hanswer hok
    rw [hanswer, Wire.onReply_ok hok]
    exact hg response
  · intro reply response e hanswer he
    obtain ⟨hretcode, rfl⟩ := statusFailure_eq_some hc he
    rw [hanswer, Wire.onReply, if_neg hretcode]
  · intro reply err hanswer
    rw [hanswer, Wire.onReply]

/-- What is made of a public key response. -/
theorem keyOf (response : C.APDUAnswer) :
    Stops m failure (ended C.VerifyingKey) s (NearLedger.keyOf response) := by
  rw [NearLedger.keyOf]
  by_cases hlen : (C.answerData response).length ≠ publicKeyLength
  · rw [if_pos hlen]
    exact hw.throws (.keyLength _)
  · rw [if_neg hlen]
    cases C.verifyingKeyFromBytes (C.answerData response) with
    | ok key => exact hw.returns key
    | error err => exact hw.throws (.key _ err)

/-- The loop over the chunks: nothing is sent after a chunk that is not acknowledged. -/
theorem signingLoop (ins : UInt8) (cs : List Bytes) :
    Stops m failure (ended Bytes) s (w.signingLoop ins cs) := by
  induction cs with
  | nil => exact hw.throws .noChunks
  | cons chunk rest ih =>
      rw [Wire.signingLoop]
      refine hw.command (ne_getAppNameCommand rfl) fun response => ?_
      split
      · exact hw.returns _
      · exact ih

end Wire.Ready

end

/-! ## The two transports -/

/-- A HID function that stops at the first failure. -/
abbrev HidStops (s : HidSession) (p : HidCall C α) : Prop :=
  Stops (hidSession C) (hidFailure C) HidEnded s p

/-- A BLE function that stops at the first failure. -/
abbrev BleStops (p : BleCall C α) : Prop :=
  Stops (permissive APDUCommand (BleReply C)) (bleFailure C) BleEnded () p

theorem hid_ready :
    (Wire.hid C).Ready (hidSession C) (hidFailure C) (fun _ => HidEnded) .opened where
  explained h := h
  allowed c := by
    show HidReq.exchange c ≠ .transportNew
    simp
  step _ _ := rfl
  failure_ok c reply response hreply := by
    obtain rfl : reply = .ok response := hreply
    rfl
  failure_error c reply err hreply := by
    obtain rfl : reply = .error err := hreply
    rfl

theorem ble_ready :
    (Wire.ble C).Ready (permissive APDUCommand (BleReply C)) (bleFailure C)
      (fun _ => BleEnded) () where
  explained h := h
  allowed _ := trivial
  step _ _ := rfl
  failure_ok c reply response hreply := by
    obtain rfl : reply = .ok response := hreply
    rfl
  failure_error c reply err hreply := by
    obtain rfl : reply = .error err := hreply
    rfl

/-- A HID function opens its transport first. -/
theorem HidStops.getTransport_bind {s : HidSession} (hs : s ≠ .apiOpen) {f : Unit → HidCall C α}
    (hf : HidStops .opened (f ())) : HidStops s (Hid.getTransport >>= f) := by
  have hnew : s.Allowed .hidApiNew := by cases s <;> simp_all [HidSession.Allowed]
  refine ⟨hnew, fun reply => ?_⟩
  cases reply with
  | error e => rfl
  | ok _ =>
      refine ⟨rfl, fun reply => ?_⟩
      cases reply with
      | error e => rfl
      | ok _ => exact hf

/-- A HID function after another one. -/
theorem HidStops.bind {s : HidSession} {p : HidCall C α} {f : α → HidCall C β} (hp : HidStops s p)
    (hf : ∀ a, HidStops .opened (f a)) : HidStops s (p >>= f) := by
  refine failStop_keeps_bind hp ?_ ?_ ?_
  · intro s a h
    cases s with
    | opened => exact hf a
    | apiOpen => cases h
    | closed => cases h
  · intro s e h
    cases s with
    | opened => exact Explained.err h
    | apiOpen => cases h
    | closed => cases h
  · intro s h
    cases s with
    | opened => exact explained_panicked
    | apiOpen => cases h
    | closed => rfl

/-- A BLE function after another one. -/
theorem BleStops.bind {p : BleCall C α} {f : α → BleCall C β} (hp : BleStops p)
    (hf : ∀ a, BleStops (f a)) : BleStops (p >>= f) := by
  refine failStop_keeps_bind hp ?_ ?_ ?_
  · intro s a _
    exact hf a
  · intro s e h
    exact Explained.err h
  · intro s _
    exact explained_panicked

/-! ## The functions of `lib.rs` -/

theorem getVersion_stops : HidStops .closed (Hid.getVersion : HidCall C Bytes) := by
  rw [getVersion_eq]
  refine HidStops.getTransport_bind (by simp) ?_
  exact hid_ready.command (by decide) fun response => hid_ready.returns _

theorem statusHid_stops {s : HidSession} (hs : s ≠ .apiOpen) {command : APDUCommand}
    (hcommand : command ≠ getAppNameCommand) : HidStops s (statusHid command : HidCall C Unit) := by
  rw [statusHid]
  refine HidStops.getTransport_bind hs ?_
  exact hid_ready.command hcommand fun response => hid_ready.returns ()

theorem runningAppName_stops : HidStops .closed (Hid.runningAppName : HidCall C String) := by
  rw [runningAppName_eq]
  refine HidStops.getTransport_bind (by simp) (hid_ready.ask_bind ?_ ?_ ?_)
  · intro reply response hreply hok
    obtain rfl : reply = .ok response := hreply
    rw [afterAppName, if_pos hok]
    refine hid_ready.orPanic_bind _ fun appNameLen => ?_
    refine hid_ready.orPanic_bind _ fun appName => ?_
    exact hid_ready.returns _
  · intro reply response e hreply he
    obtain rfl : reply = .ok response := hreply
    obtain ⟨hretcode, rfl⟩ := statusFailure_getAppName he
    rw [afterAppName, if_neg hretcode]
    split <;> rfl
  · intro reply err hreply
    obtain rfl : reply = .error err := hreply
    rfl

theorem openNearApplication_stops :
    HidStops .closed (Hid.openNearApplication : HidCall C Unit) := by
  have hopen {s : HidSession} (hs : s ≠ .apiOpen) :
      HidStops s (Hid.openApplication : HidCall C Unit) := by
    rw [openApplication_eq]
    exact statusHid_stops hs (by decide)
  have hquit : HidStops .opened (Hid.quitOpenApplication : HidCall C Unit) := by
    rw [quitOpenApplication_eq]
    exact statusHid_stops (by simp) (by decide)
  refine HidStops.bind runningAppName_stops fun name => ?_
  split
  · exact hid_ready.returns ()
  · split
    · exact hopen (by simp)
    · exact HidStops.bind hquit fun _ => hopen (by simp)

theorem sendPathCommand_stops {command : APDUCommand} (hcommand : command.cla = cla) :
    HidStops .closed (sendPathCommand command : HidCall C C.VerifyingKey) := by
  rw [sendPathCommand]
  refine HidStops.getTransport_bind (by simp) ?_
  exact hid_ready.command (ne_getAppNameCommand hcommand) hid_ready.keyOf

/-- A panic once the transport is open. -/
theorem getTransport_panic_stops :
    HidStops .closed (do Hid.getTransport; Call.panic : HidCall C α) := by
  refine HidStops.getTransport_bind (by simp) ?_
  exact hid_ready.explained explained_panicked

theorem getPublicKeyWithDisplayFlag_stops (hdPath : C.BIP32Path) (displayAndConfirm : Bool) :
    HidStops .closed (Hid.getPublicKeyWithDisplayFlag hdPath displayAndConfirm) := by
  cases hpath : pathIndices hdPath with
  | some indices =>
      rw [getPublicKeyWithDisplayFlag_eq hpath]
      exact sendPathCommand_stops rfl
  | none =>
      rw [Hid.getPublicKeyWithDisplayFlag, hdPathToBytes, hpath]
      exact getTransport_panic_stops

theorem getWalletId_stops (hdPath : C.BIP32Path) :
    HidStops .closed (Hid.getWalletId hdPath) := by
  cases hpath : pathIndices hdPath with
  | some indices =>
      rw [getWalletId_eq hpath]
      exact sendPathCommand_stops rfl
  | none =>
      rw [Hid.getWalletId, hdPathToBytes, hpath]
      exact getTransport_panic_stops

theorem sign_stops (request : Request C) : HidStops .closed request.hid := by
  rw [Request.hid_eq]
  cases request.payload with
  | none => exact (rfl : HidEnded .closed .panicked)
  | some payload =>
      change HidStops .closed (Hid.sendPayloadApdus payload request.path request.ins)
      cases hpath : pathIndices request.path with
      | some indices =>
          rw [sendPayloadApdus_eq hpath]
          refine HidStops.getTransport_bind (by simp) ?_
          exact hid_ready.signingLoop _ _
      | none =>
          rw [Hid.sendPayloadApdus, hdPathToBytes, hpath]
          exact getTransport_panic_stops

theorem api_hid_stops (q : ApiRequest C) : HidStops .closed q.hid := by
  cases q with
  | getVersion => exact getVersion_stops
  | openNearApplication => exact openNearApplication_stops
  | getPublicKey hdPath => exact getPublicKeyWithDisplayFlag_stops hdPath true
  | getPublicKeyWithDisplayFlag hdPath displayAndConfirm =>
      exact getPublicKeyWithDisplayFlag_stops hdPath displayAndConfirm
  | getWalletId hdPath => exact getWalletId_stops hdPath
  | sign request => exact sign_stops request

/-! ## The functions of `ble_api.rs` -/

theorem getVersionBle_stops : BleStops (BleApi.getVersionBle : BleCall C Bytes) := by
  rw [getVersionBle_eq]
  exact ble_ready.command (by decide) fun response => ble_ready.returns _

theorem statusBle_stops {command : APDUCommand} (hcommand : command ≠ getAppNameCommand) :
    BleStops (statusBle command : BleCall C Unit) := by
  rw [statusBle]
  exact ble_ready.command hcommand fun response => ble_ready.returns ()

theorem runningAppNameBle_stops : BleStops (BleApi.runningAppNameBle : BleCall C String) := by
  rw [runningAppNameBle_eq]
  refine ble_ready.ask_bind ?_ ?_ ?_
  · intro reply response hreply hok
    obtain rfl : reply = .ok response := hreply
    rw [afterAppNameBle, if_pos hok]
    dsimp only
    split
    · exact ble_ready.throws .nameTooShort
    · refine ble_ready.orPanic_bind _ fun appNameLen => ?_
      split
      · exact ble_ready.throws .nameTruncated
      · refine ble_ready.orPanic_bind _ fun appName => ?_
        exact ble_ready.returns _
  · intro reply response e hreply he
    obtain rfl : reply = .ok response := hreply
    obtain ⟨hretcode, rfl⟩ := statusFailure_getAppName he
    rw [afterAppNameBle, if_neg hretcode]
    split <;> rfl
  · intro reply err hreply
    obtain rfl : reply = .error err := hreply
    rfl

theorem openNearApplicationBle_stops :
    BleStops (BleApi.openNearApplicationBle : BleCall C Unit) := by
  have hopen : BleStops (BleApi.openApplicationBle : BleCall C Unit) := by
    rw [openApplicationBle_eq]
    exact statusBle_stops (by decide)
  have hquit : BleStops (BleApi.quitOpenApplicationBle : BleCall C Unit) := by
    rw [quitOpenApplicationBle_eq]
    exact statusBle_stops (by decide)
  refine BleStops.bind runningAppNameBle_stops fun name => ?_
  split
  · exact ble_ready.returns ()
  · split
    · exact hopen
    · exact BleStops.bind hquit fun _ => hopen

theorem sendPathCommandBle_stops {command : APDUCommand} (hcommand : command.cla = cla) :
    BleStops (sendPathCommandBle command : BleCall C C.VerifyingKey) := by
  rw [sendPathCommandBle]
  exact ble_ready.command (ne_getAppNameCommand hcommand) ble_ready.keyOf

theorem getPublicKeyWithDisplayFlagBle_stops (hdPath : C.BIP32Path) (displayAndConfirm : Bool) :
    BleStops (BleApi.getPublicKeyWithDisplayFlagBle hdPath displayAndConfirm) := by
  cases hpath : pathIndices hdPath with
  | some indices =>
      rw [getPublicKeyWithDisplayFlagBle_eq hpath]
      exact sendPathCommandBle_stops rfl
  | none =>
      rw [BleApi.getPublicKeyWithDisplayFlagBle, hdPathToBytes, hpath]
      exact ble_ready.explained explained_panicked

theorem getWalletIdBle_stops (hdPath : C.BIP32Path) : BleStops (BleApi.getWalletIdBle hdPath) := by
  cases hpath : pathIndices hdPath with
  | some indices =>
      rw [getWalletIdBle_eq hpath]
      exact sendPathCommandBle_stops rfl
  | none =>
      rw [BleApi.getWalletIdBle, hdPathToBytes, hpath]
      exact ble_ready.explained explained_panicked

theorem signBle_stops (request : Request C) : BleStops request.ble := by
  rw [Request.ble_eq]
  refine ble_ready.orPanic_bind request.payload fun payload => ?_
  cases hpath : pathIndices request.path with
  | some indices =>
      rw [sendPayloadApdusBle_eq hpath, loopBle_eq]
      exact ble_ready.signingLoop _ _
  | none =>
      rw [BleApi.sendPayloadApdusBle, hdPathToBytes, hpath]
      exact ble_ready.explained explained_panicked

theorem api_ble_stops (q : ApiRequest C) : BleStops q.ble := by
  cases q with
  | getVersion => exact getVersionBle_stops
  | openNearApplication => exact openNearApplicationBle_stops
  | getPublicKey hdPath => exact getPublicKeyWithDisplayFlagBle_stops hdPath true
  | getPublicKeyWithDisplayFlag hdPath displayAndConfirm =>
      exact getPublicKeyWithDisplayFlagBle_stops hdPath displayAndConfirm
  | getWalletId hdPath => exact getWalletIdBle_stops hdPath
  | sign request => exact signBle_stops request

/-! ## The theorems -/

/-- The first failure is the last reply and ends the function with its error; without a failure an
    error is about the data of a response. -/
def FailsOnce {Req : Type} {Resp : Req → Type}
    (failure : (q : Req) → Resp q → Option (NEARLedgerError C)) (es : List (Sigma Resp))
    (p : Call Req Resp (NEARLedgerError C) α) : Prop :=
  (∀ before q reply after e, es = before ++ ⟨q, reply⟩ :: after → failure q reply = some e →
    after = [] ∧ p = .ret (.err e)) ∧
  ((∀ x ∈ es, failure x.1 x.2 = none) → ∀ o, p = .ret o → Explained o)

theorem fail_stop_hid (q : ApiRequest C) {es : List (Sigma (HidReq.Reply C))}
    {p : HidCall C q.Value} (htrace : Call.Trace q.hid es p) :
    (hidSession C).Allows .closed es ∧ FailsOnce (hidFailure C) es p := by
  obtain ⟨hallows, hfail, hends⟩ := failStop_of_trace htrace (api_hid_stops q)
  refine ⟨hallows, hfail, fun hnone o hp => ?_⟩
  have hended := hends hnone o hp
  generalize (hidSession C).after .closed es = s at hended
  cases s with
  | opened => exact hended
  | apiOpen => cases hended
  | closed =>
      obtain rfl : o = .panicked := hended
      exact explained_panicked

theorem fail_stop_ble (q : ApiRequest C) {es : List (Sigma (BleReply C))} {p : BleCall C q.Value}
    (htrace : Call.Trace q.ble es p) :
    FailsOnce (bleFailure C) es p := by
  obtain ⟨-, hfail, hends⟩ := failStop_of_trace htrace (api_ble_stops q)
  exact ⟨hfail, hends⟩

/-- Whatever the crates reply to a public function: over HID each command is sent over a transport
    that has been opened for it, and over both transports the first failure is the last thing that
    has been asked for and its error is returned, and any other error is about the data of a
    response. -/
theorem api_fail_stop (q : ApiRequest C) :
    (∀ (es : List (Sigma (HidReq.Reply C))) (p : HidCall C q.Value), Call.Trace q.hid es p →
      (hidSession C).Allows .closed es ∧ FailsOnce (hidFailure C) es p) ∧
    ∀ (es : List (Sigma (BleReply C))) (p : BleCall C q.Value), Call.Trace q.ble es p →
      FailsOnce (bleFailure C) es p :=
  ⟨fun _ _ htrace => fail_stop_hid q htrace, fun _ _ htrace => fail_stop_ble q htrace⟩

/-- A request of one chunk, its command, and a user who declines. -/
def declinedRequest : ApiRequest Crates.reference := .sign (.transaction [9] (Crates.pathOne 45))

def declinedCommand : APDUCommand :=
  { cla := cla
    ins := insSignTransaction
    p1 := p1SignNormalLastChunk
    p2 := networkId
    data := [0, 0, 0, 45, 9] }

def declinedEvents : List (Sigma (HidReq.Reply Crates.reference)) :=
  [⟨.hidApiNew, .ok ()⟩, ⟨.transportNew, .ok ()⟩, ⟨.exchange declinedCommand, .ok ([], 0x55, 0x01)⟩]

theorem api_fail_stop_declined :
    ∃ p, Call.Trace declinedRequest.hid declinedEvents p ∧
      p = .ret (.err (.apduExchangeError (retcodeToErrorString 0x5501))) := by
  have htrace : Call.Trace declinedRequest.hid declinedEvents
      (.ret (.err (.apduExchangeError (retcodeToErrorString 0x5501)))) :=
    .cons (.cons (.cons (.nil _)))
  have hstopped := ((api_fail_stop declinedRequest).1 _ _ htrace).2.1
    [⟨.hidApiNew, .ok ()⟩, ⟨.transportNew, .ok ()⟩] (.exchange declinedCommand)
    (.ok ([], 0x55, 0x01)) [] _ rfl rfl
  exact ⟨_, htrace, hstopped.2⟩

end NearLedger
