/-
  NearLedger.Api.Clients

  Programs that call the public functions of the crate and look at their errors
  in a way that does not depend on the transport.  Where `get_transport` succeeds,
  such a client does the same over HID and over BLE (`clients_agree`), and over
  BLE also when every exchange is carried out in packets (`client_over_packets`).
-/

import NearLedger.Api.Requests
import NearLedger.Ble.Backlog

namespace NearLedger

open Interaction Slices Transition

variable {C : Crates} {F η α : Type}

/-- A program that calls the public functions and sees `η` of their errors. -/
abbrev Client (C : Crates) (η : Type) :=
  Call (ApiRequest C) (fun q => Except η q.Value) (NEARLedgerError C)

namespace Client

/-- The client with the functions of `lib.rs`. -/
def hid (observe : NEARLedgerError C → η) (c : Client C η α) : HidCall C α :=
  Call.handle (fun q => q.hid.attempt observe) c

/-- The client with the functions of `ble_api.rs`. -/
def ble (observe : NEARLedgerError C → η) (c : Client C η α) : BleCall C α :=
  Call.handle (fun q => q.ble.attempt observe) c

end Client

/-- What HID and BLE have in common in their errors: the text of an APDU error. -/
def apduMessage : NEARLedgerError C → Option String
  | .apduExchangeError msg => some msg
  | _ => none

theorem apduMessage_cause (view : FailureView C F) (cause : Cause F) :
    apduMessage (cause.hid view) = apduMessage (cause.ble view) := by
  cases cause <;> rfl

/-! ## HID and BLE -/

variable {view : FailureView C F} {dev : Device C F}

/-- After a history, a HID transport is one to the device after the commands of that history. -/
theorem hidEnv_after (hids : List HidReq) :
    (fun h' => hidEnv view dev (hids ++ h')) = hidEnv view (dev.after (exchanged hids)) := by
  funext h' q
  cases q with
  | hidApiNew => rfl
  | transportNew => rfl
  | exchange command =>
      rw [hidEnv_exchange, hidEnv_exchange, Device.after_after, exchanged_append]

theorem bleEnv_after (h : List APDUCommand) :
    (fun h' => bleEnv view dev (h ++ h')) = bleEnv view (dev.after h) := by
  funext h' command
  rw [bleEnv_apply, bleEnv_apply, Device.after_after]

/-- The app name is well-formed whenever the client opens the application. -/
def OpensNamed (dev : Device C F) (c : Client C η α) : Prop :=
  c.Only fun q => q = .openNearApplication → ∀ h, ¬ MalformedAppName (dev.after h)

/-- One request after histories with the same commands. -/
theorem run_request_related {observe : NEARLedgerError C → η}
    (hobserve : ∀ cause, observe (Cause.hid view cause) = observe (Cause.ble view cause))
    (q : ApiRequest C) (hq : q = .openNearApplication → ∀ h, ¬ MalformedAppName (dev.after h))
    (hids : List HidReq) (cmds : List APDUCommand) (h : exchanged hids = cmds) :
    exchanged (hids ++ (Call.run (hidEnv view dev) hids
        (q.hid.attempt observe : HidCall C (Except η q.Value))).1) =
        cmds ++ (Call.run (bleEnv view dev) cmds
          (q.ble.attempt observe : BleCall C (Except η q.Value))).1 ∧
      (Call.run (hidEnv view dev) hids (q.hid.attempt observe : HidCall C (Except η q.Value))).2 =
        (Call.run (bleEnv view dev) cmds
          (q.ble.attempt observe : BleCall C (Except η q.Value))).2 := by
  obtain ⟨issued, o, hissued, hhid, hble⟩ :=
    @api_agrees C F view (dev.after cmds) q fun hopen => hq hopen cmds
  have hhids : Call.run (hidEnv view dev) hids q.hid =
      Call.run (hidEnv view (dev.after cmds)) [] q.hid := by
    rw [Call.run_eq_run_nil, hidEnv_after, h]
  have hcmds : Call.run (bleEnv view dev) cmds q.ble =
      Call.run (bleEnv view (dev.after cmds)) [] q.ble := by
    rw [Call.run_eq_run_nil, bleEnv_after]
  rw [Call.run_attempt, Call.run_attempt, hhids, hcmds, hble]
  refine ⟨?_, ?_⟩
  · show exchanged (hids ++ (Call.run (hidEnv view (dev.after cmds)) [] q.hid).1) = cmds ++ issued
    rw [exchanged_append, h, hissued]
  · show Outcome.attempt observe (Call.run (hidEnv view (dev.after cmds)) [] q.hid).2 = _
    rw [hhid]
    exact Outcome.attempt_mapErr_congr hobserve o

/-- A client does the same over HID and over BLE. -/
theorem run_client_related {observe : NEARLedgerError C → η}
    (hobserve : ∀ cause, observe (Cause.hid view cause) = observe (Cause.ble view cause))
    {c : Client C η α} (hc : OpensNamed dev c) :
    exchanged (Call.run (hidEnv view dev) [] (c.hid observe)).1 =
        (Call.run (bleEnv view dev) [] (c.ble observe)).1 ∧
      (Call.run (hidEnv view dev) [] (c.hid observe)).2 =
        (Call.run (bleEnv view dev) [] (c.ble observe)).2 :=
  Call.run_handle_related (R := fun hids cmds => exchanged hids = cmds)
    (run_request_related hobserve) c hc [] [] rfl

/-! ## What a client sends -/

theorem fits_iff (hA : C.ApduDoc) (c : APDUCommand) : Fits C c ↔ c.data.length ≤ 65530 := by
  rw [Fits, hA.serialize_eq, List.length_append]
  simp only [List.length_cons, List.length_nil]
  omega

theorem only_statusBle {P : APDUCommand → Prop} {command : APDUCommand} (h : P command) :
    (statusBle command : BleCall C Unit).Only P := by
  rw [statusBle]
  exact Wire.only_command h fun _ => trivial

theorem only_runningAppNameBle {P : APDUCommand → Prop} (h : P getAppNameCommand) :
    (BleApi.runningAppNameBle : BleCall C String).Only P := by
  rw [runningAppNameBle_eq, BleApi.exchange, Call.only_ask_bind]
  refine ⟨h, fun reply => ?_⟩
  cases reply with
  | error err => trivial
  | ok response =>
      rw [afterAppNameBle]
      dsimp only
      split
      · split
        · trivial
        · refine Call.only_bind ?_ fun appNameLen => ?_
          · cases (C.answerData response)[1]? <;> trivial
          · split
            · trivial
            · refine Call.only_bind ?_ fun appName => trivial
              cases slice (C.answerData response) 2 (2 + appNameLen.toNat) <;> trivial
      · split <;> trivial

theorem only_openNearApplicationBle {P : APDUCommand → Prop} (hname : P getAppNameCommand)
    (hquit : P quitAppCommand) (hopen : P openAppCommand) :
    (BleApi.openNearApplicationBle : BleCall C Unit).Only P := by
  have honlyOpen : (BleApi.openApplicationBle : BleCall C Unit).Only P := by
    rw [openApplicationBle_eq]
    exact only_statusBle hopen
  have honlyQuit : (BleApi.quitOpenApplicationBle : BleCall C Unit).Only P := by
    rw [quitOpenApplicationBle_eq]
    exact only_statusBle hquit
  refine Call.only_bind (only_runningAppNameBle hname) fun name => ?_
  split
  · trivial
  · split
    · exact honlyOpen
    · exact Call.only_bind honlyQuit fun _ => honlyOpen

section

variable (hA : C.ApduDoc)

include hA

/-- A path has at most 255 indices of four bytes. -/
theorem only_fits_sendPathCommandBle {path : C.BIP32Path} {indices : List UInt32}
    (hpath : pathIndices path = some indices) (ins p1 : UInt8) :
    (sendPathCommandBle (pathCommand ins p1 indices) : BleCall C C.VerifyingKey).Only (Fits C) := by
  have hdepth := (C.depth path).toNat_lt
  rw [sendPathCommandBle]
  refine Wire.only_command ?_ (only_keyOf _)
  show Fits C (pathCommand ins p1 indices)
  rw [fits_iff hA, pathCommand, Bytes.length_flatMap_u32ToBeBytes, length_pathIndices hpath]
  omega

theorem only_fits_getPublicKey (path : C.BIP32Path) (displayAndConfirm : Bool) :
    (BleApi.getPublicKeyWithDisplayFlagBle path displayAndConfirm).Only (Fits C) := by
  cases hpath : pathIndices path with
  | some indices =>
      rw [getPublicKeyWithDisplayFlagBle_eq hpath]
      exact only_fits_sendPathCommandBle hA hpath _ _
  | none =>
      rw [BleApi.getPublicKeyWithDisplayFlagBle, hdPathToBytes, hpath]
      trivial

theorem only_fits_getWalletId (path : C.BIP32Path) :
    (BleApi.getWalletIdBle path).Only (Fits C) := by
  cases hpath : pathIndices path with
  | some indices =>
      rw [getWalletIdBle_eq hpath]
      exact only_fits_sendPathCommandBle hA hpath _ _
  | none =>
      rw [BleApi.getWalletIdBle, hdPathToBytes, hpath]
      trivial

theorem only_fits_sign (request : Request C) : request.ble.Only (Fits C) := by
  rw [Request.ble_eq]
  cases request.payload with
  | none => trivial
  | some payload =>
      show (BleApi.sendPayloadApdusBle payload request.path request.ins).Only (Fits C)
      cases hpath : pathIndices request.path with
      | some indices =>
          rw [sendPayloadApdusBle_eq hpath, loopBle_eq]
          refine only_signingLoop fun c hc => (fits_iff hA c).mpr ?_
          have hlen := (mem_signingCommands hc).2.2.2.2
          omega
      | none =>
          rw [BleApi.sendPayloadApdusBle, hdPathToBytes, hpath]
          trivial

theorem only_fits_getVersion : (BleApi.getVersionBle : BleCall C Bytes).Only (Fits C) := by
  rw [getVersionBle_eq]
  refine Wire.only_command ?_ fun _ => trivial
  show Fits C getVersionCommand
  exact (fits_iff hA _).mpr (by decide)

/-- Every command of the crate fits a frame, whatever the path and the payload are. -/
theorem only_fits_ble (q : ApiRequest C) : q.ble.Only (Fits C) := by
  cases q with
  | getVersion => exact only_fits_getVersion hA
  | openNearApplication =>
      exact only_openNearApplicationBle ((fits_iff hA _).mpr (by decide))
        ((fits_iff hA _).mpr (by decide)) ((fits_iff hA _).mpr (by decide))
  | getPublicKey hdPath => exact only_fits_getPublicKey hA hdPath true
  | getPublicKeyWithDisplayFlag hdPath displayAndConfirm =>
      exact only_fits_getPublicKey hA hdPath displayAndConfirm
  | getWalletId hdPath => exact only_fits_getWalletId hA hdPath
  | sign request => exact only_fits_sign hA request

end

theorem only_fits_client (hA : C.ApduDoc) (observe : NEARLedgerError C → η) (c : Client C η α) :
    (c.ble observe).Only (Fits C) :=
  Call.only_handle (fun q => Call.only_attempt (only_fits_ble hA q)) c

/-! ## Packets -/

/-- A device that answers frames, as the transports show it after `frames`: an answer that is no
    APDU answer fails the exchange. -/
def apduDevice (C : Crates) (dev : FrameDevice) (frames : List Bytes) : Device C (BleError C) :=
  fun cmds => answered C (dev (frames ++ cmds.map C.serialize)).message

/-- BLE reports such a failure as it is, HID as an error of its own. -/
def answerView (hid : BleError C → C.LedgerHIDError) : FailureView C (BleError C) where
  hid := hid
  ble err := err

/-- On a link on which nothing waits, an exchange is answered by the device. -/
theorem serve_exchange (dev : FrameDevice) (frames : List Bytes)
    (hid : BleError C → C.LedgerHIDError) {p : BleCall C α} (hp : p.Only (Fits C)) :
    Call.serve (ApduLink.exchange C dev) (.fresh frames) p =
      let r := Call.run (bleEnv (answerView hid) (apduDevice C dev frames)) [] p
      (r.2, .fresh (frames ++ r.1.map C.serialize)) := by
  have hexchange : ∀ (h : List APDUCommand) (c : APDUCommand), Fits C c →
      (ApduLink.fresh (frames ++ h.map C.serialize)).exchange C dev c =
        (bleEnv (answerView hid) (apduDevice C dev frames) h c,
          .fresh (frames ++ (h ++ [c]).map C.serialize)) := by
    intro h c hc
    have hlen : ¬ (C.serialize c).length > 65535 := Nat.not_lt.mpr hc
    rw [ApduLink.exchange, if_neg hlen, bleEnv, apduDevice, List.map_append, ← List.append_assoc]
    simp only [ApduLink.fresh, answerView, List.map_cons, List.map_nil]
    cases answered C (dev (frames ++ h.map C.serialize ++ [C.serialize c])).message <;> rfl
  have hserve := @Call.serve_eq_run _ _ _ α _ (ApduLink.exchange C dev)
    (bleEnv (answerView hid) (apduDevice C dev frames))
    (fun h => .fresh (frames ++ h.map C.serialize)) (Fits C)
    (fun h c hc => by rw [hexchange h c hc]) (fun h c hc => by rw [hexchange h c hc]) p hp []
  rw [List.map_nil, List.append_nil] at hserve
  exact hserve

/-! ## The theorems -/

/-- A client does not notice whether it runs over HID or over BLE: whatever the device answers and
    whichever exchanges fail, it issues the same commands and ends alike, provided that over HID
    `get_transport` succeeds.  It may look at the errors as long as it does not tell the transports
    apart by them, and when it opens the application the app name must be well-formed. -/
theorem clients_agree {view : FailureView C F} {dev : Device C F} {observe : NEARLedgerError C → η}
    (hobserve : ∀ cause, observe (Cause.hid view cause) = observe (Cause.ble view cause))
    {c : Client C η α} (hc : OpensNamed dev c) :
    exchanged (Call.run (hidEnv view dev) [] (c.hid observe)).1 =
        (Call.run (bleEnv view dev) [] (c.ble observe)).1 ∧
      (Call.run (hidEnv view dev) [] (c.hid observe)).2 =
        (Call.run (bleEnv view dev) [] (c.ble observe)).2 :=
  run_client_related hobserve hc

/-- A client that asks for the version and then signs, whatever the version is. -/
def versionThenSign : Client Crates.reference (Option String) (Except (Option String) Bytes) := do
  let _ ← Call.ask ApiRequest.getVersion
  Call.ask (ApiRequest.sign (.transaction [7, 8] (Crates.pathOne 44)))

theorem opensNamed_versionThenSign {F : Type} (dev : Device Crates.reference F) :
    OpensNamed dev versionThenSign :=
  ⟨by simp, fun _ => ⟨by simp, fun _ => trivial⟩⟩

theorem clients_agree_counting :
    exchanged (Call.run (hidEnv textView countingDevice) [] (versionThenSign.hid apduMessage)).1 =
        (Call.run (bleEnv textView countingDevice) [] (versionThenSign.ble apduMessage)).1 ∧
      (Call.run (bleEnv textView countingDevice) [] (versionThenSign.ble apduMessage)).2 =
        .ok (.ok [2]) := by
  obtain ⟨hcmds, hend⟩ := clients_agree (apduMessage_cause textView)
    (opensNamed_versionThenSign countingDevice)
  exact ⟨hcmds, hend.symm.trans rfl⟩

/-- The same holds when BLE carries every exchange out in packets: on a link on which nothing waits,
    the client ends over packets as it ends over HID with a `get_transport` that succeeds, the device
    has received the frames of the same commands, and nothing waits on the link.  Every run that has
    begun, with any notifications of other tags of at least three bytes between, can only be continued
    to this end. -/
theorem client_over_packets (hA : C.ApduDoc) (dev : FrameDevice)
    (hid : BleError C → C.LedgerHIDError) {observe : NEARLedgerError C → η}
    (hobserve : ∀ cause, observe (Cause.hid (answerView hid) cause) =
      observe (Cause.ble (answerView hid) cause)) {l : Link} (hmtu : 6 ≤ l.getMtuSize)
    (hqueue : l.notifications = []) {c : Client C η α}
    (hc : OpensNamed (apduDevice C dev l.reassembler.frames) c) :
    ∃ cmds o l', o = (Call.run (hidEnv (answerView hid) (apduDevice C dev l.reassembler.frames)) []
          (c.hid observe)).2 ∧
      cmds = exchanged (Call.run (hidEnv (answerView hid)
          (apduDevice C dev l.reassembler.frames)) [] (c.hid observe)).1 ∧
      l'.notifications = [] ∧
      l'.reassembler.frames = l.reassembler.frames ++ cmds.map C.serialize ∧
      (∃ es, Run (QuietStep dev) (Task.ofCall l.getMtuSize (c.ble observe), l) es
        (.finished o, l')) ∧
      ∀ es s, Run (HarmlessStep dev) (Task.ofCall l.getMtuSize (c.ble observe), l) es s →
        ∃ es', Run (QuietStep dev) s es' (.finished o, l') := by
  obtain ⟨es, l', hrun, -, hframes, hnotifications⟩ :=
    @run_program_represents C α dev (c.ble observe) l _ hmtu (represents_fresh hqueue)
  obtain ⟨hcmds, hend⟩ := run_client_related hobserve hc
  have hserve := serve_exchange dev l.reassembler.frames hid (only_fits_client hA observe c)
  dsimp only at hserve
  rw [← hcmds, ← hend] at hserve
  rw [hserve] at hrun hframes hnotifications
  exact ⟨_, _, l', rfl, rfl, hnotifications, hframes, ⟨es, hrun⟩,
    fun es₁ s₁ h₁ => ends_of_harmlessRun (atAwait_ofCall _ _) hrun h₁⟩

theorem client_over_packets_counting :
    ∃ es l', Run (QuietStep countingSigner.answer)
        (Task.ofCall 20 (versionThenSign.ble apduMessage), Link.opened 20) es
        (.finished (.ok (.ok [2])), l') ∧ l'.notifications = [] := by
  obtain ⟨cmds, o, l', rfl, -, hnotifications, -, ⟨es, hrun⟩, -⟩ :=
    client_over_packets Crates.reference_apduDoc countingSigner.answer (fun err => err.display)
      (apduMessage_cause _) (l := Link.opened 20) (by decide) rfl
      (opensNamed_versionThenSign (apduDevice Crates.reference countingSigner.answer []))
  exact ⟨es, l', hrun, hnotifications⟩

end NearLedger
