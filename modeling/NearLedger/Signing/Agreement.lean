/-
  NearLedger.Signing.Agreement

  The three copies of the signing loop against one device.  A device is any
  function from the commands it has received to a reply or a transport failure;
  HID and BLE see the same device through their own error types.
-/

import NearLedger.Signing.Commands

namespace NearLedger

open Interaction Slices

/-- A device, as the transports show it: the commands received so far, the last one included,
    determine the reply or the transport failure. -/
abbrev Device (C : Crates) (F : Type) := List APDUCommand → Except F C.APDUAnswer

/-- How HID and BLE report the failures of a transport. -/
structure FailureView (C : Crates) (F : Type) where
  hid : F → C.LedgerHIDError
  ble : F → BleError C

/-- The commands among the requests of a HID function. -/
def exchanged : List HidReq → List APDUCommand
  | [] => []
  | .exchange command :: reqs => command :: exchanged reqs
  | _ :: reqs => exchanged reqs

@[simp] theorem exchanged_append (xs ys : List HidReq) :
    exchanged (xs ++ ys) = exchanged xs ++ exchanged ys := by
  induction xs with
  | nil => rfl
  | cons x xs ih => cases x <;> simp [exchanged, ih]

/-- The HID transport to a device, with a `get_transport` that succeeds. -/
def hidEnv {C : Crates} {F : Type} (view : FailureView C F) (dev : Device C F) :
    Env HidReq (HidReq.Reply C)
  | _, .hidApiNew => .ok ()
  | _, .transportNew => .ok ()
  | h, .exchange command => (dev (exchanged h ++ [command])).mapError view.hid

/-- The BLE transport to a device. -/
def bleEnv {C : Crates} {F : Type} (view : FailureView C F) (dev : Device C F) :
    Env APDUCommand (BleReply C) :=
  fun h command => (dev (h ++ [command])).mapError view.ble

/-- Why a call failed. -/
inductive Cause (F : Type) where
  | status (retcode : UInt16)
  | transport (failure : F)
  | message (text : String)

/-- The error of a HID function for a cause. -/
def Cause.hid {C : Crates} {F : Type} (view : FailureView C F) : Cause F → NEARLedgerError C
  | status retcode => .apduExchangeError (retcodeToErrorString retcode)
  | transport failure => .ledgerHIDError (view.hid failure)
  | message text => .apduExchangeError text

/-- The error of a BLE function for a cause. -/
def Cause.ble {C : Crates} {F : Type} (view : FailureView C F) : Cause F → NEARLedgerError C
  | status retcode => .apduExchangeError (retcodeToErrorString retcode)
  | transport failure => .ofBleError (view.ble failure)
  | message text => .apduExchangeError text

/-- An outcome up to the way errors are reported. -/
def report {C : Crates} {F α : Type} (toError : Cause F → NEARLedgerError C) :
    Except (Cause F) α → Outcome (NEARLedgerError C) α
  | .ok a => .ok a
  | .error cause => .err (toError cause)

/-! ## What a device does with a stream of commands -/

variable {C : Crates} {F : Type}

/-- A reply with return code `0x9000`. -/
def Succeeds (reply : Except F C.APDUAnswer) : Prop :=
  ∃ response, reply = .ok response ∧ C.retcode response = returnCodeOk

instance (reply : Except F C.APDUAnswer) : Decidable (Succeeds reply) :=
  match reply with
  | .ok response => decidable_of_iff (C.retcode response = returnCodeOk) (by simp [Succeeds])
  | .error _ => .isFalse (by simp [Succeeds])

/-- The cause of a reply that is not a success. -/
def causeOf : Except F C.APDUAnswer → Cause F
  | .ok response => .status (C.retcode response)
  | .error failure => .transport failure

/-- The position of the first command of the stream that does not succeed. -/
def firstFailure (dev : Device C F) (stream : List APDUCommand) : Option Nat :=
  (List.range stream.length).find? fun i => ¬ Succeeds (dev (stream.take (i + 1)))

/-- The commands issued: up to the first failure, or all of them. -/
def issued (dev : Device C F) (stream : List APDUCommand) : List APDUCommand :=
  match firstFailure dev stream with
  | some i => stream.take (i + 1)
  | none => stream

/-- The data of a reply. -/
def answerOf : Except F C.APDUAnswer → Except (Cause F) Bytes
  | .ok response => .ok (C.answerData response)
  | .error failure => .error (.transport failure)

/-- The result: the cause of the first failure, or the data of the reply to the last command. -/
def result (dev : Device C F) (stream : List APDUCommand) : Except (Cause F) Bytes :=
  match firstFailure dev stream with
  | some i => .error (causeOf (dev (stream.take (i + 1))))
  | none =>
      if stream = [] then .error (.message "Unable to process request") else answerOf (dev stream)

/-- The device after it has received the commands `h`. -/
def Device.after (dev : Device C F) (h : List APDUCommand) : Device C F := fun cmds => dev (h ++ cmds)

theorem Device.after_after (dev : Device C F) (h h' : List APDUCommand) :
    (dev.after h).after h' = dev.after (h ++ h') := by
  funext cmds
  simp only [Device.after, List.append_assoc]

theorem firstFailure_nil (dev : Device C F) : firstFailure dev [] = none := rfl

theorem firstFailure_cons (dev : Device C F) (c : APDUCommand) (rest : List APDUCommand) :
    firstFailure dev (c :: rest) =
      if Succeeds (dev [c]) then (firstFailure (dev.after [c]) rest).map (· + 1) else some 0 := by
  rw [firstFailure, List.length_cons, List.range_succ_eq_map, List.find?_cons]
  by_cases h : Succeeds (dev [c])
  · simp only [List.take_succ_cons, List.take_zero, h, not_true_eq_false, decide_false, if_true,
      List.find?_map]
    rfl
  · simp [h]

theorem issued_cons_of_succeeds {dev : Device C F} {c : APDUCommand} (h : Succeeds (dev [c]))
    (rest : List APDUCommand) : issued dev (c :: rest) = c :: issued (dev.after [c]) rest := by
  rw [issued, firstFailure_cons, if_pos h, issued]
  cases firstFailure (dev.after [c]) rest <;> rfl

theorem issued_cons_of_fails {dev : Device C F} {c : APDUCommand} (h : ¬ Succeeds (dev [c]))
    (rest : List APDUCommand) : issued dev (c :: rest) = [c] := by
  rw [issued, firstFailure_cons, if_neg h]
  rfl

theorem result_cons_of_succeeds {dev : Device C F} {c : APDUCommand} (h : Succeeds (dev [c]))
    {rest : List APDUCommand} (hrest : rest ≠ []) :
    result dev (c :: rest) = result (dev.after [c]) rest := by
  rw [result, firstFailure_cons, if_pos h, result]
  cases firstFailure (dev.after [c]) rest with
  | none =>
      simp only [Option.map_none, if_neg hrest]
      rfl
  | some i => rfl

theorem result_singleton_of_ok {dev : Device C F} {c : APDUCommand} {response : C.APDUAnswer}
    (h : dev [c] = .ok response) (hok : C.retcode response = returnCodeOk) :
    result dev [c] = .ok (C.answerData response) := by
  have hs : Succeeds (dev [c]) := ⟨response, h, hok⟩
  rw [result, firstFailure_cons, if_pos hs, firstFailure_nil]
  simp only [Option.map_none, h]
  rfl

theorem result_cons_of_fails {dev : Device C F} {c : APDUCommand} (h : ¬ Succeeds (dev [c]))
    (rest : List APDUCommand) : result dev (c :: rest) = .error (causeOf (dev [c])) := by
  rw [result, firstFailure_cons, if_neg h]
  rfl

/-! ## The loops of the two transports -/

/-- The environment is a transport to the device: `seen` are the commands that a history has brought
    to the device, and `causeError` gives the errors for the causes. -/
structure Wire.Reaches {Req E : Type} {Resp : Req → Type} (w : Wire C Resp E) (dev : Device C F)
    (env : Env Req Resp) (seen : List Req → List APDUCommand)
    (causeError : Cause F → NEARLedgerError C) : Prop where
  seen_append : ∀ h h', seen (h ++ h') = seen h ++ seen h'
  seen_exchange : ∀ c, seen [w.exchange c] = [c]
  ok : ∀ h c response, dev (seen h ++ [c]) = .ok response →
    w.answer c (env h (w.exchange c)) = .ok response
  error : ∀ h c failure, dev (seen h ++ [c]) = .error failure →
    ∃ err, w.answer c (env h (w.exchange c)) = .error err ∧
      w.toError err = causeError (.transport failure)
  status : ∀ retcode,
    causeError (.status retcode) = .apduExchangeError (retcodeToErrorString retcode)
  message : ∀ text, causeError (.message text) = .apduExchangeError text

variable (view : FailureView C F)

theorem hidEnv_exchange (dev : Device C F) (h : List HidReq) (c : APDUCommand) :
    hidEnv view dev h (.exchange c) = (dev.after (exchanged h) [c]).mapError view.hid := rfl

theorem bleEnv_apply (dev : Device C F) (h : List APDUCommand) (c : APDUCommand) :
    bleEnv view dev h c = (dev.after h [c]).mapError view.ble := rfl

theorem hidEnv_reaches (dev : Device C F) :
    (Wire.hid C).Reaches dev (hidEnv view dev) exchanged (Cause.hid view) where
  seen_append := exchanged_append
  seen_exchange _ := rfl
  ok h c response hreply := by
    show hidEnv view dev h (.exchange c) = _
    rw [hidEnv, hreply]
    rfl
  error h c failure hreply := by
    refine ⟨view.hid failure, ?_, rfl⟩
    show hidEnv view dev h (.exchange c) = _
    rw [hidEnv, hreply]
    rfl
  status _ := rfl
  message _ := rfl

theorem bleEnv_reaches (dev : Device C F) :
    (Wire.ble C).Reaches dev (bleEnv view dev) id (Cause.ble view) where
  seen_append _ _ := rfl
  seen_exchange _ := rfl
  ok h c response hreply := by
    show bleEnv view dev h c = _
    rw [bleEnv, ← id_eq h, hreply]
    rfl
  error h c failure hreply := by
    refine ⟨view.ble failure, ?_, rfl⟩
    show bleEnv view dev h c = _
    rw [bleEnv, ← id_eq h, hreply]
    rfl
  status _ := rfl
  message _ := rfl

namespace Wire.Reaches

variable {Req E α : Type} {Resp : Req → Type} {w : Wire C Resp E} {dev : Device C F}
  {env : Env Req Resp} {seen : List Req → List APDUCommand}
  {causeError : Cause F → NEARLedgerError C} (hw : w.Reaches dev env seen causeError)

include hw

/-- A command that does not succeed ends the function with its cause. -/
theorem run_command_of_fails {h : List Req} {c : APDUCommand}
    {g : C.APDUAnswer → Call Req Resp (NEARLedgerError C) α}
    (hfails : ¬ Succeeds (dev (seen h ++ [c]))) :
    Call.run env h (w.command c g) =
      ([w.exchange c], .err (causeError (causeOf (dev (seen h ++ [c]))))) := by
  rw [Wire.command, Call.run_request]
  cases hreply : dev (seen h ++ [c]) with
  | error failure =>
      obtain ⟨err, hanswer, herror⟩ := hw.error h c failure hreply
      rw [hanswer, Wire.onReply, herror]
      rfl
  | ok response =>
      have hretcode : C.retcode response ≠ returnCodeOk := fun hok =>
        hfails ⟨response, hreply, hok⟩
      rw [hw.ok h c response hreply, Wire.onReply, if_neg hretcode, causeOf, hw.status]
      rfl

/-- After a response of `0x9000` it goes on. -/
theorem run_command_of_ok {h : List Req} {c : APDUCommand} {response : C.APDUAnswer}
    {g : C.APDUAnswer → Call Req Resp (NEARLedgerError C) α}
    (hreply : dev (seen h ++ [c]) = .ok response) (hok : C.retcode response = returnCodeOk) :
    Call.run env h (w.command c g) =
      (w.exchange c :: (Call.run env (h ++ [w.exchange c]) (g response)).1,
        (Call.run env (h ++ [w.exchange c]) (g response)).2) := by
  rw [Wire.command, Call.run_request, hw.ok h c response hreply, Wire.onReply_ok hok]

/-- The loop over the chunks issues `issued` and ends in `result`. -/
theorem run_signingLoop (ins : UInt8) (cs : List Bytes) (h : List Req) :
    seen (Call.run env h (w.signingLoop ins cs)).1 =
        issued (dev.after (seen h)) (commandsOf ins cs) ∧
      (Call.run env h (w.signingLoop ins cs)).2 =
        report causeError (result (dev.after (seen h)) (commandsOf ins cs)) := by
  have hnothing : seen [] = [] := by
    have hlength := congrArg List.length (hw.seen_append [] [])
    rw [List.append_nil, List.length_append] at hlength
    exact List.length_eq_zero_iff.mp (by omega)
  induction cs generalizing h with
  | nil => exact ⟨hnothing, congrArg Outcome.err (hw.message _).symm⟩
  | cons chunk cs ih =>
      rw [Wire.signingLoop, commandsOf]
      generalize signingCommand ins cs.isEmpty chunk = c
      have hnext := ih (h ++ [w.exchange c])
      rw [hw.seen_append, hw.seen_exchange, ← Device.after_after] at hnext
      have hissues : ∀ qs, seen (w.exchange c :: qs) = c :: seen qs := fun qs => by
        rw [← List.singleton_append, hw.seen_append, hw.seen_exchange, List.singleton_append]
      by_cases hs : Succeeds ((dev.after (seen h)) [c])
      · obtain ⟨response, hreply, hok⟩ := id hs
        rw [hw.run_command_of_ok hreply hok, issued_cons_of_succeeds hs, hissues]
        cases cs with
        | nil =>
            rw [commandsOf_nil, result_singleton_of_ok hreply hok]
            exact ⟨congrArg (c :: ·) hnothing, rfl⟩
        | cons chunk' cs =>
            rw [result_cons_of_succeeds hs (by simp [commandsOf])]
            exact ⟨congrArg (c :: ·) hnext.1, hnext.2⟩
      · rw [hw.run_command_of_fails hs, issued_cons_of_fails hs, result_cons_of_fails hs]
        exact ⟨hw.seen_exchange c, rfl⟩

end Wire.Reaches

/-! ## The functions of the source -/

theorem run_getTransport (dev : Device C F) (h : List HidReq) :
    Call.run (hidEnv view dev) h Hid.getTransport = ([.hidApiNew, .transportNew], .ok ()) := rfl

theorem run_sendPayloadApdus (dev : Device C F) {path : C.BIP32Path} {indices : List UInt32}
    (hpath : pathIndices path = some indices) (payload : Bytes) (ins : UInt8) :
    exchanged (Call.run (hidEnv view dev) [] (Hid.sendPayloadApdus payload path ins)).1 =
        issued dev (signingCommands ins (indices.flatMap Bytes.u32ToBeBytes ++ payload)) ∧
      (Call.run (hidEnv view dev) [] (Hid.sendPayloadApdus payload path ins)).2 =
        report (Cause.hid view)
          (result dev (signingCommands ins (indices.flatMap Bytes.u32ToBeBytes ++ payload))) := by
  have hloop := (hidEnv_reaches view dev).run_signingLoop ins
    (chunks chunkSize (indices.flatMap Bytes.u32ToBeBytes ++ payload)) [.hidApiNew, .transportNew]
  rw [← sendChunks_eq ins _ 0, Nat.zero_add] at hloop
  simp only [Hid.sendPayloadApdus, Call.run_bind, run_getTransport, hdPathToBytes_eq_some hpath,
    Call.run_orPanic_some, List.nil_append, List.append_nil]
  exact hloop

theorem run_sendPayloadApdusBle (dev : Device C F) {path : C.BIP32Path} {indices : List UInt32}
    (hpath : pathIndices path = some indices) (payload : Bytes) (ins : UInt8) :
    Call.run (bleEnv view dev) [] (BleApi.sendPayloadApdusBle payload path ins) =
      (issued dev (signingCommands ins (indices.flatMap Bytes.u32ToBeBytes ++ payload)),
        report (Cause.ble view)
          (result dev (signingCommands ins (indices.flatMap Bytes.u32ToBeBytes ++ payload)))) := by
  obtain ⟨hissued, hresult⟩ := (bleEnv_reaches view dev).run_signingLoop ins
    (chunks chunkSize (indices.flatMap Bytes.u32ToBeBytes ++ payload)) []
  rw [sendPayloadApdusBle_eq hpath, loopBle_eq]
  exact Prod.ext hissued hresult

theorem map_command_printPayloadApdus {path : C.BIP32Path} {indices : List UInt32}
    (hpath : pathIndices path = some indices) (payload : Bytes) (ins : UInt8) :
    ∃ log, PrintApdus.printPayloadApdus payload path ins = some log ∧
      log.map LogEntry.command =
        signingCommands ins (indices.flatMap Bytes.u32ToBeBytes ++ payload) := by
  have hprint := map_command_printChunks ins
    (chunks chunkSize (indices.flatMap Bytes.u32ToBeBytes ++ payload)) 0
  rw [Nat.zero_add] at hprint
  refine ⟨_, ?_, hprint⟩
  rw [PrintApdus.printPayloadApdus, hdPathToBytes_eq_some hpath]
  rfl

/-! ## When signing succeeds -/

theorem firstFailure_eq_none_iff {dev : Device C F} {stream : List APDUCommand} :
    firstFailure dev stream = none ↔
      ∀ i, i < stream.length → Succeeds (dev (stream.take (i + 1))) := by
  rw [firstFailure, List.find?_eq_none]
  simp

/-- The result is a value exactly when there is a command and every reply is `0x9000`; the value
    is then the data of the reply to the last command. -/
theorem result_eq_ok_iff {dev : Device C F} {stream : List APDUCommand} {sig : Bytes} :
    result dev stream = .ok sig ↔
      stream ≠ [] ∧ (∀ i, i < stream.length → Succeeds (dev (stream.take (i + 1)))) ∧
        ∃ response, dev stream = .ok response ∧ sig = C.answerData response := by
  rw [← firstFailure_eq_none_iff, result]
  cases firstFailure dev stream with
  | some i => simp
  | none =>
      by_cases hnil : stream = []
      · simp [hnil]
      · simp only [if_neg hnil, answerOf]
        cases dev stream with
        | ok response => simp [hnil, eq_comm]
        | error failure => simp

/-- Every command of the stream got `0x9000` and there was one: the last reply is a response. -/
theorem exists_response_of_succeeds {dev : Device C F} {stream : List APDUCommand}
    (hne : stream ≠ []) (h : ∀ i, i < stream.length → Succeeds (dev (stream.take (i + 1)))) :
    ∃ response, dev stream = .ok response ∧ C.retcode response = returnCodeOk := by
  have hpos := List.length_pos_iff.mpr hne
  have hlast := h (stream.length - 1) (by omega)
  rwa [Nat.sub_add_cancel hpos, List.take_length] at hlast

theorem length_signingCommands (ins : UInt8) (data : Bytes) :
    (signingCommands ins data).length = (data.length + 249) / 250 := by
  rw [signingCommands, length_commandsOf, length_chunks (by decide), chunkSize]
  rfl

/-- HID, BLE and the printer agree.  The stream is what `print_payload_apdus` logs; both signing
    functions issue it up to the first failure and end alike. -/
theorem signing_copies_agree (hC : C.PathDoc) (view : FailureView C F) (dev : Device C F)
    (payload : Bytes) (path : C.BIP32Path) (ins : UInt8) :
    ∃ log, PrintApdus.printPayloadApdus payload path ins = some log ∧
      ∃ stream, stream = log.map LogEntry.command ∧
        stream.length = (4 * (C.depth path).toNat + payload.length + 249) / 250 ∧
        exchanged (Call.run (hidEnv view dev) [] (Hid.sendPayloadApdus payload path ins)).1 =
          issued dev stream ∧
        (Call.run (bleEnv view dev) [] (BleApi.sendPayloadApdusBle payload path ins)).1 =
          issued dev stream ∧
        (Call.run (hidEnv view dev) [] (Hid.sendPayloadApdus payload path ins)).2 =
          report (Cause.hid view) (result dev stream) ∧
        (Call.run (bleEnv view dev) [] (BleApi.sendPayloadApdusBle payload path ins)).2 =
          report (Cause.ble view) (result dev stream) ∧
        ((∃ sig, result dev stream = .ok sig) ↔
          stream ≠ [] ∧ ∀ i, i < stream.length → Succeeds (dev (stream.take (i + 1)))) ∧
        (∀ sig, result dev stream = .ok sig →
          ∃ response, dev stream = .ok response ∧ sig = C.answerData response) := by
  obtain ⟨indices, hpath⟩ := pathIndices_eq_some hC path
  obtain ⟨log, hlog, hstream⟩ := map_command_printPayloadApdus hpath payload ins
  obtain ⟨hhid, hhid'⟩ := run_sendPayloadApdus view dev hpath payload ins
  have hble := run_sendPayloadApdusBle view dev hpath payload ins
  refine ⟨log, hlog, _, rfl, ?_, ?_, ?_, ?_, ?_, ?_, ?_⟩
  · rw [hstream, length_signingCommands, List.length_append, Bytes.length_flatMap_u32ToBeBytes,
      length_pathIndices hpath]
  · rw [hstream, hhid]
  · rw [hstream, hble]
  · rw [hstream, hhid']
  · rw [hstream, hble]
  · constructor
    · rintro ⟨sig, hsig⟩
      obtain ⟨hne, hall, -⟩ := result_eq_ok_iff.mp hsig
      exact ⟨hne, hall⟩
    · rintro ⟨hne, hall⟩
      obtain ⟨response, hresponse, -⟩ := exists_response_of_succeeds hne hall
      exact ⟨_, result_eq_ok_iff.mpr ⟨hne, hall, response, hresponse, rfl⟩⟩
  · intro sig hsig
    exact (result_eq_ok_iff.mp hsig).2.2

/-! ## A concrete device -/

/-- A view of failures that tells HID and BLE the text of the failure. -/
def textView : FailureView Crates.reference String where
  hid text := text
  ble text := .ble text

/-- A device that answers every command with its number and `0x9000`. -/
def countingDevice : Device Crates.reference String :=
  fun h => .ok ([UInt8.ofNat h.length], 0x90, 0x00)

theorem signing_copies_agree_counting :
    ∃ log, PrintApdus.printPayloadApdus [7, 8] (Crates.pathOne 44) insSignTransaction = some log ∧
      ∃ stream, stream = log.map LogEntry.command ∧ stream.length = 1 ∧
        (Call.run (bleEnv textView countingDevice) []
          (BleApi.sendPayloadApdusBle [7, 8] (Crates.pathOne 44) insSignTransaction)).2 =
          report (Cause.ble textView) (result countingDevice stream) := by
  obtain ⟨log, hlog, stream, hstream, hlen, -, -, -, hble, -⟩ :=
    signing_copies_agree Crates.reference_pathDoc textView countingDevice [7, 8]
      (Crates.pathOne 44) insSignTransaction
  exact ⟨log, hlog, stream, hstream, hlen, hble⟩

end NearLedger
