/-
  NearLedger.OpenApplication

  `open_near_application` over HID and over BLE against one device.  Each helper
  has one lemma that says which command it issues and what it makes of the
  reply; the two protocols then follow the same plan (`openPlan`).  They differ
  in one place: the HID parser indexes the app-name reply without looking at its
  length, so it panics on a reply of `0x9000` whose name is missing or cut off.
-/

import NearLedger.Signing.Agreement

namespace NearLedger

open Interaction Slices

/-! ## The commands and the app-name reply -/

def getAppNameCommand : APDUCommand :=
  { cla := claDashboard, ins := insGetAppName, p1 := 0, p2 := 0, data := [] }

def quitAppCommand : APDUCommand :=
  { cla := claDashboard, ins := insQuitApp, p1 := 0, p2 := 0, data := [] }

def openAppCommand : APDUCommand :=
  { cla := claOpenApp, ins := insOpenApp, p1 := 0, p2 := 0, data := [0x4E, 0x45, 0x41, 0x52] }

/-- The name in an app-name reply `[format, length, name]`, `none` when the reply is too short for
    the length byte or for the name it declares. -/
def appName? (data : Bytes) : Option String :=
  match data[1]? with
  | none => none
  | some appNameLen => (slice data 2 (2 + appNameLen.toNat)).map Utf8.fromUtf8Lossy

/-- A reply too short for the length byte, or for the name that byte declares. -/
def TooShortForName (data : Bytes) : Prop :=
  data.length < 2 ∨ ∃ appNameLen, data[1]? = some appNameLen ∧ data.length < 2 + appNameLen.toNat

theorem appName?_eq_none_iff {data : Bytes} : appName? data = none ↔ TooShortForName data := by
  rw [appName?, TooShortForName]
  cases h : data[1]? with
  | none =>
      have hlen : data.length ≤ 1 := List.getElem?_eq_none_iff.mp h
      simp
      omega
  | some appNameLen =>
      obtain ⟨hlen, -⟩ := List.getElem?_eq_some_iff.mp h
      simp [slice]
      omega

variable {C : Crates} {F : Type}

/-- The device answers the app-name command with `0x9000` and a reply that holds no whole name. -/
def MalformedAppName (dev : Device C F) : Prop :=
  ∃ response, dev [getAppNameCommand] = .ok response ∧ C.retcode response = returnCodeOk ∧
    TooShortForName (C.answerData response)

/-! ## What the helpers make of a reply -/

/-- The result of a command whose reply carries no data. -/
def statusResult : Except F C.APDUAnswer → Except (Cause F) Unit
  | .ok response =>
      if C.retcode response = returnCodeOk then .ok () else .error (.status (C.retcode response))
  | .error failure => .error (.transport failure)

/-- The result of the app-name command, as `running_app_name_ble` has it. -/
def nameResult : Except F C.APDUAnswer → Except (Cause F) String
  | .ok response =>
      if C.retcode response = returnCodeOk then
        match appName? (C.answerData response) with
        | some name => .ok name
        | none =>
            if (C.answerData response).length < 2 then .error (.message "App name response too short")
            else .error (.message "App name response truncated")
      else if C.retcode response = returnCodeUnknownError then
        .error (.message "The ledger most likely is locked. Please unlock ledger or reconnect it")
      else .error (.status (C.retcode response))
  | .error failure => .error (.transport failure)

theorem statusResult_eq_ok_iff {reply : Except F C.APDUAnswer} :
    statusResult reply = .ok () ↔ Succeeds reply := by
  cases reply with
  | error failure => simp [statusResult, Succeeds]
  | ok response =>
      by_cases h : C.retcode response = returnCodeOk <;> simp [statusResult, Succeeds, h]

theorem statusResult_eq_error {reply : Except F C.APDUAnswer} (h : ¬ Succeeds reply) :
    statusResult reply = .error (causeOf reply) := by
  cases reply with
  | error failure => rfl
  | ok response =>
      have hretcode : C.retcode response ≠ returnCodeOk := fun hok => h ⟨response, rfl, hok⟩
      rw [statusResult, if_neg hretcode, causeOf]

/-- A name is returned only for a reply of `0x9000` that holds it whole. -/
theorem nameResult_eq_ok {reply : Except F C.APDUAnswer} {name : String}
    (h : nameResult reply = .ok name) :
    ∃ response, reply = .ok response ∧ C.retcode response = returnCodeOk ∧
      appName? (C.answerData response) = some name := by
  cases reply with
  | error failure => simp [nameResult] at h
  | ok response =>
      refine ⟨response, rfl, ?_⟩
      by_cases hok : C.retcode response = returnCodeOk
      · refine ⟨hok, ?_⟩
        rw [nameResult, if_pos hok] at h
        cases hname : appName? (C.answerData response) with
        | some name' =>
            rw [hname] at h
            cases h
            rfl
        | none =>
            rw [hname] at h
            dsimp only at h
            split at h <;> cases h
      · rw [nameResult, if_neg hok] at h
        split at h <;> cases h

/-- A command of whose reply only the return code matters. -/
theorem Wire.Reaches.run_status {Req E : Type} {Resp : Req → Type} {w : Wire C Resp E}
    {dev : Device C F} {env : Env Req Resp} {seen : List Req → List APDUCommand}
    {causeError : Cause F → NEARLedgerError C} (hw : w.Reaches dev env seen causeError)
    (h : List Req) (c : APDUCommand) :
    Call.run env h (w.command c fun _ => pure ()) =
      ([w.exchange c], report causeError (statusResult (dev (seen h ++ [c])))) := by
  by_cases hs : Succeeds (dev (seen h ++ [c]))
  · rw [statusResult_eq_ok_iff.mpr hs]
    obtain ⟨response, hreply, hok⟩ := hs
    rw [hw.run_command_of_ok hreply hok]
    rfl
  · rw [hw.run_command_of_fails hs, statusResult_eq_error hs]
    rfl

/-! ## The helpers over HID -/

variable (view : FailureView C F) (dev : Device C F)

/-- A command over HID of whose reply only the return code matters. -/
def statusHid (command : APDUCommand) : HidCall C Unit := do
  Hid.getTransport
  (Wire.hid C).command command fun _ => pure ()

theorem quitOpenApplication_eq :
    (Hid.quitOpenApplication : HidCall C Unit) = statusHid quitAppCommand := by
  rw [Hid.quitOpenApplication, statusHid]
  refine Wire.getTransport_exchange_eq_command fun reply => ?_
  cases reply <;> rfl

theorem openApplication_eq :
    (Hid.openApplication : HidCall C Unit) = statusHid openAppCommand := by
  rw [Hid.openApplication, statusHid]
  refine Wire.getTransport_exchange_eq_command fun reply => ?_
  cases reply <;> rfl

/-- The beginning of every HID function with one exchange: open the transport, exchange, go on
    with the reply. -/
theorem run_getTransport_exchange {α : Type} (h : List HidReq) (command : APDUCommand)
    (f : HidReq.Reply C (.exchange command) → HidCall C α) :
    Call.run (hidEnv view dev) h (do Hid.getTransport; let reply ← Hid.exchange command; f reply) =
      let r := Call.run (hidEnv view dev) (h ++ [.hidApiNew, .transportNew, .exchange command])
        (f ((dev (exchanged h ++ [command])).mapError view.hid))
      ([.hidApiNew, .transportNew, .exchange command] ++ r.1, r.2) := by
  have hreply : hidEnv view dev (h ++ [.hidApiNew, .transportNew]) (.exchange command) =
      (dev (exchanged h ++ [command])).mapError view.hid := by
    simp [hidEnv, exchanged]
  have hexchange : Call.run (hidEnv view dev) (h ++ [.hidApiNew, .transportNew])
      (Hid.exchange command : HidCall C _) =
      ([.exchange command], .ok ((dev (exchanged h ++ [command])).mapError view.hid)) := by
    rw [Hid.exchange, Call.run_ask, hreply]
  rw [Call.run_bind, run_getTransport]
  dsimp only
  rw [Call.run_bind, hexchange]
  simp only [List.append_assoc, List.cons_append, List.nil_append]

theorem run_statusHid (h : List HidReq) (command : APDUCommand) :
    Call.run (hidEnv view dev) h (statusHid command) =
      ([.hidApiNew, .transportNew, .exchange command],
        report (Cause.hid view) (statusResult (dev (exchanged h ++ [command])))) := by
  have hseen : exchanged (h ++ [.hidApiNew, .transportNew]) = exchanged h := by simp [exchanged]
  rw [statusHid, Call.run_bind, run_getTransport]
  dsimp only
  rw [(hidEnv_reaches view dev).run_status, hseen]
  rfl

/-- What `running_app_name` makes of the reply. -/
def afterAppName : Except C.LedgerHIDError C.APDUAnswer → HidCall C String
  | .ok response =>
      if C.retcode response = returnCodeOk then do
        let appNameLen ← Call.orPanic (C.answerData response)[1]?
        let appName ← Call.orPanic (slice (C.answerData response) 2 (2 + appNameLen.toNat))
        pure (Utf8.fromUtf8Lossy appName)
      else if C.retcode response = returnCodeUnknownError then
        Call.throw (.apduExchangeError
          "The ledger most likely is locked. Please unlock ledger or reconnect it")
      else Call.throw (.apduExchangeError (retcodeToErrorString (C.retcode response)))
  | .error err => Call.throw (.ledgerHIDError err)

theorem runningAppName_eq :
    (Hid.runningAppName : HidCall C String) = (do
      Hid.getTransport
      let reply ← Hid.exchange getAppNameCommand
      afterAppName reply) := by
  rw [Hid.runningAppName]
  congr 1

/-- The HID parser indexes and slices without a check: it returns the name or panics. -/
theorem run_afterAppName_ok (h : List HidReq) {response : C.APDUAnswer}
    (hok : C.retcode response = returnCodeOk) :
    Call.run (hidEnv view dev) h (afterAppName (.ok response)) =
      ([], match appName? (C.answerData response) with
        | some name => .ok name
        | none => .panicked) := by
  rw [afterAppName, if_pos hok, appName?]
  cases (C.answerData response)[1]? with
  | none => rfl
  | some appNameLen =>
      simp only [Call.run_bind, Call.run_orPanic_some]
      cases slice (C.answerData response) 2 (2 + appNameLen.toNat) <;> rfl

theorem run_afterAppName {reply : Except F C.APDUAnswer} (h : List HidReq)
    (hname : ∀ response, reply = .ok response → C.retcode response = returnCodeOk →
      appName? (C.answerData response) ≠ none) :
    Call.run (hidEnv view dev) h (afterAppName (reply.mapError view.hid)) =
      ([], report (Cause.hid view) (nameResult reply)) := by
  cases reply with
  | error failure => rfl
  | ok response =>
      by_cases hok : C.retcode response = returnCodeOk
      · obtain ⟨name, hsome⟩ := Option.ne_none_iff_exists'.mp (hname response rfl hok)
        rw [Except.mapError, run_afterAppName_ok view dev h hok, nameResult, if_pos hok, hsome]
        rfl
      · rw [Except.mapError, afterAppName, if_neg hok, nameResult, if_neg hok]
        by_cases hlocked : C.retcode response = returnCodeUnknownError
        · rw [if_pos hlocked, if_pos hlocked]
          rfl
        · rw [if_neg hlocked, if_neg hlocked]
          rfl

theorem run_runningAppName (hname : ¬ MalformedAppName dev) :
    Call.run (hidEnv view dev) [] Hid.runningAppName =
      ([.hidApiNew, .transportNew, .exchange getAppNameCommand],
        report (Cause.hid view) (nameResult (dev [getAppNameCommand]))) := by
  rw [runningAppName_eq, run_getTransport_exchange, run_afterAppName]
  · rfl
  · intro response hreply hok hnone
    exact hname ⟨response, hreply, hok, appName?_eq_none_iff.mp hnone⟩

theorem run_runningAppName_of_malformed (hname : MalformedAppName dev) :
    Call.run (hidEnv view dev) [] Hid.runningAppName =
      ([.hidApiNew, .transportNew, .exchange getAppNameCommand], .panicked) := by
  obtain ⟨response, hreply, hok, hshort⟩ := hname
  rw [runningAppName_eq, run_getTransport_exchange,
    show exchanged [] ++ [getAppNameCommand] = [getAppNameCommand] from rfl, hreply,
    Except.mapError, run_afterAppName_ok view dev _ hok, appName?_eq_none_iff.mpr hshort]
  rfl

/-! ## The helpers over BLE -/

/-- A command over BLE of whose reply only the return code matters. -/
def statusBle (command : APDUCommand) : BleCall C Unit :=
  (Wire.ble C).command command fun _ => pure ()

theorem quitOpenApplicationBle_eq :
    (BleApi.quitOpenApplicationBle : BleCall C Unit) = statusBle quitAppCommand := by
  refine (Wire.ble C).ask_bind_eq_command fun reply => ?_
  cases reply <;> rfl

theorem openApplicationBle_eq :
    (BleApi.openApplicationBle : BleCall C Unit) = statusBle openAppCommand := by
  refine (Wire.ble C).ask_bind_eq_command fun reply => ?_
  cases reply <;> rfl

theorem run_statusBle (h : List APDUCommand) (command : APDUCommand) :
    Call.run (bleEnv view dev) h (statusBle command) =
      ([command], report (Cause.ble view) (statusResult (dev (h ++ [command])))) :=
  (bleEnv_reaches view dev).run_status h command

/-- What `running_app_name_ble` makes of the reply. -/
def afterAppNameBle : Except (BleError C) C.APDUAnswer → BleCall C String
  | .ok response =>
      if C.retcode response = returnCodeOk then
        let data := C.answerData response
        if data.length < 2 then
          Call.throw (.apduExchangeError "App name response too short")
        else do
          let appNameLen ← Call.orPanic data[1]?
          if data.length < 2 + appNameLen.toNat then
            Call.throw (.apduExchangeError "App name response truncated")
          else do
            let appName ← Call.orPanic (slice data 2 (2 + appNameLen.toNat))
            pure (Utf8.fromUtf8Lossy appName)
      else if C.retcode response = returnCodeUnknownError then
        Call.throw (.apduExchangeError
          "The ledger most likely is locked. Please unlock ledger or reconnect it")
      else Call.throw (.apduExchangeError (retcodeToErrorString (C.retcode response)))
  | .error err => Call.throw (.ofBleError err)

theorem runningAppNameBle_eq :
    (BleApi.runningAppNameBle : BleCall C String) =
      (do let reply ← BleApi.exchange getAppNameCommand; afterAppNameBle reply) := by
  rw [BleApi.runningAppNameBle]
  congr 1

/-- The BLE parser looks at the length before it indexes and before it slices. -/
theorem run_afterAppNameBle (h : List APDUCommand) (reply : Except F C.APDUAnswer) :
    Call.run (bleEnv view dev) h (afterAppNameBle (reply.mapError view.ble)) =
      ([], report (Cause.ble view) (nameResult reply)) := by
  cases reply with
  | error failure => rfl
  | ok response =>
      rw [Except.mapError, afterAppNameBle, nameResult]
      by_cases hok : C.retcode response = returnCodeOk
      · rw [if_pos hok, if_pos hok, appName?]
        generalize C.answerData response = data
        -- the two length checks of the source, each with what the unchecked parser would do
        by_cases hshort : data.length < 2
        · simp only [if_pos hshort, List.getElem?_eq_none_iff.mpr (show data.length ≤ 1 by omega)]
          rfl
        · have hlt : 1 < data.length := by omega
          simp only [if_neg hshort, List.getElem?_eq_getElem hlt, Call.run_bind,
            Call.run_orPanic_some, List.append_nil, List.nil_append]
          by_cases htrunc : data.length < 2 + data[1].toNat
          · simp only [if_pos htrunc, slice, if_neg (show ¬ (2 ≤ 2 + data[1].toNat ∧
              2 + data[1].toNat ≤ data.length) by omega), Option.map_none]
            rfl
          · simp only [if_neg htrunc, slice, if_pos (show 2 ≤ 2 + data[1].toNat ∧
              2 + data[1].toNat ≤ data.length by omega), Option.map_some]
            rfl
      · rw [if_neg hok, if_neg hok]
        by_cases hlocked : C.retcode response = returnCodeUnknownError
        · rw [if_pos hlocked, if_pos hlocked]
          rfl
        · rw [if_neg hlocked, if_neg hlocked]
          rfl

theorem run_runningAppNameBle :
    Call.run (bleEnv view dev) [] BleApi.runningAppNameBle =
      ([getAppNameCommand], report (Cause.ble view) (nameResult (dev [getAppNameCommand]))) := by
  have hreply : bleEnv view dev [] getAppNameCommand =
      (dev [getAppNameCommand]).mapError view.ble := rfl
  rw [runningAppNameBle_eq, BleApi.exchange, Call.run_bind, Call.run_ask]
  simp only [hreply, run_afterAppNameBle, List.append_nil]

/-! ## The plan both follow -/

/-- The commands of opening the application, and the result. -/
def openPlan (dev : Device C F) : List APDUCommand × Except (Cause F) Unit :=
  match nameResult (dev [getAppNameCommand]) with
  | .error cause => ([getAppNameCommand], .error cause)
  | .ok name =>
      if name = "NEAR" then ([getAppNameCommand], .ok ())
      else if name = "BOLOS" then
        ([getAppNameCommand, openAppCommand],
          statusResult (dev [getAppNameCommand, openAppCommand]))
      else
        match statusResult (dev [getAppNameCommand, quitAppCommand]) with
        | .error cause => ([getAppNameCommand, quitAppCommand], .error cause)
        | .ok () =>
            ([getAppNameCommand, quitAppCommand, openAppCommand],
              statusResult (dev [getAppNameCommand, quitAppCommand, openAppCommand]))

theorem run_openNearApplicationBle :
    Call.run (bleEnv view dev) [] BleApi.openNearApplicationBle =
      ((openPlan dev).1, report (Cause.ble view) (openPlan dev).2) := by
  rw [BleApi.openNearApplicationBle, Call.run_bind, run_runningAppNameBle, openPlan]
  cases nameResult (dev [getAppNameCommand]) with
  | error cause => rfl
  | ok name =>
      simp only [report]
      by_cases hnear : name = "NEAR"
      · rw [if_pos hnear, if_pos hnear]
        rfl
      · rw [if_neg hnear, if_neg hnear]
        by_cases hbolos : name = "BOLOS"
        · rw [if_pos hbolos, if_pos hbolos, openApplicationBle_eq, run_statusBle]
          rfl
        · rw [if_neg hbolos, if_neg hbolos, Call.run_bind, quitOpenApplicationBle_eq, run_statusBle,
            openApplicationBle_eq]
          simp only [List.nil_append, List.cons_append]
          cases statusResult (dev [getAppNameCommand, quitAppCommand]) with
          | error cause => rfl
          -- the application that was running is closed, so the open-app command is the third one
          | ok _ =>
              simp only [report, run_statusBle]
              rfl

theorem run_openNearApplication (hname : ¬ MalformedAppName dev) :
    exchanged (Call.run (hidEnv view dev) [] Hid.openNearApplication).1 = (openPlan dev).1 ∧
      (Call.run (hidEnv view dev) [] Hid.openNearApplication).2 =
        report (Cause.hid view) (openPlan dev).2 := by
  rw [Hid.openNearApplication, Call.run_bind, run_runningAppName view dev hname, openPlan]
  cases nameResult (dev [getAppNameCommand]) with
  | error cause => exact ⟨rfl, rfl⟩
  | ok name =>
      simp only [report]
      by_cases hnear : name = "NEAR"
      · rw [if_pos hnear, if_pos hnear]
        exact ⟨rfl, rfl⟩
      · rw [if_neg hnear, if_neg hnear]
        by_cases hbolos : name = "BOLOS"
        · rw [if_pos hbolos, if_pos hbolos, openApplication_eq, run_statusHid]
          exact ⟨rfl, rfl⟩
        · rw [if_neg hbolos, if_neg hbolos, Call.run_bind, quitOpenApplication_eq, run_statusHid,
            openApplication_eq]
          simp only [List.nil_append, exchanged]
          simp only [List.nil_append, List.cons_append]
          cases statusResult (dev [getAppNameCommand, quitAppCommand]) with
          | error cause => exact ⟨rfl, rfl⟩
          -- as over BLE: the open-app command is the third one
          | ok _ =>
              simp only [report, run_statusHid]
              exact ⟨rfl, rfl⟩

theorem run_openNearApplication_of_malformed (hname : MalformedAppName dev) :
    (Call.run (hidEnv view dev) [] Hid.openNearApplication).2 = .panicked := by
  rw [Hid.openNearApplication, Call.run_bind, run_runningAppName_of_malformed view dev hname]

/-! ## What is promised -/

/-- Wherever the open-app command is issued, the app-name command came first and was answered with
    `0x9000` and a whole name other than "NEAR"; unless that name is "BOLOS", the quit command came
    second and was answered with `0x9000`. -/
def OpensGuarded (dev : Device C F) (cmds : List APDUCommand) : Prop :=
  ∀ before after, cmds = before ++ openAppCommand :: after →
    ∃ response name, [getAppNameCommand] <+: before ∧ dev [getAppNameCommand] = .ok response ∧
      C.retcode response = returnCodeOk ∧ appName? (C.answerData response) = some name ∧
      name ≠ "NEAR" ∧
      (name ≠ "BOLOS" → [getAppNameCommand, quitAppCommand] <+: before ∧
        Succeeds (dev [getAppNameCommand, quitAppCommand]))

/-- The HID and the BLE version agree on a device, do not panic and open the application only
    after the replies that allow it. -/
structure OpenAgrees (view : FailureView C F) (dev : Device C F) : Prop where
  same_commands : exchanged (Call.run (hidEnv view dev) [] Hid.openNearApplication).1 =
    (Call.run (bleEnv view dev) [] BleApi.openNearApplicationBle).1
  same_outcome : ∃ r : Except (Cause F) Unit,
    (Call.run (hidEnv view dev) [] Hid.openNearApplication).2 = report (Cause.hid view) r ∧
      (Call.run (bleEnv view dev) [] BleApi.openNearApplicationBle).2 = report (Cause.ble view) r
  hid_no_panic : (Call.run (hidEnv view dev) [] Hid.openNearApplication).2 ≠ .panicked
  ble_no_panic : (Call.run (bleEnv view dev) [] BleApi.openNearApplicationBle).2 ≠ .panicked
  hid_guarded : OpensGuarded dev
    (exchanged (Call.run (hidEnv view dev) [] Hid.openNearApplication).1)
  ble_guarded : OpensGuarded dev (Call.run (bleEnv view dev) [] BleApi.openNearApplicationBle).1

theorem report_ne_panicked {α : Type} (toError : Cause F → NEARLedgerError C)
    (r : Except (Cause F) α) : report toError r ≠ .panicked := by
  cases r <;> simp [report]

/-- The open-app command at the end of a list in which it does not occur before. -/
private theorem before_openApp {cmds before after : List APDUCommand} (hcmds : openAppCommand ∉ cmds)
    (h : cmds ++ [openAppCommand] = before ++ openAppCommand :: after) : before = cmds := by
  rcases List.append_eq_append_iff.mp h with ⟨mid, rfl, hmid⟩ | ⟨mid, rfl, hmid⟩
  -- the command cannot stand behind the last element
  · have hlen := congrArg List.length hmid
    simp only [List.length_append, List.length_cons, List.length_nil] at hlen
    rw [List.eq_nil_of_length_eq_zero (show mid.length = 0 by omega), List.append_nil]
  · cases mid with
    | nil => rw [List.append_nil]
    | cons c mid =>
        obtain ⟨rfl, -⟩ := List.cons_eq_cons.mp hmid
        simp at hcmds

/-- A list of commands without the open-app command has nothing to guard. -/
private theorem OpensGuarded.of_not_mem {cmds : List APDUCommand} (h : openAppCommand ∉ cmds) :
    OpensGuarded dev cmds := by
  rintro before after rfl
  simp at h

private theorem openApp_not_mem_name : openAppCommand ∉ [getAppNameCommand] := by decide

private theorem openApp_not_mem_quit : openAppCommand ∉ [getAppNameCommand, quitAppCommand] := by
  decide

/-- The plan opens the application only after the replies that allow it. -/
theorem openPlan_guarded : OpensGuarded dev (openPlan dev).1 := by
  rw [openPlan]
  cases hname : nameResult (dev [getAppNameCommand]) with
  | error cause => exact .of_not_mem dev openApp_not_mem_name
  | ok name =>
      obtain ⟨response, hreply, hok, hdata⟩ := nameResult_eq_ok hname
      dsimp only
      by_cases hnear : name = "NEAR"
      · rw [if_pos hnear]
        exact .of_not_mem dev openApp_not_mem_name
      rw [if_neg hnear]
      by_cases hbolos : name = "BOLOS"
      · rw [if_pos hbolos]
        intro before after h
        obtain rfl := before_openApp openApp_not_mem_name h
        exact ⟨response, name, List.prefix_rfl, hreply, hok, hdata, hnear, fun h => absurd hbolos h⟩
      rw [if_neg hbolos]
      cases hquit : statusResult (dev [getAppNameCommand, quitAppCommand]) with
      | error cause => exact .of_not_mem dev openApp_not_mem_quit
      | ok _ =>
          intro before after h
          obtain rfl := before_openApp openApp_not_mem_quit h
          exact ⟨response, name, ⟨_, rfl⟩, hreply, hok, hdata, hnear, fun _ =>
            ⟨List.prefix_rfl, statusResult_eq_ok_iff.mp hquit⟩⟩

/-- The two versions agree, panic-free and guarded, exactly on the devices whose app-name reply is
    not a `0x9000` with the name missing or cut off. -/
theorem openNearApplication_agrees_iff : OpenAgrees view dev ↔ ¬ MalformedAppName dev := by
  constructor
  · intro h hname
    exact h.hid_no_panic (run_openNearApplication_of_malformed view dev hname)
  · intro hname
    obtain ⟨hcmds, hout⟩ := run_openNearApplication view dev hname
    have hble := run_openNearApplicationBle view dev
    exact {
      same_commands := by rw [hcmds, hble]
      same_outcome := ⟨(openPlan dev).2, hout, by rw [hble]⟩
      hid_no_panic := by rw [hout]; exact report_ne_panicked _ _
      ble_no_panic := by rw [hble]; exact report_ne_panicked _ _
      hid_guarded := by rw [hcmds]; exact openPlan_guarded dev
      ble_guarded := by rw [hble]; exact openPlan_guarded dev }

/-- A device that answers every command with `0x9000` and no data. -/
def silentDevice : Device Crates.reference String := fun _ => .ok ([], 0x90, 0x00)

/-- On the empty reply the HID version panics and the BLE version returns an error. -/
theorem openNearApplication_disagree_silent : ¬ OpenAgrees textView silentDevice := by
  intro h
  exact h.hid_no_panic rfl

end NearLedger
