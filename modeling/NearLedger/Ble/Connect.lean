/-
  NearLedger.Ble.Connect

  `TransportBle::connect`: connect to the peripheral if it is not connected,
  discover its services, choose the two characteristics, subscribe, and
  negotiate the MTU.  Every step awaits the peripheral; what a run has asked of
  it, with its replies, is the list of events of the run.
-/

import NearLedger.Ble.Gatt
import NearLedger.Ble.Mtu

namespace NearLedger

open Transition

variable {C : Crates}

/-- `TransportBle`, without the peripheral and the notification stream. -/
structure TransportBle where
  writeCharacteristic : Characteristic
  mtuSize : Option Nat

/-- `connect` at an await point or at its end. -/
inductive ConnectState (C : Crates) where
  | checking
  | connecting
  | discovering
  | subscribing (writeCharacteristic notifyCharacteristic : Characteristic)
  | listening (writeCharacteristic : Characteristic)
  | inferring (writeCharacteristic : Characteristic) (s : InferState C)
  | returned (r : Except (BleError C) TransportBle)
  | panicked

/-- What is asked of the peripheral, with the reply. -/
inductive ConnectEvent (C : Crates) where
  | isConnected (r : Except C.BtleError Bool)
  | connect (r : Except C.BtleError Unit)
  -- with what `characteristics` returns then
  | discoverServices (r : Except C.BtleError (List Characteristic))
  | subscribe (c : Characteristic) (r : Except C.BtleError Unit)
  | notifications (r : Except C.BtleError Unit)
  | write (c : Characteristic) (packet : Bytes) (r : Except C.BtleError Unit)
  | nextNotification (r : Except (BleError C) Bytes)

namespace ConnectState

/-- `connect` after a step of `infer_mtu`. -/
def ofInfer (writeCharacteristic : Characteristic) : InferState C → ConnectState C
  | .returned mtuSize (.ok _) =>
      .returned (.ok { writeCharacteristic := writeCharacteristic, mtuSize := mtuSize })
  | .returned _ (.error err) => .returned (.error err)
  | .panicked => .panicked
  | .writingCommand packet => .inferring writeCharacteristic (.writingCommand packet)
  | .awaitingResponse => .inferring writeCharacteristic .awaitingResponse

/-- `connect` from the reply of the peripheral to the next await point. -/
def step : ConnectState C → ConnectEvent C → Option (ConnectState C)
  | .checking, .isConnected (.ok isConnected) =>
      some (if isConnected then .discovering else .connecting)
  | .checking, .isConnected (.error err) => some (.returned (.error (.ble err)))
  | .connecting, .connect (.ok ()) => some .discovering
  | .connecting, .connect (.error err) => some (.returned (.error (.ble err)))
  | .discovering, .discoverServices (.ok characteristics) =>
      match selectCharacteristics C characteristics with
      | .ok (writeCharacteristic, notifyCharacteristic) =>
          some (.subscribing writeCharacteristic notifyCharacteristic)
      | .error err => some (.returned (.error err))
  | .discovering, .discoverServices (.error err) => some (.returned (.error (.ble err)))
  | .subscribing writeCharacteristic notifyCharacteristic, .subscribe c r =>
      if c = notifyCharacteristic then
        match r with
        | .ok () => some (.listening writeCharacteristic)
        | .error err => some (.returned (.error (.ble err)))
      else none
  | .listening writeCharacteristic, .notifications (.ok ()) =>
      some (.inferring writeCharacteristic InferMtu.start)
  | .listening _, .notifications (.error err) => some (.returned (.error (.ble err)))
  | .inferring writeCharacteristic (.writingCommand command), .write c packet r =>
      if c = writeCharacteristic ∧ packet = command then
        some (ofInfer writeCharacteristic (InferMtu.onWrite (.writingCommand command) r))
      else none
  | .inferring writeCharacteristic .awaitingResponse, .nextNotification r =>
      some (ofInfer writeCharacteristic (InferMtu.onNotification .awaitingResponse r))
  | _, _ => none

end ConnectState

/-! ## The MTU response -/

/-- The packet `infer_mtu` writes. -/
def mtuRequest : Bytes := [mtuCommandTag, 0x00, 0x00, 0x00, 0x00]

/-- The MTU it takes from a response: byte 5, where there is one that leaves room for data. -/
def mtuOf (response : Bytes) : Nat :=
  match response[5]? with
  | some b => if b.toNat > 5 then b.toNat else defaultMtuSize
  | none => defaultMtuSize

theorem onResponse_eq (response : Bytes) :
    (InferMtu.onResponse response : InferState C) = InferMtu.store (mtuOf response) := by
  rw [InferMtu.onResponse, mtuOf]
  by_cases hshort : response.length < 6
  · have hnone : response[5]? = none := List.getElem?_eq_none_iff.mpr (by omega)
    rw [if_pos hshort, hnone]
  · have hsome : response[5]? = some response[5] := List.getElem?_eq_getElem (by omega)
    rw [if_neg hshort, hsome]

theorem mtuOf_bounds (response : Bytes) : 6 ≤ mtuOf response ∧ mtuOf response ≤ 255 := by
  rw [mtuOf]
  cases response[5]? with
  | none => decide
  | some b =>
      have hb := b.toNat_lt
      dsimp only
      split
      · omega
      · decide

/-! ## What a step can do -/

/-- The error that an event is a failure with. -/
def ConnectEvent.failure : ConnectEvent C → Option (BleError C)
  | .isConnected (.error err) => some (.ble err)
  | .connect (.error err) => some (.ble err)
  | .discoverServices (.error err) => some (.ble err)
  | .discoverServices (.ok characteristics) =>
      match selectCharacteristics C characteristics with
      | .ok _ => none
      | .error err => some err
  | .subscribe _ (.error err) => some (.ble err)
  | .notifications (.error err) => some (.ble err)
  | .write _ _ (.error err) => some (.ble err)
  | .nextNotification (.error err) => some err
  | _ => none

/-- The steps of `connect`: it goes on with an event that is no failure, and returns the error of
    one that is. -/
inductive ConnectStep : ConnectState C → ConnectEvent C → ConnectState C → Prop where
  | connected : ConnectStep .checking (.isConnected (.ok true)) .discovering
  | notConnected : ConnectStep .checking (.isConnected (.ok false)) .connecting
  | connect : ConnectStep .connecting (.connect (.ok ())) .discovering
  | discovered {table : List Characteristic} {w n : Characteristic} :
      selectCharacteristics C table = .ok (w, n) →
      ConnectStep .discovering (.discoverServices (.ok table)) (.subscribing w n)
  | subscribed {w n : Characteristic} :
      ConnectStep (.subscribing w n) (.subscribe n (.ok ())) (.listening w)
  | opened {w : Characteristic} : ConnectStep (.listening w) (.notifications (.ok ()))
      (.inferring w (.writingCommand mtuRequest))
  | requested {w : Characteristic} {command : Bytes} :
      ConnectStep (.inferring w (.writingCommand command)) (.write w command (.ok ()))
        (.inferring w .awaitingResponse)
  | skipped {w : Characteristic} {n : Bytes} : n.head? ≠ some mtuCommandTag →
      ConnectStep (.inferring w .awaitingResponse) (.nextNotification (.ok n))
        (.inferring w .awaitingResponse)
  | answered {w : Characteristic} {n : Bytes} : n.head? = some mtuCommandTag →
      ConnectStep (.inferring w .awaitingResponse) (.nextNotification (.ok n))
        (.returned (.ok { writeCharacteristic := w, mtuSize := some (mtuOf n) }))
  | failed {s : ConnectState C} {e : ConnectEvent C} {err : BleError C} : e.failure = some err →
      ConnectStep s e (.returned (.error err))

/-- A step while the MTU is negotiated. -/
theorem connectStep_of_step_inferring {w : Characteristic} {s : InferState C} {s' : ConnectState C}
    {e : ConnectEvent C} (h : (ConnectState.inferring w s).step e = some s') :
    ConnectStep (.inferring w s) e s' := by
  cases s with
  | writingCommand command =>
      cases e with
      | write c packet r =>
          obtain ⟨⟨rfl, rfl⟩, hnext⟩ := Option.ite_none_right_eq_some.mp h
          cases r with
          | ok u =>
              cases hnext
              exact .requested
          | error err =>
              cases hnext
              exact .failed rfl
      | _ => cases h
  | awaitingResponse =>
      cases e with
      | nextNotification r =>
          cases r with
          | error err =>
              cases h
              exact .failed rfl
          | ok n =>
              rw [ConnectState.step, InferMtu.onNotification] at h
              by_cases htag : n.head? = some mtuCommandTag
              · rw [if_pos htag, onResponse_eq] at h
                cases h
                exact .answered htag
              · rw [if_neg htag] at h
                cases h
                exact .skipped htag
      | _ => cases h
  | returned mtuSize r => cases e <;> cases h
  | panicked => cases e <;> cases h

theorem connectStep_of_step {s s' : ConnectState C} {e : ConnectEvent C} (h : s.step e = some s') :
    ConnectStep s e s' := by
  cases s with
  | checking =>
      cases e with
      | isConnected r =>
          cases r with
          | ok isConnected =>
              cases isConnected with
              | true =>
                  cases h
                  exact .connected
              | false =>
                  cases h
                  exact .notConnected
          | error err =>
              cases h
              exact .failed rfl
      | _ => cases h
  | connecting =>
      cases e with
      | connect r =>
          cases r with
          | ok u =>
              cases h
              exact .connect
          | error err =>
              cases h
              exact .failed rfl
      | _ => cases h
  | discovering =>
      cases e with
      | discoverServices r =>
          cases r with
          | ok table =>
              rw [ConnectState.step] at h
              cases hselect : selectCharacteristics C table with
              | ok cs =>
                  rw [hselect] at h
                  cases h
                  exact .discovered hselect
              | error err =>
                  rw [hselect] at h
                  cases h
                  exact .failed (by rw [ConnectEvent.failure, hselect])
          | error err =>
              cases h
              exact .failed rfl
      | _ => cases h
  | subscribing w n =>
      cases e with
      | subscribe c r =>
          obtain ⟨rfl, hnext⟩ := Option.ite_none_right_eq_some.mp h
          cases r with
          | ok u =>
              cases hnext
              exact .subscribed
          | error err =>
              cases hnext
              exact .failed rfl
      | _ => cases h
  | listening w =>
      cases e with
      | notifications r =>
          cases r with
          | ok u =>
              cases h
              exact .opened
          | error err =>
              cases h
              exact .failed rfl
      | _ => cases h
  | inferring w s => exact connectStep_of_step_inferring h
  | returned r => cases e <;> cases h
  | panicked => cases e <;> cases h

/-- The failures are the events with which `connect` returns an error. -/
theorem ConnectStep.error_iff {s s' : ConnectState C} {e : ConnectEvent C} (h : ConnectStep s e s')
    (err : BleError C) : s' = .returned (.error err) ↔ e.failure = some err := by
  cases h with
  | discovered hselect => simp [ConnectEvent.failure, hselect]
  | failed hfailure => simp [hfailure]
  | _ => simp [ConnectEvent.failure]

/-! ## Runs -/

/-- The events up to a connection. -/
inductive Opened : List (ConnectEvent C) → Prop where
  | already : Opened [.isConnected (.ok true)]
  | now : Opened [.isConnected (.ok false), .connect (.ok ())]

/-- The events from the connection to the MTU request. -/
def setUp (characteristics : List Characteristic) (notifyCharacteristic : Characteristic) :
    List (ConnectEvent C) :=
  [.discoverServices (.ok characteristics), .subscribe notifyCharacteristic (.ok ()),
    .notifications (.ok ())]

/-- The MTU request and the notifications that are skipped. -/
def requested (writeCharacteristic : Characteristic) (skipped : List Bytes) :
    List (ConnectEvent C) :=
  .write writeCharacteristic mtuRequest (.ok ()) :: skipped.map fun n => .nextNotification (.ok n)

/-- Where `connect` stands after the events. -/
inductive Reached : List (ConnectEvent C) → ConnectState C → Prop where
  | checking : Reached [] .checking
  | connecting : Reached [.isConnected (.ok false)] .connecting
  | discovering {es : List (ConnectEvent C)} : Opened es → Reached es .discovering
  | subscribing {es : List (ConnectEvent C)} {table : List Characteristic} {w n : Characteristic} :
      Opened es → selectCharacteristics C table = .ok (w, n) →
      Reached (es ++ [.discoverServices (.ok table)]) (.subscribing w n)
  | listening {es : List (ConnectEvent C)} {table : List Characteristic} {w n : Characteristic} :
      Opened es → selectCharacteristics C table = .ok (w, n) →
      Reached (es ++ [.discoverServices (.ok table), .subscribe n (.ok ())]) (.listening w)
  | writing {es : List (ConnectEvent C)} {table : List Characteristic} {w n : Characteristic} :
      Opened es → selectCharacteristics C table = .ok (w, n) →
      Reached (es ++ setUp table n) (.inferring w (.writingCommand mtuRequest))
  | awaiting {es : List (ConnectEvent C)} {table : List Characteristic} {w n : Characteristic}
      {skipped : List Bytes} : Opened es → selectCharacteristics C table = .ok (w, n) →
      (∀ m ∈ skipped, m.head? ≠ some mtuCommandTag) →
      Reached (es ++ setUp table n ++ requested w skipped) (.inferring w .awaitingResponse)
  | connected {es : List (ConnectEvent C)} {table : List Characteristic} {w n : Characteristic}
      {skipped : List Bytes} {response : Bytes} : Opened es →
      selectCharacteristics C table = .ok (w, n) →
      (∀ m ∈ skipped, m.head? ≠ some mtuCommandTag) → response.head? = some mtuCommandTag →
      Reached (es ++ setUp table n ++ requested w skipped ++ [.nextNotification (.ok response)])
        (.returned (.ok { writeCharacteristic := w, mtuSize := some (mtuOf response) }))
  | failed {es : List (ConnectEvent C)} {s : ConnectState C} {e : ConnectEvent C}
      {err : BleError C} : Reached es s → s.step e = some (.returned (.error err)) →
      Reached (es ++ [e]) (.returned (.error err))

/-- One event of a run. -/
theorem Reached.step {es : List (ConnectEvent C)} {s s' : ConnectState C} {e : ConnectEvent C}
    (h : Reached es s) (hstep : s.step e = some s') : Reached (es ++ [e]) s' := by
  cases connectStep_of_step hstep with
  | connected =>
      cases h
      exact .discovering .already
  | notConnected =>
      cases h
      exact .connecting
  | connect =>
      cases h
      exact .discovering .now
  | discovered hselect =>
      cases h with
      | discovering hopened => exact .subscribing hopened hselect
  | subscribed =>
      cases h with
      | subscribing hopened hselect =>
          rw [List.append_assoc]
          exact .listening hopened hselect
  | opened =>
      cases h with
      | listening hopened hselect =>
          rw [List.append_assoc]
          exact .writing hopened hselect
  | requested =>
      cases h with
      | writing hopened hselect =>
          have hnone : ∀ m ∈ ([] : List Bytes), m.head? ≠ some mtuCommandTag := by simp
          exact .awaiting hopened hselect hnone
  | @skipped w n htag =>
      cases h with
      | @awaiting _ _ _ _ before hopened hselect hbefore =>
          have hskipped : ∀ m ∈ before ++ [n], m.head? ≠ some mtuCommandTag := by
            intro m hm
            rcases List.mem_append.mp hm with hm | hm
            · exact hbefore m hm
            · rwa [List.mem_singleton.mp hm]
          have hmore := Reached.awaiting hopened hselect hskipped
          rwa [NearLedger.requested, List.map_append, ← List.cons_append, ← List.append_assoc]
            at hmore
  | answered htag =>
      cases h with
      | awaiting hopened hselect hskipped => exact .connected hopened hselect hskipped htag
  | failed hfailure => exact .failed h hstep

/-- Every run of `connect`. -/
theorem reached_of_run {es es' : List (ConnectEvent C)} {s s' : ConnectState C} (h : Reached es s)
    (hrun : Run (ofFn ConnectState.step) s es' s') : Reached (es ++ es') s' := by
  induction hrun generalizing es with
  | nil =>
      rw [List.append_nil]
      exact h
  | cons hstep _ ih =>
      have hrest := ih (h.step hstep)
      rwa [List.append_assoc] at hrest

/-! ## What can happen does happen -/

theorem run_opened {es : List (ConnectEvent C)} (h : Opened es) :
    Run (ofFn ConnectState.step) .checking es .discovering := by
  cases h with
  | already => exact run_of_exec rfl
  | now => exact run_of_exec rfl

theorem run_setUp {table : List Characteristic} {w n : Characteristic}
    (h : selectCharacteristics C table = .ok (w, n)) :
    Run (ofFn ConnectState.step) (.discovering : ConnectState C) (setUp table n)
      (.inferring w (.writingCommand mtuRequest)) := by
  have hdiscover : ConnectState.step .discovering (.discoverServices (.ok table)) =
      some (.subscribing w n : ConnectState C) := by
    rw [ConnectState.step, h]
  have hsubscribe : ConnectState.step (.subscribing w n) (.subscribe n (.ok ())) =
      some (.listening w : ConnectState C) := if_pos rfl
  exact .cons hdiscover (.cons hsubscribe (.single rfl))

/-- Notifications without the MTU tag are skipped, however many there are. -/
theorem run_skipped (w : Characteristic) {skipped : List Bytes}
    (h : ∀ m ∈ skipped, m.head? ≠ some mtuCommandTag) :
    Run (ofFn ConnectState.step) (.inferring w .awaitingResponse : ConnectState C)
      (skipped.map fun m => .nextNotification (.ok m)) (.inferring w .awaitingResponse) := by
  induction skipped with
  | nil => exact .nil _
  | cons m skipped ih =>
      have hskip : ConnectState.step (.inferring w .awaitingResponse)
          (.nextNotification (.ok m)) =
            some (.inferring w .awaitingResponse : ConnectState C) := by
        rw [ConnectState.step, InferMtu.onNotification, if_neg (h m List.mem_cons_self)]
        rfl
      exact .cons hskip (ih fun m' hm' => h m' (List.mem_cons_of_mem _ hm'))

theorem run_requested (w : Characteristic) {skipped : List Bytes}
    (h : ∀ m ∈ skipped, m.head? ≠ some mtuCommandTag) :
    Run (ofFn ConnectState.step) (.inferring w (.writingCommand mtuRequest) : ConnectState C)
      (requested w skipped) (.inferring w .awaitingResponse) := by
  have hwrite : ConnectState.step (.inferring w (.writingCommand mtuRequest))
      (.write w mtuRequest (.ok ())) = some (.inferring w .awaitingResponse : ConnectState C) :=
    if_pos ⟨rfl, rfl⟩
  exact .cons hwrite (run_skipped w h)

/-- The first notification with the MTU tag is the response. -/
theorem run_response (w : Characteristic) {response : Bytes}
    (htag : response.head? = some mtuCommandTag) :
    Run (ofFn ConnectState.step) (.inferring w .awaitingResponse : ConnectState C)
      [.nextNotification (.ok response)]
      (.returned (.ok { writeCharacteristic := w, mtuSize := some (mtuOf response) })) := by
  have hanswer : ConnectState.step (.inferring w .awaitingResponse)
      (.nextNotification (.ok response)) = some (.returned (.ok
        { writeCharacteristic := w, mtuSize := some (mtuOf response) }) : ConnectState C) := by
    rw [ConnectState.step, InferMtu.onNotification, if_pos htag, onResponse_eq]
    rfl
  exact .single hanswer

/-! ## The theorems -/

/-- `connect` returns a transport after exactly these events: the peripheral is connected, its
    services are discovered, the chosen notify characteristic is subscribed to, the MTU is asked for
    on the chosen write characteristic, and of what arrives the first notification with the MTU tag
    is the answer. -/
theorem connect_ok_iff {es : List (ConnectEvent C)} {t : TransportBle} :
    Run (ofFn ConnectState.step) .checking es (.returned (.ok t)) ↔
      ∃ (opened : List (ConnectEvent C)) (table : List Characteristic) (n : Characteristic)
          (skipped : List Bytes) (response : Bytes), Opened opened ∧
        selectCharacteristics C table = .ok (t.writeCharacteristic, n) ∧
        (∀ m ∈ skipped, m.head? ≠ some mtuCommandTag) ∧ response.head? = some mtuCommandTag ∧
        es = opened ++ setUp table n ++ requested t.writeCharacteristic skipped ++
          [.nextNotification (.ok response)] ∧
        t.mtuSize = some (mtuOf response) := by
  constructor
  · intro hrun
    have hreached := reached_of_run .checking hrun
    rw [List.nil_append] at hreached
    cases hreached with
    | connected hopened hselect hskipped htag =>
        exact ⟨_, _, _, _, _, hopened, hselect, hskipped, htag, rfl, rfl⟩
  · rintro ⟨opened, table, n, skipped, response, hopened, hselect, hskipped, htag, rfl, hmtu⟩
    obtain ⟨w, mtuSize⟩ := t
    obtain rfl : mtuSize = some (mtuOf response) := hmtu
    exact (((run_opened hopened).append (run_setUp hselect)).append
      (run_requested w hskipped)).append (run_response w htag)

/-- A write is issued in one state, and then it is the packet of that state. -/
theorem step_write {s s' : ConnectState C} {c : Characteristic} {packet : Bytes}
    {r : Except C.BtleError Unit} (h : s.step (.write c packet r) = some s') :
    s = .inferring c (.writingCommand packet) := by
  cases s with
  | inferring w s =>
      cases s with
      | writingCommand command =>
          obtain ⟨⟨rfl, rfl⟩, -⟩ := Option.ite_none_right_eq_some.mp h
          rfl
      | _ => cases h
  | _ => cases h

/-- Whatever the peripheral replies, `connect` writes nothing but one MTU request, on the chosen
    write characteristic and with the subscription to the chosen notify characteristic in place; it
    does not panic, and the transport it returns has an MTU between 6 and 255. -/
theorem connect_safe {es : List (ConnectEvent C)} {s : ConnectState C}
    (hrun : Run (ofFn ConnectState.step) .checking es s) :
    s ≠ .panicked ∧
      (∀ before c packet r after, es = before ++ .write c packet r :: after →
        packet = mtuRequest ∧ ∃ opened table n, Opened opened ∧
          selectCharacteristics C table = .ok (c, n) ∧ before = opened ++ setUp table n) ∧
      ∀ t, s = .returned (.ok t) → ∃ m, t.mtuSize = some m ∧ 6 ≤ m ∧ m ≤ 255 := by
  have hreached := reached_of_run .checking hrun
  rw [List.nil_append] at hreached
  refine ⟨?_, ?_, ?_⟩
  · rintro rfl
    cases hreached
  · rintro before c packet r after rfl
    obtain ⟨s₁, hbefore, hrest⟩ := hrun.split
    cases hrest with
    | cons hwrite _ =>
        obtain rfl := step_write hwrite
        have hbefore' := reached_of_run .checking hbefore
        rw [List.nil_append] at hbefore'
        cases hbefore' with
        | writing hopened hselect => exact ⟨rfl, _, _, _, hopened, hselect, rfl⟩
  · rintro t rfl
    cases hreached with
    | connected _ _ _ _ => exact ⟨_, rfl, mtuOf_bounds _⟩

/-- The two characteristics of a Nano X. -/
def nanoXTable : List Characteristic :=
  [{ uuid := notifyUuidForService nanoXServiceUuid
     serviceUuid := nanoXServiceUuid
     properties := { write := false, notify := true } },
    { uuid := writeUuidForService nanoXServiceUuid
      serviceUuid := nanoXServiceUuid
      properties := { write := true, notify := false } }]

/-- The events of connecting to it, with an APDU packet before the answer of byte 5. -/
def nanoXEvents : List (ConnectEvent Crates.reference) :=
  [.isConnected (.ok false), .connect (.ok ()), .discoverServices (.ok nanoXTable),
    .subscribe nanoXTable[0] (.ok ()), .notifications (.ok ()),
    .write nanoXTable[1] mtuRequest (.ok ()), .nextNotification (.ok [0x05, 0, 0]),
    .nextNotification (.ok [0x08, 0, 0, 0, 1, 153])]

theorem run_nanoXEvents :
    Run (ofFn ConnectState.step) .checking nanoXEvents
      (.returned (.ok { writeCharacteristic := nanoXTable[1], mtuSize := some 153 })) :=
  run_of_exec rfl

theorem connect_safe_nanoX :
    ∃ t, Run (ofFn ConnectState.step) .checking nanoXEvents (.returned (.ok t)) ∧
      ∃ m, t.mtuSize = some m ∧ 6 ≤ m ∧ m ≤ 255 :=
  ⟨_, run_nanoXEvents, (connect_safe run_nanoXEvents).2.2 _ rfl⟩

/-- On a device with a Ledger service, the transport writes to and listens to characteristics with
    the two UUIDs that are derived from the first such service, and neither UUID is derived from
    another Ledger service or for the other purpose.  Which service the characteristics themselves
    are of is not looked at. -/
theorem connect_one_service {es : List (ConnectEvent C)} {t : TransportBle}
    {table : List Characteristic}
    (hrun : Run (ofFn ConnectState.step) .checking es (.returned (.ok t)))
    (htable : .discoverServices (.ok table) ∈ es)
    (hledger : ∃ c ∈ table, isLedgerServiceUuid c.serviceUuid = true) :
    ∃ svc n, FirstService table svc ∧ .subscribe n (.ok ()) ∈ es ∧
      t.writeCharacteristic ∈ table ∧ n ∈ table ∧
      t.writeCharacteristic.uuid = writeUuidForService svc ∧ n.uuid = notifyUuidForService svc ∧
      ∀ svc', isLedgerServiceUuid svc' = true →
        (t.writeCharacteristic.uuid = writeUuidForService svc' → svc' = svc) ∧
        (n.uuid = notifyUuidForService svc' → svc' = svc) ∧
        t.writeCharacteristic.uuid ≠ notifyUuidForService svc' ∧
        n.uuid ≠ writeUuidForService svc' := by
  have hreached := reached_of_run .checking hrun
  rw [List.nil_append] at hreached
  cases hreached with
  | @connected es table' w n skipped response hopened hselect hskipped htag =>
      -- the services are discovered once
      obtain rfl : table = table' := by
        cases hopened <;> simpa [setUp, requested] using htable
      obtain ⟨svc, hfirst, hw, hn, hwuuid, hnuuid⟩ := selectCharacteristics_ledger hselect hledger
      refine ⟨svc, n, hfirst, by simp [setUp], hw, hn, hwuuid, hnuuid, fun svc' hsvc' => ?_⟩
      refine ⟨fun h => ?_, fun h => ?_, fun h => ?_, fun h => ?_⟩
      · exact writeUuidForService_injective hsvc' hfirst.1 (h.symm.trans hwuuid)
      · exact notifyUuidForService_injective hsvc' hfirst.1 (h.symm.trans hnuuid)
      · exact writeUuidForService_ne svc svc' (hwuuid.symm.trans h)
      · exact writeUuidForService_ne svc' svc (h.symm.trans hnuuid)

theorem connect_one_service_nanoX :
    ∃ svc n, FirstService nanoXTable svc ∧ .subscribe n (.ok ()) ∈ nanoXEvents ∧
      n.uuid = notifyUuidForService svc := by
  obtain ⟨svc, n, hfirst, hsubscribe, -, -, -, hn, -⟩ :=
    connect_one_service run_nanoXEvents
      (show .discoverServices (.ok nanoXTable) ∈ nanoXEvents by simp [nanoXEvents])
      ⟨nanoXTable[0], by simp [nanoXTable], by decide⟩
  exact ⟨svc, n, hfirst, hsubscribe, hn⟩

/-- A failure is the last event of a run of `connect`, which returns its error; and `connect`
    returns an error after no other event. -/
theorem connect_fail_stop {es : List (ConnectEvent C)} {s : ConnectState C}
    (hrun : Run (ofFn ConnectState.step) .checking es s) :
    (∀ before e after err, es = before ++ e :: after → e.failure = some err →
      after = [] ∧ s = .returned (.error err)) ∧
    ∀ err, s = .returned (.error err) → ∃ before e, es = before ++ [e] ∧ e.failure = some err ∧
      ∀ e' ∈ before, e'.failure = none := by
  have hfirst : ∀ before e after err, es = before ++ e :: after → e.failure = some err →
      after = [] ∧ s = .returned (.error err) := by
    rintro before e after err rfl hfailure
    obtain ⟨t, hbefore, hrest⟩ := hrun.split
    cases hrest with
    | cons hstep hafter =>
        obtain rfl := ((connectStep_of_step hstep).error_iff err).mpr hfailure
        cases hafter with
        | nil => exact ⟨rfl, rfl⟩
        | @cons _ _ _ e' _ hstep' _ => cases e' <;> cases hstep'
  refine ⟨hfirst, ?_⟩
  rintro err rfl
  rcases es.eq_nil_or_concat with rfl | ⟨before, e, rfl⟩
  · cases hrun
  · rw [List.concat_eq_append] at hrun hfirst ⊢
    obtain ⟨t, hbefore, hlast⟩ := hrun.split
    cases hlast with
    | cons hstep hnil =>
        cases hnil
        refine ⟨before, e, rfl, ((connectStep_of_step hstep).error_iff err).mp rfl,
          fun e' he' => ?_⟩
        -- a failure before the last event would have been the last one
        by_contra hfailure
        obtain ⟨err', herr'⟩ := Option.ne_none_iff_exists'.mp hfailure
        obtain ⟨pre, post, rfl⟩ := List.append_of_mem he'
        have hlast := (hfirst pre e' (post ++ [e]) err' (by simp) herr').1
        exact absurd hlast (by simp)

/-- The events of a connection that ends with the subscription. -/
def refusedEvents : List (ConnectEvent Crates.reference) :=
  [.isConnected (.ok true), .discoverServices (.ok nanoXTable),
    .subscribe nanoXTable[0] (.error "not permitted")]

theorem connect_fail_stop_refused :
    ∃ before e, refusedEvents = before ++ [e] ∧ e.failure = some (.ble "not permitted") ∧
      ∀ e' ∈ before, e'.failure = none := by
  have hrun : Run (ofFn ConnectState.step) .checking refusedEvents
      (.returned (.error (.ble "not permitted"))) := run_of_exec rfl
  exact (connect_fail_stop hrun).2 _ rfl

end NearLedger
