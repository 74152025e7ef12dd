/-
  NearLedger.Signing.Calls

  Signing calls with everything that can happen to their exchanges, over HID and
  over BLE, and what the device receives from them.  When each reply that a call
  reads is the device's reply to the command it has just sent, these are the
  commands of the request in order, each one after the first only when the one
  before it was accepted, and the rest cut off at any point
  (`SigningCall.receives`).
-/

import NearLedger.Signing.Commands

namespace NearLedger

open Interaction Slices

variable {C : Crates}

/-! ## Exchanges -/

/-- How an exchange goes, over a transport with errors `E`. -/
inductive Delivery (C : Crates) (E : Type) where
  -- the command does not reach the device
  | lost (err : E)
  -- the device receives the command; its reply, if it sends one, does not reach the caller
  | replyLost (reply : Option Bytes) (err : E)
  -- the device receives the command and the caller its reply
  | replied (reply : Bytes) (response : C.APDUAnswer) (parsed : C.fromAnswer reply = some response)
  -- the device receives the command; the caller reads the reply to an earlier one, which an
  -- exchange that has timed out has left behind
  | stale (reply : Option Bytes) (response : C.APDUAnswer)

/-- What `exchange` returns. -/
def Delivery.result {E : Type} : Delivery C E → Except E C.APDUAnswer
  | .lost err => .error err
  | .replyLost _ err => .error err
  | .replied _ response _ => .ok response
  | .stale _ response => .ok response

/-- The caller has not taken the reply to another command for its own. -/
def Delivery.Own {E : Type} : Delivery C E → Prop
  | .stale _ _ => False
  | _ => True

/-- A command with the way its exchange goes. -/
structure Exchange (C : Crates) (E : Type) where
  command : APDUCommand
  delivery : Delivery C E

/-- A command the device has received and the reply it has sent. -/
structure Receipt where
  command : APDUCommand
  reply : Option Bytes
  deriving DecidableEq, Repr

/-- What the device notices of an exchange. -/
def Exchange.receipts {E : Type} (x : Exchange C E) : List Receipt :=
  match x.delivery with
  | .lost _ => []
  | .replyLost reply _ => [{ command := x.command, reply := reply }]
  | .replied reply _ _ => [{ command := x.command, reply := some reply }]
  | .stale reply _ => [{ command := x.command, reply := reply }]

/-- The device has sent a `0x9000` reply. -/
def Receipt.Accepted (C : Crates) (r : Receipt) : Prop :=
  ∃ response ∈ r.reply.bind C.fromAnswer, C.retcode response = returnCodeOk

instance (r : Receipt) : Decidable (r.Accepted C) :=
  match h : r.reply.bind C.fromAnswer with
  | some response =>
      decidable_of_iff (C.retcode response = returnCodeOk) (by simp [Receipt.Accepted, h])
  | none => .isFalse (by simp [Receipt.Accepted, h])

/-! ## Signing calls -/

/-- A call of one of the signing functions, by its arguments. -/
inductive Request (C : Crates) where
  | transaction (unsignedTx : Bytes) (seedPhraseHdPath : C.BIP32Path)
  | messageNep413 (payload : NEP413Payload) (seedPhraseHdPath : C.BIP32Path)
  | messageNep366DelegateAction (payload : Bytes) (seedPhraseHdPath : C.BIP32Path)

namespace Request

/-- The function of `lib.rs`. -/
def hid : Request C → HidCall C Bytes
  | transaction unsignedTx path => Hid.signTransaction unsignedTx path
  | messageNep413 payload path => Hid.signMessageNep413 payload path
  | messageNep366DelegateAction payload path => Hid.signMessageNep366DelegateAction payload path

/-- The function of `ble_api.rs`. -/
def ble : Request C → BleCall C Bytes
  | transaction unsignedTx path => BleApi.signTransactionBle unsignedTx path
  | messageNep413 payload path => BleApi.signMessageNep413Ble payload path
  | messageNep366DelegateAction payload path => BleApi.signMessageNep366DelegateActionBle payload path

def ins : Request C → UInt8
  | transaction _ _ => insSignTransaction
  | messageNep413 _ _ => insSignNep413Message
  | messageNep366DelegateAction _ _ => insSignNep366DelegateAction

def path : Request C → C.BIP32Path
  | transaction _ path => path
  | messageNep413 _ path => path
  | messageNep366DelegateAction _ path => path

/-- The payload bytes, `none` where `borsh::to_vec(..).unwrap()` panics. -/
def payload : Request C → Option Bytes
  | transaction unsignedTx _ => some unsignedTx
  | messageNep413 payload _ => C.borshToVec payload
  | messageNep366DelegateAction payload _ => some payload

/-- The path-and-payload bytes. -/
def data (r : Request C) : Option Bytes := do
  let payload ← r.payload
  let hdPathBytes ← hdPathToBytes r.path
  pure (hdPathBytes ++ payload)

theorem hid_eq (r : Request C) :
    r.hid = (do Hid.sendPayloadApdus (← Call.orPanic r.payload) r.path r.ins) := by
  cases r <;> rfl

theorem ble_eq (r : Request C) :
    r.ble = (do BleApi.sendPayloadApdusBle (← Call.orPanic r.payload) r.path r.ins) := by
  cases r <;> rfl

theorem data_eq_some {r : Request C} {payload : Bytes} {indices : List UInt32}
    (hpayload : r.payload = some payload) (hpath : pathIndices r.path = some indices) :
    r.data = some (indices.flatMap Bytes.u32ToBeBytes ++ payload) := by
  rw [data, hpayload, hdPathToBytes_eq_some hpath]
  rfl

end Request

/-- What a HID function does that the transport crates answer. -/
inductive HidEvent (C : Crates) where
  | hidApiNew (reply : Except C.HidError Unit)
  | transportNew (reply : Except C.LedgerHIDError Unit)
  | exchange (x : Exchange C C.LedgerHIDError)

def HidEvent.toRequest : HidEvent C → Sigma (HidReq.Reply C)
  | hidApiNew reply => ⟨.hidApiNew, reply⟩
  | transportNew reply => ⟨.transportNew, reply⟩
  | exchange x => ⟨.exchange x.command, x.delivery.result⟩

def HidEvent.exchange? : HidEvent C → Option (Exchange C C.LedgerHIDError)
  | exchange x => some x
  | _ => none

def Exchange.toRequest (x : Exchange C (BleError C)) : Sigma (BleReply C) :=
  ⟨x.command, x.delivery.result⟩

/-- A signing call from its beginning to its return. -/
inductive SigningCall (C : Crates) where
  | hid (request : Request C) (events : List (HidEvent C)) (o : Outcome (NEARLedgerError C) Bytes)
      (trace : Call.Trace request.hid (events.map HidEvent.toRequest) (.ret o))
  | ble (request : Request C) (events : List (Exchange C (BleError C)))
      (o : Outcome (NEARLedgerError C) Bytes)
      (trace : Call.Trace request.ble (events.map Exchange.toRequest) (.ret o))

namespace SigningCall

def request : SigningCall C → Request C
  | hid request _ _ _ => request
  | ble request _ _ _ => request

/-- What the device receives from the call, and the replies it sends. -/
def received : SigningCall C → List Receipt
  | hid _ events _ _ => (events.filterMap HidEvent.exchange?).flatMap Exchange.receipts
  | ble _ events _ _ => events.flatMap Exchange.receipts

/-- Each reply that the call has read is the device's reply to the command it had just sent. -/
def OwnReplies : SigningCall C → Prop
  | hid _ events _ _ => ∀ x ∈ events.filterMap HidEvent.exchange?, x.delivery.Own
  | ble _ events _ _ => ∀ x ∈ events, x.delivery.Own

end SigningCall

/-- What the device receives from calls made one after another, and the replies it sends. -/
def deviceLog (calls : List (SigningCall C)) : List Receipt :=
  calls.flatMap SigningCall.received

/-! ## What a device receives from a call -/

/-- The commands for the chunks, in order, each one after the first only when the one before it was
    accepted; they may stop anywhere. -/
inductive Receives (C : Crates) (ins : UInt8) : List Bytes → List Receipt → Prop where
  | stop (cs : List Bytes) : Receives C ins cs []
  | last (chunk : Bytes) (rest : List Bytes) (reply : Option Bytes) :
      Receives C ins (chunk :: rest) [⟨signingCommand ins rest.isEmpty chunk, reply⟩]
  | next {chunk : Bytes} {rest : List Bytes} {reply : Option Bytes} {rs : List Receipt} :
      Receipt.Accepted C ⟨signingCommand ins rest.isEmpty chunk, reply⟩ → Receives C ins rest rs →
      Receives C ins (chunk :: rest) (⟨signingCommand ins rest.isEmpty chunk, reply⟩ :: rs)

/-- A loop that stops when an exchange fails or is refused, and otherwise goes on. -/
theorem receives_cons {E : Type} {ins : UInt8} {chunk : Bytes} {rest : List Bytes}
    {delivery : Delivery C E} (hown : delivery.Own) {rs : List Receipt}
    (hstops : (∀ response, delivery.result = .ok response → C.retcode response ≠ returnCodeOk) →
      rs = [])
    (hgoes : ∀ response, delivery.result = .ok response → C.retcode response = returnCodeOk →
      Receives C ins rest rs) :
    Receives C ins (chunk :: rest)
      (Exchange.receipts ⟨signingCommand ins rest.isEmpty chunk, delivery⟩ ++ rs) := by
  cases delivery with
  | lost err =>
      obtain rfl := hstops (by simp [Delivery.result])
      exact .stop _
  | replyLost reply err =>
      obtain rfl := hstops (by simp [Delivery.result])
      exact .last chunk rest reply
  | replied reply response parsed =>
      by_cases hok : C.retcode response = returnCodeOk
      · exact .next ⟨response, parsed, hok⟩ (hgoes response rfl hok)
      -- the device has answered, but not with `0x9000`
      · obtain rfl := hstops fun response' heq => by
          cases heq
          exact hok
        exact .last chunk rest (some reply)
  | stale reply response => exact absurd hown id

/-- The exchanges of a loop over the chunks, read off the events of a transport. -/
theorem receives_of_trace {Req E κ : Type} {Resp : Req → Type} {w : Wire C Resp E}
    {toRequest : κ → Sigma Resp} {exchangeOf : κ → Option (Exchange C E)}
    (hexchange : ∀ e command reply, toRequest e = ⟨w.exchange command, reply⟩ →
      ∃ delivery, exchangeOf e = some ⟨command, delivery⟩ ∧
        w.answer command reply = delivery.result)
    {ins : UInt8} {o : Outcome (NEARLedgerError C) Bytes} (cs : List Bytes) {es : List κ}
    (hown : ∀ x ∈ es.filterMap exchangeOf, x.delivery.Own)
    (htrace : Call.Trace (w.signingLoop ins cs) (es.map toRequest) (.ret o)) :
    Receives C ins cs ((es.filterMap exchangeOf).flatMap Exchange.receipts) := by
  induction cs generalizing es with
  | nil =>
      obtain rfl := Call.eq_nil_of_trace_ret_map htrace
      exact .stop _
  | cons chunk rest ih =>
      rw [Wire.signingLoop, Wire.command] at htrace
      obtain ⟨e, reply, es, rfl, he, htail⟩ := Call.trace_request_map_iff.mp htrace
      obtain ⟨delivery, hdelivery, hanswer⟩ := hexchange e _ reply he
      rw [hanswer] at htail
      rw [List.filterMap_cons_some hdelivery] at hown ⊢
      obtain ⟨hown, hrest⟩ := List.forall_mem_cons.mp hown
      rw [List.flatMap_cons]
      refine receives_cons hown (fun hfails => ?_) fun response hresponse hok => ?_
      · obtain ⟨err, herr⟩ := Wire.onReply_of_fails hfails
        rw [herr] at htail
        rw [Call.eq_nil_of_trace_ret_map htail]
        rfl
      · rw [hresponse, Wire.onReply_ok hok] at htail
        cases rest with
        | nil =>
            rw [Call.eq_nil_of_trace_ret_map htail]
            exact .stop _
        | cons chunk' rest => exact ih hrest htail

theorem exchange_of_toRequest_ble (x : Exchange C (BleError C)) (command : APDUCommand)
    (reply : BleReply C command) (h : x.toRequest = ⟨command, reply⟩) :
    ∃ delivery, some x = some ⟨command, delivery⟩ ∧ reply = delivery.result := by
  obtain ⟨command', delivery⟩ := x
  cases h
  exact ⟨delivery, rfl, rfl⟩

theorem exchange_of_toRequest_hid (e : HidEvent C) (command : APDUCommand)
    (reply : HidReq.Reply C (.exchange command)) (h : e.toRequest = ⟨.exchange command, reply⟩) :
    ∃ delivery, e.exchange? = some ⟨command, delivery⟩ ∧ reply = delivery.result := by
  cases e with
  | exchange x =>
      obtain ⟨command', delivery⟩ := x
      cases h
      exact ⟨delivery, rfl, rfl⟩
  | hidApiNew reply' => cases h
  | transportNew reply' => cases h

/-- Opening the transport reaches no device. -/
theorem receives_of_trace_getTransport {ins : UInt8} {cs : List Bytes}
    {o : Outcome (NEARLedgerError C) Bytes} {es : List (HidEvent C)}
    (hown : ∀ x ∈ es.filterMap HidEvent.exchange?, x.delivery.Own)
    (h : Call.Trace (Hid.getTransport >>= fun _ => (Wire.hid C).signingLoop ins cs)
      (es.map HidEvent.toRequest) (.ret o)) :
    Receives C ins cs ((es.filterMap HidEvent.exchange?).flatMap Exchange.receipts) := by
  change Call.Trace (Call.request HidReq.hidApiNew _) _ _ at h
  obtain ⟨e, reply, es, rfl, heq, h⟩ := Call.trace_request_map_iff.mp h
  have hopen : e.exchange? = none := by
    cases e with
    | exchange x => cases heq
    | _ => rfl
  rw [List.filterMap_cons_none hopen] at hown ⊢
  cases reply with
  | error err =>
      rw [Call.eq_nil_of_trace_ret_map h]
      exact .stop _
  | ok u =>
      change Call.Trace (Call.request HidReq.transportNew _) _ _ at h
      obtain ⟨e, reply, es, rfl, heq, h⟩ := Call.trace_request_map_iff.mp h
      have hnew : e.exchange? = none := by
        cases e with
        | exchange x => cases heq
        | _ => rfl
      rw [List.filterMap_cons_none hnew] at hown ⊢
      cases reply with
      | error err =>
          rw [Call.eq_nil_of_trace_ret_map h]
          exact .stop _
      | ok u => exact receives_of_trace exchange_of_toRequest_hid cs hown h

/-- What the device receives from a signing call that reads no stale reply: chunks of the
    path-and-payload bytes, or nothing when the payload cannot be serialized. -/
theorem SigningCall.receives (hP : C.PathDoc) (call : SigningCall C) (hown : call.OwnReplies) :
    (∃ data, call.request.data = some data ∧
      Receives C call.request.ins (chunks chunkSize data) call.received) ∨ call.received = [] := by
  obtain ⟨indices, hpath⟩ := pathIndices_eq_some hP call.request.path
  cases hpayload : call.request.payload with
  | none =>
      right
      cases call with
      | hid request events o trace =>
          change request.payload = none at hpayload
          rw [Request.hid_eq, hpayload] at trace
          change (events.filterMap HidEvent.exchange?).flatMap Exchange.receipts = []
          rw [Call.eq_nil_of_trace_ret_map trace, List.filterMap_nil, List.flatMap_nil]
      | ble request events o trace =>
          change request.payload = none at hpayload
          rw [Request.ble_eq, hpayload] at trace
          change events.flatMap Exchange.receipts = []
          rw [Call.eq_nil_of_trace_ret_map trace, List.flatMap_nil]
  | some payload =>
      refine .inl ⟨_, Request.data_eq_some hpayload hpath, ?_⟩
      cases call with
      | hid request events o trace =>
          change request.payload = some payload at hpayload
          change pathIndices request.path = some indices at hpath
          rw [Request.hid_eq, hpayload] at trace
          change Call.Trace (Hid.sendPayloadApdus payload request.path request.ins) _ _ at trace
          rw [sendPayloadApdus_eq hpath] at trace
          exact receives_of_trace_getTransport hown trace
      | ble request events o trace =>
          change request.payload = some payload at hpayload
          change pathIndices request.path = some indices at hpath
          rw [Request.ble_eq, hpayload] at trace
          change Call.Trace (BleApi.sendPayloadApdusBle payload request.path request.ins) _ _ at trace
          rw [sendPayloadApdusBle_eq hpath, loopBle_eq] at trace
          have hreceives := @receives_of_trace C APDUCommand (BleError C) _ _ (Wire.ble C) _ some
            exchange_of_toRequest_ble _ o _ events (by rwa [List.filterMap_some]) trace
          rwa [List.filterMap_some] at hreceives

/-! ## Calls that exist -/

/-- Everything a device can receive from a request it does receive from some call. -/
theorem exists_trace_loopBle {ins : UInt8} {cs : List Bytes} {rs : List Receipt}
    (h : Receives C ins cs rs) :
    ∃ (xs : List (Exchange C (BleError C))) (o : Outcome (NEARLedgerError C) Bytes),
      Call.Trace (loopBle ins cs : BleCall C Bytes) (xs.map Exchange.toRequest) (.ret o) ∧
        (∀ x ∈ xs, x.delivery.Own) ∧ xs.flatMap Exchange.receipts = rs := by
  induction h with
  | stop cs =>
      cases cs with
      | nil => exact ⟨[], _, .nil _, by simp, rfl⟩
      | cons chunk rest =>
          refine ⟨[⟨signingCommand ins rest.isEmpty chunk, .lost .timeout⟩], _, .cons (.nil _), ?_,
            rfl⟩
          simp [Delivery.Own]
  | last chunk rest reply =>
      refine ⟨[⟨signingCommand ins rest.isEmpty chunk, .replyLost reply .timeout⟩], _,
        .cons (.nil _), ?_, rfl⟩
      simp [Delivery.Own]
  | @next chunk rest reply rs haccepted hrest ih =>
      obtain ⟨response, hresponse, hok⟩ := haccepted
      obtain ⟨reply, rfl, parsed⟩ := Option.bind_eq_some_iff.mp hresponse
      -- after the last chunk the call returns; before it the loop goes on
      cases rest with
      | nil =>
          cases hrest
          refine ⟨[⟨signingCommand ins true chunk, .replied reply response parsed⟩],
            .ok (C.answerData response), .cons ?_, by simp [Delivery.Own], rfl⟩
          change Call.Trace (afterChunkBle true (loopBle ins []) (.ok response)) _ _
          rw [afterChunkBle, if_pos hok]
          exact .nil _
      | cons chunk' rest =>
          obtain ⟨xs, o, htrace, hown, rfl⟩ := ih
          refine ⟨⟨signingCommand ins false chunk, .replied reply response parsed⟩ :: xs, o,
            .cons ?_, List.forall_mem_cons.mpr ⟨trivial, hown⟩, rfl⟩
          change Call.Trace (afterChunkBle false (loopBle ins (chunk' :: rest)) (.ok response)) _ _
          rw [afterChunkBle, if_pos hok]
          exact htrace

/-- A trace of the loop over the chunks of a request is a call of it. -/
theorem exists_call_of_trace {request : Request C} {data : Bytes} (hdata : request.data = some data)
    {xs : List (Exchange C (BleError C))} {o : Outcome (NEARLedgerError C) Bytes}
    (htrace : Call.Trace (loopBle request.ins (chunks chunkSize data) : BleCall C Bytes)
      (xs.map Exchange.toRequest) (.ret o)) :
    ∃ call : SigningCall C, call.request = request ∧
      call.received = xs.flatMap Exchange.receipts ∧
      ((∀ x ∈ xs, x.delivery.Own) → call.OwnReplies) := by
  obtain ⟨payload, hpayload, hdata⟩ := Option.bind_eq_some_iff.mp hdata
  obtain ⟨hdPathBytes, hpath, hdata⟩ := Option.bind_eq_some_iff.mp hdata
  obtain ⟨indices, hindices, rfl⟩ := Option.map_eq_some_iff.mp hpath
  obtain rfl := Option.some.inj hdata
  have hble : request.ble = BleApi.sendPayloadApdusBle payload request.path request.ins := by
    rw [Request.ble_eq, hpayload]
    rfl
  rw [← sendPayloadApdusBle_eq hindices, ← hble] at htrace
  exact ⟨.ble request xs o htrace, rfl, rfl, id⟩

theorem exists_call_of_receives {request : Request C} {data : Bytes} (hdata : request.data = some data)
    {rs : List Receipt} (h : Receives C request.ins (chunks chunkSize data) rs) :
    ∃ call : SigningCall C, call.request = request ∧ call.received = rs ∧ call.OwnReplies := by
  obtain ⟨xs, o, htrace, hown, rfl⟩ := exists_trace_loopBle h
  obtain ⟨call, hrequest, hreceived, hcall⟩ := exists_call_of_trace hdata htrace
  exact ⟨call, hrequest, hreceived, hcall hown⟩

end NearLedger
