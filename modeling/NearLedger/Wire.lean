/-
  NearLedger.Wire

  What the functions of `lib.rs` and of `ble_api.rs` have in common.  They
  exchange commands over a transport and report its errors (`Wire`), nearly all
  of them look at a response only when its return code is `0x9000`
  (`Wire.command`), and they make the same of the data of a public key
  (`keyOf`).  The functions themselves keep the text of the source; what
  holds of both transports is proved here once and used through their equations.
-/

import NearLedger.BleApi
import NearLedger.Hid
import NearLedger.Lib.Handlers

namespace NearLedger

open Interaction

/-- A transport: how a command is requested, what its reply says, and the error that is returned
    when the exchange fails. -/
structure Wire (C : Crates) {Req : Type} (Resp : Req → Type) (E : Type) where
  exchange : APDUCommand → Req
  answer (command : APDUCommand) : Resp (exchange command) → Except E C.APDUAnswer
  toError : E → NEARLedgerError C

namespace Wire

/-- The transport of `lib.rs`. -/
def hid (C : Crates) : Wire C (HidReq.Reply C) C.LedgerHIDError where
  exchange := HidReq.exchange
  answer _ reply := reply
  toError := .ledgerHIDError

/-- The transport of `ble_api.rs`. -/
def ble (C : Crates) : Wire C (BleReply C) (BleError C) where
  exchange command := command
  answer _ reply := reply
  toError := .ofBleError

variable {C : Crates} {Req E α : Type} {Resp : Req → Type}

/-- What is made of a reply when `g` is made of a response of `0x9000`. -/
def onReply (w : Wire C Resp E) (g : C.APDUAnswer → Call Req Resp (NEARLedgerError C) α) :
    Except E C.APDUAnswer → Call Req Resp (NEARLedgerError C) α
  | .ok response =>
      if C.retcode response = returnCodeOk then g response
      else Call.throw (.apduExchangeError (retcodeToErrorString (C.retcode response)))
  | .error err => Call.throw (w.toError err)

/-- A command and what is made of its reply. -/
def command (w : Wire C Resp E) (c : APDUCommand)
    (g : C.APDUAnswer → Call Req Resp (NEARLedgerError C) α) :
    Call Req Resp (NEARLedgerError C) α :=
  Call.request (w.exchange c) fun reply => w.onReply g (w.answer c reply)

variable {w : Wire C Resp E} {g : C.APDUAnswer → Call Req Resp (NEARLedgerError C) α}

/-- A function of the source that exchanges a command and goes on in this way. -/
theorem ask_bind_eq_command {c : APDUCommand}
    {f : Resp (w.exchange c) → Call Req Resp (NEARLedgerError C) α}
    (h : ∀ reply, f reply = w.onReply g (w.answer c reply)) :
    (Call.ask (w.exchange c) >>= f) = w.command c g := by
  show Call.request (w.exchange c) f = w.command c g
  rw [command, funext h]

theorem onReply_ok {response : C.APDUAnswer} (h : C.retcode response = returnCodeOk) :
    w.onReply g (.ok response) = g response := by
  rw [onReply, if_pos h]

/-- A reply that is not a success ends the function. -/
theorem onReply_of_fails {reply : Except E C.APDUAnswer}
    (h : ∀ response, reply = .ok response → C.retcode response ≠ returnCodeOk) :
    ∃ e, w.onReply g reply = Call.throw e := by
  cases reply with
  | error err => exact ⟨_, rfl⟩
  | ok response =>
      rw [onReply, if_neg (h response rfl)]
      exact ⟨_, rfl⟩

/-- What holds of everything that is made of a response and of every error holds of what is made of
    a reply. -/
theorem onReply_induction {P : Call Req Resp (NEARLedgerError C) α → Prop}
    (hthrow : ∀ e, P (Call.throw e)) (hg : ∀ response, P (g response))
    (reply : Except E C.APDUAnswer) : P (w.onReply g reply) := by
  cases reply with
  | error err => exact hthrow _
  | ok response =>
      rw [onReply]
      split
      · exact hg response
      · exact hthrow _

theorem only_command {P : Req → Prop} {c : APDUCommand} (hc : P (w.exchange c))
    (hg : ∀ response, (g response).Only P) : (w.command c g).Only P := by
  refine ⟨hc, fun reply => ?_⟩
  exact onReply_induction (fun _ => trivial) hg _

/-- A function of `lib.rs` opens the transport before. -/
theorem getTransport_exchange_eq_command {c : APDUCommand}
    {f : HidReq.Reply C (.exchange c) → HidCall C α} {g : C.APDUAnswer → HidCall C α}
    (h : ∀ reply, f reply = (hid C).onReply g reply) :
    (do Hid.getTransport; let reply ← Hid.exchange c; f reply) =
      (do Hid.getTransport; (hid C).command c g) := by
  have hcommand : (Hid.exchange c >>= f) = (hid C).command c g :=
    (hid C).ask_bind_eq_command h
  rw [hcommand]

end Wire

variable {C : Crates}

/-! ## Public keys -/

section

variable {Req : Type} {Resp : Req → Type}

/-- What `handle_public_key_response` and its mirror make of a response of `0x9000`. -/
def keyOf (response : C.APDUAnswer) : Call Req Resp (NEARLedgerError C) C.VerifyingKey :=
  let data := C.answerData response
  if data.length ≠ publicKeyLength then
    Call.throw (.apduExchangeError ("`" ++ C.hexEncode data ++
      "` response obtained of invalid length " ++ toString data.length ++ " != " ++
      toString publicKeyLength ++ " (expected)"))
  else
    match C.verifyingKeyFromBytes data with
    | .ok key => pure key
    | .error err => Call.throw (.apduExchangeError
        ("problem constructing `ed25519_dalek::VerifyingKey` from received byte array: " ++
          C.hexEncode data ++ ", err: " ++ C.debugSignatureError err))

/-- It ends at once, and not in a panic. -/
theorem keyOf_eq_ret (response : C.APDUAnswer) :
    ∃ o, (keyOf response : Call Req Resp _ _) = .ret o ∧ o ≠ .panicked := by
  rw [keyOf]
  by_cases hlen : (C.answerData response).length ≠ publicKeyLength
  · rw [if_pos hlen]
    exact ⟨.err _, rfl, by simp⟩
  · rw [if_neg hlen]
    cases C.verifyingKeyFromBytes (C.answerData response) with
    | ok key => exact ⟨.ok key, rfl, by simp⟩
    | error err => exact ⟨.err _, rfl, by simp⟩

theorem only_keyOf (P : Req → Prop) (response : C.APDUAnswer) :
    (keyOf response : Call Req Resp _ _).Only P := by
  obtain ⟨o, ho, -⟩ := @keyOf_eq_ret C Req Resp response
  rw [ho]
  exact Call.only_ret P o

end

theorem handlePublicKeyResponse_eq (response : C.APDUAnswer) :
    Hid.handlePublicKeyResponse response = (Wire.hid C).onReply keyOf (.ok response) := rfl

theorem handlePublicKeyResponseBle_eq (response : C.APDUAnswer) :
    BleApi.handlePublicKeyResponseBle response = (Wire.ble C).onReply keyOf (.ok response) := rfl

end NearLedger
