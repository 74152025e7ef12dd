/-
  NearLedger.Api.ErrorTexts

  The errors of the public functions carry texts where their causes were typed:
  the return code of a response is kept as the text that
  `retcode_to_error_string` has for it, and an error of `TransportBle` as what
  it displays.  Nothing is lost by that.  The texts of two return codes differ,
  no other error has such a text, and so the text of an error tells how the last
  reply has failed (`error_texts_truthful`).
-/

import NearLedger.Api.FailStop
import NearLedger.Lib.Hex

namespace NearLedger

open Interaction Monitor

variable {C : Crates} {α : Type}

/-! ## The texts of the return codes -/

/-- The return codes with a text of their own. -/
def namedRetcodes : List UInt16 :=
  [returnCodeOk, returnCodeClaNotSupported, returnCodeInsNotSupported, returnCodeAppMissing,
    returnCodeErrorInput, returnCodeDecline, returnCodeUnknownError]

theorem retcodeToErrorString_of_not_mem {retcode : UInt16} (h : retcode ∉ namedRetcodes) :
    retcodeToErrorString retcode = "Ledger APDU retcode: 0x" ++ upperHex retcode.toNat := by
  simp only [namedRetcodes, List.mem_cons, List.not_mem_nil, or_false, not_or] at h
  obtain ⟨h₁, h₂, h₃, h₄, h₅, h₆, h₇⟩ := h
  rw [retcodeToErrorString, if_neg h₁, if_neg h₂, if_neg h₃, if_neg h₄, if_neg h₅, if_neg h₆,
    if_neg h₇]

/-- What holds of each of them can be evaluated. -/
theorem forall_named {P : UInt16 → Prop} [DecidablePred P]
    (h : namedRetcodes.all (fun retcode => decide (P retcode)) = true) :
    ∀ retcode ∈ namedRetcodes, P retcode :=
  fun retcode hmem => of_decide_eq_true (List.all_eq_true.mp h retcode hmem)

/-- A character of a text. -/
def letter (i : Nat) (msg : String) : Option Char := msg.toList[i]?

/-- A text that begins with a known one. -/
theorem letter_append {i : Nat} {s t : String} {c : Char} (h : letter i s = some c) :
    letter i (s ++ t) = some c := by
  rw [letter] at h ⊢
  obtain ⟨hi, -⟩ := List.getElem?_eq_some_iff.mp h
  rw [String.toList_append, List.getElem?_append_left hi, h]

theorem initial_named : ∀ retcode ∈ namedRetcodes,
    letter 0 (retcodeToErrorString retcode) ∈ [some 'S', some 'N', some 'I', some 'U'] :=
  forall_named (by decide)

theorem initial_of_not_mem {retcode : UInt16} (h : retcode ∉ namedRetcodes) :
    letter 0 (retcodeToErrorString retcode) = some 'L' := by
  rw [retcodeToErrorString_of_not_mem h]
  exact letter_append rfl

theorem initial_retcodeToErrorString (retcode : UInt16) :
    letter 0 (retcodeToErrorString retcode) ∈
      [some 'S', some 'N', some 'I', some 'U', some 'L'] := by
  by_cases h : retcode ∈ namedRetcodes
  · have hnamed := initial_named retcode h
    simp only [List.mem_cons, List.not_mem_nil, or_false] at hnamed ⊢
    tauto
  · rw [initial_of_not_mem h]
    decide

theorem retcodeToErrorString_injective_named : ∀ a ∈ namedRetcodes, ∀ b ∈ namedRetcodes,
    retcodeToErrorString a = retcodeToErrorString b → a = b := by
  have hpairs : namedRetcodes.all (fun a => namedRetcodes.all fun b =>
      decide (retcodeToErrorString a = retcodeToErrorString b → a = b)) = true := by decide
  intro a ha
  exact forall_named (List.all_eq_true.mp hpairs a ha)

/-- The texts of two return codes differ. -/
theorem retcodeToErrorString_injective {a b : UInt16}
    (h : retcodeToErrorString a = retcodeToErrorString b) : a = b := by
  have hmixed {a b : UInt16} (ha : a ∈ namedRetcodes) (hb : b ∉ namedRetcodes) :
      retcodeToErrorString a ≠ retcodeToErrorString b := by
    intro h
    have hinitial := initial_named a ha
    rw [h, initial_of_not_mem hb] at hinitial
    exact absurd hinitial (by decide)
  by_cases ha : a ∈ namedRetcodes
  · by_cases hb : b ∈ namedRetcodes
    · exact retcodeToErrorString_injective_named a ha b hb h
    · exact absurd h (hmixed ha hb)
  · by_cases hb : b ∈ namedRetcodes
    · exact absurd h.symm (hmixed hb ha)
    · rw [retcodeToErrorString_of_not_mem ha, retcodeToErrorString_of_not_mem hb,
        String.append_right_inj] at h
      exact UInt16.toNat_inj.mp (Hex.toDigits_toUpper_injective (String.ofList_inj.mp h))

theorem named_ne_noChunks : ∀ retcode ∈ namedRetcodes,
    retcodeToErrorString retcode ≠ "Unable to process request" :=
  forall_named (by decide)

/-- An error about the data of a response has another text. -/
theorem DataMessage.ne_retcodeToErrorString {msg : String} (h : DataMessage C msg)
    (retcode : UInt16) : msg ≠ retcodeToErrorString retcode := by
  have hinitial := initial_retcodeToErrorString retcode
  rintro rfl
  generalize hmsg : retcodeToErrorString retcode = msg at h hinitial
  cases h with
  | noChunks =>
      by_cases hnamed : retcode ∈ namedRetcodes
      · exact named_ne_noChunks retcode hnamed hmsg
      · have hL := initial_of_not_mem hnamed
        rw [hmsg] at hL
        exact absurd hL (by decide)
  | nameTooShort => exact absurd hinitial (by decide)
  | nameTruncated => exact absurd hinitial (by decide)
  | keyLength data =>
      have hfirst : letter 0 "`" = some (Char.ofNat 96) := by decide
      have hbacktick := letter_append (t := " (expected)") (letter_append
        (t := toString publicKeyLength) (letter_append (t := " != ") (letter_append
          (t := toString data.length) (letter_append (t := "` response obtained of invalid length ")
            (letter_append (t := C.hexEncode data) hfirst)))))
      rw [hbacktick] at hinitial
      exact absurd hinitial (by decide)
  | key data err =>
      have hfirst : letter 0
          "problem constructing `ed25519_dalek::VerifyingKey` from received byte array: " =
            some 'p' := by decide
      have hp := letter_append (t := C.debugSignatureError err) (letter_append (t := ", err: ")
        (letter_append (t := C.hexEncode data) hfirst))
      rw [hp] at hinitial
      exact absurd hinitial (by decide)

/-! ## The texts of `BleError` -/

/-- The errors display the same text: they are the same, up to what `btleplug` displays. -/
def BleError.Alike : BleError C → BleError C → Prop
  | .ble err, .ble err' => C.displayBtleError err = C.displayBtleError err'
  | .deviceNotFound, .deviceNotFound => True
  | .invalidPacket, .invalidPacket => True
  | .comm msg, .comm msg' => msg = msg'
  | .timeout, .timeout => True
  | _, _ => False

theorem BleError.display_ble (err : C.BtleError) :
    (BleError.ble err : BleError C).display = "BLE error: " ++ C.displayBtleError err := rfl

theorem BleError.display_comm (msg : String) :
    (BleError.comm msg : BleError C).display = "BLE communication error: " ++ msg := rfl

/-- Two characters of what an error displays. -/
def BleError.letters : BleError C → Option Char × Option Char
  | .ble _ => (some 'B', some 'e')
  | .deviceNotFound => (some 'N', some 'e')
  | .invalidPacket => (some 'I', some 'l')
  | .comm _ => (some 'B', some 'c')
  | .timeout => (some 'T', some 'o')

theorem BleError.letters_eq (err : BleError C) :
    err.letters = (letter 0 err.display, letter 4 err.display) := by
  cases err with
  | ble err =>
      have hB : letter 0 "BLE error: " = some 'B' := by decide
      have he : letter 4 "BLE error: " = some 'e' := by decide
      rw [display_ble, letter_append hB, letter_append he]
      rfl
  | comm msg =>
      have hB : letter 0 "BLE communication error: " = some 'B' := by decide
      have hc : letter 4 "BLE communication error: " = some 'c' := by decide
      rw [display_comm, letter_append hB, letter_append hc]
      rfl
  | deviceNotFound =>
      show (some 'N', some 'e') = (letter 0 "No Ledger device found via BLE",
        letter 4 "No Ledger device found via BLE")
      decide
  | invalidPacket =>
      show (some 'I', some 'l') = (letter 0 "Invalid BLE packet received from Ledger",
        letter 4 "Invalid BLE packet received from Ledger")
      decide
  | timeout =>
      show (some 'T', some 'o') = (letter 0 "Timeout waiting for Ledger BLE response",
        letter 4 "Timeout waiting for Ledger BLE response")
      decide

/-- Errors that display the same text are alike. -/
theorem BleError.alike_of_display_eq {err err' : BleError C} (h : err.display = err'.display) :
    err.Alike err' := by
  have hletters : err.letters = err'.letters := by rw [letters_eq, letters_eq, h]
  cases err with
  | ble e =>
      cases err' with
      | ble e' =>
          rw [display_ble, display_ble] at h
          exact (String.append_right_inj _).mp h
      | _ => exact absurd hletters (by simp [letters])
  | comm msg =>
      cases err' with
      | comm msg' =>
          rw [display_comm, display_comm] at h
          exact (String.append_right_inj _).mp h
      | _ => exact absurd hletters (by simp [letters])
  | _ =>
      cases err' with
      | ble | comm => exact absurd hletters (by simp [letters])
      | _ => first | trivial | exact absurd hletters (by simp [letters])

/-! ## What a text tells -/

/-- An error that is not about data is that of the last reply. -/
theorem FailsOnce.cause {Req : Type} {Resp : Req → Type}
    {failure : (q : Req) → Resp q → Option (NEARLedgerError C)} {es : List (Sigma Resp)}
    {e : NEARLedgerError C}
    (h : FailsOnce failure es (.ret (.err e) : Call Req Resp (NEARLedgerError C) α)) :
    (∃ before q reply, es = before ++ [⟨q, reply⟩] ∧ failure q reply = some e) ∨
      ∃ msg, e = .apduExchangeError msg ∧ DataMessage C msg := by
  by_cases hall : ∀ x ∈ es, failure x.1 x.2 = none
  · exact .inr (h.2 hall _ rfl e rfl)
  · push Not at hall
    obtain ⟨⟨q, reply⟩, hmem, hfails⟩ := hall
    obtain ⟨before, after, rfl⟩ := List.append_of_mem hmem
    obtain ⟨e', he'⟩ := Option.ne_none_iff_exists'.mp hfails
    obtain ⟨rfl, hret⟩ := h.1 before q reply after e' rfl he'
    cases hret
    exact .inl ⟨before, q, reply, rfl, he'⟩

/-- A failure with the text of a return code is a response with that code. -/
theorem retcode_of_statusFailure {command : APDUCommand} {retcode retcode' : UInt16}
    (h : statusFailure C command retcode' =
      some (.apduExchangeError (retcodeToErrorString retcode))) :
    retcode' ≠ returnCodeOk ∧ retcode' = retcode := by
  have hok : retcode' ≠ returnCodeOk := by
    intro hok
    rw [statusFailure_eq_none_iff.mpr hok] at h
    cases h
  refine ⟨hok, ?_⟩
  rw [statusFailure, if_neg hok] at h
  split at h
  · have htext := NEARLedgerError.apduExchangeError.inj (Option.some.inj h)
    have hinitial := initial_retcodeToErrorString retcode
    rw [← htext] at hinitial
    exact absurd hinitial (by decide)
  · exact retcodeToErrorString_injective
      (NEARLedgerError.apduExchangeError.inj (Option.some.inj h))

/-- The text of a return code is only returned for a last response with that code, and the text of
    an error of the transport only for a last reply that is such an error. -/
theorem error_texts_truthful (q : ApiRequest C) :
    (∀ (es : List (Sigma (HidReq.Reply C))) (retcode : UInt16),
      Call.Trace q.hid es (.ret (.err (.apduExchangeError (retcodeToErrorString retcode)))) →
      retcode ≠ returnCodeOk ∧ ∃ before command response,
        es = before ++ [⟨.exchange command, .ok response⟩] ∧ C.retcode response = retcode) ∧
    (∀ (es : List (Sigma (BleReply C))) (retcode : UInt16),
      Call.Trace q.ble es (.ret (.err (.apduExchangeError (retcodeToErrorString retcode)))) →
      retcode ≠ returnCodeOk ∧ ∃ before command response,
        es = before ++ [⟨command, .ok response⟩] ∧ C.retcode response = retcode) ∧
    ∀ (es : List (Sigma (BleReply C))) (err : BleError C),
      Call.Trace q.ble es (.ret (.err (.ofBleError err))) →
      ∃ before command err', es = before ++ [⟨command, .error err'⟩] ∧ err'.Alike err := by
  refine ⟨fun es retcode htrace => ?_, fun es retcode htrace => ?_, fun es err htrace => ?_⟩
  · rcases (fail_stop_hid q htrace).2.cause with ⟨before, req, reply, rfl, he⟩ | ⟨msg, he, hmsg⟩
    · cases req with
      | hidApiNew => cases reply <;> cases he
      | transportNew => cases reply <;> cases he
      | exchange command =>
          cases reply with
          | error e => cases he
          | ok response =>
              obtain ⟨hok, rfl⟩ := retcode_of_statusFailure he
              exact ⟨hok, before, command, response, rfl, rfl⟩
    · exact absurd (NEARLedgerError.apduExchangeError.inj he).symm
        (hmsg.ne_retcodeToErrorString retcode)
  · rcases (fail_stop_ble q htrace).cause with ⟨before, command, reply, rfl, he⟩ | ⟨msg, he, hmsg⟩
    · cases reply with
      | error e => cases he
      | ok response =>
          obtain ⟨hok, rfl⟩ := retcode_of_statusFailure he
          exact ⟨hok, before, command, response, rfl, rfl⟩
    · exact absurd (NEARLedgerError.apduExchangeError.inj he).symm
        (hmsg.ne_retcodeToErrorString retcode)
  · rcases (fail_stop_ble q htrace).cause with ⟨before, command, reply, rfl, he⟩ | ⟨msg, he, -⟩
    · cases reply with
      | ok response =>
          change statusFailure C command _ = _ at he
          rw [statusFailure] at he
          split at he
          · cases he
          · split at he <;> cases he
      | error err' =>
          have htext := NEARLedgerError.bleError.inj (Option.some.inj he)
          exact ⟨before, command, err', rfl, BleError.alike_of_display_eq htext⟩
    · cases he

theorem error_texts_truthful_declined :
    Call.Trace declinedRequest.hid declinedEvents
        (.ret (.err (.apduExchangeError (retcodeToErrorString 0x5501)))) ∧
      ∃ before command response,
        declinedEvents = before ++ [⟨.exchange command, .ok response⟩] ∧
          Crates.reference.retcode response = 0x5501 := by
  have htrace : Call.Trace declinedRequest.hid declinedEvents
      (.ret (.err (.apduExchangeError (retcodeToErrorString 0x5501)))) :=
    .cons (.cons (.cons (.nil _)))
  exact ⟨htrace, ((error_texts_truthful declinedRequest).1 _ _ htrace).2⟩

end NearLedger
