/-
  NearLedger.Signing.Printed

  `print_apdus` writes the commands that a signing function would send as lines
  of text, `APDU  in (0): 8002..`.  The lines can be read back, and what is read
  is the stream of which the signing functions send a beginning to a device.
-/

import NearLedger.Lib.Hex
import NearLedger.Signing.Agreement
import NearLedger.Signing.Calls
import NearLedger.WellFormed

namespace NearLedger

open Interaction Slices

variable {C : Crates}

/-- What `hex::encode` promises: two lower-case digits for each byte. -/
def Crates.HexDoc (C : Crates) : Prop := ∀ bs : Bytes, C.hexEncode bs = Crates.lowerHex bs

/-! ## Reading a line -/

/-- The command in a line: the bytes after the colon are one command and nothing else. -/
def readLine (line : String) : Option APDUCommand :=
  match line.toList.dropWhile (· != ':') with
  | ':' :: ' ' :: digits =>
      match (Hex.bytes digits).bind decodeApdu with
      | some (command, []) => some command
      | _ => none
  | _ => none

/-- What stands before the colon. -/
def lineHead (entry : LogEntry) : String :=
  "APDU  in" ++ (if entry.isLastChunk then " (last)" else " (" ++ toString entry.index ++ ")")

theorem toList_logCommand (entry : LogEntry) : (logCommand C entry).toList =
    (lineHead entry).toList ++ ':' :: ' ' :: (C.hexEncode (C.serialize entry.command)).toList := by
  rw [logCommand, String.toList_append, String.toList_append, List.append_assoc]
  rfl

/-- No character of the text is a colon. -/
def noColon (text : String) : Bool := text.toList.all (· != ':')

theorem noColon_append {s t : String} (hs : noColon s = true) (ht : noColon t = true) :
    noColon (s ++ t) = true := by
  rw [noColon] at hs ht ⊢
  rw [String.toList_append, List.all_append, hs, ht]
  rfl

theorem noColon_toString (n : Nat) : noColon (toString n) = true := by
  have hdigits : (toString n).toList = Nat.toDigits 10 n := String.toList_ofList
  rw [noColon, hdigits, List.all_eq_true]
  intro c hc
  have hdigit : c.isDigit = true := Nat.isDigit_of_mem_toDigits (by decide) (by decide) hc
  rw [bne_iff_ne]
  rintro rfl
  exact absurd hdigit (by decide)

theorem noColon_lineHead (entry : LogEntry) : noColon (lineHead entry) = true := by
  have hlast : noColon " (last)" = true := by decide
  have hopen : noColon " (" = true := by decide
  have hclose : noColon ")" = true := by decide
  refine noColon_append (by decide) ?_
  split
  · exact hlast
  · exact noColon_append (noColon_append hopen (noColon_toString entry.index)) hclose

/-- A line is read as the command that it was written for. -/
theorem readLine_logCommand (hA : C.ApduDoc) (hH : C.HexDoc) {entry : LogEntry}
    (hlen : entry.command.data.length ≤ 255) :
    readLine (logCommand C entry) = some entry.command := by
  have hhead : ∀ c ∈ (lineHead entry).toList, (c != ':') = true :=
    List.all_eq_true.mp (noColon_lineHead entry)
  have hdigits : (C.hexEncode (C.serialize entry.command)).toList =
      (C.serialize entry.command).flatMap fun b =>
        [Nat.digitChar (b.toNat / 16), Nat.digitChar (b.toNat % 16)] := by
    rw [hH]
    exact String.toList_ofList
  have hdecode : decodeApdu (C.serialize entry.command) = some (entry.command, []) :=
    ((wellFormed_iff hA entry.command).mpr hlen).2
  have hdrop : (logCommand C entry).toList.dropWhile (· != ':') =
      ':' :: ' ' :: (C.hexEncode (C.serialize entry.command)).toList := by
    rw [toList_logCommand, List.dropWhile_append_of_pos hhead]
    rfl
  rw [readLine, hdrop, hdigits]
  simp only [Hex.bytes_flatMap_digitChar, Option.bind_some, hdecode]

theorem mapM_readLine (hA : C.ApduDoc) (hH : C.HexDoc) {log : List LogEntry}
    (hlen : ∀ entry ∈ log, entry.command.data.length ≤ 255) :
    (log.map (logCommand C)).mapM readLine = some (log.map LogEntry.command) := by
  induction log with
  | nil => rfl
  | cons entry log ih =>
      have hentry := readLine_logCommand hA hH (hlen entry List.mem_cons_self)
      have hlog := ih fun entry' hmem => hlen entry' (List.mem_cons_of_mem _ hmem)
      rw [List.map_cons, List.mapM_cons, hentry, hlog]
      rfl

/-! ## Requests -/

/-- The function of `print_apdus`: what it logs, `none` where it panics. -/
def Request.printed : Request C → Option (List LogEntry)
  | transaction unsignedTx path => PrintApdus.transaction unsignedTx path
  | messageNep413 payload path => PrintApdus.messageNep413 payload path
  | messageNep366DelegateAction payload path => PrintApdus.nep366DelegateAction payload path

theorem Request.printed_eq (r : Request C) :
    r.printed = r.payload.bind fun payload =>
      PrintApdus.printPayloadApdus payload r.path r.ins := by
  cases r <;> rfl

/-- What `print_apdus` prints for a request can be read back from the lines, and over HID (when
    `get_transport` succeeds) and BLE every device gets from the signing function a beginning of what
    is read, up to the first reply that is not `0x9000`; nothing is printed for a request that cannot
    be serialized. -/
theorem printed_lines_read_back (hA : C.ApduDoc) (hP : C.PathDoc) (hH : C.HexDoc)
    (request : Request C) :
    (request.printed = none ↔ request.payload = none) ∧
      ∀ log, request.printed = some log →
        ∃ commands, (log.map (logCommand C)).mapM readLine = some commands ∧
          ∀ (F : Type) (view : FailureView C F) (dev : Device C F),
            exchanged (Call.run (hidEnv view dev) [] request.hid).1 = issued dev commands ∧
              (Call.run (bleEnv view dev) [] request.ble).1 = issued dev commands := by
  obtain ⟨indices, hpath⟩ := pathIndices_eq_some hP request.path
  rw [Request.printed_eq]
  cases hpayload : request.payload with
  | none => simp
  | some payload =>
      obtain ⟨log, hlog, hcommands⟩ := map_command_printPayloadApdus hpath payload request.ins
      rw [Option.bind_some, hlog]
      refine ⟨by simp, ?_⟩
      rintro log' hlog'
      cases hlog'
      have hlen : ∀ entry ∈ log, entry.command.data.length ≤ 255 := by
        intro entry hentry
        have hmem : entry.command ∈ log.map LogEntry.command := List.mem_map_of_mem hentry
        rw [hcommands] at hmem
        obtain ⟨-, -, -, -, hle⟩ := mem_signingCommands hmem
        omega
      refine ⟨_, mapM_readLine hA hH hlen, fun F view dev => ?_⟩
      rw [hcommands]
      constructor
      · rw [Request.hid_eq, hpayload]
        exact (run_sendPayloadApdus view dev hpath payload request.ins).1
      · rw [Request.ble_eq, hpayload]
        exact congrArg Prod.fst (run_sendPayloadApdusBle view dev hpath payload request.ins)

theorem reference_hexDoc : Crates.HexDoc Crates.reference := fun _ => rfl

/-- A request of one command, and what is printed for it. -/
def printedRequest : Request Crates.reference := .transaction [7, 8] (Crates.pathOne 44)

theorem printed_lines_read_back_one :
    ∃ log commands, printedRequest.printed = some log ∧ log.length = 1 ∧
      (log.map (logCommand Crates.reference)).mapM readLine = some commands := by
  obtain ⟨commands, hcommands, -⟩ :=
    (printed_lines_read_back Crates.reference_apduDoc Crates.reference_pathDoc reference_hexDoc
      printedRequest).2 _ rfl
  exact ⟨_, commands, rfl, rfl, hcommands⟩

example : logCommand Crates.reference { index := 0, isLastChunk := true, command :=
    { cla := 0x80, ins := 2, p1 := 0x80, p2 := 0x57, data := [0, 0, 0, 44, 7, 8] } } =
      "APDU  in (last): 80028057060000002c0708" := by decide

end NearLedger
