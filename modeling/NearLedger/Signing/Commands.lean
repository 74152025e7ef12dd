/-
  NearLedger.Signing.Commands

  The command stream of a signing request: one command for each 250-byte chunk
  of the path and payload, the last one marked by its `p1`.  The three loops of
  the source (`sendChunks`, `sendChunksBle`, `printChunks`) all walk this list.
-/

import NearLedger.PrintApdus
import NearLedger.Wire

namespace NearLedger

open Interaction Slices

/-- The command that carries one chunk. -/
def signingCommand (ins : UInt8) (isLastChunk : Bool) (chunk : Bytes) : APDUCommand :=
  { cla := cla
    ins := ins
    p1 := if isLastChunk then p1SignNormalLastChunk else p1SignNormal
    p2 := networkId
    data := chunk }

@[simp] theorem data_signingCommand (ins : UInt8) (isLastChunk : Bool) (chunk : Bytes) :
    (signingCommand ins isLastChunk chunk).data = chunk := rfl

/-- The commands for a list of chunks; the last chunk is marked. -/
def commandsOf (ins : UInt8) : List Bytes → List APDUCommand
  | [] => []
  | chunk :: rest => signingCommand ins rest.isEmpty chunk :: commandsOf ins rest

/-- The commands of a request whose path and payload bytes are `data`. -/
def signingCommands (ins : UInt8) (data : Bytes) : List APDUCommand :=
  commandsOf ins (chunks chunkSize data)

/-! ## The shape of the stream -/

@[simp] theorem commandsOf_nil (ins : UInt8) : commandsOf ins [] = [] := rfl

@[simp] theorem length_commandsOf (ins : UInt8) (cs : List Bytes) :
    (commandsOf ins cs).length = cs.length := by
  induction cs with
  | nil => rfl
  | cons c cs ih => rw [commandsOf, List.length_cons, ih, List.length_cons]

@[simp] theorem map_data_commandsOf (ins : UInt8) (cs : List Bytes) :
    (commandsOf ins cs).map APDUCommand.data = cs := by
  induction cs with
  | nil => rfl
  | cons c cs ih => rw [commandsOf, List.map_cons, ih, signingCommand]

/-- In front of further chunks no chunk is marked. -/
theorem commandsOf_append (ins : UInt8) (cs : List Bytes) {ds : List Bytes} (h : ds ≠ []) :
    commandsOf ins (cs ++ ds) = cs.map (signingCommand ins false) ++ commandsOf ins ds := by
  induction cs with
  | nil => rfl
  | cons c cs ih =>
      have hmore : (cs ++ ds).isEmpty = false :=
        List.isEmpty_eq_false_iff.mpr (List.append_ne_nil_of_right_ne_nil cs h)
      rw [List.cons_append, commandsOf, ih, hmore, List.map_cons, List.cons_append]

/-- Every command of the stream is a signing command for one of the chunks. -/
theorem mem_commandsOf {ins : UInt8} {cs : List Bytes} {c : APDUCommand} (h : c ∈ commandsOf ins cs) :
    ∃ isLast, ∃ chunk ∈ cs, c = signingCommand ins isLast chunk := by
  induction cs with
  | nil => simp at h
  | cons d cs ih =>
      rcases List.mem_cons.mp h with rfl | h
      · exact ⟨_, d, List.mem_cons_self, rfl⟩
      · obtain ⟨isLast, chunk, hmem, rfl⟩ := ih h
        exact ⟨isLast, chunk, List.mem_cons_of_mem _ hmem, rfl⟩

/-- The `i`-th command carries the `i`-th chunk and is marked when it is the last one. -/
theorem getElem?_commandsOf (ins : UInt8) (cs : List Bytes) (i : Nat) :
    (commandsOf ins cs)[i]? = cs[i]?.map (signingCommand ins (decide (i + 1 = cs.length))) := by
  induction cs generalizing i with
  | nil => rfl
  | cons c cs ih =>
      cases i with
      | zero => cases cs <;> simp [commandsOf]
      | succ i =>
          simp only [commandsOf, List.getElem?_cons_succ, List.length_cons, Nat.add_right_cancel_iff]
          exact ih i

/-- Only the last command has `p1 = 0x80`. -/
theorem p1_getElem?_commandsOf {ins : UInt8} {cs : List Bytes} {i : Nat} {c : APDUCommand}
    (h : (commandsOf ins cs)[i]? = some c) :
    c.p1 = p1SignNormalLastChunk ↔ i + 1 = (commandsOf ins cs).length := by
  rw [getElem?_commandsOf, Option.map_eq_some_iff] at h
  obtain ⟨chunk, -, rfl⟩ := h
  rw [length_commandsOf, signingCommand]
  by_cases hi : i + 1 = cs.length <;> simp [hi, p1SignNormal, p1SignNormalLastChunk]

/-- A stream that is not empty has a last command. -/
theorem exists_last_commandsOf {ins : UInt8} {cs : List Bytes} (h : cs ≠ []) :
    ∃ c ∈ commandsOf ins cs, c.p1 = p1SignNormalLastChunk := by
  have hlen : (commandsOf ins cs).length - 1 < (commandsOf ins cs).length := by
    have := List.length_pos_iff.mpr h
    rw [length_commandsOf]
    omega
  have hget := List.getElem?_eq_getElem hlen
  exact ⟨_, List.getElem_mem hlen, (p1_getElem?_commandsOf hget).mpr (by omega)⟩

/-- A beginning of the stream with the last command is all of it. -/
theorem eq_of_prefix_of_last {ins : UInt8} {cs : List Bytes} {stream : List APDUCommand}
    (hle : stream <+: commandsOf ins cs)
    (h : ∃ c ∈ stream, c.p1 = p1SignNormalLastChunk) : stream = commandsOf ins cs := by
  obtain ⟨c, hc, hlast⟩ := h
  obtain ⟨i, hi, rfl⟩ := List.mem_iff_getElem.mp hc
  have hget : (commandsOf ins cs)[i]? = some stream[i] := List.prefix_iff_getElem?.mp hle i hi
  have hlength := (p1_getElem?_commandsOf hget).mp hlast
  exact hle.eq_of_length_le (by omega)

theorem flatten_map_data_signingCommands (ins : UInt8) (data : Bytes) :
    ((signingCommands ins data).map APDUCommand.data).flatten = data := by
  rw [signingCommands, map_data_commandsOf, flatten_chunks (by decide)]

/-- The stream determines the bytes it carries. -/
theorem signingCommands_injective {ins ins' : UInt8} {data data' : Bytes}
    (h : signingCommands ins data = signingCommands ins' data') : data = data' := by
  rw [← flatten_map_data_signingCommands ins data, h, flatten_map_data_signingCommands]

/-- Each command has the class, instruction and network of a signing request and 1 to 250 bytes. -/
theorem mem_signingCommands {ins : UInt8} {data : Bytes} {c : APDUCommand}
    (h : c ∈ signingCommands ins data) :
    c.cla = cla ∧ c.ins = ins ∧ c.p2 = networkId ∧ 1 ≤ c.data.length ∧ c.data.length ≤ 250 := by
  obtain ⟨isLast, chunk, hmem, rfl⟩ := mem_commandsOf h
  obtain ⟨hpos, hle⟩ := length_of_mem_chunks (by decide) hmem
  exact ⟨rfl, rfl, rfl, hpos, hle⟩

/-! ## The loops of the source walk the stream -/

/-- In the loop over the chunks from the `k`-th on, the last chunk is the one with nothing after. -/
private theorem isLast_eq (k : Nat) (chunk : Bytes) (rest : List Bytes) :
    decide (k + (chunk :: rest).length = k + 1) = rest.isEmpty := by
  cases rest with
  | nil => simp
  | cons c rest =>
      simp only [List.length_cons, List.isEmpty_cons, decide_eq_false_iff_not]
      omega

theorem map_command_printChunks (ins : UInt8) (cs : List Bytes) (k : Nat) :
    (PrintApdus.printChunks ins (k + cs.length) (cs.zipIdx k)).map LogEntry.command =
      commandsOf ins cs := by
  induction cs generalizing k with
  | nil => rfl
  | cons c cs ih =>
      have hk : k + (c :: cs).length = k + 1 + cs.length := by
        rw [List.length_cons]
        omega
      simp only [List.zipIdx_cons, PrintApdus.printChunks, List.map_cons, isLast_eq, commandsOf]
      rw [hk, ih]
      rfl

/-- The loop over the chunks: the response to the last one is returned. -/
def Wire.signingLoop {C : Crates} {Req E : Type} {Resp : Req → Type} (w : Wire C Resp E)
    (ins : UInt8) : List Bytes → Call Req Resp (NEARLedgerError C) Bytes
  | [] => Call.throw (.apduExchangeError "Unable to process request")
  | chunk :: rest =>
      w.command (signingCommand ins rest.isEmpty chunk) fun response =>
        if rest.isEmpty then pure (C.answerData response) else w.signingLoop ins rest

/-- Continuation of the loop of `send_payload_apdus_ble` after the reply to a chunk. -/
def afterChunkBle {C : Crates} (isLastChunk : Bool) (rest : BleCall C Bytes) :
    Except (BleError C) C.APDUAnswer → BleCall C Bytes
  | .ok response =>
      if C.retcode response = returnCodeOk then
        if isLastChunk then pure (C.answerData response) else rest
      else Call.throw (.apduExchangeError (retcodeToErrorString (C.retcode response)))
  | .error err => Call.throw (.ofBleError err)

/-- The loop of `send_payload_apdus_ble` along the chunks. -/
def loopBle {C : Crates} (ins : UInt8) : List Bytes → BleCall C Bytes
  | [] => Call.throw (.apduExchangeError "Unable to process request")
  | chunk :: rest =>
      Call.request (signingCommand ins rest.isEmpty chunk)
        (afterChunkBle rest.isEmpty (loopBle ins rest))

theorem loopBle_eq {C : Crates} (ins : UInt8) (cs : List Bytes) :
    (loopBle ins cs : BleCall C Bytes) = (Wire.ble C).signingLoop ins cs := by
  induction cs with
  | nil => rfl
  | cons chunk rest ih =>
      rw [loopBle, Wire.signingLoop, Wire.command, ih]
      congr 1
      funext reply
      cases reply <;> rfl

theorem sendChunks_eq {C : Crates} (ins : UInt8) (cs : List Bytes) (k : Nat) :
    (Hid.sendChunks ins (k + cs.length) (cs.zipIdx k) : HidCall C Bytes) =
      (Wire.hid C).signingLoop ins cs := by
  induction cs generalizing k with
  | nil => rfl
  | cons c cs ih =>
      have hk : k + (c :: cs).length = k + 1 + cs.length := by
        rw [List.length_cons]
        omega
      have hrest : (Hid.sendChunks ins (k + (c :: cs).length) (cs.zipIdx (k + 1)) : HidCall C Bytes) =
          (Wire.hid C).signingLoop ins cs := by
        rw [hk, ih]
      rw [List.zipIdx_cons, Hid.sendChunks, hrest, isLast_eq]
      change Call.request _ _ = _
      rw [Wire.signingLoop, Wire.command]
      congr 1
      funext reply
      cases reply <;> rfl

theorem sendChunksBle_eq {C : Crates} (ins : UInt8) (cs : List Bytes) (k : Nat) :
    (BleApi.sendChunksBle ins (k + cs.length) (cs.zipIdx k) : BleCall C Bytes) = loopBle ins cs := by
  induction cs generalizing k with
  | nil => rfl
  | cons c cs ih =>
      have hk : k + (c :: cs).length = k + 1 + cs.length := by
        rw [List.length_cons]
        omega
      have hrest : (BleApi.sendChunksBle ins (k + (c :: cs).length) (cs.zipIdx (k + 1)) :
          BleCall C Bytes) = loopBle ins cs := by
        rw [hk, ih]
      rw [List.zipIdx_cons, BleApi.sendChunksBle, hrest, isLast_eq]
      change Call.request _ _ = _
      rw [loopBle]
      congr 1

/-- `send_payload_apdus_ble` is the loop over the chunks of the path and the payload. -/
theorem sendPayloadApdusBle_eq {C : Crates} {path : C.BIP32Path} {indices : List UInt32}
    (hpath : pathIndices path = some indices) (payload : Bytes) (ins : UInt8) :
    BleApi.sendPayloadApdusBle payload path ins =
      loopBle ins (chunks chunkSize (indices.flatMap Bytes.u32ToBeBytes ++ payload)) := by
  have hloop : (BleApi.sendChunksBle ins _ _ : BleCall C Bytes) = _ :=
    sendChunksBle_eq ins (chunks chunkSize (indices.flatMap Bytes.u32ToBeBytes ++ payload)) 0
  rw [Nat.zero_add] at hloop
  rw [BleApi.sendPayloadApdusBle, hdPathToBytes_eq_some hpath]
  exact hloop

/-- `send_payload_apdus` opens the transport and runs the loop over the chunks. -/
theorem sendPayloadApdus_eq {C : Crates} {path : C.BIP32Path} {indices : List UInt32}
    (hpath : pathIndices path = some indices) (payload : Bytes) (ins : UInt8) :
    Hid.sendPayloadApdus payload path ins = (do
      Hid.getTransport
      (Wire.hid C).signingLoop ins
        (chunks chunkSize (indices.flatMap Bytes.u32ToBeBytes ++ payload))) := by
  have hloop : (Hid.sendChunks ins _ _ : HidCall C Bytes) = _ :=
    sendChunks_eq ins (chunks chunkSize (indices.flatMap Bytes.u32ToBeBytes ++ payload)) 0
  rw [Nat.zero_add] at hloop
  rw [Hid.sendPayloadApdus, hdPathToBytes_eq_some hpath, ← hloop]
  rfl

/-! ## What a successful call has exchanged -/

/-- A call that returns `Ok` has exchanged its whole command stream, every exchange has succeeded,
    and the result is the data of the last reply. -/
theorem trace_loopBle_ok {C : Crates} {ins : UInt8} {sig : Bytes} :
    ∀ {cs : List Bytes} {es : List (Sigma (BleReply C))},
      Call.Trace (loopBle ins cs : BleCall C Bytes) es (.ret (.ok sig)) →
      es.map Sigma.fst = commandsOf ins cs ∧ (∀ e ∈ es, ∃ response, e.2 = .ok response) ∧
        ∃ e response, es.getLast? = some e ∧ e.2 = .ok response ∧ sig = C.answerData response := by
  intro cs
  induction cs with
  | nil =>
      intro es h
      obtain ⟨-, h⟩ := Call.trace_ret_iff.mp h
      cases h
  | cons chunk rest ih =>
      intro es h
      obtain ⟨reply, es', rfl, htail⟩ := Call.trace_request_ret_iff.mp h
      cases reply with
      | error err =>
          obtain ⟨-, h⟩ := Call.trace_ret_iff.mp htail
          cases h
      | ok response =>
          by_cases hok : C.retcode response = returnCodeOk
          · rw [afterChunkBle, if_pos hok] at htail
            cases rest with
            | nil =>
                obtain ⟨rfl, hret⟩ := Call.trace_ret_iff.mp htail
                refine ⟨rfl, ?_, _, response, rfl, rfl, Outcome.ok.inj (Call.ret.inj hret)⟩
                intro e he
                obtain rfl := List.mem_singleton.mp he
                exact ⟨response, rfl⟩
            | cons chunk' rest =>
                obtain ⟨hcmds, hall, e, response', hlast, hreply, hsig⟩ := ih htail
                refine ⟨?_, ?_, e, response', ?_, hreply, hsig⟩
                · rw [List.map_cons, hcmds]
                  rfl
                · intro e he
                  rcases List.mem_cons.mp he with rfl | he
                  · exact ⟨response, rfl⟩
                  · exact hall e he
                · rw [List.getLast?_cons, hlast]
                  rfl
          · rw [afterChunkBle, if_neg hok] at htail
            obtain ⟨-, h⟩ := Call.trace_ret_iff.mp htail
            cases h

end NearLedger
