/-
  NearLedger.PrintApdus

  `print_apdus.rs`: the commands the signing functions would send, logged and
  not sent.
-/

import NearLedger.Errors
import NearLedger.HdPath
import NearLedger.Lib.Slices

namespace NearLedger

open Slices

/-- The arguments of one call of `log_command`. -/
structure LogEntry where
  index : Nat
  isLastChunk : Bool
  command : APDUCommand
  deriving DecidableEq

/-- The line `log_command` writes. -/
def logCommand (C : Crates) (entry : LogEntry) : String :=
  "APDU  in" ++ (if entry.isLastChunk then " (last)" else " (" ++ toString entry.index ++ ")") ++
    ": " ++ C.hexEncode (C.serialize entry.command)

namespace PrintApdus

variable {C : Crates}

/-- The `for` loop of `print_payload_apdus`, over the chunks with their indices. -/
def printChunks (ins : UInt8) (chunksCount : Nat) : List (Bytes × Nat) → List LogEntry
  | [] => []
  | (chunk, i) :: rest =>
      let isLastChunk := decide (chunksCount = i + 1)
      let command : APDUCommand :=
        { cla := cla
          ins := ins
          p1 := if isLastChunk then p1SignNormalLastChunk else p1SignNormal
          p2 := networkId
          data := chunk }
      { index := i, isLastChunk := isLastChunk, command := command } ::
        printChunks ins chunksCount rest

/-- `print_payload_apdus`: what it logs, `none` where it panics. -/
def printPayloadApdus (payload : Bytes) (seedPhraseHdPath : C.BIP32Path) (ins : UInt8) :
    Option (List LogEntry) := do
  let hdPathBytes ← hdPathToBytes seedPhraseHdPath
  let data := hdPathBytes ++ payload
  let chunks := chunks chunkSize data
  pure (printChunks ins chunks.length chunks.zipIdx)

/-- `transaction`. -/
def transaction (unsignedTx : Bytes) (seedPhraseHdPath : C.BIP32Path) : Option (List LogEntry) :=
  printPayloadApdus unsignedTx seedPhraseHdPath insSignTransaction

/-- `message_nep413`. -/
def messageNep413 (payload : NEP413Payload) (seedPhraseHdPath : C.BIP32Path) :
    Option (List LogEntry) := do
  let payload ← C.borshToVec payload
  printPayloadApdus payload seedPhraseHdPath insSignNep413Message

/-- `nep366_delegate_action`. -/
def nep366DelegateAction (payload : Bytes) (seedPhraseHdPath : C.BIP32Path) :
    Option (List LogEntry) :=
  printPayloadApdus payload seedPhraseHdPath insSignNep366DelegateAction

end PrintApdus

end NearLedger
