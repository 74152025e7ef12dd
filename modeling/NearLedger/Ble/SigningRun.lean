/-
  NearLedger.Ble.SigningRun

  A signing call at every point of its run (`SigningInv`): which commands it has
  sent, where its exchange stands, and that the notification stream holds what
  is left of the answer to its last command and nothing else.  Every quiet step
  keeps this, and from every such point the call runs to its end.
-/

import NearLedger.Ble.Delivery

namespace NearLedger

open Interaction Slices Transition

variable {C : Crates}

/-- How a signing call ends: with the data of the answer to its last command, or with an error when
    it has no command. -/
def signingOutcome (dev : SigningDevice) (frames : List Bytes) :
    List APDUCommand → Outcome (NEARLedgerError C) Bytes
  | [] => .err (.apduExchangeError "Unable to process request")
  | _ :: _ => .ok (dev.data frames)

/-- What the loop does with the reply to a chunk. -/
def continuation (C : Crates) (ins : UInt8) (rest : List Bytes) :
    Except (BleError C) C.APDUAnswer → BleCall C Bytes :=
  afterChunkBle rest.isEmpty (loopBle ins rest)

/-- The command of the chunk in front of `rest`. -/
def commandAt (ins : UInt8) (chunk : Bytes) (rest : List Bytes) : APDUCommand :=
  signingCommand ins rest.isEmpty chunk

/-- The chunk at hand: `sent` are the commands before it, `rest` the chunks after it. -/
structure Position (ins : UInt8) (stream sent : List APDUCommand) (chunk : Bytes)
    (rest : List Bytes) : Prop where
  split : sent ++ commandsOf ins (chunk :: rest) = stream
  short : ∀ c ∈ chunk :: rest, c.length ≤ 250

/-- A signing call of `stream` that began when `w` was written. -/
inductive SigningInv (dev : SigningDevice) (ins : UInt8) (mtuSize : Nat) (w : List Bytes)
    (stream : List APDUCommand) : Task C Bytes → Link → Prop where
  | sending {sent : List APDUCommand} {chunk : Bytes} {rest : List Bytes} {r' : Reassembler}
      {ps : List Bytes} {s : SendState C} {l : Link} : Position ins stream sent chunk rest →
      SendingTo (C.serialize (commandAt ins chunk rest)) mtuSize r' ps s l →
      l.written ++ ps = w ++ framesOf C mtuSize (sent ++ [commandAt ins chunk rest]) →
      l.notifications = [] →
      SigningInv dev ins mtuSize w stream
        (.running (.sending (C.serialize (commandAt ins chunk rest)) mtuSize s)
          (continuation C ins rest)) l
  | receiving {sent : List APDUCommand} {chunk : Bytes} {rest : List Bytes} {s : RecvState C}
      {l : Link} : Position ins stream sent chunk rest →
      ReceivingFrom (dev.answer l.reassembler.frames).message [] s l →
      l.written = w ++ framesOf C mtuSize (sent ++ [commandAt ins chunk rest]) →
      SigningInv dev ins mtuSize w stream (.running (.receiving s) (continuation C ins rest)) l
  | returned {sent : List APDUCommand} {chunk : Bytes} {rest : List Bytes} {l : Link} :
      Position ins stream sent chunk rest → l.notifications = [] →
      l.written = w ++ framesOf C mtuSize (sent ++ [commandAt ins chunk rest]) →
      SigningInv dev ins mtuSize w stream
        (.running (.returned (answered C (dev.answer l.reassembler.frames).message))
          (continuation C ins rest)) l
  | finished {l : Link} : l.notifications = [] → l.written = w ++ framesOf C mtuSize stream →
      SigningInv dev ins mtuSize w stream
        (.finished (signingOutcome dev l.reassembler.frames stream)) l

section Steps

variable {dev : SigningDevice} {ins : UInt8} {mtuSize : Nat} {w : List Bytes}
  {stream : List APDUCommand}

/-- The loop in front of its next chunk. -/
theorem SigningInv.next (hA : C.ApduDoc) (hmtu : 6 ≤ mtuSize) {sent : List APDUCommand}
    {chunk : Bytes} {rest : List Bytes} (hpos : Position ins stream sent chunk rest) {l : Link}
    (hqueue : l.notifications = []) (hwritten : l.written = w ++ framesOf C mtuSize sent) :
    SigningInv dev ins mtuSize w stream
      (Task.ofCall mtuSize (loopBle ins (chunk :: rest) : BleCall C Bytes)) l := by
  obtain ⟨s, hstart, hsend⟩ := @start_sendingTo C l (commandAt ins chunk rest) mtuSize hmtu
    (length_serialize_signing hA _ _ (hpos.short chunk List.mem_cons_self))
  show SigningInv dev ins mtuSize w stream (.running (.start mtuSize (commandAt ins chunk rest))
    (continuation C ins rest)) l
  rw [hstart]
  refine .sending hpos hsend ?_ hqueue
  rw [hwritten, framesOf_append, framesOf_singleton, List.append_assoc]

/-- The loop before its first chunk. -/
theorem SigningInv.init (hA : C.ApduDoc) (hmtu : 6 ≤ mtuSize) {cs : List Bytes}
    (hshort : ∀ c ∈ cs, c.length ≤ 250) {l : Link} (hqueue : l.notifications = [])
    (hwritten : l.written = w) :
    SigningInv dev ins mtuSize w (commandsOf ins cs)
      (Task.ofCall mtuSize (loopBle ins cs : BleCall C Bytes)) l := by
  cases cs with
  | nil => exact .finished hqueue (by rw [hwritten, commandsOf_nil, framesOf]; simp)
  | cons chunk rest =>
      exact .next hA hmtu ⟨List.nil_append _, hshort⟩ hqueue (by rw [hwritten, framesOf]; simp)

/-- What the loop does with the answer of a signing device. -/
theorem continuation_answered (hA : C.ApduDoc) (frames : List Bytes) (rest : List Bytes) :
    continuation C ins rest (answered C (dev.answer frames).message) =
      if rest.isEmpty then Call.ret (.ok (dev.data frames)) else loopBle ins rest := by
  obtain ⟨response, hresponse, hdata, hretcode⟩ := answered_signing hA dev frames
  rw [continuation, hresponse, afterChunkBle_ok hretcode, hdata]

/-- After the answer to a chunk: the next chunk, or the end. -/
theorem SigningInv.resume (hA : C.ApduDoc) (hmtu : 6 ≤ mtuSize) {sent : List APDUCommand}
    {chunk : Bytes} {rest : List Bytes} (hpos : Position ins stream sent chunk rest) {l : Link}
    (hqueue : l.notifications = [])
    (hwritten : l.written = w ++ framesOf C mtuSize (sent ++ [commandAt ins chunk rest])) :
    SigningInv dev ins mtuSize w stream (Task.ofCall mtuSize
      (continuation C ins rest (answered C (dev.answer l.reassembler.frames).message))) l := by
  have hsplit := hpos.split
  rw [commandsOf] at hsplit
  rw [continuation_answered hA]
  -- the chunk at hand was the last one, or the loop goes on behind it
  cases rest with
  | nil =>
      rw [commandsOf_nil] at hsplit
      have hfinished : SigningInv dev ins mtuSize w stream
          (.finished (signingOutcome dev l.reassembler.frames stream) : Task C Bytes) l :=
        .finished hqueue (by rw [hwritten, ← hsplit]; rfl)
      have hok : signingOutcome (C := C) dev l.reassembler.frames stream =
          .ok (dev.data l.reassembler.frames) := by
        rw [← hsplit]
        cases sent <;> rfl
      rw [hok] at hfinished
      exact hfinished
  | cons chunk' rest =>
      refine .next hA hmtu ⟨?_, fun c hc => hpos.short c (List.mem_cons_of_mem _ hc)⟩ hqueue hwritten
      rw [← hsplit, List.append_assoc]
      rfl

/-- Every quiet step keeps the invariant. -/
theorem SigningInv.step (hA : C.ApduDoc) (hmtu : 6 ≤ mtuSize) {t t' : Task C Bytes} {l l' : Link}
    {e : TaskEvent C} (h : SigningInv dev ins mtuSize w stream t l) (hl : l.getMtuSize = mtuSize)
    (hstep : QuietStep dev.answer (t, l) e (t', l')) :
    SigningInv dev ins mtuSize w stream t' l' := by
  obtain rfl := eq_awaited_of_quietStep hstep
  obtain ⟨-, hstep⟩ := hstep
  cases h with
  | @sending sent chunk rest r' ps s _ hpos hsend hwritten hqueue =>
      cases ps with
      | nil => exact absurd rfl hsend.2.ne_nil
      | cons p ps =>
          cases ps with
          -- the last packet: the device queues its answer
          | nil =>
              obtain ⟨hnext, hr', hqueue'⟩ := @step_writeOk_last C dev.answer _ _ _ _ _ _ hsend
              rw [awaited, Task.step, hnext] at hstep
              cases hstep
              rw [hqueue, List.nil_append, ← List.append_nil (FramedMessage.packets _ _),
                ← hr'] at hqueue'
              exact .receiving hpos (receivingFrom_packets hqueue') hwritten
          -- a packet in between: what is written and what is still to write stay the same list
          | cons q ps =>
              obtain ⟨s', hnext, hsend', -, hqueue'⟩ :=
                @step_writeOk_more C dev.answer _ _ _ _ _ _ _ _ hsend
              rw [awaited, Task.step, hnext] at hstep
              cases hstep
              refine .sending hpos hsend' ?_ (hqueue'.trans hqueue)
              rw [← hwritten, Link.written_receive, List.append_assoc]
              rfl
  | @receiving sent chunk rest s _ hpos hrecv hwritten =>
      obtain ⟨n, ns, x', -, hnext, hx⟩ := @step_deliver C dev.answer _ _ _ _ hrecv
      rw [awaited, Task.step, hnext] at hstep
      cases hstep
      rcases hx with ⟨s', rfl, hrecv'⟩ | ⟨rfl, rfl⟩
      · exact .receiving hpos hrecv' hwritten
      · exact @SigningInv.returned C dev ins mtuSize w stream sent chunk rest
          { l with notifications := [] } hpos rfl hwritten
  | @returned sent chunk rest _ hpos hqueue hwritten =>
      cases hstep
      rw [hl]
      exact .resume hA hmtu hpos hqueue hwritten
  | finished => cases hstep

/-! ## Running to the end -/

/-- The step from the answer of a signing device to what the loop does next. -/
theorem quietStep_answered (hA : C.ApduDoc) (frames : List Bytes) (rest : List Bytes) (l : Link) :
    QuietStep dev.answer
      (.running (.returned (answered C (dev.answer frames).message)) (continuation C ins rest), l)
      .resume (Task.ofCall l.getMtuSize
        (if rest.isEmpty then Call.ret (.ok (dev.data frames)) else loopBle ins rest), l) := by
  rw [← continuation_answered hA]
  exact ⟨trivial, rfl⟩

/-- From the answer to a chunk. -/
theorem leads_returned (hA : C.ApduDoc) (hmtu : 6 ≤ mtuSize) {sent : List APDUCommand}
    {chunk : Bytes} {rest : List Bytes} (hpos : Position ins stream sent chunk rest) {l : Link}
    (hl : l.getMtuSize = mtuSize) (hqueue : l.notifications = []) (frames : List Bytes) :
    ∃ es o l', Run (QuietStep dev.answer)
      (.running (.returned (answered C (dev.answer frames).message)) (continuation C ins rest), l) es
      (.finished o, l') := by
  have hresume := @quietStep_answered C dev ins hA frames rest l
  cases rest with
  | nil => exact ⟨_, _, l, .single hresume⟩
  | cons chunk' rest =>
      -- the rest of the loop starts on an empty queue again
      obtain ⟨es, l', hrun, -⟩ := @run_loopBle_quiet C hA dev ins (chunk' :: rest) l (by simp)
        (fun c hc => hpos.short c (List.mem_cons_of_mem _ hc)) (hl ▸ hmtu) hqueue
      exact ⟨_, _, l', .cons hresume hrun⟩

/-- From a point at which the answer is being received. -/
theorem leads_receiving (hA : C.ApduDoc) (hmtu : 6 ≤ mtuSize) {sent : List APDUCommand}
    {chunk : Bytes} {rest : List Bytes} (hpos : Position ins stream sent chunk rest) {l : Link}
    {s : RecvState C} (hl : l.getMtuSize = mtuSize) {frames : List Bytes}
    (hrecv : ReceivingFrom (dev.answer frames).message [] s l) :
    ∃ es o l', Run (QuietStep dev.answer) (.running (.receiving s) (continuation C ins rest), l) es
      (.finished o, l') := by
  obtain ⟨es, hrun⟩ := @run_receiving C _ dev.answer (continuation C ins rest) _ _ _ _ hrecv
  obtain ⟨es', o, l', hrun'⟩ := @leads_returned C dev ins mtuSize stream hA hmtu sent chunk rest
    hpos { l with notifications := [] } hl rfl frames
  exact ⟨_, o, l', hrun.append hrun'⟩

/-- From every point of its run a signing call gets to its end. -/
theorem SigningInv.leads (hA : C.ApduDoc) (hmtu : 6 ≤ mtuSize) {t : Task C Bytes} {l : Link}
    (h : SigningInv dev ins mtuSize w stream t l) (hl : l.getMtuSize = mtuSize) :
    ∃ es o l', Run (QuietStep dev.answer) (t, l) es (.finished o, l') := by
  cases h with
  | @sending sent chunk rest r' ps s _ hpos hsend hwritten hqueue =>
      obtain ⟨es, l₁, hrun, hm, -, -, hqueue₁⟩ :=
        @run_sending C _ dev.answer (continuation C ins rest) _ _ _ _ _ _ hsend
      rw [hqueue, List.nil_append, ← List.append_nil (FramedMessage.packets _ _)] at hqueue₁
      have hl₁ : l₁.getMtuSize = mtuSize := by rw [Link.getMtuSize, hm, ← hl, Link.getMtuSize]
      obtain ⟨es', o, l', hrun'⟩ := @leads_receiving C dev ins mtuSize stream hA hmtu sent chunk rest
        hpos l₁ _ hl₁ _ (receivingFrom_packets hqueue₁)
      exact ⟨_, o, l', hrun.append hrun'⟩
  | receiving hpos hrecv _ => exact leads_receiving hA hmtu hpos hl hrecv
  | returned hpos hqueue _ => exact leads_returned hA hmtu hpos hl hqueue _
  | finished => exact ⟨[], _, l, .nil _⟩

end Steps

end NearLedger
