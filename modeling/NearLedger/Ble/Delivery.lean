/-
  NearLedger.Ble.Delivery

  A signing call that has the link to itself.  Every exchange runs to the
  device's answer (`run_exchange`), so the loop over the chunks delivers the
  whole command stream and returns the answer to its last command
  (`run_loopBle_quiet`).  The run is the only one there is, up to where it is
  stopped (`quietStep_deterministic`).
-/

import NearLedger.Ble.Exchange
import NearLedger.Ble.Mtu
import NearLedger.Signing.Commands

namespace NearLedger

open Interaction Slices Transition

variable {C : Crates}

/-- The steps of a call when nothing fails and nothing else is on the link. -/
def Quiet : TaskEvent C → Prop
  | .resume => True
  | .transport .writeOk => True
  | .transport .deliver => True
  | _ => False

/-- A step of a call that has the link to itself. -/
def QuietStep {α : Type} (dev : FrameDevice) (s : Task C α × Link) (e : TaskEvent C)
    (s' : Task C α × Link) : Prop :=
  Quiet e ∧ s.1.step dev s.2 e = some s'

/-- The event a call waits for. -/
def awaited {α : Type} : Task C α → TaskEvent C
  | .running (.sending _ _ _) _ => .transport .writeOk
  | .running (.receiving _) _ => .transport .deliver
  | _ => .resume

theorem eq_awaited_of_quietStep {α : Type} {dev : FrameDevice} {t : Task C α} {l : Link}
    {e : TaskEvent C} {s' : Task C α × Link} (h : QuietStep dev (t, l) e s') : e = awaited t := by
  obtain ⟨hq, hstep⟩ := h
  cases t with
  | finished o => cases e <;> cases hstep
  -- only a call that waits for nothing resumes; a write or a read needs the matching await point
  | running x k =>
      cases e with
      | resume =>
          cases x with
          | sending apduData mtuSize s => cases hstep
          | receiving s => cases hstep
          | _ => rfl
      | transport e =>
          obtain ⟨r, hr, -⟩ := Option.map_eq_some_iff.mp hstep
          cases e with
          | writeOk =>
              cases x with
              | sending apduData mtuSize s => rfl
              | _ => cases hr
          | deliver =>
              cases x with
              | receiving s => rfl
              | _ => cases hr
          | _ => cases hq

/-- The state decides which step is next. -/
theorem quietStep_deterministic {α : Type} (dev : FrameDevice) :
    Deterministic (QuietStep dev : Task C α × Link → TaskEvent C → Task C α × Link → Prop) := by
  rintro ⟨t, l⟩ e₁ s₁ e₂ s₂ h₁ h₂
  have he : e₁ = e₂ := (eq_awaited_of_quietStep h₁).trans (eq_awaited_of_quietStep h₂).symm
  subst he
  exact ⟨rfl, Option.some.inj (h₁.2.symm.trans h₂.2)⟩

/-- A call that has returned takes no step. -/
theorem not_quietStep_finished {α : Type} {dev : FrameDevice} (o : Outcome (NEARLedgerError C) α)
    (l : Link) (e : TaskEvent C) (s : Task C α × Link) :
    ¬ QuietStep dev (.finished o, l) e s := by
  rintro ⟨-, h⟩
  cases e <;> cases h

section Exchange

variable {α : Type} {dev : FrameDevice} (k : Except (BleError C) C.APDUAnswer → BleCall C α)

/-- All packets are written. -/
theorem run_sending {apduData : Bytes} {mtuSize : Nat} {r' : Reassembler} {ps : List Bytes} :
    ∀ {s : SendState C} {l : Link}, SendingTo apduData mtuSize r' ps s l →
      ∃ es l', Run (QuietStep dev) (.running (.sending apduData mtuSize s) k, l) es
          (.running (.receiving .awaitingInitial) k, l') ∧
        l'.mtuSize = l.mtuSize ∧ l'.written = l.written ++ ps ∧ l'.reassembler = r' ∧
        l'.notifications = l.notifications ++ (dev r'.frames).packets apduCommandTag := by
  induction ps with
  | nil =>
      intro s l h
      exact absurd rfl h.2.ne_nil
  | cons p ps ih =>
      intro s l h
      cases ps with
      | nil =>
          obtain ⟨hstep, hr', hqueue⟩ := @step_writeOk_last C dev _ _ _ _ _ _ h
          refine ⟨[.transport .writeOk], l.receive dev p, .single ⟨trivial, ?_⟩, rfl, rfl, hr', hqueue⟩
          rw [Task.step, hstep]
          rfl
      | cons q ps =>
          obtain ⟨s', hstep, hsend, -, hqueue⟩ := @step_writeOk_more C dev _ _ _ _ _ _ _ _ h
          obtain ⟨es, l', hrun, hmtu, hwritten, hr', hqueue'⟩ := ih hsend
          refine ⟨.transport .writeOk :: es, l', .cons ⟨trivial, ?_⟩ hrun, hmtu, ?_, hr', ?_⟩
          · rw [Task.step, hstep]
            rfl
          · rw [hwritten, Link.written_receive, List.append_assoc]
            rfl
          · rw [hqueue', hqueue]

/-- The whole message is read. -/
theorem run_receiving {message : Bytes} {unread : List Bytes} :
    ∀ {s : RecvState C} {l : Link}, ReceivingFrom message unread s l →
      ∃ es, Run (QuietStep dev) (.running (.receiving s) k, l) es
        (.running (.returned (answered C message)) k, { l with notifications := unread }) := by
  intro s l
  -- on the length of the queue
  induction hn : l.notifications generalizing s l with
  | nil =>
      intro h
      obtain ⟨n, ns, -, hcons, -⟩ := @step_deliver C dev _ _ _ _ h
      rw [hn] at hcons
      cases hcons
  | cons n ns ih =>
      intro h
      obtain ⟨n', ns', x', hcons, hstep, hx⟩ := @step_deliver C dev _ _ _ _ h
      rw [hn] at hcons
      cases hcons
      have hfirst : QuietStep dev (.running (.receiving s) k, l) (.transport .deliver)
          (.running x' k, { l with notifications := ns }) :=
        ⟨trivial, by rw [Task.step, hstep]; rfl⟩
      -- one packet was read: the message is not complete yet, or it is
      rcases hx with ⟨s', rfl, hrecv⟩ | ⟨rfl, rfl⟩
      · obtain ⟨es, hrun⟩ := ih rfl hrecv
        exact ⟨_, .cons hfirst hrun⟩
      · exact ⟨_, .single hfirst⟩

/-- An exchange writes the packets of its command and returns the device's answer to it. -/
theorem run_exchange {command : APDUCommand} {l : Link} (hmtu : 6 ≤ l.getMtuSize)
    (hlen : (C.serialize command).length ≤ 65535) (hqueue : l.notifications = []) :
    ∃ es l', Run (QuietStep dev) (.running (.start l.getMtuSize command) k, l) es
        (.running (.returned (answered C (dev l'.reassembler.frames).message)) k, l') ∧
      l'.mtuSize = l.mtuSize ∧ l'.notifications = [] ∧
      l'.written = l.written ++ framePackets apduCommandTag (C.serialize command) l.getMtuSize := by
  obtain ⟨s, hstart, hsend⟩ := @start_sendingTo C l command _ hmtu hlen
  obtain ⟨es, l', hrun, hm, hwritten, hr', hqueue'⟩ := @run_sending C _ dev k _ _ _ _ _ _ hsend
  rw [hqueue, List.nil_append, ← List.append_nil (FramedMessage.packets _ _)] at hqueue'
  obtain ⟨es', hrun'⟩ := @run_receiving C _ dev k _ _ _ _ (receivingFrom_packets hqueue')
  refine ⟨es ++ es', { l' with notifications := [] }, ?_, hm, rfl, hwritten⟩
  have hframes : ({ l' with notifications := [] } : Link).reassembler = l'.reassembler := rfl
  rw [hstart, hframes, hr']
  exact hrun.append hrun'

end Exchange

/-! ## The loop over the chunks -/

/-- A signing device's answer is a `0x9000` reply with its data. -/
theorem answered_signing (hA : C.ApduDoc) (dev : SigningDevice) (frames : List Bytes) :
    ∃ response, answered C (dev.answer frames).message = .ok response ∧
      C.answerData response = dev.data frames ∧ C.retcode response = returnCodeOk := by
  obtain ⟨response, hfrom, hdata, hretcode⟩ :=
    hA.fromAnswer_append (dev.data frames) 0x90 0x00
  refine ⟨response, ?_, hdata, hretcode⟩
  rw [answered, dev.message_eq, hfrom]

/-- A signing command fits one frame. -/
theorem length_serialize_signing (hA : C.ApduDoc) (ins : UInt8) (isLast : Bool) {chunk : Bytes}
    (h : chunk.length ≤ 250) : (C.serialize (signingCommand ins isLast chunk)).length ≤ 65535 := by
  rw [hA.serialize_eq, signingCommand, List.length_append]
  simp only [List.length_cons, List.length_nil]
  omega

/-- The packets of the commands, one frame after another. -/
def framesOf (C : Crates) (mtuSize : Nat) (cmds : List APDUCommand) : List Bytes :=
  ((cmds.map C.serialize).map fun f => framePackets apduCommandTag f mtuSize).flatten

theorem framesOf_cons (mtuSize : Nat) (c : APDUCommand) (cmds : List APDUCommand) :
    framesOf C mtuSize (c :: cmds) =
      framePackets apduCommandTag (C.serialize c) mtuSize ++ framesOf C mtuSize cmds := rfl

theorem framesOf_append (mtuSize : Nat) (xs ys : List APDUCommand) :
    framesOf C mtuSize (xs ++ ys) = framesOf C mtuSize xs ++ framesOf C mtuSize ys := by
  simp only [framesOf, List.map_append, List.flatten_append]

theorem framesOf_singleton (mtuSize : Nat) (c : APDUCommand) :
    framesOf C mtuSize [c] = framePackets apduCommandTag (C.serialize c) mtuSize := by
  rw [framesOf_cons, framesOf, List.map_nil, List.map_nil, List.flatten_nil, List.append_nil]

/-- The device reads the packets of such commands as these commands. -/
theorem reassemble_framesOf (hA : C.ApduDoc) {mtuSize : Nat} (hmtu : 6 ≤ mtuSize)
    {cmds : List APDUCommand} (hshort : ∀ c ∈ cmds, c.data.length ≤ 250) :
    reassemble (framesOf C mtuSize cmds) =
      { frames := cmds.map C.serialize, pending := none, discarded := [] } := by
  have hlen : ∀ f ∈ cmds.map C.serialize, f.length ≤ 65535 := by
    intro f hf
    obtain ⟨c, hc, rfl⟩ := List.mem_map.mp hf
    have := hshort c hc
    rw [hA.serialize_eq, List.length_append]
    simp only [List.length_cons, List.length_nil]
    omega
  exact @reassemble_frames [] rfl mtuSize hmtu _ hlen

/-- What the loop does with a `0x9000` reply. -/
theorem afterChunkBle_ok {isLast : Bool} {rest : BleCall C Bytes} {response : C.APDUAnswer}
    (h : C.retcode response = returnCodeOk) :
    afterChunkBle isLast rest (.ok response) =
      if isLast then Call.ret (.ok (C.answerData response)) else rest := by
  rw [afterChunkBle, if_pos h]
  rfl

/-- The loop delivers the command stream and returns the data of the last answer. -/
theorem run_loopBle_quiet (hA : C.ApduDoc) (dev : SigningDevice) (ins : UInt8) :
    ∀ {cs : List Bytes} {l : Link}, cs ≠ [] → (∀ c ∈ cs, c.length ≤ 250) → 6 ≤ l.getMtuSize →
      l.notifications = [] →
      ∃ es l', Run (QuietStep dev.answer)
          (Task.ofCall l.getMtuSize (loopBle ins cs : BleCall C Bytes), l) es
          (.finished (.ok (dev.data l'.reassembler.frames)), l') ∧
        l'.mtuSize = l.mtuSize ∧ l'.notifications = [] ∧
        l'.written = l.written ++ framesOf C l.getMtuSize (commandsOf ins cs) := by
  intro cs
  induction cs with
  | nil =>
      intro l h
      exact absurd rfl h
  | cons chunk rest ih =>
      intro l _ hlen hmtu hqueue
      obtain ⟨es, l₁, hrun, hm, hqueue₁, hwritten⟩ := @run_exchange C _ dev.answer
        (afterChunkBle rest.isEmpty (loopBle ins rest)) (signingCommand ins rest.isEmpty chunk) l hmtu
        (length_serialize_signing hA _ _ (hlen chunk List.mem_cons_self)) hqueue
      have hmtu₁ : l₁.getMtuSize = l.getMtuSize := by rw [Link.getMtuSize, hm, Link.getMtuSize]
      obtain ⟨response, hresponse, hdata, hretcode⟩ :=
        answered_signing hA dev l₁.reassembler.frames
      rw [hresponse] at hrun
      have hresume : QuietStep dev.answer
          (.running (.returned (.ok response)) (afterChunkBle rest.isEmpty (loopBle ins rest)), l₁)
          .resume (Task.ofCall l₁.getMtuSize
            (if rest.isEmpty then Call.ret (.ok (C.answerData response)) else loopBle ins rest), l₁) := by
        refine ⟨trivial, ?_⟩
        rw [← afterChunkBle_ok hretcode]
        rfl
      rw [commandsOf, framesOf_cons, ← List.append_assoc, ← hwritten]
      cases rest with
      | nil =>
          rw [hdata] at hresume
          refine ⟨_, l₁, hrun.append (.single hresume), hm, hqueue₁, ?_⟩
          rw [commandsOf_nil, framesOf, List.map_nil, List.map_nil, List.flatten_nil, List.append_nil]
      | cons chunk' rest =>
          obtain ⟨es', l', hrun', hm', hqueue', hwritten'⟩ := @ih l₁ (by simp)
            (fun c hc => hlen c (List.mem_cons_of_mem _ hc)) (hmtu₁ ▸ hmtu) hqueue₁
          refine ⟨_, l', (hrun.append (.single hresume)).append hrun', hm'.trans hm, hqueue', ?_⟩
          rw [hwritten', hmtu₁]

/-- A transport as `connect` returns it, with nothing sent and nothing received. -/
def Connected (C : Crates) (l : Link) : Prop :=
  StorableMtu C l.getMtuSize ∧ l.notifications = [] ∧ l.written = []

end NearLedger
