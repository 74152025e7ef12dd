/-
  NearLedger.Ble.Backlog

  Calls that time out before their answer has begun to arrive.  The answer stays
  in the notification stream, and nothing in the transport ever drops it, so
  each such timeout shifts the replies of all later calls by one command
  (`late_answers`).
-/

import NearLedger.Ble.Foreign
import NearLedger.Ble.Refinement

namespace NearLedger

open Interaction Transition

variable {C : Crates}

/-! ## Timeouts at the level of APDUs -/

/-- The command fits one frame. -/
def Fits (C : Crates) (command : APDUCommand) : Prop := (C.serialize command).length ≤ 65535

namespace ApduLink

/-- The device answers a command, and nobody reads the answer. -/
def leave (C : Crates) (dev : FrameDevice) (a : ApduLink) (command : APDUCommand) : ApduLink :=
  let frames := a.frames ++ [C.serialize command]
  { frames := frames, pending := a.pending ++ [dev frames] }

/-- Behind a command there is an answer to read. -/
theorem exists_oldest (C : Crates) (dev : FrameDevice) (a : ApduLink) (command : APDUCommand) :
    ∃ oldest rest, (a.leave C dev command).pending = oldest :: rest := by
  rw [leave]
  cases a.pending with
  | nil => exact ⟨_, _, rfl⟩
  | cons f fs => exact ⟨_, _, rfl⟩

end ApduLink

/-- `Serves dev a p es a' p'`: from the link `a` the program `p` makes the exchanges `es` and has
    become `p'`; each of them returns the oldest answer or runs into the timeout. -/
inductive Serves {α : Type} (dev : FrameDevice) :
    ApduLink → BleCall C α → List (Sigma (BleReply C)) → ApduLink → BleCall C α → Prop where
  | nil (a : ApduLink) (p : BleCall C α) : Serves dev a p [] a p
  | answered {a a' : ApduLink} {command : APDUCommand} {oldest : FramedMessage}
      {rest : List FramedMessage} {k : Except (BleError C) C.APDUAnswer → BleCall C α}
      {es : List (Sigma (BleReply C))} {p' : BleCall C α} :
      (a.leave C dev command).pending = oldest :: rest →
      Serves dev { frames := (a.leave C dev command).frames, pending := rest }
        (k (NearLedger.answered C oldest.message)) es a' p' →
      Serves dev a (.request command k)
        (⟨command, NearLedger.answered C oldest.message⟩ :: es) a' p'
  | timedOut {a a' : ApduLink} {command : APDUCommand}
      {k : Except (BleError C) C.APDUAnswer → BleCall C α} {es : List (Sigma (BleReply C))}
      {p' : BleCall C α} :
      Serves dev (a.leave C dev command) (k (.error .timeout)) es a' p' →
      Serves dev a (.request command k) (⟨command, .error .timeout⟩ :: es) a' p'

section

variable {α : Type} {dev : FrameDevice}

theorem Serves.append {a a' a'' : ApduLink} {p p' p'' : BleCall C α}
    {es es' : List (Sigma (BleReply C))} (h : Serves dev a p es a' p')
    (h' : Serves dev a' p' es' a'' p'') : Serves dev a p (es ++ es') a'' p'' := by
  induction h with
  | nil => exact h'
  | answered hoff _ ih => exact .answered hoff (ih h')
  | timedOut _ ih => exact .timedOut (ih h')

theorem Serves.trace {a a' : ApduLink} {p p' : BleCall C α} {es : List (Sigma (BleReply C))}
    (h : Serves dev a p es a' p') : Call.Trace p es p' := by
  induction h with
  | nil => exact .nil _
  | answered _ _ ih => exact .cons ih
  | timedOut _ ih => exact .cons ih

theorem Serves.only {P : APDUCommand → Prop} {a a' : ApduLink} {p p' : BleCall C α}
    {es : List (Sigma (BleReply C))} (h : Serves dev a p es a' p') (hp : p.Only P) :
    p'.Only P := by
  induction h with
  | nil => exact hp
  | answered _ _ ih => exact ih (hp.2 _)
  | timedOut _ ih => exact ih (hp.2 _)

/-! ## Which answer a reply is -/

/-- The answers to the commands, one after another. -/
def answersTo (C : Crates) (dev : FrameDevice) : List Bytes → List APDUCommand → List FramedMessage
  | _, [] => []
  | frames, c :: cs =>
      dev (frames ++ [C.serialize c]) :: answersTo C dev (frames ++ [C.serialize c]) cs

theorem getElem?_answersTo {frames : List Bytes} {cmds : List APDUCommand} {j : Nat}
    {f : FramedMessage} (h : (answersTo C dev frames cmds)[j]? = some f) :
    f = dev (frames ++ (cmds.take (j + 1)).map C.serialize) := by
  induction cmds generalizing frames j with
  | nil => simp [answersTo] at h
  | cons c cs ih =>
      cases j with
      | zero =>
          rw [answersTo, List.getElem?_cons_zero, Option.some.injEq] at h
          rw [← h, List.take_succ_cons, List.take_zero, List.map_singleton]
      | succ j =>
          rw [answersTo, List.getElem?_cons_succ] at h
          rw [ih h, List.take_succ_cons, List.map_cons, List.append_assoc, List.singleton_append]

def isTimeout : Except (BleError C) C.APDUAnswer → Bool
  | .error .timeout => true
  | _ => false

theorem isTimeout_answered (message : Bytes) : isTimeout (answered C message) = false := by
  rw [answered]
  cases C.fromAnswer message <;> rfl

/-- How many of the exchanges have run into the timeout. -/
def timeouts (es : List (Sigma (BleReply C))) : Nat := es.countP fun e => isTimeout e.2

theorem timeouts_take_le (es : List (Sigma (BleReply C))) (i : Nat) : timeouts (es.take i) ≤ i :=
  Nat.le_trans List.countP_le_length (List.length_take_le _ _)

/-- The replies that are no timeouts are the answers in their order: those that waited, and then
    those to the commands. -/
theorem Serves.reply {a a' : ApduLink} {p p' : BleCall C α} {es : List (Sigma (BleReply C))}
    (h : Serves dev a p es a' p') :
    ∀ i e, es[i]? = some e → isTimeout e.2 = false →
      ∃ f, (a.pending ++ answersTo C dev a.frames (es.map Sigma.fst))[i - timeouts (es.take i)]? =
          some f ∧ e.2 = NearLedger.answered C f.message := by
  induction h with
  | nil =>
      intro i e he
      simp at he
  | @answered a a' command oldest rest k es p' hoff _ ih =>
      intro i e he hno
      -- the queue in front of this exchange is the oldest answer and the queue behind it
      have hqueue : a.pending ++ answersTo C dev a.frames (command :: es.map Sigma.fst) =
          oldest :: (rest ++
            answersTo C dev (a.leave C dev command).frames (es.map Sigma.fst)) := by
        rw [← List.cons_append, ← hoff, answersTo, ApduLink.leave, List.append_assoc,
          List.singleton_append]
      rw [List.map_cons, hqueue]
      cases i with
      | zero =>
          rw [List.getElem?_cons_zero, Option.some.injEq] at he
          subst he
          exact ⟨oldest, rfl, rfl⟩
      | succ i =>
          rw [List.getElem?_cons_succ] at he
          obtain ⟨f, hf, hreply⟩ := ih i e he hno
          refine ⟨f, ?_, hreply⟩
          have hcount : timeouts ((⟨command, NearLedger.answered C oldest.message⟩ ::
              es : List (Sigma (BleReply C))).take (i + 1)) = timeouts (es.take i) := by
            rw [List.take_succ_cons, timeouts, List.countP_cons_of_neg, timeouts]
            simp [isTimeout_answered]
          have hle := timeouts_take_le es i
          rw [hcount, show i + 1 - timeouts (es.take i) = (i - timeouts (es.take i)) + 1 by omega,
            List.getElem?_cons_succ]
          exact hf
  | @timedOut a a' command k es p' _ ih =>
      intro i e he hno
      cases i with
      | zero =>
          rw [List.getElem?_cons_zero, Option.some.injEq] at he
          subst he
          simp [isTimeout] at hno
      | succ i =>
          rw [List.getElem?_cons_succ] at he
          obtain ⟨f, hf, hreply⟩ := ih i e he hno
          refine ⟨f, ?_, hreply⟩
          have hcount : timeouts ((⟨command, .error .timeout⟩ ::
              es : List (Sigma (BleReply C))).take (i + 1)) = timeouts (es.take i) + 1 := by
            rw [List.take_succ_cons, timeouts, List.countP_cons_of_pos, timeouts]
            rfl
          -- the answer to this command has moved to the end of the queue
          rw [ApduLink.leave, List.append_assoc, List.singleton_append] at hf
          rw [hcount, Nat.add_sub_add_right, List.map_cons, answersTo]
          exact hf

/-! ## Calls over packets -/

/-- The events of a call of which no write and no read fails, except that a read may give up before
    the answer has begun to arrive. -/
def Late (t : Task C α) (e : TaskEvent C) : Prop :=
  Quiet e ∨ ∃ k, t = .running (.receiving .awaitingInitial) k ∧ e = .transport .timeout

def LateStep (dev : FrameDevice) (s : Task C α × Link) (e : TaskEvent C) (s' : Task C α × Link) :
    Prop :=
  Late s.1 e ∧ s.1.step dev s.2 e = some s'

/-- Where a call and its link stand, against the program and the link at the level of APDUs. -/
inductive Stage (dev : FrameDevice) (mtuSize : Nat) :
    ApduLink → BleCall C α → Task C α → Link → Prop where
  | sending {a : ApduLink} {command : APDUCommand}
      {k : Except (BleError C) C.APDUAnswer → BleCall C α} {r' : Reassembler} {ps : List Bytes}
      {s : SendState C} {l : Link} : SendingTo (C.serialize command) mtuSize r' ps s l →
      r'.frames = a.frames ++ [C.serialize command] → l.Represents a →
      Stage dev mtuSize a (.request command k)
        (.running (.sending (C.serialize command) mtuSize s) k) l
  | receiving {a : ApduLink} {command : APDUCommand}
      {k : Except (BleError C) C.APDUAnswer → BleCall C α} {oldest : FramedMessage}
      {rest : List FramedMessage} {s : RecvState C} {l : Link} :
      (a.leave C dev command).pending = oldest :: rest →
      l.reassembler.frames = (a.leave C dev command).frames →
      ReceivingFrom oldest.message (rest.flatMap (FramedMessage.packets apduCommandTag)) s l →
      (s = .awaitingInitial → l.notifications = (a.leave C dev command).queue) →
      Stage dev mtuSize a (.request command k) (.running (.receiving s) k) l
  | returned {a : ApduLink} {r : Except (BleError C) C.APDUAnswer}
      {k : Except (BleError C) C.APDUAnswer → BleCall C α} {l : Link} : l.Represents a →
      Stage dev mtuSize a (k r) (.running (.returned r) k) l
  | finished {a : ApduLink} {o : Outcome (NEARLedgerError C) α} {l : Link} : l.Represents a →
      Stage dev mtuSize a (.ret o) (.finished o) l

theorem stage_ofCall {mtuSize : Nat} (hmtu : 6 ≤ mtuSize) {a : ApduLink} {p : BleCall C α}
    (hp : p.Only (Fits C)) {l : Link} (hl : l.Represents a) :
    Stage dev mtuSize a p (Task.ofCall mtuSize p) l := by
  cases p with
  | ret o => exact .finished hl
  | request command k =>
      obtain ⟨s, hstart, hsend⟩ := @start_sendingTo C l command mtuSize hmtu hp.1
      rw [Task.ofCall, hstart]
      exact .sending hsend (by rw [hl.1]) hl

/-- A packet with the tag leads out of the first loop of the receiver. -/
theorem ne_awaitingInitial_of_deliver {s s' : RecvState C} {l l' : Link} {n : Bytes}
    {ns : List Bytes} (hs : s.Awaiting)
    (htag : s = .awaitingInitial → n.head? = some apduCommandTag)
    (hcons : l.notifications = n :: ns)
    (h : (ExchangeState.receiving s).step dev l .deliver = some (.receiving s', l')) :
    s' ≠ .awaitingInitial := by
  rw [ExchangeState.step, hcons, Option.some.injEq, Prod.mk.injEq] at h
  have hnext : RecvFramed.InSecondLoop (RecvFramed.onNotification apduCommandTag s (.ok n)) ∨
      ∃ r, RecvFramed.onNotification apduCommandTag s (.ok n) = .returned r := by
    cases s with
    | awaitingInitial => exact RecvFramed.onNotification_initialTag (htag rfl)
    | awaitingSubsequent total buffer => exact RecvFramed.onNotification_subsequent hs n
    | returned r => exact absurd hs id
  rintro rfl
  rcases hnext with ⟨total, buffer, -, hnext⟩ | ⟨r, hnext⟩
  · rw [hnext] at h
    cases h.1
  · rw [hnext] at h
    cases r with
    | error err => cases h.1
    | ok message =>
        rw [ofRecv_returned_ok] at h
        cases h.1

/-- Every step of such a call is one at the level of APDUs, or none. -/
theorem Stage.step {mtuSize : Nat} (hmtu : 6 ≤ mtuSize) {a : ApduLink} {p : BleCall C α}
    {t t' : Task C α} {l l' : Link} {e : TaskEvent C} (h : Stage dev mtuSize a p t l)
    (hp : p.Only (Fits C)) (hl : l.getMtuSize = mtuSize)
    (hstep : LateStep dev (t, l) e (t', l')) :
    ∃ es a' p', Serves dev a p es a' p' ∧ Stage dev mtuSize a' p' t' l' := by
  obtain ⟨hlate, hstep⟩ := hstep
  cases h with
  | @sending command k r' ps s _ hsend hr' hrep =>
      have hquiet : QuietStep dev (.running (.sending (C.serialize command) mtuSize s) k, l) e
          (t', l') := by
        rcases hlate with hquiet | ⟨k', heq, -⟩
        · exact ⟨hquiet, hstep⟩
        · cases heq
      obtain rfl := eq_awaited_of_quietStep hquiet
      cases ps with
      | nil => exact absurd rfl hsend.2.ne_nil
      | cons packet ps =>
          cases ps with
          -- the last packet: the device's answer goes to the end of the queue
          | nil =>
              obtain ⟨hnext, hreassembler, hqueue⟩ := @step_writeOk_last C dev _ _ _ _ _ _ hsend
              rw [awaited, Task.step, hnext] at hstep
              cases hstep
              obtain ⟨oldest, rest, hoff⟩ := a.exists_oldest C dev command
              have hqueue' : (l.receive dev packet).notifications =
                  (a.leave C dev command).queue := by
                rw [hqueue, hrep.2, hr', ApduLink.queue, ApduLink.queue, ApduLink.leave,
                  List.flatMap_append, List.flatMap_singleton]
              refine ⟨[], a, _, .nil _ _, .receiving hoff (by rw [hreassembler, hr']; rfl) ?_
                fun _ => hqueue'⟩
              rw [ApduLink.queue, hoff, List.flatMap_cons] at hqueue'
              exact receivingFrom_packets hqueue'
          | cons q ps =>
              obtain ⟨s', hnext, hsend', hframes, hqueue⟩ :=
                @step_writeOk_more C dev _ _ _ _ _ _ _ _ hsend
              rw [awaited, Task.step, hnext] at hstep
              cases hstep
              exact ⟨[], a, _, .nil _ _, .sending hsend' hr'
                ⟨hframes.trans hrep.1, hqueue.trans hrep.2⟩⟩
  | @receiving command k oldest rest s _ hoff hframes hrecv hinitial =>
      rcases hlate with hquiet | ⟨k', heq, rfl⟩
      · obtain rfl := eq_awaited_of_quietStep (show QuietStep dev _ e (t', l') from ⟨hquiet, hstep⟩)
        obtain ⟨n, ns, x', hcons, hnext, hx⟩ := @step_deliver C dev _ _ _ _ hrecv
        rw [awaited, Task.step, hnext] at hstep
        cases hstep
        rcases hx with ⟨s', rfl, hrecv'⟩ | ⟨rfl, rfl⟩
        · refine ⟨[], a, _, .nil _ _, .receiving hoff hframes hrecv' fun hs' => ?_⟩
          -- the front of the queue was a packet with the tag, so the first loop is over
          refine absurd hs' (ne_awaitingInitial_of_deliver hrecv.1 (fun hs => ?_) hcons hnext)
          have hfront := hinitial hs
          rw [hcons, ApduLink.queue, hoff, List.flatMap_cons] at hfront
          obtain ⟨rfl, -⟩ := List.cons_eq_cons.mp hfront
          rfl
        · exact ⟨_, _, _, .answered hoff (.nil _ _), .returned ⟨hframes, rfl⟩⟩
      · cases heq
        cases hstep
        exact ⟨_, _, _, .timedOut (.nil _ _), .returned ⟨hframes, hinitial rfl⟩⟩
  | @returned r k _ hrep =>
      have hquiet : QuietStep dev (.running (.returned r) k, l) e (t', l') := by
        rcases hlate with hquiet | ⟨k', heq, -⟩
        · exact ⟨hquiet, hstep⟩
        · cases heq
      obtain rfl := eq_awaited_of_quietStep hquiet
      cases hstep
      rw [hl]
      exact ⟨[], a, _, .nil _ _, stage_ofCall hmtu hp hrep⟩
  | finished => cases e <;> cases hstep

/-- Every run of such a call. -/
theorem serves_of_lateRun {mtuSize : Nat} (hmtu : 6 ≤ mtuSize) {a : ApduLink} {p : BleCall C α}
    (hp : p.Only (Fits C)) {l : Link} (hlink : l.Represents a) (hl : l.getMtuSize = mtuSize)
    {ts : List (TaskEvent C)} {s : Task C α × Link}
    (hrun : Run (LateStep dev) (Task.ofCall mtuSize p, l) ts s) :
    ∃ es a' p', Serves dev a p es a' p' ∧ Stage dev mtuSize a' p' s.1 s.2 := by
  refine (hrun.invariant (I := fun s => s.2.getMtuSize = mtuSize ∧
    ∃ es a' p', Serves dev a p es a' p' ∧ Stage dev mtuSize a' p' s.1 s.2) ?_
    ⟨hl, [], a, p, .nil _ _, stage_ofCall hmtu hp hlink⟩).2
  rintro ⟨t, l₁⟩ e ⟨t', l'⟩ ⟨hl₁, es, a', p', hserves, hstage⟩ hstep
  obtain ⟨es', a'', p'', hserves', hstage'⟩ := hstage.step hmtu (hserves.only hp) hl₁ hstep
  refine ⟨?_, es ++ es', a'', p'', hserves.append hserves', hstage'⟩
  rw [Link.getMtuSize, Task.mtuSize_step hstep.2]
  exact hl₁

end

/-- On a link on which nothing waits, every call that does not time out returns the answer to the
    command as many places before its own as there were timeouts before it: a timeout shifts the
    replies for good. -/
theorem late_answers {α : Type} (dev : FrameDevice) {p : BleCall C α} (hp : p.Only (Fits C))
    {l : Link} (hmtu : 6 ≤ l.getMtuSize) (hqueue : l.notifications = []) {ts : List (TaskEvent C)}
    {t : Task C α} {l' : Link}
    (hrun : Run (LateStep dev) (Task.ofCall l.getMtuSize p, l) ts (t, l')) :
    ∃ es p', Call.Trace p es p' ∧ (∀ o, t = .finished o → p' = .ret o) ∧
      ∀ i c r, es[i]? = some ⟨c, r⟩ → r ≠ .error .timeout →
        r = answered C (dev (l.reassembler.frames ++
          ((es.map Sigma.fst).take (i - timeouts (es.take i) + 1)).map C.serialize)).message := by
  obtain ⟨es, a', p', hserves, hstage⟩ :=
    serves_of_lateRun hmtu hp (represents_fresh hqueue) rfl hrun
  refine ⟨es, p', hserves.trace, ?_, ?_⟩
  · rintro o rfl
    cases hstage
    rfl
  · intro i c r hes hr
    have hno : isTimeout r = false := by
      cases r with
      | ok response => rfl
      | error err =>
          cases err with
          | timeout => exact absurd rfl hr
          | _ => rfl
    obtain ⟨f, hf, hreply⟩ := hserves.reply i _ hes hno
    rw [ApduLink.fresh, List.nil_append] at hf
    rw [← getElem?_answersTo hf]
    exact hreply

/-- Two exchanges, the first one without a look at its reply. -/
def versionTwice : BleCall Crates.reference Bytes := do
  let _ ← BleApi.exchange { cla := cla, ins := insGetVersion, p1 := 0, p2 := 0, data := [] }
  BleApi.getVersionBle

theorem only_versionTwice : versionTwice.Only (Fits Crates.reference) := by
  refine ⟨by simp [Fits], fun _ => ⟨by simp [Fits], fun reply => ?_⟩⟩
  cases reply with
  | error err => trivial
  | ok response =>
      dsimp only [Call.bind]
      split <;> trivial

/-- The second exchange returns the answer to the first command. -/
theorem late_answers_versionTwice :
    ∃ (l' : Link) (es : List (Sigma (BleReply Crates.reference))),
      Run (LateStep countingSigner.answer) (Task.ofCall 20 versionTwice, Link.opened 20)
        [.transport .writeOk, .transport .timeout, .resume, .transport .writeOk,
          .transport .deliver, .resume] (.finished (.ok [1]), l') ∧
      Call.Trace versionTwice es (.ret (.ok [1])) ∧
      ∀ i c r, es[i]? = some ⟨c, r⟩ → r ≠ .error .timeout →
        r = answered Crates.reference (countingSigner.answer (([] : List Bytes) ++
          ((es.map Sigma.fst).take (i - timeouts (es.take i) + 1)).map
            Crates.reference.serialize)).message := by
  have hrun : ∃ l', Run (LateStep countingSigner.answer)
      (Task.ofCall 20 versionTwice, Link.opened 20)
      [.transport .writeOk, .transport .timeout, .resume, .transport .writeOk, .transport .deliver,
        .resume] (.finished (.ok [1]), l') :=
    ⟨_, .cons ⟨.inl trivial, rfl⟩ <| .cons ⟨.inr ⟨_, rfl, rfl⟩, rfl⟩ <| .cons ⟨.inl trivial, rfl⟩ <|
      .cons ⟨.inl trivial, rfl⟩ <| .cons ⟨.inl trivial, rfl⟩ <| .single ⟨.inl trivial, rfl⟩⟩
  obtain ⟨l', hrun⟩ := hrun
  obtain ⟨es, p', htrace, hfinished, hreplies⟩ :=
    late_answers countingSigner.answer only_versionTwice (l := Link.opened 20) (by decide) rfl hrun
  rw [hfinished _ rfl] at htrace
  exact ⟨l', es, hrun, htrace, hreplies⟩

end NearLedger
