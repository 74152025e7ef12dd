/-
  NearLedger.Ble.Refinement

  `exchange` in packets against `exchange` as its callers see it.  To them the
  link is a queue of answers (`ApduLink`): a command reaches the device as one
  frame, the device's answer goes to the end of the queue, and the caller gets
  the front.  Every program over packets does what it does over that link
  (`program_over_packets`), also when notifications of other tags come between.
-/

import NearLedger.Ble.AwaitPoints
import NearLedger.Ble.Delivery
import NearLedger.Lib.Handlers

namespace NearLedger

open Interaction Transition

variable {C : Crates}

/-! ## The link at the level of APDUs -/

/-- The frames the device has received, and its answers that nobody has read, the oldest first. -/
structure ApduLink where
  frames : List Bytes
  pending : List FramedMessage

namespace ApduLink

/-- Nothing is left to be read. -/
def fresh (frames : List Bytes) : ApduLink := { frames := frames, pending := [] }

/-- One `exchange`: the device answers the command, and the caller gets the oldest answer. -/
def exchange (C : Crates) (dev : FrameDevice) : Call.Server ApduLink APDUCommand (BleReply C) :=
  fun a command =>
    let apduData := C.serialize command
    if apduData.length > 65535 then
      (.error (.comm "Payload too large for BLE framing (>65535 bytes)"), a)
    else
      let frames := a.frames ++ [apduData]
      match a.pending with
      | [] => (answered C (dev frames).message, { frames := frames, pending := [] })
      | oldest :: rest =>
          (answered C oldest.message, { frames := frames, pending := rest ++ [dev frames] })

/-- The packets of the answers that nobody has read. -/
def queue (a : ApduLink) : List Bytes :=
  a.pending.flatMap (FramedMessage.packets apduCommandTag)

end ApduLink

/-- The packets on a link are those of the answers of an `ApduLink`, and the device has received the
    same frames. -/
def Link.Represents (l : Link) (a : ApduLink) : Prop :=
  l.reassembler.frames = a.frames ∧ l.notifications = a.queue

theorem represents_fresh {l : Link} (h : l.notifications = []) :
    l.Represents (.fresh l.reassembler.frames) :=
  ⟨rfl, h⟩

section

variable {α : Type} {dev : FrameDevice}

/-! ## One exchange -/

/-- An exchange over packets does to the link what `ApduLink.exchange` says, and returns that
    reply. -/
theorem run_exchange_represents (k : Except (BleError C) C.APDUAnswer → BleCall C α)
    {command : APDUCommand} {l : Link} {a : ApduLink} (hmtu : 6 ≤ l.getMtuSize)
    (hl : l.Represents a) :
    ∃ es l', Run (QuietStep dev) (.running (.start l.getMtuSize command) k, l) es
        (.running (.returned (a.exchange C dev command).1) k, l') ∧
      l'.mtuSize = l.mtuSize ∧ l'.Represents (a.exchange C dev command).2 := by
  obtain ⟨hframes, hqueue⟩ := hl
  by_cases hlen : (C.serialize command).length > 65535
  · refine ⟨[], l, ?_, rfl, ?_⟩
    · rw [start_of_too_long _ hlen, ApduLink.exchange, if_pos hlen]
      exact .nil _
    · rw [ApduLink.exchange, if_pos hlen]
      exact ⟨hframes, hqueue⟩
  · obtain ⟨s, hstart, hsend⟩ := @start_sendingTo C l command _ hmtu (by omega)
    obtain ⟨es, l₁, hsent, hm, -, hr', hqueue₁⟩ := @run_sending C _ dev k _ _ _ _ _ _ hsend
    rw [hqueue, hframes] at hqueue₁
    rw [hframes] at hr'
    -- what is queued now begins with the oldest answer
    obtain ⟨oldest, unread, hsplit, hreply, hnext⟩ :
        ∃ (oldest : FramedMessage) (unread : List Bytes),
        l₁.notifications = oldest.packets apduCommandTag ++ unread ∧
        (a.exchange C dev command).1 = answered C oldest.message ∧
        ({ l₁ with notifications := unread } : Link).Represents (a.exchange C dev command).2 := by
      have hframes₁ : l₁.reassembler.frames = a.frames ++ [C.serialize command] := by rw [hr']
      cases hpending : a.pending with
      | nil =>
          refine ⟨dev (a.frames ++ [C.serialize command]), [], ?_, ?_, ?_⟩
          · rw [hqueue₁, ApduLink.queue, hpending, List.flatMap_nil, List.nil_append,
              List.append_nil]
          · rw [ApduLink.exchange, if_neg hlen]
            simp only [hpending]
          · rw [ApduLink.exchange, if_neg hlen]
            simp only [hpending]
            exact ⟨hframes₁, rfl⟩
      | cons oldest rest =>
          refine ⟨oldest, (rest ++ [dev (a.frames ++ [C.serialize command])]).flatMap
            (FramedMessage.packets apduCommandTag), ?_, ?_, ?_⟩
          · rw [hqueue₁, ApduLink.queue, hpending, List.flatMap_cons, List.flatMap_append,
              List.flatMap_singleton, List.append_assoc]
          · rw [ApduLink.exchange, if_neg hlen]
            simp only [hpending]
          · rw [ApduLink.exchange, if_neg hlen]
            simp only [hpending]
            exact ⟨hframes₁, rfl⟩
    obtain ⟨es', hreceived⟩ := @run_receiving C _ dev k _ _ _ _ (receivingFrom_packets hsplit)
    refine ⟨es ++ es', { l₁ with notifications := unread }, ?_, hm, hnext⟩
    rw [hstart, hreply]
    exact hsent.append hreceived

/-! ## Programs -/

/-- A program over packets runs to the outcome it has over the `ApduLink`. -/
theorem run_program_represents (p : BleCall C α) :
    ∀ {l : Link} {a : ApduLink}, 6 ≤ l.getMtuSize → l.Represents a →
      ∃ es l', Run (QuietStep dev) (Task.ofCall l.getMtuSize p, l) es
          (.finished (Call.serve (ApduLink.exchange C dev) a p).1, l') ∧
        l'.mtuSize = l.mtuSize ∧
        l'.Represents (Call.serve (ApduLink.exchange C dev) a p).2 := by
  induction p with
  | ret o =>
      intro l a _ hl
      exact ⟨[], l, .nil _, rfl, hl⟩
  | request command k ih =>
      intro l a hmtu hl
      obtain ⟨es, l₁, hexchange, hm, hl₁⟩ :=
        @run_exchange_represents C α dev k command l a hmtu hl
      have hmtu₁ : l₁.getMtuSize = l.getMtuSize := by rw [Link.getMtuSize, hm, Link.getMtuSize]
      obtain ⟨es', l', hrest, hm', hl'⟩ :=
        @ih (a.exchange C dev command).1 l₁ (a.exchange C dev command).2 (hmtu₁ ▸ hmtu) hl₁
      have hresume : QuietStep dev (.running (.returned (a.exchange C dev command).1) k, l₁) .resume
          (Task.ofCall l₁.getMtuSize (k (a.exchange C dev command).1), l₁) := ⟨trivial, rfl⟩
      exact ⟨_, l', (hexchange.append (.single hresume)).append hrest, hm'.trans hm, hl'⟩

/-! ## Notifications of other tags -/

/-- The steps of a call when nothing fails, and reads may bring notifications of other tags that are
    long enough to be parsed. -/
def Harmless : TaskEvent C → Prop
  | .transport (.foreign n) => 3 ≤ n.length
  | e => Quiet e

/-- A step of a call when nothing fails and there may be such notifications. -/
def HarmlessStep (dev : FrameDevice) (s : Task C α × Link) (e : TaskEvent C)
    (s' : Task C α × Link) : Prop :=
  Harmless e ∧ s.1.step dev s.2 e = some s'

/-- A call at a read has not read enough. -/
def Task.AtAwait : Task C α → Prop
  | .running (.receiving s) _ => s.Awaiting
  | _ => True

theorem atAwait_ofCall (mtuSize : Nat) (p : BleCall C α) : (Task.ofCall mtuSize p).AtAwait := by
  cases p with
  | ret o => trivial
  | request command k =>
      rw [Task.ofCall, ExchangeState.start]
      cases SendFramed.start apduCommandTag (C.serialize command) mtuSize with
      | returned r => cases r <;> trivial
      | _ => trivial

theorem atAwait_ofSend (apduData : Bytes) (mtuSize : Nat) (s : SendState C)
    (k : Except (BleError C) C.APDUAnswer → BleCall C α) :
    (Task.running (.ofSend apduData mtuSize s) k).AtAwait := by
  cases s with
  | returned r => cases r <;> trivial
  | _ => trivial

/-- No step of a call leads to a read that is not needed. -/
theorem Task.AtAwait.step {t t' : Task C α} {l l' : Link} {e : TaskEvent C} (h : t.AtAwait)
    (hstep : t.step dev l e = some (t', l')) : t'.AtAwait := by
  cases t with
  | finished o => cases e <;> cases hstep
  | running x k =>
      cases e with
      | resume =>
          cases x with
          | returned r =>
              cases hstep
              exact atAwait_ofCall _ _
          | panicked =>
              cases hstep
              trivial
          | _ => cases hstep
      | transport e =>
          obtain ⟨⟨x', l''⟩, hx, heq⟩ := Option.map_eq_some_iff.mp hstep
          cases heq
          cases x with
          | sending apduData mtuSize s =>
              cases e with
              | writeOk =>
                  obtain ⟨packet, -, heq⟩ := Option.map_eq_some_iff.mp hx
                  cases heq
                  exact atAwait_ofSend _ _ _ _
              | writeErr delivered err =>
                  obtain ⟨packet, -, heq⟩ := Option.map_eq_some_iff.mp hx
                  cases heq
                  exact atAwait_ofSend _ _ _ _
              | _ => cases hx
          | receiving s =>
              obtain ⟨-, ⟨s', rfl, hs'⟩ | ⟨r, rfl⟩⟩ := step_receiving_cases h hx
              · exact hs'
              · trivial
          | returned r => cases hx
          | panicked => cases hx

/-- A harmless notification is skipped in either loop of the receiver. -/
theorem quietStep_or_eq_of_harmlessStep {t : Task C α} {l : Link} {e : TaskEvent C}
    {s' : Task C α × Link} (h : t.AtAwait) (hstep : HarmlessStep dev (t, l) e s') :
    QuietStep dev (t, l) e s' ∨ s' = (t, l) := by
  obtain ⟨hharmless, hstep⟩ := hstep
  cases e with
  | resume => exact .inl ⟨trivial, hstep⟩
  | transport e =>
      cases e with
      | foreign n =>
          right
          cases t with
          | finished o => cases hstep
          | running x k =>
              obtain ⟨⟨x', l''⟩, hx, heq⟩ := Option.map_eq_some_iff.mp hstep
              cases x with
              | receiving s =>
                  rw [ExchangeState.step] at hx
                  split at hx
                  · cases hx
                  · rename_i htag
                    have hskip : RecvFramed.onNotification apduCommandTag s (.ok n) = s := by
                      cases s with
                      | awaitingInitial =>
                          refine RecvFramed.onNotification_initial_foreign ?_ htag
                          rintro rfl
                          simp [Harmless] at hharmless
                      | awaitingSubsequent total buffer =>
                          exact RecvFramed.onNotification_foreign hharmless htag h
                      | returned r => exact absurd h id
                    rw [hskip, ofRecv_of_awaiting h] at hx
                    cases hx
                    exact heq.symm
              | _ => cases hx
      | _ => exact .inl ⟨hharmless, hstep⟩

/-- Without the notifications of other tags, a run is a quiet run. -/
theorem quietRun_of_harmlessRun {t t' : Task C α} {l l' : Link} {es : List (TaskEvent C)}
    (ht : t.AtAwait) (h : Run (HarmlessStep dev) (t, l) es (t', l')) :
    ∃ es', es'.Sublist es ∧ Run (QuietStep dev) (t, l) es' (t', l') :=
  Run.of_stutter (I := fun s => s.1.AtAwait) (fun _ _ _ hI hs => hI.step hs.2)
    (fun _ _ _ hI hs => quietStep_or_eq_of_harmlessStep hI hs) h ht

end

/-- Where a run can end, every run that has begun ends, with any notifications of other tags
    between. -/
theorem ends_of_harmlessRun {α : Type} {dev : FrameDevice} {t : Task C α} (ht : t.AtAwait)
    {l l' : Link} {es es₁ : List (TaskEvent C)} {o : Outcome (NEARLedgerError C) α}
    {s₁ : Task C α × Link} (hrun : Run (QuietStep dev) (t, l) es (.finished o, l'))
    (h₁ : Run (HarmlessStep dev) (t, l) es₁ s₁) :
    ∃ es', Run (QuietStep dev) s₁ es' (.finished o, l') := by
  obtain ⟨es₁', -, hquiet⟩ := quietRun_of_harmlessRun ht h₁
  exact hquiet.extends_to_stuck (quietStep_deterministic dev) hrun
    fun e s => not_quietStep_finished o l' e s

/-- Over packets a program does what it does over the link of APDUs, however many answers wait on
    it.  A run ends with that outcome and that link, and every run that has begun, with any
    notifications of other tags between, can only be continued to this end. -/
theorem program_over_packets {α : Type} (dev : FrameDevice) (p : BleCall C α) {l : Link}
    {a : ApduLink} (hmtu : 6 ≤ l.getMtuSize) (hl : l.Represents a) :
    ∃ l', l'.Represents (Call.serve (ApduLink.exchange C dev) a p).2 ∧ l'.mtuSize = l.mtuSize ∧
      (∃ es, Run (QuietStep dev) (Task.ofCall l.getMtuSize p, l) es
        (.finished (Call.serve (ApduLink.exchange C dev) a p).1, l')) ∧
      ∀ es s, Run (HarmlessStep dev) (Task.ofCall l.getMtuSize p, l) es s →
        ∃ es', Run (QuietStep dev) s es'
          (.finished (Call.serve (ApduLink.exchange C dev) a p).1, l') := by
  obtain ⟨es, l', hrun, hm, hl'⟩ := @run_program_represents C α dev p l a hmtu hl
  exact ⟨l', hl', hm, ⟨es, hrun⟩, fun es₁ s₁ h₁ => ends_of_harmlessRun (atAwait_ofCall _ _) hrun h₁⟩

/-- A link on which the answer to an earlier command waits. -/
def staleLink : Link :=
  { mtuSize := some 20
    notifications := (countingSigner.answer []).packets apduCommandTag
    written := [] }

theorem program_over_packets_stale :
    ∃ es l', Run (QuietStep countingSigner.answer)
        (Task.ofCall 20 (BleApi.getVersionBle : BleCall Crates.reference Bytes), staleLink) es
        (.finished (.ok [0]), l') ∧
      l'.Represents
        { frames := [[0x80, 6, 0, 0, 0]]
          pending := [countingSigner.answer [[0x80, 6, 0, 0, 0]]] } := by
  obtain ⟨l', hl', -, ⟨es, hrun⟩, -⟩ :=
    program_over_packets countingSigner.answer
      (BleApi.getVersionBle : BleCall Crates.reference Bytes)
      (l := staleLink) (a := { frames := [], pending := [countingSigner.answer []] }) (by decide)
      ⟨rfl, rfl⟩
  exact ⟨es, l', hrun, hl'⟩

end NearLedger
