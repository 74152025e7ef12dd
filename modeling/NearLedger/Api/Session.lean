/-
  NearLedger.Api.Session

  From `connect` to the calls on the transport.  Both read one notification
  stream: `connect` opens it before the MTU is asked for, `infer_mtu` reads until
  the response, and what the peripheral has sent behind the response is what the
  first `exchange` finds (`connect_leaves`).  An answer that is late from an
  earlier session does no harm if it comes before the response
  (`session_client`).
-/

import NearLedger.Api.Clients
import NearLedger.Ble.Connect

namespace NearLedger

open Interaction Transition

variable {C : Crates}

/-! ## `connect` and its stream -/

/-- The state of `connect`, with what is still to be read from the notification stream. -/
structure Opening (C : Crates) where
  connect : ConnectState C
  stream : List Bytes

/-- The peripheral replies, or it sends a notification while there is a stream. -/
inductive OpeningEvent (C : Crates) where
  | reply (e : ConnectEvent C)
  | notified (n : Bytes)

/-- `notifications` has been called. -/
def ConnectState.hasStream : ConnectState C → Bool
  | .inferring _ _ => true
  | .returned (.ok _) => true
  | _ => false

/-- The notification that a reply has brought. -/
def ConnectEvent.read? : ConnectEvent C → Option Bytes
  | .nextNotification (.ok n) => some n
  | _ => none

namespace Opening

/-- The call of `connect`. -/
def start : Opening C := { connect := .checking, stream := [] }

/-- A read takes the front of the stream. -/
def step (s : Opening C) : OpeningEvent C → Option (Opening C)
  | .notified n =>
      if s.connect.hasStream then some { connect := s.connect, stream := s.stream ++ [n] } else none
  | .reply e =>
      match e.read? with
      | none => (s.connect.step e).map fun c => { connect := c, stream := s.stream }
      | some n =>
          match s.stream with
          | [] => none
          | m :: ms =>
              if n = m then (s.connect.step e).map fun c => { connect := c, stream := ms } else none

end Opening

/-- The replies among the events. -/
def replies (es : List (OpeningEvent C)) : List (ConnectEvent C) :=
  es.filterMap fun
    | .reply e => some e
    | .notified _ => none

/-- What the peripheral has sent. -/
def sent (es : List (OpeningEvent C)) : List Bytes :=
  es.filterMap fun
    | .reply _ => none
    | .notified n => some n

/-- What has been read. -/
def received (es : List (ConnectEvent C)) : List Bytes := es.filterMap ConnectEvent.read?

/-- A notification goes to the end of the stream; a reply is one to `connect`, and what it reads was
    the front of the stream. -/
theorem Opening.step_cases {s s' : Opening C} {e : OpeningEvent C} (h : s.step e = some s') :
    (∃ n, e = .notified n ∧ s'.connect = s.connect ∧ s'.stream = s.stream ++ [n]) ∨
    ∃ e', e = .reply e' ∧ s.connect.step e' = some s'.connect ∧
      s.stream = e'.read?.toList ++ s'.stream := by
  cases e with
  | notified n =>
      obtain ⟨-, h⟩ := Option.ite_none_right_eq_some.mp h
      cases h
      exact .inl ⟨n, rfl, rfl, rfl⟩
  | reply e =>
      right
      rw [Opening.step] at h
      cases hread : e.read? with
      | none =>
          rw [hread] at h
          obtain ⟨c, hc, rfl⟩ := Option.map_eq_some_iff.mp h
          exact ⟨e, rfl, hc, by rw [hread]; rfl⟩
      | some n =>
          rw [hread] at h
          cases hstream : s.stream with
          | nil =>
              rw [hstream] at h
              cases h
          | cons m ms =>
              rw [hstream] at h
              obtain ⟨rfl, hmap⟩ := Option.ite_none_right_eq_some.mp h
              obtain ⟨c, hc, rfl⟩ := Option.map_eq_some_iff.mp hmap
              exact ⟨e, rfl, hc, by rw [hread]; rfl⟩

/-- The stream loses nothing and repeats nothing: what was sent has been read, in that order, or is
    still to be read. -/
theorem run_connect_of_opening {s s' : Opening C} {es : List (OpeningEvent C)}
    (hrun : Run (ofFn Opening.step) s es s') :
    Run (ofFn ConnectState.step) s.connect (replies es) s'.connect ∧
      s.stream ++ sent es = received (replies es) ++ s'.stream := by
  induction hrun with
  | nil s => exact ⟨.nil _, List.append_nil _⟩
  | @cons s s' s'' e es hstep _ ih =>
      obtain ⟨hconnect, hstream⟩ := ih
      rcases Opening.step_cases hstep with ⟨n, rfl, hc, hn⟩ | ⟨e', rfl, hc, hread⟩
      · rw [hc] at hconnect
        rw [hn, List.append_assoc] at hstream
        exact ⟨hconnect, hstream⟩
      · refine ⟨.cons hc hconnect, ?_⟩
        have hreplies : received (replies (.reply e' :: es)) =
            e'.read?.toList ++ received (replies es) := by
          show received (e' :: replies es) = _
          rw [received, List.filterMap_cons]
          cases e'.read? <;> rfl
        have hsent : sent (.reply e' :: es) = sent es := rfl
        rw [hreplies, hsent, hread, List.append_assoc, List.append_assoc, hstream]

/-! ## What `connect` leaves in the stream -/

/-- `infer_mtu` reads the skipped notifications and the response. -/
theorem received_requested (w : Characteristic) (skipped : List Bytes) (response : Bytes) :
    received (requested w skipped ++ [.nextNotification (.ok response)] : List (ConnectEvent C)) =
      skipped ++ [response] := by
  have hskipped : received ((skipped.map fun m => .nextNotification (.ok m)) :
      List (ConnectEvent C)) = skipped := by
    rw [received, List.filterMap_map]
    exact List.filterMap_some
  rw [received] at hskipped ⊢
  rw [List.filterMap_append, requested, List.filterMap_cons, hskipped]
  rfl

/-- Nothing else of `connect` reads a notification. -/
theorem received_connected {es : List (ConnectEvent C)} (h : Opened es)
    (table : List Characteristic) (w n : Characteristic) (skipped : List Bytes) (response : Bytes) :
    received (es ++ setUp table n ++ requested w skipped ++ [.nextNotification (.ok response)]) =
      skipped ++ [response] := by
  have hnone : received (es ++ setUp table n) = [] := by cases h <;> rfl
  rw [List.append_assoc (es ++ setUp table n), received, List.filterMap_append, ← received,
    ← received, hnone, received_requested, List.nil_append]

/-- Where `connect` has returned a transport, what it has read ends with the MTU response. -/
theorem opening_returned {es : List (OpeningEvent C)} {t : TransportBle} {unread : List Bytes}
    (hrun : Run (ofFn Opening.step) .start es
      { connect := .returned (.ok t), stream := unread }) :
    ∃ table n skipped response, selectCharacteristics C table = .ok (t.writeCharacteristic, n) ∧
      sent es = skipped ++ response :: unread ∧ (∀ m ∈ skipped, m.head? ≠ some mtuCommandTag) ∧
      response.head? = some mtuCommandTag ∧ t.mtuSize = some (mtuOf response) := by
  obtain ⟨hconnect, hstream⟩ := run_connect_of_opening hrun
  have hreached := reached_of_run .checking hconnect
  rw [List.nil_append] at hreached
  generalize replies es = rs at hreached hstream
  cases hreached with
  | @connected _ table w n skipped response hopened hselect hskipped htag =>
      rw [received_connected hopened] at hstream
      refine ⟨table, n, skipped, response, hselect, ?_, hskipped, htag, rfl⟩
      rw [Opening.start, List.nil_append, List.append_assoc] at hstream
      exact hstream

/-- A run of `connect` is one over a stream that begins with what it reads. -/
theorem opening_of_run {c c' : ConnectState C} {es : List (ConnectEvent C)} (rest : List Bytes)
    (hrun : Run (ofFn ConnectState.step) c es c') :
    Run (ofFn Opening.step) { connect := c, stream := received es ++ rest } (es.map .reply)
      { connect := c', stream := rest } := by
  induction hrun with
  | nil c => exact .nil _
  | @cons c m c' e es hstep _ ih =>
      refine .cons ?_ ih
      have hnext : c.step e = some m := hstep
      show Opening.step _ _ = _
      rw [Opening.step]
      cases hread : e.read? with
      | none => simp only [received, List.filterMap_cons, hread, hnext, Option.map_some]
      | some n =>
          simp only [received, List.filterMap_cons, hread, List.cons_append, if_true, hnext,
            Option.map_some]

/-- Notifications go to the end of the stream. -/
theorem run_notified {c : ConnectState C} (hc : c.hasStream = true) (ns : List Bytes) :
    ∀ stream : List Bytes, Run (ofFn Opening.step) { connect := c, stream := stream }
      (ns.map .notified) { connect := c, stream := stream ++ ns } := by
  induction ns with
  | nil =>
      intro stream
      rw [List.append_nil]
      exact .nil _
  | cons n ns ih =>
      intro stream
      have hrest := ih (stream ++ [n])
      rw [List.append_assoc] at hrest
      exact .cons (if_pos hc) hrest

theorem sent_append (es es' : List (OpeningEvent C)) : sent (es ++ es') = sent es ++ sent es' :=
  List.filterMap_append

theorem sent_replies (es : List (ConnectEvent C)) : sent (es.map .reply) = [] := by
  simp [sent]

theorem sent_notified (ns : List Bytes) : sent (ns.map .notified : List (OpeningEvent C)) = ns := by
  simp [sent]

/-- Of what the peripheral has sent, `connect` drops everything before the first notification with
    the MTU tag, takes the MTU from that one, and leaves all that is behind it in the stream, in its
    order.  Whatever is sent, there is such a run. -/
theorem connect_leaves {ns : List Bytes} {t : TransportBle} {unread : List Bytes} :
    (∃ es : List (OpeningEvent C), sent es = ns ∧ Run (ofFn Opening.step) .start es
        { connect := .returned (.ok t), stream := unread }) ↔
      ∃ table n skipped response, selectCharacteristics C table = .ok (t.writeCharacteristic, n) ∧
        ns = skipped ++ response :: unread ∧ (∀ m ∈ skipped, m.head? ≠ some mtuCommandTag) ∧
        response.head? = some mtuCommandTag ∧ t.mtuSize = some (mtuOf response) := by
  constructor
  · rintro ⟨es, rfl, hrun⟩
    exact opening_returned hrun
  · rintro ⟨table, n, skipped, response, hselect, rfl, hskipped, htag, hmtu⟩
    obtain ⟨w, mtuSize⟩ := t
    obtain rfl : mtuSize = some (mtuOf response) := hmtu
    have hopened : Opened ([.isConnected (.ok true)] : List (ConnectEvent C)) := .already
    -- everything is sent between the opening of the stream and the MTU request
    have hbefore := opening_of_run [] ((run_opened hopened).append (run_setUp hselect))
    have hsent := run_notified (c := (.inferring w (.writingCommand mtuRequest) : ConnectState C))
      rfl (skipped ++ response :: unread) []
    have hafter := @opening_of_run C _ _ _ unread
      ((run_requested w hskipped).append (run_response w htag))
    rw [received_requested, List.append_assoc] at hafter
    refine ⟨_, ?_, (hbefore.append hsent).append hafter⟩
    rw [sent_append, sent_append, sent_replies, sent_notified, sent_replies, List.nil_append,
      List.append_nil]

/-! ## Calls that find notifications of other tags -/

/-- A notification that the first loop of `recv_framed` skips. -/
def Idle (n : Bytes) : Prop := n ≠ [] ∧ n.head? ≠ some apduCommandTag

section

variable {α : Type} {dev : FrameDevice}

/-- The call has not read a packet of an answer yet. -/
def Task.BeforeAnswer (t : Task C α) : Prop :=
  ∀ s k, t = .running (.receiving s) k → s = .awaitingInitial

theorem beforeAnswer_ofSend (apduData : Bytes) (mtuSize : Nat) (s : SendState C)
    (k : Except (BleError C) C.APDUAnswer → BleCall C α) :
    (Task.running (.ofSend apduData mtuSize s) k).BeforeAnswer := by
  intro s' k' h
  cases s with
  | returned r =>
      cases r with
      | ok u =>
          cases h
          rfl
      | error err => cases h
  | _ => cases h

theorem beforeAnswer_ofCall (mtuSize : Nat) (p : BleCall C α) :
    (Task.ofCall mtuSize p).BeforeAnswer := by
  cases p with
  | ret o =>
      intro s k h
      cases h
  | request command k => exact beforeAnswer_ofSend _ _ _ _

/-- What waits in the stream does not change how the device receives a packet. -/
theorem receive_behind (l : Link) (front : List Bytes) (packet : Bytes) :
    (l.withQueue (front ++ l.notifications)).receive dev packet =
      (l.receive dev packet).withQueue (front ++ (l.receive dev packet).notifications) := by
  have hreassembler : (l.withQueue (front ++ l.notifications)).reassembler = l.reassembler := rfl
  rw [Link.receive, Link.receive, hreassembler]
  simp only [Link.withQueue]
  split
  · rfl
  · rw [List.append_assoc]

/-- Idle notifications at the front of the stream are skipped. -/
theorem run_idle {front : List Bytes} (hfront : ∀ n ∈ front, Idle n) (l : Link)
    (k : Except (BleError C) C.APDUAnswer → BleCall C α) :
    ∃ es, Run (QuietStep dev)
      (.running (.receiving .awaitingInitial) k, l.withQueue (front ++ l.notifications)) es
      (.running (.receiving .awaitingInitial) k, l) := by
  induction front with
  | nil => exact ⟨[], .nil _⟩
  | cons n front ih =>
      obtain ⟨es, hrest⟩ := ih fun m hm => hfront m (List.mem_cons_of_mem _ hm)
      obtain ⟨hne, htag⟩ := hfront n List.mem_cons_self
      have hskip : RecvFramed.onNotification apduCommandTag (.awaitingInitial : RecvState C)
          (.ok n) = .awaitingInitial := RecvFramed.onNotification_initial_foreign hne htag
      have hdeliver : (ExchangeState.receiving (.awaitingInitial : RecvState C)).step dev
          (l.withQueue (n :: (front ++ l.notifications))) .deliver =
            some (.receiving .awaitingInitial, l.withQueue (front ++ l.notifications)) := by
        show some (ExchangeState.ofRecv (RecvFramed.onNotification apduCommandTag
          (.awaitingInitial : RecvState C) (.ok n)), _) = _
        rw [hskip]
        rfl
      refine ⟨.transport .deliver :: es, .cons ⟨trivial, ?_⟩ hrest⟩
      rw [Task.step, List.cons_append, hdeliver]
      rfl

/-- A call ends alike when idle notifications wait in front of what it is to read.  It skips them at
    its first read, or makes none and leaves them where they are. -/
theorem run_behind_idle {front : List Bytes} (hfront : ∀ n ∈ front, Idle n)
    {s s' : Task C α × Link} {es : List (TaskEvent C)} (hrun : Run (QuietStep dev) s es s')
    (hs : s.1.BeforeAnswer) :
    ∃ es' front', (∀ n ∈ front', Idle n) ∧
      Run (QuietStep dev) (s.1, s.2.withQueue (front ++ s.2.notifications)) es'
        (s'.1, s'.2.withQueue (front' ++ s'.2.notifications)) := by
  induction hrun with
  | nil s => exact ⟨[], front, hfront, .nil _⟩
  | @cons s m s' e es hstep hrest ih =>
      obtain ⟨t, l⟩ := s
      obtain ⟨t', l'⟩ := m
      obtain ⟨hquiet, hstep'⟩ := hstep
      cases t with
      | finished o => cases e <;> cases hstep'
      | running x k =>
          cases e with
          | resume =>
              cases x with
              | returned r =>
                  cases hstep'
                  obtain ⟨es', front', hfront', h⟩ := ih (beforeAnswer_ofCall _ _)
                  exact ⟨.resume :: es', front', hfront', .cons ⟨trivial, rfl⟩ h⟩
              | panicked =>
                  cases hstep'
                  obtain ⟨es', front', hfront', h⟩ := ih fun s k hs' => by cases hs'
                  exact ⟨.resume :: es', front', hfront', .cons ⟨trivial, rfl⟩ h⟩
              | _ => cases hstep'
          | transport e =>
              have hfull := hstep'
              obtain ⟨⟨x', l₁⟩, hx, heq⟩ := Option.map_eq_some_iff.mp hstep'
              cases heq
              cases x with
              | sending apduData mtuSize ss =>
                  cases e with
                  | writeOk =>
                      obtain ⟨packet, hpacket, heq⟩ := Option.map_eq_some_iff.mp hx
                      cases heq
                      obtain ⟨es', front', hfront', h⟩ := ih (beforeAnswer_ofSend _ _ _ _)
                      refine ⟨.transport .writeOk :: es', front', hfront', .cons ⟨trivial, ?_⟩ h⟩
                      rw [Task.step, ExchangeState.step, hpacket, Option.map_some, Option.map_some,
                        receive_behind]
                  | writeErr delivered err => exact absurd hquiet id
                  | _ => cases hx
              -- the idle notifications are read before the first packet of the answer
              | receiving rs =>
                  obtain rfl := hs rs k rfl
                  obtain ⟨es', hidle⟩ := @run_idle C α dev front hfront l k
                  exact ⟨es' ++ .transport e :: es, [], by simp,
                    hidle.append (.cons ⟨hquiet, hfull⟩ hrest)⟩
              | returned r => cases hx
              | panicked => cases hx

end

/-! ## The whole session -/

/-- The link of a transport that `connect` has returned: the device has received the MTU request. -/
def TransportBle.link (t : TransportBle) (unread : List Bytes) : Link :=
  { mtuSize := t.mtuSize, notifications := unread, written := [mtuRequest] }

/-- A client over the transport of a session ends as it ends over HID with a `get_transport` that
    succeeds, and the device receives the frames of the same commands and nothing but them: the
    peripheral may have sent anything before the MTU response, and idle notifications behind it.
    Every run that has begun can only be continued to this end. -/
theorem session_client {η α : Type} (hA : C.ApduDoc) (dev : FrameDevice)
    (hid : BleError C → C.LedgerHIDError) {observe : NEARLedgerError C → η}
    (hobserve : ∀ cause, observe (Cause.hid (answerView hid) cause) =
      observe (Cause.ble (answerView hid) cause))
    {es : List (OpeningEvent C)} {t : TransportBle} {unread : List Bytes}
    (hrun : Run (ofFn Opening.step) .start es { connect := .returned (.ok t), stream := unread })
    (hidle : ∀ n ∈ unread, Idle n) {c : Client C η α} (hc : OpensNamed (apduDevice C dev []) c) :
    ∃ o l', o = (Call.run (hidEnv (answerView hid) (apduDevice C dev [])) [] (c.hid observe)).2 ∧
      l'.reassembler.frames =
        (exchanged (Call.run (hidEnv (answerView hid) (apduDevice C dev [])) []
          (c.hid observe)).1).map C.serialize ∧
      (∀ n ∈ l'.notifications, Idle n) ∧
      (∃ ts, Run (QuietStep dev)
        (Task.ofCall (t.link unread).getMtuSize (c.ble observe), t.link unread) ts
        (.finished o, l')) ∧
      ∀ ts s, Run (HarmlessStep dev)
          (Task.ofCall (t.link unread).getMtuSize (c.ble observe), t.link unread) ts s →
        ∃ ts', Run (QuietStep dev) s ts' (.finished o, l') := by
  obtain ⟨-, -, -, response, -, -, -, -, hmtu⟩ := opening_returned hrun
  have hmtu' : (t.link unread).getMtuSize = mtuOf response := by
    rw [Link.getMtuSize, TransportBle.link, hmtu]
    rfl
  -- the same link without the idle notifications
  have hframes : (t.link []).reassembler.frames = [] := rfl
  obtain ⟨ts, l', hquiet, -, hframes', hempty⟩ :=
    @run_program_represents C α dev (c.ble observe) (t.link []) _
      (hmtu' ▸ (mtuOf_bounds response).1) (represents_fresh rfl)
  obtain ⟨hcmds, hend⟩ := run_client_related hobserve hc
  have hserve := serve_exchange dev [] hid (only_fits_client hA observe c)
  dsimp only at hserve
  rw [← hcmds, ← hend] at hserve
  rw [hframes, hserve] at hquiet hframes' hempty
  obtain ⟨ts', front, hfront, hbehind⟩ := run_behind_idle hidle hquiet (beforeAnswer_ofCall _ _)
  rw [show (t.link []).notifications = [] from rfl, List.append_nil] at hbehind
  dsimp only at hbehind
  rw [hempty, ApduLink.queue, ApduLink.fresh, List.flatMap_nil, List.append_nil] at hbehind
  exact ⟨_, l'.withQueue front, rfl, hframes', hfront, ⟨ts', hbehind⟩,
    fun ts₁ s₁ h₁ => ends_of_harmlessRun (atAwait_ofCall _ _) hbehind h₁⟩

/-- A connection on which a packet for an old command arrives before the MTU response, and a
    notification of another tag behind it. -/
def lateAnswerEvents : List (OpeningEvent Crates.reference) :=
  (nanoXEvents.take 5).map .reply ++
    [.notified [0x05, 0, 0], .notified [0x08, 0, 0, 0, 1, 153], .notified [0x42]] ++
    (nanoXEvents.drop 5).map .reply

theorem session_client_lateAnswer :
    ∃ ts l', Run (QuietStep countingSigner.answer)
      (Task.ofCall 153 (versionThenSign.ble apduMessage),
        { mtuSize := some 153, notifications := [[0x42]], written := [mtuRequest] }) ts
      (.finished (.ok (.ok [2])), l') := by
  have hrun : Run (ofFn Opening.step) .start lateAnswerEvents
      { connect := .returned (.ok { writeCharacteristic := nanoXTable[1], mtuSize := some 153 })
        stream := [[0x42]] } := run_of_exec rfl
  obtain ⟨o, l', rfl, -, -, ⟨ts, hcall⟩, -⟩ :=
    session_client Crates.reference_apduDoc countingSigner.answer (fun err => err.display)
      (apduMessage_cause _) hrun (by simp [Idle, apduCommandTag])
      (opensNamed_versionThenSign (apduDevice Crates.reference countingSigner.answer []))
  exact ⟨ts, l', hcall⟩

end NearLedger
