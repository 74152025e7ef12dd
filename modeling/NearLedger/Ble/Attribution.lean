/-
  NearLedger.Ble.Attribution

  Sequential calls of `exchange` on one transport, any of which may fail at any
  await point.  A call that fails after its whole frame has reached the device
  leaves the answer, or the end of it, in the notification stream, and the next
  call takes it for its own (`stale_answer_returned`).  As long as no call has
  failed that way, every call that succeeds returns the answer to its own
  command (`answers_attributed`).
-/

import NearLedger.Ble.Exchange
import NearLedger.Ble.Mtu
import NearLedger.Signing.Commands

namespace NearLedger

open Interaction Slices Transition

variable {C : Crates}

/-! ## Sessions -/

/-- The call of `exchange` that is under way, and the frames the device had when it began. -/
structure Current (C : Crates) where
  command : APDUCommand
  framesBefore : List Bytes
  x : ExchangeState C

/-- A call of `exchange` that has returned, and the frames the device had before and after it. -/
structure Record (C : Crates) where
  command : APDUCommand
  framesBefore : List Bytes
  framesAfter : List Bytes
  result : Except (BleError C) C.APDUAnswer

/-- One transport, the call under way if there is one, and the calls that have returned. -/
structure Session (C : Crates) where
  link : Link
  current : Option (Current C)
  log : List (Record C)

/-- The caller starts or finishes a call, or an await point of the call ends. -/
inductive SessionEvent (C : Crates) where
  | call (command : APDUCommand)
  | transport (e : Event C)
  | finish

namespace Session

def step (dev : FrameDevice) (s : Session C) : SessionEvent C → Option (Session C)
  | .call command =>
      match s.current with
      | some _ => none
      | none =>
          some { link := s.link
                 current := some { command := command
                                   framesBefore := s.link.reassembler.frames
                                   x := .start s.link.getMtuSize command }
                 log := s.log }
  | .transport e =>
      match s.current with
      | none => none
      | some cur =>
          (cur.x.step dev s.link e).map fun r =>
            { link := r.2, current := some { cur with x := r.1 }, log := s.log }
  | .finish =>
      match s.current with
      | some { command := command, framesBefore := framesBefore, x := .returned r } =>
          some { link := s.link
                 current := none
                 log := s.log ++ [{ command := command
                                    framesBefore := framesBefore
                                    framesAfter := s.link.reassembler.frames
                                    result := r }] }
      | _ => none

/-- A transport on which nothing has been called. -/
def init (l : Link) : Session C := { link := l, current := none, log := [] }

end Session

/-- The error of `exchange` for an answer that it has read to the end but that is no APDU answer. -/
def tooShort : BleError C := .comm "Response was too short"

/-- A call that has left nothing of an answer behind: it has succeeded, its frame did not reach the
    device as a whole, or it has read the answer and refused it. -/
def Record.Settled (rec : Record C) : Prop :=
  (∃ response, rec.result = .ok response) ∨ rec.framesAfter = rec.framesBefore ∨
    rec.result = .error tooShort

/-- If the call has succeeded, its frame was the one the device received, and the result is the
    device's answer to it. -/
def Record.Own (dev : FrameDevice) (rec : Record C) : Prop :=
  ∀ response, rec.result = .ok response →
    rec.framesAfter = rec.framesBefore ++ [C.serialize rec.command] ∧
      C.fromAnswer (dev rec.framesAfter).message = some response

/-! ## The invariant -/

/-- What holds of a call and the link, provided nothing of an earlier answer was left behind. -/
inductive CurrentInv (dev : FrameDevice) (command : APDUCommand) (framesBefore : List Bytes) :
    ExchangeState C → Link → Prop where
  | sending {apduData : Bytes} {mtuSize : Nat} {r' : Reassembler} {ps : List Bytes} {s : SendState C}
      {l : Link} : SendingTo apduData mtuSize r' ps s l →
      r'.frames = framesBefore ++ [C.serialize command] → l.reassembler.frames = framesBefore →
      l.notifications = [] → CurrentInv dev command framesBefore (.sending apduData mtuSize s) l
  | receiving {s : RecvState C} {l : Link} :
      ReceivingFrom (dev l.reassembler.frames).message [] s l →
      l.reassembler.frames = framesBefore ++ [C.serialize command] →
      CurrentInv dev command framesBefore (.receiving s) l
  -- the answer has been read to its end
  | answered {l : Link} : l.reassembler.frames = framesBefore ++ [C.serialize command] →
      l.notifications = [] →
      CurrentInv dev command framesBefore
        (.returned (answered C (dev l.reassembler.frames).message)) l
  -- the frame did not reach the device as a whole
  | notSent {err : BleError C} {l : Link} : l.reassembler.frames = framesBefore →
      l.notifications = [] → CurrentInv dev command framesBefore (.returned (.error err)) l
  -- the frame has reached the device, and its answer may be left behind
  | abandoned {err : BleError C} {l : Link} : l.reassembler.frames ≠ framesBefore →
      err ≠ tooShort → CurrentInv dev command framesBefore (.returned (.error err)) l

/-- A call starts on a queue from which nothing is left. -/
theorem currentInv_start {dev : FrameDevice} {l : Link} (hmtu : 6 ≤ l.getMtuSize)
    (hqueue : l.notifications = []) (command : APDUCommand) :
    CurrentInv dev command l.reassembler.frames
      (.start l.getMtuSize command : ExchangeState C) l := by
  by_cases hlen : (C.serialize command).length ≤ 65535
  · obtain ⟨s, hstart, hsend⟩ := @start_sendingTo C l command _ hmtu hlen
    rw [hstart]
    exact .sending hsend rfl rfl hqueue
  · rw [ExchangeState.start, SendFramed.start_of_gt (by omega)]
    exact .notSent rfl hqueue

theorem framesAfter_ne (framesBefore : List Bytes) (f : Bytes) :
    framesBefore ++ [f] ≠ framesBefore := by
  intro h
  have := congrArg List.length h
  simp at this

/-- A write, successful or not. -/
theorem currentInv_write {dev : FrameDevice} {command : APDUCommand} {framesBefore : List Bytes}
    {apduData : Bytes} {mtuSize : Nat} {r' : Reassembler} {ps : List Bytes} {s : SendState C}
    {l l' : Link} {e : Event C} {x' : ExchangeState C} (hsend : SendingTo apduData mtuSize r' ps s l)
    (hr' : r'.frames = framesBefore ++ [C.serialize command])
    (hbefore : l.reassembler.frames = framesBefore) (hqueue : l.notifications = [])
    (h : (ExchangeState.sending apduData mtuSize s).step dev l e = some (x', l')) :
    CurrentInv dev command framesBefore x' l' := by
  cases ps with
  | nil => exact absurd rfl hsend.2.ne_nil
  | cons p ps =>
      obtain ⟨-, hp, -⟩ := ofSend_of_writes hsend.1
      cases e with
      | writeOk =>
          cases ps with
          | nil =>
              obtain ⟨hstep, hreassembler, hnotifications⟩ := @step_writeOk_last C dev _ _ _ _ _ _ hsend
              rw [hstep] at h
              cases h
              rw [hqueue, List.nil_append, ← List.append_nil (FramedMessage.packets _ _),
                ← hreassembler] at hnotifications
              exact .receiving (receivingFrom_packets hnotifications) (by rw [hreassembler, hr'])
          | cons q ps =>
              obtain ⟨s', hstep, hsend', hframes, hnotifications⟩ :=
                @step_writeOk_more C dev _ _ _ _ _ _ _ _ hsend
              rw [hstep] at h
              cases h
              exact .sending hsend' hr' (hframes.trans hbefore) (hnotifications.trans hqueue)
      | writeErr delivered err =>
          have hreturned : ExchangeState.ofSend apduData mtuSize
              (SendFramed.onWrite apduCommandTag apduData mtuSize s (.error err)) =
                .returned (.error (.ble err)) := by
            cases s with
            | returned r => cases hp
            | panicked => cases hp
            | _ => rfl
          rw [ExchangeState.step, hp, Option.map_some, hreturned] at h
          cases h
          cases delivered with
          | false => exact .notSent hbefore hqueue
          -- the packet may have arrived all the same; if it was the last one, so has the frame
          | true =>
              rw [if_pos rfl]
              cases ps with
              | nil =>
                  obtain ⟨-, hreassembler, -⟩ := @step_writeOk_last C dev _ _ _ _ _ _ hsend
                  refine .abandoned ?_ (by simp [tooShort])
                  rw [hreassembler, hr']
                  exact framesAfter_ne _ _
              | cons q ps =>
                  obtain ⟨-, -, -, hframes, hnotifications⟩ :=
                    @step_writeOk_more C dev _ _ _ _ _ _ _ _ hsend
                  exact .notSent (hframes.trans hbefore) (hnotifications.trans hqueue)
      | _ => cases h

/-- A read that brings something else than the next packet of the answer ends the call, or skips a
    notification of another tag. -/
theorem currentInv_read_other {dev : FrameDevice} {command : APDUCommand} {framesBefore : List Bytes}
    {s : RecvState C} {l : Link} {read : Except (BleError C) Bytes}
    (hrecv : ReceivingFrom (dev l.reassembler.frames).message [] s l)
    (hframes : l.reassembler.frames = framesBefore ++ [C.serialize command])
    (hread : (∃ err, read = .error err ∧ err ≠ tooShort) ∨
      ∃ n, read = .ok n ∧ n.head? ≠ some apduCommandTag) :
    CurrentInv dev command framesBefore
      (.ofRecv (RecvFramed.onNotification apduCommandTag s read)) l := by
  have hne : l.reassembler.frames ≠ framesBefore := by
    rw [hframes]
    exact framesAfter_ne _ _
  obtain ⟨hawaiting, -⟩ := id hrecv
  cases s with
  | returned r => exact absurd hawaiting id
  | awaitingInitial =>
      rcases hread with ⟨err, rfl, herr⟩ | ⟨n, rfl, htag⟩
      · exact .abandoned hne herr
      · by_cases hn : n = []
        · subst hn
          exact .abandoned hne (by simp [tooShort])
        · rw [RecvFramed.onNotification_initial_foreign hn htag]
          exact .receiving hrecv hframes
  | awaitingSubsequent total buffer =>
      rcases hread with ⟨err, rfl, herr⟩ | ⟨n, rfl, htag⟩
      · exact .abandoned hne herr
      -- shorter than a header: the packet is refused before its tag is looked at
      · rcases Nat.lt_or_ge n.length 3 with hshort | hlen
        · rw [RecvFramed.onNotification_short hshort]
          exact .abandoned hne (by simp [tooShort])
        · rw [RecvFramed.onNotification_foreign hlen htag hawaiting]
          exact .receiving hrecv hframes

/-- Every await point keeps the invariant, however it ends. -/
theorem CurrentInv.step {dev : FrameDevice} {command : APDUCommand} {framesBefore : List Bytes}
    {x x' : ExchangeState C} {l l' : Link} {e : Event C} (h : CurrentInv dev command framesBefore x l)
    (hstep : x.step dev l e = some (x', l')) : CurrentInv dev command framesBefore x' l' := by
  cases h with
  | sending hsend hr' hbefore hqueue => exact currentInv_write hsend hr' hbefore hqueue hstep
  | @receiving s _ hrecv hframes =>
      cases e with
      | deliver =>
          obtain ⟨n, ns, x'', -, hstep', hx⟩ := @step_deliver C dev _ _ _ _ hrecv
          rw [hstep'] at hstep
          cases hstep
          rcases hx with ⟨s', rfl, hrecv'⟩ | ⟨rfl, rfl⟩
          · exact .receiving hrecv' hframes
          -- the read that completes the answer leaves the queue empty
          · exact @CurrentInv.answered C dev command framesBefore { l with notifications := [] }
              hframes rfl
      | foreign n =>
          rw [ExchangeState.step] at hstep
          split at hstep
          · cases hstep
          · rename_i htag
            cases hstep
            exact currentInv_read_other hrecv hframes (.inr ⟨n, rfl, htag⟩)
      | timeout =>
          cases hstep
          exact currentInv_read_other hrecv hframes (.inl ⟨_, rfl, by simp [tooShort]⟩)
      | ended =>
          cases hstep
          exact currentInv_read_other hrecv hframes (.inl ⟨_, rfl, by simp [tooShort]⟩)
      | _ => cases hstep
  | answered => cases hstep
  | notSent => cases hstep
  | abandoned => cases hstep

/-- The session, as long as the calls before have left nothing behind. -/
def CleanInv (dev : FrameDevice) (s : Session C) : Prop :=
  match s.current with
  | none => s.link.notifications = []
  | some cur => CurrentInv dev cur.command cur.framesBefore cur.x s.link

/-- A call returns its own answer when every earlier call has left nothing behind, and while that
    is so the session is clean. -/
structure SessionInv (dev : FrameDevice) (s : Session C) : Prop where
  mtu : 6 ≤ s.link.getMtuSize
  own : ∀ (i : Nat) (rec : Record C), s.log[i]? = some rec →
    (∀ (j : Nat) (earlier : Record C), j < i → s.log[j]? = some earlier → earlier.Settled) →
      rec.Own dev
  clean : (∀ rec ∈ s.log, rec.Settled) → CleanInv dev s

/-- What a finished call gives: its own answer, and a clean link if it has left nothing behind. -/
theorem CurrentInv.finish {dev : FrameDevice} {command : APDUCommand} {framesBefore : List Bytes}
    {r : Except (BleError C) C.APDUAnswer} {l : Link}
    (h : CurrentInv dev command framesBefore (.returned r) l) :
    Record.Own dev { command := command, framesBefore := framesBefore,
                     framesAfter := l.reassembler.frames, result := r } ∧
      (Record.Settled { command := command, framesBefore := framesBefore,
                        framesAfter := l.reassembler.frames, result := r } → l.notifications = []) := by
  generalize hx : (ExchangeState.returned r : ExchangeState C) = x at h
  cases h with
  | sending => cases hx
  | receiving => cases hx
  | answered hframes hqueue =>
      obtain rfl := ExchangeState.returned.inj hx
      refine ⟨fun response hresponse => ⟨hframes, ?_⟩, fun _ => hqueue⟩
      rw [NearLedger.answered] at hresponse
      cases hfrom : C.fromAnswer (dev l.reassembler.frames).message with
      | none => simp [hfrom] at hresponse
      | some response' =>
          rw [hfrom] at hresponse
          exact congrArg some (Except.ok.inj hresponse)
  | notSent hframes hqueue =>
      obtain rfl := ExchangeState.returned.inj hx
      exact ⟨(fun response hok => by cases hok), fun _ => hqueue⟩
  | abandoned hframes herr =>
      obtain rfl := ExchangeState.returned.inj hx
      refine ⟨(fun response hok => by cases hok), fun hsettled => ?_⟩
      -- an abandoned call meets none of the three conditions
      rcases hsettled with ⟨response, hok⟩ | hsame | hshort
      · cases hok
      · exact absurd hsame hframes
      · exact absurd (Except.error.inj hshort) herr

theorem SessionInv.step {dev : FrameDevice} {s s' : Session C} {e : SessionEvent C}
    (h : SessionInv dev s) (hstep : s.step dev e = some s') : SessionInv dev s' := by
  obtain ⟨link, current, log⟩ := s
  cases e with
  | call command =>
      cases current with
      | some cur => cases hstep
      | none =>
          cases hstep
          exact { mtu := h.mtu
                  own := h.own
                  clean := fun hlog => currentInv_start h.mtu (h.clean hlog) command }
  | transport e =>
      cases current with
      | none => cases hstep
      | some cur =>
          obtain ⟨⟨x', l'⟩, hx, heq⟩ := Option.map_eq_some_iff.mp hstep
          cases heq
          have hmtu : l'.getMtuSize = link.getMtuSize := by
            rw [Link.getMtuSize, ExchangeState.mtuSize_step hx, Link.getMtuSize]
          exact { mtu := by rw [hmtu]; exact h.mtu
                  own := h.own
                  clean := fun hlog => (h.clean hlog).step hx }
  | finish =>
      cases current with
      | none => cases hstep
      | some cur =>
          obtain ⟨command, framesBefore, x⟩ := cur
          cases x with
          | returned r =>
              cases hstep
              refine { mtu := h.mtu, own := ?_, clean := ?_ }
              · intro i rec hrec hearlier
                rcases Nat.lt_or_ge i log.length with hlt | hge
                · dsimp only at hrec hearlier
                  rw [List.getElem?_append_left hlt] at hrec
                  refine h.own i rec hrec fun j earlier hj hj' => hearlier j earlier hj ?_
                  rw [List.getElem?_append_left (by omega)]
                  exact hj'
                · dsimp only at hrec hearlier
                  rw [List.getElem?_append_right hge] at hrec
                  have hi : i - log.length = 0 := by
                    have := (List.getElem?_eq_some_iff.mp hrec).1
                    simpa using this
                  rw [hi] at hrec
                  cases hrec
                  have hlog : ∀ rec ∈ log, rec.Settled := by
                    intro rec hmem
                    obtain ⟨j, hj, rfl⟩ := List.mem_iff_getElem.mp hmem
                    refine hearlier j _ (by omega) ?_
                    rw [List.getElem?_append_left hj, List.getElem?_eq_getElem hj]
                  exact (CurrentInv.finish (h.clean hlog)).1
              · intro hlog
                have hbefore : ∀ rec ∈ log, rec.Settled := fun rec hrec =>
                  hlog rec (List.mem_append_left _ hrec)
                exact (CurrentInv.finish (h.clean hbefore)).2
                  (hlog _ (List.mem_append_right _ List.mem_cons_self))
          | _ => cases hstep

/-- A fresh transport satisfies the invariant. -/
theorem sessionInv_init (dev : FrameDevice) {l : Link} (hmtu : 6 ≤ l.getMtuSize)
    (hqueue : l.notifications = []) : SessionInv dev (Session.init l : Session C) where
  mtu := hmtu
  own i rec h := by simp [Session.init] at h
  clean _ := hqueue

theorem sessionInv_run {dev : FrameDevice} {s s' : Session C} {es : List (SessionEvent C)}
    (h : Run (ofFn (Session.step dev)) s es s') (hs : SessionInv dev s) : SessionInv dev s' :=
  h.invariant (fun _ _ _ hI hstep => hI.step hstep) hs

/-! ## What a caller may rely on -/

/-- The request and the reply of a call. -/
def Record.exchange (rec : Record C) : Sigma (BleReply C) := ⟨rec.command, rec.result⟩

/-- As long as every earlier call has left nothing behind, a call of `exchange` that succeeds
    returns the answer to its own command, and a signing call that succeeds returns the answer to
    its own last chunk. -/
theorem answers_attributed (dev : FrameDevice) {l : Link} (hmtu : StorableMtu C l.getMtuSize)
    (hqueue : l.notifications = []) {es : List (SessionEvent C)} {s : Session C}
    (hrun : Run (ofFn (Session.step dev)) (Session.init l) es s) :
    (∀ (i : Nat) (rec : Record C), s.log[i]? = some rec →
      (∀ (j : Nat) (earlier : Record C), j < i → s.log[j]? = some earlier → earlier.Settled) →
        rec.Own dev) ∧
    (∀ (payload : Bytes) (path : C.BIP32Path) (indices : List UInt32) (ins : UInt8) (sig : Bytes)
        (before calls after : List (Record C)), pathIndices path = some indices →
      s.log = before ++ calls ++ after → (∀ rec ∈ before, rec.Settled) →
      Call.Trace (BleApi.sendPayloadApdusBle payload path ins) (calls.map Record.exchange)
        (.ret (.ok sig)) →
      calls.map Record.command =
          signingCommands ins (indices.flatMap Bytes.u32ToBeBytes ++ payload) ∧
        ∃ rec response, calls.getLast? = some rec ∧
          rec.framesAfter = rec.framesBefore ++ [C.serialize rec.command] ∧
          C.fromAnswer (dev rec.framesAfter).message = some response ∧
          sig = C.answerData response) := by
  have hinv := sessionInv_run hrun (sessionInv_init dev hmtu.bounds.1 hqueue)
  refine ⟨hinv.own, ?_⟩
  intro payload path indices ins sig before calls after hpath hlog hbefore htrace
  rw [sendPayloadApdusBle_eq hpath] at htrace
  obtain ⟨hcmds, hall, e, response, hlast, hreply, hsig⟩ := trace_loopBle_ok htrace
  -- every call of the signing call has succeeded
  have hcalls : ∀ rec ∈ calls, rec.Settled := by
    intro rec hrec
    obtain ⟨response', hok⟩ := hall rec.exchange (List.mem_map_of_mem hrec)
    exact .inl ⟨response', hok⟩
  rw [List.getLast?_map] at hlast
  obtain ⟨rec, hrec, rfl⟩ := Option.map_eq_some_iff.mp hlast
  obtain ⟨init, rfl⟩ := List.getLast?_eq_some_iff.mp hrec
  have hindex : s.log[(before ++ init).length]? = some rec := by
    rw [hlog, ← List.append_assoc, List.append_assoc, List.getElem?_append_right (Nat.le_refl _)]
    simp
  have hown := hinv.own _ rec hindex fun j earlier hj hearlier => by
    rw [hlog, ← List.append_assoc, List.append_assoc, List.getElem?_append_left hj] at hearlier
    rcases List.mem_append.mp (List.mem_of_getElem? hearlier) with hmem | hmem
    · exact hbefore earlier hmem
    · exact hcalls earlier (List.mem_append_left _ hmem)
  obtain ⟨hframes, hanswer⟩ := hown response hreply
  refine ⟨?_, rec, response, hrec, hframes, hanswer, hsig⟩
  rw [List.map_map] at hcmds
  exact hcmds

/-- Behind a call whose write has failed. -/
theorem answers_attributed_counting :
    ∃ (es : List (SessionEvent Crates.reference)) (s : Session Crates.reference)
        (failed rec : Record Crates.reference),
      Run (ofFn (Session.step countingSigner.answer)) (Session.init (Link.opened 20)) es s ∧
      s.log = [failed, rec] ∧ failed.result = .error (.ble "Not connected") ∧
      rec.result = .ok ([1], 0x90, 0x00) ∧ rec.Own countingSigner.answer := by
  have hrun : Run (ofFn (Session.step countingSigner.answer))
      (Session.init (Link.opened 20) : Session Crates.reference)
      [.call ⟨0x80, 6, 0, 0, []⟩, .transport (.writeErr false "Not connected"), .finish,
        .call ⟨0x80, 6, 0, 0, []⟩, .transport .writeOk, .transport .deliver, .finish] _ :=
    run_of_exec rfl
  have hown := (answers_attributed countingSigner.answer
    (storableMtu_of_bounds (by decide) (by decide)) rfl hrun).1 1 _ rfl
    fun j earlier hj hearlier => by
      obtain rfl : j = 0 := by omega
      obtain rfl := Option.some.inj hearlier
      -- the frame of the first call has not reached the device
      exact .inr (.inl rfl)
  exact ⟨_, _, _, _, hrun, rfl, rfl, rfl, hown⟩

/-- After a timeout, the next call returns the answer to the command that timed out. -/
theorem stale_answer_returned :
    ∃ (es : List (SessionEvent Crates.reference)) (s : Session Crates.reference)
        (rec : Record Crates.reference) (response : Crates.reference.APDUAnswer),
      Run (ofFn (Session.step countingSigner.answer)) (Session.init (Link.opened 20)) es s ∧
      s.log[1]? = some rec ∧ rec.result = .ok response ∧
      Crates.reference.fromAnswer (countingSigner.answer rec.framesBefore).message = some response ∧
      ¬ rec.Own countingSigner.answer := by
  refine ⟨[.call ⟨0x80, 6, 0, 0, []⟩, .transport .writeOk, .transport .timeout, .finish,
    .call ⟨0x80, 6, 0, 0, []⟩, .transport .writeOk, .transport .deliver, .finish], _, _,
    ([1], 0x90, 0x00), run_of_exec rfl, rfl, rfl, rfl, ?_⟩
  intro hown
  obtain ⟨-, hanswer⟩ := hown _ rfl
  revert hanswer
  decide

end NearLedger
