/-
  NearLedger.Ble.AtMostOnce

  What the device has received from a call whose writes and reads may fail in
  any way, whatever the device puts into the notification stream.  Each exchange
  writes a beginning of the packets of its command, all of them unless a write
  has failed or the command fits no frame (`proceeds_run`).  A device that gives
  up a cut frame when the next one begins therefore receives each command as one
  whole frame or not at all (`delivered_at_most_once`), and never has a gap or a
  repetition in the chunks of a signing call (`signing_delivers_prefix`).
-/

import NearLedger.Ble.AwaitPoints
import NearLedger.Ble.Delivery

namespace NearLedger

open Interaction Slices Transition

variable {C : Crates}

/-! ## What exchanges leave at the device -/

/-- The packets of a command. -/
def commandPackets (C : Crates) (mtuSize : Nat) (command : APDUCommand) : List Bytes :=
  framePackets apduCommandTag (C.serialize command) mtuSize

theorem commandPackets_ne_nil (mtuSize : Nat) (command : APDUCommand) :
    commandPackets C mtuSize command ≠ [] :=
  List.cons_ne_nil _ _

/-- An exchange that has returned, and the packets of its command that have reached the device. -/
structure Attempted (C : Crates) where
  command : APDUCommand
  packets : List Bytes
  result : Except (BleError C) C.APDUAnswer

def Attempted.toRequest (s : Attempted C) : Sigma (BleReply C) := ⟨s.command, s.result⟩

/-- A command that fits no frame is refused.  Of any other one a beginning of the packets has
    reached the device, and all of them unless a write has failed. -/
def Attempted.Sound (mtuSize : Nat) (s : Attempted C) : Prop :=
  if 65535 < (C.serialize s.command).length then
    s.packets = [] ∧ s.result = .error (.comm "Payload too large for BLE framing (>65535 bytes)")
  else s.packets <+: commandPackets C mtuSize s.command ∧
    (s.packets ≠ commandPackets C mtuSize s.command → ∃ err, s.result = .error (.ble err))

/-- The frame of a command, where the packets are all of it. -/
def wholeFrames (C : Crates) (mtuSize : Nat) (command : APDUCommand) (packets : List Bytes) :
    List Bytes :=
  if packets = commandPackets C mtuSize command then [C.serialize command] else []

/-- The frames that the packets of the exchanges complete, in their order. -/
def deliveredFrames (mtuSize : Nat) (log : List (Attempted C)) : List Bytes :=
  log.flatMap fun s => wholeFrames C mtuSize s.command s.packets

/-- The packets of the exchanges. -/
def deliveredPackets (log : List (Attempted C)) : List Bytes := log.flatMap Attempted.packets

/-- What a caller that sees `Ok` knows. -/
theorem Attempted.Sound.packets_of_ok {mtuSize : Nat} {s : Attempted C} (h : s.Sound mtuSize)
    {response : C.APDUAnswer} (hok : s.result = .ok response) :
    (C.serialize s.command).length ≤ 65535 ∧ s.packets = commandPackets C mtuSize s.command := by
  rw [Sound] at h
  split at h
  · rw [hok] at h
    cases h.2
  · refine ⟨by omega, ?_⟩
    by_contra hnot
    obtain ⟨err, herr⟩ := h.2 hnot
    rw [hok] at herr
    cases herr

/-- An exchange that has left nothing but a beginning of its frame, if anything. -/
theorem Attempted.Sound.beginning {mtuSize : Nat} {s : Attempted C} (h : s.Sound mtuSize) :
    s.packets = [] ∨ (C.serialize s.command).length ≤ 65535 ∧
      s.packets <+: commandPackets C mtuSize s.command := by
  rw [Sound] at h
  split at h
  · exact .inl h.1
  · exact .inr ⟨by omega, h.1⟩

/-- A device that gives up cut frames has the frame of a command when it has all of its packets. -/
theorem Firmware.GivesUpCut.frames_read {F : Firmware} (hF : F.GivesUpCut) {mtuSize : Nat}
    (hmtu : 6 ≤ mtuSize) {command : APDUCommand} {packets : List Bytes}
    (h : packets = [] ∨ (C.serialize command).length ≤ 65535 ∧
      packets <+: commandPackets C mtuSize command) (s : F.State) :
    F.frames (F.read s packets) = F.frames s ++ wholeFrames C mtuSize command packets := by
  rw [wholeFrames]
  by_cases hwhole : packets = commandPackets C mtuSize command
  · rw [if_pos hwhole]
    rcases h with hnil | ⟨hlen, -⟩
    · exact absurd (hwhole.symm.trans hnil) (commandPackets_ne_nil mtuSize command)
    · rw [hwhole]
      exact hF.whole s (C.serialize command) mtuSize hmtu hlen
  · rw [if_neg hwhole, List.append_nil]
    rcases h with rfl | ⟨hlen, hpre⟩
    · rfl
    · exact hF.cut s (C.serialize command) mtuSize packets hmtu hlen hpre hwhole

/-- Such a device has the frames of the exchanges that have written all of their packets. -/
theorem Firmware.GivesUpCut.frames_deliveredPackets {F : Firmware} (hF : F.GivesUpCut)
    {mtuSize : Nat} (hmtu : 6 ≤ mtuSize) {log : List (Attempted C)}
    (hlog : ∀ a ∈ log, a.Sound mtuSize) :
    ∀ s : F.State, F.frames (F.read s (deliveredPackets log)) =
      F.frames s ++ deliveredFrames mtuSize log := by
  induction log with
  | nil => exact fun s => (List.append_nil _).symm
  | cons a log ih =>
      intro s
      have ha := (hlog a List.mem_cons_self).beginning
      have hrest := ih (fun b hb => hlog b (List.mem_cons_of_mem a hb)) (F.read s a.packets)
      rw [deliveredPackets, List.flatMap_cons, F.read_append, ← deliveredPackets, hrest,
        hF.frames_read hmtu ha, deliveredFrames, deliveredFrames, List.flatMap_cons,
        List.append_assoc]

/-- Such a device has whole frames as they come. -/
theorem Firmware.GivesUpCut.frames_framesOf {F : Firmware} (hF : F.GivesUpCut) {mtuSize : Nat}
    (hmtu : 6 ≤ mtuSize) {cmds : List APDUCommand}
    (hfits : ∀ c ∈ cmds, (C.serialize c).length ≤ 65535) :
    ∀ s : F.State, F.frames (F.read s (framesOf C mtuSize cmds)) =
      F.frames s ++ cmds.map C.serialize := by
  induction cmds with
  | nil => exact fun s => (List.append_nil _).symm
  | cons c cmds ih =>
      intro s
      have hfirst := hF.whole s (C.serialize c) mtuSize hmtu (hfits c List.mem_cons_self)
      rw [framesOf_cons, F.read_append, ih fun d hd => hfits d (List.mem_cons_of_mem c hd), hfirst,
        List.map_cons, List.append_assoc, List.singleton_append]

section

variable {α : Type} {mtuSize : Nat}

/-! ## Single calls -/

/-- A step of a call, whatever the device has put into the notification stream. -/
def AnyStep (s : Task C α × Link) (e : TaskEvent C) (s' : Task C α × Link) : Prop :=
  ∃ dev queue, s.1.step dev (s.2.withQueue queue) e = some s'

theorem anyStep_of_step {dev : FrameDevice} {s s' : Task C α × Link} {e : TaskEvent C}
    (h : s.1.step dev s.2 e = some s') : AnyStep s e s' :=
  ⟨dev, s.2.notifications, h⟩

/-- Where a call stands, against the program, when `w` was written before the exchange at hand. -/
inductive Progress (mtuSize : Nat) (w : List Bytes) : BleCall C α → Task C α → Link → Prop where
  | sending {command : APDUCommand} {k : Except (BleError C) C.APDUAnswer → BleCall C α}
      {written ps : List Bytes} {s : SendState C} {l : Link} :
      (C.serialize command).length ≤ 65535 → ps ≠ [] →
      SendFramed.Writes apduCommandTag (C.serialize command) mtuSize s ps (.ok ()) →
      written ++ ps = commandPackets C mtuSize command → l.written = w ++ written →
      Progress mtuSize w (.request command k)
        (.running (.sending (C.serialize command) mtuSize s) k) l
  | receiving {command : APDUCommand} {k : Except (BleError C) C.APDUAnswer → BleCall C α}
      {s : RecvState C} {l : Link} :
      (C.serialize command).length ≤ 65535 → s.Awaiting →
      l.written = w ++ commandPackets C mtuSize command →
      Progress mtuSize w (.request command k) (.running (.receiving s) k) l
  | returned {r : Except (BleError C) C.APDUAnswer}
      {k : Except (BleError C) C.APDUAnswer → BleCall C α} {l : Link} :
      l.written = w → Progress mtuSize w (k r) (.running (.returned r) k) l
  | finished {o : Outcome (NEARLedgerError C) α} {l : Link} :
      l.written = w → Progress mtuSize w (.ret o) (.finished o) l

/-- Exchanges have returned, and the call stands after them. -/
def Proceeds (mtuSize : Nat) (w : List Bytes) (q : BleCall C α) (t : Task C α) (l : Link) : Prop :=
  ∃ log q', Call.Trace q (log.map Attempted.toRequest) q' ∧ (∀ s ∈ log, s.Sound mtuSize) ∧
    Progress mtuSize (w ++ deliveredPackets log) q' t l

theorem Progress.proceeds {w : List Bytes} {q : BleCall C α} {t : Task C α} {l : Link}
    (h : Progress mtuSize w q t l) : Proceeds mtuSize w q t l :=
  ⟨[], q, .nil _, by simp, by simpa [deliveredPackets] using h⟩

/-- One exchange has returned. -/
theorem proceeds_returned {w : List Bytes} {s : Attempted C} (hs : s.Sound mtuSize)
    (k : Except (BleError C) C.APDUAnswer → BleCall C α) {l : Link}
    (hl : l.written = w ++ s.packets) :
    Proceeds mtuSize w (.request s.command k) (.running (.returned s.result) k) l := by
  refine ⟨[s], k s.result, .cons (.nil _), by simpa using hs, .returned ?_⟩
  rw [deliveredPackets, List.flatMap_singleton]
  exact hl

/-- A program up to its first await point. -/
theorem proceeds_ofCall (hmtu : 6 ≤ mtuSize) {w : List Bytes} (q : BleCall C α) {l : Link}
    (hl : l.written = w) : Proceeds mtuSize w q (Task.ofCall mtuSize q) l := by
  cases q with
  | ret o => exact (Progress.finished hl).proceeds
  | request command k =>
      rw [Task.ofCall]
      by_cases hlen : (C.serialize command).length ≤ 65535
      · obtain ⟨s, hstart, hwrites, -⟩ := @start_sendingTo C l command mtuSize hmtu hlen
        rw [hstart]
        exact (Progress.sending hlen (commandPackets_ne_nil mtuSize command) hwrites
          (List.nil_append _) (hl.trans (List.append_nil w).symm)).proceeds
      · have hlong : 65535 < (C.serialize command).length := by omega
        rw [start_of_too_long _ hlong]
        refine @proceeds_returned C α mtuSize w
          { command := command, packets := [], result := _ } ?_ k l ?_
        · rw [Attempted.Sound, if_pos hlong]
          exact ⟨rfl, rfl⟩
        · rw [hl]
          exact (List.append_nil _).symm

/-- A write that ends, whatever its result is. -/
theorem proceeds_write {dev : FrameDevice} {w : List Bytes} {command : APDUCommand}
    {k : Except (BleError C) C.APDUAnswer → BleCall C α} {written ps : List Bytes}
    {s : SendState C} {l l' : Link} {e : Event C} {x' : ExchangeState C}
    (hlen : (C.serialize command).length ≤ 65535) (hne : ps ≠ [])
    (hwrites : SendFramed.Writes apduCommandTag (C.serialize command) mtuSize s ps (.ok ()))
    (hsplit : written ++ ps = commandPackets C mtuSize command) (hl : l.written = w ++ written)
    (hstep : (ExchangeState.sending (C.serialize command) mtuSize s).step dev l e = some (x', l')) :
    Proceeds mtuSize w (.request command k) (.running x' k) l' := by
  obtain ⟨packet, ps, rfl⟩ := List.exists_cons_of_ne_nil hne
  have hsplit' : (written ++ [packet]) ++ ps = commandPackets C mtuSize command := by
    rw [List.append_assoc]
    exact hsplit
  have hreceived : (l.receive dev packet).written = w ++ (written ++ [packet]) := by
    rw [Link.written_receive, hl, List.append_assoc]
  rcases step_sending_cases hwrites hstep with
    ⟨-, rfl, ⟨hmore, s', rfl, hwrites'⟩ | ⟨rfl, rfl⟩⟩ | ⟨delivered, err, -, rfl, rfl⟩
  · exact (Progress.sending hlen hmore hwrites' hsplit' hreceived).proceeds
  · rw [List.append_nil] at hsplit'
    rw [hsplit'] at hreceived
    exact (Progress.receiving (s := .awaitingInitial) hlen trivial hreceived).proceeds
  -- the write has failed, and its packet has arrived or not
  · have hfailed : ∀ packets, packets <+: commandPackets C mtuSize command → Attempted.Sound mtuSize
        { command := command, packets := packets, result := .error (.ble err) } := by
      intro packets hpre
      rw [Attempted.Sound, if_neg (Nat.not_lt.mpr hlen)]
      exact ⟨hpre, fun _ => ⟨err, rfl⟩⟩
    cases delivered with
    | false =>
        exact @proceeds_returned C α mtuSize w
          { command := command, packets := written, result := .error (.ble err) }
          (hfailed written ⟨_, hsplit⟩) k l hl
    | true =>
        exact @proceeds_returned C α mtuSize w
          { command := command, packets := written ++ [packet], result := .error (.ble err) }
          (hfailed _ ⟨_, hsplit'⟩) k _ hreceived

/-- One step of a call, whatever it is. -/
theorem Progress.step {dev : FrameDevice} (hmtu : 6 ≤ mtuSize) {w : List Bytes} {q : BleCall C α}
    {t t' : Task C α} {l l' : Link} {e : TaskEvent C} (h : Progress mtuSize w q t l)
    (hl : l.getMtuSize = mtuSize) (hstep : t.step dev l e = some (t', l')) :
    Proceeds mtuSize w q t' l' := by
  cases h with
  | sending hlen hne hwrites hsplit hwritten =>
      cases e with
      | resume => cases hstep
      | transport e =>
          obtain ⟨⟨x', l''⟩, hx, heq⟩ := Option.map_eq_some_iff.mp hstep
          cases heq
          exact proceeds_write hlen hne hwrites hsplit hwritten hx
  | @receiving command k s _ hlen hs hwritten =>
      cases e with
      | resume => cases hstep
      | transport e =>
          obtain ⟨⟨x', l''⟩, hx, heq⟩ := Option.map_eq_some_iff.mp hstep
          cases heq
          obtain ⟨hsame, hnext⟩ := step_receiving_cases hs hx
          have hwritten' : l''.written = w ++ commandPackets C mtuSize command :=
            hsame.trans hwritten
          rcases hnext with ⟨s', rfl, hs'⟩ | ⟨r, rfl⟩
          · exact (Progress.receiving hlen hs' hwritten').proceeds
          · refine @proceeds_returned C α mtuSize w
              { command := command, packets := _, result := r } ?_ k _ hwritten'
            rw [Attempted.Sound, if_neg (Nat.not_lt.mpr hlen)]
            exact ⟨List.prefix_refl _, fun h => absurd rfl h⟩
  | @returned r k _ hwritten =>
      cases e with
      | transport e => cases hstep
      | resume =>
          cases hstep
          rw [hl]
          exact proceeds_ofCall hmtu (k r) hwritten
  | finished _ => cases e <;> cases hstep

/-- What the notification stream holds does not matter. -/
theorem Progress.withQueue {w : List Bytes} {q : BleCall C α} {t : Task C α} {l : Link}
    (h : Progress mtuSize w q t l) (queue : List Bytes) :
    Progress mtuSize w q t (l.withQueue queue) := by
  cases h with
  | sending hlen hne hwrites hsplit hwritten => exact .sending hlen hne hwrites hsplit hwritten
  | receiving hlen hs hwritten => exact .receiving hlen hs hwritten
  | returned hwritten => exact .returned hwritten
  | finished hwritten => exact .finished hwritten

/-- Every run of a call. -/
theorem proceeds_run (hmtu : 6 ≤ mtuSize) (p : BleCall C α) {l l' : Link} {t : Task C α}
    {es : List (TaskEvent C)} (hl : l.getMtuSize = mtuSize)
    (hrun : Run AnyStep (Task.ofCall mtuSize p, l) es (t, l')) :
    Proceeds mtuSize l.written p t l' := by
  refine (hrun.invariant (I := fun s => s.2.getMtuSize = mtuSize ∧
    Proceeds mtuSize l.written p s.1 s.2) ?_ ⟨hl, proceeds_ofCall hmtu p rfl⟩).2
  rintro ⟨t₁, l₁⟩ e ⟨t₂, l₂⟩ ⟨hl₁, log, q, htrace, hsound, hprogress⟩ ⟨dev, queue, hstep⟩
  obtain ⟨log', q', htrace', hsound', hprogress'⟩ :=
    (hprogress.withQueue queue).step hmtu hl₁ hstep
  refine ⟨?_, log ++ log', q', ?_, ?_, ?_⟩
  · rw [Link.getMtuSize, Task.mtuSize_step hstep]
    exact hl₁
  · rw [List.map_append]
    exact htrace.append htrace'
  · intro s hs
    rcases List.mem_append.mp hs with hs | hs
    · exact hsound s hs
    · exact hsound' s hs
  · rw [deliveredPackets, List.flatMap_append, ← List.append_assoc]
    exact hprogress'

/-- What the exchange under way has written: nothing, or a beginning of its packets. -/
theorem Progress.current {w : List Bytes} {q : BleCall C α} {t : Task C α} {l : Link}
    (h : Progress mtuSize w q t l) :
    ∃ current, l.written = w ++ current ∧
      (current = [] ∨ ∃ command k, q = .request command k ∧
        (C.serialize command).length ≤ 65535 ∧ current <+: commandPackets C mtuSize command) ∧
      ∀ o, t = .finished o → q = .ret o ∧ current = [] := by
  cases h with
  | sending hlen _ _ hsplit hwritten =>
      exact ⟨_, hwritten, .inr ⟨_, _, rfl, hlen, _, hsplit⟩, by simp⟩
  | receiving hlen _ hwritten =>
      exact ⟨_, hwritten, .inr ⟨_, _, rfl, hlen, List.prefix_refl _⟩, by simp⟩
  | returned hwritten => exact ⟨[], hwritten.trans (List.append_nil w).symm, .inl rfl, by simp⟩
  | finished hwritten =>
      refine ⟨[], hwritten.trans (List.append_nil w).symm, .inl rfl, fun o heq => ?_⟩
      cases heq
      exact ⟨rfl, rfl⟩

end

/-- Whatever the environment does and whatever the device answers, each exchange of a call writes a
    beginning of the packets of its command, in the order of the exchanges.  An exchange that
    returns `Ok` has written them all, and of those that fail only a failed write and a command that
    fits no frame leave some out.  So on every device that gives up a cut frame when the next one
    begins, each exchange delivers its command once or not at all. -/
theorem delivered_at_most_once {α : Type} (p : BleCall C α) {l l' : Link} {t : Task C α}
    {es : List (TaskEvent C)} (hmtu : 6 ≤ l.getMtuSize)
    (hrun : Run AnyStep (Task.ofCall l.getMtuSize p, l) es (t, l')) :
    ∃ log q current, Call.Trace p (log.map Attempted.toRequest) q ∧
      (∀ s ∈ log, s.Sound l.getMtuSize) ∧
      l'.written = l.written ++ deliveredPackets log ++ current ∧
      (current = [] ∨ ∃ command k, q = .request command k ∧
        current <+: commandPackets C l.getMtuSize command) ∧
      (∀ o, t = .finished o → q = .ret o ∧ current = []) ∧
      ∀ F : Firmware, F.GivesUpCut → ∀ s, ∃ last,
        F.frames (F.read s l'.written) =
          F.frames (F.read s l.written) ++ deliveredFrames l.getMtuSize log ++ last ∧
        (last = [] ∨ ∃ command k, q = .request command k ∧ last = [C.serialize command] ∧
          current = commandPackets C l.getMtuSize command) := by
  obtain ⟨log, q, htrace, hsound, hprogress⟩ := proceeds_run hmtu p rfl hrun
  obtain ⟨current, hwritten, hcurrent, hfinished⟩ := hprogress.current
  refine ⟨log, q, current, htrace, hsound, hwritten, ?_, hfinished, fun F hF s => ?_⟩
  · rcases hcurrent with hnone | ⟨command, k, hq, -, hpre⟩
    · exact .inl hnone
    · exact .inr ⟨command, k, hq, hpre⟩
  · have hlog : F.frames (F.read s (l.written ++ deliveredPackets log)) =
        F.frames (F.read s l.written) ++ deliveredFrames l.getMtuSize log := by
      rw [F.read_append, hF.frames_deliveredPackets hmtu hsound]
    rw [hwritten, F.read_append, ← hlog]
    rcases hcurrent with rfl | ⟨command, k, hq, hlen, hpre⟩
    · exact ⟨[], (List.append_nil _).symm, .inl rfl⟩
    · refine ⟨wholeFrames C l.getMtuSize command current,
        hF.frames_read hmtu (.inr ⟨hlen, hpre⟩) _, ?_⟩
      rw [wholeFrames]
      by_cases hwhole : current = commandPackets C l.getMtuSize command
      · rw [if_pos hwhole]
        exact .inr ⟨command, k, hq, rfl, hwhole⟩
      · rw [if_neg hwhole]
        exact .inl rfl

/-- Two commands, the second one whatever becomes of the first. -/
def publicKeyThenVersion : BleCall Crates.reference Bytes := do
  let _ ← BleApi.exchange { cla := cla, ins := insGetPublicKey, p1 := 0, p2 := 0,
                            data := [0, 0, 0, 44, 0, 0, 0, 45, 0, 0, 0, 46] }
  BleApi.getVersionBle

/-- The first command is cut off behind its first packet by a failed write, and the second one is
    delivered. -/
theorem delivered_at_most_once_cut :
    ∃ (t : Task Crates.reference Bytes) (l' : Link) (log : List (Attempted Crates.reference)),
      Run AnyStep (Task.ofCall 20 publicKeyThenVersion, Link.opened 20)
        [.transport .writeOk, .transport (.writeErr false "Disconnected"), .resume,
          .transport .writeOk, .transport .deliver, .resume] (t, l') ∧
      t = .finished (.ok [1]) ∧ (∀ s ∈ log, s.Sound 20) ∧ l'.written = deliveredPackets log ∧
      (reassemble l'.written).frames = deliveredFrames 20 log := by
  have hsteps : Run (ofFn fun s e => s.1.step countingSigner.answer s.2 e)
      (Task.ofCall 20 publicKeyThenVersion, Link.opened 20)
      [.transport .writeOk, .transport (.writeErr false "Disconnected"), .resume,
        .transport .writeOk, .transport .deliver, .resume] (_, _) :=
    run_of_exec rfl
  have hrun := hsteps.mono fun _ _ _ => anyStep_of_step
  obtain ⟨log, q, current, -, hsound, hwritten, -, hfinished, hdevice⟩ :=
    delivered_at_most_once publicKeyThenVersion (l := Link.opened 20) (by decide) hrun
  obtain ⟨hq, rfl⟩ := hfinished _ rfl
  obtain ⟨last, hframes, hlast⟩ := hdevice reassemblerFirmware givesUpCut_reassembler .empty
  have hnone : last = [] := by
    rcases hlast with hnone | ⟨command, k, hrequest, -⟩
    · exact hnone
    · rw [hq] at hrequest
      cases hrequest
  rw [hnone, List.append_nil] at hframes
  rw [List.append_nil] at hwritten
  exact ⟨_, _, log, hrun, rfl, hsound, hwritten, hframes⟩

/-! ## Signing calls -/

/-- A beginning of the packets of the command behind `stream`, but not all of them. -/
def CutOff (C : Crates) (mtuSize : Nat) (commands stream : List APDUCommand) (cut : List Bytes) :
    Prop :=
  cut = [] ∨ ∃ command, commands[stream.length]? = some command ∧
    (C.serialize command).length ≤ 65535 ∧ cut <+: commandPackets C mtuSize command ∧
    cut ≠ commandPackets C mtuSize command

/-- A signing call has written the first commands of its stream, and may have cut the next one off;
    it has written all of the stream when it returns `Ok`, and nothing of the next command when it
    goes on with it. -/
structure Written (mtuSize : Nat) (commands stream : List APDUCommand) (cut : List Bytes)
    (q : BleCall C Bytes) : Prop where
  isPrefix : stream <+: commands
  fits : ∀ c ∈ stream, (C.serialize c).length ≤ 65535
  cutOff : CutOff C mtuSize commands stream cut
  next : ∀ command k, q = .request command k → cut = [] ∧ commands[stream.length]? = some command
  ok : ∀ sig, q = .ret (.ok sig) → stream = commands ∧ cut = []

/-- Where the loop ends behind an exchange, all that was written are the packets of that one. -/
theorem written_ended {mtuSize : Nat} {s : Attempted C} (hs : s.Sound mtuSize)
    (rest : List APDUCommand) (err : NEARLedgerError C) :
    ∃ stream cut, s.packets = framesOf C mtuSize stream ++ cut ∧
      Written mtuSize (s.command :: rest) stream cut (.ret (.err err)) := by
  rcases hs.beginning with hnone | ⟨hlen, hpre⟩
  · exact ⟨[], [], hnone, List.nil_prefix, by simp, .inl rfl, by simp, by simp⟩
  · by_cases hwhole : s.packets = commandPackets C mtuSize s.command
    · refine ⟨[s.command], [], ?_, ⟨rest, rfl⟩, ?_, .inl rfl, by simp, by simp⟩
      · rw [List.append_nil, framesOf_singleton]
        exact hwhole
      · intro c hc
        obtain rfl := List.mem_singleton.mp hc
        exact hlen
    · exact ⟨[], s.packets, rfl, List.nil_prefix, by simp, .inr ⟨_, rfl, hlen, hpre, hwhole⟩,
        by simp, by simp⟩

/-- A command that was written as a whole, in front of others. -/
theorem Written.cons {mtuSize : Nat} {command : APDUCommand} {commands stream : List APDUCommand}
    {cut : List Bytes} {q : BleCall C Bytes} (hlen : (C.serialize command).length ≤ 65535)
    (h : Written mtuSize commands stream cut q) :
    Written mtuSize (command :: commands) (command :: stream) cut q where
  isPrefix := List.cons_prefix_cons.mpr ⟨rfl, h.isPrefix⟩
  fits c hc := by
    rcases List.mem_cons.mp hc with rfl | hc
    · exact hlen
    · exact h.fits c hc
  cutOff := h.cutOff
  next := h.next
  ok sig hsig := by
    obtain ⟨rfl, hcut⟩ := h.ok sig hsig
    exact ⟨rfl, hcut⟩

/-- What the exchanges of a signing call have written. -/
theorem written_loopBle {mtuSize : Nat} {ins : UInt8} :
    ∀ {cs : List Bytes} {log : List (Attempted C)} {q : BleCall C Bytes},
      Call.Trace (loopBle ins cs) (log.map Attempted.toRequest) q →
      (∀ s ∈ log, s.Sound mtuSize) →
      ∃ stream cut, deliveredPackets log = framesOf C mtuSize stream ++ cut ∧
        Written mtuSize (commandsOf ins cs) stream cut q := by
  intro cs
  induction cs with
  | nil =>
      intro log q htrace _
      obtain ⟨hlog, rfl⟩ := Call.trace_ret_iff.mp htrace
      obtain rfl := List.map_eq_nil_iff.mp hlog
      exact ⟨[], [], rfl, List.prefix_refl _, by simp, .inl rfl, by simp, by simp⟩
  | cons chunk rest ih =>
      intro log q htrace hsound
      cases log with
      | nil =>
          cases htrace
          refine ⟨[], [], rfl, List.nil_prefix, by simp, .inl rfl, ?_, ?_⟩
          · intro command k heq
            cases heq
            exact ⟨rfl, rfl⟩
          · intro sig heq
            cases heq
      | cons s log =>
          obtain ⟨command, packets, result⟩ := s
          have hs := hsound _ List.mem_cons_self
          rw [List.map_cons, Attempted.toRequest, loopBle] at htrace
          rw [deliveredPackets, List.flatMap_cons, ← deliveredPackets]
          cases htrace with
          | cons htail =>
              cases result with
              | error err =>
                  obtain ⟨hlog, rfl⟩ := Call.trace_ret_iff.mp htail
                  obtain rfl := List.map_eq_nil_iff.mp hlog
                  rw [deliveredPackets, List.flatMap_nil, List.append_nil]
                  exact written_ended hs (commandsOf ins rest) _
              | ok response =>
                  rw [afterChunkBle] at htail
                  by_cases hok : C.retcode response = returnCodeOk
                  · obtain ⟨hlen, hwhole⟩ := hs.packets_of_ok rfl
                    rw [if_pos hok] at htail
                    have hnext : ∃ stream cut, deliveredPackets log =
                        framesOf C mtuSize stream ++ cut ∧
                        Written mtuSize (commandsOf ins rest) stream cut q := by
                      cases rest with
                      | nil =>
                          obtain ⟨hlog, rfl⟩ := Call.trace_ret_iff.mp htail
                          obtain rfl := List.map_eq_nil_iff.mp hlog
                          exact ⟨[], [], rfl, List.prefix_refl _, by simp, .inl rfl, by simp,
                            fun _ _ => ⟨rfl, rfl⟩⟩
                      | cons chunk' rest =>
                          exact ih htail fun s hs => hsound s (List.mem_cons_of_mem _ hs)
                    obtain ⟨stream, cut, hpackets, hwritten⟩ := hnext
                    refine ⟨_ :: stream, cut, ?_, hwritten.cons hlen⟩
                    rw [hpackets, framesOf_cons, List.append_assoc]
                    exact congrArg (· ++ _) hwhole
                  · rw [if_neg hok] at htail
                    obtain ⟨hlog, rfl⟩ := Call.trace_ret_iff.mp htail
                    obtain rfl := List.map_eq_nil_iff.mp hlog
                    rw [deliveredPackets, List.flatMap_nil, List.append_nil]
                    exact written_ended hs (commandsOf ins rest) _

/-- A run of the loop over the chunks has written whole frames of a beginning of the command stream,
    and may have cut off the frame behind them. -/
theorem run_loopBle_written {ins : UInt8} {cs : List Bytes} {l l' : Link} {t : Task C Bytes}
    {es : List (TaskEvent C)} (hmtu : 6 ≤ l.getMtuSize)
    (hrun : Run AnyStep (Task.ofCall l.getMtuSize (loopBle ins cs), l) es (t, l')) :
    ∃ stream cut, l'.written = l.written ++ (framesOf C l.getMtuSize stream ++ cut) ∧
      stream <+: commandsOf ins cs ∧ (∀ c ∈ stream, (C.serialize c).length ≤ 65535) ∧
      CutOff C l.getMtuSize (commandsOf ins cs) stream cut ∧
      ∀ sig, t = .finished (.ok sig) → stream = commandsOf ins cs ∧ cut = [] := by
  obtain ⟨log, q, htrace, hsound, hprogress⟩ := proceeds_run hmtu (loopBle ins cs) rfl hrun
  obtain ⟨stream, cut, hpackets, hstream⟩ := written_loopBle htrace hsound
  obtain ⟨current, hwritten, hcurrent, hfinished⟩ := hprogress.current
  rw [hpackets, List.append_assoc, List.append_assoc] at hwritten
  rcases hcurrent with rfl | ⟨command, k, rfl, hlen, hpre⟩
  · rw [List.append_nil] at hwritten
    refine ⟨stream, cut, hwritten, hstream.isPrefix, hstream.fits, hstream.cutOff, ?_⟩
    intro sig hsig
    exact hstream.ok sig (hfinished _ hsig).1
  -- the exchange under way is that of the command behind `stream`
  · obtain ⟨rfl, hnext⟩ := hstream.next command k rfl
    have hrunning : ∀ sig, t ≠ .finished (.ok sig) := by
      intro sig hsig
      cases (hfinished _ hsig).1
    rw [List.nil_append] at hwritten
    by_cases hwhole : current = commandPackets C l.getMtuSize command
    · refine ⟨stream ++ [command], [], ?_, ?_, ?_, .inl rfl, fun sig h => absurd h (hrunning sig)⟩
      · rw [hwritten, hwhole, framesOf_append, framesOf_singleton, List.append_nil]
        rfl
      · obtain ⟨rest, hrest⟩ := hstream.isPrefix
        rw [← hrest, List.getElem?_append_right (Nat.le_refl _), Nat.sub_self] at hnext
        cases rest with
        | nil => cases hnext
        | cons c rest =>
            obtain rfl := Option.some.inj hnext
            exact ⟨rest, by rw [List.append_assoc]; exact hrest⟩
      · intro c hc
        rcases List.mem_append.mp hc with hc | hc
        · exact hstream.fits c hc
        · obtain rfl := List.mem_singleton.mp hc
          exact hlen
    · exact ⟨stream, current, hwritten, hstream.isPrefix, hstream.fits,
        .inr ⟨command, hnext, hlen, hpre, hwhole⟩, fun sig h => absurd h (hrunning sig)⟩

/-- A device that gives up cut frames reads whole frames and a cut one as the whole frames. -/
theorem Firmware.GivesUpCut.frames_written {F : Firmware} (hF : F.GivesUpCut) {mtuSize : Nat}
    (hmtu : 6 ≤ mtuSize) {commands stream : List APDUCommand} {cut : List Bytes}
    (hfits : ∀ c ∈ stream, (C.serialize c).length ≤ 65535)
    (hcut : CutOff C mtuSize commands stream cut) (s : F.State) :
    F.frames (F.read s (framesOf C mtuSize stream ++ cut)) =
      F.frames s ++ stream.map C.serialize := by
  rw [F.read_append]
  rcases hcut with rfl | ⟨command, -, hlen, hpre, hne⟩
  · exact hF.frames_framesOf hmtu hfits s
  · rw [hF.cut _ (C.serialize command) mtuSize cut hmtu hlen hpre hne,
      hF.frames_framesOf hmtu hfits s]

/-- Whatever happens to a signing call, the device receives from it a beginning of the command
    stream of the request, each command once and none left out, and all of the stream when the call
    returns `Ok`.  The call stops at its first failed write, so that it never writes behind a frame
    that it has cut off itself; that the device gives up a cut frame matters only where the link
    begins with one. -/
theorem signing_delivers_prefix (hP : C.PathDoc) (dev : FrameDevice) (payload : Bytes)
    (path : C.BIP32Path) (ins : UInt8) {l l' : Link} {t : Task C Bytes} {es : List (TaskEvent C)}
    (hmtu : 6 ≤ l.getMtuSize)
    (hrun : Run (ofFn fun s e => s.1.step dev s.2 e)
      (Task.ofCall l.getMtuSize (BleApi.sendPayloadApdusBle payload path ins), l) es (t, l')) :
    ∃ bytes stream, hdPathToBytes path = some bytes ∧
      stream <+: signingCommands ins (bytes ++ payload) ∧
      l'.reassembler.frames = l.reassembler.frames ++ stream.map C.serialize ∧
      ∀ sig, t = .finished (.ok sig) → stream = signingCommands ins (bytes ++ payload) := by
  obtain ⟨indices, hpath⟩ := pathIndices_eq_some hP path
  rw [sendPayloadApdusBle_eq hpath] at hrun
  obtain ⟨stream, cut, hwritten, hstream, hfits, hcut, hok⟩ :=
    run_loopBle_written hmtu (hrun.mono fun _ _ _ => anyStep_of_step)
  have hframes := givesUpCut_reassembler.frames_written hmtu hfits hcut l.reassembler
  refine ⟨_, stream, hdPathToBytes_eq_some hpath, hstream, ?_, fun sig hsig => (hok sig hsig).1⟩
  rw [Link.reassembler, hwritten, reassemble, List.foldl_append]
  exact hframes

/-- A request whose only chunk reaches the device before the call times out. -/
theorem signing_delivers_prefix_counting :
    ∃ (t : Task Crates.reference Bytes) (l' : Link) (stream : List APDUCommand),
      Run (ofFn fun s e => s.1.step countingSigner.answer s.2 e)
        (Task.ofCall 20 (BleApi.sendPayloadApdusBle [7, 8] (Crates.pathOne 44) insSignTransaction),
          Link.opened 20) [.transport .writeOk, .transport .timeout, .resume] (t, l') ∧
      stream <+: signingCommands insSignTransaction [0, 0, 0, 44, 7, 8] ∧
      l'.reassembler.frames = stream.map Crates.reference.serialize := by
  have hrun : Run (ofFn fun s e => s.1.step countingSigner.answer s.2 e)
      (Task.ofCall 20 (BleApi.sendPayloadApdusBle [7, 8] (Crates.pathOne 44) insSignTransaction),
        Link.opened 20) [.transport .writeOk, .transport .timeout, .resume] (_, _) :=
    run_of_exec rfl
  obtain ⟨bytes, stream, hbytes, hstream, hframes, -⟩ :=
    signing_delivers_prefix Crates.reference_pathDoc countingSigner.answer [7, 8]
      (Crates.pathOne 44) insSignTransaction (l := Link.opened 20) (by decide) hrun
  obtain rfl : bytes = [0, 0, 0, 44] := Option.some.inj (hbytes.symm.trans (by decide))
  exact ⟨_, _, stream, hrun, hstream, hframes⟩

end NearLedger
