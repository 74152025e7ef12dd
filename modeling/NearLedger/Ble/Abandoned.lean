/-
  NearLedger.Ble.Abandoned

  Signing calls whose futures may be dropped.  A caller that puts a timeout of
  its own around a call leaves it at whichever await point it has reached, in
  the middle of a frame or with the answer still to come, and then makes the
  next call on the same transport.  What has been dropped in the middle of a
  write counts as written or as not begun.

  The transport has no packet that ends a cut frame, so what a device makes of
  the next frame is up to its firmware.  What is written holds for every device;
  the frames that result are those of devices that give up the cut one.
-/

import NearLedger.Ble.AtMostOnce
import NearLedger.Signing.Calls

namespace NearLedger

open Interaction Slices Transition

variable {C : Crates}

/-- The commands of a request, none where its payload cannot be serialized. -/
def Request.commands (request : Request C) : List APDUCommand :=
  match request.data with
  | some data => signingCommands request.ins data
  | none => []

/-- Signing calls made one after another, each with the state in which it has ended or has been
    dropped, whatever the device puts into the notification stream. -/
inductive InTurn : Link → List (Request C × Task C Bytes) → Link → Prop where
  | nil (l : Link) : InTurn l [] l
  | cons {request : Request C} {t : Task C Bytes} {calls : List (Request C × Task C Bytes)}
      {es : List (TaskEvent C)} {l l₁ l₂ : Link} :
      Run AnyStep (Task.ofCall l.getMtuSize request.ble, l) es (t, l₁) →
      InTurn l₁ calls l₂ → InTurn l ((request, t) :: calls) l₂

/-- What a call has written: the commands of which it has written the whole frames, and the packets
    of a frame that it has cut off. -/
structure Leaving where
  stream : List APDUCommand
  cut : List Bytes

def Leaving.packets (C : Crates) (mtuSize : Nat) (x : Leaving) : List Bytes :=
  framesOf C mtuSize x.stream ++ x.cut

/-- A call has written a beginning of the commands of its request, all of them if it has returned
    `Ok`, and the last one only after all the others. -/
structure Delivered (mtuSize : Nat) (call : Request C × Task C Bytes) (x : Leaving) : Prop where
  isPrefix : x.stream <+: call.1.commands
  fits : ∀ c ∈ x.stream, (C.serialize c).length ≤ 65535
  cutOff : CutOff C mtuSize call.1.commands x.stream x.cut
  whole_of_ok : ∀ sig, call.2 = .finished (.ok sig) → x.stream = call.1.commands ∧ x.cut = []
  whole_of_last : (∃ command ∈ x.stream, command.p1 = p1SignNormalLastChunk) →
    x.stream = call.1.commands

/-- A call that has ended does nothing more. -/
theorem eq_of_run_finished {α : Type} {o : Outcome (NEARLedgerError C) α} {t : Task C α}
    {es : List (TaskEvent C)} {l l' : Link}
    (h : Run AnyStep (Task.finished o, l) es (t, l')) : t = .finished o ∧ l' = l := by
  cases h with
  | nil => exact ⟨rfl, rfl⟩
  | @cons _ _ _ e _ hstep _ =>
      obtain ⟨dev, queue, hstep⟩ := hstep
      cases e <;> cases hstep

/-- The MTU stays what it is. -/
theorem getMtuSize_run {α : Type} {t t' : Task C α} {es : List (TaskEvent C)} {l l' : Link}
    (h : Run AnyStep (t, l) es (t', l')) : l'.getMtuSize = l.getMtuSize := by
  refine h.invariant (I := fun s => s.2.getMtuSize = l.getMtuSize) ?_ rfl
  rintro ⟨t₁, l₁⟩ e ⟨t₂, l₂⟩ hl₁ ⟨dev, queue, hstep⟩
  rw [← hl₁, Link.getMtuSize, Task.mtuSize_step hstep]
  rfl

/-- A call, wherever it is left. -/
theorem delivered_of_run (hP : C.PathDoc) {request : Request C} {t : Task C Bytes}
    {es : List (TaskEvent C)} {l l' : Link} (hmtu : 6 ≤ l.getMtuSize)
    (hrun : Run AnyStep (Task.ofCall l.getMtuSize request.ble, l) es (t, l')) :
    ∃ x : Leaving, Delivered l.getMtuSize (request, t) x ∧
      l'.written = l.written ++ x.packets C l.getMtuSize := by
  obtain ⟨indices, hpath⟩ := pathIndices_eq_some hP request.path
  rw [Request.ble_eq] at hrun
  cases hpayload : request.payload with
  | none =>
      have hcommands : request.commands = [] := by
        rw [Request.commands, Request.data, hpayload]
        rfl
      rw [hpayload] at hrun
      obtain ⟨-, rfl⟩ := eq_of_run_finished hrun
      have hdelivered : Delivered l'.getMtuSize (request, t) ⟨[], []⟩ :=
        { isPrefix := List.nil_prefix
          fits := by simp
          cutOff := .inl rfl
          whole_of_ok := fun _ _ => ⟨hcommands.symm, rfl⟩
          whole_of_last := fun _ => hcommands.symm }
      exact ⟨_, hdelivered, (List.append_nil _).symm⟩
  | some payload =>
      have hcommands : request.commands = commandsOf request.ins
          (chunks chunkSize (indices.flatMap Bytes.u32ToBeBytes ++ payload)) := by
        rw [Request.commands, Request.data_eq_some hpayload hpath]
        rfl
      rw [hpayload] at hrun
      change Run _ (Task.ofCall _ (BleApi.sendPayloadApdusBle payload request.path request.ins), l)
        es (t, l') at hrun
      rw [sendPayloadApdusBle_eq hpath] at hrun
      obtain ⟨stream, cut, hwritten, hstream, hfits, hcut, hok⟩ := run_loopBle_written hmtu hrun
      have hlast : (∃ command ∈ stream, command.p1 = p1SignNormalLastChunk) →
          stream = request.commands := by
        intro h
        rw [hcommands]
        exact eq_of_prefix_of_last hstream h
      rw [← hcommands] at hstream hcut hok
      exact ⟨⟨stream, cut⟩, ⟨hstream, hfits, hcut, hok, hlast⟩, hwritten⟩

/-- Whatever happens to the calls and wherever they are left, each in its turn writes whole frames
    of a beginning of the commands of its request, without a gap or a repetition, and perhaps a
    beginning of the next one: all of them if it returns `Ok`, and the last one only after all the
    others of the same call.  These commands are what a device receives, if it gives up a cut frame
    when the next one begins. -/
theorem abandoned_signing_calls (hP : C.PathDoc) {calls : List (Request C × Task C Bytes)}
    {l l' : Link} (hmtu : 6 ≤ l.getMtuSize) (h : InTurn l calls l') :
    ∃ xs : List Leaving, List.Forall₂ (Delivered l.getMtuSize) calls xs ∧
      l'.written = l.written ++ xs.flatMap (Leaving.packets C l.getMtuSize) ∧
      ∀ F : Firmware, F.GivesUpCut → ∀ s, F.frames (F.read s l'.written) =
        F.frames (F.read s l.written) ++ (xs.flatMap Leaving.stream).map C.serialize := by
  induction h with
  | nil l => exact ⟨[], .nil, (List.append_nil _).symm, fun _ _ _ => (List.append_nil _).symm⟩
  | @cons request t calls es l l₁ l₂ hrun _ ih =>
      have hl₁ : l₁.getMtuSize = l.getMtuSize := getMtuSize_run hrun
      obtain ⟨x, hdelivered, hwritten⟩ := delivered_of_run hP hmtu hrun
      obtain ⟨xs, hrest, hwritten', hframes'⟩ := ih (by omega)
      rw [hl₁] at hrest hwritten'
      refine ⟨x :: xs, .cons hdelivered hrest, ?_, fun F hF s => ?_⟩
      · rw [hwritten', hwritten, List.flatMap_cons, List.append_assoc]
      · have hframes : F.frames (F.read s l₁.written) =
            F.frames (F.read s l.written) ++ x.stream.map C.serialize := by
          rw [hwritten, F.read_append]
          exact hF.frames_written hmtu hdelivered.fits hdelivered.cutOff _
        rw [hframes' F hF s, hframes, List.flatMap_cons, List.map_append, List.append_assoc]

/-- A request of one command in two packets, and the link after the first one. -/
def droppedRequest : Request Crates.reference :=
  .transaction [1, 2, 3, 4, 5, 6, 7, 8] (Crates.pathOne 44)

def droppedPacket : Bytes :=
  [5, 0, 0, 0, 17, 0x80, 2, 0x80, 0x57, 12, 0, 0, 0, 44, 1, 2, 3, 4, 5, 6]

def droppedLink : Link := (Link.opened 20).receive countingSigner.answer droppedPacket

/-- A call that is dropped in the middle of its frame, and the same call once more: the device has
    received the command once. -/
theorem abandoned_signing_calls_dropped :
    ∃ (t : Task Crates.reference Bytes) (l' : Link) (xs : List Leaving),
      (∀ o, t ≠ .finished o) ∧
      InTurn (Link.opened 20) [(droppedRequest, t), (droppedRequest, .finished (.ok [1]))] l' ∧
      List.Forall₂ (Delivered 20)
        [(droppedRequest, t), (droppedRequest, .finished (.ok [1]))] xs ∧
      l'.written = xs.flatMap (Leaving.packets Crates.reference 20) ∧
      l'.written.length = 3 ∧
      (reassemble l'.written).frames =
        (xs.flatMap Leaving.stream).map Crates.reference.serialize := by
  obtain ⟨t, hdropped, ht⟩ : ∃ t, Run (ofFn fun s e => s.1.step countingSigner.answer s.2 e)
      (Task.ofCall (Link.opened 20).getMtuSize droppedRequest.ble, Link.opened 20)
      [.transport .writeOk] (t, droppedLink) ∧ ∀ o, t ≠ .finished o :=
    ⟨.running (.sending _ _ _) _, run_of_exec rfl, by simp⟩
  obtain ⟨l₂, hok, hlength⟩ : ∃ l₂, Run (ofFn fun s e => s.1.step countingSigner.answer s.2 e)
      (Task.ofCall droppedLink.getMtuSize droppedRequest.ble, droppedLink)
      [.transport .writeOk, .transport .writeOk, .transport .deliver, .resume]
      (.finished (.ok [1]), l₂) ∧ l₂.written.length = 3 :=
    ⟨_, run_of_exec rfl, rfl⟩
  have hturn : InTurn (Link.opened 20)
      [(droppedRequest, t), (droppedRequest, .finished (.ok [1]))] l₂ :=
    .cons (hdropped.mono fun _ _ _ => anyStep_of_step)
      (.cons (hok.mono fun _ _ _ => anyStep_of_step) (.nil _))
  obtain ⟨xs, hdelivered, hwritten, hframes⟩ :=
    abandoned_signing_calls Crates.reference_pathDoc (l := Link.opened 20) (by decide) hturn
  exact ⟨t, l₂, xs, ht, hturn, hdelivered, hwritten, hlength,
    hframes reassemblerFirmware givesUpCut_reassembler .empty⟩

end NearLedger
