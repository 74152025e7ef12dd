/-
  NearLedger.Ble.Concurrency

  Two signing calls on one transport.  Their packet writes and their reads can
  be interleaved in any way, as the mutex of the notification stream is held for
  one notification only, and nothing else keeps them apart
  (`interleaved_answers_swapped`).  They do not mix when the second call writes
  nothing before the first has written the last packet of its last command, and
  reads nothing before the first has returned (`ordered_calls_serial`): the
  second call may then send its first command while the first still waits for
  its answer.  It may even ask for the mutex; but it then gets it after one
  packet of that answer, and if there are more, the order cannot be kept.
-/

import NearLedger.Ble.SigningRun

namespace NearLedger

open Interaction Slices Transition

variable {C : Crates}

/-- The two callers. -/
inductive Caller where
  | first
  | second
  deriving DecidableEq

/-- A call that has written its last packet: it has returned, or returns with the next answer that
    is a success. -/
def WroteLast : Task C Bytes → Prop
  | .finished _ => True
  | .running (.receiving _) k | .running (.returned _) k =>
      ∀ response, C.retcode response = returnCodeOk → ∃ o, k (.ok response) = .ret o
  | _ => False

/-- A call that has returned. -/
def Returned : Task C Bytes → Prop
  | .finished _ => True
  | _ => False

/-- What a call does when nothing fails, and its place at the mutex. -/
def QuietAct : Act C Bytes → Prop
  | .call _ => False
  | .lock => True
  | .go e => Quiet e

/-- Two calls, each taking quiet steps in any order. -/
def Interleaved (dev : FrameDevice) (s : System C Caller Bytes) (a : Caller × Act C Bytes)
    (s' : System C Caller Bytes) : Prop :=
  QuietAct a.2 ∧ s.step dev a = some s'

/-- The second call writes when the first has written its last packet, and reads when the first has
    returned. -/
def InOrder (s : System C Caller Bytes) : Caller × Act C Bytes → Prop
  | (.first, _) => True
  | (.second, .go (.transport .writeOk)) => WroteLast (s.tasks .first)
  | (.second, .go (.transport .deliver)) => Returned (s.tasks .first)
  | (.second, _) => True

/-- Two calls in that order. -/
def Ordered (dev : FrameDevice) (s : System C Caller Bytes) (a : Caller × Act C Bytes)
    (s' : System C Caller Bytes) : Prop :=
  Interleaved dev s a s' ∧ InOrder s a

/-- The calls of two programs on a link, before their first step. -/
def bothCalled (l : Link) (p q : BleCall C Bytes) : System C Caller Bytes where
  link := l
  tasks
    | .first => Task.ofCall l.getMtuSize p
    | .second => Task.ofCall l.getMtuSize q
  readers := []

/-- What two calls that do not mix leave: whole frames, first those of `one` and then those of
    `two`, and each call with the answer to its own last command. -/
structure Serial (dev : SigningDevice) (mtuSize : Nat) (one two : List APDUCommand)
    (outcomeOne outcomeTwo : Outcome (NEARLedgerError C) Bytes) (l : Link) : Prop where
  written : l.written = framesOf C mtuSize (one ++ two)
  reassembled : reassemble l.written =
    { frames := (one ++ two).map C.serialize, pending := none, discarded := [] }
  first_answer : outcomeOne = signingOutcome dev (one.map C.serialize) one
  second_answer : outcomeTwo = signingOutcome dev ((one ++ two).map C.serialize) two

/-! ## The invariant -/

section Invariant

variable (dev : SigningDevice) (mtuSize : Nat) (ins₁ ins₂ : UInt8) (cs₁ cs₂ : List Bytes)

/-- The frames the device reads from the packets of a call. -/
abbrev framesRead (C : Crates) (mtuSize : Nat) (ins : UInt8) (cs : List Bytes) : List Bytes :=
  (reassemble (framesOf C mtuSize (commandsOf ins cs))).frames

/-- The first call is done writing and waits for its last answer; `post` is what the device has
    queued behind it. -/
inductive WaitingLast (post : List Bytes) : Task C Bytes → Link → Prop where
  | receiving {s : RecvState C} {l : Link} :
      ReceivingFrom (dev.answer (framesRead C mtuSize ins₁ cs₁)).message post s l →
      WaitingLast post (.running (.receiving s) (continuation C ins₁ [])) l
  | returned {l : Link} : l.notifications = post →
      WaitingLast post (.running (.returned (answered C
        (dev.answer (framesRead C mtuSize ins₁ cs₁)).message)) (continuation C ins₁ [])) l

/-- Two calls in order: the first one alone, the second one sending behind the first, or the second
    one alone. -/
inductive OrderedInv : System C Caller Bytes → Prop where
  | firstAlone {s : System C Caller Bytes} :
      SigningInv dev ins₁ mtuSize [] (commandsOf ins₁ cs₁) (s.tasks .first) s.link →
      s.tasks .second = Task.ofCall mtuSize (loopBle ins₂ cs₂) → OrderedInv s
  | overlap {s : System C Caller Bytes} {post : List Bytes} : cs₁ ≠ [] →
      WaitingLast dev mtuSize ins₁ cs₁ post (s.tasks .first) s.link →
      SigningInv dev ins₂ mtuSize (framesOf C mtuSize (commandsOf ins₁ cs₁)) (commandsOf ins₂ cs₂)
        (s.tasks .second) (s.link.withQueue post) → OrderedInv s
  | secondAlone {s : System C Caller Bytes} :
      s.tasks .first =
        .finished (signingOutcome dev (framesRead C mtuSize ins₁ cs₁) (commandsOf ins₁ cs₁)) →
      SigningInv dev ins₂ mtuSize (framesOf C mtuSize (commandsOf ins₁ cs₁)) (commandsOf ins₂ cs₂)
        (s.tasks .second) s.link → OrderedInv s

end Invariant

/-! ## Steps of one call -/

/-- A call asks for the mutex, or takes a step of its task on the link. -/
theorem Interleaved.cases {dev : FrameDevice} {s s' : System C Caller Bytes} {i : Caller}
    {a : Act C Bytes} (h : Interleaved dev s (i, a) s') :
    (a = .lock ∧ s' = { s with readers := s.readers ++ [i] }) ∨
    ∃ e t' l' readers, a = .go e ∧ QuietStep dev (s.tasks i, s.link) e (t', l') ∧
      s.Hands i readers ∧
      s' = { link := l', tasks := Function.update s.tasks i t', readers := readers } := by
  obtain ⟨hquiet, hstep⟩ := h
  rcases System.step_cases hstep with
    ⟨p, o, rfl, -, -⟩ | ⟨rfl, -, -, rfl⟩ | ⟨e, t', l', readers, rfl, ht, hhands, rfl⟩
  · exact absurd hquiet id
  · exact .inl ⟨rfl, rfl⟩
  · exact .inr ⟨e, t', l', readers, rfl, ⟨hquiet, ht⟩, hhands, rfl⟩

/-- A write does the same whatever is queued, and what it queues comes last. -/
theorem Link.receive_with (dev : FrameDevice) (l : Link) (packet : Bytes) (post : List Bytes) :
    ∃ more, (l.receive dev packet).notifications = l.notifications ++ more ∧
      (l.withQueue post).receive dev packet =
        (l.receive dev packet).withQueue (post ++ more) := by
  by_cases h : (l.reassembler.feed packet).frames.length = l.reassembler.frames.length
  · refine ⟨[], ?_, ?_⟩
    · simp [Link.receive, h]
    · have h' : ((l.withQueue post).reassembler.feed packet).frames.length =
          (l.withQueue post).reassembler.frames.length := h
      simp only [Link.receive, if_pos h', if_pos h, List.append_nil]
      rfl
  · refine ⟨(dev (l.reassembler.feed packet).frames).packets apduCommandTag, ?_, ?_⟩
    · simp [Link.receive, h]
    · have h' : ¬ ((l.withQueue post).reassembler.feed packet).frames.length =
          (l.withQueue post).reassembler.frames.length := h
      simp only [Link.receive, if_neg h']
      rfl

/-- A step that reads nothing does the same whatever is queued. -/
theorem quietStep_with {dev : FrameDevice} {t t' : Task C Bytes} {l l' : Link} {e : TaskEvent C}
    (h : QuietStep dev (t, l) e (t', l')) (he : e ≠ .transport .deliver) (post : List Bytes) :
    ∃ more, l'.notifications = l.notifications ++ more ∧
      QuietStep dev (t, l.withQueue post) e
        (t', l'.withQueue (post ++ more)) := by
  obtain rfl := eq_awaited_of_quietStep h
  obtain ⟨hq, hstep⟩ := h
  cases t with
  | finished o => cases hstep
  | running x k =>
      cases x with
      | sending apduData mtuSize s =>
          obtain ⟨r, hr, heq⟩ := Option.map_eq_some_iff.mp hstep
          cases heq
          obtain ⟨packet, hp, heq⟩ := Option.map_eq_some_iff.mp hr
          cases heq
          obtain ⟨more, hmore, hwith⟩ := Link.receive_with dev l packet post
          refine ⟨more, hmore, hq, ?_⟩
          rw [awaited, Task.step, ExchangeState.step, hp, Option.map_some, hwith]
          rfl
      | receiving s => exact absurd rfl he
      | returned r =>
          cases hstep
          exact ⟨[], (List.append_nil _).symm, hq, by rw [List.append_nil]; rfl⟩
      | panicked =>
          cases hstep
          exact ⟨[], (List.append_nil _).symm, hq, by rw [List.append_nil]; rfl⟩

/-! ## Steps of the two calls -/

section Preservation

variable {dev : SigningDevice} {mtuSize : Nat} {ins₁ ins₂ : UInt8} {cs₁ cs₂ : List Bytes}

/-- A call that returns with its next success is at its last command, as it would otherwise go on. -/
theorem Position.last (hA : C.ApduDoc) {ins : UInt8} {cs : List Bytes} {sent : List APDUCommand}
    {chunk : Bytes} {rest : List Bytes} (h : Position ins (commandsOf ins cs) sent chunk rest)
    (hreturns : ∀ response, C.retcode response = returnCodeOk →
      ∃ o, continuation C ins rest (.ok response) = .ret o) :
    rest = [] ∧ cs ≠ [] ∧ sent ++ [commandAt ins chunk rest] = commandsOf ins cs := by
  obtain ⟨response, -, -, hretcode⟩ := hA.fromAnswer_append [] 0x90 0x00
  obtain rfl : rest = [] := by
    cases rest with
    | nil => rfl
    | cons chunk' rest =>
        obtain ⟨o, ho⟩ := hreturns response hretcode
        rw [continuation, afterChunkBle_ok hretcode] at ho
        cases ho
  refine ⟨rfl, ?_, h.split⟩
  rintro rfl
  have hlength := congrArg List.length h.split
  simp [commandsOf] at hlength

/-- When the first call has written its last packet, the second one may begin behind it. -/
theorem OrderedInv.of_wroteLast (hA : C.ApduDoc) (hmtu : 6 ≤ mtuSize)
    (hshort₂ : ∀ c ∈ cs₂, c.length ≤ 250) {s : System C Caller Bytes}
    (hfirst : SigningInv dev ins₁ mtuSize [] (commandsOf ins₁ cs₁) (s.tasks .first) s.link)
    (hsecond : s.tasks .second = Task.ofCall mtuSize (loopBle ins₂ cs₂))
    (hlast : WroteLast (s.tasks .first)) :
    (∃ post, cs₁ ≠ [] ∧ WaitingLast dev mtuSize ins₁ cs₁ post (s.tasks .first) s.link ∧
      SigningInv dev ins₂ mtuSize (framesOf C mtuSize (commandsOf ins₁ cs₁)) (commandsOf ins₂ cs₂)
        (s.tasks .second) (s.link.withQueue post)) ∨
    (s.tasks .first = .finished (signingOutcome dev
        (framesRead C mtuSize ins₁ cs₁) (commandsOf ins₁ cs₁)) ∧
      SigningInv dev ins₂ mtuSize (framesOf C mtuSize (commandsOf ins₁ cs₁)) (commandsOf ins₂ cs₂)
        (s.tasks .second) s.link) := by
  -- the second call begins when all packets of the first one have been written
  have hbegins : ∀ l : Link, l.notifications = [] →
      l.written = framesOf C mtuSize (commandsOf ins₁ cs₁) →
      SigningInv dev ins₂ mtuSize (framesOf C mtuSize (commandsOf ins₁ cs₁)) (commandsOf ins₂ cs₂)
        (s.tasks .second) l := by
    intro l hqueue hwritten
    rw [hsecond]
    exact .init hA hmtu hshort₂ hqueue hwritten
  have hread : s.link.written = framesOf C mtuSize (commandsOf ins₁ cs₁) →
      s.link.reassembler = reassemble (framesOf C mtuSize (commandsOf ins₁ cs₁)) :=
    congrArg reassemble
  -- `WroteLast` leaves the first call only its last answer to wait for, or nothing
  generalize s.tasks .first = t at hfirst hlast
  cases hfirst with
  | sending => exact absurd hlast id
  | receiving hpos hrecv hwritten =>
      obtain ⟨rfl, hne, hall⟩ := hpos.last hA hlast
      rw [hall, List.nil_append] at hwritten
      rw [hread hwritten] at hrecv
      exact .inl ⟨[], hne, .receiving hrecv, hbegins _ rfl hwritten⟩
  | returned hpos hqueue hwritten =>
      obtain ⟨rfl, hne, hall⟩ := hpos.last hA hlast
      rw [hall, List.nil_append] at hwritten
      rw [hread hwritten]
      exact .inl ⟨[], hne, .returned hqueue, hbegins _ rfl hwritten⟩
  | finished hqueue hwritten =>
      rw [List.nil_append] at hwritten
      rw [hread hwritten]
      exact .inr ⟨rfl, hbegins _ hqueue hwritten⟩

/-- The first call, waiting for its last answer, reads on or returns. -/
theorem WaitingLast.step (hA : C.ApduDoc) (hne : cs₁ ≠ []) {post : List Bytes}
    {t t' : Task C Bytes} {l l' : Link} {e : TaskEvent C}
    (h : WaitingLast dev mtuSize ins₁ cs₁ post t l) (hstep : QuietStep dev.answer (t, l) e (t', l')) :
    l'.mtuSize = l.mtuSize ∧ l'.written = l.written ∧
      (WaitingLast dev mtuSize ins₁ cs₁ post t' l' ∨
        (t' = .finished (signingOutcome dev
          (framesRead C mtuSize ins₁ cs₁) (commandsOf ins₁ cs₁)) ∧
          l'.notifications = post)) := by
  obtain rfl := eq_awaited_of_quietStep hstep
  obtain ⟨-, hstep⟩ := hstep
  cases h with
  | @receiving s _ hrecv =>
      obtain ⟨n, ns, x', -, hnext, hx⟩ := @step_deliver C dev.answer _ _ _ _ hrecv
      rw [awaited, Task.step, hnext] at hstep
      cases hstep
      refine ⟨rfl, rfl, .inl ?_⟩
      rcases hx with ⟨s', rfl, hrecv'⟩ | ⟨rfl, hns⟩
      · exact .receiving hrecv'
      · exact .returned hns
  | returned hqueue =>
      change some (Task.ofCall l.getMtuSize (continuation C ins₁ [] _), l) = some (t', l') at hstep
      rw [continuation_answered hA] at hstep
      cases hstep
      refine ⟨rfl, rfl, .inr ⟨?_, hqueue⟩⟩
      cases cs₁ with
      | nil => exact absurd rfl hne
      | cons c cs => rfl

/-- More in the queue comes behind. -/
theorem WaitingLast.append {post more : List Bytes} {t : Task C Bytes} {l l' : Link}
    (h : WaitingLast dev mtuSize ins₁ cs₁ post t l)
    (hl' : l'.notifications = l.notifications ++ more) :
    WaitingLast dev mtuSize ins₁ cs₁ (post ++ more) t l' := by
  cases h with
  | receiving hrecv => exact .receiving (hrecv.append hl')
  | returned hqueue => exact .returned (by rw [hl', hqueue])

theorem WaitingLast.not_returned {post : List Bytes} {t : Task C Bytes} {l : Link}
    (h : WaitingLast dev mtuSize ins₁ cs₁ post t l) : ¬ Returned t := by
  cases h <;> exact id

theorem WaitingLast.ne_finished {post : List Bytes} {t : Task C Bytes} {l : Link}
    (h : WaitingLast dev mtuSize ins₁ cs₁ post t l) (o : Outcome (NEARLedgerError C) Bytes) :
    t ≠ .finished o := by
  cases h <;> simp

/-- A step of the second call while the first waits for its last answer: it reads nothing. -/
theorem OrderedInv.second_behind (hA : C.ApduDoc) (hmtu : 6 ≤ mtuSize)
    {s : System C Caller Bytes} {e : TaskEvent C} {t' : Task C Bytes} {l' : Link}
    (readers : List Caller) (hl : s.link.getMtuSize = mtuSize) {post : List Bytes} (hne : cs₁ ≠ [])
    (horder : InOrder s (.second, .go e))
    (hfirst : WaitingLast dev mtuSize ins₁ cs₁ post (s.tasks .first) s.link)
    (hsecond : SigningInv dev ins₂ mtuSize (framesOf C mtuSize (commandsOf ins₁ cs₁))
      (commandsOf ins₂ cs₂) (s.tasks .second) (s.link.withQueue post))
    (hstep : QuietStep dev.answer (s.tasks .second, s.link) e (t', l')) :
    OrderedInv dev mtuSize ins₁ ins₂ cs₁ cs₂
      { link := l', tasks := Function.update s.tasks .second t', readers := readers } := by
  have he : e ≠ .transport .deliver := by
    rintro rfl
    exact hfirst.not_returned horder
  obtain ⟨more, hmore, hwith⟩ := quietStep_with hstep he post
  have hfirst' : WaitingLast dev mtuSize ins₁ cs₁ (post ++ more)
      (Function.update s.tasks .second t' .first) l' := by
    rw [Function.update_of_ne (by decide)]
    exact hfirst.append hmore
  have hsecond' : SigningInv dev ins₂ mtuSize (framesOf C mtuSize (commandsOf ins₁ cs₁))
      (commandsOf ins₂ cs₂) (Function.update s.tasks .second t' .second)
      (l'.withQueue (post ++ more)) := by
    rw [Function.update_self]
    exact hsecond.step hA hmtu hl hwith
  exact .overlap hne hfirst' hsecond'

/-- A step of the second call when the first has returned. -/
theorem OrderedInv.second_alone (hA : C.ApduDoc) (hmtu : 6 ≤ mtuSize) {s : System C Caller Bytes}
    {e : TaskEvent C} {t' : Task C Bytes} {l' : Link} (readers : List Caller)
    (hl : s.link.getMtuSize = mtuSize)
    (hfirst : s.tasks .first = .finished (signingOutcome dev
      (framesRead C mtuSize ins₁ cs₁) (commandsOf ins₁ cs₁)))
    (hsecond : SigningInv dev ins₂ mtuSize (framesOf C mtuSize (commandsOf ins₁ cs₁))
      (commandsOf ins₂ cs₂) (s.tasks .second) s.link)
    (hstep : QuietStep dev.answer (s.tasks .second, s.link) e (t', l')) :
    OrderedInv dev mtuSize ins₁ ins₂ cs₁ cs₂
      { link := l', tasks := Function.update s.tasks .second t', readers := readers } := by
  refine .secondAlone ?_ ?_
  · show Function.update s.tasks .second t' .first = _
    rw [Function.update_of_ne (by decide)]
    exact hfirst
  · show SigningInv _ _ _ _ _ (Function.update s.tasks .second t' .second) _
    rw [Function.update_self]
    exact hsecond.step hA hmtu hl hstep

/-- Before its first step the second call does not read, and the step is a write. -/
theorem second_before (hA : C.ApduDoc) (hmtu : 6 ≤ mtuSize) (hshort₂ : ∀ c ∈ cs₂, c.length ≤ 250)
    {s : System C Caller Bytes} (hsecond : s.tasks .second = Task.ofCall mtuSize (loopBle ins₂ cs₂)) :
    (s.tasks .second).reads = false ∧ ∀ (e : TaskEvent C) (x : Task C Bytes × Link),
      QuietStep dev.answer (s.tasks .second, s.link) e x → e = .transport .writeOk := by
  rw [hsecond]
  cases cs₂ with
  | nil => exact ⟨rfl, fun e x h => absurd h (not_quietStep_finished _ _ _ _)⟩
  | cons chunk rest =>
      obtain ⟨st, hstart, -⟩ := @start_sendingTo C s.link (commandAt ins₂ chunk rest) mtuSize hmtu
        (length_serialize_signing hA _ _ (hshort₂ chunk List.mem_cons_self))
      have hcall : (Task.ofCall mtuSize (loopBle ins₂ (chunk :: rest)) : Task C Bytes) =
          .running (.sending (C.serialize (commandAt ins₂ chunk rest)) mtuSize st)
            (continuation C ins₂ rest) := by
        rw [← hstart]
        rfl
      rw [hcall]
      exact ⟨rfl, fun e x h => eq_awaited_of_quietStep h⟩

/-- A step of the task of a call. -/
theorem OrderedInv.go (hA : C.ApduDoc) (hmtu : 6 ≤ mtuSize) (hshort₂ : ∀ c ∈ cs₂, c.length ≤ 250)
    {s : System C Caller Bytes} {i : Caller} {e : TaskEvent C} {t' : Task C Bytes} {l' : Link}
    (readers : List Caller) (hl : s.link.getMtuSize = mtuSize)
    (hinv : OrderedInv dev mtuSize ins₁ ins₂ cs₁ cs₂ s) (horder : InOrder s (i, .go e))
    (hstep : QuietStep dev.answer (s.tasks i, s.link) e (t', l')) :
    OrderedInv dev mtuSize ins₁ ins₂ cs₁ cs₂
      { link := l', tasks := Function.update s.tasks i t', readers := readers } := by
  cases i with
  | first =>
      have hself : Function.update s.tasks .first t' .first = t' := Function.update_self _ _ _
      have hsame : Function.update s.tasks .first t' .second = s.tasks .second :=
        Function.update_of_ne (by decide) _ _
      cases hinv with
      | firstAlone hfirst hsecond =>
          refine .firstAlone ?_ (hsame.trans hsecond)
          show SigningInv _ _ _ _ _ (Function.update s.tasks .first t' .first) _
          rw [hself]
          exact hfirst.step hA hmtu hl hstep
      | @overlap post hne hfirst hsecond =>
          obtain ⟨hm, hw, hnext⟩ := hfirst.step hA hne hstep
          -- a read changes nothing of the link but the queue, which the second call does not see
          have hlink : l'.withQueue post = s.link.withQueue post := by
            rw [Link.withQueue, hm, hw, Link.withQueue]
          rw [← hsame, ← hlink] at hsecond
          rcases hnext with hwaiting | ⟨hfinished, hqueue⟩
          · rw [← hself] at hwaiting
            exact .overlap hne hwaiting hsecond
          · rw [← hqueue] at hsecond
            exact .secondAlone (hself.trans hfinished) hsecond
      | secondAlone hfirst _ =>
          rw [hfirst] at hstep
          exact absurd hstep (not_quietStep_finished _ _ _ _)
  | second =>
      cases hinv with
      | firstAlone hfirst hsecond =>
          -- the first step of the second call: from here on the two overlap
          obtain rfl := (second_before hA hmtu hshort₂ hsecond).2 e _ hstep
          rcases of_wroteLast hA hmtu hshort₂ hfirst hsecond horder with
            ⟨post, hne, hwaiting, hsecond⟩ | ⟨hfinished, hsecond⟩
          · exact second_behind hA hmtu readers hl hne horder hwaiting hsecond hstep
          · exact second_alone hA hmtu readers hl hfinished hsecond hstep
      | overlap hne hfirst hsecond =>
          exact second_behind hA hmtu readers hl hne horder hfirst hsecond hstep
      | secondAlone hfirst hsecond => exact second_alone hA hmtu readers hl hfirst hsecond hstep

/-- Every step in order keeps the invariant. -/
theorem OrderedInv.step (hA : C.ApduDoc) (hmtu : 6 ≤ mtuSize) (hshort₂ : ∀ c ∈ cs₂, c.length ≤ 250)
    {s s' : System C Caller Bytes} {a : Caller × Act C Bytes} (hl : s.link.getMtuSize = mtuSize)
    (hinv : OrderedInv dev mtuSize ins₁ ins₂ cs₁ cs₂ s) (h : Ordered dev.answer s a s') :
    OrderedInv dev mtuSize ins₁ ins₂ cs₁ cs₂ s' := by
  obtain ⟨i, a⟩ := a
  obtain ⟨hinter, horder⟩ := h
  rcases hinter.cases with ⟨rfl, rfl⟩ | ⟨e, t', l', readers, rfl, hstep, -, rfl⟩
  -- who is at the mutex is nothing to the invariant
  · cases hinv with
    | firstAlone hfirst hsecond => exact .firstAlone hfirst hsecond
    | overlap hne hfirst hsecond => exact .overlap hne hfirst hsecond
    | secondAlone hfirst hsecond => exact .secondAlone hfirst hsecond
  · exact hinv.go hA hmtu hshort₂ readers hl horder hstep

theorem OrderedInv.run (hA : C.ApduDoc) (hmtu : 6 ≤ mtuSize) (hshort₂ : ∀ c ∈ cs₂, c.length ≤ 250)
    {s s' : System C Caller Bytes} {as : List (Caller × Act C Bytes)}
    (hl : s.link.getMtuSize = mtuSize) (hmutex : s.MutexInv)
    (hinv : OrderedInv dev mtuSize ins₁ ins₂ cs₁ cs₂ s) (h : Run (Ordered dev.answer) s as s') :
    s'.link.getMtuSize = mtuSize ∧ s'.MutexInv ∧ OrderedInv dev mtuSize ins₁ ins₂ cs₁ cs₂ s' := by
  refine h.invariant (I := fun s => s.link.getMtuSize = mtuSize ∧ s.MutexInv ∧
    OrderedInv dev mtuSize ins₁ ins₂ cs₁ cs₂ s) ?_ ⟨hl, hmutex, hinv⟩
  rintro s₁ a s₂ ⟨hl₁, hmutex₁, hinv₁⟩ hs
  refine ⟨?_, hmutex₁.step hs.1.2, hinv₁.step hA hmtu hshort₂ hl₁ hs⟩
  rw [Link.getMtuSize, System.mtuSize_step hs.1.2]
  exact hl₁

/-- When the first call has returned, it has its own answer and the second one is alone. -/
theorem OrderedInv.alone (hA : C.ApduDoc) (hmtu : 6 ≤ mtuSize) (hshort₂ : ∀ c ∈ cs₂, c.length ≤ 250)
    {s : System C Caller Bytes} (h : OrderedInv dev mtuSize ins₁ ins₂ cs₁ cs₂ s)
    {o : Outcome (NEARLedgerError C) Bytes} (ho : s.tasks .first = .finished o) :
    o = signingOutcome dev (framesRead C mtuSize ins₁ cs₁)
        (commandsOf ins₁ cs₁) ∧
      SigningInv dev ins₂ mtuSize (framesOf C mtuSize (commandsOf ins₁ cs₁)) (commandsOf ins₂ cs₂)
        (s.tasks .second) s.link := by
  cases h with
  | firstAlone hfirst hsecond =>
      have hlast : WroteLast (s.tasks .first) := by
        rw [ho]
        exact trivial
      rcases of_wroteLast hA hmtu hshort₂ hfirst hsecond hlast with
        ⟨post, -, hwaiting, -⟩ | ⟨hfinished, hsecond⟩
      · exact absurd ho (hwaiting.ne_finished o)
      · exact ⟨Task.finished.inj (ho.symm.trans hfinished), hsecond⟩
  | overlap _ hfirst _ => exact absurd ho (hfirst.ne_finished o)
  | secondAlone hfinished hsecond => exact ⟨Task.finished.inj (ho.symm.trans hfinished), hsecond⟩

/-! ## Both calls return -/

/-- Where one of two callers is not at the mutex, at most the other one is. -/
theorem readers_of_not_mem {i j : Caller} (hij : i ≠ j) {readers : List Caller}
    (hnodup : readers.Nodup) (hj : j ∉ readers) : readers = [] ∨ readers = [i] := by
  have hall : ∀ k ∈ readers, k = i := by
    intro k hk
    have hkj : k ≠ j := fun heq => hj (heq ▸ hk)
    cases i <;> cases j <;> cases k <;> simp_all
  cases readers with
  | nil => exact .inl rfl
  | cons k rest =>
      obtain rfl := hall k List.mem_cons_self
      cases rest with
      | nil => exact .inr rfl
      | cons m rest =>
          obtain rfl := hall m (by simp)
          exact absurd hnodup (by simp)

/-- A run of one call is a run of the two, where its steps are in order whatever it does. -/
theorem run_ordered {i j : Caller} (hij : i ≠ j) {s : System C Caller Bytes} {t' : Task C Bytes}
    {l' : Link} {es : List (TaskEvent C)}
    (hrun : Run (QuietStep dev.answer) (s.tasks i, s.link) es (t', l')) (hmutex : s.MutexInv)
    (hj : j ∉ s.readers)
    (horder : ∀ s' : System C Caller Bytes, (∀ k, k ≠ i → s'.tasks k = s.tasks k) →
      ∀ a, InOrder s' (i, a)) :
    ∃ as s', Run (Ordered dev.answer) s as s' ∧ s'.tasks i = t' ∧ s'.tasks j = s.tasks j := by
  obtain ⟨as, s', hrun', hi, -, -, hother⟩ := System.run_of_task (R := Ordered dev.answer) hrun
    (fun s₁ a s₂ hs₁ hquiet hcall hstep => by
      refine ⟨⟨?_, hstep⟩, horder s₁ hs₁ a⟩
      cases a with
      | call p => exact absurd rfl (hcall p)
      | lock => trivial
      | go e => exact hquiet e rfl)
    (readers_of_not_mem hij hmutex.nodup hj)
  exact ⟨_, s', hrun', hi, hother j hij.symm⟩

/-- The first call returns when it goes on. -/
theorem WaitingLast.leads {post : List Bytes} {t : Task C Bytes} {l : Link}
    (hA : C.ApduDoc) (h : WaitingLast dev mtuSize ins₁ cs₁ post t l) :
    ∃ es o l', Run (QuietStep dev.answer) (t, l) es (.finished o, l') := by
  have hresume := @quietStep_answered C dev ins₁ hA (framesRead C mtuSize ins₁ cs₁) []
  cases h with
  | receiving hrecv =>
      obtain ⟨es, hrun⟩ := @run_receiving C _ dev.answer (continuation C ins₁ []) _ _ _ _ hrecv
      exact ⟨_, _, _, hrun.append (.single (hresume _))⟩
  | returned _ => exact ⟨_, _, _, .single (hresume l)⟩

/-- The first call can return from every point of an ordered run at which the second one is not at
    the mutex. -/
theorem OrderedInv.first_returns (hA : C.ApduDoc) (hmtu : 6 ≤ mtuSize)
    (hshort₂ : ∀ c ∈ cs₂, c.length ≤ 250) {s : System C Caller Bytes}
    (hl : s.link.getMtuSize = mtuSize) (hmutex : s.MutexInv)
    (h : OrderedInv dev mtuSize ins₁ ins₂ cs₁ cs₂ s)
    (hout : Returned (s.tasks .first) ∨ .second ∉ s.readers) :
    ∃ as s₁ o₁, Run (Ordered dev.answer) s as s₁ ∧ s₁.tasks .first = .finished o₁ := by
  have hreturns : .second ∉ s.readers → (∃ es o l', Run (QuietStep dev.answer)
      (s.tasks .first, s.link) es (.finished o, l')) →
      ∃ as s₁ o₁, Run (Ordered dev.answer) s as s₁ ∧ s₁.tasks .first = .finished o₁ := by
    rintro hout ⟨es, o, l', hrun⟩
    obtain ⟨as, s₁, hrun₁, hfirst, -⟩ := run_ordered (by decide) hrun hmutex hout
      fun _ _ _ => trivial
    exact ⟨as, s₁, o, hrun₁, hfirst⟩
  cases h with
  | firstAlone hfirst hsecond =>
      have hreads := (@second_before C dev _ _ _ hA hmtu hshort₂ s hsecond).1
      exact hreturns (hmutex.not_mem hreads) (hfirst.leads hA hmtu hl)
  | overlap _ hfirst _ =>
      have hnot : .second ∉ s.readers := hout.resolve_left hfirst.not_returned
      exact hreturns hnot (hfirst.leads hA)
  | secondAlone hfirst _ => exact ⟨[], s, _, .nil s, hfirst⟩

/-- From there both calls can return, in order. -/
theorem OrderedInv.leads (hA : C.ApduDoc) (hmtu : 6 ≤ mtuSize) (hshort₂ : ∀ c ∈ cs₂, c.length ≤ 250)
    {s : System C Caller Bytes} (hl : s.link.getMtuSize = mtuSize) (hmutex : s.MutexInv)
    (h : OrderedInv dev mtuSize ins₁ ins₂ cs₁ cs₂ s)
    (hout : Returned (s.tasks .first) ∨ .second ∉ s.readers) :
    ∃ as s' o₁ o₂, Run (Ordered dev.answer) s as s' ∧ s'.tasks .first = .finished o₁ ∧
      s'.tasks .second = .finished o₂ := by
  -- first the first call to its end, then the second one
  obtain ⟨as₁, s₁, o₁, hrun₁, hfirst⟩ := h.first_returns hA hmtu hshort₂ hl hmutex hout
  obtain ⟨hl₁, hmutex₁, hinv₁⟩ := h.run hA hmtu hshort₂ hl hmutex hrun₁
  obtain ⟨-, hsecond⟩ := hinv₁.alone hA hmtu hshort₂ hfirst
  obtain ⟨es₂, o₂, l₂, hrun₂⟩ := hsecond.leads hA hmtu hl₁
  have hout₁ : .first ∉ s₁.readers := hmutex₁.not_mem (by rw [hfirst]; rfl)
  obtain ⟨as₂, s₂, hrun₂, hsecond₂, hfirst₂⟩ := run_ordered (by decide) hrun₂ hmutex₁ hout₁
    fun s' hs' a => by
      have hreturned : s'.tasks .first = .finished o₁ := (hs' .first (by decide)).trans hfirst
      show InOrder s' (.second, a)
      cases a with
      | call p => trivial
      | lock => trivial
      | go e =>
          cases e with
          | resume => trivial
          | transport e =>
              cases e with
              | writeOk =>
                  show WroteLast (s'.tasks .first)
                  rw [hreturned]
                  trivial
              | deliver =>
                  show Returned (s'.tasks .first)
                  rw [hreturned]
                  trivial
              | _ => trivial
  exact ⟨_, s₂, o₁, o₂, hrun₁.append hrun₂, hfirst₂.trans hfirst, hsecond₂⟩

end Preservation

/-! ## The theorem -/

/-- Two signing calls on one transport, in order: when both have returned they have not mixed.  Both
    can return from every point at which the second call has not asked for the mutex before the first
    has returned. -/
theorem ordered_calls_serial (hA : C.ApduDoc) (hP : C.PathDoc) (dev : SigningDevice) {l : Link}
    (hl : Connected C l) (ins₁ ins₂ : UInt8) (path₁ path₂ : C.BIP32Path) (payload₁ payload₂ : Bytes) :
    ∃ data₁ data₂, hdPathToBytes path₁ = some data₁ ∧ hdPathToBytes path₂ = some data₂ ∧
      ∀ as s, Run (Ordered dev.answer) (bothCalled l
          (BleApi.sendPayloadApdusBle payload₁ path₁ ins₁)
          (BleApi.sendPayloadApdusBle payload₂ path₂ ins₂)) as s →
        (∀ o₁ o₂, s.tasks .first = .finished o₁ → s.tasks .second = .finished o₂ →
          Serial dev l.getMtuSize (signingCommands ins₁ (data₁ ++ payload₁))
            (signingCommands ins₂ (data₂ ++ payload₂)) o₁ o₂ s.link) ∧
        (Returned (s.tasks .first) ∨ .second ∉ s.readers →
          ∃ as' s' o₁ o₂, Run (Ordered dev.answer) s as' s' ∧ s'.tasks .first = .finished o₁ ∧
            s'.tasks .second = .finished o₂) := by
  obtain ⟨indices₁, hpath₁⟩ := pathIndices_eq_some hP path₁
  obtain ⟨indices₂, hpath₂⟩ := pathIndices_eq_some hP path₂
  refine ⟨_, _, hdPathToBytes_eq_some hpath₁, hdPathToBytes_eq_some hpath₂, fun as s hrun => ?_⟩
  rw [sendPayloadApdusBle_eq hpath₁, sendPayloadApdusBle_eq hpath₂] at hrun
  obtain ⟨hmtu, hqueue, hwritten⟩ := hl
  have hmtu := hmtu.bounds.1
  have hshort : ∀ data : Bytes, ∀ c ∈ chunks chunkSize data, c.length ≤ 250 :=
    fun data c hc => (length_of_mem_chunks (by decide) hc).2
  have hinit : OrderedInv dev l.getMtuSize ins₁ ins₂
      (chunks chunkSize (indices₁.flatMap Bytes.u32ToBeBytes ++ payload₁))
      (chunks chunkSize (indices₂.flatMap Bytes.u32ToBeBytes ++ payload₂)) (bothCalled l _ _) :=
    .firstAlone (.init hA hmtu (hshort _) hqueue hwritten) rfl
  obtain ⟨hl', hmutex', hinv⟩ := hinit.run hA hmtu (hshort _) rfl (.of_nil rfl) hrun
  refine ⟨fun o₁ o₂ ho₁ ho₂ => ?_, hinv.leads hA hmtu (hshort _) hl' hmutex'⟩
  obtain ⟨rfl, hsecond⟩ := hinv.alone hA hmtu (hshort _) ho₁
  rw [ho₂] at hsecond
  have hmem : ∀ c ∈ signingCommands ins₁ (indices₁.flatMap Bytes.u32ToBeBytes ++ payload₁) ++
      signingCommands ins₂ (indices₂.flatMap Bytes.u32ToBeBytes ++ payload₂), c.data.length ≤ 250 := by
    intro c hc
    rcases List.mem_append.mp hc with hc | hc
    · exact (mem_signingCommands hc).2.2.2.2
    · exact (mem_signingCommands hc).2.2.2.2
  cases hsecond with
  | finished _ hwritten' =>
      rw [← framesOf_append] at hwritten'
      have hreassembled := reassemble_framesOf hA hmtu hmem
      rw [signingCommands, signingCommands, ← hwritten'] at hreassembled
      have hreassembled₁ := @reassemble_framesOf C hA l.getMtuSize hmtu
        (commandsOf ins₁ (chunks chunkSize (indices₁.flatMap Bytes.u32ToBeBytes ++ payload₁)))
        fun c hc => hmem c (List.mem_append_left _ hc)
      refine ⟨hwritten', hreassembled, ?_, ?_⟩
      · rw [framesRead, hreassembled₁]
        rfl
      · rw [Link.reassembler, hreassembled]
        rfl

/-- A request of one chunk, on the path of index 44. -/
def requestOne : BleCall Crates.reference Bytes :=
  BleApi.sendPayloadApdusBle [7, 8] (Crates.pathOne 44) insSignTransaction

/-- Another one, on the path of index 45. -/
def requestTwo : BleCall Crates.reference Bytes :=
  BleApi.sendPayloadApdusBle [9] (Crates.pathOne 45) insSignTransaction

theorem ordered_calls_serial_counting :
    ∃ as s o₁ o₂, Run (Ordered countingSigner.answer)
        (bothCalled (Link.opened 20) requestOne requestTwo) as s ∧
      s.tasks .first = .finished o₁ ∧ s.tasks .second = .finished o₂ ∧
      Serial (C := Crates.reference) countingSigner 20
        (signingCommands insSignTransaction [0, 0, 0, 44, 7, 8])
        (signingCommands insSignTransaction [0, 0, 0, 45, 9]) o₁ o₂ s.link := by
  have hconnected : Connected Crates.reference (Link.opened 20) :=
    ⟨storableMtu_of_bounds (by decide) (by decide), rfl, rfl⟩
  obtain ⟨data₁, data₂, hdata₁, hdata₂, hruns⟩ :=
    ordered_calls_serial Crates.reference_apduDoc Crates.reference_pathDoc countingSigner hconnected
      insSignTransaction insSignTransaction (Crates.pathOne 44)
      (Crates.pathOne 45) [7, 8] [9]
  obtain rfl : data₁ = [0, 0, 0, 44] := Option.some.inj (hdata₁.symm.trans (by decide))
  obtain rfl : data₂ = [0, 0, 0, 45] := Option.some.inj (hdata₂.symm.trans (by decide))
  obtain ⟨as, s, o₁, o₂, hrun, ho₁, ho₂⟩ := (hruns [] _ (.nil _)).2 (.inr (by decide))
  exact ⟨as, s, o₁, o₂, hrun, ho₁, ho₂, (hruns as s hrun).1 o₁ o₂ ho₁ ho₂⟩

/-- When both commands are written before either answer is read and the second call reads first,
    each call returns the answer to the other one's command. -/
theorem interleaved_answers_swapped :
    ∃ as s o₁ o₂, Run (Interleaved countingSigner.answer)
        (bothCalled (Link.opened 20) requestOne requestTwo) as s ∧
      s.tasks .first = .finished o₁ ∧ s.tasks .second = .finished o₂ ∧
      reassemble s.link.written =
        { frames := (signingCommands insSignTransaction [0, 0, 0, 44, 7, 8] ++
            signingCommands insSignTransaction [0, 0, 0, 45, 9]).map Crates.reference.serialize
          pending := none
          discarded := [] } ∧
      o₁ = .ok (countingSigner.data (reassemble s.link.written).frames) ∧
      ¬ Serial (C := Crates.reference) countingSigner 20
        (signingCommands insSignTransaction [0, 0, 0, 44, 7, 8])
        (signingCommands insSignTransaction [0, 0, 0, 45, 9]) o₁ o₂ s.link ∧
      ¬ Serial (C := Crates.reference) countingSigner 20
        (signingCommands insSignTransaction [0, 0, 0, 45, 9])
        (signingCommands insSignTransaction [0, 0, 0, 44, 7, 8]) o₂ o₁ s.link := by
  obtain ⟨s, hrun, ho₁, ho₂, hwritten⟩ :
      ∃ s, Run (Interleaved countingSigner.answer)
          (bothCalled (Link.opened 20) requestOne requestTwo)
          [(.first, .go (.transport .writeOk)), (.second, .go (.transport .writeOk)),
            (.second, .lock), (.second, .go (.transport .deliver)), (.second, .go .resume),
            (.first, .lock), (.first, .go (.transport .deliver)), (.first, .go .resume)] s ∧
        s.tasks .first = .finished (.ok [2]) ∧ s.tasks .second = .finished (.ok [1]) ∧
        s.link.written = framesOf Crates.reference 20
          (signingCommands insSignTransaction [0, 0, 0, 44, 7, 8] ++
            signingCommands insSignTransaction [0, 0, 0, 45, 9]) :=
    ⟨_, .cons ⟨trivial, rfl⟩ <| .cons ⟨trivial, rfl⟩ <| .cons ⟨trivial, rfl⟩ <|
      .cons ⟨trivial, rfl⟩ <| .cons ⟨trivial, rfl⟩ <| .cons ⟨trivial, rfl⟩ <|
      .cons ⟨trivial, rfl⟩ <| .single ⟨trivial, rfl⟩, rfl, rfl, by decide⟩
  have hreassembled := reassemble_framesOf Crates.reference_apduDoc (show 6 ≤ 20 by decide)
    (show ∀ c ∈ signingCommands insSignTransaction [0, 0, 0, 44, 7, 8] ++
      signingCommands insSignTransaction [0, 0, 0, 45, 9], c.data.length ≤ 250 by decide)
  rw [← hwritten] at hreassembled
  refine ⟨_, s, _, _, hrun, ho₁, ho₂, hreassembled, ?_, fun h => ?_, fun h => ?_⟩
  · rw [hreassembled]
    rfl
  · have hfirst := Outcome.ok.inj h.first_answer
    revert hfirst
    decide
  · have hother := hwritten.symm.trans h.written
    revert hother
    decide

end NearLedger
