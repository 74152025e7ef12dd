/-
  NearLedger.Ble.Foreign

  Notifications with another tag among those of an answer.  The first loop of
  `recv_framed` skips every one that is not empty; the second one parses it as a
  subsequent packet before it looks at the tag, and fails when it has fewer than
  three bytes.  So foreign notifications are invisible exactly when those behind
  the initial packet are long enough (`recvFramed_enlarged_iff`).
-/

import NearLedger.Ble.RecvFramed

namespace NearLedger

variable {C : Crates} {commandTag : UInt8}

/-- A notification of an enlarged stream: one of the original stream or an inserted one. -/
inductive Item where
  | original (n : Bytes)
  | inserted (n : Bytes)
  deriving DecidableEq, Repr

namespace Item

def notification : Item → Bytes
  | original n => n
  | inserted n => n

def original? : Item → Option Bytes
  | original n => some n
  | inserted _ => none

def inserted? : Item → Option Bytes
  | original _ => none
  | inserted n => some n

end Item

/-- The original stream. -/
def originals (items : List Item) : List Bytes := items.filterMap Item.original?

/-- The notifications inserted into it. -/
def insertions (items : List Item) : List Bytes := items.filterMap Item.inserted?

/-- The stream with the inserted notifications. -/
def enlarged (items : List Item) : List Bytes := items.map Item.notification

/-- The notifications inserted behind the initial packet, which is the first one with the tag. -/
def insertedBehindInitial (commandTag : UInt8) (items : List Item) : List Bytes :=
  insertions (items.dropWhile fun item => item.notification.head? ≠ some commandTag)

@[simp] theorem originals_cons_original (n : Bytes) (items : List Item) :
    originals (.original n :: items) = n :: originals items := rfl

@[simp] theorem originals_cons_inserted (n : Bytes) (items : List Item) :
    originals (.inserted n :: items) = originals items := rfl

@[simp] theorem insertions_cons_original (n : Bytes) (items : List Item) :
    insertions (.original n :: items) = insertions items := rfl

@[simp] theorem insertions_cons_inserted (n : Bytes) (items : List Item) :
    insertions (.inserted n :: items) = n :: insertions items := rfl

@[simp] theorem enlarged_cons (item : Item) (items : List Item) :
    enlarged (item :: items) = item.notification :: enlarged items := rfl

/-- In front of the initial packet nothing counts. -/
theorem insertedBehindInitial_cons_of_ne {item : Item} (h : item.notification.head? ≠ some commandTag)
    (items : List Item) :
    insertedBehindInitial commandTag (item :: items) = insertedBehindInitial commandTag items := by
  rw [insertedBehindInitial, List.dropWhile_cons_of_pos (by simpa using h), insertedBehindInitial]

/-- Behind it every inserted notification does. -/
theorem insertedBehindInitial_cons_initial {n : Bytes} (h : n.head? = some commandTag)
    (items : List Item) :
    insertedBehindInitial commandTag (.original n :: items) = insertions items := by
  rw [insertedBehindInitial, List.dropWhile_cons_of_neg (by simp [Item.notification, h]),
    insertions_cons_original]

namespace RecvFramed

/-- At a read in the second loop. -/
def InSecondLoop (s : RecvState C) : Prop :=
  ∃ total buffer, buffer.length < total ∧ s = .awaitingSubsequent total buffer

theorem loop_inSecondLoop (total : Nat) (buffer : Bytes) :
    InSecondLoop (loop total buffer : RecvState C) ∨
      ∃ r, (loop total buffer : RecvState C) = .returned r := by
  by_cases hlt : buffer.length < total
  · exact .inl ⟨total, buffer, hlt, loop_of_lt hlt⟩
  · exact .inr ⟨_, loop_of_le (by omega)⟩

/-- A notification with the tag leads from the first loop to the second, or ends the function. -/
theorem onNotification_initialTag {n : Bytes} (h : n.head? = some commandTag) :
    InSecondLoop (onNotification commandTag (.awaitingInitial : RecvState C) (.ok n)) ∨
      ∃ r, onNotification commandTag (.awaitingInitial : RecvState C) (.ok n) = .returned r := by
  obtain ⟨bs, rfl⟩ := List.head?_eq_some_iff.mp h
  rw [onNotification, if_pos rfl]
  cases InitialPacket.tryFrom C (commandTag :: bs) with
  | ok packet => exact loop_inSecondLoop _ _
  | error err => exact .inr ⟨_, rfl⟩

/-- A notification read in the second loop leads back to it or ends the function. -/
theorem onNotification_subsequent {total : Nat} {buffer : Bytes} (hbuffer : buffer.length < total)
    (n : Bytes) :
    InSecondLoop (onNotification commandTag (.awaitingSubsequent total buffer : RecvState C) (.ok n)) ∨
      ∃ r, onNotification commandTag (.awaitingSubsequent total buffer : RecvState C) (.ok n) =
        .returned r := by
  rcases Nat.lt_or_ge n.length 3 with hshort | hlen
  · exact .inr ⟨_, onNotification_short hshort total buffer⟩
  · by_cases htag : n.head? = some commandTag
    · rw [onNotification_ofTag ⟨htag, hlen⟩]
      exact loop_inSecondLoop _ _
    · exact .inl ⟨total, buffer, hbuffer, onNotification_foreign hlen htag hbuffer⟩

/-- A function that has returned leaves everything unread, so one that leaves less has read on. -/
theorem run_returned_ne {ns unread : List Bytes} {last : Bytes} {r o : Except (BleError C) Bytes} :
    run commandTag (ns ++ last :: unread) (.returned r) ≠ (.returned o, unread) := by
  intro h
  rw [run_returned] at h
  have hlength := congrArg List.length (Prod.mk.inj h).2
  simp only [List.length_append, List.length_cons] at hlength
  omega

/-- Behind the initial packet every inserted notification has to be parsed: it is invisible when it
    has three bytes, and ends the function when it has fewer. -/
theorem run_enlarged_awaitingSubsequent {items : List Item} {last : Bytes} {unread : List Bytes}
    {b : Bytes} (hforeign : ∀ n ∈ insertions items, n.head? ≠ some commandTag) :
    ∀ {total : Nat} {buffer : Bytes}, buffer.length < total →
      run commandTag (originals items ++ last :: unread)
        (.awaitingSubsequent total buffer : RecvState C) = (.returned (.ok b), unread) →
      (run commandTag (enlarged items ++ last :: unread)
        (.awaitingSubsequent total buffer : RecvState C) = (.returned (.ok b), unread) ↔
        ∀ n ∈ insertions items, 3 ≤ n.length) := by
  induction items with
  | nil =>
      intro total buffer _ h
      exact ⟨fun _ n hn => absurd hn List.not_mem_nil, fun _ => h⟩
  | cons item items ih =>
      intro total buffer hbuffer h
      cases item with
      | original n =>
          rw [originals_cons_original, List.cons_append, run_cons (by simp)] at h
          rw [enlarged_cons, List.cons_append, run_cons (by simp), insertions_cons_original]
          -- both streams bring the same notification, so both are in the same state behind it
          rcases onNotification_subsequent hbuffer n with ⟨total', buffer', hbuffer', hnext⟩ | ⟨r, hnext⟩
          · rw [Item.notification]
            rw [hnext] at h ⊢
            exact ih hforeign hbuffer' h
          · rw [hnext] at h
            exact absurd h run_returned_ne
      | inserted n =>
          rw [originals_cons_inserted] at h
          rw [insertions_cons_inserted] at hforeign ⊢
          obtain ⟨hn, hforeign⟩ := List.forall_mem_cons.mp hforeign
          rw [enlarged_cons, List.cons_append, run_cons (by simp), List.forall_mem_cons,
            Item.notification]
          rcases Nat.lt_or_ge n.length 3 with hshort | hlen
          · rw [onNotification_short hshort, run_returned]
            constructor
            · intro heq
              cases heq
            · rintro ⟨hlen, -⟩
              omega
          · rw [onNotification_foreign hlen hn hbuffer, ih hforeign hbuffer h]
            exact ⟨fun hall => ⟨hlen, hall⟩, And.right⟩

end RecvFramed

/-- Foreign notifications inserted before the packet that completes the message change nothing,
    neither the message nor what is left unread, if and only if those behind the initial packet have
    at least three bytes. -/
theorem recvFramed_enlarged_iff {items : List Item} {last : Bytes} {unread : List Bytes} {b : Bytes}
    (h : recvFramed C commandTag (originals items ++ last :: unread) = (.returned (.ok b), unread))
    (hforeign : ∀ n ∈ insertions items, n ≠ [] ∧ n.head? ≠ some commandTag) :
    recvFramed C commandTag (enlarged items ++ last :: unread) = (.returned (.ok b), unread) ↔
      ∀ n ∈ insertedBehindInitial commandTag items, 3 ≤ n.length := by
  rw [recvFramed] at h ⊢
  induction items with
  | nil => exact ⟨fun _ n hn => absurd hn List.not_mem_nil, fun _ => h⟩
  | cons item items ih =>
      cases item with
      | original n =>
          rw [originals_cons_original, List.cons_append, RecvFramed.run_cons (by simp)] at h
          rw [enlarged_cons, List.cons_append, RecvFramed.run_cons (by simp)]
          by_cases htag : n.head? = some commandTag
          -- the initial packet: from here on the second loop reads
          · rw [insertedBehindInitial_cons_initial htag]
            have hforeign : ∀ m ∈ insertions items, m.head? ≠ some commandTag :=
              fun m hm => (hforeign m hm).2
            rcases RecvFramed.onNotification_initialTag htag with
              ⟨total, buffer, hbuffer, hnext⟩ | ⟨r, hnext⟩
            · rw [Item.notification]
              rw [hnext] at h ⊢
              exact RecvFramed.run_enlarged_awaitingSubsequent hforeign hbuffer h
            · rw [hnext] at h
              exact absurd h RecvFramed.run_returned_ne
          · rw [@insertedBehindInitial_cons_of_ne _ (.original n) htag, Item.notification]
            by_cases hne : n = []
            -- an empty notification would have ended the original call
            · subst hne
              exact absurd h RecvFramed.run_returned_ne
            · rw [RecvFramed.onNotification_initial_foreign hne htag] at h ⊢
              exact ih h hforeign
      | inserted n =>
          rw [originals_cons_inserted] at h
          rw [insertions_cons_inserted] at hforeign
          obtain ⟨⟨hne, hn⟩, hforeign⟩ := List.forall_mem_cons.mp hforeign
          rw [enlarged_cons, List.cons_append, RecvFramed.run_cons (by simp),
            @insertedBehindInitial_cons_of_ne _ (.inserted n) hn, Item.notification,
            RecvFramed.onNotification_initial_foreign hne hn]
          exact ih h hforeign

/-- A foreign notification of one byte between the packets of an answer makes the call fail. -/
theorem recvFramed_short_foreign :
    ∃ (items : List Item) (last b : Bytes) (unread : List Bytes),
      recvFramed Crates.reference apduCommandTag (originals items ++ last :: unread) =
        (.returned (.ok b), unread) ∧
      (∀ n ∈ insertions items, n ≠ [] ∧ n.head? ≠ some apduCommandTag) ∧
      recvFramed Crates.reference apduCommandTag (enlarged items ++ last :: unread) =
        (.returned (.error .invalidPacket), last :: unread) :=
  ⟨[.original [5, 0, 0, 0, 2, 7], .inserted [8]], [5, 0, 1, 8], [7, 8], [], rfl, by decide, rfl⟩

theorem recvFramed_enlarged_iff_skipped :
    recvFramed Crates.reference apduCommandTag
        [[8], [5, 0, 0, 0, 2, 7], [8, 0, 0], [5, 0, 1, 8], [9]] =
      (.returned (.ok [7, 8]), [[9]]) :=
  (@recvFramed_enlarged_iff Crates.reference apduCommandTag
    [.inserted [8], .original [5, 0, 0, 0, 2, 7], .inserted [8, 0, 0]] [5, 0, 1, 8] [[9]] [7, 8] rfl
    (by decide)).mpr (by decide)

end NearLedger
