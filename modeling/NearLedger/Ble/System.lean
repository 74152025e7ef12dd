/-
  NearLedger.Ble.System

  Any number of calls that share one `&TransportBle`.  They exclude each other
  only from the notification stream: `next_notification` takes the mutex of
  `notifications` anew for each notification and holds it until one has come or
  the wait has ended.  A call whose turn has not come waits without a timeout,
  as the timeout starts behind the lock.
-/

import NearLedger.Ble.Transport

namespace NearLedger

open Transition

variable {C : Crates}

/-- The call is in `next_notification`. -/
def Task.reads {α : Type} : Task C α → Bool
  | .running (.receiving _) _ => true
  | _ => false

/-- The calls on one `&TransportBle`, by the names `ι`. -/
structure System (C : Crates) (ι α : Type) where
  link : Link
  tasks : ι → Task C α
  -- the calls at the mutex of `TransportBle::notifications`: its holder, and then those that wait
  -- for it, in the order in which they get it
  readers : List ι

/-- A caller starts a call, or goes on with the one it has begun. -/
inductive Act (C : Crates) (α : Type) where
  | call (p : BleCall C α)
  -- `self.notifications.lock()`
  | lock
  | go (e : TaskEvent C)

namespace System

variable {ι α : Type} [DecidableEq ι]

/-- The call `i` goes on. -/
def goOn (dev : FrameDevice) (s : System C ι α) (i : ι) (e : TaskEvent C) (readers : List ι) :
    Option (System C ι α) :=
  ((s.tasks i).step dev s.link e).map fun r =>
    { link := r.2, tasks := Function.update s.tasks i r.1, readers := readers }

def step (dev : FrameDevice) (s : System C ι α) : ι × Act C α → Option (System C ι α)
  | (i, .call p) =>
      match s.tasks i with
      | .finished _ =>
          some { s with tasks := Function.update s.tasks i (Task.ofCall s.link.getMtuSize p) }
      | .running _ _ => none
  | (i, .lock) =>
      if (s.tasks i).reads = true ∧ i ∉ s.readers then some { s with readers := s.readers ++ [i] }
      else none
  | (i, .go e) =>
      if (s.tasks i).reads = true then
        -- the mutex is held for the whole wait, and the timeout starts when it has been taken
        if s.readers.head? = some i then s.goOn dev i e s.readers.tail else none
      else s.goOn dev i e s.readers

/-- The system with another queue of notifications. -/
def withQueue (s : System C ι α) (queue : List Bytes) : System C ι α :=
  { link := s.link.withQueue queue, tasks := s.tasks, readers := s.readers }

/-- A step of any call, whatever the device has put into the notification stream. -/
def AnyStep (s : System C ι α) (a : ι × Act C α) (s' : System C ι α) : Prop :=
  ∃ dev queue, (s.withQueue queue).step dev a = some s'

theorem anyStep_of_step {dev : FrameDevice} {s s' : System C ι α} {a : ι × Act C α}
    (h : s.step dev a = some s') : s.AnyStep a s' :=
  ⟨dev, s.link.notifications, h⟩

/-- What a step of the call `i` needs of the mutex and leaves of it. -/
def Hands (s : System C ι α) (i : ι) (readers : List ι) : Prop :=
  if (s.tasks i).reads = true then s.readers = i :: readers else s.readers = readers

/-- The steps of a call that has begun are those of its task, and a read is for the holder of the
    mutex only. -/
theorem step_go_iff {dev : FrameDevice} {s s' : System C ι α} {i : ι} {e : TaskEvent C} :
    s.step dev (i, .go e) = some s' ↔ ∃ t' l' readers,
      (s.tasks i).step dev s.link e = some (t', l') ∧ s.Hands i readers ∧
        s' = { link := l', tasks := Function.update s.tasks i t', readers := readers } := by
  have hgo : ∀ readers, s.goOn dev i e readers = some s' ↔ ∃ t' l',
      (s.tasks i).step dev s.link e = some (t', l') ∧
        s' = { link := l', tasks := Function.update s.tasks i t', readers := readers } := by
    intro readers
    rw [goOn, Option.map_eq_some_iff]
    constructor
    · rintro ⟨⟨t', l'⟩, ht, rfl⟩
      exact ⟨t', l', ht, rfl⟩
    · rintro ⟨t', l', ht, rfl⟩
      exact ⟨(t', l'), ht, rfl⟩
  rw [step]
  by_cases hreads : (s.tasks i).reads = true
  · simp only [if_pos hreads, Hands]
    cases hreaders : s.readers with
    | nil => simp
    | cons j rest =>
        by_cases hj : j = i
        · subst hj
          rw [List.head?_cons, if_pos rfl, List.tail_cons, hgo]
          constructor
          · rintro ⟨t', l', ht, rfl⟩
            exact ⟨t', l', rest, ht, rfl, rfl⟩
          · rintro ⟨t', l', readers, ht, heq, rfl⟩
            obtain rfl := List.tail_eq_of_cons_eq heq
            exact ⟨t', l', ht, rfl⟩
        · simp [hj]
  · simp only [if_neg hreads, Hands, hgo]
    constructor
    · rintro ⟨t', l', ht, rfl⟩
      exact ⟨t', l', s.readers, ht, rfl, rfl⟩
    · rintro ⟨t', l', readers, ht, rfl, rfl⟩
      exact ⟨t', l', ht, rfl⟩

theorem step_lock {dev : FrameDevice} {s : System C ι α} {i : ι} (hreads : (s.tasks i).reads = true)
    (hi : i ∉ s.readers) :
    s.step dev (i, .lock) = some { s with readers := s.readers ++ [i] } := by
  rw [step, if_pos ⟨hreads, hi⟩]

/-- What a step can do. -/
theorem step_cases {dev : FrameDevice} {s s' : System C ι α} {i : ι} {a : Act C α}
    (h : s.step dev (i, a) = some s') :
    (∃ p o, a = .call p ∧ s.tasks i = .finished o ∧
      s' = { s with tasks := Function.update s.tasks i (Task.ofCall s.link.getMtuSize p) }) ∨
    (a = .lock ∧ (s.tasks i).reads = true ∧ i ∉ s.readers ∧
      s' = { s with readers := s.readers ++ [i] }) ∨
    ∃ e t' l' readers, a = .go e ∧ (s.tasks i).step dev s.link e = some (t', l') ∧
      s.Hands i readers ∧
      s' = { link := l', tasks := Function.update s.tasks i t', readers := readers } := by
  cases a with
  | call p =>
      left
      rw [step] at h
      split at h
      · rename_i o ho
        exact ⟨p, o, rfl, ho, (Option.some.inj h).symm⟩
      · cases h
  | lock =>
      right
      left
      rw [step] at h
      split at h
      · rename_i hlock
        exact ⟨rfl, hlock.1, hlock.2, (Option.some.inj h).symm⟩
      · cases h
  | go e =>
      right
      right
      obtain ⟨t', l', readers, ht, hhands, rfl⟩ := step_go_iff.mp h
      exact ⟨e, t', l', readers, rfl, ht, hhands, rfl⟩

theorem mtuSize_step {dev : FrameDevice} {s s' : System C ι α} {a : ι × Act C α}
    (h : s.step dev a = some s') : s'.link.mtuSize = s.link.mtuSize := by
  obtain ⟨i, a⟩ := a
  rcases step_cases h with ⟨p, o, -, -, rfl⟩ | ⟨-, -, -, rfl⟩ | ⟨e, t', l', readers, -, ht, -, rfl⟩
  · rfl
  · rfl
  · exact Task.mtuSize_step ht

/-- Whatever the calls and their environment do, the stored MTU stays. -/
theorem mtuSize_run {dev : FrameDevice} {s s' : System C ι α} {as : List (ι × Act C α)}
    (h : Run (ofFn (step dev)) s as s') : s'.link.mtuSize = s.link.mtuSize :=
  h.invariant (I := fun t => t.link.mtuSize = s.link.mtuSize)
    (fun _ _ _ hI hs => (mtuSize_step hs).trans hI) rfl

/-! ## The mutex -/

/-- Each call at the mutex is in `next_notification`, and is there once. -/
structure MutexInv (s : System C ι α) : Prop where
  reads : ∀ i ∈ s.readers, (s.tasks i).reads = true
  nodup : s.readers.Nodup

omit [DecidableEq ι] in
theorem MutexInv.of_nil {s : System C ι α} (h : s.readers = []) : s.MutexInv := by
  refine ⟨fun i hi => ?_, ?_⟩
  · rw [h] at hi
    cases hi
  · rw [h]
    exact List.nodup_nil

omit [DecidableEq ι] in
/-- A call that does not read is not at the mutex. -/
theorem MutexInv.not_mem {s : System C ι α} (h : s.MutexInv) {i : ι}
    (hi : (s.tasks i).reads = false) : i ∉ s.readers := by
  intro hmem
  have hreads := h.reads i hmem
  rw [hi] at hreads
  cases hreads

theorem MutexInv.step {dev : FrameDevice} {s s' : System C ι α} {a : ι × Act C α} (h : s.MutexInv)
    (hstep : s.step dev a = some s') : s'.MutexInv := by
  -- the others at the mutex go on reading, whatever the call `i` does
  have hother : ∀ (i : ι) (t : Task C α) (readers : List ι), (∀ j ∈ readers, j ∈ s.readers) →
      i ∉ readers → ∀ j ∈ readers, (Function.update s.tasks i t j).reads = true := by
    intro i t readers hsub hi j hj
    have hne : j ≠ i := fun heq => hi (heq ▸ hj)
    rw [Function.update_of_ne hne]
    exact h.reads j (hsub j hj)
  obtain ⟨i, a⟩ := a
  rcases step_cases hstep with
    ⟨p, o, -, ho, rfl⟩ | ⟨-, hreads, hi, rfl⟩ | ⟨e, t', l', readers, -, -, hhands, rfl⟩
  · have hi := h.not_mem (i := i) (by rw [ho]; rfl)
    exact ⟨hother i _ s.readers (fun _ hj => hj) hi, h.nodup⟩
  · refine ⟨fun j hj => ?_, ?_⟩
    · rcases List.mem_append.mp hj with hj | hj
      · exact h.reads j hj
      · obtain rfl := List.mem_singleton.mp hj
        exact hreads
    · show (s.readers ++ [i]).Nodup
      rw [List.nodup_append]
      refine ⟨h.nodup, List.pairwise_singleton _ i, fun j hj k hk => ?_⟩
      obtain rfl := List.mem_singleton.mp hk
      exact fun heq => hi (heq ▸ hj)
  · rw [Hands] at hhands
    split at hhands
    -- the holder has given the mutex up
    · have hnodup := h.nodup
      rw [hhands, List.nodup_cons] at hnodup
      refine ⟨hother i t' readers (fun j hj => ?_) hnodup.1, hnodup.2⟩
      rw [hhands]
      exact List.mem_cons_of_mem i hj
    · rename_i hreads
      subst hhands
      have hi := h.not_mem (Bool.eq_false_iff.mpr hreads)
      exact ⟨hother i t' s.readers (fun _ hj => hj) hi, h.nodup⟩

/-- Where nobody else is at the mutex, a run of one call is a run in which the others stand still:
    it takes the mutex before each of its reads. -/
theorem run_of_task {dev : FrameDevice} {P : TaskEvent C → Prop}
    {R : System C ι α → ι × Act C α → System C ι α → Prop} {i : ι} {t' : Task C α} {l' : Link}
    {es : List (TaskEvent C)} {s : System C ι α}
    (hrun : Run (fun (u : Task C α × Link) e u' => P e ∧ u.1.step dev u.2 e = some u')
      (s.tasks i, s.link) es (t', l'))
    (hR : ∀ s₁ a s₂, (∀ j, j ≠ i → s₁.tasks j = s.tasks j) → (∀ e, a = .go e → P e) →
      (∀ p, a ≠ .call p) → s₁.step dev (i, a) = some s₂ → R s₁ (i, a) s₂)
    (hreaders : s.readers = [] ∨ s.readers = [i]) :
    ∃ (as : List (Act C α)) (s' : System C ι α), Run R s (as.map fun a => (i, a)) s' ∧
      s'.tasks i = t' ∧ s'.link = l' ∧ (s'.readers = [] ∨ s'.readers = [i]) ∧
      ∀ j, j ≠ i → s'.tasks j = s.tasks j := by
  generalize hx : (s.tasks i, s.link) = x at hrun
  generalize hy : (t', l') = y at hrun
  induction hrun generalizing s with
  | nil =>
      subst hx
      cases hy
      exact ⟨[], s, .nil s, rfl, rfl, hreaders, fun _ _ => rfl⟩
  | @cons _ x₁ _ e es hstep _ ih =>
      subst hx
      obtain ⟨hP, hstep⟩ := hstep
      -- the step itself, once the call has the mutex if it reads
      have hgo : ∀ s₁ : System C ι α, s₁.link = s.link → s₁.tasks = s.tasks →
          ∀ readers, s₁.Hands i readers → (readers = [] ∨ readers = [i]) →
          ∃ (as : List (Act C α)) (s' : System C ι α), Run R s₁ (as.map fun a => (i, a)) s' ∧
            s'.tasks i = t' ∧ s'.link = l' ∧ (s'.readers = [] ∨ s'.readers = [i]) ∧
            ∀ j, j ≠ i → s'.tasks j = s.tasks j := by
        intro s₁ hlink htasks readers hhands hreaders'
        have hne : ∀ j, j ≠ i → Function.update s.tasks i x₁.1 j = s.tasks j :=
          fun j hj => Function.update_of_ne hj _ _
        have hs₁ : s₁.step dev (i, .go e) = some
            { link := x₁.2, tasks := Function.update s.tasks i x₁.1, readers := readers } := by
          rw [step_go_iff, hlink, htasks]
          exact ⟨x₁.1, x₁.2, readers, hstep, hhands, rfl⟩
        have hfirst := hR s₁ (.go e) _ (fun j _ => congrFun htasks j)
          (fun e' he' => by cases he'; exact hP) (by simp) hs₁
        obtain ⟨as, s', hrest, hi, hl, hmutex, hother⟩ :=
          @ih { link := x₁.2, tasks := Function.update s.tasks i x₁.1, readers := readers }
            (fun s₂ a s₃ hs₂ => hR s₂ a s₃ fun j hj => (hs₂ j hj).trans (hne j hj)) hreaders'
            (Prod.ext (Function.update_self i _ _) rfl) hy
        exact ⟨.go e :: as, s', .cons hfirst hrest, hi, hl, hmutex,
          fun j hj => (hother j hj).trans (hne j hj)⟩
      by_cases hreads : (s.tasks i).reads = true
      · rcases hreaders with hnobody | hholds
        · have hlock : s.step dev (i, .lock) = some { s with readers := [i] } := by
            rw [step_lock hreads (by simp [hnobody]), hnobody, List.nil_append]
          have hfirst := hR s .lock _ (fun _ _ => rfl) (by simp) (by simp) hlock
          obtain ⟨as, s', hrest, hend⟩ := hgo { s with readers := [i] } rfl rfl []
            (by rw [Hands, if_pos hreads]) (.inl rfl)
          exact ⟨.lock :: as, s', .cons hfirst hrest, hend⟩
        · exact hgo s rfl rfl [] (by rw [Hands, if_pos hreads, hholds]) (.inl rfl)
      · exact hgo s rfl rfl s.readers (by rw [Hands, if_neg hreads]) hreaders

end System

end NearLedger
