/-
  NearLedger.Lib.Monitor

  Watching a program.  A monitor has a state that follows the requests and their
  replies, and says which requests are allowed in a state.  `Keeps` is about
  everything a program can do: all its requests are allowed, and it ends as
  `ends` wants it in the state the monitor is in then.  It is proved along the
  program, with one rule for a sequence (`keeps_bind`), and gives the same for
  every list of replies (`Keeps.of_trace`).  `failStop` is for programs that end
  with the error of the first reply that is a failure (`failStop_of_trace`).
-/

import NearLedger.Lib.Interaction

namespace Interaction

/-- A state that follows a program, and what is allowed in it. -/
structure Monitor (σ : Type) (Req : Type) (Resp : Req → Type) where
  step : σ → (q : Req) → Resp q → σ
  allowed : σ → Req → Prop

namespace Monitor

variable {σ : Type} {Req : Type} {Resp : Req → Type}

/-- The state after a list of requests with their replies. -/
def after (M : Monitor σ Req Resp) : σ → List (Sigma Resp) → σ
  | s, [] => s
  | s, ⟨q, r⟩ :: es => M.after (M.step s q r) es

/-- Every request of the list is allowed in the state before it. -/
def Allows (M : Monitor σ Req Resp) : σ → List (Sigma Resp) → Prop
  | _, [] => True
  | s, ⟨q, r⟩ :: es => M.allowed s q ∧ M.Allows (M.step s q r) es

end Monitor

namespace Call

variable {σ : Type} {Req : Type} {Resp : Req → Type} {ε α β : Type}

/-- From the state on, the program keeps to the monitor and ends as it should. -/
def Keeps (M : Monitor σ Req Resp) (ends : σ → Outcome ε α → Prop) : σ → Call Req Resp ε α → Prop
  | s, ret o => ends s o
  | s, request q k => M.allowed s q ∧ ∀ r, (k r).Keeps M ends (M.step s q r)

variable {M : Monitor σ Req Resp}

/-- A sequence: the second part goes on in the state in which the first one has ended. -/
theorem keeps_bind {ends : σ → Outcome ε α → Prop} {ends' : σ → Outcome ε β → Prop}
    {f : α → Call Req Resp ε β} (hok : ∀ s a, ends s (.ok a) → (f a).Keeps M ends' s)
    (herr : ∀ s e, ends s (.err e) → ends' s (.err e))
    (hpanic : ∀ s, ends s .panicked → ends' s .panicked) {p : Call Req Resp ε α} :
    ∀ {s : σ}, p.Keeps M ends s → (p.bind f).Keeps M ends' s := by
  induction p with
  | ret o =>
      intro s h
      cases o with
      | ok a => exact hok s a h
      | err e => exact herr s e h
      | panicked => exact hpanic s h
  | request q k ih => exact fun h => ⟨h.1, fun r => ih r (h.2 r)⟩

/-- What a program keeps to, it keeps to along every list of replies. -/
theorem Keeps.of_trace {ends : σ → Outcome ε α → Prop} {p p' : Call Req Resp ε α}
    {es : List (Sigma Resp)} (htrace : Trace p es p') :
    ∀ {s : σ}, p.Keeps M ends s → M.Allows s es ∧ p'.Keeps M ends (M.after s es) := by
  induction htrace with
  | nil => exact fun h => ⟨trivial, h⟩
  | @cons q r k es p' _ ih =>
      intro s h
      obtain ⟨hrest, hend⟩ := ih (h.2 r)
      exact ⟨⟨h.1, hrest⟩, hend⟩

end Call

/-! ## Failures -/

namespace Monitor

variable {σ : Type} {Req : Type} {Resp : Req → Type} {ε α β : Type}

/-- Watch a program that is to end with the error of the first failure. -/
def failStop (M : Monitor σ Req Resp) (failure : (q : Req) → Resp q → Option ε) :
    Monitor (Except ε σ) Req Resp where
  step
    | .error e, _, _ => .error e
    | .ok s, q, r =>
        match failure q r with
        | some e => .error e
        | none => .ok (M.step s q r)
  allowed
    | .error _, _ => False
    | .ok s, q => M.allowed s q

/-- With that error, or as `ends` wants it where nothing has failed. -/
def FailStopped (ends : σ → Outcome ε α → Prop) : Except ε σ → Outcome ε α → Prop
  | .error e, o => o = .err e
  | .ok s, o => ends s o

/-- Everything is allowed. -/
def permissive (Req : Type) (Resp : Req → Type) : Monitor Unit Req Resp where
  step _ _ _ := ()
  allowed _ _ := True

variable {M : Monitor σ Req Resp} {failure : (q : Req) → Resp q → Option ε}

theorem failStop_step_of_some {s : σ} {q : Req} {r : Resp q} {e : ε} (h : failure q r = some e) :
    (M.failStop failure).step (.ok s) q r = .error e := by
  rw [failStop]
  dsimp only
  rw [h]

theorem failStop_step_of_none {s : σ} {q : Req} {r : Resp q} (h : failure q r = none) :
    (M.failStop failure).step (.ok s) q r = .ok (M.step s q r) := by
  rw [failStop]
  dsimp only
  rw [h]

/-- A request and what follows: a failure is thrown at once. -/
theorem failStop_keeps_ask_bind {ends : σ → Outcome ε α → Prop} {s : σ} {q : Req}
    {f : Resp q → Call Req Resp ε α} (hallowed : M.allowed s q)
    (hok : ∀ r, failure q r = none →
      (f r).Keeps (M.failStop failure) (FailStopped ends) (.ok (M.step s q r)))
    (hfail : ∀ r e, failure q r = some e → f r = Call.throw e) :
    (Call.ask q >>= f).Keeps (M.failStop failure) (FailStopped ends) (.ok s) := by
  refine ⟨hallowed, fun r => ?_⟩
  show (f r).Keeps _ _ _
  cases hr : failure q r with
  | none =>
      rw [failStop_step_of_none hr]
      exact hok r hr
  | some e =>
      rw [failStop_step_of_some hr, hfail r e hr]
      rfl

/-- A sequence: a failure of the first part ends the whole. -/
theorem failStop_keeps_bind {ends : σ → Outcome ε α → Prop} {ends' : σ → Outcome ε β → Prop}
    {s : σ} {p : Call Req Resp ε α} {f : α → Call Req Resp ε β}
    (hp : p.Keeps (M.failStop failure) (FailStopped ends) (.ok s))
    (hok : ∀ s a, ends s (.ok a) → (f a).Keeps (M.failStop failure) (FailStopped ends') (.ok s))
    (herr : ∀ s e, ends s (.err e) → ends' s (.err e))
    (hpanic : ∀ s, ends s .panicked → ends' s .panicked) :
    (p >>= f).Keeps (M.failStop failure) (FailStopped ends') (.ok s) := by
  refine Call.keeps_bind ?_ ?_ ?_ hp
  · intro s a h
    cases s with
    | error e => cases h
    | ok s => exact hok s a h
  · intro s e h
    cases s with
    | error e' =>
        cases h
        rfl
    | ok s => exact herr s e h
  · intro s h
    cases s with
    | error e => cases h
    | ok s => exact hpanic s h

/-- After a failure a program has ended with its error. -/
theorem eq_of_keeps_error {ends : σ → Outcome ε α → Prop} {p : Call Req Resp ε α} {e : ε}
    (h : p.Keeps (M.failStop failure) (FailStopped ends) (.error e)) : p = .ret (.err e) := by
  cases p with
  | ret o => exact congrArg Call.ret h
  | request q k => exact absurd h.1 id

/-- Along every list of replies the requests are allowed, the first failure is the last reply and
    ends the program with its error, and without one it ends as `ends` wants it. -/
theorem failStop_of_trace {ends : σ → Outcome ε α → Prop} {p p' : Call Req Resp ε α}
    {es : List (Sigma Resp)} (htrace : Call.Trace p es p') :
    ∀ {s : σ}, p.Keeps (M.failStop failure) (FailStopped ends) (.ok s) →
      M.Allows s es ∧
      (∀ before q r after e, es = before ++ ⟨q, r⟩ :: after → failure q r = some e →
        after = [] ∧ p' = .ret (.err e)) ∧
      ((∀ x ∈ es, failure x.1 x.2 = none) → ∀ o, p' = .ret o → ends (M.after s es) o) := by
  induction htrace with
  | nil p =>
      intro s h
      refine ⟨trivial, by simp, ?_⟩
      rintro - o rfl
      exact h
  | @cons q r k es p' htail ih =>
      intro s h
      have hrest := h.2 r
      cases hr : failure q r with
      | some e =>
          -- nothing can follow
          rw [failStop_step_of_some hr] at hrest
          have hk := eq_of_keeps_error hrest
          rw [hk] at htail
          obtain ⟨rfl, rfl⟩ := Call.trace_ret_iff.mp htail
          refine ⟨⟨h.1, trivial⟩, ?_, fun hnone => ?_⟩
          · intro before q' r' after e' hes he'
            cases before with
            | nil =>
                cases hes
                rw [hr] at he'
                cases he'
                exact ⟨rfl, rfl⟩
            | cons x before => simp at hes
          · have hnot : failure q r = none := hnone ⟨q, r⟩ List.mem_cons_self
            rw [hr] at hnot
            cases hnot
      | none =>
          rw [failStop_step_of_none hr] at hrest
          obtain ⟨hallows, hfail, hends⟩ := ih hrest
          refine ⟨⟨h.1, hallows⟩, ?_, fun hnone => ?_⟩
          · intro before q' r' after e' hes he'
            cases before with
            | nil =>
                cases hes
                rw [hr] at he'
                cases he'
            | cons x before =>
                obtain ⟨-, hes'⟩ := List.cons_eq_cons.mp hes
                exact hfail before q' r' after e' hes' he'
          · exact hends fun x hx => hnone x (List.mem_cons_of_mem _ hx)

end Monitor

end Interaction
