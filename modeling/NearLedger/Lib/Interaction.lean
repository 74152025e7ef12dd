/-
  NearLedger.Lib.Interaction

  Programs that issue requests and go on with the replies, as trees: a leaf is
  the outcome (a value, an error or a panic), a node a request with one subtree
  for each reply.  A program can be run against an environment that answers
  from the history of requests (`run`), or followed along a list of requests
  with their replies (`Trace`); `Only` speaks of all requests it can issue.
-/

import Mathlib.Tactic.Common

namespace Interaction

/-- How a program ends. -/
inductive Outcome (ε α : Type) where
  | ok (a : α)
  | err (e : ε)
  | panicked
  deriving DecidableEq, Repr

/-- A program issuing requests `q : Req`, each answered in `Resp q`. -/
inductive Call (Req : Type) (Resp : Req → Type) (ε α : Type) where
  | ret (o : Outcome ε α) : Call Req Resp ε α
  | request (q : Req) (k : Resp q → Call Req Resp ε α) : Call Req Resp ε α

/-- What answers the requests: the history so far and the request determine the reply. -/
abbrev Env (Req : Type) (Resp : Req → Type) := List Req → (q : Req) → Resp q

namespace Call

variable {Req : Type} {Resp : Req → Type} {ε α β : Type}

/-- Return an error. -/
def throw (e : ε) : Call Req Resp ε α := ret (.err e)

/-- Unwind. -/
def panic : Call Req Resp ε α := ret .panicked

/-- Issue a request and return its reply. -/
def ask (q : Req) : Call Req Resp ε (Resp q) := request q fun r => ret (.ok r)

/-- The value, or a panic where there is none (`unwrap`, an index out of bounds). -/
def orPanic : Option α → Call Req Resp ε α
  | some a => ret (.ok a)
  | none => panic

/-- Go on with the value; an error or a panic ends the whole program. -/
def bind : Call Req Resp ε α → (α → Call Req Resp ε β) → Call Req Resp ε β
  | ret (.ok a), f => f a
  | ret (.err e), _ => ret (.err e)
  | ret .panicked, _ => ret .panicked
  | request q k, f => request q fun r => (k r).bind f

instance : Monad (Call Req Resp ε) where
  pure a := ret (.ok a)
  bind := bind

/-! ## Running against an environment -/

/-- The requests a program issues after the history `h`, and its outcome. -/
def run (env : Env Req Resp) : List Req → Call Req Resp ε α → List Req × Outcome ε α
  | _, ret o => ([], o)
  | h, request q k =>
      let r := run env (h ++ [q]) (k (env h q))
      (q :: r.1, r.2)

variable (env : Env Req Resp)

@[simp] theorem run_ret (h : List Req) (o : Outcome ε α) : run env h (ret o) = ([], o) := rfl

@[simp] theorem run_pure (h : List Req) (a : α) :
    run env h (pure a : Call Req Resp ε α) = ([], .ok a) := rfl

@[simp] theorem run_throw (h : List Req) (e : ε) :
    run env h (throw e : Call Req Resp ε α) = ([], .err e) := rfl

@[simp] theorem run_panic (h : List Req) :
    run env h (panic : Call Req Resp ε α) = ([], .panicked) := rfl

@[simp] theorem run_orPanic_some (h : List Req) (a : α) :
    run env h (orPanic (some a) : Call Req Resp ε α) = ([], .ok a) := rfl

@[simp] theorem run_orPanic_none (h : List Req) :
    run env h (orPanic none : Call Req Resp ε α) = ([], .panicked) := rfl

@[simp] theorem run_ask (h : List Req) (q : Req) :
    run env h (ask q : Call Req Resp ε (Resp q)) = ([q], .ok (env h q)) := rfl

theorem run_request (h : List Req) (q : Req) (k : Resp q → Call Req Resp ε α) :
    run env h (request q k) =
      (q :: (run env (h ++ [q]) (k (env h q))).1, (run env (h ++ [q]) (k (env h q))).2) := rfl

/-- The outcome of the first part decides how a composition goes on. -/
theorem run_bind (p : Call Req Resp ε α) (f : α → Call Req Resp ε β) :
    ∀ h : List Req, run env h (p >>= f) =
      match run env h p with
      | (qs, .ok a) => (qs ++ (run env (h ++ qs) (f a)).1, (run env (h ++ qs) (f a)).2)
      | (qs, .err e) => (qs, .err e)
      | (qs, .panicked) => (qs, .panicked) := by
  change ∀ h : List Req, run env h (bind p f) = _
  induction p with
  | ret o =>
      intro h
      cases o <;> simp [bind]
  | request q k ih =>
      intro h
      simp only [bind, run_request, ih]
      rcases run env (h ++ [q]) (k (env h q)) with ⟨qs, a | e | _⟩ <;> simp

/-! ## What a program can request -/

/-- Every request the program can issue, whatever the replies are, satisfies `P`. -/
def Only (P : Req → Prop) : Call Req Resp ε α → Prop
  | ret _ => True
  | request q k => P q ∧ ∀ r, (k r).Only P

/-- Every way the program can end satisfies `O`. -/
def Ends (O : Outcome ε α → Prop) : Call Req Resp ε α → Prop
  | ret o => O o
  | request _ k => ∀ r, (k r).Ends O

@[simp] theorem only_ret (P : Req → Prop) (o : Outcome ε α) :
    (ret o : Call Req Resp ε α).Only P := trivial

@[simp] theorem only_ask_bind (P : Req → Prop) (q : Req) (f : Resp q → Call Req Resp ε α) :
    ((ask q : Call Req Resp ε (Resp q)) >>= f).Only P ↔ P q ∧ ∀ r, (f r).Only P := Iff.rfl

/-! ## Following a list of replies -/

/-- `Trace p es p'`: when the requests of `es` get the replies of `es`, `p` has become `p'`. -/
inductive Trace : Call Req Resp ε α → List (Sigma Resp) → Call Req Resp ε α → Prop where
  | nil (p : Call Req Resp ε α) : Trace p [] p
  | cons {q : Req} {r : Resp q} {k : Resp q → Call Req Resp ε α} {es : List (Sigma Resp)}
      {p : Call Req Resp ε α} : Trace (k r) es p → Trace (request q k) (⟨q, r⟩ :: es) p

theorem trace_ret_iff {o : Outcome ε α} {es : List (Sigma Resp)} {p : Call Req Resp ε α} :
    Trace (ret o) es p ↔ es = [] ∧ p = ret o := by
  constructor
  · intro h
    cases h
    exact ⟨rfl, rfl⟩
  · rintro ⟨rfl, rfl⟩
    exact .nil _

theorem Trace.append {p q r : Call Req Resp ε α} {es es' : List (Sigma Resp)} (h : Trace p es q)
    (h' : Trace q es' r) : Trace p (es ++ es') r := by
  induction h with
  | nil => exact h'
  | cons _ ih => exact .cons (ih h')

/-- A finished trace of a request begins with that request. -/
theorem trace_request_ret_iff {q : Req} {k : Resp q → Call Req Resp ε α} {es : List (Sigma Resp)}
    {o : Outcome ε α} : Trace (request q k) es (ret o) ↔
      ∃ r es', es = ⟨q, r⟩ :: es' ∧ Trace (k r) es' (ret o) := by
  constructor
  · intro h
    cases h with
    | cons h => exact ⟨_, _, rfl, h⟩
  · rintro ⟨r, es', rfl, h⟩
    exact .cons h

/-- A finished trace of a composition: the first part has returned its value on the way, or has
    ended the whole. -/
theorem trace_bind_ret_iff {p : Call Req Resp ε α} {f : α → Call Req Resp ε β}
    {es : List (Sigma Resp)} {o : Outcome ε β} : Trace (p >>= f) es (ret o) ↔
      (∃ a es₁ es₂, es = es₁ ++ es₂ ∧ Trace p es₁ (ret (.ok a)) ∧ Trace (f a) es₂ (ret o)) ∨
        (∃ e, o = .err e ∧ Trace p es (ret (.err e))) ∨
          (o = .panicked ∧ Trace p es (ret .panicked)) := by
  change Trace (bind p f) es (ret o) ↔ _
  induction p generalizing es with
  | ret o' =>
      cases o' with
      | ok a => simp [bind, trace_ret_iff]
      | err e => simp [bind, trace_ret_iff, and_comm]
      | panicked => simp [bind, trace_ret_iff, and_comm]
  | request q k ih =>
      rw [bind, trace_request_ret_iff]
      constructor
      · rintro ⟨r, es', rfl, h⟩
        rcases (ih r).mp h with ⟨a, es₁, es₂, rfl, h₁, h₂⟩ | ⟨e, he, h₁⟩ | ⟨ho, h₁⟩
        · exact .inl ⟨a, ⟨q, r⟩ :: es₁, es₂, rfl, .cons h₁, h₂⟩
        · exact .inr (.inl ⟨e, he, .cons h₁⟩)
        · exact .inr (.inr ⟨ho, .cons h₁⟩)
      · rintro (⟨a, es₁, es₂, rfl, h₁, h₂⟩ | ⟨e, he, h₁⟩ | ⟨ho, h₁⟩)
        · obtain ⟨r, es', rfl, h⟩ := trace_request_ret_iff.mp h₁
          exact ⟨r, es' ++ es₂, rfl, (ih r).mpr (.inl ⟨a, es', es₂, rfl, h, h₂⟩)⟩
        · obtain ⟨r, es', rfl, h⟩ := trace_request_ret_iff.mp h₁
          exact ⟨r, es', rfl, (ih r).mpr (.inr (.inl ⟨e, he, h⟩))⟩
        · obtain ⟨r, es', rfl, h⟩ := trace_request_ret_iff.mp h₁
          exact ⟨r, es', rfl, (ih r).mpr (.inr (.inr ⟨ho, h⟩))⟩

/-- Where the composition returns a value, so has the first part. -/
theorem trace_bind_ok_iff {p : Call Req Resp ε α} {f : α → Call Req Resp ε β}
    {es : List (Sigma Resp)} {b : β} : Trace (p >>= f) es (ret (.ok b)) ↔
      ∃ a es₁ es₂, es = es₁ ++ es₂ ∧ Trace p es₁ (ret (.ok a)) ∧
        Trace (f a) es₂ (ret (.ok b)) := by
  simp [trace_bind_ret_iff]

/-- A finished trace of a request, where the replies are read off other data. -/
theorem trace_request_map_iff {κ : Type} {f : κ → Sigma Resp} {q : Req}
    {k : Resp q → Call Req Resp ε α} {es : List κ} {o : Outcome ε α} :
    Trace (request q k) (es.map f) (ret o) ↔
      ∃ e r es', es = e :: es' ∧ f e = ⟨q, r⟩ ∧ Trace (k r) (es'.map f) (ret o) := by
  constructor
  · intro h
    obtain ⟨r, es', hes, htail⟩ := trace_request_ret_iff.mp h
    obtain ⟨e, es', rfl, he, rfl⟩ := List.map_eq_cons_iff.mp hes
    exact ⟨e, r, es', rfl, he, htail⟩
  · rintro ⟨e, r, es', rfl, he, htail⟩
    rw [List.map_cons, he]
    exact .cons htail

/-- A program that has returned makes no more requests. -/
theorem eq_nil_of_trace_ret_map {κ : Type} {f : κ → Sigma Resp} {o o' : Outcome ε α} {es : List κ}
    (h : Trace (ret o) (es.map f) (ret o')) : es = [] :=
  List.map_eq_nil_iff.mp (trace_ret_iff.mp h).1

end Call

end Interaction
