/-
  NearLedger.Lib.Handlers

  Programs built on programs.  `attempt` makes a value of the error of a
  program.  `handle` carries out each request of a client by a program of
  another interface; a client does not notice which of two interfaces is under
  it when every single request ends alike (`run_handle_related`).  `serve` runs a
  program against a server with a state; an environment whose replies depend on
  the history through such a state is one (`serve_eq_run`).
-/

import NearLedger.Lib.Interaction

namespace Interaction

namespace Outcome

variable {ε ε' η α : Type}

/-- The outcome with other errors. -/
def mapErr (f : ε → ε') : Outcome ε α → Outcome ε' α
  | ok a => ok a
  | err e => err (f e)
  | panicked => panicked

/-- The error as a value, as far as it is looked at; a panic is no error. -/
def attempt (observe : ε → η) : Outcome ε α → Outcome ε' (Except η α)
  | ok a => ok (.ok a)
  | err e => ok (.error (observe e))
  | panicked => panicked

/-- Errors that look alike make no difference. -/
theorem attempt_mapErr_congr {δ : Type} {f : δ → ε} {g : δ → ε} {observe : ε → η}
    (h : ∀ e, observe (f e) = observe (g e)) (o : Outcome δ α) :
    ((o.mapErr f).attempt observe : Outcome ε' (Except η α)) = (o.mapErr g).attempt observe := by
  cases o with
  | err e => rw [mapErr, mapErr, attempt, attempt, h]
  | _ => rfl

end Outcome

namespace Call

variable {Req : Type} {Resp : Req → Type} {ε ε' α β : Type}

/-! ## Histories -/

/-- A program after a history is a program from the beginning, with the history in its
    environment. -/
theorem run_eq_run_nil (env : Env Req Resp) (p : Call Req Resp ε α) :
    ∀ h : List Req, run env h p = run (fun h' => env (h ++ h')) [] p := by
  have hshift : ∀ (p : Call Req Resp ε α) (h h' : List Req),
      run env (h ++ h') p = run (fun h' => env (h ++ h')) h' p := by
    intro p
    induction p with
    | ret o => exact fun _ _ => rfl
    | request q k ih =>
        intro h h'
        rw [run_request, run_request, List.append_assoc, ih]
  intro h
  rw [← hshift p h [], List.append_nil]

/-! ## Errors as values -/

/-- The program with its error as a value; a panic still ends it. -/
def attempt {η : Type} (observe : ε → η) : Call Req Resp ε α → Call Req Resp ε' (Except η α)
  | ret (.ok a) => ret (.ok (.ok a))
  | ret (.err e) => ret (.ok (.error (observe e)))
  | ret .panicked => ret .panicked
  | request q k => request q fun r => (k r).attempt observe

theorem run_attempt {η : Type} (observe : ε → η) (env : Env Req Resp) (p : Call Req Resp ε α) :
    ∀ h : List Req, run env h (p.attempt observe : Call Req Resp ε' (Except η α)) =
      ((run env h p).1, Outcome.attempt observe (run env h p).2) := by
  induction p with
  | ret o => intro h; cases o <;> rfl
  | request q k ih =>
      intro h
      rw [attempt, run_request, run_request, ih]

theorem only_attempt {η : Type} {observe : ε → η} {P : Req → Prop} {p : Call Req Resp ε α}
    (h : p.Only P) : (p.attempt observe : Call Req Resp ε' (Except η α)).Only P := by
  induction p with
  | ret o => cases o <;> trivial
  | request q k ih => exact ⟨h.1, fun r => ih r (h.2 r)⟩

/-! ## Clients -/

variable {Req' : Type} {Resp' : Req' → Type}

/-- Carry out every request of a client by a program. -/
def handle (f : (q : Req') → Call Req Resp ε (Resp' q)) :
    Call Req' Resp' ε α → Call Req Resp ε α
  | ret o => ret o
  | request q k => (f q).bind fun r => (k r).handle f

/-- The first request of a client is carried out, and then the rest of the client. -/
theorem run_handle_request (env : Env Req Resp) (f : (q : Req') → Call Req Resp ε (Resp' q))
    (h : List Req) (q : Req') (k : Resp' q → Call Req' Resp' ε α) :
    run env h ((request q k).handle f) =
      match run env h (f q) with
      | (qs, .ok r) =>
          (qs ++ (run env (h ++ qs) ((k r).handle f)).1, (run env (h ++ qs) ((k r).handle f)).2)
      | (qs, .err e) => (qs, .err e)
      | (qs, .panicked) => (qs, .panicked) := by
  change run env h (f q >>= fun r => (k r).handle f) = _
  rw [run_bind]
  rcases run env h (f q) with ⟨qs, r | e | _⟩ <;> rfl

/-- A program followed by another one requests what the two do. -/
theorem only_bind {P : Req → Prop} {p : Call Req Resp ε α} {f : α → Call Req Resp ε β}
    (hp : p.Only P) (hf : ∀ a, (f a).Only P) : (p.bind f).Only P := by
  induction p with
  | ret o =>
      cases o with
      | ok a => exact hf a
      | err e => trivial
      | panicked => trivial
  | request q k ih => exact ⟨hp.1, fun r => ih r (hp.2 r)⟩

/-- A client requests what the programs that carry out its requests do. -/
theorem only_handle {P : Req → Prop} {f : (q : Req') → Call Req Resp ε (Resp' q)}
    (hf : ∀ q, (f q).Only P) (c : Call Req' Resp' ε α) : (c.handle f).Only P := by
  induction c with
  | ret o => trivial
  | request q k ih => exact only_bind (hf q) ih

/-- Two interfaces under one client: if every request that it makes leads related histories to
    related histories and ends alike, so does the client. -/
theorem run_handle_related {Req₁ Req₂ : Type} {Resp₁ : Req₁ → Type} {Resp₂ : Req₂ → Type}
    {env₁ : Env Req₁ Resp₁} {env₂ : Env Req₂ Resp₂} {f₁ : (q : Req') → Call Req₁ Resp₁ ε (Resp' q)}
    {f₂ : (q : Req') → Call Req₂ Resp₂ ε (Resp' q)} {R : List Req₁ → List Req₂ → Prop}
    {P : Req' → Prop}
    (hrequest : ∀ q, P q → ∀ h₁ h₂, R h₁ h₂ →
      R (h₁ ++ (run env₁ h₁ (f₁ q)).1) (h₂ ++ (run env₂ h₂ (f₂ q)).1) ∧
        (run env₁ h₁ (f₁ q)).2 = (run env₂ h₂ (f₂ q)).2) (c : Call Req' Resp' ε α) (hc : c.Only P) :
    ∀ h₁ h₂, R h₁ h₂ →
      R (h₁ ++ (run env₁ h₁ (c.handle f₁)).1) (h₂ ++ (run env₂ h₂ (c.handle f₂)).1) ∧
        (run env₁ h₁ (c.handle f₁)).2 = (run env₂ h₂ (c.handle f₂)).2 := by
  induction c with
  | ret o =>
      intro h₁ h₂ hR
      refine ⟨?_, rfl⟩
      rw [handle, handle, run_ret, run_ret, List.append_nil, List.append_nil]
      exact hR
  | request q k ih =>
      intro h₁ h₂ hR
      obtain ⟨hR', hend⟩ := hrequest q hc.1 h₁ h₂ hR
      rw [run_handle_request, run_handle_request]
      generalize run env₁ h₁ (f₁ q) = r₁ at hR' hend ⊢
      generalize run env₂ h₂ (f₂ q) = r₂ at hR' hend ⊢
      obtain ⟨qs₁, o₁⟩ := r₁
      obtain ⟨qs₂, o₂⟩ := r₂
      obtain rfl : o₁ = o₂ := hend
      cases o₁ with
      | ok r =>
          have hrest := ih r (hc.2 r) _ _ hR'
          rw [List.append_assoc, List.append_assoc] at hrest
          exact hrest
      | err e => exact ⟨hR', rfl⟩
      | panicked => exact ⟨hR', rfl⟩

/-! ## Panics -/

/-- The program does not panic, whatever the replies are. -/
def NoPanic (p : Call Req Resp ε α) : Prop := p.Ends (· ≠ .panicked)

/-- What answers the requests, with a state. -/
abbrev Server (σ : Type) (Req : Type) (Resp : Req → Type) := σ → (q : Req) → Resp q × σ

/-- A program against a server: the outcome and the state the server ends in. -/
def serve {σ : Type} (srv : Server σ Req Resp) : σ → Call Req Resp ε α → Outcome ε α × σ
  | s, ret o => (o, s)
  | s, request q k => serve srv (srv s q).2 (k (srv s q).1)

/-- An environment that knows the history through the state of a server runs programs as that
    server does, as long as they keep to the requests for which that is so. -/
theorem serve_eq_run {σ : Type} {srv : Server σ Req Resp} {env : Env Req Resp}
    {stateOf : List Req → σ} {P : Req → Prop}
    (hreply : ∀ h q, P q → env h q = (srv (stateOf h) q).1)
    (hstate : ∀ h q, P q → stateOf (h ++ [q]) = (srv (stateOf h) q).2) (p : Call Req Resp ε α)
    (hp : p.Only P) : ∀ h : List Req, serve srv (stateOf h) p =
      ((run env h p).2, stateOf (h ++ (run env h p).1)) := by
  induction p with
  | ret o =>
      intro h
      rw [run_ret, List.append_nil]
      rfl
  | request q k ih =>
      intro h
      rw [serve, ← hreply h q hp.1, ← hstate h q hp.1, ih _ (hp.2 _), run_request,
        List.append_assoc]
      rfl

end Call

end Interaction
