/-
  NearLedger.Signing.Aborted

  Signing calls one after another, some of them aborted.  The device sees one
  stream of commands, in which `p1` marks the last chunk of a request and nothing
  marks the first.  So the stream determines the bytes since the last boundary
  (`assemble`), which are those of the completed request behind whatever aborted
  requests have left there (`completed_of_same_deviceLog`); where they end is not
  in the stream (`exists_same_deviceLog`).  All this is about calls that read the
  replies to their own commands; a call that reads a stale one goes on behind a
  chunk the device has refused (`exists_same_deviceLog_stale`).
-/

import NearLedger.Signing.Calls

namespace NearLedger

open Interaction Slices

variable {C : Crates}

/-! ## What the device log determines -/

/-- The last chunk of a request. -/
def Receipt.Marked (r : Receipt) : Prop := r.command.p1 = p1SignNormalLastChunk

instance : DecidablePred Receipt.Marked := fun r =>
  inferInstanceAs (Decidable (r.command.p1 = p1SignNormalLastChunk))

/-- The data of the chunks up to each marked one, after the bytes `buffer`.  A chunk that is not
    accepted is a boundary, too. -/
def assemble (C : Crates) : Bytes → List Receipt → Bytes × List Bytes
  | buffer, [] => (buffer, [])
  | buffer, r :: rs =>
      if r.Marked then
        ((assemble C [] rs).1, (buffer ++ r.command.data) :: (assemble C [] rs).2)
      else if r.Accepted C then assemble C (buffer ++ r.command.data) rs
      else assemble C [] rs

theorem assemble_append (buffer : Bytes) (xs ys : List Receipt) :
    assemble C buffer (xs ++ ys) =
      ((assemble C (assemble C buffer xs).1 ys).1,
        (assemble C buffer xs).2 ++ (assemble C (assemble C buffer xs).1 ys).2) := by
  induction xs generalizing buffer with
  | nil => rfl
  | cons x xs ih =>
      rw [List.cons_append, assemble, assemble]
      by_cases hmarked : x.Marked
      · simp only [if_pos hmarked, ih, List.cons_append]
      · by_cases haccepted : x.Accepted C
        · simp only [if_neg hmarked, if_pos haccepted, ih]
        · simp only [if_neg hmarked, if_neg haccepted, ih]

/-- What is in front of the next chunk after a call that was not completed: what was there and the
    chunks of the call, unless the last of them was not accepted. -/
def leftAfter (C : Crates) (left : Bytes) (rs : List Receipt) : Bytes :=
  match rs.getLast? with
  | none => left
  | some r => if r.Accepted C then left ++ (rs.map fun r => r.command.data).flatten else []

theorem leftAfter_cons {left : Bytes} {r : Receipt} {rs : List Receipt} (h : r.Accepted C) :
    leftAfter C left (r :: rs) = leftAfter C (left ++ r.command.data) rs := by
  cases rs with
  | nil => simp [leftAfter, h]
  | cons r' rs => simp [leftAfter, List.getLast?_cons]

theorem marked_signingCommand_iff {ins : UInt8} {isLast : Bool} {chunk : Bytes}
    {reply : Option Bytes} :
    Receipt.Marked ⟨signingCommand ins isLast chunk, reply⟩ ↔ isLast = true := by
  rw [Receipt.Marked, signingCommand]
  cases isLast <;> simp [p1SignNormal, p1SignNormalLastChunk]

/-- What a call adds: its whole bytes behind those in the buffer, or what it leaves there. -/
theorem assemble_receives {ins : UInt8} {cs : List Bytes} {rs : List Receipt}
    (h : Receives C ins cs rs) (buffer : Bytes) :
    assemble C buffer rs =
      if ∃ r ∈ rs, r.Marked then ([], [buffer ++ cs.flatten]) else (leftAfter C buffer rs, []) := by
  induction h generalizing buffer with
  | stop cs => simp [assemble, leftAfter]
  | last chunk rest reply =>
      simp only [assemble, List.mem_singleton, exists_eq_left, marked_signingCommand_iff]
      cases rest with
      | nil => simp
      | cons chunk' rest =>
          -- aborted here: the device keeps the chunk if it has accepted it
          by_cases haccepted : Receipt.Accepted C ⟨signingCommand ins false chunk, reply⟩
          · simp [leftAfter, haccepted]
          · simp [leftAfter, haccepted]
  -- an accepted chunk: the last one closes the request, any other one is kept
  | @next chunk rest reply rs haccepted hrest ih =>
      cases rest with
      | nil =>
          cases hrest
          simp only [assemble, List.mem_singleton, exists_eq_left, marked_signingCommand_iff]
          simp
      | cons chunk' rest =>
          -- more chunks follow, so this one goes to the buffer
          have hunmarked : ¬ Receipt.Marked
              ⟨signingCommand ins (chunk' :: rest).isEmpty chunk, reply⟩ := by
            rw [marked_signingCommand_iff]
            exact Bool.false_ne_true
          have hmarked : (∃ r ∈ (⟨signingCommand ins (chunk' :: rest).isEmpty chunk, reply⟩ :: rs :
              List Receipt), r.Marked) ↔ ∃ r ∈ rs, r.Marked := by
            simp only [List.mem_cons, exists_eq_or_imp, hunmarked, false_or]
          rw [assemble, if_neg hunmarked, if_pos haccepted, ih, leftAfter_cons haccepted]
          simp only [hmarked]
          rw [List.flatten_cons (l := chunk), ← List.append_assoc]
          rfl

/-! ## Completed requests -/

namespace SigningCall

/-- The device has received the last chunk of the request. -/
def Completed (call : SigningCall C) : Prop := ∃ r ∈ call.received, r.Marked

instance : DecidablePred (Completed : SigningCall C → Prop) := fun call =>
  inferInstanceAs (Decidable (∃ r ∈ call.received, r.Marked))

/-- The call has ended while the device, having accepted a chunk that is not the last one, waits
    for more. -/
def Abandoned (call : SigningCall C) : Prop :=
  ∃ r, call.received.getLast? = some r ∧ ¬ r.Marked ∧ r.Accepted C

end SigningCall

/-- The completed requests. -/
def completed (calls : List (SigningCall C)) : List (Request C) :=
  (calls.filter fun call => call.Completed).map SigningCall.request

/-- A completed request and what abandoned requests have left in front of it. -/
structure Completion (C : Crates) where
  request : Request C
  left : Bytes

/-- The bytes of the request behind what was left there. -/
def Completion.bytes (c : Completion C) : Option Bytes :=
  c.request.data.map fun data => c.left ++ data

/-- The completed requests, each with what is left in front of it. -/
def completions : Bytes → List (SigningCall C) → List (Completion C)
  | _, [] => []
  | left, call :: calls =>
      if call.Completed then { request := call.request, left := left } :: completions [] calls
      else completions (leftAfter C left call.received) calls

theorem map_request_completions (left : Bytes) (calls : List (SigningCall C)) :
    (completions left calls).map Completion.request = completed calls := by
  induction calls generalizing left with
  | nil => rfl
  | cons call calls ih =>
      rw [completions, completed]
      by_cases h : call.Completed
      · rw [if_pos h, List.map_cons, ih, List.filter_cons_of_pos (by simpa using h)]
        rfl
      · rw [if_neg h, ih, List.filter_cons_of_neg (by simpa using h)]
        rfl

/-- The device log determines the completed requests with what is left in front of them. -/
theorem map_bytes_completions (hP : C.PathDoc) (left : Bytes) {calls : List (SigningCall C)}
    (hown : ∀ call ∈ calls, call.OwnReplies) :
    (completions left calls).map Completion.bytes =
      (assemble C left (deviceLog calls)).2.map some := by
  induction calls generalizing left with
  | nil => rfl
  | cons call calls ih =>
      obtain ⟨hcall, hrest⟩ := List.forall_mem_cons.mp hown
      have ih := fun left => ih left hrest
      rw [deviceLog, List.flatMap_cons, assemble_append, completions, ← deviceLog]
      rcases call.receives hP hcall with ⟨data, hdata, hreceives⟩ | hnothing
      · have hcall := assemble_receives hreceives left
        rw [flatten_chunks (by decide)] at hcall
        by_cases h : call.Completed
        · rw [if_pos (show ∃ r ∈ call.received, r.Marked from h)] at hcall
          simp only [if_pos h, hcall, List.map_cons, ih, List.singleton_append]
          rw [Completion.bytes, hdata, Option.map_some]
        · rw [if_neg (show ¬ ∃ r ∈ call.received, r.Marked from h)] at hcall
          simp only [if_neg h, hcall, ih, List.nil_append]
      -- nothing was sent: the call changes nothing
      · have h : ¬ call.Completed := by simp [SigningCall.Completed, hnothing]
        rw [if_neg h, hnothing, ih]
        rfl

/-- Where nothing is abandoned, nothing is left. -/
theorem left_of_not_abandoned {calls : List (SigningCall C)} (h : ∀ call ∈ calls, ¬ call.Abandoned) :
    ∀ c ∈ completions [] calls, c.left = [] := by
  induction calls with
  | nil => simp [completions]
  | cons call calls ih =>
      have hrest := ih fun call' hcall' => h call' (List.mem_cons_of_mem _ hcall')
      rw [completions]
      by_cases hcompleted : call.Completed
      · rw [if_pos hcompleted]
        intro c hc
        rcases List.mem_cons.mp hc with rfl | hc
        · rfl
        · exact hrest c hc
      · have hleft : leftAfter C [] call.received = [] := by
          rw [leftAfter]
          cases hlast : call.received.getLast? with
          | none => rfl
          | some r =>
              -- not completed and not abandoned: the last chunk received was refused
              have hunmarked : ¬ r.Marked := fun hr =>
                hcompleted ⟨r, List.mem_of_getLast? hlast, hr⟩
              have hrefused : ¬ r.Accepted C := fun hr =>
                h call List.mem_cons_self ⟨r, hlast, hunmarked, hr⟩
              exact if_neg hrefused
        rw [if_neg hcompleted, hleft]
        exact hrest

/-- Equal bytes with equally much in front are the same request bytes. -/
theorem map_data_eq_of_bytes {xs ys : List (Completion C)}
    (hbytes : xs.map Completion.bytes = ys.map Completion.bytes)
    (hleft : xs.map (fun c => c.left.length) = ys.map fun c => c.left.length) :
    xs.map (fun c => c.request.data) = ys.map fun c => c.request.data := by
  induction xs generalizing ys with
  | nil =>
      obtain rfl := List.map_eq_nil_iff.mp hbytes.symm
      rfl
  | cons x xs ih =>
      cases ys with
      | nil => cases hbytes
      | cons y ys =>
          simp only [List.map_cons, List.cons.injEq] at hbytes hleft ⊢
          refine ⟨?_, ih hbytes.2 hleft.2⟩
          have hxy := hbytes.1
          rw [Completion.bytes, Completion.bytes] at hxy
          cases hx : x.request.data with
          | none =>
              rw [hx, Option.map_none] at hxy
              exact (Option.map_eq_none_iff.mp hxy.symm).symm
          | some data =>
              rw [hx, Option.map_some] at hxy
              obtain ⟨data', hdata', heq⟩ := Option.map_eq_some_iff.mp hxy.symm
              rw [hdata', (List.append_inj heq hleft.1.symm).2]

/-- Two runs in which every reply that is read is the reply to the command just sent, with the same
    device log: they have as many completed requests, with the same bytes when what abandoned
    requests have left is counted in; and with the same bytes of their own when equally much is left
    in front of them, as when no request is abandoned. -/
theorem completed_of_same_deviceLog (hP : C.PathDoc) (run₁ run₂ : List (SigningCall C))
    (hown₁ : ∀ call ∈ run₁, call.OwnReplies) (hown₂ : ∀ call ∈ run₂, call.OwnReplies)
    (hlog : deviceLog run₁ = deviceLog run₂) :
    (completions [] run₁).map Completion.bytes = (completions [] run₂).map Completion.bytes ∧
      ((completions [] run₁).map (fun c => c.left.length) =
          (completions [] run₂).map (fun c => c.left.length) →
        (completed run₁).map Request.data = (completed run₂).map Request.data) ∧
      ((∀ call ∈ run₁, ¬ call.Abandoned) → (∀ call ∈ run₂, ¬ call.Abandoned) →
        (completed run₁).map Request.data = (completed run₂).map Request.data) := by
  have hbytes : (completions [] run₁).map Completion.bytes =
      (completions [] run₂).map Completion.bytes := by
    rw [map_bytes_completions hP [] hown₁, map_bytes_completions hP [] hown₂, hlog]
  have hdata : (completions [] run₁).map (fun c => c.left.length) =
      (completions [] run₂).map (fun c => c.left.length) →
      (completed run₁).map Request.data = (completed run₂).map Request.data := by
    intro hleft
    have h := map_data_eq_of_bytes hbytes hleft
    rw [← map_request_completions [] run₁, ← map_request_completions [] run₂, List.map_map,
      List.map_map]
    exact h
  refine ⟨hbytes, hdata, fun h₁ h₂ => hdata ?_⟩
  have hlength := congrArg List.length hbytes
  simp only [List.length_map] at hlength
  apply List.ext_getElem
  · simpa using hlength
  · intro i hi₁ hi₂
    simp only [List.getElem_map]
    rw [left_of_not_abandoned h₁ _ (List.getElem_mem _),
      left_of_not_abandoned h₂ _ (List.getElem_mem _)]

/-! ## What it does not determine -/

/-- A device that accepts everything. -/
def acceptedAll (cmds : List APDUCommand) : List Receipt :=
  cmds.map fun command => { command := command, reply := some [0x90, 0x00] }

theorem acceptedAll_append (xs ys : List APDUCommand) :
    acceptedAll (xs ++ ys) = acceptedAll xs ++ acceptedAll ys :=
  List.map_append

theorem accepted_empty_reply (hA : C.ApduDoc) (command : APDUCommand) :
    Receipt.Accepted C { command := command, reply := some [0x90, 0x00] } := by
  obtain ⟨response, hfrom, -, hretcode⟩ := hA.fromAnswer_append [] 0x90 0x00
  exact ⟨response, hfrom, hretcode⟩

theorem receives_all (hA : C.ApduDoc) (ins : UInt8) (cs : List Bytes) :
    Receives C ins cs (acceptedAll (commandsOf ins cs)) := by
  induction cs with
  | nil => exact .stop []
  | cons chunk rest ih => exact .next (accepted_empty_reply hA _) ih

theorem receives_front (hA : C.ApduDoc) (ins : UInt8) (cs : List Bytes) {ds : List Bytes}
    (h : ds ≠ []) : Receives C ins (cs ++ ds) (acceptedAll (cs.map (signingCommand ins false))) := by
  induction cs with
  | nil => exact .stop ds
  | cons chunk cs ih =>
      have hmore : (cs ++ ds).isEmpty = false :=
        List.isEmpty_eq_false_iff.mpr (List.append_ne_nil_of_right_ne_nil cs h)
      have hfirst := @Receives.next C ins chunk (cs ++ ds) (some [0x90, 0x00])
        (acceptedAll (cs.map (signingCommand ins false))) (accepted_empty_reply hA _) ih
      rw [hmore] at hfirst
      exact hfirst

theorem not_marked_of_mem_front {ins : UInt8} {cs : List Bytes} :
    ¬ ∃ r ∈ acceptedAll (cs.map (signingCommand ins false)), r.Marked := by
  rintro ⟨r, hr, hmarked⟩
  obtain ⟨command, hcommand, rfl⟩ := List.mem_map.mp hr
  obtain ⟨chunk, -, rfl⟩ := List.mem_map.mp hcommand
  exact Bool.false_ne_true (marked_signingCommand_iff.mp hmarked)

theorem exists_marked_acceptedAll {ins : UInt8} {cs : List Bytes} (h : cs ≠ []) :
    ∃ r ∈ acceptedAll (commandsOf ins cs), r.Marked := by
  obtain ⟨c, hc, hlast⟩ := @exists_last_commandsOf ins cs h
  exact ⟨_, List.mem_map_of_mem hc, hlast⟩

/-- A request aborted behind whole chunks and the request after it leave the same log as one request
    that begins with these chunks, whatever the three requests are. -/
theorem exists_same_deviceLog (hA : C.ApduDoc) {aborted next whole : Request C}
    {front more back : Bytes} (hins : aborted.ins = whole.ins) (hins' : next.ins = whole.ins)
    (haborted : aborted.data = some (front ++ more)) (hnext : next.data = some back)
    (hwhole : whole.data = some (front ++ back)) (hfront : chunkSize ∣ front.length)
    (hmore : more ≠ []) (hback : back ≠ []) :
    ∃ run₁ run₂ : List (SigningCall C), run₁.map SigningCall.request = [aborted, next] ∧
      run₂.map SigningCall.request = [whole] ∧ (∀ call ∈ run₁, call.OwnReplies) ∧
      (∀ call ∈ run₂, call.OwnReplies) ∧ deviceLog run₁ = deviceLog run₂ ∧
      completed run₁ = [next] ∧ completed run₂ = [whole] := by
  have hchunks : ∀ ys : Bytes, chunks chunkSize (front ++ ys) =
      chunks chunkSize front ++ chunks chunkSize ys := chunks_append (by decide) hfront
  have hne : ∀ {ys : Bytes}, ys ≠ [] → chunks chunkSize ys ≠ [] := fun h => by
    rwa [Ne, chunks_eq_nil_iff (by decide)]
  -- the device takes the chunks of `front` from `aborted`, and all chunks of the other two
  obtain ⟨first, rfl, hfirst, hownFirst⟩ := exists_call_of_receives haborted (by
    rw [hchunks]
    exact receives_front hA _ _ (hne hmore))
  obtain ⟨second, rfl, hsecond, hownSecond⟩ := exists_call_of_receives hnext (receives_all hA _ _)
  obtain ⟨only, rfl, honly, hownOnly⟩ := exists_call_of_receives hwhole (receives_all hA _ _)
  have hfirst' : ¬ first.Completed := by
    rw [SigningCall.Completed, hfirst]
    exact not_marked_of_mem_front
  have hsecond' : second.Completed := by
    rw [SigningCall.Completed, hsecond]
    exact exists_marked_acceptedAll (hne hback)
  have honly' : only.Completed := by
    rw [SigningCall.Completed, honly]
    exact exists_marked_acceptedAll (hne (List.append_ne_nil_of_right_ne_nil _ hback))
  refine ⟨[first, second], [only], rfl, rfl, by simp [hownFirst, hownSecond], by simp [hownOnly],
    ?_, ?_, ?_⟩
  · simp only [deviceLog, List.flatMap_cons, List.flatMap_nil, List.append_nil]
    rw [hfirst, hsecond, honly, hins, hins', hchunks, commandsOf_append _ _ (hne hback),
      acceptedAll_append]
  · simp [completed, hfirst', hsecond']
  · simp [completed, honly']

/-! ## Stale replies -/

/-- Data of at most one chunk. -/
theorem chunks_of_length_le {data : Bytes} (h : data ≠ []) (hlen : data.length ≤ chunkSize) :
    chunks chunkSize data = [data] := by
  rw [chunks_of_ne_nil (by decide) h, List.take_of_length_le hlen, List.drop_eq_nil_of_le hlen,
    chunks_nil]

theorem not_accepted_refusal (hA : C.ApduDoc) (command : APDUCommand) :
    ¬ Receipt.Accepted C { command := command, reply := some [0x69, 0x85] } := by
  obtain ⟨refused, hfrom, -, hretcode⟩ := hA.fromAnswer_append [] 0x69 0x85
  rintro ⟨response, hresponse, hok⟩
  obtain rfl : refused = response := Option.some.inj (hfrom.symm.trans hresponse)
  rw [hretcode] at hok
  exact absurd hok (by decide)

namespace SigningCall

/-- A call whose last chunk to be received was marked or refused is not abandoned. -/
theorem not_abandoned (call : SigningCall C) (rs : List Receipt) {r : Receipt}
    (h : call.received = rs ++ [r]) (hr : r.Marked ∨ ¬ r.Accepted C) : ¬ call.Abandoned := by
  rintro ⟨r', hlast, hunmarked, haccepted⟩
  rw [h, List.getLast?_concat] at hlast
  obtain rfl := Option.some.inj hlast
  exact hr.elim hunmarked fun hrefused => hrefused haccepted

theorem completed_of_received (call : SigningCall C) (rs : List Receipt) {ins : UInt8}
    {chunk : Bytes} {reply : Option Bytes}
    (h : call.received = rs ++ [⟨signingCommand ins true chunk, reply⟩]) :
    call.Completed ∧ ¬ call.Abandoned := by
  have hmarked : Receipt.Marked ⟨signingCommand ins true chunk, reply⟩ :=
    marked_signingCommand_iff.mpr rfl
  have hmem : (⟨signingCommand ins true chunk, reply⟩ : Receipt) ∈ call.received := by
    rw [h]
    exact List.mem_append_right rs List.mem_cons_self
  exact ⟨⟨_, hmem, hmarked⟩, call.not_abandoned rs h (.inl hmarked)⟩

end SigningCall

/-- A call that stops behind its first chunk of several, whatever the reply to it, and a whole call
    after it. -/
theorem exists_stopped (hA : C.ApduDoc) {stopped next : Request C} {front more back : Bytes}
    (reply : Option Bytes) (hstopped : stopped.data = some (front ++ more))
    (hfront : front.length = chunkSize) (hmore : more ≠ []) (hnext : next.data = some back)
    (hback : back ≠ []) :
    ∃ first last : SigningCall C, first.request = stopped ∧ last.request = next ∧
      first.OwnReplies ∧ last.OwnReplies ∧
      first.received = [⟨signingCommand stopped.ins false front, reply⟩] ∧
      last.received = acceptedAll (commandsOf next.ins (chunks chunkSize back)) ∧
      ¬ first.Completed ∧ last.Completed := by
  have hne : ∀ {ys : Bytes}, ys ≠ [] → chunks chunkSize ys ≠ [] := fun h => by
    rwa [Ne, chunks_eq_nil_iff (by decide)]
  have hchunks : chunks chunkSize (front ++ more) = front :: chunks chunkSize more := by
    rw [chunks_append (by decide) ⟨1, hfront⟩,
      chunks_of_length_le (List.ne_nil_of_length_eq_add_one hfront) (Nat.le_of_eq hfront)]
    rfl
  have hmore' : (chunks chunkSize more).isEmpty = false :=
    List.isEmpty_eq_false_iff.mpr (hne hmore)
  have hreceives : Receives C stopped.ins (chunks chunkSize (front ++ more))
      [⟨signingCommand stopped.ins false front, reply⟩] := by
    rw [hchunks, ← hmore']
    exact .last front (chunks chunkSize more) reply
  obtain ⟨first, hfirst, hlogFirst, hownFirst⟩ := exists_call_of_receives hstopped hreceives
  obtain ⟨last, hlast, hlogLast, hownLast⟩ := exists_call_of_receives hnext (receives_all hA _ _)
  refine ⟨first, last, hfirst, hlast, hownFirst, hownLast, hlogFirst, hlogLast, ?_, ?_⟩
  · rintro ⟨r, hr, hmarked⟩
    rw [hlogFirst] at hr
    obtain rfl := List.mem_singleton.mp hr
    exact Bool.false_ne_true (marked_signingCommand_iff.mp hmarked)
  · rw [SigningCall.Completed, hlogLast]
    exact exists_marked_acceptedAll (hne hback)

/-- A call of one chunk whose reply comes too late. -/
theorem exists_timedOut_call {request : Request C} {data : Bytes} (hdata : request.data = some data)
    (hne : data ≠ []) (hlen : data.length ≤ chunkSize) :
    ∃ call : SigningCall C, call.request = request ∧
      call.received = [⟨signingCommand request.ins true data, some [0x90, 0x00]⟩] := by
  let events : List (Exchange C (BleError C)) :=
    [⟨signingCommand request.ins true data, .replyLost (some [0x90, 0x00]) .timeout⟩]
  have htrace : Call.Trace (loopBle request.ins (chunks chunkSize data) : BleCall C Bytes)
      (events.map Exchange.toRequest) (.ret (.err (.ofBleError .timeout))) := by
    rw [chunks_of_length_le hne hlen]
    exact .cons (.nil _)
  obtain ⟨call, hrequest, hreceived, -⟩ := exists_call_of_trace hdata htrace
  exact ⟨call, hrequest, hreceived⟩

/-- The next call reads each reply one command late.  It takes the `0x9000` that came too late for
    the reply to its first chunk, which the device refuses, and sends the second one. -/
theorem exists_stale_call (hA : C.ApduDoc) {request : Request C} {front back : Bytes}
    (hdata : request.data = some (front ++ back)) (hfront : front.length = chunkSize)
    (hback : back ≠ []) (hlen : back.length ≤ chunkSize) :
    ∃ call : SigningCall C, call.request = request ∧
      call.received = [⟨signingCommand request.ins false front, some [0x69, 0x85]⟩,
        ⟨signingCommand request.ins true back, some [0x90, 0x00]⟩] := by
  obtain ⟨accepted, -, -, hretcode⟩ := hA.fromAnswer_append [] 0x90 0x00
  obtain ⟨refused, -, -, hretcode'⟩ := hA.fromAnswer_append [] 0x69 0x85
  have haccepted : C.retcode accepted = returnCodeOk := hretcode
  have hrefused : C.retcode refused ≠ returnCodeOk := by
    rw [hretcode']
    decide
  have hne : front ≠ [] := List.ne_nil_of_length_eq_add_one hfront
  have hchunks : chunks chunkSize (front ++ back) = [front, back] := by
    rw [chunks_append (by decide) ⟨1, hfront⟩, chunks_of_length_le hne (Nat.le_of_eq hfront),
      chunks_of_length_le hback hlen]
    rfl
  let events : List (Exchange C (BleError C)) :=
    [⟨signingCommand request.ins false front, .stale (some [0x69, 0x85]) accepted⟩,
      ⟨signingCommand request.ins true back, .stale (some [0x90, 0x00]) refused⟩]
  have htrace : Call.Trace
      (loopBle request.ins (chunks chunkSize (front ++ back)) : BleCall C Bytes)
      (events.map Exchange.toRequest)
      (.ret (.err (.apduExchangeError (retcodeToErrorString (C.retcode refused))))) := by
    rw [hchunks]
    refine .cons ?_
    change Call.Trace (afterChunkBle false (loopBle request.ins [back]) (.ok accepted)) _ _
    rw [afterChunkBle, if_pos haccepted]
    refine .cons ?_
    change Call.Trace (afterChunkBle true (loopBle request.ins []) (.ok refused)) _ _
    rw [afterChunkBle, if_neg hrefused]
    exact .nil _
  obtain ⟨call, hrequest, hreceived, -⟩ := exists_call_of_trace hdata htrace
  exact ⟨call, hrequest, hreceived⟩

/-- A request that goes on behind its refused first chunk, and the same request refused in time with
    another one after it, leave the same log, though nothing is abandoned. -/
theorem exists_same_deviceLog_stale (hA : C.ApduDoc) {earlier whole next : Request C}
    {data front back : Bytes} (hins : next.ins = whole.ins) (hearlier : earlier.data = some data)
    (hwhole : whole.data = some (front ++ back)) (hnext : next.data = some back)
    (hdata : data ≠ []) (hdata' : data.length ≤ chunkSize) (hfront : front.length = chunkSize)
    (hback : back ≠ []) (hback' : back.length ≤ chunkSize) :
    ∃ run₁ run₂ : List (SigningCall C), run₁.map SigningCall.request = [earlier, whole] ∧
      run₂.map SigningCall.request = [earlier, whole, next] ∧
      (∀ call ∈ run₂, call.OwnReplies) ∧ (∀ call ∈ run₁, ¬ call.Abandoned) ∧
      (∀ call ∈ run₂, ¬ call.Abandoned) ∧ deviceLog run₁ = deviceLog run₂ ∧
      completed run₁ = [earlier, whole] ∧ completed run₂ = [earlier, next] := by
  -- the run with the stale replies
  obtain ⟨timedOut, htimedOut, hlogTimedOut⟩ := exists_timedOut_call hearlier hdata hdata'
  obtain ⟨late, hlate, hlogLate⟩ := exists_stale_call hA hwhole hfront hback hback'
  -- and the one in which every reply is read in time
  obtain ⟨done, hdone, hlogDone, hownDone⟩ := exists_call_of_receives hearlier (receives_all hA _ _)
  rw [chunks_of_length_le hdata hdata'] at hlogDone
  obtain ⟨refused, last, hrefused, hlast, hownRefused, hownLast, hlogRefused, hlogLast,
    hrefused', hlast'⟩ := exists_stopped hA (some [0x69, 0x85]) hwhole hfront hback hnext hback
  rw [chunks_of_length_le hback hback', hins] at hlogLast
  obtain ⟨htimedOut', hkeptTimedOut⟩ := timedOut.completed_of_received [] hlogTimedOut
  obtain ⟨hlate', hkeptLate⟩ := late.completed_of_received [_] hlogLate
  obtain ⟨hdone', hkeptDone⟩ := done.completed_of_received [] hlogDone
  have hkeptLast := (last.completed_of_received [] hlogLast).2
  have hkeptRefused : ¬ refused.Abandoned :=
    refused.not_abandoned [] hlogRefused (.inr (not_accepted_refusal hA _))
  refine ⟨[timedOut, late], [done, refused, last], by simp [htimedOut, hlate],
    by simp [hdone, hrefused, hlast], by simp [hownDone, hownRefused, hownLast],
    by simp [hkeptTimedOut, hkeptLate], by simp [hkeptDone, hkeptRefused, hkeptLast], ?_, ?_, ?_⟩
  · simp only [deviceLog, List.flatMap_cons, List.flatMap_nil, hlogTimedOut, hlogLate, hlogDone,
      hlogRefused, hlogLast]
    rfl
  · simp [completed, htimedOut', hlate', htimedOut, hlate]
  · simp [completed, hdone', hrefused', hlast', hdone, hlast]

/-! ## A device that cannot tell -/

/-- A request of two chunks, a request of one, and the request whose first chunk is that of the
    former and whose second one is the latter. -/
def longRequest : Request Crates.reference :=
  .transaction (List.replicate 246 7 ++ [7, 7, 7, 7]) (Crates.pathOne 44)

def shortRequest : Request Crates.reference := .transaction [9] (Crates.pathOne 45)

def mixedRequest : Request Crates.reference :=
  .transaction (List.replicate 246 7 ++ [0, 0, 0, 45, 9]) (Crates.pathOne 44)

/-- The bytes of `shortRequest`, all of them payload. -/
def pathlessRequest : Request Crates.reference :=
  .transaction [0, 0, 0, 45, 9] (Crates.pathOf [])

def mixedFront : Bytes := [0, 0, 0, 44] ++ List.replicate 246 7

theorem data_transaction {unsignedTx bytes : Bytes} {path : C.BIP32Path}
    (h : hdPathToBytes path = some bytes) :
    (Request.transaction unsignedTx path).data = some (bytes ++ unsignedTx) := by
  rw [Request.data, Request.path, h]
  rfl

theorem hdPathToBytes_pathOne_44 :
    hdPathToBytes (Crates.pathOne 44) = some [0, 0, 0, 44] := by decide

theorem data_longRequest : longRequest.data = some (mixedFront ++ [7, 7, 7, 7]) := by
  rw [longRequest, data_transaction hdPathToBytes_pathOne_44, mixedFront, List.append_assoc]

theorem data_shortRequest : shortRequest.data = some [0, 0, 0, 45, 9] := rfl

theorem data_pathlessRequest : pathlessRequest.data = some [0, 0, 0, 45, 9] := rfl

theorem data_mixedRequest : mixedRequest.data = some (mixedFront ++ [0, 0, 0, 45, 9]) := by
  rw [mixedRequest, data_transaction hdPathToBytes_pathOne_44, mixedFront, List.append_assoc]

theorem length_mixedFront : mixedFront.length = chunkSize := by
  rw [mixedFront, List.length_append, List.length_replicate]
  rfl

theorem exists_swallowed :
    ∃ run₁ run₂ : List (SigningCall Crates.reference),
      run₁.map SigningCall.request = [longRequest, shortRequest] ∧
      run₂.map SigningCall.request = [mixedRequest] ∧ (∀ call ∈ run₁, call.OwnReplies) ∧
      (∀ call ∈ run₂, call.OwnReplies) ∧ deviceLog run₁ = deviceLog run₂ ∧
      completed run₁ = [shortRequest] ∧ completed run₂ = [mixedRequest] :=
  exists_same_deviceLog Crates.reference_apduDoc rfl rfl data_longRequest data_shortRequest
    data_mixedRequest ⟨1, length_mixedFront⟩ (List.cons_ne_nil _ _) (List.cons_ne_nil _ _)

theorem exists_late :
    ∃ run₁ run₂ : List (SigningCall Crates.reference),
      run₁.map SigningCall.request = [shortRequest, mixedRequest] ∧
      run₂.map SigningCall.request = [shortRequest, mixedRequest, shortRequest] ∧
      (∀ call ∈ run₂, call.OwnReplies) ∧ (∀ call ∈ run₁, ¬ call.Abandoned) ∧
      (∀ call ∈ run₂, ¬ call.Abandoned) ∧ deviceLog run₁ = deviceLog run₂ ∧
      completed run₁ = [shortRequest, mixedRequest] ∧
      completed run₂ = [shortRequest, shortRequest] :=
  exists_same_deviceLog_stale Crates.reference_apduDoc rfl data_shortRequest data_mixedRequest
    data_shortRequest (List.cons_ne_nil _ _) (by decide) length_mixedFront (List.cons_ne_nil _ _)
    (by decide)

/-- Two runs with one device log: each has a call that stops behind the same first chunk, and then
    different requests with the same bytes. -/
theorem exists_stopped_alike (reply : Option Bytes) :
    ∃ run₁ run₂ : List (SigningCall Crates.reference),
      run₁.map SigningCall.request = [longRequest, shortRequest] ∧
      run₂.map SigningCall.request = [mixedRequest, pathlessRequest] ∧
      (∀ call ∈ run₁, call.OwnReplies) ∧ (∀ call ∈ run₂, call.OwnReplies) ∧
      deviceLog run₁ = deviceLog run₂ ∧ completed run₁ = [shortRequest] ∧
      completed run₂ = [pathlessRequest] ∧
      (completions [] run₁).map (fun c => c.left.length) =
        (completions [] run₂).map (fun c => c.left.length) ∧
      (¬ Receipt.Accepted Crates.reference
          ⟨signingCommand insSignTransaction false mixedFront, reply⟩ →
        (∀ call ∈ run₁, ¬ call.Abandoned) ∧ ∀ call ∈ run₂, ¬ call.Abandoned) := by
  have hA := Crates.reference_apduDoc
  obtain ⟨long, short, hlong, hshort, hownLong, hownShort, hlogLong, hlogShort, hlong', hshort'⟩ :=
    exists_stopped hA reply data_longRequest length_mixedFront (List.cons_ne_nil _ _)
      data_shortRequest (List.cons_ne_nil _ _)
  obtain ⟨mixed, pathless, hmixed, hpathless, hownMixed, hownPathless, hlogMixed, hlogPathless,
      hmixed', hpathless'⟩ :=
    exists_stopped hA reply data_mixedRequest length_mixedFront (List.cons_ne_nil _ _)
      data_pathlessRequest (List.cons_ne_nil _ _)
  have hins : longRequest.ins = mixedRequest.ins := by
    rw [longRequest, mixedRequest, Request.ins, Request.ins]
  have hsame : long.received = mixed.received := by
    rw [hlogLong, hlogMixed, hins]
  have hsame' : short.received = pathless.received := hlogShort.trans hlogPathless.symm
  have hkeptShort := (short.completed_of_received [] hlogShort).2
  have hkeptPathless := (pathless.completed_of_received [] hlogPathless).2
  refine ⟨[long, short], [mixed, pathless], by simp [hlong, hshort], by simp [hmixed, hpathless],
    by simp [hownLong, hownShort], by simp [hownMixed, hownPathless], ?_, ?_, ?_, ?_,
    fun hrefused => ⟨?_, ?_⟩⟩
  · simp [deviceLog, hsame, hsame']
  · simp [completed, hlong', hshort', hshort]
  · simp [completed, hmixed', hpathless', hpathless]
  · simp [completions, hlong', hshort', hmixed', hpathless', hsame]
  · have hkeptLong := long.not_abandoned [] hlogLong (.inr hrefused)
    simp [hkeptLong, hkeptShort]
  · have hkeptMixed := mixed.not_abandoned [] hlogMixed (.inr hrefused)
    simp [hkeptMixed, hkeptPathless]

theorem data_shortRequest_ne_mixedRequest : shortRequest.data ≠ mixedRequest.data := by
  intro h
  rw [data_shortRequest, data_mixedRequest] at h
  have hlength := congrArg List.length (Option.some.inj h)
  rw [List.length_append, length_mixedFront] at hlength
  exact absurd hlength (by decide)

/-- With a request aborted after its first chunk, the device log is that of another request, though
    every reply that is read is the reply to the command just sent; and with stale replies so it is,
    though no request is abandoned. -/
theorem aborted_chunk_swallowed :
    (∃ run₁ run₂ : List (SigningCall Crates.reference), (∀ call ∈ run₁, call.OwnReplies) ∧
      (∀ call ∈ run₂, call.OwnReplies) ∧ deviceLog run₁ = deviceLog run₂ ∧
      (completed run₁).map Request.data ≠ (completed run₂).map Request.data) ∧
    ∃ run₁ run₂ : List (SigningCall Crates.reference), (∀ call ∈ run₁, ¬ call.Abandoned) ∧
      (∀ call ∈ run₂, ¬ call.Abandoned) ∧ deviceLog run₁ = deviceLog run₂ ∧
      (completed run₁).map Request.data ≠ (completed run₂).map Request.data := by
  constructor
  · obtain ⟨run₁, run₂, -, -, hown₁, hown₂, hlog, hrun₁, hrun₂⟩ := exists_swallowed
    refine ⟨run₁, run₂, hown₁, hown₂, hlog, fun h => ?_⟩
    rw [hrun₁, hrun₂, List.map_singleton, List.map_singleton] at h
    exact data_shortRequest_ne_mixedRequest (List.singleton_inj.mp h)
  · obtain ⟨run₁, run₂, -, -, -, hkept₁, hkept₂, hlog, hrun₁, hrun₂⟩ := exists_late
    refine ⟨run₁, run₂, hkept₁, hkept₂, hlog, fun h => ?_⟩
    rw [hrun₁, hrun₂] at h
    simp only [List.map_cons, List.map_nil, List.cons.injEq, true_and, and_true] at h
    exact data_shortRequest_ne_mixedRequest h.symm

theorem completed_of_same_deviceLog_swallowed :
    (∃ run₁ run₂ : List (SigningCall Crates.reference), completed run₁ = [shortRequest] ∧
      completed run₂ = [mixedRequest] ∧
      (completions [] run₁).map Completion.bytes = (completions [] run₂).map Completion.bytes) ∧
    ∀ reply : Option Bytes, reply = some [0x90, 0x00] ∨ reply = some [0x69, 0x85] →
      ∃ run₁ run₂ : List (SigningCall Crates.reference),
        run₁.map SigningCall.request = [longRequest, shortRequest] ∧
        run₂.map SigningCall.request = [mixedRequest, pathlessRequest] ∧
        completed run₁ = [shortRequest] ∧ completed run₂ = [pathlessRequest] ∧
        (completed run₁).map Request.data = (completed run₂).map Request.data := by
  have hP := Crates.reference_pathDoc
  refine ⟨?_, ?_⟩
  · obtain ⟨run₁, run₂, -, -, hown₁, hown₂, hlog, hrun₁, hrun₂⟩ := exists_swallowed
    exact ⟨run₁, run₂, hrun₁, hrun₂,
      (completed_of_same_deviceLog hP run₁ run₂ hown₁ hown₂ hlog).1⟩
  · rintro reply hreply
    obtain ⟨run₁, run₂, hmap₁, hmap₂, hown₁, hown₂, hlog, hrun₁, hrun₂, hleft, hkept⟩ :=
      exists_stopped_alike reply
    obtain ⟨-, hequal, hnone⟩ := completed_of_same_deviceLog hP run₁ run₂ hown₁ hown₂ hlog
    refine ⟨run₁, run₂, hmap₁, hmap₂, hrun₁, hrun₂, ?_⟩
    rcases hreply with rfl | rfl
    -- both first requests are abandoned with their first chunk at the device
    · exact hequal hleft
    -- both first requests are refused
    · obtain ⟨hkept₁, hkept₂⟩ := hkept (not_accepted_refusal Crates.reference_apduDoc _)
      exact hnone hkept₁ hkept₂

end NearLedger
