/-
  NearLedger.Ble.Discovery

  `TransportBle::list_ledgers` and what `new` takes from it.  The adapters are
  scanned one after another, and of the peripherals each one has found those are
  kept that look like a Ledger by their name or by a service.
-/

import NearLedger.Ble.Gatt
import NearLedger.Lib.Monitor

namespace NearLedger

open Interaction

variable {C : Crates} {Adapter Peripheral : Type}

/-! ## What is asked of `btleplug` -/

/-- `btleplug::api::PeripheralProperties`, as far as they are looked at. -/
structure PeripheralProperties where
  localName : Option String
  services : List Uuid

/-- The requests of `list_ledgers`. -/
inductive DiscoveryReq (Adapter Peripheral : Type) where
  | managerNew
  | adapters
  | startScan (adapter : Adapter)
  | stopScan (adapter : Adapter)
  | peripherals (adapter : Adapter)
  | properties (peripheral : Peripheral)

/-- The type of the reply to each request. -/
@[reducible] def DiscoveryReq.Reply (C : Crates) {Adapter Peripheral : Type} :
    DiscoveryReq Adapter Peripheral → Type
  | .managerNew => Except C.BtleError Unit
  | .adapters => Except C.BtleError (List Adapter)
  | .startScan _ => Except C.BtleError Unit
  | .stopScan _ => Except C.BtleError Unit
  | .peripherals _ => Except C.BtleError (List Peripheral)
  | .properties _ => Except C.BtleError (Option PeripheralProperties)

/-- A request with its reply. -/
abbrev DiscoveryEvent (C : Crates) (Adapter Peripheral : Type) :=
  Sigma fun q : DiscoveryReq Adapter Peripheral => q.Reply C

/-- A function that looks for Ledger devices. -/
abbrev DiscoveryCall (C : Crates) (Adapter Peripheral : Type) :=
  Call (DiscoveryReq Adapter Peripheral) (DiscoveryReq.Reply C) (BleError C)

namespace Discovery

/-- `?` on a result of `btleplug`. -/
def orBle {α : Type} : Except C.BtleError α → DiscoveryCall C Adapter Peripheral α
  | .ok a => pure a
  | .error err => Call.throw (.ble err)

/-! ## `list_ledgers` -/

/-- `str::starts_with`. -/
def startsWith (name pat : String) : Bool := pat.toList.isPrefixOf name.toList

/-- The names `is_ledger` knows. -/
def isLedgerName (name : String) : Bool :=
  startsWith name "Nano X" || startsWith name "Nano S Plus" || startsWith name "Stax" ||
    startsWith name "Flex" || startsWith name "Ledger"

/-- What `is_ledger` makes of the reply to `properties`. -/
def isLedgerReply : Except C.BtleError (Option PeripheralProperties) → Bool
  | .ok (some props) =>
      match props.localName with
      | some name => isLedgerName name || props.services.any isLedgerServiceUuid
      | none => props.services.any isLedgerServiceUuid
  | _ => false

/-- `is_ledger`. -/
def isLedger (peripheral : Peripheral) : DiscoveryCall C Adapter Peripheral Bool := do
  let reply ← Call.ask (DiscoveryReq.properties peripheral)
  pure (isLedgerReply reply)

/-- The loop over the peripherals of an adapter. -/
def collectLedgers (ledgers : List Peripheral) :
    List Peripheral → DiscoveryCall C Adapter Peripheral (List Peripheral)
  | [] => pure ledgers
  | peripheral :: rest => do
      if ← isLedger peripheral then collectLedgers (ledgers ++ [peripheral]) rest
      else collectLedgers ledgers rest

/-- The loop over the adapters. -/
def scanAdapters (ledgers : List Peripheral) :
    List Adapter → DiscoveryCall C Adapter Peripheral (List Peripheral)
  | [] => pure ledgers
  | adapter :: rest => do
      orBle (← Call.ask (DiscoveryReq.startScan adapter))
      orBle (← Call.ask (DiscoveryReq.stopScan adapter))
      let peripherals ← orBle (← Call.ask (DiscoveryReq.peripherals adapter))
      let ledgers ← collectLedgers ledgers peripherals
      scanAdapters ledgers rest

/-- `list_ledgers`. -/
def listLedgers : DiscoveryCall C Adapter Peripheral (List Peripheral) := do
  orBle (← Call.ask DiscoveryReq.managerNew)
  let adapterList ← orBle (← Call.ask DiscoveryReq.adapters)
  scanAdapters [] adapterList

/-- `new`, up to the call of `connect` on the peripheral. -/
def firstLedger : DiscoveryCall C Adapter Peripheral Peripheral := do
  let ledgers ← listLedgers
  match ledgers with
  | ledger :: _ => pure ledger
  | [] => Call.throw .deviceNotFound

/-! ## One adapter at a time -/

/-- Which adapter is scanning, as far as the replies tell. -/
inductive ScanState (C : Crates) (Adapter : Type) where
  | idle
  | scanning (adapter : Adapter)
  -- `stop_scan` has failed
  | stuck (adapter : Adapter) (err : C.BtleError)

/-- The state after a reply. -/
def ScanState.step : ScanState C Adapter → (q : DiscoveryReq Adapter Peripheral) → q.Reply C →
    ScanState C Adapter
  | .idle, .startScan adapter, .ok _ => .scanning adapter
  | .scanning _, .stopScan _, .ok _ => .idle
  | .scanning adapter, .stopScan _, .error err => .stuck adapter err
  | s, _, _ => s

/-- What may be asked: of a scanning adapter nothing but to stop, and nothing of any other one. -/
def ScanState.Allowed : ScanState C Adapter → DiscoveryReq Adapter Peripheral → Prop
  | .idle, .stopScan _ => False
  | .idle, _ => True
  | .scanning adapter, q => q = .stopScan adapter
  | .stuck _ _, _ => False

/-- The discipline of the scans. -/
def scanDiscipline (C : Crates) (Adapter Peripheral : Type) :
    Monitor (ScanState C Adapter) (DiscoveryReq Adapter Peripheral) (DiscoveryReq.Reply C) where
  step := ScanState.step
  allowed := ScanState.Allowed

/-- How a search ends: with no adapter scanning, or with the error of the `stop_scan` that has
    failed. -/
def Settled : ScanState C Adapter → Outcome (BleError C) (List Peripheral) → Prop
  | .idle, .ok _ => True
  | .idle, .err (.ble _) => True
  | .stuck _ err, o => o = .err (.ble err)
  | _, _ => False

/-- A search that fails has an error of `btleplug`. -/
theorem Settled.err_eq {s : ScanState C Adapter} {e : BleError C}
    (h : Settled s (.err e : Outcome (BleError C) (List Peripheral))) : ∃ err, e = .ble err := by
  cases s with
  | idle =>
      cases e with
      | ble err => exact ⟨err, rfl⟩
      | _ => cases h
  | scanning adapter => cases h
  | stuck adapter err =>
      cases h
      exact ⟨err, rfl⟩

theorem Settled.not_panicked {s : ScanState C Adapter} :
    ¬ Settled s (.panicked : Outcome (BleError C) (List Peripheral)) := by
  cases s <;> simp [Settled]

theorem collectLedgers_keeps (peripherals : List Peripheral) :
    ∀ ledgers : List Peripheral,
      Call.Keeps (scanDiscipline C Adapter Peripheral) (fun s o => s = .idle ∧ ∃ ps, o = .ok ps)
        .idle (collectLedgers ledgers peripherals) := by
  induction peripherals with
  | nil => exact fun ledgers => ⟨rfl, ledgers, rfl⟩
  | cons peripheral rest ih =>
      intro ledgers
      refine ⟨trivial, fun reply => ?_⟩
      show Call.Keeps _ _ ScanState.idle (if isLedgerReply reply = true then
        collectLedgers (ledgers ++ [peripheral]) rest else collectLedgers ledgers rest)
      split
      · exact ih _
      · exact ih _

theorem scanAdapters_keeps (adapters : List Adapter) :
    ∀ ledgers : List Peripheral,
      Call.Keeps (scanDiscipline C Adapter Peripheral) Settled .idle
        (scanAdapters ledgers adapters) := by
  induction adapters with
  | nil => exact fun ledgers => trivial
  | cons adapter rest ih =>
      intro ledgers
      refine ⟨trivial, fun started => ?_⟩
      cases started with
      | error err => trivial
      | ok _ =>
          refine ⟨rfl, fun stopped => ?_⟩
          cases stopped with
          | error err => rfl
          | ok _ =>
              refine ⟨trivial, fun found => ?_⟩
              cases found with
              | error err => trivial
              | ok peripherals =>
                  show Call.Keeps _ _ ScanState.idle (Call.bind (collectLedgers ledgers peripherals)
                    fun ledgers' => scanAdapters ledgers' rest)
                  refine Call.keeps_bind ?_ ?_ ?_ (collectLedgers_keeps peripherals ledgers)
                  · rintro s ledgers' ⟨rfl, -⟩
                    exact ih ledgers'
                  · rintro s err ⟨-, ps, h⟩
                    cases h
                  · rintro s ⟨-, ps, h⟩
                    cases h

theorem listLedgers_keeps :
    Call.Keeps (scanDiscipline C Adapter Peripheral) Settled .idle listLedgers := by
  refine ⟨trivial, fun reply => ?_⟩
  cases reply with
  | error err => trivial
  | ok _ =>
      refine ⟨trivial, fun reply => ?_⟩
      cases reply with
      | error err => trivial
      | ok adapters => exact scanAdapters_keeps adapters []

/-- Whatever the replies are, no adapter is asked to scan, and nothing else is asked, while one is
    scanning; an adapter that does not stop ends the search with its error, and otherwise no adapter
    is scanning when the search has returned. -/
theorem listLedgers_scans {es : List (DiscoveryEvent C Adapter Peripheral)}
    {p : DiscoveryCall C Adapter Peripheral (List Peripheral)}
    (htrace : Call.Trace listLedgers es p) :
    (scanDiscipline C Adapter Peripheral).Allows .idle es ∧
      ∀ o, p = .ret o → Settled ((scanDiscipline C Adapter Peripheral).after .idle es) o := by
  obtain ⟨hallows, hkeeps⟩ := Call.Keeps.of_trace htrace listLedgers_keeps
  refine ⟨hallows, ?_⟩
  rintro o rfl
  exact hkeeps

/-- A search whose second adapter does not stop. -/
def stuckSearch : List (DiscoveryEvent Crates.reference (Fin 2) Unit) :=
  [⟨.managerNew, .ok ()⟩, ⟨.adapters, .ok [0, 1]⟩, ⟨.startScan 0, .ok ()⟩, ⟨.stopScan 0, .ok ()⟩,
    ⟨.peripherals 0, .ok []⟩, ⟨.startScan 1, .ok ()⟩, ⟨.stopScan 1, .error "adapter gone"⟩]

theorem listLedgers_scans_stuck :
    (scanDiscipline Crates.reference (Fin 2) Unit).Allows .idle stuckSearch ∧
      (scanDiscipline Crates.reference (Fin 2) Unit).after .idle stuckSearch =
        .stuck 1 "adapter gone" := by
  have htrace : Call.Trace listLedgers stuckSearch (.ret (.err (.ble "adapter gone"))) :=
    .cons (.cons (.cons (.cons (.cons (.cons (.cons (.nil _)))))))
  exact ⟨(listLedgers_scans htrace).1, rfl⟩

/-! ## Complete searches -/

/-- A peripheral with the reply to its `properties`. -/
abbrev Found (C : Crates) (Peripheral : Type) :=
  Peripheral × Except C.BtleError (Option PeripheralProperties)

/-- Those that look like a Ledger. -/
def ledgersAmong (found : List (Found C Peripheral)) : List Peripheral :=
  (found.filter fun x => isLedgerReply x.2).map Prod.fst

theorem ledgersAmong_cons_of_pos {x : Found C Peripheral} (found : List (Found C Peripheral))
    (h : isLedgerReply x.2 = true) : ledgersAmong (x :: found) = x.1 :: ledgersAmong found := by
  simp [ledgersAmong, h]

theorem ledgersAmong_cons_of_neg {x : Found C Peripheral} (found : List (Found C Peripheral))
    (h : ¬ isLedgerReply x.2 = true) : ledgersAmong (x :: found) = ledgersAmong found := by
  simp [ledgersAmong, h]

/-- What one adapter has contributed to a search. -/
structure AdapterScan (C : Crates) (Adapter Peripheral : Type) where
  adapter : Adapter
  found : List (Found C Peripheral)

namespace AdapterScan

/-- A peripheral is asked for its properties. -/
def asked (x : Found C Peripheral) : DiscoveryEvent C Adapter Peripheral := ⟨.properties x.1, x.2⟩

/-- The requests for one adapter. -/
def events (scan : AdapterScan C Adapter Peripheral) : List (DiscoveryEvent C Adapter Peripheral) :=
  ⟨.startScan scan.adapter, .ok ()⟩ :: ⟨.stopScan scan.adapter, .ok ()⟩ ::
    ⟨.peripherals scan.adapter, .ok (scan.found.map Prod.fst)⟩ :: scan.found.map asked

/-- The peripherals of the adapter that look like a Ledger. -/
def ledgers (scan : AdapterScan C Adapter Peripheral) : List Peripheral := ledgersAmong scan.found

end AdapterScan

/-- The requests of a search that has gone over these scans. -/
def searchEvents (scans : List (AdapterScan C Adapter Peripheral)) :
    List (DiscoveryEvent C Adapter Peripheral) :=
  ⟨.managerNew, .ok ()⟩ :: ⟨.adapters, .ok (scans.map AdapterScan.adapter)⟩ ::
    scans.flatMap AdapterScan.events

theorem trace_orBle_ok_iff {α β : Type} {r : Except C.BtleError α}
    {f : α → DiscoveryCall C Adapter Peripheral β}
    {es : List (DiscoveryEvent C Adapter Peripheral)} {b : β} :
    Call.Trace (orBle r >>= f) es (.ret (.ok b)) ↔
      ∃ a, r = .ok a ∧ Call.Trace (f a) es (.ret (.ok b)) := by
  cases r with
  | ok a =>
      constructor
      · exact fun h => ⟨a, rfl, h⟩
      · rintro ⟨a', ha, h⟩
        cases ha
        exact h
  | error err =>
      constructor
      · exact fun h => absurd (Call.trace_ret_iff.mp h).2 (by simp)
      · rintro ⟨a', ha, -⟩
        cases ha

/-- The loop over the peripherals asks each one for its properties, and keeps those that look like a
    Ledger, in their order. -/
theorem trace_collectLedgers_iff {peripherals : List Peripheral} :
    ∀ {ledgers ps : List Peripheral} {es : List (DiscoveryEvent C Adapter Peripheral)},
      Call.Trace (collectLedgers ledgers peripherals) es (.ret (.ok ps)) ↔
        ∃ found : List (Found C Peripheral), peripherals = found.map Prod.fst ∧
          es = found.map AdapterScan.asked ∧ ps = ledgers ++ ledgersAmong found := by
  induction peripherals with
  | nil =>
      intro ledgers ps es
      rw [collectLedgers]
      constructor
      · intro h
        obtain ⟨rfl, hret⟩ := Call.trace_ret_iff.mp h
        cases hret
        exact ⟨[], rfl, rfl, (List.append_nil _).symm⟩
      · rintro ⟨found, hfound, rfl, rfl⟩
        obtain rfl := List.map_eq_nil_iff.mp hfound.symm
        show Call.Trace (pure ledgers) [] (.ret (.ok (ledgers ++ [])))
        rw [List.append_nil]
        exact .nil _
  | cons peripheral rest ih =>
      intro ledgers ps es
      -- the rest of the loop goes on with the peripheral if it looks like a Ledger
      have hrest : ∀ (reply : Except C.BtleError (Option PeripheralProperties))
          (es' : List (DiscoveryEvent C Adapter Peripheral)),
          Call.Trace (if isLedgerReply reply = true then
            collectLedgers (ledgers ++ [peripheral]) rest
            else collectLedgers ledgers rest) es' (.ret (.ok ps)) ↔
          ∃ found : List (Found C Peripheral), rest = found.map Prod.fst ∧
            es' = found.map AdapterScan.asked ∧
              ps = ledgers ++ ledgersAmong ((peripheral, reply) :: found) := by
        intro reply es'
        by_cases hledger : isLedgerReply reply = true
        · have hcons (found : List (Found C Peripheral)) :
              ledgersAmong ((peripheral, reply) :: found) = peripheral :: ledgersAmong found :=
            ledgersAmong_cons_of_pos found hledger
          simp only [if_pos hledger, ih, hcons, List.append_assoc, List.singleton_append]
        · have hcons (found : List (Found C Peripheral)) :
              ledgersAmong ((peripheral, reply) :: found) = ledgersAmong found :=
            ledgersAmong_cons_of_neg found hledger
          simp only [if_neg hledger, ih, hcons]
      change Call.Trace (.request (.properties peripheral) fun reply =>
        if isLedgerReply reply = true then collectLedgers (ledgers ++ [peripheral]) rest
        else collectLedgers ledgers rest) es _ ↔ _
      rw [Call.trace_request_ret_iff]
      constructor
      · rintro ⟨reply, es', rfl, h⟩
        obtain ⟨found, rfl, rfl, hps⟩ := (hrest reply es').mp h
        exact ⟨(peripheral, reply) :: found, rfl, rfl, hps⟩
      · rintro ⟨found, hfound, rfl, hps⟩
        obtain ⟨⟨peripheral', reply⟩, found, rfl, rfl, rfl⟩ := List.map_eq_cons_iff.mp hfound.symm
        exact ⟨reply, _, rfl, (hrest reply _).mpr ⟨found, rfl, rfl, hps⟩⟩

theorem trace_scanAdapters_iff {adapters : List Adapter} :
    ∀ {ledgers ps : List Peripheral} {es : List (DiscoveryEvent C Adapter Peripheral)},
      Call.Trace (scanAdapters ledgers adapters) es (.ret (.ok ps)) ↔
        ∃ scans : List (AdapterScan C Adapter Peripheral),
          adapters = scans.map AdapterScan.adapter ∧ es = scans.flatMap AdapterScan.events ∧
            ps = ledgers ++ scans.flatMap AdapterScan.ledgers := by
  induction adapters with
  | nil =>
      intro ledgers ps es
      rw [scanAdapters]
      constructor
      · intro h
        obtain ⟨rfl, hret⟩ := Call.trace_ret_iff.mp h
        cases hret
        exact ⟨[], rfl, rfl, (List.append_nil _).symm⟩
      · rintro ⟨scans, hscans, rfl, rfl⟩
        obtain rfl := List.map_eq_nil_iff.mp hscans.symm
        show Call.Trace (pure ledgers) [] (.ret (.ok (ledgers ++ [])))
        rw [List.append_nil]
        exact .nil _
  | cons adapter rest ih =>
      intro ledgers ps es
      constructor
      · intro h
        obtain ⟨started, es₁, rfl, h₁⟩ := Call.trace_request_ret_iff.mp h
        obtain ⟨_, rfl, hstop⟩ := trace_orBle_ok_iff.mp h₁
        obtain ⟨stopped, es₂, rfl, h₂⟩ := Call.trace_request_ret_iff.mp hstop
        obtain ⟨_, rfl, hperipherals⟩ := trace_orBle_ok_iff.mp h₂
        obtain ⟨reply, es₃, rfl, h₃⟩ := Call.trace_request_ret_iff.mp hperipherals
        obtain ⟨peripherals, rfl, hfound⟩ := trace_orBle_ok_iff.mp h₃
        obtain ⟨ledgers', asked, rest', rfl, hcollect, hscan⟩ := Call.trace_bind_ok_iff.mp hfound
        obtain ⟨found, rfl, rfl, rfl⟩ := trace_collectLedgers_iff.mp hcollect
        obtain ⟨scans, rfl, rfl, rfl⟩ := ih.mp hscan
        exact ⟨{ adapter := adapter, found := found } :: scans, rfl, rfl, List.append_assoc ..⟩
      · rintro ⟨scans, hscans, rfl, rfl⟩
        obtain ⟨⟨adapter', found⟩, scans, rfl, rfl, rfl⟩ := List.map_eq_cons_iff.mp hscans.symm
        have hcollect : Call.Trace (collectLedgers ledgers (found.map Prod.fst))
            (found.map AdapterScan.asked)
            (.ret (.ok (ledgers ++ ledgersAmong found)) : DiscoveryCall C Adapter Peripheral _) :=
          trace_collectLedgers_iff.mpr ⟨found, rfl, rfl, rfl⟩
        have hscan : Call.Trace
            (scanAdapters (ledgers ++ ledgersAmong found) (scans.map AdapterScan.adapter))
            (scans.flatMap AdapterScan.events) (.ret (.ok (ledgers ++ ledgersAmong found ++
              scans.flatMap AdapterScan.ledgers))) :=
          ih.mpr ⟨scans, rfl, rfl, rfl⟩
        rw [List.append_assoc] at hscan
        have hrest : Call.Trace
            (collectLedgers ledgers (found.map Prod.fst) >>= fun ledgers' =>
              scanAdapters ledgers' (scans.map AdapterScan.adapter))
            (found.map AdapterScan.asked ++ scans.flatMap AdapterScan.events)
            (.ret (.ok (ledgers ++ (ledgersAmong found ++ scans.flatMap AdapterScan.ledgers)))) :=
          Call.trace_bind_ok_iff.mpr ⟨_, _, _, rfl, hcollect, hscan⟩
        exact .cons (.cons (.cons hrest))

/-- `list_ledgers` returns a list after exactly these requests: every adapter has scanned in its
    turn, every peripheral that it has found has been asked for its properties, and the list has
    those that look like a Ledger, in the order in which they were found. -/
theorem listLedgers_ok_iff {es : List (DiscoveryEvent C Adapter Peripheral)}
    {ps : List Peripheral} :
    Call.Trace (listLedgers : DiscoveryCall C Adapter Peripheral _) es (.ret (.ok ps)) ↔
      ∃ scans : List (AdapterScan C Adapter Peripheral), es = searchEvents scans ∧
        ps = scans.flatMap AdapterScan.ledgers := by
  constructor
  · intro h
    obtain ⟨managed, es₁, rfl, h₁⟩ := Call.trace_request_ret_iff.mp h
    obtain ⟨_, rfl, hadapters⟩ := trace_orBle_ok_iff.mp h₁
    obtain ⟨reply, es₂, rfl, h₂⟩ := Call.trace_request_ret_iff.mp hadapters
    obtain ⟨adapters, rfl, hscan⟩ := trace_orBle_ok_iff.mp h₂
    obtain ⟨scans, rfl, rfl, rfl⟩ := trace_scanAdapters_iff.mp hscan
    exact ⟨scans, rfl, rfl⟩
  · rintro ⟨scans, rfl, rfl⟩
    exact .cons (.cons (trace_scanAdapters_iff.mpr ⟨scans, rfl, rfl, rfl⟩))

theorem ledgers_eq_nil_iff {scans : List (AdapterScan C Adapter Peripheral)} :
    scans.flatMap AdapterScan.ledgers = [] ↔
      ∀ scan ∈ scans, ∀ x ∈ scan.found, isLedgerReply x.2 = false := by
  simp [AdapterScan.ledgers, ledgersAmong]

/-- What `new` makes of the list. -/
def pick (ledgers : List Peripheral) : DiscoveryCall C Adapter Peripheral Peripheral :=
  .ret (ledgers.head?.elim (.err .deviceNotFound) .ok)

theorem firstLedger_eq :
    (firstLedger : DiscoveryCall C Adapter Peripheral Peripheral) = listLedgers >>= pick := by
  rw [firstLedger]
  congr 1
  funext ledgers
  cases ledgers <;> rfl

/-- Up to the errors of `btleplug`, `new` ends as a complete search makes it end. -/
theorem trace_firstLedger_iff {es : List (DiscoveryEvent C Adapter Peripheral)}
    {o : Outcome (BleError C) Peripheral} (ho : ∀ err, o ≠ .err (.ble err)) :
    Call.Trace (firstLedger : DiscoveryCall C Adapter Peripheral _) es (.ret o) ↔
      ∃ scans : List (AdapterScan C Adapter Peripheral), es = searchEvents scans ∧
        o = (scans.flatMap AdapterScan.ledgers).head?.elim (.err .deviceNotFound) .ok := by
  rw [firstLedger_eq, Call.trace_bind_ret_iff]
  constructor
  · rintro (⟨ps, es₁, es₂, rfl, hlist, hpick⟩ | ⟨err, rfl, hlist⟩ | ⟨rfl, hlist⟩)
    · obtain ⟨scans, rfl, rfl⟩ := listLedgers_ok_iff.mp hlist
      obtain ⟨rfl, hret⟩ := Call.trace_ret_iff.mp hpick
      cases hret
      exact ⟨scans, List.append_nil _, rfl⟩
    · obtain ⟨err', herr⟩ := (Call.Keeps.of_trace hlist listLedgers_keeps).2.err_eq
      exact absurd (congrArg Outcome.err herr) (ho err')
    · exact absurd (Call.Keeps.of_trace hlist listLedgers_keeps).2 Settled.not_panicked
  · rintro ⟨scans, rfl, rfl⟩
    exact .inl ⟨_, _, [], (List.append_nil _).symm, listLedgers_ok_iff.mpr ⟨scans, rfl, rfl⟩,
      .nil _⟩

/-- `new` connects to the first peripheral that looks like a Ledger, of the first adapter that has
    found one, after all adapters have scanned; and it reports that there is no device exactly when
    the search has gone through and no peripheral looked like one. -/
theorem new_device_iff {es : List (DiscoveryEvent C Adapter Peripheral)} :
    (∀ p, Call.Trace (firstLedger : DiscoveryCall C Adapter Peripheral _) es (.ret (.ok p)) ↔
      ∃ scans : List (AdapterScan C Adapter Peripheral), es = searchEvents scans ∧
        (scans.flatMap AdapterScan.ledgers).head? = some p) ∧
    (Call.Trace (firstLedger : DiscoveryCall C Adapter Peripheral _) es
        (.ret (.err .deviceNotFound)) ↔
      ∃ scans : List (AdapterScan C Adapter Peripheral), es = searchEvents scans ∧
        ∀ scan ∈ scans, ∀ x ∈ scan.found, isLedgerReply x.2 = false) := by
  constructor
  · intro p
    rw [trace_firstLedger_iff (by simp)]
    have hpick (ledgers : List Peripheral) :
        Outcome.ok p = ledgers.head?.elim (.err (.deviceNotFound : BleError C)) .ok ↔
          ledgers.head? = some p := by
      cases ledgers <;> simp [eq_comm]
    simp only [hpick]
  · rw [trace_firstLedger_iff (by simp)]
    have hnone (ledgers : List Peripheral) :
        (Outcome.err .deviceNotFound : Outcome (BleError C) Peripheral) =
          ledgers.head?.elim (.err .deviceNotFound) .ok ↔ ledgers = [] := by
      cases ledgers <;> simp
    simp only [hnone, ledgers_eq_nil_iff]

/-! ## Failures -/

/-- The error that the reply to a request is a failure with.  No properties of a peripheral are
    one. -/
def failure : (q : DiscoveryReq Adapter Peripheral) → q.Reply C → Option (BleError C)
  | .managerNew, .error err => some (.ble err)
  | .adapters, .error err => some (.ble err)
  | .startScan _, .error err => some (.ble err)
  | .stopScan _, .error err => some (.ble err)
  | .peripherals _, .error err => some (.ble err)
  | _, _ => none

/-- Watch a search for its first failure. -/
def watch (C : Crates) (Adapter Peripheral : Type) :
    Monitor (Except (BleError C) Unit) (DiscoveryReq Adapter Peripheral) (DiscoveryReq.Reply C) :=
  (Monitor.permissive _ _).failStop failure

/-- From a point where nothing has failed, a first failure ends the program with its error, and
    without one it ends as `ends` wants it. -/
def FailsFirst {α : Type} (ends : Outcome (BleError C) α → Prop)
    (p : DiscoveryCall C Adapter Peripheral α) : Prop :=
  p.Keeps (watch C Adapter Peripheral) (Monitor.FailStopped fun _ => ends) (.ok ())

theorem collectLedgers_failsFirst (peripherals : List Peripheral) :
    ∀ ledgers : List Peripheral,
      FailsFirst (fun o => ∃ ps, o = .ok ps)
        (collectLedgers ledgers peripherals : DiscoveryCall C Adapter Peripheral _) := by
  induction peripherals with
  | nil => exact fun ledgers => ⟨ledgers, rfl⟩
  | cons peripheral rest ih =>
      intro ledgers
      refine ⟨trivial, fun reply => ?_⟩
      show FailsFirst _ (if isLedgerReply reply = true then
        collectLedgers (ledgers ++ [peripheral]) rest else collectLedgers ledgers rest)
      split
      · exact ih _
      · exact ih _

theorem scanAdapters_failsFirst (adapters : List Adapter) :
    ∀ ledgers : List Peripheral,
      FailsFirst (fun o => ∃ ps, o = .ok ps)
        (scanAdapters ledgers adapters : DiscoveryCall C Adapter Peripheral _) := by
  induction adapters with
  | nil => exact fun ledgers => ⟨ledgers, rfl⟩
  | cons adapter rest ih =>
      intro ledgers
      refine ⟨trivial, fun started => ?_⟩
      cases started with
      | error err => rfl
      | ok _ =>
          refine ⟨trivial, fun stopped => ?_⟩
          cases stopped with
          | error err => rfl
          | ok _ =>
              refine ⟨trivial, fun found => ?_⟩
              cases found with
              | error err => rfl
              | ok peripherals =>
                  show FailsFirst _ (Call.bind (collectLedgers ledgers peripherals) fun ledgers' =>
                    scanAdapters ledgers' rest)
                  refine Monitor.failStop_keeps_bind (collectLedgers_failsFirst peripherals ledgers)
                    ?_ ?_ ?_
                  · exact fun _ ledgers' _ => ih ledgers'
                  · exact fun _ err h => h
                  · exact fun _ h => h

theorem listLedgers_failsFirst :
    FailsFirst (fun o => ∃ ps, o = .ok ps)
      (listLedgers : DiscoveryCall C Adapter Peripheral _) := by
  refine ⟨trivial, fun reply => ?_⟩
  cases reply with
  | error err => rfl
  | ok _ =>
      refine ⟨trivial, fun reply => ?_⟩
      cases reply with
      | error err => rfl
      | ok adapters => exact scanAdapters_failsFirst adapters []

theorem firstLedger_failsFirst :
    FailsFirst (fun o => (∃ p, o = .ok p) ∨ o = .err .deviceNotFound)
      (firstLedger : DiscoveryCall C Adapter Peripheral _) := by
  rw [firstLedger_eq]
  refine Monitor.failStop_keeps_bind listLedgers_failsFirst ?_ ?_ ?_
  · intro _ ledgers _
    cases ledgers with
    | nil => exact .inr rfl
    | cons p ps => exact .inl ⟨p, rfl⟩
  · rintro _ err ⟨ps, h⟩
    cases h
  · rintro _ ⟨ps, h⟩
    cases h

/-- The first failure of a search is the last thing that `new` hears before it returns the error,
    and no reply to `properties` is one; where nothing fails, there is a device or `new` says that
    there is none. -/
theorem new_fail_stop {es : List (DiscoveryEvent C Adapter Peripheral)}
    {p : DiscoveryCall C Adapter Peripheral Peripheral} (htrace : Call.Trace firstLedger es p) :
    (∀ before q r after err, es = before ++ ⟨q, r⟩ :: after → failure q r = some err →
      after = [] ∧ p = .ret (.err err)) ∧
    ((∀ x ∈ es, failure x.1 x.2 = none) → ∀ o, p = .ret o →
      (∃ device, o = .ok device) ∨ o = .err .deviceNotFound) :=
  (Monitor.failStop_of_trace htrace firstLedger_failsFirst).2

theorem new_fail_stop_stuck :
    ∃ before q r after, stuckSearch = before ++ ⟨q, r⟩ :: after ∧
      failure q r = some (.ble "adapter gone") ∧ after = [] := by
  have htrace : Call.Trace firstLedger stuckSearch (.ret (.err (.ble "adapter gone"))) :=
    .cons (.cons (.cons (.cons (.cons (.cons (.cons (.nil _)))))))
  have hlast := ((new_fail_stop htrace).1 stuckSearch.dropLast (.stopScan 1)
    (.error "adapter gone") [] _ rfl rfl).1
  exact ⟨stuckSearch.dropLast, .stopScan 1, .error "adapter gone", [], rfl, rfl, hlast⟩

end Discovery

end NearLedger
