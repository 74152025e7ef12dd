/-
  NearLedger.Ble.Gatt

  The service UUIDs of Ledger devices and the choice of the two characteristics
  in `connect`: those of the first Ledger service in the table, or, for unknown
  devices, the first ones with the `WRITE` and the `NOTIFY` property.
-/

import NearLedger.Errors

namespace NearLedger

/-! ## UUIDs -/

/-- `uuid::Uuid`, by its fields. -/
structure Uuid where
  d1 : UInt32
  d2 : UInt16
  d3 : UInt16
  d4 : Vector UInt8 8
  deriving DecidableEq

/-- The Ledger service with the given third field. -/
def ledgerServiceUuid (d3 : UInt16) : Uuid :=
  { d1 := 0x13d63400
    d2 := 0x2c97
    d3 := d3
    d4 := #v[0x00, 0x00, 0x4c, 0x65, 0x64, 0x67, 0x65, 0x72] }

def nanoXServiceUuid : Uuid := ledgerServiceUuid 0x0004
def staxServiceUuid : Uuid := ledgerServiceUuid 0x6004
def flexServiceUuid : Uuid := ledgerServiceUuid 0x3004
def nanoGen5ServiceUuid : Uuid := ledgerServiceUuid 0x8004
def nanoGen5BootloaderServiceUuid : Uuid := ledgerServiceUuid 0x9004

def ledgerServiceUuids : List Uuid :=
  [nanoXServiceUuid, staxServiceUuid, flexServiceUuid, nanoGen5ServiceUuid,
    nanoGen5BootloaderServiceUuid]

/-- `is_ledger_service_uuid`. -/
def isLedgerServiceUuid (uuid : Uuid) : Bool := ledgerServiceUuids.contains uuid

/-- `notify_uuid_for_service`. -/
def notifyUuidForService (service : Uuid) : Uuid :=
  { d1 := service.d1, d2 := service.d2, d3 := service.d3, d4 := service.d4.set 1 0x01 }

/-- `write_uuid_for_service`. -/
def writeUuidForService (service : Uuid) : Uuid :=
  { d1 := service.d1, d2 := service.d2, d3 := service.d3, d4 := service.d4.set 1 0x02 }

/-- The Ledger services differ in their third fields only. -/
theorem isLedgerServiceUuid_eq {uuid : Uuid} (h : isLedgerServiceUuid uuid = true) :
    uuid = ledgerServiceUuid uuid.d3 := by
  have hmem : uuid ∈ ledgerServiceUuids := List.contains_iff_mem.mp h
  simp only [ledgerServiceUuids, List.mem_cons, List.not_mem_nil, or_false] at hmem
  rcases hmem with rfl | rfl | rfl | rfl | rfl <;> rfl

/-- So each has a write characteristic of its own. -/
theorem writeUuidForService_injective {s s' : Uuid} (hs : isLedgerServiceUuid s = true)
    (hs' : isLedgerServiceUuid s' = true) (h : writeUuidForService s = writeUuidForService s') :
    s = s' := by
  have hd3 : s.d3 = s'.d3 := by
    show (writeUuidForService s).d3 = (writeUuidForService s').d3
    rw [h]
  rw [isLedgerServiceUuid_eq hs, isLedgerServiceUuid_eq hs', hd3]

theorem notifyUuidForService_injective {s s' : Uuid} (hs : isLedgerServiceUuid s = true)
    (hs' : isLedgerServiceUuid s' = true) (h : notifyUuidForService s = notifyUuidForService s') :
    s = s' := by
  have hd3 : s.d3 = s'.d3 := by
    show (notifyUuidForService s).d3 = (notifyUuidForService s').d3
    rw [h]
  rw [isLedgerServiceUuid_eq hs, isLedgerServiceUuid_eq hs', hd3]

/-- No characteristic is the write characteristic of one service and the notify characteristic of
    another. -/
theorem writeUuidForService_ne (s s' : Uuid) :
    writeUuidForService s ≠ notifyUuidForService s' := by
  intro h
  have hbyte : (writeUuidForService s).d4[1] = (notifyUuidForService s').d4[1] := by rw [h]
  simp [writeUuidForService, notifyUuidForService] at hbyte

/-! ## Characteristics -/

/-- `btleplug::api::CharPropFlags`, as far as they are looked at. -/
structure CharPropFlags where
  write : Bool
  notify : Bool
  deriving DecidableEq

/-- `btleplug::api::Characteristic`. -/
structure Characteristic where
  uuid : Uuid
  serviceUuid : Uuid
  properties : CharPropFlags
  deriving DecidableEq

/-- `find(..).cloned().ok_or(BleError::Comm(msg))`. -/
def findOr {C : Crates} (p : Characteristic → Bool) (msg : String)
    (characteristics : List Characteristic) : Except (BleError C) Characteristic :=
  match characteristics.find? p with
  | some c => .ok c
  | none => .error (.comm msg)

/-- The write and the notify characteristic that `connect` takes from the characteristics, in the
    order in which they are iterated. -/
def selectCharacteristics (C : Crates) (characteristics : List Characteristic) :
    Except (BleError C) (Characteristic × Characteristic) :=
  match (characteristics.map Characteristic.serviceUuid).find? isLedgerServiceUuid with
  | some svc => do
      let writeChar ← findOr (fun c => c.uuid = writeUuidForService svc)
        "Ledger WRITE characteristic not found for service" characteristics
      let notifyChar ← findOr (fun c => c.uuid = notifyUuidForService svc)
        "Ledger NOTIFY characteristic not found for service" characteristics
      pure (writeChar, notifyChar)
  | none => do
      -- fallback for unknown future devices: match by GATT property flags
      let writeChar ← findOr (fun c => c.properties.write)
        "No WRITE characteristic found on Ledger device" characteristics
      let notifyChar ← findOr (fun c => c.properties.notify)
        "No NOTIFY characteristic found on Ledger device" characteristics
      pure (writeChar, notifyChar)

/-! ## The choice -/

theorem findOr_eq_ok {C : Crates} {p : Characteristic → Bool} {msg : String}
    {characteristics : List Characteristic} {c : Characteristic}
    (h : (findOr p msg characteristics : Except (BleError C) Characteristic) = .ok c) :
    c ∈ characteristics ∧ p c = true := by
  rw [findOr] at h
  cases hfind : characteristics.find? p with
  | none =>
      rw [hfind] at h
      cases h
  | some c' =>
      rw [hfind] at h
      cases h
      exact ⟨List.mem_of_find?_eq_some hfind, List.find?_some hfind⟩

/-- The service is the first Ledger service in the table. -/
def FirstService (table : List Characteristic) (svc : Uuid) : Prop :=
  isLedgerServiceUuid svc = true ∧ ∃ before c after, table = before ++ c :: after ∧
    c.serviceUuid = svc ∧ ∀ d ∈ before, isLedgerServiceUuid d.serviceUuid = false

theorem firstService_of_find {table : List Characteristic} {svc : Uuid}
    (h : (table.map Characteristic.serviceUuid).find? isLedgerServiceUuid = some svc) :
    FirstService table svc := by
  obtain ⟨hledger, before, after, hsplit, hbefore⟩ := List.find?_eq_some_iff_append.mp h
  refine ⟨hledger, ?_⟩
  obtain ⟨xs, ys, rfl, hxs, hys⟩ := List.map_eq_append_iff.mp hsplit
  obtain ⟨c, zs, rfl, hc, -⟩ := List.map_eq_cons_iff.mp hys
  refine ⟨xs, c, zs, rfl, hc, fun d hd => ?_⟩
  have hnot := hbefore d.serviceUuid (hxs ▸ List.mem_map_of_mem hd)
  simpa using hnot

/-- On a device with a Ledger service, the two characteristics are those of the first one. -/
theorem selectCharacteristics_ledger {C : Crates} {table : List Characteristic}
    {w n : Characteristic} (h : selectCharacteristics C table = .ok (w, n))
    (hledger : ∃ c ∈ table, isLedgerServiceUuid c.serviceUuid = true) :
    ∃ svc, FirstService table svc ∧ w ∈ table ∧ n ∈ table ∧ w.uuid = writeUuidForService svc ∧
      n.uuid = notifyUuidForService svc := by
  rw [selectCharacteristics] at h
  cases hfind : (table.map Characteristic.serviceUuid).find? isLedgerServiceUuid with
  | none =>
      obtain ⟨c, hc, hledger⟩ := hledger
      have hnone := List.find?_eq_none.mp hfind c.serviceUuid (List.mem_map_of_mem hc)
      exact absurd hledger hnone
  | some svc =>
      rw [hfind] at h
      dsimp only at h
      cases hwrite : (findOr (fun c => c.uuid = writeUuidForService svc)
          "Ledger WRITE characteristic not found for service" table :
            Except (BleError C) Characteristic) with
      | error err =>
          rw [hwrite] at h
          cases h
      | ok w' =>
          rw [hwrite] at h
          cases hnotify : (findOr (fun c => c.uuid = notifyUuidForService svc)
              "Ledger NOTIFY characteristic not found for service" table :
                Except (BleError C) Characteristic) with
          | error err =>
              change (findOr _ _ table >>= _) = _ at h
              rw [hnotify] at h
              cases h
          | ok n' =>
              change (findOr _ _ table >>= _) = _ at h
              rw [hnotify] at h
              cases h
              obtain ⟨hw, hwuuid⟩ := findOr_eq_ok hwrite
              obtain ⟨hn, hnuuid⟩ := findOr_eq_ok hnotify
              exact ⟨svc, firstService_of_find hfind, hw, hn, by simpa using hwuuid,
                by simpa using hnuuid⟩

end NearLedger
