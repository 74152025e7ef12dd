/-
  NearLedger.Crates

  The third-party code the crate calls: `ledger_apdu`, `ledger_transport_hid`,
  `hidapi`, `btleplug`, `near_slip10`, `ed25519_dalek`, `hex` and `borsh`.  None
  of it is part of the repository, so the model takes it as a parameter,
  `Crates`, and what a result relies on is a hypothesis about that parameter
  (`ApduDoc`, `PathDoc`, `PathExt`, `BorshDoc`).

  `Crates.reference` is one instance that behaves as these crates are documented
  to, except that it takes every 32 bytes for a public key.  Concrete runs are
  evaluated on it.
-/

import NearLedger.Lib.Borsh

namespace NearLedger

/-- `ledger_apdu::APDUCommand<Vec<u8>>`; the fields are public and set by the callers. -/
structure APDUCommand where
  cla : UInt8
  ins : UInt8
  p1 : UInt8
  p2 : UInt8
  data : Bytes
  deriving DecidableEq, Repr

/-- `NEP413Payload`, the struct whose `BorshSerialize` is derived. -/
structure NEP413Payload where
  message : String
  nonce : Vector UInt8 32
  recipient : String
  callbackUrl : Option String

/-- The strings have lengths that fit in a `u32`. -/
def NEP413Payload.Encodable (p : NEP413Payload) : Prop :=
  p.message.utf8ByteSize < UInt32.size ∧ p.recipient.utf8ByteSize < UInt32.size ∧
    ∀ url ∈ p.callbackUrl, url.utf8ByteSize < UInt32.size

instance : DecidablePred NEP413Payload.Encodable := fun p =>
  inferInstanceAs (Decidable (p.message.utf8ByteSize < UInt32.size ∧ p.recipient.utf8ByteSize < UInt32.size ∧
    ∀ url ∈ p.callbackUrl, url.utf8ByteSize < UInt32.size))

/-- The fields in borsh format, in the order of their declaration. -/
def NEP413Payload.borsh (p : NEP413Payload) : Bytes :=
  Borsh.string.encode p.message ++ p.nonce.toList ++ Borsh.string.encode p.recipient ++
    (Borsh.option Borsh.string).encode p.callbackUrl

/-- The types and functions of other crates. -/
structure Crates where
  -- `hidapi::HidError`
  HidError : Type
  -- `ledger_transport_hid::LedgerHIDError`
  LedgerHIDError : Type
  -- `btleplug::Error`
  BtleError : Type
  -- `impl Display for btleplug::Error`
  displayBtleError : BtleError → String
  -- `near_slip10::BIP32Path`
  BIP32Path : Type
  -- the indices a `BIP32Path` holds
  indices : BIP32Path → List UInt32
  -- `BIP32Path::depth`
  depth : BIP32Path → UInt8
  -- `BIP32Path::index`, `none` where it returns no index
  index : BIP32Path → UInt8 → Option UInt32
  -- `APDUCommand::serialize`
  serialize : APDUCommand → Bytes
  -- `ledger_apdu::APDUAnswer<Vec<u8>>`
  APDUAnswer : Type
  -- `APDUAnswer::from_answer`, `none` for its error
  fromAnswer : Bytes → Option APDUAnswer
  -- `APDUAnswer::data`
  answerData : APDUAnswer → Bytes
  -- `APDUAnswer::retcode`
  retcode : APDUAnswer → UInt16
  -- `borsh::to_vec` on a `NEP413Payload`, `none` for its error
  borshToVec : NEP413Payload → Option Bytes
  -- `hex::encode`
  hexEncode : Bytes → String
  -- `ed25519_dalek::VerifyingKey`
  VerifyingKey : Type
  -- `ed25519_dalek::SignatureError`
  SignatureError : Type
  -- `impl Debug for SignatureError`
  debugSignatureError : SignatureError → String
  -- `VerifyingKey::from_bytes`
  verifyingKeyFromBytes : Bytes → Except SignatureError VerifyingKey

namespace Crates

/-- What `ledger_apdu` promises: the header with the length byte and the data; an answer is its
    data followed by the two bytes of the return code. -/
structure ApduDoc (C : Crates) : Prop where
  serialize_eq : ∀ c : APDUCommand,
    C.serialize c = [c.cla, c.ins, c.p1, c.p2, UInt8.ofNat c.data.length] ++ c.data
  fromAnswer_short : ∀ answer : Bytes, answer.length < 2 → C.fromAnswer answer = none
  fromAnswer_append : ∀ (data : Bytes) (hi lo : UInt8), ∃ r, C.fromAnswer (data ++ [hi, lo]) = some r ∧
    C.answerData r = data ∧ C.retcode r = Bytes.u16FromBeBytes hi lo

/-- What `near_slip10` promises of `index`: it returns an index at every position below `depth`. -/
structure PathDoc (C : Crates) : Prop where
  index_isSome : ∀ (path : C.BIP32Path) (i : UInt8), i < C.depth path → (C.index path i).isSome

/-- A path is the list of its indices: `depth` is their number, cut to one byte (it is 0 for 256
    indices), `index` looks one up below `depth`, and the derived equality compares them. -/
structure PathExt (C : Crates) : Prop where
  depth_eq : ∀ path : C.BIP32Path, C.depth path = UInt8.ofNat (C.indices path).length
  index_eq : ∀ (path : C.BIP32Path) (i : UInt8), i < C.depth path →
    C.index path i = (C.indices path)[i.toNat]?
  ext : ∀ p q : C.BIP32Path, C.indices p = C.indices q → p = q

/-- What `borsh` promises of the derived `BorshSerialize`: the fields in the order of their
    declaration, as long as the length of each string fits in a `u32`. -/
structure BorshDoc (C : Crates) : Prop where
  borshToVec_eq : ∀ p : NEP413Payload, p.Encodable → C.borshToVec p = some p.borsh

/-! ## A reference instance -/

/-- `hex::encode`: two lower-case digits a byte. -/
def lowerHex (bs : Bytes) : String :=
  String.ofList (bs.flatMap fun b => [Nat.digitChar (b.toNat / 16), Nat.digitChar (b.toNat % 16)])

/-- The crates as they are documented: paths and answers are the bytes and indices themselves. -/
@[reducible] def reference : Crates where
  HidError := String
  LedgerHIDError := String
  BtleError := String
  displayBtleError e := e
  BIP32Path := List UInt32
  indices path := path
  depth path := UInt8.ofNat path.length
  index path i := path[i.toNat]?
  serialize c := [c.cla, c.ins, c.p1, c.p2, UInt8.ofNat c.data.length] ++ c.data
  APDUAnswer := Bytes × UInt8 × UInt8
  fromAnswer answer :=
    match answer.reverse with
    | lo :: hi :: data => some (data.reverse, hi, lo)
    | _ => none
  answerData r := r.1
  retcode r := Bytes.u16FromBeBytes r.2.1 r.2.2
  borshToVec p := if p.Encodable then some p.borsh else none
  hexEncode := lowerHex
  VerifyingKey := Bytes
  SignatureError := String
  debugSignatureError e := e
  verifyingKeyFromBytes bs := .ok bs

/-- The path with the given indices. -/
def pathOf (indices : List UInt32) : reference.BIP32Path := indices

/-- The path with one index. -/
def pathOne (index : UInt32) : reference.BIP32Path := pathOf [index]

theorem reference_apduDoc : ApduDoc reference where
  serialize_eq _ := rfl
  fromAnswer_short answer h := by
    rcases answer with _ | ⟨a, _ | ⟨b, answer⟩⟩
    · rfl
    · rfl
    · simp only [List.length_cons] at h
      omega
  fromAnswer_append data hi lo := by
    refine ⟨(data, hi, lo), ?_, rfl, rfl⟩
    simp [reference]

theorem reference_pathDoc : PathDoc reference where
  index_isSome path i hi := by
    have hlt : i.toNat < path.length := by
      have hi' := UInt8.lt_iff_toNat_lt.mp hi
      rw [UInt8.toNat_ofNat'] at hi'
      exact Nat.lt_of_lt_of_le hi' (Nat.mod_le _ _)
    simp [hlt]

theorem reference_pathExt : PathExt reference where
  depth_eq _ := rfl
  index_eq _ _ _ := rfl
  ext _ _ h := h

theorem reference_borshDoc : BorshDoc reference where
  borshToVec_eq _ h := if_pos h

end Crates

end NearLedger
