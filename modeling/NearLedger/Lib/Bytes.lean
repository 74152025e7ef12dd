/-
  NearLedger.Lib.Bytes

  Byte strings and the big-endian encodings of `u16` and `u32`
  (`to_be_bytes`, `from_be_bytes`), with their round trips.
-/

import Mathlib.Tactic.Common

/-- A `Vec<u8>` or a `&[u8]`. -/
abbrev Bytes := List UInt8

namespace Bytes

/-- `u16::to_be_bytes`. -/
def u16ToBeBytes (v : UInt16) : Bytes :=
  [UInt8.ofNat (v.toNat / 256), UInt8.ofNat v.toNat]

/-- `u16::from_be_bytes`. -/
def u16FromBeBytes (hi lo : UInt8) : UInt16 :=
  UInt16.ofNat (256 * hi.toNat + lo.toNat)

/-- `u32::to_be_bytes`. -/
def u32ToBeBytes (v : UInt32) : Bytes :=
  [UInt8.ofNat (v.toNat >>> 24), UInt8.ofNat (v.toNat >>> 16), UInt8.ofNat (v.toNat >>> 8),
    UInt8.ofNat v.toNat]

@[simp] theorem length_u32ToBeBytes (v : UInt32) : (u32ToBeBytes v).length = 4 := rfl

/-- Reading back the two bytes of a `u16`. -/
theorem u16FromBeBytes_toBeBytes (v : UInt16) :
    u16FromBeBytes (UInt8.ofNat (v.toNat / 256)) (UInt8.ofNat v.toNat) = v := by
  have hv := v.toNat_lt
  apply UInt16.toNat.inj
  simp only [u16FromBeBytes, UInt8.toNat_ofNat', UInt16.toNat_ofNat']
  omega

/-- A length below `2^16` survives the cast to `u16`. -/
theorem toNat_u16_ofNat {n : Nat} (h : n ≤ 65535) : (UInt16.ofNat n).toNat = n := by
  rw [UInt16.toNat_ofNat']
  omega

/-- The four bytes of a `u32` determine it. -/
theorem u32ToBeBytes_injective {v w : UInt32} (h : u32ToBeBytes v = u32ToBeBytes w) : v = w := by
  simp only [u32ToBeBytes, List.cons.injEq, and_true] at h
  obtain ⟨h3, h2, h1, h0⟩ := h
  have h3 := congrArg UInt8.toNat h3
  have h2 := congrArg UInt8.toNat h2
  have h1 := congrArg UInt8.toNat h1
  have h0 := congrArg UInt8.toNat h0
  simp only [UInt8.toNat_ofNat'] at h0 h1 h2 h3
  have hv := v.toNat_lt
  have hw := w.toNat_lt
  apply UInt32.toNat.inj
  omega

/-- The bytes of a list of `u32`s. -/
theorem length_flatMap_u32ToBeBytes (vs : List UInt32) :
    (vs.flatMap u32ToBeBytes).length = 4 * vs.length := by
  induction vs with
  | nil => rfl
  | cons v vs ih =>
      rw [List.flatMap_cons, List.length_append, ih, length_u32ToBeBytes, List.length_cons]
      omega

/-- Two lists of `u32`s followed by anything: equal bytes and equal counts give equal parts. -/
theorem flatMap_u32ToBeBytes_append_inj :
    ∀ {vs ws : List UInt32} {xs ys : Bytes}, vs.length = ws.length →
      vs.flatMap u32ToBeBytes ++ xs = ws.flatMap u32ToBeBytes ++ ys → vs = ws ∧ xs = ys := by
  intro vs
  induction vs with
  | nil =>
      intro ws xs ys hlen h
      obtain rfl : ws = [] := List.eq_nil_of_length_eq_zero hlen.symm
      exact ⟨rfl, by simpa using h⟩
  | cons v vs ih =>
      intro ws xs ys hlen h
      cases ws with
      | nil => simp at hlen
      | cons w ws =>
          simp only [List.flatMap_cons, List.append_assoc] at h
          obtain ⟨hv, hrest⟩ := List.append_inj h (by simp)
          obtain ⟨rfl, rfl⟩ := ih (by simpa using hlen) hrest
          exact ⟨by rw [u32ToBeBytes_injective hv], rfl⟩

end Bytes
