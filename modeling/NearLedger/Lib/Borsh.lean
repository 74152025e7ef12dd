/-
  NearLedger.Lib.Borsh

  The borsh formats of a few types as codecs: a `u32` in four little-endian
  bytes, a string as its UTF-8 bytes behind their number, an option behind one
  tag byte.  A `[u8; N]` is `Codec.vector`, and a struct its fields one after
  another, `Codec.pair`.
-/

import NearLedger.Lib.Bytes
import NearLedger.Lib.Codec

namespace Borsh

/-- `u32`. -/
def u32 : Codec UInt8 Nat where
  Valid n := n < UInt32.size
  encode n :=
    [UInt8.ofNat n, UInt8.ofNat (n >>> 8), UInt8.ofNat (n >>> 16), UInt8.ofNat (n >>> 24)]
  decode
    | b₀ :: b₁ :: b₂ :: b₃ :: rest =>
        some (b₀.toNat + 256 * b₁.toNat + 65536 * b₂.toNat + 16777216 * b₃.toNat, rest)
    | _ => none
  decode_encode n rest h := by
    simp only [List.cons_append, List.nil_append, Option.some.injEq, Prod.mk.injEq, and_true,
      UInt8.toNat_ofNat', Nat.shiftRight_eq_div_pow]
    have hn : n < 4294967296 := h
    omega

/-- The UTF-8 bytes of a string. -/
def utf8 (s : String) : Bytes := s.toUTF8.data.toList

/-- The string with these UTF-8 bytes, if there is one. -/
def fromUtf8 (bytes : Bytes) : Option String := String.fromUTF8? ⟨bytes.toArray⟩

theorem fromUtf8_utf8 (s : String) : fromUtf8 (utf8 s) = some s := by
  have hbytes : (⟨(utf8 s).toArray⟩ : ByteArray) = s.toByteArray := by
    rw [utf8, Array.toArray_toList, String.toUTF8_eq_toByteArray]
  rw [fromUtf8, hbytes, String.fromUTF8?, dif_pos s.isValidUTF8]
  rfl

/-- `String`. -/
def string : Codec UInt8 String := (Codec.counted u32).via utf8 fromUtf8 fromUtf8_utf8

/-- `Option<T>`. -/
def option {α : Type} (c : Codec UInt8 α) : Codec UInt8 (Option α) := Codec.option 0 1 (by decide) c

end Borsh
