/-
  NearLedger.Lib.Hex

  Hexadecimal texts and how they are read: the digits of a number, and two
  digits for each byte.
-/

import Mathlib.Tactic.Common

namespace Hex

/-- The value of a digit of either case. -/
def digitValue (c : Char) : Option Nat :=
  if c.isDigit then some (c.toNat - 48)
  else if 'a' ≤ c ∧ c ≤ 'f' then some (c.toNat - 87)
  else if 'A' ≤ c ∧ c ≤ 'F' then some (c.toNat - 55)
  else none

theorem digitValue_digitChar : ∀ d < 16, digitValue (Nat.digitChar d) = some d := by decide

theorem digitValue_toUpper : ∀ d < 16, digitValue (Nat.digitChar d).toUpper = some d := by decide

/-! ## Numbers -/

/-- The number with the given digits. -/
def number (digits : List Char) : Option Nat :=
  digits.foldlM (fun v c => (digitValue c).map (16 * v + ·)) 0

theorem number_append_singleton {digits : List Char} {c : Char} {v d : Nat}
    (hv : number digits = some v) (hd : digitValue c = some d) :
    number (digits ++ [c]) = some (16 * v + d) := by
  rw [number] at hv ⊢
  rw [List.foldlM_append, hv]
  show (digitValue c).map (16 * v + ·) >>= pure = _
  rw [hd]
  rfl

/-- The upper-case digits of a number are read as that number. -/
theorem number_toDigits (n : Nat) : number ((Nat.toDigits 16 n).map Char.toUpper) = some n := by
  induction n using Nat.strongRecOn with
  | ind n ih =>
      by_cases hn : n < 16
      · rw [Nat.toDigits_of_lt_base hn, List.map_singleton, ← List.nil_append [_],
          number_append_singleton rfl (digitValue_toUpper n hn)]
        simp
      · have hpos : 0 < n / 16 := by omega
        have hlt : n % 16 < 16 := by omega
        have hsplit : 16 * (n / 16) + n % 16 = n := by omega
        have hdigits := Nat.toDigits_append_toDigits (by decide) hpos hlt
        rw [hsplit, Nat.toDigits_of_lt_base hlt] at hdigits
        rw [← hdigits, List.map_append, List.map_singleton,
          number_append_singleton (ih (n / 16) (by omega)) (digitValue_toUpper _ hlt), hsplit]

theorem toDigits_toUpper_injective {m n : Nat}
    (h : (Nat.toDigits 16 m).map Char.toUpper = (Nat.toDigits 16 n).map Char.toUpper) : m = n := by
  have hn := number_toDigits n
  rw [← h, number_toDigits] at hn
  exact Option.some.inj hn

/-! ## Bytes -/

/-- The bytes with the given digits, two for each. -/
def bytes : List Char → Option (List UInt8)
  | [] => some []
  | high :: low :: digits => do
      let h ← digitValue high
      let l ← digitValue low
      let bs ← bytes digits
      pure (UInt8.ofNat (16 * h + l) :: bs)
  | [_] => none

/-- Two lower-case digits for each byte are read as those bytes. -/
theorem bytes_flatMap_digitChar (bs : List UInt8) :
    bytes (bs.flatMap fun b => [Nat.digitChar (b.toNat / 16), Nat.digitChar (b.toNat % 16)]) =
      some bs := by
  induction bs with
  | nil => rfl
  | cons b bs ih =>
      have hb := b.toNat_lt
      have hhigh := digitValue_digitChar (b.toNat / 16) (by omega)
      have hlow := digitValue_digitChar (b.toNat % 16) (by omega)
      have hsplit : 16 * (b.toNat / 16) + b.toNat % 16 = b.toNat := by omega
      rw [List.flatMap_cons]
      simp only [List.cons_append, List.nil_append, bytes, hhigh, hlow, ih, Option.bind_eq_bind,
        Option.bind_some, hsplit, UInt8.ofNat_toNat]
      rfl

end Hex
