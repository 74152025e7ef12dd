/-
  NearLedger.Lib.Utf8

  `String::from_utf8_lossy`: decode UTF-8, putting one U+FFFD in place of each
  maximal invalid sequence.  An invalid sequence ends before the first byte that
  cannot continue it, so a truncated three- or four-byte character is replaced
  once and a stray byte on its own.
-/

import NearLedger.Lib.Bytes

namespace Utf8

/-- `char::REPLACEMENT_CHARACTER`. -/
def replacement : Char := Char.ofNat 0xFFFD

/-- A continuation byte, `0b10xxxxxx`. -/
def isCont (b : UInt8) : Bool := 0x80 ≤ b && b ≤ 0xBF

/-- The second bytes a three-byte character with first byte `b` may have. -/
def second3 (b c : UInt8) : Bool :=
  (b == 0xE0 && 0xA0 ≤ c && c ≤ 0xBF) || (0xE1 ≤ b && b ≤ 0xEC && isCont c) ||
    (b == 0xED && 0x80 ≤ c && c ≤ 0x9F) || (0xEE ≤ b && b ≤ 0xEF && isCont c)

/-- The second bytes a four-byte character with first byte `b` may have. -/
def second4 (b c : UInt8) : Bool :=
  (b == 0xF0 && 0x90 ≤ c && c ≤ 0xBF) || (0xF1 ≤ b && b ≤ 0xF3 && isCont c) ||
    (b == 0xF4 && 0x80 ≤ c && c ≤ 0x8F)

/-- The low six bits, the payload of a continuation byte. -/
def low6 (b : UInt8) : Nat := b.toNat % 64

/-- The character (or replacement) at the front of `b :: rest`, and what follows it. -/
def decodeOne (b : UInt8) (rest : Bytes) : Char × Bytes :=
  if b < 0x80 then (Char.ofNat b.toNat, rest)
  else if 0xC2 ≤ b && b ≤ 0xDF then
    match rest with
    | c :: rest' =>
        if isCont c then (Char.ofNat (b.toNat % 32 * 64 + low6 c), rest') else (replacement, rest)
    | [] => (replacement, [])
  else if 0xE0 ≤ b && b ≤ 0xEF then
    match rest with
    | c :: d :: rest' =>
        if second3 b c then
          if isCont d then (Char.ofNat (b.toNat % 16 * 4096 + low6 c * 64 + low6 d), rest')
          else (replacement, d :: rest')
        else (replacement, rest)
    | [c] => if second3 b c then (replacement, []) else (replacement, rest)
    | [] => (replacement, [])
  else if 0xF0 ≤ b && b ≤ 0xF4 then
    match rest with
    | c :: rest' =>
        if second4 b c then
          match rest' with
          | d :: rest'' =>
              if isCont d then
                match rest'' with
                | e :: rest''' =>
                    if isCont e then
                      (Char.ofNat (b.toNat % 8 * 262144 + low6 c * 4096 + low6 d * 64 + low6 e),
                        rest''')
                    else (replacement, rest'')
                | [] => (replacement, [])
              else (replacement, rest')
          | [] => (replacement, [])
        else (replacement, rest)
    | [] => (replacement, [])
  else (replacement, rest)

/-- Decode at most `fuel` characters. -/
def decode : Nat → Bytes → List Char
  | 0, _ => []
  | _ + 1, [] => []
  | fuel + 1, b :: rest =>
      let r := decodeOne b rest
      r.1 :: decode fuel r.2

/-- `String::from_utf8_lossy`. -/
def fromUtf8Lossy (bs : Bytes) : String :=
  String.ofList (decode bs.length bs)

example : fromUtf8Lossy [0x4E, 0x45, 0x41, 0x52] = "NEAR" := by decide

example : fromUtf8Lossy [0x41, 0xE2, 0x82, 0x42] = "A\uFFFDB" := by decide

end Utf8
