/-
  NearLedger.Lib.Codec

  Self-delimiting encodings.  A codec writes a value as a list and reads it back
  off the front of a longer one, taking exactly what it has written.  Codecs are
  put together from smaller ones: pairs, optional values behind a tag, fixed
  numbers of elements, elements behind their count.  From the reading law no
  encoding is the beginning of another one (`encode_append_inj`), so what is
  written behind it can be told apart from it.
-/

import Mathlib.Tactic.Common

/-- An encoding of the values that satisfy `Valid`, with the reader that undoes it. -/
structure Codec (α β : Type*) where
  Valid : β → Prop
  encode : β → List α
  decode : List α → Option (β × List α)
  decode_encode : ∀ (b : β) (rest : List α), Valid b → decode (encode b ++ rest) = some (b, rest)

namespace Codec

variable {α β γ : Type*}

/-- Two encodings with something behind them that are the same list are encodings of the same value
    with the same behind them. -/
theorem encode_append_inj (c : Codec α β) {b b' : β} (hb : c.Valid b) (hb' : c.Valid b')
    {rest rest' : List α} (h : c.encode b ++ rest = c.encode b' ++ rest') :
    b = b' ∧ rest = rest' := by
  have hdecode := congrArg c.decode h
  rw [c.decode_encode b rest hb, c.decode_encode b' rest' hb'] at hdecode
  exact Prod.mk.inj (Option.some.inj hdecode)

/-- Read to the end. -/
theorem decode_encode_self (c : Codec α β) {b : β} (hb : c.Valid b) :
    c.decode (c.encode b) = some (b, []) := by
  rw [← List.append_nil (c.encode b), c.decode_encode b [] hb]

theorem encode_injective (c : Codec α β) {b b' : β} (hb : c.Valid b) (hb' : c.Valid b')
    (h : c.encode b = c.encode b') : b = b' := by
  have happend : c.encode b ++ [] = c.encode b' ++ [] := by rw [h]
  exact (c.encode_append_inj hb hb' happend).1

/-- One value and then another one. -/
def pair (c : Codec α β) (d : Codec α γ) : Codec α (β × γ) where
  Valid p := c.Valid p.1 ∧ d.Valid p.2
  encode p := c.encode p.1 ++ d.encode p.2
  decode xs := (c.decode xs).bind fun r => (d.decode r.2).map fun r' => ((r.1, r'.1), r'.2)
  decode_encode p rest h := by
    rw [List.append_assoc, c.decode_encode _ _ h.1, Option.bind_some, d.decode_encode _ _ h.2,
      Option.map_some]

/-- Another representation of the values. -/
def via (c : Codec α β) (write : γ → β) (read : β → Option γ) (h : ∀ g, read (write g) = some g) :
    Codec α γ where
  Valid g := c.Valid (write g)
  encode g := c.encode (write g)
  decode xs := (c.decode xs).bind fun r => (read r.1).map fun g => (g, r.2)
  decode_encode g rest hg := by
    rw [c.decode_encode _ _ hg, Option.bind_some, h, Option.map_some]

/-- No value or a value, behind a tag that tells which. -/
def option [DecidableEq α] (tagNone tagSome : α) (h : tagNone ≠ tagSome) (c : Codec α β) :
    Codec α (Option β) where
  Valid o := ∀ b, o = some b → c.Valid b
  encode
    | none => [tagNone]
    | some b => tagSome :: c.encode b
  decode
    | [] => none
    | tag :: xs =>
        if tag = tagNone then some (none, xs)
        else if tag = tagSome then (c.decode xs).map fun r => (some r.1, r.2)
        else none
  decode_encode o rest ho := by
    cases o with
    | none => simp
    | some b => simp [Ne.symm h, c.decode_encode b rest (ho b rfl)]

/-- A fixed number of elements, as they are. -/
def vector (α : Type*) (n : Nat) : Codec α (Vector α n) where
  Valid _ := True
  encode v := v.toList
  decode xs :=
    if h : n ≤ xs.length then
      some (⟨(xs.take n).toArray, by simp [h]⟩, xs.drop n)
    else none
  decode_encode v rest _ := by
    have hlen : v.toList.length = n := Vector.length_toList
    have hle : n ≤ (v.toList ++ rest).length := by
      rw [List.length_append]
      omega
    have htake : (v.toList ++ rest).take n = v.toList := List.take_left' hlen
    have hdrop : (v.toList ++ rest).drop n = rest := List.drop_left' hlen
    rw [dif_pos hle, hdrop]
    congr 2
    apply Vector.toArray_inj.mp
    simp only [htake, Vector.toArray_toList]

/-- Any number of elements behind their count. -/
def counted (count : Codec α Nat) : Codec α (List α) where
  Valid xs := count.Valid xs.length
  encode xs := count.encode xs.length ++ xs
  decode xs :=
    (count.decode xs).bind fun r =>
      if r.1 ≤ r.2.length then some (r.2.take r.1, r.2.drop r.1) else none
  decode_encode xs rest h := by
    have hle : xs.length ≤ (xs ++ rest).length := by
      rw [List.length_append]
      omega
    rw [List.append_assoc, count.decode_encode _ _ h, Option.bind_some, if_pos hle, List.take_left,
      List.drop_left]

end Codec
