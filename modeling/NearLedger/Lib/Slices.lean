/-
  NearLedger.Lib.Slices

  Two operations on slices.  `slice` is `&xs[start..end]` with its bounds check.
  `chunks` cuts a list into pieces of a fixed size, as `slice::chunks` does:
  every piece has `n` elements, the last one possibly fewer, and the empty list
  has no piece at all.

  `chunks` recurses on a fuel argument (the length of the list), so it computes
  in the kernel; `chunks_of_ne_nil` is the equation the proofs use, and
  `chunks_induction` the induction that follows it.
-/

import Mathlib.Data.List.Basic
import Mathlib.Tactic.Common

namespace Slices

variable {α : Type*}

/-- `&xs[start..end]`, or `none` where the indexing panics. -/
def slice (xs : List α) (start stop : Nat) : Option (List α) :=
  if start ≤ stop ∧ stop ≤ xs.length then some ((xs.take stop).drop start) else none

theorem slice_eq_some {xs : List α} {start stop : Nat} (h : start ≤ stop) (h' : stop ≤ xs.length) :
    slice xs start stop = some ((xs.take stop).drop start) := by
  rw [slice, if_pos ⟨h, h'⟩]

/-! ## Pieces of a fixed size -/

/-- The pieces of `xs`, at most `fuel` of them. -/
def chunksFuel (n : Nat) : Nat → List α → List (List α)
  | 0, _ => []
  | _ + 1, [] => []
  | fuel + 1, x :: xs => (x :: xs).take n :: chunksFuel n fuel ((x :: xs).drop n)

/-- `slice::chunks(n)`. -/
def chunks (n : Nat) (xs : List α) : List (List α) :=
  chunksFuel n xs.length xs

@[simp] theorem chunks_nil (n : Nat) : chunks n ([] : List α) = [] := rfl

/-- Any two amounts of fuel that cover the list give the same pieces. -/
theorem chunksFuel_congr {n : Nat} (hn : 0 < n) :
    ∀ (a b : Nat) (xs : List α), xs.length ≤ a → xs.length ≤ b →
      chunksFuel n a xs = chunksFuel n b xs := by
  intro a
  induction a with
  | zero =>
      intro b xs ha _
      have : xs = [] := List.eq_nil_of_length_eq_zero (by omega)
      subst this
      cases b <;> rfl
  | succ a ih =>
      intro b xs ha hb
      cases xs with
      | nil => cases b <;> rfl
      | cons x xs =>
          cases b with
          | zero => simp at hb
          | succ b =>
              have hlen : ((x :: xs).drop n).length ≤ xs.length := by
                simp only [List.length_drop, List.length_cons]
                omega
              simp only [List.length_cons] at ha hb
              simp only [chunksFuel]
              rw [ih b _ (by omega) (by omega)]

/-- The first piece, and the pieces of what is left. -/
theorem chunks_of_ne_nil {n : Nat} (hn : 0 < n) {xs : List α} (h : xs ≠ []) :
    chunks n xs = xs.take n :: chunks n (xs.drop n) := by
  cases xs with
  | nil => exact absurd rfl h
  | cons x xs =>
      have hlen : ((x :: xs).drop n).length ≤ xs.length := by
        simp only [List.length_drop, List.length_cons]
        omega
      rw [chunks, List.length_cons, chunksFuel, chunks, chunksFuel_congr hn _ _ _ hlen (Nat.le_refl _)]

/-- Induction along the pieces: the empty list, or one piece and the rest. -/
theorem chunks_induction {n : Nat} (hn : 0 < n) {P : List α → Prop} (nil : P [])
    (cut : ∀ xs, xs ≠ [] → P (xs.drop n) → P xs) (xs : List α) : P xs := by
  induction hlen : xs.length using Nat.strongRecOn generalizing xs with
  | ind m ih =>
      by_cases h : xs = []
      · exact h ▸ nil
      · have hpos : 0 < xs.length := List.length_pos_iff.mpr h
        exact cut xs h (ih (xs.drop n).length (by rw [List.length_drop]; omega) _ rfl)

/-- Nothing is lost and nothing is reordered. -/
theorem flatten_chunks {n : Nat} (hn : 0 < n) (xs : List α) : (chunks n xs).flatten = xs := by
  induction xs using chunks_induction hn with
  | nil => rfl
  | cut xs h ih => rw [chunks_of_ne_nil hn h, List.flatten_cons, ih, List.take_append_drop]

/-- Behind whole pieces the cutting starts afresh. -/
theorem chunks_append {n : Nat} (hn : 0 < n) {xs : List α} (h : n ∣ xs.length) (ys : List α) :
    chunks n (xs ++ ys) = chunks n xs ++ chunks n ys := by
  induction xs using chunks_induction hn with
  | nil => rfl
  | cut xs hne ih =>
      have hle : n ≤ xs.length := Nat.le_of_dvd (List.length_pos_iff.mpr hne) h
      have hdrop : n ∣ (xs.drop n).length := by
        rw [List.length_drop]
        exact Nat.dvd_sub h (Nat.dvd_refl n)
      rw [chunks_of_ne_nil hn (List.append_ne_nil_of_left_ne_nil hne ys),
        List.take_append_of_le_length hle, List.drop_append_of_le_length hle, ih hdrop,
        chunks_of_ne_nil hn hne, List.cons_append]

/-- Every piece has between one and `n` elements. -/
theorem length_of_mem_chunks {n : Nat} (hn : 0 < n) {xs c : List α} (h : c ∈ chunks n xs) :
    1 ≤ c.length ∧ c.length ≤ n := by
  induction xs using chunks_induction hn with
  | nil => simp at h
  | cut xs hne ih =>
      rw [chunks_of_ne_nil hn hne, List.mem_cons] at h
      rcases h with rfl | h
      · have hpos := List.length_pos_iff.mpr hne
        rw [List.length_take]
        omega
      · exact ih h

theorem ne_nil_of_mem_chunks {n : Nat} (hn : 0 < n) {xs c : List α} (h : c ∈ chunks n xs) :
    c ≠ [] :=
  List.ne_nil_of_length_pos (length_of_mem_chunks hn h).1

theorem chunks_eq_nil_iff {n : Nat} (hn : 0 < n) {xs : List α} : chunks n xs = [] ↔ xs = [] := by
  constructor
  · intro h
    rw [← flatten_chunks hn xs, h, List.flatten_nil]
  · rintro rfl
    rfl

/-- The number of pieces is the length divided by `n`, rounded up. -/
theorem length_chunks {n : Nat} (hn : 0 < n) (xs : List α) :
    (chunks n xs).length = (xs.length + n - 1) / n := by
  induction xs using chunks_induction hn with
  | nil =>
      simp only [chunks_nil, List.length_nil]
      rw [Nat.div_eq_of_lt (by omega)]
  | cut xs h ih =>
      have hpos := List.length_pos_iff.mpr h
      rw [chunks_of_ne_nil hn h, List.length_cons, ih, List.length_drop]
      by_cases hle : xs.length ≤ n
      · rw [Nat.sub_eq_zero_of_le hle, Nat.zero_add, Nat.div_eq_of_lt (by omega),
          show xs.length + n - 1 = (xs.length - 1) + n by omega, Nat.add_div_right _ hn,
          Nat.div_eq_of_lt (by omega)]
      · rw [show xs.length + n - 1 = (xs.length - n + n - 1) + n by omega, Nat.add_div_right _ hn]

end Slices
