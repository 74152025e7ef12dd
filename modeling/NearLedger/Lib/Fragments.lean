/-
  NearLedger.Lib.Fragments

  Length-delimited reassembly.  A receiver that knows the total length keeps
  appending payloads until it has that many elements and drops what is too much
  (`collect`).  It stops at the first item with which there are enough of them,
  however they are cut (`collect_of_reachesAt`).  A message cut into fragments of
  which the last is not empty is complete exactly at its last fragment
  (`collect_of_lastNonempty`), and a receiver that stopped on some of the
  fragments, in order, has seen all of them (`eq_of_sublist_of_length`).
-/

import Mathlib.Data.List.Flatten
import Mathlib.Data.Nat.Find
import Mathlib.Tactic.Common

namespace Fragments

variable {α β : Type*}

/-- Append payloads to `buffer` until it has `total` elements.  The result is the message and the
    items not looked at; `none` when the items run out first. -/
def collect (payload : β → List α) (total : Nat) : List α → List β → Option (List α × List β)
  | buffer, [] => if buffer.length < total then none else some (buffer.take total, [])
  | buffer, p :: ps =>
      if buffer.length < total then collect payload total (buffer ++ payload p) ps
      else some (buffer.take total, p :: ps)

theorem collect_of_le (payload : β → List α) {total : Nat} {buffer : List α}
    (h : total ≤ buffer.length) (ps : List β) :
    collect payload total buffer ps = some (buffer.take total, ps) := by
  cases ps <;> rw [collect, if_neg (by omega)]

theorem collect_of_lt (payload : β → List α) {total : Nat} {buffer : List α}
    (h : buffer.length < total) (p : β) (ps : List β) :
    collect payload total buffer (p :: ps) = collect payload total (buffer ++ payload p) ps := by
  rw [collect, if_pos h]

/-- What was collected is the beginning of the payloads of the items consumed. -/
theorem collect_eq_some {payload : β → List α} {total : Nat} :
    ∀ {ps rest : List β} {buffer m : List α}, collect payload total buffer ps = some (m, rest) →
      ∃ used, ps = used ++ rest ∧ m = (buffer ++ used.flatMap payload).take total ∧
        total ≤ (buffer ++ used.flatMap payload).length := by
  intro ps
  induction ps with
  | nil =>
      intro rest buffer m h
      rw [collect] at h
      split at h
      · cases h
      · cases h
        exact ⟨[], by simp, by simp, by simp; omega⟩
  | cons p ps ih =>
      intro rest buffer m h
      by_cases hlt : buffer.length < total
      · rw [collect_of_lt payload hlt] at h
        obtain ⟨used, rfl, hm, hle⟩ := ih h
        refine ⟨p :: used, rfl, ?_, ?_⟩
        · simpa [List.flatMap_cons, List.append_assoc] using hm
        · simpa [List.flatMap_cons, List.append_assoc] using hle
      · rw [collect_of_le payload (by omega)] at h
        cases h
        exact ⟨[], by simp, by simp, by simp; omega⟩

/-! ## Where the receiver stops -/

/-- With the first `k` items, and not with fewer, there are `total` elements. -/
def ReachesAt (payload : β → List α) (total : Nat) (buffer : List α) (ps : List β) (k : Nat) : Prop :=
  total ≤ (buffer ++ (ps.take k).flatMap payload).length ∧
    ∀ j, j < k → (buffer ++ (ps.take j).flatMap payload).length < total

/-- Enough elements are reached at some first item. -/
theorem exists_reachesAt {payload : β → List α} {total : Nat} {buffer : List α} {ps : List β}
    (h : total ≤ (buffer ++ ps.flatMap payload).length) :
    ∃ k, ReachesAt payload total buffer ps k := by
  have hex : ∃ k, total ≤ (buffer ++ (ps.take k).flatMap payload).length :=
    ⟨ps.length, by rwa [List.take_length]⟩
  refine ⟨Nat.find hex, Nat.find_spec hex, fun j hj => ?_⟩
  have := Nat.find_min hex hj
  omega

/-- The receiver stops right behind that item, with the beginning of all payloads. -/
theorem collect_of_reachesAt {payload : β → List α} {total : Nat} :
    ∀ {k : Nat} {ps : List β} {buffer : List α}, ReachesAt payload total buffer ps k →
      collect payload total buffer ps =
        some ((buffer ++ ps.flatMap payload).take total, ps.drop k) := by
  intro k
  induction k with
  | zero =>
      rintro ps buffer ⟨hle, -⟩
      simp only [List.take_zero, List.flatMap_nil, List.append_nil] at hle
      rw [collect_of_le payload hle, List.take_append_of_le_length hle, List.drop_zero]
  | succ k ih =>
      rintro ps buffer ⟨hle, hlt⟩
      have hbuffer : buffer.length < total := by simpa using hlt 0 (by omega)
      cases ps with
      | nil =>
          simp only [List.take_nil, List.flatMap_nil, List.append_nil] at hle
          omega
      | cons p ps =>
          -- one item further, the payload of `p` is in the buffer
          have hshift : ∀ j, buffer ++ ((p :: ps).take (j + 1)).flatMap payload =
              (buffer ++ payload p) ++ (ps.take j).flatMap payload := fun j => by
            rw [List.take_succ_cons, List.flatMap_cons, List.append_assoc]
          have hnext : ReachesAt payload total (buffer ++ payload p) ps k := by
            refine ⟨by rwa [← hshift], fun j hj => ?_⟩
            rw [← hshift]
            exact hlt (j + 1) (by omega)
          rw [collect_of_lt payload hbuffer, ih hnext, List.flatMap_cons, List.append_assoc,
            List.drop_succ_cons]

/-- With too few elements in all, everything is looked at and more is missing. -/
theorem collect_of_short {payload : β → List α} {total : Nat} :
    ∀ {ps : List β} {buffer : List α}, (buffer ++ ps.flatMap payload).length < total →
      collect payload total buffer ps = none := by
  intro ps
  induction ps with
  | nil =>
      intro buffer h
      rw [List.flatMap_nil, List.append_nil] at h
      rw [collect, if_pos h]
  | cons p ps ih =>
      intro buffer h
      rw [List.flatMap_cons, ← List.append_assoc] at h
      have hbuffer : buffer.length < total := by
        simp only [List.length_append] at h
        omega
      rw [collect_of_lt payload hbuffer, ih h]

/-! ## Fragments whose last one is not empty -/

/-- The last fragment, if there is one, has an element. -/
def LastNonempty (fs : List (List α)) : Prop :=
  ∀ f, fs.getLast? = some f → f ≠ []

theorem LastNonempty.nil : LastNonempty ([] : List (List α)) := by
  intro f h
  simp at h

theorem LastNonempty.of_forall {fs : List (List α)} (h : ∀ f ∈ fs, f ≠ []) : LastNonempty fs :=
  fun f hf => h f (List.mem_of_getLast? hf)

theorem LastNonempty.tail {f : List α} {fs : List (List α)} (h : LastNonempty (f :: fs)) :
    LastNonempty fs := by
  intro g hg
  apply h g
  cases fs with
  | nil => simp at hg
  | cons f' fs => rw [List.getLast?_cons_cons]; exact hg

/-- As long as a fragment is missing, elements are missing. -/
theorem LastNonempty.length_pos {f : List α} {fs : List (List α)} (h : LastNonempty (f :: fs)) :
    0 < (f :: fs).flatten.length := by
  induction fs generalizing f with
  | nil =>
      have := List.length_pos_iff.mpr (h f rfl)
      simpa using this
  | cons g fs ih =>
      have := ih h.tail
      rw [List.flatten_cons, List.length_append]
      omega

/-- A message cut so that its last fragment is not empty is complete at that fragment. -/
theorem collect_of_lastNonempty (payload : β → List α) (rest : List β) :
    ∀ {ps : List β} {buffer : List α}, LastNonempty (ps.map payload) →
      collect payload (buffer ++ ps.flatMap payload).length buffer (ps ++ rest) =
        some (buffer ++ ps.flatMap payload, rest) := by
  intro ps
  induction ps with
  | nil =>
      intro buffer _
      simp only [List.flatMap_nil, List.append_nil, List.nil_append]
      rw [collect_of_le payload (Nat.le_refl _), List.take_length]
  | cons p ps ih =>
      intro buffer h
      have hpos := LastNonempty.length_pos h
      have hlt : buffer.length < (buffer ++ (p :: ps).flatMap payload).length := by
        rw [List.length_append, List.flatMap_def]
        simpa using hpos
      rw [List.cons_append, collect_of_lt payload hlt]
      have hrest := @ih (buffer ++ payload p) h.tail
      simpa [List.flatMap_cons, List.append_assoc] using hrest

/-- Some of the fragments, in order and each at most once, that hold as many elements as all of
    them are all of them. -/
theorem eq_of_sublist_of_length {payload : β → List α} :
    ∀ {ps qs : List β}, qs.Sublist ps → (∀ p ∈ ps, payload p ≠ []) →
      (ps.flatMap payload).length ≤ (qs.flatMap payload).length → qs = ps := by
  intro ps qs hsub
  induction hsub with
  | slnil =>
      intro _ _
      rfl
  | cons p hsub ih =>
      intro hne hlen
      have hp := List.length_pos_iff.mpr (hne p List.mem_cons_self)
      have hle := (hsub.flatMap payload).length_le
      rw [List.flatMap_cons, List.length_append] at hlen
      omega
  | cons_cons p _ ih =>
      intro hne hlen
      simp only [List.flatMap_cons, List.length_append] at hlen
      rw [ih (fun q hq => hne q (List.mem_cons_of_mem _ hq)) (by omega)]

end Fragments
