/-
  NearLedger.HdPath

  `hd_path_to_bytes`: the indices of a BIP32 path, each as four big-endian
  bytes.  With the documented `near_slip10` it never panics
  (`pathIndices_eq_some`).  It walks the path up to `depth`, so of a path of at
  most 255 indices it takes all of them (`pathIndices_eq_indices`), and then they
  determine the path (`pathIndices_injective`).
-/

import Mathlib.Data.List.Forall2
import NearLedger.Crates

namespace NearLedger

/-- The indices of a path, `none` where `index(..).unwrap()` panics. -/
def pathIndices {C : Crates} (path : C.BIP32Path) : Option (List UInt32) :=
  (List.range (C.depth path).toNat).mapM fun i => C.index path (UInt8.ofNat i)

/-- `hd_path_to_bytes`. -/
def hdPathToBytes {C : Crates} (path : C.BIP32Path) : Option Bytes :=
  (pathIndices path).map fun indices => indices.flatMap Bytes.u32ToBeBytes

/-- `mapM` succeeds with the list of the results of its elements. -/
private theorem mapM_eq_some_iff {α β : Type} {f : α → Option β} :
    ∀ {xs : List α} {ys : List β},
      xs.mapM f = some ys ↔ List.Forall₂ (fun x y => f x = some y) xs ys := by
  intro xs
  induction xs with
  | nil =>
      intro ys
      simp [eq_comm]
  | cons x xs ih =>
      intro ys
      rw [List.mapM_cons, List.forall₂_cons_left_iff]
      simp only [Option.bind_eq_bind, Option.bind_eq_some_iff, Option.pure_def, Option.some.injEq, ih]
      constructor
      · rintro ⟨y, hy, ys', hys, rfl⟩
        exact ⟨y, ys', hy, hys, rfl⟩
      · rintro ⟨y, ys', hy, hys, rfl⟩
        exact ⟨y, hy, ys', hys, rfl⟩

/-- The indices of a path are the values `index` returns below `depth`. -/
theorem pathIndices_eq_some_iff {C : Crates} {path : C.BIP32Path} {indices : List UInt32} :
    pathIndices path = some indices ↔ indices.length = (C.depth path).toNat ∧
      ∀ i, i < (C.depth path).toNat → C.index path (UInt8.ofNat i) = indices[i]? := by
  rw [pathIndices, mapM_eq_some_iff, List.forall₂_iff_get]
  simp only [List.length_range, List.get_eq_getElem, List.getElem_range]
  constructor
  · rintro ⟨hlen, h⟩
    refine ⟨hlen.symm, fun i hi => ?_⟩
    rw [h i hi (hlen ▸ hi), List.getElem?_eq_getElem]
  · rintro ⟨hlen, h⟩
    refine ⟨hlen.symm, fun i hi hi' => ?_⟩
    rw [h i hi, List.getElem?_eq_getElem hi']

/-- With the documented `index`, `hd_path_to_bytes` does not panic. -/
theorem pathIndices_eq_some {C : Crates} (hC : C.PathDoc) (path : C.BIP32Path) :
    ∃ indices, pathIndices path = some indices := by
  have hsome : ∀ i, i < (C.depth path).toNat → (C.index path (UInt8.ofNat i)).isSome := by
    intro i hi
    apply hC.index_isSome
    rw [UInt8.lt_iff_toNat_lt, UInt8.toNat_ofNat']
    have := (C.depth path).toNat_lt
    omega
  refine ⟨(List.range (C.depth path).toNat).pmap
    (fun i h => (C.index path (UInt8.ofNat i)).get (hsome i (List.mem_range.mp h))) (fun i h => h), ?_⟩
  rw [pathIndices_eq_some_iff]
  refine ⟨by simp, fun i hi => ?_⟩
  simp [hi]

theorem length_pathIndices {C : Crates} {path : C.BIP32Path} {indices : List UInt32}
    (h : pathIndices path = some indices) : indices.length = (C.depth path).toNat :=
  (pathIndices_eq_some_iff.mp h).1

/-- Of a path of at most 255 indices none is left out. -/
theorem pathIndices_eq_indices {C : Crates} (hC : C.PathExt) {path : C.BIP32Path}
    (h : (C.indices path).length ≤ 255) : pathIndices path = some (C.indices path) := by
  have hdepth : (C.depth path).toNat = (C.indices path).length := by
    rw [hC.depth_eq, UInt8.toNat_ofNat']
    omega
  rw [pathIndices_eq_some_iff]
  refine ⟨hdepth.symm, fun i hi => ?_⟩
  have hindex : (UInt8.ofNat i).toNat = i := by
    rw [UInt8.toNat_ofNat']
    omega
  have hlt : UInt8.ofNat i < C.depth path := by
    rw [UInt8.lt_iff_toNat_lt, hindex]
    exact hi
  rw [hC.index_eq path _ hlt, hindex]

/-- They determine such a path. -/
theorem pathIndices_injective {C : Crates} (hC : C.PathExt) {p q : C.BIP32Path}
    (hp : (C.indices p).length ≤ 255) (hq : (C.indices q).length ≤ 255)
    (h : pathIndices p = pathIndices q) : p = q := by
  rw [pathIndices_eq_indices hC hp, pathIndices_eq_indices hC hq] at h
  exact hC.ext p q (Option.some.inj h)

theorem hdPathToBytes_eq_some {C : Crates} {path : C.BIP32Path} {indices : List UInt32}
    (h : pathIndices path = some indices) :
    hdPathToBytes path = some (indices.flatMap Bytes.u32ToBeBytes) := by
  rw [hdPathToBytes, h, Option.map_some]

end NearLedger
