import BucketMigration.Proofs.Layout.Parts
import BucketMigration.Store.Basic
import Mathlib.Data.List.Chain

/-!
# Putting parts together

The parts of a layout lie one behind the other, so what they hold of some data makes up the data
again. When every part of an upload holds its own piece and the parts are named in order, the
completed object is the data up to the size that was laid out.
-/

namespace BucketMigration

namespace Layout

theorem fits_part_iff {size partSize i : Nat} (hs : 0 < size) (hp : 0 < partSize)
    (hi : i < partCount size partSize) (length : Nat) :
    (part size partSize i).range.fits length = true ↔ min ((i + 1) * partSize) size ≤ length := by
  have hle := first_le_last_part hs hp hi
  have hstart := mul_lt_of_lt_partCount hs hp hi
  have hnext : (i + 1) * partSize = i * partSize + partSize := Nat.succ_mul ..
  simp only [ByteRange.fits, Bool.and_eq_true, decide_eq_true_eq, hle, true_and]
  unfold part
  dsimp only
  omega

theorem forall_fits_iff {size partSize : Nat} (hs : 0 < size) (hp : 0 < partSize) (length : Nat) :
    (∀ p ∈ parts size partSize, p.range.fits length = true) ↔ size ≤ length := by
  have hcount := partCount_pos size partSize
  constructor
  · intro h
    have hlast : partCount size partSize - 1 < partCount size partSize := by omega
    have hfits := h _ (List.mem_map.mpr ⟨_, List.mem_range.mpr hlast, rfl⟩)
    rw [fits_part_iff hs hp hlast, Nat.sub_add_cancel hcount] at hfits
    have hcover := le_partCount_mul hs hp
    omega
  · intro hle p hpart
    obtain ⟨i, hi, rfl⟩ := List.mem_map.mp hpart
    rw [fits_part_iff hs hp (List.mem_range.mp hi)]
    omega

theorem slice_part {size partSize i : Nat} (hs : 0 < size) (hp : 0 < partSize)
    (hi : i < partCount size partSize) (data : ByteArray) :
    (part size partSize i).range.slice data =
      data.extract (min (i * partSize) size) (min ((i + 1) * partSize) size) := by
  have hstart := mul_lt_of_lt_partCount hs hp hi
  have hnext : (i + 1) * partSize = i * partSize + partSize := Nat.succ_mul ..
  have hfirst : min (i * partSize) size = i * partSize := by omega
  have hlast : min ((i + 1) * partSize) size - 1 + 1 = min ((i + 1) * partSize) size := by omega
  rw [hfirst]
  unfold part ByteRange.slice
  dsimp only
  rw [hlast]

end Layout

namespace Store

theorem ascending_iff {ps : List CompletedPart} :
    ascending ps = true ↔ (ps.map CompletedPart.number).Pairwise (· < ·) := by
  rw [← List.isChain_iff_pairwise]
  induction ps with
  | nil => simp [ascending]
  | cons a ps ih =>
    cases ps with
    | nil => simp [ascending]
    | cons b ps =>
      rw [ascending, Bool.and_eq_true, decide_eq_true_eq, ih]
      simp only [List.map_cons, List.isChain_cons_cons]

/-- The data of parts that were uploaded, one behind the other. -/
def joined (acc : ByteArray) (stored : List StoredPart) : ByteArray :=
  stored.foldl (fun acc part => acc ++ part.data) acc

/-- Parts can be put together exactly when each one is named with the etag that it was stored with. -/
theorem assemble_eq_ok_iff {session : UploadSession} {ps : List CompletedPart}
    {acc data : ByteArray} :
    assemble session acc ps = .ok data ↔
      (∀ p ∈ ps, ∃ stored, session.parts[p.number]? = some stored ∧ stored.etag = p.etag) ∧
        data = joined acc (ps.filterMap fun p => session.parts[p.number]?) := by
  induction ps generalizing acc with
  | nil => simp [assemble, joined, eq_comm]
  | cons p ps ih =>
    rw [assemble, List.forall_mem_cons, List.filterMap_cons]
    cases hstored : session.parts[p.number]? with
    | none => simp
    | some stored =>
      by_cases hetag : stored.etag = p.etag
      · simp only [hetag, if_true, ih, joined, List.foldl_cons, Option.some.injEq, exists_eq_left',
          true_and]
      · simp [hetag]

theorem assemble_parts {size partSize : Nat} (hs : 0 < size) (hp : 0 < partSize) (data : ByteArray)
    (session : UploadSession) {ps : List CompletedPart} {i k : Nat}
    (hik : i + k ≤ Layout.partCount size partSize)
    (hnumbers : ps.map CompletedPart.number = (List.range' (i + 1) k).map fun n : Nat => (n : Int))
    (hstored : ∀ p ∈ ps, ∀ j, p.number = (j + 1 : Nat) → session.parts[p.number]? =
      some ⟨(Layout.part size partSize j).range.slice data, p.etag⟩) :
    assemble session (data.extract 0 (min (i * partSize) size)) ps =
      .ok (data.extract 0 (min ((i + k) * partSize) size)) := by
  induction k generalizing i ps with
  | zero =>
    obtain rfl : ps = [] := by simpa using hnumbers
    rfl
  | succ k ih =>
    cases ps with
    | nil => simp at hnumbers
    | cons p ps =>
      simp only [List.map_cons, List.range'_succ, List.cons.injEq] at hnumbers
      obtain ⟨hfirst, hrest⟩ := hnumbers
      have hmin : min (i * partSize) size ≤ min ((i + 1) * partSize) size := by
        have hnext : (i + 1) * partSize = i * partSize + partSize := Nat.succ_mul ..
        omega
      simp only [assemble, hstored p List.mem_cons_self i hfirst, if_true]
      rw [Layout.slice_part hs hp (by omega), ← ByteArray.extract_eq_extract_append_extract
        (min (i * partSize) size) (Nat.zero_le _) hmin]
      have hstep := ih (i := i + 1) (by omega) hrest fun q hq => hstored q (List.mem_cons_of_mem _ hq)
      rw [hstep, show i + 1 + k = i + (k + 1) by omega]

theorem assemble_layout {size partSize : Nat} (hs : 0 < size) (hp : 0 < partSize) (data : ByteArray)
    (session : UploadSession) {ps : List CompletedPart}
    (hnumbers : ps.map CompletedPart.number =
      (Layout.parts size partSize).map fun p => (p.number : Int))
    (hstored : ∀ p ∈ ps, ∀ part ∈ Layout.parts size partSize, p.number = (part.number : Nat) →
      session.parts[p.number]? = some ⟨part.range.slice data, p.etag⟩) :
    assemble session .empty ps = .ok (data.extract 0 size) := by
  have hrange : ps.map CompletedPart.number =
      (List.range' 1 (Layout.partCount size partSize)).map fun n : Nat => (n : Int) := by
    rw [hnumbers, ← Layout.map_number_parts, List.map_map]
    rfl
  have hcover := Layout.le_partCount_mul hs hp
  have h := assemble_parts hs hp data session (i := 0) (Nat.zero_add _ ▸ Nat.le_refl _) hrange ?_
  · rw [Nat.zero_add, Nat.zero_mul, Nat.zero_min, ByteArray.extract_same,
      Nat.min_eq_right hcover] at h
    exact h
  · intro p hmem j hnumber
    have hj : (j + 1 : Nat) ∈ List.range' 1 (Layout.partCount size partSize) := by
      have hin : p.number ∈ ps.map CompletedPart.number := List.mem_map.mpr ⟨p, hmem, rfl⟩
      rw [hrange, hnumber] at hin
      obtain ⟨n, hn, heq⟩ := List.mem_map.mp hin
      rwa [← Int.ofNat_inj.mp heq]
    have hlt : j < Layout.partCount size partSize := by
      rw [List.mem_range'_1] at hj
      omega
    exact hstored p hmem _ (List.mem_map.mpr ⟨j, List.mem_range.mpr hlt, rfl⟩) hnumber

end Store

end BucketMigration
