import BucketMigration.Layout
import Mathlib.Algebra.GroupWithZero.Nat

/-!
# The parts of a layout

A layout is an arithmetic progression: part `i + 1` starts at `i` times the part size, and only the
last part is cut short by the end of the object. Numbers and ranges of all parts are read off this
form.
-/

namespace BucketMigration.Layout

/-- Part `i`, counted from 0, of an object in parts of `partSize` bytes. -/
def part (size partSize i : Nat) : PartRange :=
  ⟨i + 1, i * partSize, min ((i + 1) * partSize) size - 1⟩

theorem partsFrom?_eq_some {size partSize count start number : Nat} {parts : List PartRange}
    (h : partsFrom? size partSize count start number = some parts)
    (hend : 0 < count → start + (count - 1) * partSize < size) :
    number + count ≤ max number maxPartNumber ∧
    parts = (List.range count).map fun i =>
      ⟨number + i, start + i * partSize, min (start + (i + 1) * partSize) size - 1⟩ := by
  induction count generalizing start number parts with
  | zero =>
    simp only [partsFrom?, Option.some.injEq] at h
    subst h
    exact ⟨by omega, rfl⟩
  | succ count ih =>
    simp only [partsFrom?, Option.bind_eq_bind, Option.bind_eq_some_iff, Option.pure_def,
      Option.some.injEq] at h
    obtain ⟨stop, hstop, next, hnext, rest, hrest, rfl⟩ := h
    obtain ⟨rfl, -⟩ := Word.add?_eq_some_iff.mp hstop
    obtain ⟨rfl, hnumber⟩ := Word.nextPart?_eq_some_iff.mp hnext
    have hlast : start + count * partSize < size := by simpa using hend (by omega)
    cases count with
    | zero =>
      simp only [partsFrom?, Option.some.injEq] at hrest
      subst hrest
      exact ⟨by omega, by simp⟩
    | succ count =>
      -- the next part starts inside the object, so its start is not cut
      have hstep : (count + 1) * partSize = count * partSize + partSize := Nat.succ_mul ..
      have hmin : min (start + partSize) size = start + partSize := by omega
      rw [hmin] at hrest
      obtain ⟨hbound, rfl⟩ := ih hrest (by
        intro _
        simp only [Nat.add_sub_cancel]
        omega)
      refine ⟨by omega, ?_⟩
      rw [List.range_succ_eq_map (n := count + 1), List.map_cons, List.map_map]
      congr 1
      · simp
      · apply List.map_congr_left
        intro i _
        have h1 : (i + 1) * partSize = i * partSize + partSize := Nat.succ_mul ..
        have h2 : (i + 1 + 1) * partSize = (i + 1) * partSize + partSize := Nat.succ_mul ..
        simp only [Function.comp, Nat.succ_eq_add_one, PartRange.mk.injEq, ByteRange.mk.injEq]
        refine ⟨by omega, by omega, ?_⟩
        congr 2
        omega

theorem partCount_pos (size partSize : Nat) : 0 < partCount size partSize := by
  unfold partCount
  split
  · exact Nat.one_pos
  · exact Nat.div_pos (by omega) (by omega)

theorem partCount_of_pos {size partSize : Nat} (hs : 0 < size) (hp : 0 < partSize) :
    partCount size partSize = Word.ceilDiv size partSize := by
  unfold partCount
  rw [if_neg (by omega)]

theorem mul_lt_of_lt_partCount {size partSize i : Nat} (hs : 0 < size) (hp : 0 < partSize)
    (hi : i < partCount size partSize) : i * partSize < size := by
  rw [partCount_of_pos hs hp] at hi
  have h := (Nat.le_div_iff_mul_le hp).mp (Nat.succ_le_of_lt hi)
  have hmul : (i + 1) * partSize = i * partSize + partSize := Nat.succ_mul ..
  rw [Nat.succ_eq_add_one, hmul] at h
  omega

theorem le_partCount_mul {size partSize : Nat} (hs : 0 < size) (hp : 0 < partSize) :
    size ≤ partCount size partSize * partSize := by
  rw [partCount_of_pos hs hp]
  exact Word.le_ceilDiv_mul size hp

theorem partTarget_pos (size : Nat) (reported : Option Nat) (sizing : PartSizing) :
    0 < partTarget size reported sizing := by
  unfold partTarget
  split
  · exact Nat.succ_pos _
  · exact partCount_pos ..

theorem roundUpToMib_pos {bytes : Nat} (h : 0 < bytes) : 0 < roundUpToMib bytes := by
  have hmib : 0 < mib := by decide
  have hceil : 0 < Word.ceilDiv bytes mib := Nat.div_pos (by omega) hmib
  exact Nat.lt_min.mpr ⟨Nat.mul_pos hceil hmib, by decide⟩

/-- Parts from byte `start` on, one after the other as long as bytes are left. -/
inductive Generates (size partSize : Nat) : (start number : Nat) → List PartRange → Prop
  | done {start number : Nat} (hstart : size ≤ start) : Generates size partSize start number []
  | part {start number stop next : Nat} {rest : List PartRange} (hstart : start < size)
      (hstop : Word.add? start partSize = some stop) (hnext : Word.nextPart? number = some next)
      (hrest : Generates size partSize (min stop size) next rest) :
      Generates size partSize start number (⟨number, start, min stop size - 1⟩ :: rest)

theorem partsFrom?_eq_some_iff {size partSize count start number : Nat} {ps : List PartRange}
    (hcount : ∀ k, k < count ↔ start + k * partSize < size) :
    partsFrom? size partSize count start number = some ps ↔
      Generates size partSize start number ps := by
  induction count generalizing start number ps with
  | zero =>
    have hstart : size ≤ start := by simpa using hcount 0
    rw [partsFrom?, Option.some.injEq]
    constructor
    · rintro rfl
      exact .done hstart
    · intro h
      cases h with
      | done => rfl
      | part hlt => exact absurd hlt (Nat.not_lt.mpr hstart)
  | succ count ih =>
    have hstart : start < size := by simpa using hcount 0
    -- a part that ends with the object is the last one that is counted
    have hrest : ∀ k, k < count ↔ min (start + partSize) size + k * partSize < size := by
      intro k
      have hnext := hcount (k + 1)
      have hone := hcount 1
      have hmul : (k + 1) * partSize = k * partSize + partSize := Nat.succ_mul ..
      omega
    simp only [partsFrom?, Option.bind_eq_bind, Option.bind_eq_some_iff, Option.pure_def,
      Option.some.injEq]
    constructor
    · rintro ⟨stop, hstop, next, hnext, rest, hparts, rfl⟩
      obtain ⟨rfl, -⟩ := Word.add?_eq_some_iff.mp hstop
      exact .part hstart hstop hnext ((ih hrest).mp hparts)
    · intro h
      cases h with
      | done hle => exact absurd hstart (Nat.not_lt.mpr hle)
      | @part _ _ stop next rest _ hstop hnext hparts =>
        obtain ⟨rfl, -⟩ := Word.add?_eq_some_iff.mp hstop
        exact ⟨_, hstop, next, hnext, rest, (ih hrest).mpr hparts, rfl⟩

/-- The parts of an object are those that a loop makes until it has come to the end of the object. -/
theorem ranges?_eq_some_iff {size partSize : Nat} {ps : List PartRange} (hp : 0 < partSize) :
    ranges? size partSize = some ps ↔ Generates size partSize 0 1 ps := by
  unfold ranges?
  split
  · obtain rfl : size = 0 := by omega
    exact @partsFrom?_eq_some_iff 0 partSize 0 0 1 ps (by omega)
  · apply partsFrom?_eq_some_iff
    intro k
    rw [Nat.zero_add]
    have hs : 0 < size := by omega
    exact ⟨mul_lt_of_lt_partCount hs hp,
      fun hlt => Nat.lt_of_mul_lt_mul_right (Nat.lt_of_lt_of_le hlt (le_partCount_mul hs hp))⟩

/-- The parts that an object is split into when its layout has the given part size. -/
def parts (size partSize : Nat) : List PartRange :=
  (List.range (partCount size partSize)).map (part size partSize)

theorem ranges?_eq_some {size partSize : Nat} {ps : List PartRange} (hs : 0 < size)
    (hp : 0 < partSize) (h : ranges? size partSize = some ps) :
    partCount size partSize < maxPartNumber ∧ ps = parts size partSize := by
  unfold ranges? at h
  rw [if_neg (by omega)] at h
  have hpos := partCount_pos size partSize
  obtain ⟨hbound, rfl⟩ := partsFrom?_eq_some h fun _ => by
    rw [Nat.zero_add]
    exact mul_lt_of_lt_partCount hs hp (by omega)
  have hmax : 1 < maxPartNumber := by decide
  refine ⟨by omega, ?_⟩
  unfold parts part
  apply List.map_congr_left
  intro i _
  simp only [Nat.zero_add, Nat.add_comm 1 i]

/-- What is known of a layout of `size` bytes: its parts are those of its part size, within the
limits. -/
structure Covers (size : Nat) (plan : PartPlan) : Prop where
  size_pos : 0 < size
  partSize_pos : 0 < plan.partSize
  parts_eq : plan.parts = parts size plan.partSize
  count_lt : partCount size plan.partSize < maxPartNumber

theorem plan?_eq_ok {size : Nat} {reported : Option Nat} {sizing : PartSizing} {plan : PartPlan}
    (h : plan? size reported sizing = some (.ok plan)) : Covers size plan := by
  unfold plan? at h
  split at h
  · cases h
  · rename_i hsize
    have hs : 0 < size := Nat.pos_of_ne_zero hsize
    dsimp only at h
    split at h
    · cases h
    · split at h
      · cases h
      · obtain ⟨ps, hps, heq⟩ := Option.map_eq_some_iff.mp h
        cases heq
        have hceil : 0 < Word.ceilDiv size (partTarget size reported sizing) :=
          Nat.div_pos (by omega) (partTarget_pos ..)
        have hp := roundUpToMib_pos hceil
        obtain ⟨hcount, rfl⟩ := ranges?_eq_some hs hp hps
        exact ⟨hs, hp, rfl, hcount⟩

@[simp] theorem length_parts (size partSize : Nat) :
    (parts size partSize).length = partCount size partSize := by
  simp [parts]

theorem map_number_parts (size partSize : Nat) :
    (parts size partSize).map PartRange.number = List.range' 1 (partCount size partSize) := by
  unfold parts
  rw [List.map_map, List.range'_eq_map_range]
  apply List.map_congr_left
  intro i _
  exact Nat.add_comm ..

theorem pairwise_number_parts (size partSize : Nat) :
    ((parts size partSize).map PartRange.number).Pairwise (· < ·) := by
  rw [map_number_parts]
  exact List.pairwise_lt_range'

theorem first_le_last_part {size partSize i : Nat} (hs : 0 < size) (hp : 0 < partSize)
    (hi : i < partCount size partSize) :
    (part size partSize i).range.first ≤ (part size partSize i).range.last := by
  have hstart := mul_lt_of_lt_partCount hs hp hi
  have hnext : (i + 1) * partSize = i * partSize + partSize := Nat.succ_mul ..
  unfold part
  dsimp only
  omega

theorem sum_length_parts {size partSize : Nat} (hs : 0 < size) (hp : 0 < partSize) :
    ((parts size partSize).map fun part => part.range.length).sum = size := by
  have hsum : ∀ k ≤ partCount size partSize,
      (((List.range k).map (part size partSize)).map fun part => part.range.length).sum =
        min (k * partSize) size := by
    intro k hk
    induction k with
    | zero => simp
    | succ k ih =>
      have hstart := mul_lt_of_lt_partCount hs hp (Nat.lt_of_succ_le hk)
      have hfirst := first_le_last_part hs hp (Nat.lt_of_succ_le hk)
      have hnext : (k + 1) * partSize = k * partSize + partSize := Nat.succ_mul ..
      rw [List.range_succ, List.map_append, List.map_append, List.sum_append,
        ih (Nat.le_of_succ_le hk)]
      simp only [List.map_cons, List.map_nil, List.sum_cons, List.sum_nil, Nat.add_zero,
        ByteRange.length]
      unfold part at hfirst ⊢
      dsimp only at hfirst ⊢
      omega
  rw [parts, hsum _ (Nat.le_refl _)]
  exact Nat.min_eq_right (le_partCount_mul hs hp)

namespace Covers

variable {size : Nat} {plan : PartPlan}

theorem map_number (h : Covers size plan) :
    plan.parts.map PartRange.number = List.range' 1 plan.parts.length := by
  rw [h.parts_eq, map_number_parts, length_parts]

theorem pairwise_number (h : Covers size plan) :
    (plan.parts.map PartRange.number).Pairwise (· < ·) := by
  rw [h.parts_eq]
  exact pairwise_number_parts ..

theorem nodup_number (h : Covers size plan) : (plan.parts.map PartRange.number).Nodup :=
  h.pairwise_number.imp Nat.ne_of_lt

end Covers

end BucketMigration.Layout
