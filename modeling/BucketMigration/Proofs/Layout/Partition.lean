import BucketMigration.Proofs.Layout.Rounding
import Mathlib.Data.List.Range

/-!
# A layout partitions its object

The parts of a layout follow each other without a gap from the first byte of the object to its last
one, and all of them but the last have the part size. A layout keeps the limits, or it is refused
with the numbers that break them. Up to a mebibyte below the largest signed word nothing overflows,
so every object that large has a layout or a refusal.
-/

namespace BucketMigration.Layout

variable {size partSize : Nat}

theorem part_of_mul_le {i : Nat} (h : (i + 1) * partSize ≤ size) :
    part size partSize i = ⟨i + 1, i * partSize, (i + 1) * partSize - 1⟩ := by
  unfold part
  rw [Nat.min_eq_left h]

theorem part_of_le_mul {i : Nat} (h : size ≤ (i + 1) * partSize) :
    part size partSize i = ⟨i + 1, i * partSize, size - 1⟩ := by
  unfold part
  rw [Nat.min_eq_right h]

theorem parts_eq_append {last : Nat} (h : partCount size partSize = last + 1) :
    parts size partSize =
      (List.range last).map (part size partSize) ++ [part size partSize last] := by
  rw [parts, h, List.range_succ, List.map_append, List.map_singleton]

section

variable (hs : 0 < size) (hp : 0 < partSize)
include hs hp

theorem mul_le_of_lt_last {i : Nat} (hi : i + 1 < partCount size partSize) :
    (i + 1) * partSize ≤ size :=
  Nat.le_of_lt (mul_lt_of_lt_partCount hs hp hi)

theorem length_part_of_lt_last {i : Nat} (hi : i + 1 < partCount size partSize) :
    (part size partSize i).range.length = partSize := by
  have hnext : (i + 1) * partSize = i * partSize + partSize := Nat.succ_mul ..
  rw [part_of_mul_le (mul_le_of_lt_last hs hp hi), ByteRange.length]
  dsimp only
  omega

theorem last_mul_lt {last : Nat} (h : partCount size partSize = last + 1) :
    last * partSize < size :=
  mul_lt_of_lt_partCount hs hp (by omega)

theorem part_last {last : Nat} (h : partCount size partSize = last + 1) :
    part size partSize last = ⟨last + 1, last * partSize, size - 1⟩ := by
  apply part_of_le_mul
  rw [← h]
  exact le_partCount_mul hs hp

theorem length_part_last {last : Nat} (h : partCount size partSize = last + 1) :
    (part size partSize last).range.length = size - last * partSize := by
  have hstart := last_mul_lt hs hp h
  rw [part_last hs hp h, ByteRange.length]
  dsimp only
  omega

theorem isChain_parts :
    (parts size partSize).IsChain fun p q => q.range.first = p.range.last + 1 := by
  rw [parts, List.isChain_map, List.isChain_range]
  intro i hi
  have hstop := mul_le_of_lt_last hs hp (i := i) (by omega)
  have hpos : 0 < (i + 1) * partSize := Nat.mul_pos (Nat.succ_pos i) hp
  rw [part_of_mul_le hstop]
  show (i + 1) * partSize = (i + 1) * partSize - 1 + 1
  omega

end

/-- The parts of a layout split an object of `size` bytes: they are numbered from 1 on, each starts
where the one before it has ended, and only the last one may be shorter than the others. -/
structure Partitions (size : Nat) (plan : PartPlan) : Prop where
  count : plan.parts.length = size ⌈/⌉ plan.partSize
  count_eq : plan.parts.length = partCount size plan.partSize
  number : plan.parts.map PartRange.number = List.range' 1 plan.parts.length
  first : plan.parts.head?.map (fun p => p.range.first) = some 0
  next : plan.parts.IsChain fun p q => q.range.first = p.range.last + 1
  last : plan.parts.getLast?.map (fun p => p.range.last) = some (size - 1)
  full : ∀ p ∈ plan.parts.dropLast, p.range.length = plan.partSize
  rest : ∀ p ∈ plan.parts.getLast?, 1 ≤ p.range.length ∧ p.range.length ≤ plan.partSize
  sum : (plan.parts.map fun p => p.range.length).sum = size

theorem Covers.partitions {plan : PartPlan} (h : Covers size plan) : Partitions size plan := by
  have hs := h.size_pos
  have hp := h.partSize_pos
  obtain ⟨last, hlast⟩ := Nat.exists_eq_add_one.mpr (partCount_pos size plan.partSize)
  have hstart := last_mul_lt hs hp hlast
  have hend := le_partCount_mul hs hp
  rw [hlast, Nat.succ_mul] at hend
  have hparts := h.parts_eq.trans (parts_eq_append hlast)
  have hcount : plan.parts.length = partCount size plan.partSize := by
    rw [h.parts_eq, length_parts]
  refine ⟨hcount.trans (partCount_eq_ceilDiv hs hp), hcount, h.map_number, ?_, ?_, ?_, ?_, ?_, ?_⟩
  · rw [h.parts_eq, parts, hlast, List.range_succ_eq_map, List.map_cons, List.head?_cons]
    simp [part]
  · rw [h.parts_eq]
    exact isChain_parts hs hp
  · rw [hparts, List.getLast?_concat, part_last hs hp hlast]
    rfl
  · intro p hmem
    rw [hparts, List.dropLast_concat] at hmem
    obtain ⟨i, hi, rfl⟩ := List.mem_map.mp hmem
    have hlt := List.mem_range.mp hi
    exact length_part_of_lt_last hs hp (by omega)
  · intro p hmem
    rw [hparts, List.getLast?_concat, Option.mem_some_iff] at hmem
    rw [← hmem, length_part_last hs hp hlast]
    omega
  · rw [h.parts_eq]
    exact sum_length_parts hs hp

/-- Parts can be laid out while the end of the object and the number past the last one are words. -/
theorem exists_partsFrom? {count start number : Nat} (hword : size + partSize ≤ maxWord)
    (hstart : start ≤ size) (hnumber : number + count ≤ maxPartNumber) :
    ∃ ps, partsFrom? size partSize count start number = some ps := by
  induction count generalizing start number with
  | zero => exact ⟨[], rfl⟩
  | succ count ih =>
    have hstop : Word.add? start partSize = some (start + partSize) :=
      Word.add?_eq_some_iff.mpr ⟨rfl, by omega⟩
    have hnext : Word.nextPart? number = some (number + 1) :=
      Word.nextPart?_eq_some_iff.mpr ⟨rfl, by omega⟩
    obtain ⟨rest, hrest⟩ : ∃ rest, partsFrom? size partSize count
        (min (start + partSize) size) (number + 1) = some rest :=
      ih (Nat.min_le_right ..) (by omega)
    refine ⟨⟨number, start, min (start + partSize) size - 1⟩ :: rest, ?_⟩
    simp only [partsFrom?, hstop, hnext, hrest, Option.bind_eq_bind, Option.bind_some]
    rfl

theorem ranges?_eq_parts (hs : 0 < size) (hp : 0 < partSize) (hword : size + partSize ≤ maxWord)
    (hcount : partCount size partSize < maxPartNumber) :
    ranges? size partSize = some (parts size partSize) := by
  obtain ⟨ps, hps⟩ := exists_partsFrom? hword (Nat.zero_le size)
    (by omega : 1 + partCount size partSize ≤ maxPartNumber)
  have hranges : ranges? size partSize = some ps := by
    unfold ranges?
    rw [if_neg (by omega), hps]
  rw [hranges, (ranges?_eq_some hs hp hranges).2]

/-- A layout that keeps the limits. -/
structure Admissible (size : Nat) (reported : Option Nat) (sizing : PartSizing) (plan : PartPlan) :
    Prop extends Partitions size plan where
  partSize_eq : plan.partSize = planPartSize size reported sizing
  partSize_pos : 0 < plan.partSize
  mib_dvd : mib ∣ plan.partSize
  partSize_le : plan.partSize ≤ sizing.maxPartSize
  count_pos : 1 ≤ plan.parts.length
  count_le : plan.parts.length ≤ sizing.maxParts
  count_le_reported : ∀ parts, reported = some parts → 0 < parts → plan.parts.length ≤ parts

/-- How it is decided whether an object has a layout, and which one it has. -/
structure Decided (size : Nat) (reported : Option Nat) (sizing : PartSizing)
    (result : Except PartPlanError PartPlan) : Prop where
  empty : result = .error .emptyObject ↔ size = 0
  tooManyParts : ∀ parts partSize limit, result = .error (.tooManyParts parts partSize limit) ↔
    0 < size ∧ sizing.maxParts < parts ∧ parts = partCount size partSize ∧
      partSize = planPartSize size reported sizing ∧ limit = sizing.maxParts
  partTooLarge : ∀ parts partSize limit, result = .error (.partTooLarge parts partSize limit) ↔
    0 < size ∧ parts ≤ sizing.maxParts ∧ sizing.maxPartSize < partSize ∧
      parts = partCount size partSize ∧ partSize = planPartSize size reported sizing ∧
      limit = sizing.maxPartSize
  ok : ∀ plan, result = .ok plan → Admissible size reported sizing plan

theorem admissible_of_plan? {reported : Option Nat} {sizing : PartSizing} {plan : PartPlan}
    (h : plan? size reported sizing = some (.ok plan)) (hword : size + mib ≤ wordCount) :
    Admissible size reported sizing plan := by
  have hcovers := plan?_eq_ok h
  have hs := hcovers.size_pos
  have hsize := partSize_of_plan? h
  have hpartitions := hcovers.partitions
  have hlimits : partCount size plan.partSize ≤ sizing.maxParts ∧
      plan.partSize ≤ sizing.maxPartSize := by
    rw [plan?_of_pos reported sizing hs, ← hsize] at h
    split at h
    · cases h
    · split at h
      · cases h
      · omega
  refine ⟨hpartitions, hsize, hcovers.partSize_pos, ?_, hlimits.2, ?_, ?_, ?_⟩
  · rw [hsize]
    exact mib_dvd_planPartSize reported sizing hword
  · rw [hpartitions.count_eq]
    exact partCount_pos ..
  · rw [hpartitions.count_eq]
    exact hlimits.1
  · rintro (_ | parts) rfl hpos
    · cases hpos
    · rw [hpartitions.count_eq, hsize]
      have hmax : wordCount = maxWord + 1 := rfl
      have hmib := mib_pos
      exact partCount_le_partTarget (some (parts + 1)) sizing hs (by omega)

theorem partSize_add_le (reported : Option Nat) (sizing : PartSizing)
    (hsize : size ≤ 2 ^ 63 - 2 ^ 20) : size + planPartSize size reported sizing ≤ maxWord := by
  have hlt := planPartSize_lt reported sizing size
  have hmib : mib = 2 ^ 20 := rfl
  have hword : maxWord = 2 ^ 64 - 1 := rfl
  omega

section

variable {reported : Option Nat} {sizing : PartSizing}

theorem decided_tooManyParts (hs : 0 < size)
    (hmany : sizing.maxParts < partCount size (planPartSize size reported sizing)) :
    Decided size reported sizing (.error (.tooManyParts
      (partCount size (planPartSize size reported sizing)) (planPartSize size reported sizing)
      sizing.maxParts)) := by
  refine ⟨by simp [Nat.ne_of_gt hs], ?_, ?_, fun plan h => by cases h⟩
  · intro parts partSize limit
    constructor
    · intro h
      cases h
      exact ⟨hs, hmany, rfl, rfl, rfl⟩
    · rintro ⟨-, -, rfl, rfl, rfl⟩
      rfl
  · intro parts partSize limit
    constructor
    · intro h
      cases h
    · rintro ⟨-, hfew, -, rfl, rfl, -⟩
      exact absurd hmany (Nat.not_lt.mpr hfew)

theorem not_tooManyParts
    (hfew : partCount size (planPartSize size reported sizing) ≤ sizing.maxParts)
    (parts partSize limit : Nat) :
    ¬(0 < size ∧ sizing.maxParts < parts ∧ parts = partCount size partSize ∧
      partSize = planPartSize size reported sizing ∧ limit = sizing.maxParts) := by
  rintro ⟨-, hmany, rfl, rfl, -⟩
  exact absurd hmany (Nat.not_lt.mpr hfew)

theorem decided_partTooLarge (hs : 0 < size)
    (hfew : partCount size (planPartSize size reported sizing) ≤ sizing.maxParts)
    (hlarge : sizing.maxPartSize < planPartSize size reported sizing) :
    Decided size reported sizing (.error (.partTooLarge
      (partCount size (planPartSize size reported sizing)) (planPartSize size reported sizing)
      sizing.maxPartSize)) := by
  refine ⟨by simp [Nat.ne_of_gt hs], ?_, ?_, fun plan h => by cases h⟩
  · intro parts partSize limit
    refine iff_of_false (fun h => by cases h) (not_tooManyParts hfew parts partSize limit)
  · intro parts partSize limit
    constructor
    · intro h
      cases h
      exact ⟨hs, hfew, hlarge, rfl, rfl, rfl⟩
    · rintro ⟨-, -, -, rfl, rfl, rfl⟩
      rfl

theorem decided_ok {plan : PartPlan} (h : plan? size reported sizing = some (.ok plan))
    (hword : size + mib ≤ wordCount) : Decided size reported sizing (.ok plan) := by
  have hadmissible := admissible_of_plan? h hword
  have hcount := hadmissible.count_eq
  have hfew := hadmissible.count_le
  have hsmall := hadmissible.partSize_le
  rw [hadmissible.partSize_eq] at hcount hsmall
  rw [hcount] at hfew
  refine ⟨iff_of_false (fun h => by cases h) (Nat.ne_of_gt (plan?_eq_ok h).size_pos), ?_, ?_, ?_⟩
  · intro parts partSize limit
    exact iff_of_false (fun h => by cases h) (not_tooManyParts hfew parts partSize limit)
  · intro parts partSize limit
    refine iff_of_false (fun h => by cases h) ?_
    rintro ⟨-, -, hlarge, -, rfl, -⟩
    exact absurd hlarge (Nat.not_lt.mpr hsmall)
  · intro other hother
    cases hother
    exact hadmissible

theorem plan?_eq_tooManyParts (hs : 0 < size)
    (hmany : sizing.maxParts < partCount size (planPartSize size reported sizing)) :
    plan? size reported sizing = some (.error (.tooManyParts
      (partCount size (planPartSize size reported sizing)) (planPartSize size reported sizing)
      sizing.maxParts)) := by
  rw [plan?_of_pos reported sizing hs, if_pos hmany]

theorem plan?_eq_partTooLarge (hs : 0 < size)
    (hfew : partCount size (planPartSize size reported sizing) ≤ sizing.maxParts)
    (hlarge : sizing.maxPartSize < planPartSize size reported sizing) :
    plan? size reported sizing = some (.error (.partTooLarge
      (partCount size (planPartSize size reported sizing)) (planPartSize size reported sizing)
      sizing.maxPartSize)) := by
  rw [plan?_of_pos reported sizing hs, if_neg (Nat.not_lt.mpr hfew), if_pos hlarge]

theorem plan?_eq_ok_of_le (hs : 0 < size) (hsize : size ≤ 2 ^ 63 - 2 ^ 20)
    (hparts : sizing.maxParts ≤ 2 ^ 31 - 2)
    (hfew : partCount size (planPartSize size reported sizing) ≤ sizing.maxParts)
    (hsmall : planPartSize size reported sizing ≤ sizing.maxPartSize) :
    plan? size reported sizing = some (.ok ⟨planPartSize size reported sizing,
      parts size (planPartSize size reported sizing)⟩) := by
  have hmax : maxPartNumber = 2 ^ 31 - 1 := rfl
  have hranges := ranges?_eq_parts hs (planPartSize_pos reported sizing hs)
    (partSize_add_le reported sizing hsize) (by omega)
  rw [plan?_of_pos reported sizing hs, if_neg (Nat.not_lt.mpr hfew), if_neg (Nat.not_lt.mpr hsmall),
    hranges, Option.map_some]

/-- Nothing overflows when an object is laid out that is not too large for it, in not too many parts. -/
theorem plan?_ne_none (reported : Option Nat) (hsize : size ≤ 2 ^ 63 - 2 ^ 20)
    (hparts : sizing.maxParts ≤ 2 ^ 31 - 2) : plan? size reported sizing ≠ none := by
  rcases Nat.eq_zero_or_pos size with rfl | hs
  · exact nofun
  by_cases hmany : sizing.maxParts < partCount size (planPartSize size reported sizing)
  · rw [plan?_eq_tooManyParts hs hmany]
    exact nofun
  have hfew := Nat.not_lt.mp hmany
  by_cases hlarge : sizing.maxPartSize < planPartSize size reported sizing
  · rw [plan?_eq_partTooLarge hs hfew hlarge]
    exact nofun
  · rw [plan?_eq_ok_of_le hs hsize hparts hfew (Nat.not_lt.mp hlarge)]
    exact nofun

end

/-- Every object of less than `2 ^ 63` bytes, short of the last mebibyte, has a layout or is
refused, and nothing overflows on the way. A layout covers the object without gap or overlap in
parts of whole mebibytes; a refusal tells which limit was broken. -/
theorem plan_partitions_object (reported : Option Nat) {sizing : PartSizing}
    (hsize : size ≤ 2 ^ 63 - 2 ^ 20) (hparts : sizing.maxParts ≤ 2 ^ 31 - 2) :
    ∃ result, plan? size reported sizing = some result ∧ Decided size reported sizing result := by
  rcases Nat.eq_zero_or_pos size with rfl | hs
  · exact ⟨.error .emptyObject, rfl, by simp, by simp, by simp, by simp⟩
  by_cases hmany : sizing.maxParts < partCount size (planPartSize size reported sizing)
  · exact ⟨_, plan?_eq_tooManyParts hs hmany, decided_tooManyParts hs hmany⟩
  have hfew := Nat.not_lt.mp hmany
  by_cases hlarge : sizing.maxPartSize < planPartSize size reported sizing
  · exact ⟨_, plan?_eq_partTooLarge hs hfew hlarge, decided_partTooLarge hs hfew hlarge⟩
  · have hok := plan?_eq_ok_of_le hs hsize hparts hfew (Nat.not_lt.mp hlarge)
    have hcount : wordCount = 2 ^ 64 := rfl
    have hmib : mib = 2 ^ 20 := rfl
    exact ⟨_, hok, decided_ok hok (by omega)⟩

/-- Ten mebibytes that were uploaded in six parts take five, since parts are whole mebibytes. -/
theorem plan_partitions_object_ten_mib :
    ∃ plan, plan? (10 * mib) (some 6) {} = some (.ok plan) ∧ plan.partSize = 2 * mib ∧
      plan.parts.length = 5 ∧ Admissible (10 * mib) (some 6) {} plan := by
  obtain ⟨result, hplan, hdecided⟩ : ∃ result, plan? (10 * mib) (some 6) {} = some result ∧
      Decided (10 * mib) (some 6) {} result :=
    plan_partitions_object (some 6) (by decide) (by decide)
  have hvalue : plan? (10 * mib) (some 6) {} =
      some (.ok ⟨2 * mib, parts (10 * mib) (2 * mib)⟩) := by decide +kernel
  rw [hvalue, Option.some.injEq] at hplan
  subst hplan
  exact ⟨_, hvalue, rfl, by decide, hdecided.ok _ rfl⟩

end BucketMigration.Layout
