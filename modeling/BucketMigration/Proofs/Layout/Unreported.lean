import BucketMigration.Options
import BucketMigration.Proofs.Layout.Partition

/-!
# Objects without a part count

When the source does not tell in how many parts an object was uploaded, the layout aims at parts of
the preferred size, or larger ones where there would be too many. Rounding the count up first and the
part size afterwards has two effects. Parts never get larger than aimed at, but for whole mebibytes,
so an object that the size limit admits has a layout. And parts may get smaller: how many bytes the
last part lacks is spread over all of them.
-/

namespace BucketMigration

theorem MigrationOptions.sizing_of_validate {options : MigrationOptions}
    (h : options.validate = .ok ()) :
    0 < options.partSize ∧ options.partSize ≤ options.maxPartSize ∧ 0 < options.maxParts := by
  have hvalid := valid_of_validate h
  exact ⟨hvalid.partSize.1, hvalid.partSize.2, hvalid.maxParts⟩

namespace Layout

/-- The part size that is aimed at when no part count is reported. -/
def preferredPartSize (size : Nat) (sizing : PartSizing) : Nat :=
  max (max sizing.partSize (Word.ceilDiv size (max sizing.maxParts 1))) 1

variable {size : Nat} {reported : Option Nat} {sizing : PartSizing}

theorem preferredPartSize_pos (size : Nat) (sizing : PartSizing) :
    0 < preferredPartSize size sizing :=
  Nat.le_max_right ..

theorem partTarget_of_unreported (h : reported = none ∨ reported = some 0) :
    partTarget size reported sizing = partCount size (preferredPartSize size sizing) := by
  rcases h with rfl | rfl <;> rfl

section Admitted

variable (hreported : reported = none ∨ reported = some 0) (hs : 0 < size)
include hreported hs

theorem partTarget_le_maxParts (hmax : 0 < sizing.maxParts) :
    partTarget size reported sizing ≤ sizing.maxParts := by
  have hleast : Word.ceilDiv size sizing.maxParts ≤ preferredPartSize size sizing := by
    unfold preferredPartSize
    rw [Nat.max_eq_left hmax]
    omega
  rw [partTarget_of_unreported hreported, partCount_le_iff hs (preferredPartSize_pos size sizing),
    Nat.mul_comm]
  exact (Word.ceilDiv_le_iff hmax).mp hleast

theorem ceilDiv_partTarget_le :
    Word.ceilDiv size (partTarget size reported sizing) ≤ preferredPartSize size sizing := by
  rw [Word.ceilDiv_le_iff (partTarget_pos ..), partTarget_of_unreported hreported, Nat.mul_comm]
  exact le_partCount_mul hs (preferredPartSize_pos size sizing)

theorem partCount_le_maxParts (hword : size ≤ maxWord) (hmax : 0 < sizing.maxParts) :
    partCount size (planPartSize size reported sizing) ≤ sizing.maxParts :=
  Nat.le_trans (partCount_le_partTarget reported sizing hs hword)
    (partTarget_le_maxParts hreported hs hmax)

theorem planPartSize_le_maxPartSize (hpart : 0 < sizing.partSize)
    (hlarge : sizing.partSize ≤ sizing.maxPartSize) (hmax : 0 < sizing.maxParts)
    (hsize : size ≤ sizing.maxParts * sizing.maxPartSize) (hdvd : mib ∣ sizing.maxPartSize) :
    planPartSize size reported sizing ≤ sizing.maxPartSize := by
  have hleast : Word.ceilDiv size sizing.maxParts ≤ sizing.maxPartSize := by
    rw [Word.ceilDiv_le_iff hmax, Nat.mul_comm]
    exact hsize
  have hpreferred : preferredPartSize size sizing ≤ sizing.maxPartSize := by
    unfold preferredPartSize
    rw [Nat.max_eq_left hmax]
    omega
  exact roundUpToMib_le (Nat.le_trans (ceilDiv_partTarget_le hreported hs) hpreferred) hdvd

end Admitted

/-- With options that are valid, an object that is not larger than the largest object they allow is
never refused for too many parts. It is refused for too large parts only when the largest part is
not a whole number of mebibytes. -/
theorem plan_accepts_admitted {options : MigrationOptions} (hvalid : options.validate = .ok ())
    (hparts : options.maxParts ≤ 2 ^ 31 - 2) (hs : 0 < size) (hsize : size ≤ 2 ^ 63 - 2 ^ 20)
    (hadmitted : size ≤ options.maxObjectSize) (hreported : reported = none ∨ reported = some 0) :
    ∃ result, plan? size reported options.partSizing = some result ∧
      (∀ parts partSize limit, result ≠ .error (.tooManyParts parts partSize limit)) ∧
      (∀ parts partSize limit, result = .error (.partTooLarge parts partSize limit) →
        ¬mib ∣ options.maxPartSize) ∧
      (mib ∣ options.maxPartSize → ∃ plan, result = .ok plan) := by
  obtain ⟨hpart, hlarge, hmax⟩ := MigrationOptions.sizing_of_validate hvalid
  have hcapacity : size ≤ options.maxParts * options.maxPartSize :=
    Nat.le_trans hadmitted (Nat.min_le_left ..)
  have hfew : partCount size (planPartSize size reported options.partSizing) ≤ options.maxParts :=
    partCount_le_maxParts hreported hs (Nat.le_trans hsize (by decide)) hmax
  by_cases hrefused : options.maxPartSize < planPartSize size reported options.partSizing
  · have hdvd : ¬mib ∣ options.maxPartSize := by
      intro hdvd
      exact absurd hrefused (Nat.not_lt.mpr
        (planPartSize_le_maxPartSize hreported hs hpart hlarge hmax hcapacity hdvd))
    refine ⟨_, plan?_eq_partTooLarge hs hfew hrefused, ?_, fun _ _ _ _ => hdvd, fun h => absurd h hdvd⟩
    intro parts partSize limit h
    cases h
  · refine ⟨_, plan?_eq_ok_of_le hs hsize hparts hfew (Nat.not_lt.mp hrefused), ?_, ?_,
      fun _ => ⟨_, rfl⟩⟩
    · intro parts partSize limit h
      cases h
    · intro parts partSize limit h
      cases h

/-- The largest object that options for three parts of six mebibytes admit. -/
theorem plan_accepts_admitted_three_parts :
    ∃ plan, plan? (18 * mib) none ⟨minPartSize, 3, 6 * mib⟩ = some (.ok plan) := by
  let options : MigrationOptions := { maxParts := 3, maxPartSize := 6 * mib }
  have hvalid : options.validate = .ok () := rfl
  have hadmitted : 18 * mib ≤ options.maxObjectSize := by decide
  obtain ⟨result, hplan, -, -, hok⟩ :=
    plan_accepts_admitted hvalid (by decide) (by decide) (by decide) hadmitted (.inl rfl)
  obtain ⟨plan, rfl⟩ := hok ⟨6, rfl⟩
  exact ⟨plan, hplan⟩

-- A limit between two mebibytes refuses the object that just fits it.
example : plan? (mib + 1) none ⟨1, 1, mib + 1⟩ =
    some (.error (.partTooLarge 1 (2 * mib) (mib + 1))) := by decide

theorem minPartSize_le_planPartSize_iff (size : Nat) (reported : Option Nat) (sizing : PartSizing) :
    minPartSize ≤ planPartSize size reported sizing ↔
      4 * mib * partTarget size reported sizing < size := by
  have hround : 5 * mib ≤ roundUpToMib (Word.ceilDiv size (partTarget size reported sizing)) ↔
      4 * mib < Word.ceilDiv size (partTarget size reported sizing) :=
    mul_mib_le_roundUpToMib_iff (by decide)
  exact hround.trans (Word.lt_ceilDiv_iff (partTarget_pos ..))

/-- All parts but the last have a length just when the part size has it, or there is one part only. -/
theorem Covers.forall_le_length_iff {plan : PartPlan} (h : Covers size plan) (least : Nat) :
    (∀ p ∈ plan.parts.dropLast, least ≤ p.range.length) ↔
      size ≤ plan.partSize ∨ least ≤ plan.partSize := by
  have hs := h.size_pos
  have hp := h.partSize_pos
  obtain ⟨last, hlast⟩ := Nat.exists_eq_add_one.mpr (partCount_pos size plan.partSize)
  have hone : partCount size plan.partSize ≤ 1 ↔ size ≤ plan.partSize := by
    rw [partCount_le_iff hs hp, Nat.one_mul]
  have hfull := h.partitions.full
  rw [h.parts_eq, parts_eq_append hlast, List.dropLast_concat] at hfull ⊢
  constructor
  · intro hall
    rcases Nat.eq_zero_or_pos last with rfl | hpos
    · exact .inl (hone.mp (by omega))
    · have hmem : part size plan.partSize 0 ∈ (List.range last).map (part size plan.partSize) :=
        List.mem_map_of_mem (List.mem_range.mpr hpos)
      exact .inr (hfull _ hmem ▸ hall _ hmem)
  · rintro (hsize | hleast) p hmem
    · have hnone : last = 0 := by
        have := hone.mpr hsize
        omega
      rw [hnone] at hmem
      cases hmem
    · rw [hfull p hmem]
      exact hleast

/-- Every part but the last has the smallest size that a service accepts. -/
def MeetsMinimum (plan : PartPlan) : Prop :=
  ∀ p ∈ plan.parts.dropLast, minPartSize ≤ p.range.length

theorem meetsMinimum_iff {plan : PartPlan} (h : plan? size reported sizing = some (.ok plan)) :
    MeetsMinimum plan ↔
      size ≤ plan.partSize ∨ 4 * mib * partTarget size reported sizing < size := by
  rw [MeetsMinimum, (plan?_eq_ok h).forall_le_length_iff, partSize_of_plan? h,
    minPartSize_le_planPartSize_iff]

/-- What is left of the last part that was aimed at is not enough to shrink the others below the
minimum when there are many of them, or when they are large. -/
theorem mul_partCount_lt_of_large {preferred : Nat} (hs : 0 < size)
    (hpreferred : minPartSize ≤ preferred)
    (hlarge : 16 * mib < size ∨ (8 * mib ≤ preferred ∧ preferred < size)) :
    4 * mib * partCount size preferred < size := by
  have hmin : minPartSize = 5 * mib := rfl
  have hp : 0 < preferred := Nat.lt_of_lt_of_le (by decide) hpreferred
  obtain ⟨last, hlast⟩ := Nat.exists_eq_add_one.mpr (partCount_pos size preferred)
  have hstart := last_mul_lt hs hp hlast
  rw [hlast]
  rcases hlarge with hsize | ⟨hpart, hmore⟩
  · have hle := Nat.mul_le_mul_left last hpreferred
    unfold minPartSize mib at *
    omega
  · have hle := Nat.mul_le_mul_left last hpart
    have hpos : 0 < last := by
      rcases Nat.eq_zero_or_pos last with rfl | hpos
      · have := (partCount_le_iff hs hp).mp (Nat.le_of_eq hlast)
        omega
      · exact hpos
    unfold mib at *
    omega

theorem partTarget_eq_one (h : reported = none ∨ reported = some 0) (hs : 0 < size)
    (hsize : size ≤ preferredPartSize size sizing) : partTarget size reported sizing = 1 := by
  have hpos := partTarget_pos size reported sizing
  have hle : partTarget size reported sizing ≤ 1 := by
    rw [partTarget_of_unreported h, partCount_le_iff hs (preferredPartSize_pos size sizing),
      Nat.one_mul]
    exact hsize
  omega

theorem meetsMinimum_of_le_preferred {plan : PartPlan} (h : reported = none ∨ reported = some 0)
    (hplan : plan? size reported sizing = some (.ok plan))
    (hsize : size ≤ preferredPartSize size sizing) : MeetsMinimum plan := by
  have hone := partTarget_eq_one h (plan?_eq_ok hplan).size_pos hsize
  rw [meetsMinimum_iff hplan, hone, Nat.mul_one]
  by_cases hsmall : size ≤ maxWord
  · left
    rw [partSize_of_plan? hplan, planPartSize, hone, Word.ceilDiv_one]
    exact le_roundUpToMib hsmall
  · right
    have hword : 4 * mib ≤ maxWord := by decide
    omega

/-- Objects of more than 16 mebibytes, and those that prefer parts of 8 mebibytes, are laid out in
parts that a service accepts. -/
theorem meetsMinimum_of_large {plan : PartPlan} (h : reported = none ∨ reported = some 0)
    (hplan : plan? size reported sizing = some (.ok plan)) (hpreferred : minPartSize ≤ sizing.partSize)
    (hlarge : 16 * mib < size ∨ 8 * mib ≤ sizing.partSize) : MeetsMinimum plan := by
  have hle : sizing.partSize ≤ preferredPartSize size sizing := by
    unfold preferredPartSize
    omega
  by_cases hsize : size ≤ preferredPartSize size sizing
  · exact meetsMinimum_of_le_preferred h hplan hsize
  · rw [meetsMinimum_iff hplan, partTarget_of_unreported h]
    right
    apply mul_partCount_lt_of_large (plan?_eq_ok hplan).size_pos (Nat.le_trans hpreferred hle)
    omega

/-- With a preferred part size that a service accepts, and no part count reported, the parts of a
layout but the last are as large as a service accepts just when the object fits in one part of the
size that is aimed at, or has more than four mebibytes for each of the parts that are aimed at. -/
theorem parts_meet_minimum_iff {plan : PartPlan} (hreported : reported = none ∨ reported = some 0)
    (hpreferred : minPartSize ≤ sizing.partSize)
    (h : plan? size reported sizing = some (.ok plan)) :
    (∀ p ∈ plan.parts.dropLast, minPartSize ≤ p.range.length) ↔
      size ≤ preferredPartSize size sizing ∨
        4 * mib * partCount size (preferredPartSize size sizing) < size := by
  have hiff := meetsMinimum_iff h
  rw [partTarget_of_unreported hreported] at hiff
  constructor
  · intro hall
    rcases hiff.mp hall with hone | hmany
    · rw [partSize_of_plan? h] at hone
      by_cases hleast : minPartSize ≤ planPartSize size reported sizing
      · rw [minPartSize_le_planPartSize_iff, partTarget_of_unreported hreported] at hleast
        exact .inr hleast
      · left
        unfold preferredPartSize
        omega
    · exact .inr hmany
  · rintro (hone | hmany)
    · exact meetsMinimum_of_le_preferred hreported h hone
    · exact hiff.mpr (.inr hmany)

/-- Six mebibytes, in two parts of at most five, make two parts of three. -/
theorem six_mib_in_small_parts :
    minPartSize ≤ ({} : PartSizing).partSize ∧
      ∃ plan, plan? (6 * mib) none {} = some (.ok plan) ∧
        ∃ p ∈ plan.parts.dropLast, p.range.length < minPartSize := by
  have hplan : plan? (6 * mib) none {} =
      some (.ok ⟨3 * mib, [⟨1, 0, 3 * mib - 1⟩, ⟨2, 3 * mib, 6 * mib - 1⟩]⟩) := by decide +kernel
  exact ⟨Nat.le_refl _, _, hplan, _, List.mem_cons_self, by decide⟩

/-- Sixteen mebibytes are laid out in parts of four, and a single byte more in parts of five. -/
theorem parts_meet_minimum_iff_sixteen_mib :
    ∃ plan plan', plan? (16 * mib) none {} = some (.ok plan) ∧
      ¬(∀ p ∈ plan.parts.dropLast, minPartSize ≤ p.range.length) ∧
      plan? (16 * mib + 1) (some 0) {} = some (.ok plan') ∧
      ∀ p ∈ plan'.parts.dropLast, minPartSize ≤ p.range.length := by
  have hplan : plan? (16 * mib) none {} = some (.ok ⟨4 * mib, parts (16 * mib) (4 * mib)⟩) := by
    decide +kernel
  have hplan' : plan? (16 * mib + 1) (some 0) {} =
      some (.ok ⟨5 * mib, parts (16 * mib + 1) (5 * mib)⟩) := by
    decide +kernel
  have hiff := parts_meet_minimum_iff (.inl rfl) (Nat.le_refl _) hplan
  have hiff' := parts_meet_minimum_iff (.inr rfl) (Nat.le_refl _) hplan'
  exact ⟨_, _, hplan, mt hiff.mp (by decide), hplan', hiff'.mpr (by decide)⟩

end Layout

end BucketMigration
