import BucketMigration.Proofs.Layout.Parts
import Mathlib.Algebra.Order.Floor.Div

/-!
# Ceilings and whole mebibytes

The size of the parts of a layout comes from two divisions that are rounded up, by the number of
parts that is aimed at and by a mebibyte, and their number from a third one. Each of the three is
used through the one law that a ceiling is at most `c` just when `c` pieces are enough.
-/

namespace BucketMigration

namespace Word

theorem ceilDiv_eq (a b : Nat) : ceilDiv a b = a ⌈/⌉ b :=
  (Nat.ceilDiv_eq_add_pred_div a b).symm

theorem ceilDiv_le_iff {a b c : Nat} (hb : 0 < b) : ceilDiv a b ≤ c ↔ a ≤ c * b := by
  rw [ceilDiv_eq, ceilDiv_le_iff_le_mul hb, Nat.mul_comm]

theorem lt_ceilDiv_iff {a b c : Nat} (hb : 0 < b) : c < ceilDiv a b ↔ c * b < a := by
  rw [← Nat.not_le, ceilDiv_le_iff hb, Nat.not_le]

theorem ceilDiv_pos {a b : Nat} (ha : 0 < a) (hb : 0 < b) : 0 < ceilDiv a b := by
  rw [lt_ceilDiv_iff hb, Nat.zero_mul]
  exact ha

theorem ceilDiv_le_self (a : Nat) {b : Nat} (hb : 0 < b) : ceilDiv a b ≤ a :=
  (ceilDiv_le_iff hb).mpr (Nat.le_mul_of_pos_right a hb)

theorem ceilDiv_one (a : Nat) : ceilDiv a 1 = a := by
  rw [ceilDiv, Nat.add_sub_cancel, Nat.div_one]

theorem ceilDiv_anti (a : Nat) {b c : Nat} (hb : 0 < b) (h : b ≤ c) : ceilDiv a c ≤ ceilDiv a b := by
  rw [ceilDiv_le_iff (Nat.lt_of_lt_of_le hb h)]
  exact Nat.le_trans (le_ceilDiv_mul a hb) (Nat.mul_le_mul_left _ h)

theorem ceilDiv_mono {a b c : Nat} (hc : 0 < c) (h : a ≤ b) : ceilDiv a c ≤ ceilDiv b c := by
  rw [ceilDiv_le_iff hc]
  exact Nat.le_trans h (le_ceilDiv_mul b hc)

theorem ceilDiv_mul_lt (a : Nat) {b : Nat} (hb : 0 < b) : ceilDiv a b * b < a + b := by
  have hle : ceilDiv a b * b ≤ a + b - 1 := Nat.div_mul_le_self ..
  omega

end Word

namespace Layout

theorem mib_pos : 0 < mib := by decide

theorem le_roundUpToMib {bytes : Nat} (h : bytes ≤ maxWord) : bytes ≤ roundUpToMib bytes :=
  Nat.le_min.mpr ⟨Word.le_ceilDiv_mul bytes mib_pos, h⟩

theorem roundUpToMib_lt (bytes : Nat) : roundUpToMib bytes < bytes + mib :=
  Nat.lt_of_le_of_lt (Nat.min_le_left ..) (Word.ceilDiv_mul_lt bytes mib_pos)

theorem roundUpToMib_mono {a b : Nat} (h : a ≤ b) : roundUpToMib a ≤ roundUpToMib b := by
  have hmul := Nat.mul_le_mul_right mib (Word.ceilDiv_mono mib_pos h)
  unfold roundUpToMib Word.mulSat
  omega

theorem roundUpToMib_le {bytes limit : Nat} (h : bytes ≤ limit) (hdvd : mib ∣ limit) :
    roundUpToMib bytes ≤ limit := by
  obtain ⟨k, rfl⟩ := hdvd
  rw [Nat.mul_comm] at h ⊢
  refine Nat.le_trans (Nat.min_le_left ..) (Nat.mul_le_mul_right mib ?_)
  exact (Word.ceilDiv_le_iff mib_pos).mpr h

/-- Only what is within a mebibyte of the largest word is not rounded up to a whole mebibyte. -/
theorem mib_dvd_roundUpToMib {bytes : Nat} (h : bytes + mib ≤ wordCount) :
    mib ∣ roundUpToMib bytes := by
  have hlt := Word.ceilDiv_mul_lt bytes mib_pos
  have hword : wordCount = maxWord + 1 := rfl
  have heq : roundUpToMib bytes = Word.ceilDiv bytes mib * mib := Nat.min_eq_left (by omega)
  rw [heq]
  exact Nat.dvd_mul_left ..

theorem mul_mib_le_roundUpToMib_iff {bytes k : Nat} (hk : (k + 1) * mib ≤ maxWord) :
    (k + 1) * mib ≤ roundUpToMib bytes ↔ k * mib < bytes := by
  rw [← Word.lt_ceilDiv_iff mib_pos]
  constructor
  · intro h
    exact Nat.le_of_mul_le_mul_right (Nat.le_trans h (Nat.min_le_left ..)) mib_pos
  · intro h
    exact Nat.le_min.mpr ⟨Nat.mul_le_mul_right mib h, hk⟩

theorem partCount_le_iff {size partSize count : Nat} (hs : 0 < size) (hp : 0 < partSize) :
    partCount size partSize ≤ count ↔ size ≤ count * partSize := by
  rw [partCount_of_pos hs hp, Word.ceilDiv_le_iff hp]

theorem partCount_eq_ceilDiv {size partSize : Nat} (hs : 0 < size) (hp : 0 < partSize) :
    partCount size partSize = size ⌈/⌉ partSize := by
  rw [partCount_of_pos hs hp, Word.ceilDiv_eq]

/-- The part size of the layout of an object, whether the layout is within the limits or not. -/
def planPartSize (size : Nat) (reported : Option Nat) (sizing : PartSizing) : Nat :=
  roundUpToMib (Word.ceilDiv size (partTarget size reported sizing))

section

variable {size : Nat} (reported : Option Nat) (sizing : PartSizing)

theorem planPartSize_pos (hs : 0 < size) : 0 < planPartSize size reported sizing :=
  roundUpToMib_pos (Word.ceilDiv_pos hs (partTarget_pos ..))

theorem planPartSize_lt (size : Nat) : planPartSize size reported sizing < size + mib := by
  have hceil := Word.ceilDiv_le_self size (partTarget_pos size reported sizing)
  have hround := roundUpToMib_lt (Word.ceilDiv size (partTarget size reported sizing))
  unfold planPartSize
  omega

theorem mib_dvd_planPartSize (hsize : size + mib ≤ wordCount) :
    mib ∣ planPartSize size reported sizing := by
  have hceil := Word.ceilDiv_le_self size (partTarget_pos size reported sizing)
  exact mib_dvd_roundUpToMib (by omega)

/-- Rounding parts up makes no more of them than were aimed at. -/
theorem partCount_le_partTarget (hs : 0 < size) (hword : size ≤ maxWord) :
    partCount size (planPartSize size reported sizing) ≤ partTarget size reported sizing := by
  have htarget := partTarget_pos size reported sizing
  have hceil := Word.ceilDiv_le_self size htarget
  rw [partCount_le_iff hs (planPartSize_pos reported sizing hs)]
  calc size
    _ ≤ Word.ceilDiv size (partTarget size reported sizing) * partTarget size reported sizing :=
        Word.le_ceilDiv_mul size htarget
    _ ≤ planPartSize size reported sizing * partTarget size reported sizing :=
        Nat.mul_le_mul_right _ (le_roundUpToMib (Nat.le_trans hceil hword))
    _ = partTarget size reported sizing * planPartSize size reported sizing := Nat.mul_comm ..

/-- The limits are looked at first, the number of parts before their size. -/
theorem plan?_of_pos (hs : 0 < size) :
    plan? size reported sizing =
      if sizing.maxParts < partCount size (planPartSize size reported sizing) then
        some (.error (.tooManyParts (partCount size (planPartSize size reported sizing))
          (planPartSize size reported sizing) sizing.maxParts))
      else if sizing.maxPartSize < planPartSize size reported sizing then
        some (.error (.partTooLarge (partCount size (planPartSize size reported sizing))
          (planPartSize size reported sizing) sizing.maxPartSize))
      else (ranges? size (planPartSize size reported sizing)).map fun parts =>
        .ok ⟨planPartSize size reported sizing, parts⟩ := by
  unfold plan?
  rw [if_neg (Nat.ne_of_gt hs)]
  rfl

end

theorem partSize_of_plan? {size : Nat} {reported : Option Nat} {sizing : PartSizing}
    {plan : PartPlan} (h : plan? size reported sizing = some (.ok plan)) :
    plan.partSize = planPartSize size reported sizing := by
  rw [plan?_of_pos reported sizing (plan?_eq_ok h).size_pos] at h
  split at h
  · cases h
  · split at h
    · cases h
    · obtain ⟨parts, -, heq⟩ := Option.map_eq_some_iff.mp h
      cases heq
      rfl

end Layout

end BucketMigration
