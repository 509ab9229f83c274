import BucketMigration.Copy.Step
import BucketMigration.Proofs.Layout.Partition
import BucketMigration.Store.Lemmas

/-!
# Laying out again

A layout need not have as many parts as it was aimed at, since parts are whole mebibytes. But the
number that comes out reproduces it: aiming at that number gives the same part size again, from above
because so many parts of that size cover the object, and from below because there are no more of them
than before. An object that was uploaded in parts reports how many there were, so a copy of the copy
has the layout of the copy.
-/

namespace BucketMigration

namespace Layout

variable {size : Nat} {reported : Option Nat} {sizing : PartSizing} {plan : PartPlan}

theorem partTarget_of_reported {count : Nat} (h : 0 < count) (size : Nat) (sizing : PartSizing) :
    partTarget size (some count) sizing = count := by
  obtain ⟨n, rfl⟩ := Nat.exists_eq_add_one.mpr h
  rfl

theorem planPartSize_partCount (reported : Option Nat) (sizing : PartSizing) (hs : 0 < size)
    (hword : size + mib ≤ wordCount) :
    planPartSize size (some (partCount size (planPartSize size reported sizing))) sizing =
      planPartSize size reported sizing := by
  have hp := planPartSize_pos reported sizing hs
  have hcount := partCount_pos size (planPartSize size reported sizing)
  have hmax : wordCount = maxWord + 1 := rfl
  have hmib := mib_pos
  conv_lhs => rw [planPartSize, partTarget_of_reported hcount]
  apply Nat.le_antisymm
  · have hceil : Word.ceilDiv size (partCount size (planPartSize size reported sizing)) ≤
        planPartSize size reported sizing := by
      rw [Word.ceilDiv_le_iff hcount, Nat.mul_comm]
      exact le_partCount_mul hs hp
    exact roundUpToMib_le hceil (mib_dvd_planPartSize reported sizing hword)
  · have hfew := partCount_le_partTarget reported sizing hs (by omega)
    exact roundUpToMib_mono (Word.ceilDiv_anti size hcount hfew)

/-- Aiming at the number of parts that comes out changes nothing, whether there is a layout or the
object is refused. -/
theorem plan?_partCount (reported : Option Nat) (sizing : PartSizing) (hs : 0 < size)
    (hword : size + mib ≤ wordCount) :
    plan? size (some (partCount size (planPartSize size reported sizing))) sizing =
      plan? size reported sizing := by
  rw [plan?_of_pos _ sizing hs, plan?_of_pos reported sizing hs,
    planPartSize_partCount reported sizing hs hword]

theorem plan?_length_parts (h : plan? size reported sizing = some (.ok plan))
    (hword : size + mib ≤ wordCount) :
    plan? size (some plan.parts.length) sizing = some (.ok plan) := by
  have hcovers := plan?_eq_ok h
  rw [hcovers.partitions.count_eq, partSize_of_plan? h,
    plan?_partCount reported sizing hcovers.size_pos hword, h]

/-- A copy of an object of `size` bytes that has come about by completing an upload of the parts of
`plan`: the metadata of its source are what a store reports for that object. -/
structure CopiesOn (size : Nat) (plan : PartPlan) (c : ObjectCopy) : Prop where
  size_eq : c.object.size = size
  completed : ∃ (s t : Store) (now : Int) (bucket key id : String) (ps : List CompletedPart),
    ps.map CompletedPart.number = (plan.parts.map fun p => (p.number : Int)) ∧
      s.completeUpload now bucket key id ps = (.ok (), t) ∧ c.metadata = t.head bucket key

theorem partsCount_completeUpload {s t : Store} {now : Int} {bucket key id : String}
    {ps : List CompletedPart} (h : s.completeUpload now bucket key id ps = (.ok (), t)) :
    (t.head bucket key).bind ObjectMetadata.partsCount = some (ps.length % 2 ^ 32) := by
  unfold Store.completeUpload at h
  split at h
  · cases h
  split at h
  · cases h
  split at h
  · cases h
  split at h
  · cases h
  · cases h
    rw [Store.head, Store.object?_write, if_pos ⟨rfl, rfl⟩]
    rfl

theorem CopiesOn.reported_eq {c : ObjectCopy} (h : CopiesOn size plan c) (hplan : Covers size plan) :
    c.metadata.bind ObjectMetadata.partsCount = some plan.parts.length := by
  obtain ⟨s, t, now, bucket, key, id, ps, hnumbers, hdone, hmetadata⟩ := h.completed
  have hlength : ps.length = plan.parts.length := by
    rw [← List.length_map CompletedPart.number, hnumbers, List.length_map]
  have hcount := hplan.count_lt
  have hmax : maxPartNumber = 2 ^ 31 - 1 := rfl
  rw [← hplan.partitions.count_eq] at hcount
  rw [hmetadata, partsCount_completeUpload hdone, hlength, Nat.mod_eq_of_lt (by omega)]

theorem CopiesOn.plan?_eq {c : ObjectCopy} (h : CopiesOn size plan c) (hplan : Covers size plan)
    (setup : Setup) :
    c.plan? setup = plan? size (some plan.parts.length) setup.options.partSizing := by
  rw [ObjectCopy.plan?, h.size_eq, h.reported_eq hplan]

/-- A layout that a copy of a copy may have, with options of its own. -/
def Follows (size : Nat) (plan next : PartPlan) : Prop :=
  ∃ setup c, CopiesOn size plan c ∧ c.plan? setup = some (.ok next)

theorem Follows.covers {next : PartPlan} (h : Follows size plan next) : Covers size next := by
  obtain ⟨setup, c, hc, hnext⟩ := h
  rw [ObjectCopy.plan?, hc.size_eq] at hnext
  exact plan?_eq_ok hnext

theorem Follows.length_le {next : PartPlan} (h : Follows size plan next) (hplan : Covers size plan)
    (hword : size + mib ≤ wordCount) : next.parts.length ≤ plan.parts.length := by
  obtain ⟨setup, c, hc, hnext⟩ := h
  rw [hc.plan?_eq hplan] at hnext
  have hpos : 0 < plan.parts.length := by
    rw [hplan.partitions.count_eq]
    exact partCount_pos ..
  exact (admissible_of_plan? hnext hword).count_le_reported _ rfl hpos

theorem pairwise_length_le {plans : List PartPlan} (hplan : Covers size plan)
    (hword : size + mib ≤ wordCount) (h : (plan :: plans).IsChain (Follows size)) :
    (plan :: plans).Pairwise fun p q => q.parts.length ≤ p.parts.length := by
  rw [← List.isChain_iff_pairwise]
  induction plans generalizing plan with
  | nil => exact .singleton plan
  | cons next plans ih =>
    obtain ⟨hnext, hrest⟩ := List.isChain_cons_cons.mp h
    exact .cons_cons (hnext.length_le hplan hword) (ih hnext.covers hrest)

/-- The number of parts of a layout gives the very same layout when it is reported back. So a copy
of an object that was uploaded in these parts has the layout that the object was uploaded with, and
along a chain of copies the number of parts never grows. -/
theorem layout_is_stable (hsize : size ≤ 2 ^ 63 - 2 ^ 20)
    (h : plan? size reported sizing = some (.ok plan)) :
    plan? size (some plan.parts.length) sizing = some (.ok plan) ∧
      (∀ setup c, CopiesOn size plan c → setup.options.partSizing = sizing →
        c.plan? setup = some (.ok plan)) ∧
      ∀ plans, (plan :: plans).IsChain (Follows size) →
        (plan :: plans).Pairwise fun p q => q.parts.length ≤ p.parts.length := by
  have hcount : wordCount = 2 ^ 64 := rfl
  have hmib : mib = 2 ^ 20 := rfl
  have hword : size + mib ≤ wordCount := by omega
  have hcovers := plan?_eq_ok h
  have hagain := plan?_length_parts h hword
  refine ⟨hagain, ?_, fun plans => pairwise_length_le hcovers hword⟩
  intro setup c hc hsizing
  rw [hc.plan?_eq hcovers, hsizing, hagain]

/-- Ten mebibytes for which six parts are reported have five, and five parts give the same layout. -/
theorem layout_is_stable_ten_mib :
    plan? (10 * mib) (some 6) {} = some (.ok ⟨2 * mib, parts (10 * mib) (2 * mib)⟩) ∧
      plan? (10 * mib) (some 5) {} = some (.ok ⟨2 * mib, parts (10 * mib) (2 * mib)⟩) := by
  have hplan : plan? (10 * mib) (some 6) {} =
      some (.ok ⟨2 * mib, parts (10 * mib) (2 * mib)⟩) := by decide +kernel
  exact ⟨hplan, (layout_is_stable (by decide) hplan).1⟩

end Layout

end BucketMigration
