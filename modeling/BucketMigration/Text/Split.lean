/-!
# Splitting at the last separator

A text is cut at the last place where a character occurs. The cut is unique: the second half is
free of the separator.
-/

namespace BucketMigration.Text

/-- The text before the last `c` and the text after it. -/
def splitLast (c : Char) : List Char → Option (List Char × List Char)
  | [] => none
  | d :: rest =>
      match splitLast c rest with
      | some (before, after) => some (d :: before, after)
      | none => if d = c then some ([], rest) else none

theorem splitLast_of_not_mem {c : Char} {cs : List Char} (h : c ∉ cs) : splitLast c cs = none := by
  induction cs with
  | nil => rfl
  | cons d rest ih =>
      simp only [List.mem_cons, not_or] at h
      rw [splitLast, ih h.2]
      exact if_neg (Ne.symm h.1)

theorem splitLast_append_cons {c : Char} {after : List Char} (h : c ∉ after) (before : List Char) :
    splitLast c (before ++ c :: after) = some (before, after) := by
  induction before with
  | nil =>
      rw [List.nil_append, splitLast, splitLast_of_not_mem h]
      exact if_pos rfl
  | cons d rest ih => rw [List.cons_append, splitLast, ih]

theorem exists_last_of_mem {c : Char} {cs : List Char} (h : c ∈ cs) :
    ∃ before after, cs = before ++ c :: after ∧ c ∉ after := by
  induction cs with
  | nil => cases h
  | cons d rest ih =>
      by_cases hr : c ∈ rest
      · obtain ⟨before, after, rfl, ha⟩ := ih hr
        exact ⟨d :: before, after, rfl, ha⟩
      · obtain rfl | hm := List.mem_cons.mp h
        · exact ⟨[], rest, rfl, hr⟩
        · exact absurd hm hr

theorem splitLast_eq_some_iff {c : Char} {cs before after : List Char} :
    splitLast c cs = some (before, after) ↔ cs = before ++ c :: after ∧ c ∉ after := by
  constructor
  · intro h
    by_cases hm : c ∈ cs
    · obtain ⟨b, a, rfl, ha⟩ := exists_last_of_mem hm
      rw [splitLast_append_cons ha] at h
      cases h
      exact ⟨rfl, ha⟩
    · rw [splitLast_of_not_mem hm] at h
      cases h
  · rintro ⟨rfl, ha⟩
    exact splitLast_append_cons ha before

end BucketMigration.Text
