import BucketMigration.Text.Blank
import BucketMigration.Text.Numeral
import Mathlib.Data.List.DropRight

/-!
# What trimming and numerals accept

Trimming takes away what is there to be taken away and nothing else: a text is trimmed to a middle
part that is free of the characters exactly when it has nothing but such characters around it. A
numeral is read exactly when it is a run of digits with one optional plus sign in front.
-/

namespace BucketMigration.Text

variable {p q : Char → Bool} {cs before middle after : List Char}

theorem exists_trimEnd_append (p : Char → Bool) (cs : List Char) :
    ∃ after, (∀ c ∈ after, p c = true) ∧ cs = trimEnd p cs ++ after :=
  ⟨cs.rtakeWhile p, fun _ => List.mem_rtakeWhile_imp, List.rdropWhile_append_rtakeWhile.symm⟩

theorem exists_append_trimStart (p : Char → Bool) (cs : List Char) :
    ∃ before, (∀ c ∈ before, p c = true) ∧ cs = before ++ trimStart p cs :=
  ⟨cs.takeWhile p, fun _ => List.mem_takeWhile_imp, List.takeWhile_append_dropWhile.symm⟩

theorem trimEnd_append_of_all (before : List Char) (h : ∀ c ∈ after, p c = true) :
    trimEnd p (before ++ after) = trimEnd p before := by
  have h : ∀ c ∈ after.reverse, p c = true := fun c hc => h c (List.mem_reverse.mp hc)
  rw [trimEnd, List.reverse_append, List.dropWhile_append_of_pos h, ← trimEnd]

theorem trimEnd_append_cons {c : Char} (before after : List Char) (h : p c = false) :
    trimEnd p (before ++ c :: after) = before ++ c :: trimEnd p after := by
  obtain ⟨rest, hrest, hafter⟩ := exists_trimEnd_append p after
  have hkept : trimEnd p (before ++ c :: trimEnd p after) = before ++ c :: trimEnd p after := by
    apply List.rdropWhile_eq_self_iff.mpr
    intro hne
    by_cases hnil : trimEnd p after = []
    · simp [hnil, h]
    · rw [List.getLast_append_of_ne_nil _ (List.cons_ne_nil _ _), List.getLast_cons hnil]
      exact List.rdropWhile_last_not p after hnil
  calc trimEnd p (before ++ c :: after)
      = trimEnd p ((before ++ c :: trimEnd p after) ++ rest) := by
        rw [List.append_assoc, List.cons_append, ← hafter]
    _ = before ++ c :: trimEnd p after := by rw [trimEnd_append_of_all _ hrest, hkept]

/-- A text that neither begins nor ends with one of the characters. -/
def Bare (p : Char → Bool) (cs : List Char) : Prop :=
  (∀ c ∈ cs.head?, p c = false) ∧ ∀ c ∈ cs.getLast?, p c = false

theorem bare_of_forall (h : ∀ c ∈ cs, p c = false) : Bare p cs :=
  ⟨fun c hc => h c (List.mem_of_mem_head? hc), fun c hc => h c (List.mem_of_mem_getLast? hc)⟩

theorem trimBoth_eq_self_of_bare (h : Bare p cs) : trimBoth p cs = cs := by
  have hstart : trimStart p cs = cs := by
    apply List.dropWhile_eq_self_iff.mpr
    intro hpos
    simp [h.1 cs[0] (by rw [List.head?_eq_getElem?]; exact List.getElem?_eq_getElem hpos)]
  rw [trimBoth, hstart]
  apply List.rdropWhile_eq_self_iff.mpr
  intro hne
  simp [h.2 _ (List.getLast_mem_getLast? hne)]

theorem bare_trimBoth (p : Char → Bool) (cs : List Char) : Bare p (trimBoth p cs) := by
  constructor
  · intro c hc
    obtain ⟨after, -, hstart⟩ := exists_trimEnd_append p (trimStart p cs)
    have hhead : c ∈ (trimStart p cs).head? := by
      rw [hstart]
      exact List.mem_head?_append_of_mem_head? hc
    have hnot := List.head?_dropWhile_not p cs
    rwa [← trimStart, Option.mem_def.mp hhead] at hnot
  · intro c hc
    obtain ⟨hne, rfl⟩ := List.mem_getLast?_eq_getLast hc
    exact Bool.eq_false_iff.mpr (List.rdropWhile_last_not p _ hne)

theorem trimBoth_append_of_all (cs : List Char) (h : ∀ c ∈ after, p c = true) :
    trimBoth p (cs ++ after) = trimBoth p cs := by
  by_cases hcs : ∀ c ∈ cs, p c = true
  · have hboth : ∀ c ∈ cs ++ after, p c = true := fun c hc =>
      (List.mem_append.mp hc).elim (hcs c) (h c)
    rw [trimBoth_eq_nil_iff.mpr hboth, trimBoth_eq_nil_iff.mpr hcs]
  · have hne : (cs.dropWhile p).isEmpty = false := by
      rw [List.isEmpty_eq_false_iff]
      exact fun hnil => hcs (trimStart_eq_nil_iff.mp hnil)
    have hstart : trimStart p (cs ++ after) = trimStart p cs ++ after := by
      rw [trimStart, List.dropWhile_append, hne]
      rfl
    rw [trimBoth, hstart, trimEnd_append_of_all _ h, ← trimBoth]

theorem append_trimBoth_of_all (cs : List Char) (h : ∀ c ∈ before, p c = true) :
    trimBoth p (before ++ cs) = trimBoth p cs := by
  rw [trimBoth, trimStart, List.dropWhile_append_of_pos h, ← trimStart, ← trimBoth]

theorem exists_append_trimBoth (p : Char → Bool) (cs : List Char) :
    ∃ before after, (∀ c ∈ before, p c = true) ∧ (∀ c ∈ after, p c = true) ∧
      cs = before ++ trimBoth p cs ++ after := by
  obtain ⟨before, hbefore, hcs⟩ := exists_append_trimStart p cs
  obtain ⟨after, hafter, hrest⟩ := exists_trimEnd_append p (trimStart p cs)
  refine ⟨before, after, hbefore, hafter, ?_⟩
  rw [List.append_assoc, trimBoth, ← hrest, ← hcs]

theorem trimBoth_eq_iff_bare : trimBoth p cs = middle ↔ Bare p middle ∧
    ∃ before after, (∀ c ∈ before, p c = true) ∧ (∀ c ∈ after, p c = true) ∧
      cs = before ++ middle ++ after := by
  constructor
  · rintro rfl
    exact ⟨bare_trimBoth p cs, exists_append_trimBoth p cs⟩
  · rintro ⟨hbare, before, after, hbefore, hafter, rfl⟩
    rw [trimBoth_append_of_all _ hafter, append_trimBoth_of_all _ hbefore,
      trimBoth_eq_self_of_bare hbare]

/-- A text is trimmed to a part without the characters when nothing but these is around the part. -/
theorem trimBoth_eq_iff (hmiddle : ∀ c ∈ middle, p c = false) :
    trimBoth p cs = middle ↔ ∃ before after, (∀ c ∈ before, p c = true) ∧
      (∀ c ∈ after, p c = true) ∧ cs = before ++ middle ++ after := by
  rw [trimBoth_eq_iff_bare, and_iff_right (bare_of_forall hmiddle)]

theorem trimBoth_trimEnd (hpq : ∀ c, q c = true → p c = true) (cs : List Char) :
    trimBoth p (trimEnd q cs) = trimBoth p cs := by
  obtain ⟨after, hafter, hcs⟩ := exists_trimEnd_append q cs
  conv_rhs => rw [hcs]
  exact (trimBoth_append_of_all _ fun c hc => hpq c (hafter c hc)).symm

theorem isBlank_eq_false_of_isDigit {c : Char} (h : c.isDigit = true) : isBlank c = false := by
  simp only [Char.isDigit, Bool.and_eq_true, decide_eq_true_eq, ge_iff_le, UInt32.le_iff_toNat_le]
    at h
  obtain ⟨hlow, hhigh⟩ := h
  have hlow : 48 ≤ c.toNat := hlow
  have hhigh : c.toNat ≤ 57 := hhigh
  simp only [isBlank, Bool.or_eq_false_iff, Bool.and_eq_false_iff, beq_eq_false_iff_ne,
    decide_eq_false_iff_not]
  omega

/-- Digits that give a number, with one optional plus sign before them. -/
inductive IsNumeral : List Char → Nat → Prop
  | mk {sign digits : List Char} (hsign : sign = [] ∨ sign = ['+']) (hne : digits ≠ [])
      (hdigits : ∀ c ∈ digits, c.isDigit = true) :
      IsNumeral (sign ++ digits) (Nat.ofDigitChars 10 digits 0)

theorem dropPlus_of_isDigit (h : ∀ c ∈ cs, c.isDigit = true) : dropPlus cs = cs := by
  unfold dropPlus
  split
  · have hplus := h '+' List.mem_cons_self
    cases hplus
  · rfl

theorem exists_sign_append_dropPlus (cs : List Char) :
    ∃ sign, (sign = [] ∨ sign = ['+']) ∧ cs = sign ++ dropPlus cs := by
  unfold dropPlus
  split
  · exact ⟨['+'], .inr rfl, rfl⟩
  · exact ⟨[], .inl rfl, rfl⟩

theorem unsigned?_eq_some_iff {bound n : Nat} :
    unsigned? bound cs = some n ↔ IsNumeral cs n ∧ n < bound := by
  constructor
  · intro h
    obtain ⟨hne, hall, rfl, hlt⟩ := digits?_eq_some_iff.mp h
    obtain ⟨sign, hsign, hcs⟩ := exists_sign_append_dropPlus cs
    have hnumeral := IsNumeral.mk hsign hne (List.all_eq_true.mp hall)
    rw [← hcs] at hnumeral
    exact ⟨hnumeral, hlt⟩
  · rintro ⟨@⟨sign, digits, hsign, hne, hdigits⟩, hlt⟩
    have hplus : dropPlus (sign ++ digits) = digits := by
      rcases hsign with rfl | rfl
      · exact dropPlus_of_isDigit hdigits
      · rfl
    rw [unsigned?, hplus, digits?_eq_some_iff]
    exact ⟨hne, List.all_eq_true.mpr hdigits, rfl, hlt⟩

theorem IsNumeral.eq_plus_or_isDigit {n : Nat} (h : IsNumeral cs n) {c : Char} (hc : c ∈ cs) :
    c = '+' ∨ c.isDigit = true := by
  obtain ⟨hsign, -, hdigits⟩ := h
  rcases List.mem_append.mp hc with hc | hc
  · rcases hsign with rfl | rfl
    · cases hc
    · exact .inl (List.mem_singleton.mp hc)
  · exact .inr (hdigits c hc)

theorem IsNumeral.isBlank_eq_false {n : Nat} (h : IsNumeral cs n) : ∀ c ∈ cs, isBlank c = false := by
  intro c hc
  rcases h.eq_plus_or_isDigit hc with rfl | hdigit
  · rfl
  · exact isBlank_eq_false_of_isDigit hdigit

end BucketMigration.Text
