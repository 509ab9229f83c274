/-!
# White space

The characters with the Unicode property White_Space, and trimming by them.
-/

namespace BucketMigration.Text

def isBlank (c : Char) : Bool :=
  let n := c.toNat
  (9 ≤ n && n ≤ 13) || n == 0x20 || n == 0x85 || n == 0xA0 || n == 0x1680
    || (0x2000 ≤ n && n ≤ 0x200A) || n == 0x2028 || n == 0x2029 || n == 0x202F || n == 0x205F
    || n == 0x3000

/-- A text without the leading characters of a class. -/
def trimStart (p : Char → Bool) (cs : List Char) : List Char :=
  cs.dropWhile p

/-- A text without the trailing characters of a class. -/
def trimEnd (p : Char → Bool) (cs : List Char) : List Char :=
  (cs.reverse.dropWhile p).reverse

/-- A text without the characters of a class at both ends. -/
def trimBoth (p : Char → Bool) (cs : List Char) : List Char :=
  trimEnd p (trimStart p cs)

def isBlankText (cs : List Char) : Bool :=
  cs.all isBlank

theorem trimStart_eq_nil_iff {p : Char → Bool} {cs : List Char} :
    trimStart p cs = [] ↔ ∀ c ∈ cs, p c = true := by
  unfold trimStart
  induction cs with
  | nil => simp
  | cons d rest ih =>
      by_cases h : p d = true
      · rw [List.dropWhile_cons_of_pos h, ih]
        simp [h]
      · rw [List.dropWhile_cons_of_neg h]
        simp [h]

theorem trimEnd_eq_nil_iff {p : Char → Bool} {cs : List Char} :
    trimEnd p cs = [] ↔ ∀ c ∈ cs, p c = true := by
  rw [trimEnd, List.reverse_eq_nil_iff]
  exact (@trimStart_eq_nil_iff p cs.reverse).trans (by simp only [List.mem_reverse])

theorem trimBoth_eq_nil_iff {p : Char → Bool} {cs : List Char} :
    trimBoth p cs = [] ↔ ∀ c ∈ cs, p c = true := by
  rw [trimBoth, trimEnd_eq_nil_iff, trimStart]
  induction cs with
  | nil => simp
  | cons d rest ih =>
      by_cases h : p d = true
      · rw [List.dropWhile_cons_of_pos h, ih]
        simp [h]
      · rw [List.dropWhile_cons_of_neg h]

end BucketMigration.Text
