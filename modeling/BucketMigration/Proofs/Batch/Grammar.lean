import BucketMigration.Batch
import BucketMigration.Proofs.Text.Trimming
import Mathlib.Data.List.Forall2

/-!
# The grammar of batch lines

A line spells an object when it has the key, a bar and a numeral of the size, with white space
before and after the numeral. A key may hold anything, bars and line breaks too, but it may not be
empty. Exactly the lines that spell an object are read, and a batch is read exactly when each of its
lines is blank or spells one; otherwise the first line that is neither is reported.
-/

namespace BucketMigration.Batch

open Text (isBlank isBlankText splitLast trimBoth trimEnd unsigned? IsNumeral)

/-- The lines that spell an object. -/
inductive Spells : String → ObjectDescriptor → Prop
  | mk {key before sign digits after : String} {size : Nat} (hkey : key ≠ "")
      (hbefore : ∀ c ∈ before.toList, isBlank c = true) (hsign : sign = "" ∨ sign = "+")
      (hdigits : digits ≠ "" ∧ ∀ c ∈ digits.toList, c.isDigit = true)
      (hsize : Nat.ofDigitChars 10 digits.toList 0 = size) (hword : size < wordCount)
      (hafter : ∀ c ∈ after.toList, isBlank c = true) :
      Spells (key ++ "|" ++ before ++ sign ++ digits ++ after) ⟨key, size⟩

/-- A line that a batch may have: it is blank, or it spells an object. -/
def Admissible (line : String) : Prop :=
  isBlankText line.toList = true ∨ ∃ d, Spells line d

def filled (lines : List String) : List String :=
  lines.filter fun line => !isBlankText line.toList

variable {line : String} {lines before : List String} {number size : Nat} {d : ObjectDescriptor}
  {ds : List ObjectDescriptor} {e : MigrationError} {key : List Char}

theorem isBlank_of_isLineEnd (c : Char) (h : isLineEnd c = true) : isBlank c = true := by
  simp only [isLineEnd, Bool.or_eq_true, decide_eq_true_eq] at h
  rcases h with rfl | rfl <;> rfl

theorem fields?_eq (line : List Char) :
    fields? line = (splitLast '|' line).bind fun (key, size) =>
      if key = [] then none
      else (unsigned? wordCount (trimBoth isBlank size)).map fun n => (key, n) := by
  unfold fields?
  by_cases hbar : '|' ∈ line
  · obtain ⟨key, size, rfl, hsize⟩ := Text.exists_last_of_mem hbar
    have hsize' : '|' ∉ trimEnd isLineEnd size :=
      fun hmem => hsize ((List.rdropWhile_prefix isLineEnd _).mem hmem)
    rw [Text.trimEnd_append_cons _ _ rfl, Text.splitLast_append_cons hsize,
      Text.splitLast_append_cons hsize']
    simp only [Option.bind_some, Text.trimBoth_trimEnd isBlank_of_isLineEnd]
  · have htrimmed : '|' ∉ trimEnd isLineEnd line :=
      fun hmem => hbar ((List.rdropWhile_prefix isLineEnd _).mem hmem)
    rw [Text.splitLast_of_not_mem hbar, Text.splitLast_of_not_mem htrimmed]
    rfl

theorem fields?_eq_some_iff {line : List Char} :
    fields? line = some (key, size) ↔ key ≠ [] ∧ size < wordCount ∧
      ∃ before numeral after, (∀ c ∈ before, isBlank c = true) ∧ IsNumeral numeral size ∧
        (∀ c ∈ after, isBlank c = true) ∧ line = key ++ '|' :: (before ++ numeral ++ after) := by
  rw [fields?_eq, Option.bind_eq_some_iff]
  constructor
  · rintro ⟨⟨key', rest⟩, hsplit, hfields⟩
    obtain ⟨rfl, -⟩ := Text.splitLast_eq_some_iff.mp hsplit
    dsimp only at hfields
    split at hfields
    · cases hfields
    · rename_i hkey
      obtain ⟨n, hn, hpair⟩ := Option.map_eq_some_iff.mp hfields
      cases hpair
      obtain ⟨hnumeral, hword⟩ := Text.unsigned?_eq_some_iff.mp hn
      obtain ⟨before, after, hbefore, hafter, hrest⟩ :=
        (Text.trimBoth_eq_iff hnumeral.isBlank_eq_false).mp rfl
      exact ⟨hkey, hword, before, _, after, hbefore, hnumeral, hafter, by rw [← hrest]⟩
  · rintro ⟨hkey, hword, before, numeral, after, hbefore, hnumeral, hafter, rfl⟩
    have htrim : trimBoth isBlank (before ++ numeral ++ after) = numeral :=
      (Text.trimBoth_eq_iff hnumeral.isBlank_eq_false).mpr
        ⟨before, after, hbefore, hafter, rfl⟩
    have hbar : '|' ∉ before ++ numeral ++ after := by
      simp only [List.mem_append, not_or]
      refine ⟨⟨fun hc => ?_, fun hc => ?_⟩, fun hc => ?_⟩
      · cases hbefore '|' hc
      · rcases hnumeral.eq_plus_or_isDigit hc with hplus | hdigit
        · cases hplus
        · cases hdigit
      · cases hafter '|' hc
    refine ⟨_, Text.splitLast_append_cons hbar key, ?_⟩
    dsimp only
    rw [if_neg hkey, htrim, Text.unsigned?_eq_some_iff.mpr ⟨hnumeral, hword⟩]
    rfl

theorem entry_eq_ok_iff_fields? :
    entry line number = .ok d ↔ fields? line.toList = some (d.key.toList, d.size) := by
  unfold entry
  split
  · rename_i key size hfields
    rw [hfields]
    constructor
    · intro h
      cases h
      rw [String.toList_ofList]
    · intro h
      cases h
      rw [String.ofList_toList]
  · rename_i hfields
    rw [hfields]
    exact ⟨nofun, nofun⟩

theorem spells_iff_fields? : Spells line d ↔ fields? line.toList = some (d.key.toList, d.size) := by
  rw [fields?_eq_some_iff]
  constructor
  · rintro @⟨key, before, sign, digits, after, size, hkey, hbefore, hsign, hdigits, rfl, hword, hafter⟩
    refine ⟨by simpa using hkey, hword, before.toList, sign.toList ++ digits.toList, after.toList,
      hbefore, .mk ?_ (by simpa using hdigits.1) hdigits.2, hafter, by simp⟩
    rcases hsign with rfl | rfl
    · exact .inl rfl
    · exact .inr rfl
  · obtain ⟨key, size⟩ := d
    dsimp only
    rintro ⟨hkey, hword, before, numeral, after, hbefore, @⟨sign, digits, hsign, hne, hdigits⟩,
      hafter, hline⟩
    have hspelled : line = key ++ "|" ++ String.ofList before ++ String.ofList sign ++
        String.ofList digits ++ String.ofList after := by
      apply String.toList_injective
      simp [hline]
    rw [hspelled]
    refine .mk (by simpa using hkey) (by simpa using hbefore) ?_ ⟨?_, by simpa using hdigits⟩
      (by rw [String.toList_ofList]) hword (by simpa using hafter)
    · rcases hsign with rfl | rfl
      · exact .inl rfl
      · exact .inr rfl
    · intro hempty
      apply hne
      simpa using congrArg String.toList hempty

/-- A line is read as the object that it spells. -/
theorem entry_eq_ok_iff : entry line number = .ok d ↔ Spells line d :=
  entry_eq_ok_iff_fields?.trans spells_iff_fields?.symm

theorem entry_eq_error_iff :
    entry line number = .error e ↔ (¬∃ d, Spells line d) ∧ e = .invalidBatchEntry number line := by
  cases h : entry line number with
  | ok d =>
    have hspells := entry_eq_ok_iff.mp h
    exact ⟨nofun, fun hnone => absurd ⟨d, hspells⟩ hnone.1⟩
  | error e' =>
    have hnone : ¬∃ d, Spells line d := by
      rintro ⟨d, hspells⟩
      rw [entry_eq_ok_iff.mpr hspells] at h
      cases h
    have heq : e' = .invalidBatchEntry number line := by
      unfold entry at h
      split at h
      · cases h
      · cases h
        rfl
    simp [hnone, heq, eq_comm]

theorem Spells.unique {d' : ObjectDescriptor} (h : Spells line d) (h' : Spells line d') : d = d' := by
  have hsame := (spells_iff_fields?.mp h).symm.trans (spells_iff_fields?.mp h')
  obtain ⟨key, size⟩ := d
  obtain ⟨key', size'⟩ := d'
  simpa [String.toList_inj] using hsame

theorem Spells.isBlankText_eq_false (h : Spells line d) : isBlankText line.toList = false := by
  obtain ⟨-⟩ := h
  rw [Bool.eq_false_iff]
  intro hblank
  have hbar := List.all_eq_true.mp hblank '|' (by simp)
  cases hbar

theorem entriesFrom_eq_ok_iff :
    entriesFrom number lines = .ok ds ↔ List.Forall₂ Spells (filled lines) ds := by
  induction lines generalizing number ds with
  | nil =>
    rw [entriesFrom, filled, List.filter_nil, List.forall₂_nil_left_iff]
    exact ⟨fun h => by cases h; rfl, fun h => by rw [h]⟩
  | cons line rest ih =>
    unfold entriesFrom
    cases hblank : isBlankText line.toList with
    | true =>
      rw [if_pos rfl, ih, filled, filled, List.filter_cons_of_neg (by simp [hblank])]
    | false =>
      rw [if_neg Bool.false_ne_true, filled, List.filter_cons_of_pos (by simp [hblank]), ← filled,
        List.forall₂_cons_left_iff]
      cases hentry : entry line number with
      | error e =>
        refine ⟨nofun, ?_⟩
        rintro ⟨d, -, hspells, -⟩
        rw [entry_eq_ok_iff.mpr hspells] at hentry
        cases hentry
      | ok d =>
        have hspells := entry_eq_ok_iff.mp hentry
        cases hrest : entriesFrom (number + 1) rest with
        | error e =>
          refine ⟨nofun, ?_⟩
          rintro ⟨d', ds', -, htail, -⟩
          rw [ih.mpr htail] at hrest
          cases hrest
        | ok ds' =>
          have htail := ih.mp hrest
          constructor
          · intro h
            cases h
            exact ⟨d, ds', hspells, htail, rfl⟩
          · rintro ⟨d'', ds'', hspells', htail', rfl⟩
            rw [ih.mpr htail'] at hrest
            cases hrest
            rw [hspells.unique hspells']

theorem exists_forall₂_iff {α β : Type} {R : α → β → Prop} {xs : List α} :
    (∃ ys, List.Forall₂ R xs ys) ↔ ∀ x ∈ xs, ∃ y, R x y := by
  induction xs with
  | nil => exact ⟨nofun, fun _ => ⟨[], .nil⟩⟩
  | cons x rest ih =>
    rw [List.forall_mem_cons, ← ih]
    constructor
    · rintro ⟨_, hcons⟩
      obtain ⟨y, ys, hx, hrest, rfl⟩ := List.forall₂_cons_left_iff.mp hcons
      exact ⟨⟨y, hx⟩, ys, hrest⟩
    · rintro ⟨⟨y, hx⟩, ys, hrest⟩
      exact ⟨y :: ys, .cons hx hrest⟩

theorem exists_entriesFrom_eq_ok_iff :
    (∃ ds, entriesFrom number lines = .ok ds) ↔ ∀ l ∈ lines, Admissible l := by
  simp only [entriesFrom_eq_ok_iff, exists_forall₂_iff, filled, List.mem_filter, Admissible]
  refine forall_congr' fun l => ?_
  cases isBlankText l.toList <;> simp

theorem entriesFrom_eq_error (hbefore : ∀ l ∈ before, Admissible l) (hline : ¬Admissible line)
    (after : List String) : entriesFrom number (before ++ line :: after) =
      .error (.invalidBatchEntry (number + before.length) line) := by
  induction before generalizing number with
  | nil =>
    obtain ⟨hblank, hspells⟩ := not_or.mp hline
    rw [List.nil_append, entriesFrom, if_neg hblank, entry_eq_error_iff.mpr ⟨hspells, rfl⟩]
    rfl
  | cons first rest ih =>
    have htail := @ih (number + 1) fun l hl => hbefore l (List.mem_cons_of_mem first hl)
    rw [Nat.add_right_comm, Nat.add_assoc, ← List.length_cons] at htail
    rcases hbefore first List.mem_cons_self with hblank | ⟨d, hspells⟩
    · rw [List.cons_append, entriesFrom, if_pos hblank, htail]
    · rw [List.cons_append, entriesFrom, if_neg (by simp [hspells.isBlankText_eq_false]),
        entry_eq_ok_iff.mpr hspells, htail]

theorem exists_first_inadmissible (lines : List String) :
    (∀ l ∈ lines, Admissible l) ∨ ∃ before line after, lines = before ++ line :: after ∧
      (∀ l ∈ before, Admissible l) ∧ ¬Admissible line := by
  induction lines with
  | nil => exact .inl nofun
  | cons line rest ih =>
    by_cases hline : Admissible line
    · rcases ih with hrest | ⟨before, found, after, rfl, hbefore, hfound⟩
      · exact .inl (List.forall_mem_cons.mpr ⟨hline, hrest⟩)
      · exact .inr ⟨line :: before, found, after, rfl, List.forall_mem_cons.mpr ⟨hline, hbefore⟩,
          hfound⟩
    · exact .inr ⟨[], line, rest, rfl, nofun, hline⟩

/-- A batch that is not read tells the first of its lines that it may not have. -/
theorem entriesFrom_eq_error_iff :
    entriesFrom number lines = .error e ↔ ∃ before line after, lines = before ++ line :: after ∧
      (∀ l ∈ before, Admissible l) ∧ ¬Admissible line ∧
        e = .invalidBatchEntry (number + before.length) line := by
  constructor
  · intro h
    rcases exists_first_inadmissible lines with hall | ⟨before, found, after, rfl, hbefore, hfound⟩
    · obtain ⟨ds, hds⟩ := exists_entriesFrom_eq_ok_iff.mpr hall
      rw [hds] at h
      cases h
    · rw [entriesFrom_eq_error hbefore hfound] at h
      cases h
      exact ⟨before, found, after, rfl, hbefore, hfound, rfl⟩
  · rintro ⟨before, found, after, rfl, hbefore, hfound, rfl⟩
    exact entriesFrom_eq_error hbefore hfound after

end BucketMigration.Batch
