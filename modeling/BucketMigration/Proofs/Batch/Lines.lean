import BucketMigration.Proofs.Batch.Grammar
import Mathlib.Data.List.Perm.Basic

/-!
# Objects written as lines

Every object can be written as a line of a batch, with its size after the last bar, and the line is
read as this object again, whatever characters are in the key and whatever ends the line. So a batch
that has a line for each of some objects, in any order, with blank lines anywhere in between, names
just these objects.
-/

namespace BucketMigration.Batch

open Text (isBlank isBlankText)

def line (d : ObjectDescriptor) : String :=
  d.key ++ "|" ++ toString d.size

/-- An object that has a key, and a size that fits in a word. -/
structure Writable (d : ObjectDescriptor) : Prop where
  key : d.key ≠ ""
  size : d.size < wordCount

/-- The lines of some objects in order, each ended in any way, with blank lines in between. -/
inductive Listing : List ObjectDescriptor → List String → Prop
  | nil : Listing [] []
  | blank {ds : List ObjectDescriptor} {text : String} {lines : List String}
      (hblank : isBlankText text.toList = true) (rest : Listing ds lines) :
      Listing ds (text :: lines)
  | object {d : ObjectDescriptor} {ds : List ObjectDescriptor} {ending : String}
      {lines : List String} (hending : ∀ c ∈ ending.toList, c = '\r' ∨ c = '\n')
      (rest : Listing ds lines) : Listing (d :: ds) ((line d ++ ending) :: lines)

variable {d : ObjectDescriptor} {objects ds : List ObjectDescriptor} {lines : List String}

theorem spells_line_append {ending : String} (h : Writable d)
    (hending : ∀ c ∈ ending.toList, isBlank c = true) : Spells (line d ++ ending) d := by
  have hdigits : (toString d.size).toList = Nat.toDigits 10 d.size := by simp
  have hne : toString d.size ≠ "" := by
    intro hempty
    rw [hempty] at hdigits
    exact Nat.toDigits_ne_nil hdigits.symm
  have hspells := @Spells.mk d.key "" "" (toString d.size) ending d.size h.key nofun (.inl rfl)
    ⟨hne, fun c hc => Nat.isDigit_of_mem_toDigits (by decide) (by decide) (hdigits ▸ hc)⟩
    (by rw [hdigits, Nat.ofDigitChars_toDigits (by decide) (by decide)]) h.size hending
  rwa [String.append_empty, String.append_empty] at hspells

theorem spells_line (h : Writable d) : Spells (line d) d := by
  have hspells := @spells_line_append d "" h nofun
  rwa [String.append_empty] at hspells

theorem Listing.forall₂_spells (h : Listing ds lines) (hds : ∀ d ∈ ds, Writable d) :
    List.Forall₂ Spells (filled lines) ds := by
  induction h with
  | nil => exact .nil
  | blank hblank _ ih =>
    rw [filled, List.filter_cons_of_neg (by simp [hblank])]
    exact ih hds
  | @object d ds ending lines hending _ ih =>
    have hspells : Spells (line d ++ ending) d :=
      spells_line_append (hds d List.mem_cons_self) fun c hc =>
        (hending c hc).elim (fun h => h ▸ rfl) fun h => h ▸ rfl
    rw [filled, List.filter_cons_of_pos (by rw [hspells.isBlankText_eq_false]; rfl)]
    exact .cons hspells (ih fun d' hd' => hds d' (List.mem_cons_of_mem d hd'))

theorem entries_of_perm (hobjects : ∀ d ∈ objects, Writable d)
    (hlines : (lines.filter fun line => !isBlankText line.toList).Perm (objects.map line)) :
    ∃ ds, ds.Perm objects ∧ entries lines = .ok ds := by
  have hspells : List.Forall₂ Spells (objects.map line) objects :=
    List.forall₂_map_left_iff.mpr (List.forall₂_same.mpr fun d hd => spells_line (hobjects d hd))
  obtain ⟨ds, hds, hperm⟩ := List.perm_comp_forall₂ hlines hspells
  exact ⟨ds, hperm, entriesFrom_eq_ok_iff.mpr hds⟩

/-- Exactly the lines that spell an object are read, each as its object, and any other line is told
as it was given. So writing objects as lines and reading the lines gives the objects again. -/
theorem entry_reads_what_is_spelled :
    (∀ (line : String) (number : Nat),
      (∀ d, entry line number = .ok d ↔ Spells line d) ∧
        ((¬∃ d, Spells line d) → entry line number = .error (.invalidBatchEntry number line))) ∧
      ∀ (ds : List ObjectDescriptor) (lines : List String), (∀ d ∈ ds, Writable d) →
        Listing ds lines → entries lines = .ok ds := by
  refine ⟨fun line number => ⟨fun d => entry_eq_ok_iff, fun hnone => ?_⟩, fun ds lines hds h => ?_⟩
  · exact entry_eq_error_iff.mpr ⟨hnone, rfl⟩
  · exact entriesFrom_eq_ok_iff.mpr (h.forall₂_spells hds)

/-- Objects with bars, white space, signs and line breaks in their keys. -/
def oddObjects : List ObjectDescriptor :=
  [⟨"a|b", 0⟩, ⟨" +7\n|", 18446744073709551615⟩]

def oddLines : List String :=
  ["", "a|b|0\r\n", " \t\n", " +7\n||18446744073709551615\n\r"]

theorem oddLines_spell_oddObjects :
    (∀ d ∈ oddObjects, Writable d) ∧ Listing oddObjects oddLines ∧
      entries oddLines = .ok oddObjects ∧
      entry "a|b|\x0b+007 \r\n" 3 = .ok ⟨"a|b", 7⟩ ∧
      entry "a|b|18446744073709551616\n" 4 =
        .error (.invalidBatchEntry 4 "a|b|18446744073709551616\n") := by
  have hwritable : ∀ d ∈ oddObjects, Writable d := by
    intro d hd
    rcases List.mem_pair.mp hd with rfl | rfl <;> exact ⟨by decide, by decide⟩
  have hlisting : Listing oddObjects oddLines :=
    .blank rfl (@Listing.object ⟨"a|b", 0⟩ _ "\r\n" _ (by simp) (.blank rfl
      (@Listing.object ⟨" +7\n|", 18446744073709551615⟩ _ "\n\r" _ (by simp) .nil)))
  obtain ⟨hlines, hobjects⟩ := entry_reads_what_is_spelled
  have hspells : Spells "a|b|\x0b+007 \r\n" ⟨"a|b", 7⟩ :=
    @Spells.mk "a|b" "\x0b" "+" "007" " \r\n" 7 (by decide) (List.all_eq_true.mp rfl) (.inr rfl)
      ⟨by decide, List.all_eq_true.mp rfl⟩ rfl (by decide) (List.all_eq_true.mp rfl)
  refine ⟨hwritable, hlisting, hobjects oddObjects oddLines hwritable hlisting,
    ((hlines _ 3).1 _).mpr hspells, (hlines _ 4).2 ?_⟩
  rintro ⟨d, hd⟩
  have hread := ((hlines _ 4).1 d).mpr hd
  cases hread

end BucketMigration.Batch
