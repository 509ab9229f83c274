import BucketMigration.Store.Basic
import Mathlib.Algebra.Group.Nat.Defs

/-!
# Ids in etags

An etag glues the length of some data to an id, both in hexadecimal digits. How many digits the
length takes is not told. But the id has at least eight, so while ids are below `2 ^ 32` it has
exactly eight, and etags with different ids are different.
-/

namespace BucketMigration

namespace Text

def hexValue (cs : List Char) : Nat :=
  cs.foldl (fun n c => 16 * n + (hexDigit? c).getD 0) 0

theorem hexDigit?_digitChar {d : Nat} (h : d < 16) : hexDigit? (Nat.digitChar d) = some d := by
  have hall : ∀ d < 16, hexDigit? (Nat.digitChar d) = some d := by decide
  exact hall d h

theorem hexValue_concat (cs : List Char) (c : Char) :
    hexValue (cs ++ [c]) = 16 * hexValue cs + (hexDigit? c).getD 0 := by
  rw [hexValue, List.foldl_append, List.foldl_cons, List.foldl_nil, hexValue]

theorem hexValue_toDigits (n : Nat) : hexValue (Nat.toDigits 16 n) = n := by
  induction n using Nat.strongRecOn with
  | _ n ih =>
    by_cases hn : n < 16
    · rw [Nat.toDigits_of_lt_base hn]
      simp [hexValue, hexDigit?_digitChar hn]
    · rw [Nat.toDigits_of_base_le (by decide) (Nat.not_lt.mp hn), hexValue_concat,
        ih (n / 16) (Nat.div_lt_self (by omega) (by decide)),
        hexDigit?_digitChar (Nat.mod_lt n (by decide))]
      exact Nat.div_add_mod n 16

theorem isSome_hexDigit?_of_mem_toDigits {c : Char} {n : Nat} (h : c ∈ Nat.toDigits 16 n) :
    (hexDigit? c).isSome = true := by
  induction n using Nat.strongRecOn with
  | _ n ih =>
    by_cases hn : n < 16
    · rw [Nat.toDigits_of_lt_base hn, List.mem_singleton] at h
      rw [h, hexDigit?_digitChar hn]
      rfl
    · rw [Nat.toDigits_of_base_le (by decide) (Nat.not_lt.mp hn), List.mem_append,
        List.mem_singleton] at h
      rcases h with h | rfl
      · exact ih (n / 16) (Nat.div_lt_self (by omega) (by decide)) h
      · rw [hexDigit?_digitChar (Nat.mod_lt n (by decide))]
        rfl

theorem hexValue_replicate_append (k : Nat) (cs : List Char) :
    hexValue (List.replicate k '0' ++ cs) = hexValue cs := by
  induction k with
  | zero => rfl
  | succ k ih =>
    rw [List.replicate_succ, List.cons_append, ← ih]
    rfl

theorem toList_hexPadded (width n : Nat) :
    (hexPadded width n).toList =
      List.replicate (width - (Nat.toDigits 16 n).length) '0' ++ Nat.toDigits 16 n := by
  rw [hexPadded, padZeros, String.toList_append, String.toList_ofList, hex, String.toList_ofList,
    ← String.length_toList, String.toList_ofList]

theorem isSome_hexDigit?_of_mem_hexPadded {c : Char} {width n : Nat}
    (h : c ∈ (hexPadded width n).toList) : (hexDigit? c).isSome = true := by
  rw [toList_hexPadded, List.mem_append, List.mem_replicate] at h
  rcases h with ⟨-, rfl⟩ | h
  · rfl
  · exact isSome_hexDigit?_of_mem_toDigits h

theorem hexValue_hexPadded (width n : Nat) : hexValue (hexPadded width n).toList = n := by
  rw [toList_hexPadded, hexValue_replicate_append, hexValue_toDigits]

theorem length_hexPadded {width n : Nat} (hpos : 0 < width) (h : n < 16 ^ width) :
    (hexPadded width n).toList.length = width := by
  have hle := (Nat.length_toDigits_le_iff (by decide : 1 < 16) hpos).mpr h
  rw [toList_hexPadded, List.length_append, List.length_replicate]
  omega

end Text

namespace Store

theorem isSome_hexDigit?_of_mem_etagDigits {s : Store} {length : Nat} {c : Char}
    (h : c ∈ (s.etagDigits length).toList) : (Text.hexDigit? c).isSome = true := by
  rw [etagDigits, String.toList_append, List.mem_append, Text.hex, String.toList_ofList] at h
  exact h.elim Text.isSome_hexDigit?_of_mem_toDigits Text.isSome_hexDigit?_of_mem_hexPadded

theorem toList_etag (s : Store) (length : Nat) :
    (s.etag length).toList =
      '"' :: (Text.hex length).toList ++ (Text.hexPadded 8 s.nextId).toList ++ ['"'] := by
  simp [etag, etagDigits, String.toList_append]

theorem nextId_eq_of_etag_eq {s t : Store} {m n : Nat} (hs : s.nextId < 2 ^ 32)
    (ht : t.nextId < 2 ^ 32) (h : s.etag m = t.etag n) : s.nextId = t.nextId := by
  have hlist := congrArg String.toList h
  rw [toList_etag, toList_etag] at hlist
  have hlength : ∀ {u : Store}, u.nextId < 2 ^ 32 →
      (Text.hexPadded 8 u.nextId).toList.length = 8 := by
    intro u hu
    exact Text.length_hexPadded (by decide) hu
  have hdigits := (List.append_inj' (List.append_inj' hlist rfl).1
    ((hlength hs).trans (hlength ht).symm)).2
  rw [← Text.hexValue_hexPadded 8 s.nextId, hdigits, Text.hexValue_hexPadded]

end Store

end BucketMigration
