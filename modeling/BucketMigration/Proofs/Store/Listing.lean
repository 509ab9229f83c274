import BucketMigration.Store.Lemmas
import BucketMigration.Word

/-!
# The pages of a listing

A store lists the keys of a bucket in ascending order. A page ends with the greatest of its keys,
and that key is the token of the next page. So the pages that follow one another, each asked for
with the token of the one before, cut the listing into pieces of one size.
-/

namespace BucketMigration

def beyond (token : Option String) (objects : List ObjectDescriptor) : List ObjectDescriptor :=
  objects.filter fun d => token.all (· < d.key)

namespace Store

/-- All objects under a key prefix, as a listing tells them. -/
def scope (s : Store) (bucket keyPrefix : String) : List ObjectDescriptor :=
  (s.listed bucket keyPrefix none).map fun (key, object) => ⟨key, object.data.size⟩

variable {s : Store} {bucket keyPrefix : String}

theorem mem_scope_iff {d : ObjectDescriptor} :
    d ∈ s.scope bucket keyPrefix ↔ Text.hasFront keyPrefix d.key = true ∧
      ∃ object, s.object? bucket d.key = some object ∧ object.data.size = d.size := by
  simp only [scope, listed, List.mem_map, List.mem_filter, Option.all_none, Bool.and_true]
  constructor
  · rintro ⟨⟨key, object⟩, ⟨hmem, hfront⟩, rfl⟩
    exact ⟨hfront, object, Std.TreeMap.mem_toList_iff_getElem?_eq_some.mp hmem, rfl⟩
  · rintro ⟨hfront, object, hobject, hsize⟩
    refine ⟨(d.key, object), ⟨Std.TreeMap.mem_toList_iff_getElem?_eq_some.mpr hobject, hfront⟩, ?_⟩
    rw [hsize]

theorem pairwise_scope : (s.scope bucket keyPrefix).Pairwise fun a b => a.key < b.key := by
  have hsorted : (s.bucket bucket).toList.Pairwise fun a b => a.1 < b.1 := by
    apply Std.TreeMap.ordered_keys_toList.imp
    intro a b hlt
    exact compareOfLessAndEq_eq_lt.mp hlt
  rw [scope, List.pairwise_map]
  exact hsorted.filter _

theorem nodup_keys_scope (s : Store) (bucket keyPrefix : String) :
    ((s.scope bucket keyPrefix).map ObjectDescriptor.key).Nodup := by
  rw [List.Nodup, List.pairwise_map]
  refine pairwise_scope.imp ?_
  intro a b hlt heq
  rw [heq] at hlt
  exact String.lt_irrefl _ hlt

theorem scope_congr {s t : Store} {bucket : String} (h : t.object? bucket = s.object? bucket)
    (keyPrefix : String) : t.scope bucket keyPrefix = s.scope bucket keyPrefix := by
  have hnodup : ∀ s : Store, (s.scope bucket keyPrefix).Nodup := by
    intro s
    exact List.Pairwise.of_map _ (fun _ _ hne heq => hne (congrArg _ heq))
      (s.nodup_keys_scope bucket keyPrefix)
  have hperm : (t.scope bucket keyPrefix).Perm (s.scope bucket keyPrefix) := by
    rw [List.perm_ext_iff_of_nodup (hnodup t) (hnodup s)]
    intro d
    rw [mem_scope_iff, mem_scope_iff, h]
  apply hperm.eq_of_pairwise _ pairwise_scope pairwise_scope
  intro a b _ _ hab hba
  exact absurd hba (String.lt_asymm hab)

theorem map_listed (token : Option String) :
    ((s.listed bucket keyPrefix token).map fun (key, object) =>
      (⟨key, object.data.size⟩ : ObjectDescriptor)) = beyond token (s.scope bucket keyPrefix) := by
  simp only [scope, listed, beyond, List.filter_map, List.filter_filter, Option.all_none,
    Bool.and_true]
  congr 1
  apply List.filter_congr
  intro entry _
  exact Bool.and_comm ..

theorem list_eq (htokens : s.dropsTokens = false) (token : Option String) (maxKeys : Int) :
    s.list bucket keyPrefix token maxKeys =
      let rest := beyond token (s.scope bucket keyPrefix)
      let limit := (max maxKeys 1).toNat
      { objects := rest.take limit
        nextToken :=
          if limit < rest.length then (rest.take limit).getLast?.map ObjectDescriptor.key else none
        isTruncated := limit < rest.length } := by
  simp only [list, htokens, Bool.not_false, Bool.and_true, decide_eq_true_eq, ← map_listed,
    ← List.map_take, List.length_map, List.getLast?_map, Option.map_map]
  rfl

theorem dropsTokens_enter (r : Request) : (s.enter r).2.dropsTokens = s.dropsTokens := by
  simp only [enter]
  split
  · rfl
  · split <;> rfl

theorem dropsTokens_finish (now : Int) (r : Request) :
    (s.finish now r).2.dropsTokens = s.dropsTokens := by
  have hperform : (s.perform now r).2.dropsTokens = s.dropsTokens := by
    cases r with
    | list | head | get | put | createUpload => rfl
    | uploadPart bucket key id =>
      simp only [perform, uploadPart]
      split <;> rfl
    | completeUpload bucket key id =>
      simp only [perform, completeUpload]
      split
      · rfl
      · split
        · rfl
        · split
          · rfl
          · split <;> rfl
    | abortUpload bucket key id =>
      simp only [perform, abortUpload]
      split <;> rfl
  simp only [finish]
  split
  · exact hperform
  · exact hperform

end Store

variable {objects : List ObjectDescriptor} {token : Option String}

theorem beyond_key (hsorted : objects.Pairwise fun a b => a.key < b.key) {n : Nat}
    (h : n < objects.length) : beyond (some objects[n].key) objects = objects.drop (n + 1) := by
  induction objects generalizing n with
  | nil => cases h
  | cons d rest ih =>
    obtain ⟨hfirst, hrest⟩ := List.pairwise_cons.mp hsorted
    cases n with
    | zero =>
      have hnot : ¬d.key < d.key := String.lt_irrefl d.key
      rw [beyond, List.getElem_cons_zero,
        List.filter_cons_of_neg (by simpa only [Option.all_some, decide_eq_true_eq] using hnot)]
      apply List.filter_eq_self.mpr
      intro other hother
      simpa using hfirst other hother
    | succ n =>
      have hn : n < rest.length := Nat.lt_of_succ_lt_succ h
      have hlt : d.key < rest[n].key := hfirst _ (List.getElem_mem hn)
      have hnot : ¬rest[n].key < d.key := String.lt_asymm hlt
      rw [beyond, List.getElem_cons_succ, List.filter_cons_of_neg (by simpa using hnot)]
      exact ih hrest hn

theorem pairwise_beyond (hsorted : objects.Pairwise fun a b => a.key < b.key) :
    (beyond token objects).Pairwise fun a b => a.key < b.key :=
  hsorted.filter _

theorem beyond_beyond_key (hsorted : objects.Pairwise fun a b => a.key < b.key) {n : Nat}
    (h : n < (beyond token objects).length) :
    beyond (some (beyond token objects)[n].key) objects =
      (beyond token objects).drop (n + 1) := by
  rw [← beyond_key (pairwise_beyond hsorted) h]
  have hmem := List.getElem_mem h
  generalize (beyond token objects)[n] = last at hmem ⊢
  rw [beyond, beyond, beyond, List.filter_filter]
  apply List.filter_congr
  intro d _
  cases token with
  | none => simp
  | some t =>
    have htoken : t < last.key := by simpa [beyond] using (List.mem_filter.mp hmem).2
    by_cases hlast : last.key < d.key
    · simp only [Option.all_some, decide_eq_true hlast,
        decide_eq_true (String.lt_trans htoken hlast), Bool.and_self]
    · simp only [Option.all_some, decide_eq_false hlast, Bool.false_and]

structure Listing where
  objects : List ObjectDescriptor
  pageSize : Nat

namespace Listing

/-- The objects on page `k`; the first page is page 0. -/
def page (l : Listing) (k : Nat) : List ObjectDescriptor :=
  (l.objects.drop (k * l.pageSize)).take l.pageSize

/-- How many pages there are. There is one even for no objects. -/
def pages (l : Listing) : Nat :=
  max 1 (Word.ceilDiv l.objects.length l.pageSize)

def isLast (l : Listing) (k : Nat) : Bool :=
  l.objects.length ≤ (k + 1) * l.pageSize

/-- The token to ask for the page after page `k` with. -/
def nextToken (l : Listing) (k : Nat) : Option String :=
  if l.isLast k then none else (l.page k).getLast?.map ObjectDescriptor.key

/-- The token to ask for page `k` with, when the listing starts after `token`. -/
def tokenOf (l : Listing) (token : Option String) : Nat → Option String
  | 0 => token
  | k + 1 => l.nextToken k

def isDone (l : Listing) : Nat → Bool
  | 0 => false
  | k + 1 => l.isLast k

variable {l : Listing} {k : Nat}

theorem isLast_iff (hsize : 0 < l.pageSize) : l.isLast k = true ↔ l.pages ≤ k + 1 := by
  rw [isLast, pages, Word.ceilDiv, decide_eq_true_eq, Nat.max_le,
    Nat.div_le_iff_le_mul_add_pred hsize, Nat.mul_comm]
  omega

theorem length_page : (l.page k).length = min l.pageSize (l.objects.length - k * l.pageSize) := by
  rw [page, List.length_take, List.length_drop]

theorem length_page_of_not_isLast (h : l.isLast k = false) : (l.page k).length = l.pageSize := by
  simp only [isLast, decide_eq_false_iff_not, Nat.succ_mul] at h
  rw [length_page]
  omega

theorem length_le_of_isDone (h : l.isDone k = true) : l.objects.length ≤ k * l.pageSize := by
  cases k with
  | zero => cases h
  | succ k => exact of_decide_eq_true h

theorem page_eq_nil_of_isDone (h : l.isDone k = true) : l.page k = [] := by
  rw [page, List.drop_of_length_le (length_le_of_isDone h), List.take_nil]

theorem isLast_of_isDone (h : l.isDone k = true) : l.isLast k = true :=
  decide_eq_true (Nat.le_trans (length_le_of_isDone h) (Nat.mul_le_mul_right _ (Nat.le_succ _)))

theorem tokenOf_of_isDone (token : Option String) (h : l.isDone k = true) :
    l.tokenOf token k = none := by
  cases k with
  | zero => cases h
  | succ k => exact if_pos h

theorem flatten_pages (n : Nat) :
    ((List.range n).map l.page).flatten = l.objects.take (n * l.pageSize) := by
  induction n with
  | zero => simp
  | succ n ih =>
    rw [List.range_succ, List.map_append, List.flatten_append, ih, Nat.succ_mul, List.take_add]
    simp [page]

theorem getLast?_page (hsize : 0 < l.pageSize) (h : l.isLast k = false) :
    ∃ hlt : (k + 1) * l.pageSize - 1 < l.objects.length,
      (l.page k).getLast? = some l.objects[(k + 1) * l.pageSize - 1] := by
  simp only [isLast, decide_eq_false_iff_not, Nat.not_le] at h
  have hlt : (k + 1) * l.pageSize - 1 < l.objects.length := by omega
  refine ⟨hlt, ?_⟩
  have hlength := length_page_of_not_isLast (l := l) (k := k) (by simpa [isLast] using h)
  have hindex : k * l.pageSize + (l.pageSize - 1) = (k + 1) * l.pageSize - 1 := by
    rw [Nat.succ_mul]
    omega
  rw [List.getLast?_eq_getElem?, hlength, page, List.getElem?_take_of_lt (by omega),
    List.getElem?_drop, hindex, List.getElem?_eq_getElem hlt]

end Listing

theorem Store.list_page {s : Store} {bucket keyPrefix : String} {token : Option String}
    {l : Listing} {k : Nat} (hobjects : l.objects = beyond token (s.scope bucket keyPrefix))
    (htokens : s.dropsTokens = false) (hsize : 0 < l.pageSize) (hmore : l.isDone k = false) :
    s.list bucket keyPrefix (l.tokenOf token k) l.pageSize =
      ⟨l.page k, l.nextToken k, !l.isLast k⟩ := by
  have hlimit : (max (l.pageSize : Int) 1).toNat = l.pageSize := by omega
  have hrest : beyond (l.tokenOf token k) (s.scope bucket keyPrefix) =
      l.objects.drop (k * l.pageSize) := by
    cases k with
    | zero => simp [Listing.tokenOf, hobjects]
    | succ k =>
      obtain ⟨hlt, hlast⟩ := Listing.getLast?_page hsize hmore
      have hpos : 0 < (k + 1) * l.pageSize := Nat.mul_pos (Nat.succ_pos k) hsize
      rw [Listing.tokenOf, Listing.nextToken, show l.isLast k = false from hmore,
        if_neg Bool.false_ne_true, hlast, Option.map_some]
      simp only [hobjects] at hlt ⊢
      rw [beyond_beyond_key pairwise_scope hlt, Nat.sub_add_cancel hpos]
  have htruncated : l.pageSize < (l.objects.drop (k * l.pageSize)).length ↔ l.isLast k = false := by
    rw [Listing.isLast, decide_eq_false_iff_not, List.length_drop, Nat.succ_mul]
    omega
  rw [list_eq htokens, hrest, hlimit]
  simp only [htruncated, Listing.nextToken, Listing.page]
  cases l.isLast k <;> rfl

end BucketMigration
