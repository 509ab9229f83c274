import BucketMigration.Copy.Step
import Mathlib.Data.List.Nodup
import Mathlib.Data.List.Sort

/-!
# The parts of a session

Every part of a layout waits, is under way or has ended, and goes through these stages once. A
session is read through `Session.status`; here is what each change of a session does to that view,
what every session of a layout keeps, and which parts an upload is completed with.
-/

namespace BucketMigration

inductive PartStatus
  | waiting
  | active (data : Option ByteArray)
  | ended (how : PartEnd)

namespace Session

def begun (s : Session) : List Nat :=
  s.active.map (fun p => p.part.number) ++ s.ended.map Prod.fst

def status (s : Session) (n : Nat) : PartStatus :=
  match s.active? n with
  | some p => .active p.data
  | none =>
      match s.ended.find? fun e => e.1 == n with
      | some e => .ended e.2
      | none => .waiting

def begin (s : Session) (part : PartRange) (waiting : List PartRange) : Session :=
  { s with waiting, active := s.active ++ [⟨part, none⟩] }

def leaveOut (s : Session) (part : PartRange) (waiting : List PartRange) : Session :=
  { s with waiting }.finish part.number .leftOut

theorem active?_eq_some {s : Session} {n : Nat} {p : PartCopy} (h : s.active? n = some p) :
    p ∈ s.active ∧ p.part.number = n :=
  ⟨List.mem_of_find?_eq_some h, by simpa using List.find?_some h⟩

theorem active?_eq_none_iff {s : Session} {n : Nat} :
    s.active? n = none ↔ n ∉ s.active.map (fun p => p.part.number) := by
  simp [active?]

theorem find?_ended_eq_none_iff {s : Session} {n : Nat} :
    s.ended.find? (fun e => e.1 == n) = none ↔ n ∉ s.ended.map Prod.fst := by
  simp only [List.find?_eq_none, beq_iff_eq, List.mem_map, not_exists, not_and]

theorem mem_begun_of_mem_active {s : Session} {p : PartCopy} (h : p ∈ s.active) :
    p.part.number ∈ s.begun :=
  List.mem_append_left _ (List.mem_map.mpr ⟨p, h, rfl⟩)

theorem mem_begun_of_mem_ended {s : Session} {n : Nat} {how : PartEnd} (h : (n, how) ∈ s.ended) :
    n ∈ s.begun :=
  List.mem_append_right _ (List.mem_map.mpr ⟨_, h, rfl⟩)

theorem status_of_active? {s : Session} {n : Nat} {p : PartCopy} (h : s.active? n = some p) :
    s.status n = .active p.data := by
  simp only [status, h]

theorem status_of_mem_ended {s : Session} {n : Nat} {how : PartEnd} (hs : s.begun.Nodup)
    (h : (n, how) ∈ s.ended) : s.status n = .ended how := by
  obtain ⟨-, hended, hdisjoint⟩ := List.nodup_append.mp hs
  have hn : n ∈ s.ended.map Prod.fst := List.mem_map.mpr ⟨_, h, rfl⟩
  have hactive : s.active? n = none :=
    active?_eq_none_iff.mpr fun ha => hdisjoint n ha n hn rfl
  have hfind : s.ended.find? (fun e => e.1 == n) = some (n, how) := by
    cases hf : s.ended.find? (fun e => e.1 == n) with
    | none => exact absurd hn (find?_ended_eq_none_iff.mp hf)
    | some e =>
      have he : e.1 = n := by simpa using List.find?_some hf
      rw [List.inj_on_of_nodup_map hended (List.mem_of_find?_eq_some hf) h he]
  simp only [status, hactive, hfind]

theorem active?_of_status {s : Session} {n : Nat} {data : Option ByteArray}
    (h : s.status n = .active data) : ∃ p, s.active? n = some p ∧ p.data = data := by
  unfold status at h
  split at h
  · rename_i p hp
    cases h
    exact ⟨p, hp, rfl⟩
  · split at h <;> cases h

theorem status_eq_waiting_iff {s : Session} {n : Nat} : s.status n = .waiting ↔ n ∉ s.begun := by
  unfold status
  rw [begun, List.mem_append, not_or, ← active?_eq_none_iff, ← find?_ended_eq_none_iff]
  split
  · rename_i p hp
    simp [hp]
  · rename_i hp
    split
    · rename_i e he
      simp [he]
    · rename_i he
      simp [hp, he]

theorem status_fill {s : Session} {n : Nat} {p : PartCopy} (data : ByteArray)
    (h : s.active? n = some p) (m : Nat) :
    (s.fill n data).status m = if m = n then .active (some data) else s.status m := by
  have hfind : (s.fill n data).active? m =
      (s.active? m).map fun q => if q.part.number = n then { q with data := some data } else q := by
    simp only [active?, fill, List.find?_map]
    congr 2
    funext q
    simp only [Function.comp]
    split <;> rfl
  by_cases hm : m = n
  · subst hm
    have hp := (active?_eq_some h).2
    simp only [status, hfind, h, Option.map_some, hp, if_true]
  · rw [if_neg hm]
    simp only [status, hfind]
    cases hq : s.active? m with
    | none => rfl
    | some q =>
      have hne : q.part.number ≠ n := by
        rw [(active?_eq_some hq).2]
        exact hm
      simp only [Option.map_some, if_neg hne]

theorem status_finish {s : Session} {n : Nat} (how : PartEnd)
    (h : n ∉ s.ended.map Prod.fst) (m : Nat) :
    (s.finish n how).status m = if m = n then .ended how else s.status m := by
  have hactive : (s.finish n how).active? m = if m = n then none else s.active? m := by
    simp only [active?, finish, List.find?_filter]
    split
    · rename_i hm
      simp [hm]
    · rename_i hm
      congr 1
      funext p
      by_cases hp : p.part.number = m
      · simp [hp, hm]
      · simp [hp]
  have hended : (s.finish n how).ended.find? (fun e => e.1 == m) =
      (s.ended.find? fun e => e.1 == m).or (if n = m then some (n, how) else none) := by
    simp only [finish, List.find?_append, List.find?_singleton, beq_iff_eq]
  by_cases hm : m = n
  · subst hm
    simp only [status, hactive, hended, if_true, find?_ended_eq_none_iff.mpr h, Option.none_or]
  · simp only [status, hactive, hended, if_neg hm, if_neg (Ne.symm hm), Option.or_none]

theorem status_begin {s : Session} {part : PartRange} (waiting : List PartRange)
    (h : part.number ∉ s.active.map fun p => p.part.number) (m : Nat) :
    (s.begin part waiting).status m =
      if m = part.number then .active none else s.status m := by
  have hactive : (s.begin part waiting).active? m =
      (s.active? m).or (if part.number = m then some ⟨part, none⟩ else none) := by
    simp only [active?, begin, List.find?_append, List.find?_singleton, beq_iff_eq]
  by_cases hm : m = part.number
  · subst hm
    simp only [status, hactive, if_true, active?_eq_none_iff.mpr h, Option.none_or]
  · simp only [status, hactive, if_neg hm, if_neg (Ne.symm hm), Option.or_none]
    rfl

theorem status_leaveOut {s : Session} {part : PartRange} (waiting : List PartRange)
    (h : part.number ∉ s.begun) (m : Nat) :
    (s.leaveOut part waiting).status m = if m = part.number then .ended .leftOut else s.status m :=
  status_finish .leftOut (fun hended => h (List.mem_append_right _ hended)) m

/-- What every session of a layout keeps: the parts that have started are the first ones of the
layout, each is under way or has ended, and parts are left out only after a failure. -/
structure Keeps (parts : List PartRange) (s : Session) : Prop where
  begun : ∃ first, parts = first ++ s.waiting ∧ s.begun.Perm (first.map PartRange.number)
  active : ∀ p ∈ s.active, p.part ∈ parts
  leftOut : ∀ n, (n, .leftOut) ∈ s.ended → s.hasFailed = true

theorem hasFailed_finish (s : Session) (n : Nat) (how : PartEnd) :
    (s.finish n how).hasFailed = (s.hasFailed || how matches .failed _) := by
  unfold hasFailed finish
  rw [List.any_append]
  cases how <;> simp

theorem perm_cons_filter_ne {α : Type} (f : α → Nat) {l : List α} {n : Nat}
    (hl : (l.map f).Nodup) (hn : n ∈ l.map f) :
    (l.map f).Perm (n :: (l.filter fun a => f a != n).map f) := by
  have h : (l.filter fun a => f a != n).map f = (l.map f).erase n := by
    rw [hl.erase_eq_filter, List.filter_map]
    rfl
  rw [h]
  exact List.perm_cons_erase hn

section Keeps

variable {parts : List PartRange} {s : Session}

theorem Keeps.new (uploadId : String) : Keeps parts { uploadId, waiting := parts } where
  begun := ⟨[], rfl, .nil⟩
  active := by simp
  leftOut := by simp

theorem Keeps.nodup (h : s.Keeps parts) (hn : (parts.map PartRange.number).Nodup) :
    s.begun.Nodup := by
  obtain ⟨first, rfl, hperm⟩ := h.begun
  rw [List.map_append] at hn
  exact hperm.nodup_iff.mpr (List.nodup_append.mp hn).1

theorem Keeps.waiting_subset (h : s.Keeps parts) {part : PartRange} (hp : part ∈ s.waiting) :
    part ∈ parts := by
  obtain ⟨first, rfl, -⟩ := h.begun
  exact List.mem_append_right _ hp

theorem Keeps.not_mem_begun (h : s.Keeps parts) (hn : (parts.map PartRange.number).Nodup)
    {part : PartRange} (hp : part ∈ s.waiting) : part.number ∉ s.begun := by
  obtain ⟨first, rfl, hperm⟩ := h.begun
  rw [List.map_append] at hn
  intro hmem
  exact (List.nodup_append.mp hn).2.2 _ (hperm.mem_iff.mp hmem) _
    (List.mem_map.mpr ⟨part, hp, rfl⟩) rfl

theorem Keeps.exists_of_mem_begun (h : s.Keeps parts) {n : Nat} (hn : n ∈ s.begun) :
    ∃ part ∈ parts, part.number = n := by
  obtain ⟨first, rfl, hperm⟩ := h.begun
  obtain ⟨part, hpart, rfl⟩ := List.mem_map.mp (hperm.mem_iff.mp hn)
  exact ⟨part, List.mem_append_left _ hpart, rfl⟩

theorem Keeps.mem_waiting (h : s.Keeps parts) {part : PartRange} (hp : part ∈ parts)
    (hstatus : s.status part.number = .waiting) : part ∈ s.waiting := by
  obtain ⟨first, rfl, hperm⟩ := h.begun
  rcases List.mem_append.mp hp with hfirst | hwaiting
  · have hmem : part.number ∈ s.begun :=
      hperm.mem_iff.mpr (List.mem_map.mpr ⟨part, hfirst, rfl⟩)
    exact absurd hmem (status_eq_waiting_iff.mp hstatus)
  · exact hwaiting

theorem Keeps.not_mem_ended (h : s.Keeps parts) (hn : (parts.map PartRange.number).Nodup) {n : Nat}
    {p : PartCopy} (hp : s.active? n = some p) : n ∉ s.ended.map Prod.fst := by
  intro hended
  obtain ⟨hmem, hnumber⟩ := active?_eq_some hp
  exact (List.nodup_append.mp (h.nodup hn)).2.2 n (List.mem_map.mpr ⟨p, hmem, hnumber⟩) n hended rfl

theorem Keeps.fill (h : s.Keeps parts) (n : Nat) (data : ByteArray) : (s.fill n data).Keeps parts where
  begun := by
    have hbegun : (s.fill n data).begun = s.begun := by
      simp only [Session.begun, Session.fill, List.map_map]
      congr 1
      apply List.map_congr_left
      intro p _
      simp only [Function.comp]
      split <;> rfl
    rw [hbegun]
    exact h.begun
  active := by
    intro p hp
    obtain ⟨q, hq, rfl⟩ := List.mem_map.mp hp
    have hpart := h.active q hq
    split <;> exact hpart
  leftOut := h.leftOut

theorem Keeps.finish (h : s.Keeps parts) (hn : (parts.map PartRange.number).Nodup) {n : Nat}
    {p : PartCopy} (hp : s.active? n = some p) {how : PartEnd} (hhow : how ≠ .leftOut) :
    (s.finish n how).Keeps parts where
  begun := by
    obtain ⟨first, hparts, hperm⟩ := h.begun
    refine ⟨first, hparts, ?_⟩
    have hactive := (List.nodup_append.mp (h.nodup hn)).1
    obtain ⟨hmem, hnumber⟩ := active?_eq_some hp
    have hcons := perm_cons_filter_ne (fun p : PartCopy => p.part.number) hactive
      (List.mem_map.mpr ⟨p, hmem, hnumber⟩)
    refine .trans ?_ hperm
    refine .trans ?_ (hcons.append_right _).symm
    simp only [Session.begun, Session.finish, List.map_append, List.map_cons, List.map_nil,
      ← List.append_assoc]
    exact List.perm_append_singleton ..
  active := fun q hq => h.active q (List.mem_of_mem_filter hq)
  leftOut := by
    intro m hm
    rw [hasFailed_finish]
    rcases List.mem_append.mp hm with hold | hnew
    · rw [h.leftOut m hold, Bool.true_or]
    · simp only [List.mem_singleton, Prod.mk.injEq] at hnew
      exact absurd hnew.2.symm hhow

theorem Keeps.begin (h : s.Keeps parts) {part : PartRange} {waiting : List PartRange}
    (hw : s.waiting = part :: waiting) : (s.begin part waiting).Keeps parts where
  begun := by
    obtain ⟨first, hparts, hperm⟩ := h.begun
    refine ⟨first ++ [part], by rw [hparts, hw, List.append_assoc]; rfl, ?_⟩
    simp only [Session.begun, Session.begin, List.map_append, List.map_cons, List.map_nil]
    refine .trans ?_ (hperm.append_right [part.number])
    rw [List.append_assoc, Session.begun, List.append_assoc]
    exact .append_left _ List.perm_append_comm
  active := by
    intro p hp
    rcases List.mem_append.mp hp with hold | hnew
    · exact h.active p hold
    · rw [List.mem_singleton.mp hnew]
      exact h.waiting_subset (hw ▸ List.mem_cons_self)
  leftOut := h.leftOut

theorem Keeps.leaveOut (h : s.Keeps parts) (hn : (parts.map PartRange.number).Nodup)
    {part : PartRange} {waiting : List PartRange} (hw : s.waiting = part :: waiting)
    (hfailed : s.hasFailed = true) : (s.leaveOut part waiting).Keeps parts where
  begun := by
    obtain ⟨first, hparts, hperm⟩ := h.begun
    refine ⟨first ++ [part], by rw [hparts, hw, List.append_assoc]; rfl, ?_⟩
    have hnot := h.not_mem_begun hn (hw ▸ List.mem_cons_self : part ∈ s.waiting)
    have hfilter : s.active.filter (fun p => p.part.number != part.number) = s.active := by
      apply List.filter_eq_self.mpr
      intro p hp
      simp only [bne_iff_ne]
      intro heq
      exact hnot (heq ▸ mem_begun_of_mem_active hp)
    simp only [Session.begun, Session.leaveOut, Session.finish, hfilter, List.map_append,
      List.map_cons, List.map_nil]
    rw [← List.append_assoc]
    exact hperm.append_right _
  active := fun q hq => h.active q (List.mem_of_mem_filter hq)
  leftOut := by
    intro m _
    simp only [Session.leaveOut, hasFailed_finish]
    exact Bool.or_eq_true_iff.mpr (.inl hfailed)

end Keeps

theorem active_or_waiting {s : Session} (h : s.isOver = false) :
    (∃ p, s.active? p.part.number = some p) ∨
      s.active = [] ∧ ∃ part waiting, s.waiting = part :: waiting := by
  cases hactive : s.active with
  | cons p active => exact .inl ⟨p, by simp [active?, hactive]⟩
  | nil =>
    cases hw : s.waiting with
    | nil => simp [isOver, hw, hactive] at h
    | cons part waiting => exact .inr ⟨rfl, part, waiting, rfl⟩

theorem failure?_eq_none_iff {s : Session} : s.failure? = none ↔ s.hasFailed = false := by
  simp only [failure?, hasFailed, List.findSome?_eq_none_iff, List.any_eq_false]
  apply forall_congr'
  intro e
  rcases e with ⟨n, how⟩
  cases how <;> simp

theorem mem_uploaded_iff {s : Session} {n : Nat} {etag : Option String} :
    (n, etag) ∈ s.uploaded ↔ (n, .uploaded etag) ∈ s.ended := by
  simp only [uploaded, List.mem_mergeSort, List.mem_filterMap]
  constructor
  · rintro ⟨⟨m, how⟩, he, heq⟩
    cases how with
    | uploaded tag =>
      simp only [Option.some.injEq, Prod.mk.injEq] at heq
      obtain ⟨rfl, rfl⟩ := heq
      exact he
    | leftOut => cases heq
    | failed error => cases heq
  · intro he
    exact ⟨_, he, rfl⟩

theorem map_fst_filterMap {f : Nat × PartEnd → Option (Nat × Option String)}
    (hf : ∀ n etag, f (n, .uploaded etag) = some (n, etag)) {l : List (Nat × PartEnd)}
    (hl : ∀ e ∈ l, ∃ etag, e.2 = .uploaded etag) :
    (l.filterMap f).map Prod.fst = l.map Prod.fst := by
  induction l with
  | nil => rfl
  | cons e l ih =>
    obtain ⟨etag, he⟩ := hl e List.mem_cons_self
    rcases e with ⟨n, how⟩
    cases he
    rw [List.filterMap_cons_some (hf n etag), List.map_cons, List.map_cons]
    exact congrArg (n :: ·) (ih fun e he => hl e (List.mem_cons_of_mem _ he))

/-- Without a failure every part of a session that is over was uploaded, and the uploaded parts
are in the order of the layout. -/
theorem Keeps.map_fst_uploaded {parts : List PartRange} {s : Session} (h : s.Keeps parts)
    (hn : (parts.map PartRange.number).Pairwise (· < ·)) (hover : s.isOver = true)
    (hfailure : s.failure? = none) : s.uploaded.map Prod.fst = parts.map PartRange.number := by
  simp only [isOver, Bool.and_eq_true, List.isEmpty_iff] at hover
  obtain ⟨hwaiting, hactive⟩ := hover
  obtain ⟨first, hparts, hperm⟩ := h.begun
  rw [hwaiting, List.append_nil] at hparts
  subst hparts
  have hall : ∀ e ∈ s.ended, ∃ etag, e.2 = .uploaded etag := by
    rintro ⟨n, how⟩ he
    cases how with
    | uploaded etag => exact ⟨etag, rfl⟩
    | leftOut =>
      have hfailed := h.leftOut n he
      rw [failure?_eq_none_iff.mp hfailure] at hfailed
      cases hfailed
    | failed error =>
      have hnone := List.findSome?_eq_none_iff.mp hfailure _ he
      cases hnone
  have hends : (s.uploaded.map Prod.fst).Perm (parts.map PartRange.number) := by
    apply List.Perm.trans _ hperm
    rw [Session.begun, hactive, List.map_nil, List.nil_append]
    refine ((List.mergeSort_perm ..).map Prod.fst).trans (.of_eq ?_)
    exact map_fst_filterMap (fun _ _ => rfl) hall
  have hsorted : (s.uploaded.map Prod.fst).Pairwise (· ≤ ·) := by
    rw [List.pairwise_map]
    have hsort := @List.pairwise_mergeSort (Nat × Option String) (fun a b => a.1 ≤ b.1)
      (by simp only [decide_eq_true_eq]; omega) (by simp only [Bool.or_eq_true, decide_eq_true_eq]; omega)
    exact (hsort _).imp fun hab => by simpa using hab
  exact hends.eq_of_pairwise (fun a b _ _ => Nat.le_antisymm) hsorted (hn.imp Nat.le_of_lt)

theorem completedParts_eq_ok {l : List (Nat × Option String)} {ps : List CompletedPart}
    (h : completedParts l = .ok ps) :
    ps.map CompletedPart.number = l.map (fun e => (e.1 : Int)) ∧
      ∀ p ∈ ps, ∃ n, p.number = (n : Nat) ∧ (n, some p.etag) ∈ l := by
  induction l generalizing ps with
  | nil =>
    cases h
    exact ⟨rfl, by simp⟩
  | cons e l ih =>
    rcases e with ⟨n, _ | etag⟩
    · cases h
    · cases hrest : completedParts l with
      | error m =>
        simp [completedParts, hrest, Except.map] at h
      | ok rest =>
        simp only [completedParts, hrest, Except.map, Except.ok.injEq] at h
        subst h
        obtain ⟨hmap, hmem⟩ := ih hrest
        refine ⟨by simp [hmap], ?_⟩
        intro p hp
        rcases List.mem_cons.mp hp with rfl | hp
        · exact ⟨n, rfl, List.mem_cons_self⟩
        · obtain ⟨m, hm, he⟩ := hmem p hp
          exact ⟨m, hm, List.mem_cons_of_mem _ he⟩

theorem completedParts_eq_error {l : List (Nat × Option String)} {n : Nat}
    (h : completedParts l = .error n) : (n, none) ∈ l := by
  induction l with
  | nil => cases h
  | cons e l ih =>
    rcases e with ⟨m, _ | etag⟩
    · cases h
      exact List.mem_cons_self
    · cases hrest : completedParts l with
      | error k =>
        simp only [completedParts, hrest, Except.map, Except.error.injEq] at h
        exact List.mem_cons_of_mem _ (ih (hrest.trans (congrArg Except.error h)))
      | ok rest =>
        simp [completedParts, hrest, Except.map] at h

/-- What a session that is over comes to: the parts to complete the upload with, or the cause to
give it up for. -/
def outcome (targetKey : String) (s : Session) : Except MigrationError (List CompletedPart) :=
  match s.failure? with
  | some error => .error error
  | none =>
      match completedParts s.uploaded with
      | .error number => .error (.missingPartETag targetKey number)
      | .ok parts => .ok parts

theorem outcome_eq_error {s : Session} {targetKey : String} {cause : MigrationError}
    (h : s.outcome targetKey = .error cause) :
    s.failure? = some cause ∨ (s.failure? = none ∧
      ∃ n, (n, .uploaded none) ∈ s.ended ∧ cause = .missingPartETag targetKey n) := by
  unfold outcome at h
  split at h
  · rename_i e he
    cases h
    exact .inl he
  · rename_i he
    split at h
    · rename_i n hn
      cases h
      exact .inr ⟨he, n, mem_uploaded_iff.mp (completedParts_eq_error hn), rfl⟩
    · cases h

/-- An upload is completed with all parts of the layout, in order, each with the etag that its own
upload returned. -/
theorem Keeps.outcome_eq_ok {parts : List PartRange} {s : Session} (h : s.Keeps parts)
    (hn : (parts.map PartRange.number).Pairwise (· < ·)) (hover : s.isOver = true)
    {targetKey : String} {ps : List CompletedPart} (hps : s.outcome targetKey = .ok ps) :
    ps.map CompletedPart.number = parts.map (fun p => (p.number : Int)) ∧
      ∀ p ∈ ps, ∃ part ∈ parts, p.number = (part.number : Nat) ∧
        (part.number, .uploaded (some p.etag)) ∈ s.ended := by
  unfold outcome at hps
  split at hps
  · cases hps
  · rename_i hfailure
    split at hps
    · cases hps
    · rename_i qs hqs
      cases hps
      have hfst := h.map_fst_uploaded hn hover hfailure
      obtain ⟨hmap, hmem⟩ := completedParts_eq_ok hqs
      constructor
      · rw [hmap]
        have hcast := congrArg (List.map ((↑) : Nat → Int)) hfst
        simpa [List.map_map, Function.comp_def] using hcast
      · intro p hp
        obtain ⟨n, hnumber, he⟩ := hmem p hp
        have hin : n ∈ parts.map PartRange.number := hfst ▸ List.mem_map.mpr ⟨_, he, rfl⟩
        obtain ⟨part, hpart, rfl⟩ := List.mem_map.mp hin
        exact ⟨part, hpart, hnumber, mem_uploaded_iff.mp he⟩

end Session

namespace ObjectCopy

variable (setup : Setup) (c : ObjectCopy)

theorem settle_of_isOver_eq_false {s : Session} (h : s.isOver = false) :
    c.settle setup s = c.go (.copying s) := by
  simp [settle, h]

theorem settle_fill {s : Session} {n : Nat} {p : PartCopy} (h : s.active? n = some p)
    (data : ByteArray) : c.settle setup (s.fill n data) = c.go (.copying (s.fill n data)) := by
  have hne : s.active ≠ [] := List.ne_nil_of_mem (Session.active?_eq_some h).1
  exact c.settle_of_isOver_eq_false setup (by simp [Session.isOver, Session.fill, hne])

/-- Once every part has ended, the outcome of the session decides. -/
theorem settle_of_isOver {s : Session} (h : s.isOver = true) :
    c.settle setup s =
      match s.outcome (c.targetKey setup) with
      | .error cause => c.abort setup s.uploadId cause
      | .ok parts => c.go (.completing s.uploadId parts) := by
  unfold settle Session.outcome
  rw [if_pos h]
  cases s.failure? with
  | some error => rfl
  | none => cases completedParts s.uploaded <;> rfl

theorem settle_of_outcome_eq_error {s : Session} (h : s.isOver = true) {cause : MigrationError}
    (hcause : s.outcome (c.targetKey setup) = .error cause) :
    c.settle setup s = c.abort setup s.uploadId cause := by
  rw [settle_of_isOver setup c h, hcause]

theorem settle_of_outcome_eq_ok {s : Session} (h : s.isOver = true) {parts : List CompletedPart}
    (hparts : s.outcome (c.targetKey setup) = .ok parts) :
    c.settle setup s = c.go (.completing s.uploadId parts) := by
  rw [settle_of_isOver setup c h, hparts]

theorem call?_part {s : Session} (hphase : c.phase = .copying s) {n : Nat} {p : PartCopy}
    (hp : s.active? n = some p) :
    c.call? setup (.part n) = some (p.call setup c.object s.uploadId) := by
  simp only [call?, hphase, hp, Option.map_some]

theorem exists_startPart {s : Session} (hphase : c.phase = .copying s) (hactive : s.active = [])
    {part : PartRange} {waiting : List PartRange} (hw : s.waiting = part :: waiting) :
    ∃ next, c.startPart setup = some next := by
  have hroom : s.active.length < setup.options.effectivePartConcurrency := by
    rw [hactive]
    exact Nat.lt_of_lt_of_le Nat.zero_lt_one (Nat.le_max_right ..)
  simp only [startPart, hphase, hw, if_pos hroom]
  split <;> exact ⟨_, rfl⟩

end ObjectCopy

end BucketMigration
