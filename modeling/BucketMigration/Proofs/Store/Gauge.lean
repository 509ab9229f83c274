import BucketMigration.Proofs.Store.Usage
import Mathlib.Order.Bounds.Basic

/-!
# The gauge of data calls

A store counts the data calls that it has under way. A call is counted once it has passed the faults,
and no longer when its work is done. But a call that is given up in between stays counted for good. So
the gauge shows the data calls that are under way and those that were ever given up, and its peak is
the most that it has shown. Both are exact as long as no data call is given up.
-/

namespace BucketMigration

namespace Store

variable (s : Store) (r : Request) (now : Int)

theorem inFlight_enter :
    (∃ e, (s.enter r).1 = .error e ∧ (s.enter r).2.inFlight = s.inFlight ∧
        (s.enter r).2.peakInFlight = s.peakInFlight) ∨
      (s.enter r).1 = .ok () ∧
        (s.enter r).2.inFlight = s.inFlight + (if r.movesData = true then 1 else 0) ∧
        (s.enter r).2.peakInFlight =
          max s.peakInFlight (if r.movesData = true then s.inFlight + 1 else 0) := by
  simp only [enter]
  cases Fault.spendFirst? r s.faults with
  | some spent => exact .inl ⟨_, rfl, rfl, rfl⟩
  | none =>
    cases r.movesData with
    | false => exact .inr ⟨rfl, rfl, (Nat.max_zero _).symm⟩
    | true => exact .inr ⟨rfl, rfl, rfl⟩

theorem inFlight_finish :
    (s.finish now r).2.inFlight = s.inFlight - (if r.movesData = true then 1 else 0) ∧
      (s.finish now r).2.peakInFlight = s.peakInFlight := by
  have hworked := s.worked_perform now r
  unfold finish
  dsimp only
  split
  · exact ⟨congrArg (· - 1) hworked.inFlight, hworked.peakInFlight⟩
  · exact ⟨hworked.inFlight, hworked.peakInFlight⟩

end Store

namespace Usage

def dataCalls (u : Usage) : Nat :=
  u.underWay.countP Request.movesData

def Event.abandons (e : Event) : Bool :=
  match e.action with
  | .giveUp r => r.movesData
  | _ => false

def abandoned (events : List Event) : Nat :=
  events.countP Event.abandons

def moments : List Event → Usage → List (List Event × Usage)
  | [], u => [([], u)]
  | e :: earlier, u => (e :: earlier, u) :: moments earlier e.before

def shown (moment : List Event × Usage) : Nat :=
  moment.2.dataCalls + abandoned moment.1

/-- What the gauge shows, and the most that it has shown. -/
structure Gauged (events : List Event) (u : Usage) : Prop where
  inFlight : u.store.inFlight = u.dataCalls + abandoned events
  peak : IsGreatest {n | ∃ moment ∈ moments events u, shown moment = n} u.store.peakInFlight

variable {events : List Event} {u v : Usage} {action : UsageAction}

theorem abandoned_cons (e : Event) :
    abandoned (e :: events) = abandoned events + if e.abandons = true then 1 else 0 :=
  List.countP_cons

theorem mem_moments (events : List Event) (u : Usage) : (events, u) ∈ moments events u := by
  cases events <;> exact List.mem_cons_self

theorem dataCalls_erase {r : Request} (h : r ∈ u.underWay) (store : Store) (deeds : List StoreDeed) :
    (Usage.mk store (u.underWay.erase r) deeds).dataCalls + (if r.movesData = true then 1 else 0) =
      u.dataCalls := by
  rw [dataCalls, dataCalls, (List.perm_cons_erase h).countP_eq, List.countP_cons]

namespace Gauged

theorem new : Gauged [] {} where
  inFlight := rfl
  peak := by
    refine ⟨⟨([], {}), List.mem_cons_self, rfl⟩, ?_⟩
    rintro n ⟨moment, hmem, rfl⟩
    obtain rfl := List.mem_singleton.mp hmem
    exact Nat.le_refl _

theorem inFlight_le_peak (h : Gauged events u) : u.store.inFlight ≤ u.store.peakInFlight := by
  rw [h.inFlight]
  exact h.peak.2 ⟨(events, u), mem_moments events u, rfl⟩

theorem step (h : Gauged events u) (hin : v.store.inFlight = v.dataCalls + abandoned (⟨u, action⟩ :: events))
    (hpeak : v.store.peakInFlight = max u.store.peakInFlight v.store.inFlight) :
    Gauged (⟨u, action⟩ :: events) v := by
  refine ⟨hin, ?_, ?_⟩
  · rw [hpeak, hin]
    rcases Nat.le_total u.store.peakInFlight (v.dataCalls + abandoned (⟨u, action⟩ :: events)) with
      hle | hle
    · rw [Nat.max_eq_right hle]
      exact ⟨_, List.mem_cons_self, rfl⟩
    · rw [Nat.max_eq_left hle]
      obtain ⟨moment, hmem, hshown⟩ := h.peak.1
      exact ⟨moment, List.mem_cons_of_mem _ hmem, hshown⟩
  · rintro n ⟨moment, hmem, rfl⟩
    rw [hpeak]
    rcases List.mem_cons.mp hmem with rfl | hearlier
    · exact Nat.le_trans (Nat.le_of_eq hin.symm) (Nat.le_max_right ..)
    · exact Nat.le_trans (h.peak.2 ⟨moment, hearlier, rfl⟩) (Nat.le_max_left ..)

theorem pass (h : Gauged events u) (habandons : Event.abandons ⟨u, action⟩ = false)
    (hcalls : v.dataCalls = u.dataCalls) (hin : v.store.inFlight = u.store.inFlight)
    (hpeak : v.store.peakInFlight = u.store.peakInFlight) : Gauged (⟨u, action⟩ :: events) v := by
  refine h.step ?_ ?_
  · rw [hin, hcalls, abandoned_cons, habandons, if_neg Bool.false_ne_true]
    exact h.inFlight
  · rw [hpeak, hin, Nat.max_eq_left h.inFlight_le_peak]

theorem enter (h : Gauged events u) {r : Request} (hact : u.act (.enter r) = some v) :
    Gauged (⟨u, .enter r⟩ :: events) v := by
  rcases u.store.inFlight_enter r with ⟨e, herror, hin, hpeak⟩ | ⟨hok, hin, hpeak⟩
  · simp only [act] at hact
    split at hact <;> rename_i henter <;> cases hact
    · rw [henter] at hin hpeak
      exact h.pass rfl rfl hin hpeak
    · rw [henter] at herror
      cases herror
  · simp only [act] at hact
    split at hact <;> rename_i henter <;> cases hact
    · rw [henter] at hok
      cases hok
    · rw [henter] at hin hpeak
      refine h.step ?_ ?_
      · rw [hin, h.inFlight, dataCalls, dataCalls, List.countP_cons]
        exact Nat.add_right_comm ..
      · rw [hpeak, hin]
        split
        · rfl
        · rw [Nat.max_zero, Nat.add_zero, Nat.max_eq_left h.inFlight_le_peak]

theorem finish (h : Gauged events u) {now : Int} {r : Request}
    (hact : u.act (.finish now r) = some v) : Gauged (⟨u, .finish now r⟩ :: events) v := by
  obtain ⟨hin, hpeak⟩ := u.store.inFlight_finish r now
  simp only [act, Option.ite_none_right_eq_some, Option.some.injEq] at hact
  obtain ⟨hmem, rfl⟩ := hact
  refine h.step ?_ ?_
  · show (u.store.finish now r).2.inFlight = _ + abandoned events
    rw [hin, h.inFlight, ← dataCalls_erase hmem, Nat.add_right_comm, Nat.add_sub_cancel]
  · show (u.store.finish now r).2.peakInFlight = max _ (u.store.finish now r).2.inFlight
    rw [hpeak, hin, Nat.max_eq_left (Nat.le_trans (Nat.sub_le ..) h.inFlight_le_peak)]

theorem giveUp (h : Gauged events u) {r : Request} (hact : u.act (.giveUp r) = some v) :
    Gauged (⟨u, .giveUp r⟩ :: events) v := by
  simp only [act, Option.ite_none_right_eq_some, Option.some.injEq] at hact
  obtain ⟨hmem, rfl⟩ := hact
  refine h.step ?_ (Nat.max_eq_left h.inFlight_le_peak).symm
  rw [abandoned_cons, h.inFlight, ← dataCalls_erase hmem, Nat.add_assoc, Nat.add_comm (abandoned _)]
  rfl

end Gauged

theorem Path.gauged (h : Path events u) : Gauged events u := by
  induction h with
  | new => exact .new
  | @step events u v action h hact ih =>
    cases action with
    | enter r => exact ih.enter hact
    | finish now r => exact ih.finish hact
    | giveUp r => exact ih.giveUp hact
    | insert bucket key data time =>
      cases hact
      exact ih.pass rfl rfl rfl rfl
    | setPartsCount bucket key count =>
      cases hact
      have hsame : (u.store.setPartsCount bucket key count).inFlight = u.store.inFlight ∧
          (u.store.setPartsCount bucket key count).peakInFlight = u.store.peakInFlight := by
        simp only [Store.setPartsCount]
        split <;> exact ⟨rfl, rfl⟩
      exact ih.pass rfl rfl hsame.1 hsame.2
    | configure setting =>
      cases hact
      cases setting <;> exact ih.pass rfl rfl rfl rfl

theorem shown_of_abandoned_eq_zero (h : abandoned events = 0) {moment : List Event × Usage}
    (hmem : moment ∈ moments events u) : shown moment = moment.2.dataCalls := by
  induction events generalizing u with
  | nil =>
    obtain rfl := List.mem_singleton.mp hmem
    rfl
  | cons e events ih =>
    rcases List.mem_cons.mp hmem with rfl | hearlier
    · rw [shown, h, Nat.add_zero]
    · rw [abandoned_cons] at h
      exact ih (Nat.eq_zero_of_add_eq_zero_right h) hearlier

/-- The gauge shows the data calls that are under way and those that were ever given up. It is exact,
and so is its peak, as long as no data call was given up. -/
theorem gauge_counts_calls_given_up (h : Path events u) :
    u.store.inFlight = u.dataCalls + abandoned events ∧
      IsGreatest {n | ∃ moment ∈ moments events u, shown moment = n} u.store.peakInFlight ∧
      (abandoned events = 0 → u.store.inFlight = u.dataCalls ∧
        IsGreatest {n | ∃ moment ∈ moments events u, moment.2.dataCalls = n}
          u.store.peakInFlight) := by
  refine ⟨h.gauged.inFlight, h.gauged.peak, fun hnone => ⟨?_, ?_⟩⟩
  · rw [h.gauged.inFlight, hnone, Nat.add_zero]
  · have hpeak := h.gauged.peak
    constructor
    · obtain ⟨moment, hmem, hshown⟩ := hpeak.1
      exact ⟨moment, hmem, (shown_of_abandoned_eq_zero hnone hmem).symm.trans hshown⟩
    · rintro n ⟨moment, hmem, rfl⟩
      exact hpeak.2 ⟨moment, hmem, shown_of_abandoned_eq_zero hnone hmem⟩

def twoReads : List UsageAction :=
  [.configure (.latency 10), .insert "bucket" "key" "data".toUTF8 0,
    .enter (.get "bucket" "key" none), .enter (.get "bucket" "key" none),
    .finish 0 (.get "bucket" "key" none)]

theorem gauge_counts_calls_given_up_two_reads :
    ∃ events u, Path events u ∧ abandoned events = 0 ∧ u.dataCalls = 1 ∧ u.store.inFlight = 1 ∧
      u.store.peakInFlight = 2 ∧
      IsGreatest {n | ∃ moment ∈ moments events u, moment.2.dataCalls = n} 2 := by
  have hrun : (twoReads.foldlM follow? ([], {})).any (fun (events, u) =>
      abandoned events = 0 ∧ u.dataCalls = 1 ∧ u.store.peakInFlight = 2) = true := by
    decide +kernel
  simp only [Option.any_eq_true, decide_eq_true_eq] at hrun
  obtain ⟨⟨events, u⟩, hrun, hnone, hcalls, hpeak⟩ := hrun
  have hpath : Path events u := path_of_foldlM .new hrun
  obtain ⟨hin, hgreatest⟩ := (gauge_counts_calls_given_up hpath).2.2 hnone
  exact ⟨events, u, hpath, hnone, hcalls, hin.trans hcalls, hpeak, hpeak ▸ hgreatest⟩

/-- A read is given up while it waits. Another one is made and answered. -/
def abandonedRead : List UsageAction :=
  [.configure (.latency 10), .insert "bucket" "key" "data".toUTF8 0,
    .enter (.get "bucket" "key" none), .giveUp (.get "bucket" "key" none),
    .enter (.get "bucket" "key" none), .finish 0 (.get "bucket" "key" none)]

/-- The gauge shows a call when none is under way, and two at a time when there was never more than
one. -/
theorem gauge_never_forgets_abandoned_read :
    ∃ events u, Path events u ∧ u.underWay = [] ∧ u.store.inFlight = 1 ∧
      (∀ moment ∈ moments events u, moment.2.dataCalls ≤ 1) ∧ u.store.peakInFlight = 2 := by
  have hrun : (abandonedRead.foldlM follow? ([], {})).any (fun (events, u) =>
      u.underWay = [] ∧ u.store.inFlight = 1 ∧
        (moments events u).all (·.2.dataCalls ≤ 1) ∧ u.store.peakInFlight = 2) = true := by
    decide +kernel
  simp only [Option.any_eq_true, decide_eq_true_eq, List.all_eq_true] at hrun
  obtain ⟨⟨events, u⟩, hrun, hnone, hin, hone, hpeak⟩ := hrun
  exact ⟨events, u, path_of_foldlM .new hrun, hnone, hin, hone, hpeak⟩

end Usage

end BucketMigration
