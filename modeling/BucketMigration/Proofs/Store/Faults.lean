import BucketMigration.Proofs.Store.Usage

/-!
# Failed calls and the budgets of faults

A call can be failed by a fault in its first half, or be refused in its second half. Either way no
object and no open upload changes. The fault that fails a call is the earliest one registered that
applies to it. It loses one unit of its budget, and no other fault changes. So what is left of a budget
is what it was less the calls that its fault has failed, and it never fails more of them than that.
-/

namespace BucketMigration

namespace Fault

variable {f : Fault} {r : Request}

theorem applies_iff :
    f.applies r = true ↔ f.operation = r.operation ∧ f.budget ≠ some 0 ∧
      (∀ key, f.key = some key → key = r.key) ∧ ∀ part, f.part = some part → r.part? = some part := by
  simp [applies, Option.all_eq_true, and_assoc]

def spent (f : Fault) (n : Nat) : Fault :=
  { f with budget := f.budget.map (· - n) }

@[simp] theorem spent_zero : f.spent 0 = f := by
  simp [spent]

@[simp] theorem spend_spent (n : Nat) : (f.spent n).spend = f.spent (n + 1) := by
  simp [spent, spend, Function.comp_def, Nat.sub_sub]

theorem spendFirst?_eq (r : Request) (faults : List Fault) :
    spendFirst? r faults = (faults.findIdx? (·.applies r)).bind fun i =>
      faults[i]?.map fun f => (f, faults.modify i spend) := by
  induction faults with
  | nil => rfl
  | cons f rest ih =>
    rw [spendFirst?, List.findIdx?_cons]
    split
    · rfl
    · rw [ih]
      cases hplace : rest.findIdx? (·.applies r) with
      | none => rfl
      | some i => cases hfault : rest[i]? <;> simp [hfault]

end Fault

namespace Store

def failedBy? (s : Store) (r : Request) : Option Nat :=
  s.faults.findIdx? (·.applies r)

/-- The objects of every bucket and the parts of every open upload are the same. -/
structure SameData (s t : Store) : Prop where
  buckets : t.buckets = s.buckets
  uploads : t.uploads = s.uploads

/-- A call is failed by the fault at a place: it is the earliest one that applies to the call, and the
only one to change. -/
structure Failed (s : Store) (r : Request) (i : Nat) (f : Fault) : Prop where
  place : s.failedBy? r = some i
  fault : s.faults[i]? = some f
  applies : f.applies r = true
  earliest : ∀ j < i, ∀ g, s.faults[j]? = some g → g.applies r = false
  reply : (s.enter r).1 = .error (f.error r)
  faults : (s.enter r).2.faults = s.faults.modify i Fault.spend
  unit : f.budget = none ∧ f.spend = f ∨
    ∃ n, f.budget = some (n + 1) ∧ f.spend = { f with budget := some n }

/-- How the calls of a store fail. -/
structure FailsCleanly (s : Store) : Prop where
  failed_iff (r : Request) : (∃ e, (s.enter r).1 = .error e) ↔
    ∃ f ∈ s.faults, f.operation = r.operation ∧ f.budget ≠ some 0 ∧
      (∀ key, f.key = some key → key = r.key) ∧ ∀ part, f.part = some part → r.part? = some part
  failed {r : Request} {e : StorageError} : (s.enter r).1 = .error e → ∃ i f, s.Failed r i f
  passed {r : Request} : (s.enter r).1 = .ok () →
    s.failedBy? r = none ∧ (s.enter r).2.faults = s.faults
  enter_keeps (r : Request) : s.SameData (s.enter r).2
  finish_keeps {now : Int} {r : Request} {e : StorageError} :
    (s.finish now r).1 = .error e → s.SameData (s.finish now r).2
  call_keeps {now : Int} {r : Request} {e : StorageError} :
    (s.call now r).1 = .error e → s.SameData (s.call now r).2

variable {s : Store} {r : Request}

theorem enter_of_failedBy?_eq_none (h : s.failedBy? r = none) :
    (s.enter r).1 = .ok () ∧ (s.enter r).2.faults = s.faults := by
  have hspent : Fault.spendFirst? r s.faults = none := by
    rw [Fault.spendFirst?_eq, ← failedBy?, h]
    rfl
  simp only [enter, hspent, true_and]
  split <;> rfl

theorem unit_of_applies {f : Fault} (h : f.applies r = true) :
    f.budget = none ∧ f.spend = f ∨
      ∃ n, f.budget = some (n + 1) ∧ f.spend = { f with budget := some n } := by
  obtain ⟨-, hbudget, -⟩ := Fault.applies_iff.mp h
  obtain ⟨operation, key, part, budget, retryable⟩ := f
  rcases budget with _ | _ | n
  · exact .inl ⟨rfl, rfl⟩
  · exact absurd rfl hbudget
  · exact .inr ⟨n, rfl, rfl⟩

theorem failed_of_failedBy?_eq_some {i : Nat} (h : s.failedBy? r = some i) : ∃ f, s.Failed r i f := by
  obtain ⟨hlt, happlies, hearlier⟩ := List.findIdx?_eq_some_iff_getElem.mp h
  have hfault : s.faults[i]? = some s.faults[i] := List.getElem?_eq_getElem hlt
  have hspent : Fault.spendFirst? r s.faults = some (s.faults[i], s.faults.modify i Fault.spend) := by
    rw [Fault.spendFirst?_eq, ← failedBy?, h, Option.bind_some, hfault]
    rfl
  refine ⟨s.faults[i], h, hfault, happlies, ?_, ?_, ?_, unit_of_applies happlies⟩
  · intro j hj g hg
    obtain ⟨hjlt, rfl⟩ := List.getElem?_eq_some_iff.mp hg
    exact Bool.eq_false_iff.mpr (hearlier j hj)
  · simp only [enter, hspent]
  · simp only [enter, hspent]

theorem sameData_enter (s : Store) (r : Request) : s.SameData (s.enter r).2 :=
  ⟨s.buckets_enter r, s.uploads_enter r⟩

theorem sameData_finish {now : Int} {e : StorageError} (h : (s.finish now r).1 = .error e) :
    s.SameData (s.finish now r).2 := by
  cases r with
  | list | head | put | createUpload => cases h
  | get => exact ⟨rfl, rfl⟩
  | uploadPart bucket key id part data =>
    cases hsession : s.session? bucket key id with
    | none =>
      rw [finish_uploadPart_unknown hsession]
      exact ⟨rfl, rfl⟩
    | some session =>
      rw [finish_uploadPart_known hsession] at h
      cases h
  | completeUpload bucket key id parts =>
    rcases s.finish_completeUpload_cases now bucket key id parts with
      ⟨e', hfinish⟩ | ⟨session, data, hsession, hne, hascending, hdata⟩
    · rw [hfinish]
      exact ⟨rfl, rfl⟩
    · rw [finish_completeUpload_known hsession hne hascending hdata] at h
      cases h
  | abortUpload bucket key id =>
    by_cases hmem : id ∈ s.uploads
    · rw [finish_abortUpload_known hmem] at h
      cases h
    · rw [finish_abortUpload_unknown hmem]
      exact ⟨rfl, rfl⟩

theorem sameData_call {now : Int} {e : StorageError} (h : (s.call now r).1 = .error e) :
    s.SameData (s.call now r).2 := by
  have henter := s.sameData_enter r
  unfold call at h ⊢
  cases hfirst : s.enter r with
  | mk reply t =>
    rw [hfirst] at h henter
    cases reply with
    | error e' => exact henter
    | ok =>
      have hfinish := sameData_finish h
      exact ⟨hfinish.buckets.trans henter.buckets, hfinish.uploads.trans henter.uploads⟩

theorem failed_of_error {e : StorageError} (h : (s.enter r).1 = .error e) : ∃ i f, s.Failed r i f := by
  cases hplace : s.failedBy? r with
  | none =>
    rw [(enter_of_failedBy?_eq_none hplace).1] at h
    cases h
  | some i => exact ⟨i, failed_of_failedBy?_eq_some hplace⟩

theorem exists_error_iff :
    (∃ e, (s.enter r).1 = .error e) ↔ ∃ f ∈ s.faults, f.applies r = true := by
  constructor
  · rintro ⟨e, he⟩
    obtain ⟨i, f, hfailed⟩ := failed_of_error he
    exact ⟨f, List.mem_of_getElem? hfailed.fault, hfailed.applies⟩
  · rintro ⟨f, hf, happlies⟩
    cases hreply : (s.enter r).1 with
    | error e => exact ⟨e, rfl⟩
    | ok => exact absurd happlies (Bool.eq_false_iff.mp (s.enter_eq_ok_iff.mp hreply f hf))

theorem failsCleanly (s : Store) : s.FailsCleanly where
  failed_iff r := by
    simp only [← Fault.applies_iff]
    exact exists_error_iff
  failed := failed_of_error
  passed {r} hok := by
    cases hplace : s.failedBy? r with
    | none => exact ⟨rfl, (enter_of_failedBy?_eq_none hplace).2⟩
    | some i =>
      obtain ⟨f, hfailed⟩ := failed_of_failedBy?_eq_some hplace
      rw [hfailed.reply] at hok
      cases hok
  enter_keeps := s.sameData_enter
  finish_keeps := sameData_finish
  call_keeps := sameData_call

end Store

namespace Usage

namespace Event

def registered? (e : Event) : Option Fault :=
  match e.action with
  | .configure (.fault f) => some f
  | _ => none

/-- The place of the fault that fails the call which begins. -/
def failedBy? (e : Event) : Option Nat :=
  match e.action with
  | .enter r => e.before.store.failedBy? r
  | _ => none

def begins (e : Event) (operation : Operation) : Bool :=
  match e.action with
  | .enter r => r.operation == operation
  | _ => false

/-- No call begins, and no fault is registered. -/
structure Quiet (e : Event) : Prop where
  registered? : e.registered? = none
  failedBy? : e.failedBy? = none
  begins (operation : Operation) : e.begins operation = false

end Event

/-- The faults that were registered, in order, as they were then. -/
def registered (events : List Event) : List Fault :=
  (events.filterMap Event.registered?).reverse

/-- How many calls the fault at a place has failed. -/
def failures (events : List Event) (i : Nat) : Nat :=
  events.countP (·.failedBy? == some i)

/-- What is left of the faults, and the calls that were counted. -/
structure FaultLedger (events : List Event) (s : Store) : Prop where
  faults : s.faults = (registered events).mapIdx fun i f => f.spent (failures events i)
  within {i n : Nat} {f : Fault} : (registered events)[i]? = some f → f.budget = some n →
    failures events i ≤ n
  registered {i : Nat} : 0 < failures events i → i < (registered events).length
  calls (operation : Operation) : s.calls operation = events.countP (·.begins operation)

variable {events : List Event} {u v : Usage} {action : UsageAction}

theorem faults_of_act (h : u.act action = some v) :
    (∃ r, action = .enter r ∧ v.store = (u.store.enter r).2) ∨
      (∃ f, action = .configure (.fault f) ∧
        v.store = { u.store with faults := u.store.faults ++ [f] }) ∨
      (Event.Quiet ⟨u, action⟩ ∧
        v.store.faults = u.store.faults ∧ v.store.callLog = u.store.callLog) := by
  cases action with
  | enter r =>
    refine .inl ⟨r, rfl, ?_⟩
    simp only [act] at h
    split at h <;> rename_i henter <;> cases h <;> rw [henter]
  | finish now r =>
    refine .inr (.inr ⟨⟨rfl, rfl, fun _ => rfl⟩, ?_⟩)
    have hworked := u.store.worked_perform now r
    rw [store_of_finish h, StoreDeed.after, Store.finish]
    dsimp only
    split <;> exact ⟨hworked.faults, hworked.callLog⟩
  | giveUp r =>
    refine .inr (.inr ⟨⟨rfl, rfl, fun _ => rfl⟩, ?_⟩)
    simp only [act, Option.ite_none_right_eq_some, Option.some.injEq] at h
    rw [← h.2]
    exact ⟨rfl, rfl⟩
  | insert bucket key data time =>
    cases h
    exact .inr (.inr ⟨⟨rfl, rfl, fun _ => rfl⟩, rfl, rfl⟩)
  | setPartsCount bucket key count =>
    cases h
    refine .inr (.inr ⟨⟨rfl, rfl, fun _ => rfl⟩, ?_⟩)
    simp only [Store.setPartsCount]
    split <;> exact ⟨rfl, rfl⟩
  | configure setting =>
    cases h
    cases setting with
    | fault f => exact .inr (.inl ⟨f, rfl, rfl⟩)
    | latency | dropsTokens | omitsEtags => exact .inr (.inr ⟨⟨rfl, rfl, fun _ => rfl⟩, rfl, rfl⟩)

theorem registered_cons (e : Event) :
    Usage.registered (e :: events) = Usage.registered events ++ e.registered?.toList := by
  rw [Usage.registered, List.filterMap_cons]
  cases e.registered? <;> simp [Usage.registered]

theorem registered_enter (u : Usage) (r : Request) (events : List Event) :
    Usage.registered (⟨u, .enter r⟩ :: events) = Usage.registered events := by
  simp [registered_cons, Event.registered?]

theorem failures_cons (e : Event) (i : Nat) :
    failures (e :: events) i = failures events i + if e.failedBy? = some i then 1 else 0 := by
  simp only [failures, List.countP_cons, beq_iff_eq]

namespace FaultLedger

theorem new : FaultLedger [] {} where
  faults := rfl
  within _ _ := Nat.zero_le _
  registered h := absurd h (Nat.lt_irrefl 0)
  calls _ := rfl

theorem getElem?_faults {s : Store} (h : FaultLedger events s) (i : Nat) :
    s.faults[i]? = (Usage.registered events)[i]?.map (·.spent (failures events i)) := by
  rw [h.faults, List.getElem?_mapIdx]

theorem calls_enter (h : FaultLedger events u.store) (r : Request) (operation : Operation) :
    (u.store.enter r).2.calls operation =
      (⟨u, .enter r⟩ :: events).countP (·.begins operation) := by
  rw [u.store.calls_enter, h.calls, List.countP_cons]
  simp only [Event.begins, beq_iff_eq]

theorem enter_passed (h : FaultLedger events u.store) {r : Request} (hnone : u.store.failedBy? r = none) :
    FaultLedger (⟨u, .enter r⟩ :: events) (u.store.enter r).2 := by
  have hfailures : failures (⟨u, .enter r⟩ :: events) = failures events := by
    funext i
    simp [failures_cons, Event.failedBy?, hnone]
  have hsame := (Store.enter_of_failedBy?_eq_none hnone).2
  refine ⟨?_, fun hi hn => ?_, fun hpos => ?_, h.calls_enter r⟩
  · rw [hsame, registered_enter, hfailures, h.faults]
  · rw [registered_enter] at hi
    rw [hfailures]
    exact h.within hi hn
  · rw [hfailures] at hpos
    rw [registered_enter]
    exact h.registered hpos

theorem enter_failed (h : FaultLedger events u.store) {r : Request} {place : Nat} {f : Fault}
    (hfailed : u.store.Failed r place f) :
    FaultLedger (⟨u, .enter r⟩ :: events) (u.store.enter r).2 := by
  have hfailures (i : Nat) : failures (⟨u, .enter r⟩ :: events) i =
      failures events i + if place = i then 1 else 0 := by
    simp [failures_cons, Event.failedBy?, hfailed.place]
  -- the fault as it was registered, and what it had failed before
  obtain ⟨f₀, hf₀, rfl⟩ :=
    Option.map_eq_some_iff.mp ((h.getElem?_faults place).symm.trans hfailed.fault)
  refine ⟨?_, ?_, ?_, h.calls_enter r⟩
  · refine List.ext_getElem? fun i => ?_
    rw [hfailed.faults, registered_enter, List.getElem?_modify, List.getElem?_mapIdx,
      h.getElem?_faults, hfailures]
    by_cases hi : place = i
    · subst hi
      simp [hf₀]
    · simp [hi]
  · intro i n g hg hn
    rw [registered_enter] at hg
    have hwithin := h.within hg hn
    rw [hfailures]
    by_cases hi : place = i
    · subst hi
      obtain rfl : f₀ = g := Option.some.inj (hf₀.symm.trans hg)
      obtain ⟨-, hleft, -⟩ := Fault.applies_iff.mp hfailed.applies
      have hne : n - failures events place ≠ 0 := by
        simpa [Fault.spent, hn] using hleft
      rw [if_pos rfl]
      omega
    · rwa [if_neg hi]
  · intro i hpos
    rw [registered_enter]
    by_cases hi : place = i
    · subst hi
      exact (List.getElem?_eq_some_iff.mp hf₀).1
    · rw [hfailures, if_neg hi] at hpos
      exact h.registered hpos

theorem enter (h : FaultLedger events u.store) (r : Request) :
    FaultLedger (⟨u, .enter r⟩ :: events) (u.store.enter r).2 := by
  cases hplace : u.store.failedBy? r with
  | none => exact h.enter_passed hplace
  | some place =>
    obtain ⟨f, hfailed⟩ := Store.failed_of_failedBy?_eq_some hplace
    exact h.enter_failed hfailed

theorem register (h : FaultLedger events u.store) (f : Fault) :
    FaultLedger (⟨u, .configure (.fault f)⟩ :: events)
      { u.store with faults := u.store.faults ++ [f] } := by
  have hregistered : Usage.registered (⟨u, .configure (.fault f)⟩ :: events) =
      Usage.registered events ++ [f] := by
    simp [registered_cons, Event.registered?]
  have hfailures : failures (⟨u, .configure (.fault f)⟩ :: events) = failures events := by
    funext i
    simp [failures_cons, Event.failedBy?]
  have hfresh : failures events (Usage.registered events).length = 0 :=
    Nat.eq_zero_of_not_pos fun hpos => Nat.lt_irrefl _ (h.registered hpos)
  refine ⟨?_, ?_, ?_, fun operation => ?_⟩
  · rw [hregistered, hfailures, List.mapIdx_concat, ← h.faults, hfresh, Fault.spent_zero]
  · intro i n g hg hn
    rw [hfailures]
    rw [hregistered] at hg
    by_cases hi : i < (Usage.registered events).length
    · rw [List.getElem?_append_left hi] at hg
      exact h.within hg hn
    · rw [Nat.eq_zero_of_not_pos fun hpos => hi (h.registered hpos)]
      exact Nat.zero_le n
  · intro i hpos
    rw [hfailures] at hpos
    rw [hregistered, List.length_append]
    exact Nat.lt_add_right 1 (h.registered hpos)
  · rw [List.countP_cons]
    exact h.calls operation

theorem pass (h : FaultLedger events u.store) (hquiet : Event.Quiet ⟨u, action⟩)
    (hfaults : v.store.faults = u.store.faults) (hcalls : v.store.callLog = u.store.callLog) :
    FaultLedger (⟨u, action⟩ :: events) v.store := by
  have hregistered : Usage.registered (⟨u, action⟩ :: events) = Usage.registered events := by
    rw [registered_cons, hquiet.registered?, Option.toList_none, List.append_nil]
  have hfailures : failures (⟨u, action⟩ :: events) = failures events := by
    funext i
    rw [failures_cons, hquiet.failedBy?, if_neg nofun, Nat.add_zero]
  refine ⟨?_, fun hi hn => ?_, fun hpos => ?_, fun operation => ?_⟩
  · rw [hfaults, hregistered, hfailures, h.faults]
  · rw [hfailures]
    exact h.within (hregistered ▸ hi) hn
  · rw [hregistered]
    exact h.registered (hfailures ▸ hpos)
  · rw [Store.calls, hcalls, ← Store.calls, h.calls, List.countP_cons, hquiet.begins,
      if_neg Bool.false_ne_true, Nat.add_zero]

end FaultLedger

theorem Path.faultLedger (h : Path events u) : FaultLedger events u.store := by
  induction h with
  | new => exact .new
  | step h hact ih =>
    rcases faults_of_act hact with ⟨r, rfl, hstore⟩ | ⟨f, rfl, hstore⟩ | ⟨hquiet, hfaults, hcalls⟩
    · rw [hstore]
      exact ih.enter r
    · rw [hstore]
      exact ih.register f
    · exact ih.pass hquiet hfaults hcalls

/-- A call that fails changes no data. It is failed at once by the earliest fault that applies to it,
which loses one unit of its budget, and no fault fails more calls than its budget allows. Every call
is counted. -/
theorem faults_are_exact (h : Path events u) : u.store.FailsCleanly ∧ FaultLedger events u.store :=
  ⟨u.store.failsCleanly, h.faultLedger⟩

/-- Reads of one key fail twice, then all reads fail once. -/
def failingReads : List UsageAction :=
  [.configure (.fault { operation := .get, key := some "key", budget := some 2 }),
    .configure (.fault { operation := .get, budget := some 1 }),
    .enter (.get "bucket" "key" none), .enter (.get "bucket" "other" none),
    .enter (.get "bucket" "key" none), .enter (.get "bucket" "key" none)]

theorem faults_are_exact_failing_reads :
    ∃ events u, Path events u ∧ failures events 0 = 2 ∧ failures events 1 = 1 ∧
      u.store.calls .get = 4 ∧ FaultLedger events u.store := by
  have hrun : (failingReads.foldlM follow? ([], {})).any (fun (events, u) =>
      failures events 0 = 2 ∧ failures events 1 = 1 ∧ u.store.calls .get = 4) = true := by
    decide +kernel
  simp only [Option.any_eq_true, decide_eq_true_eq] at hrun
  obtain ⟨⟨events, u⟩, hrun, hfirst, hsecond, hcalls⟩ := hrun
  have hpath : Path events u := path_of_foldlM .new hrun
  exact ⟨events, u, hpath, hfirst, hsecond, hcalls, (faults_are_exact hpath).2⟩

end Usage

end BucketMigration
