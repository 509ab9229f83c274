import BucketMigration.Proofs.Copy.Course
import BucketMigration.Proofs.Inevitable

/-!
# Attempts to get metadata

The source is asked for the metadata of an object up to a number of times, with a pause between two
attempts that the backoff curve gives. Attempts end with the first result that another attempt would
not change. `fetchCourse` has all that happens, in order, when the results are given in advance; a copy
keeps to it whatever else goes on, and it always comes to the end of it.
-/

namespace BucketMigration

variable {α : Type}

/-- A result that no other attempt is made after, however many are left. -/
def isConclusive : Except StorageError α → Bool
  | .error (.network _ retryable) => !retryable
  | _ => true

theorem isConclusive_error (e : StorageError) :
    isConclusive (.error e : Except StorageError α) = !e.isRetryable := by
  cases e <;> rfl

/-- The number of the last attempt: the first one with a conclusive result, or the last one that the
budget has. -/
def RetrySettings.lastAttempt (settings : RetrySettings) (r : Nat → Except StorageError α) : Nat :=
  ((List.range' 1 (max settings.maxAttempts 1)).find? fun i => isConclusive (r i)).getD
    (max settings.maxAttempts 1)

theorem RetrySettings.lastAttempt_eq (settings : RetrySettings)
    (r : Nat → Except StorageError α) : settings.lastAttempt r =
      ((List.range' 1 settings.attempts).find? fun i => isConclusive (r i)).getD settings.attempts :=
  rfl

/-- An attempt to get the metadata of the source, or a pause before another one. -/
inductive FetchEvent
  | attempted (result : Except StorageError (Option ObjectMetadata))
  | paused (ms : Nat)

namespace FetchEvent

def result? : FetchEvent → Option (Except StorageError (Option ObjectMetadata))
  | attempted result => some result
  | paused _ => none

def pause? : FetchEvent → Option Nat
  | attempted _ => none
  | paused ms => some ms

def results (events : List FetchEvent) : List (Except StorageError (Option ObjectMetadata)) :=
  events.filterMap result?

def pauses (events : List FetchEvent) : List Nat :=
  events.filterMap pause?

theorem results_append (events later : List FetchEvent) :
    results (events ++ later) = results events ++ results later :=
  List.filterMap_append

theorem pauses_append (events later : List FetchEvent) :
    pauses (events ++ later) = pauses events ++ pauses later :=
  List.filterMap_append

end FetchEvent

open FetchEvent (results pauses)

/-- A copy, and what it has done to get the metadata of its source. -/
structure Fetch where
  copy : ObjectCopy
  events : List FetchEvent := []

section Course

variable (setup : Setup) (object : ObjectDescriptor)
  (r : Nat → Except StorageError (Option ObjectMetadata))

/-- A number of attempts, each with the pause after it. -/
def fetchRounds (n : Nat) : List FetchEvent :=
  (List.range' 1 n).flatMap fun i =>
    [.attempted (r i), .paused (setup.options.metadataRetry.backoff i)]

/-- All attempts, with pauses in between and none after the last. -/
def fetchCourse : List FetchEvent :=
  let last := setup.options.metadataRetry.lastAttempt r
  fetchRounds setup r (last - 1) ++ [.attempted (r last)]

inductive Fetched (attempts : Nat) : Except StorageError (Option ObjectMetadata) → ObjectCopy → Prop
  | found {metadata : ObjectMetadata} {c : ObjectCopy} (hmetadata : c.metadata = some metadata) :
      Fetched attempts (.ok (some metadata)) c
  | missing : Fetched attempts (.ok none)
      ⟨object, none, .ended (.error (.sourceNotFound setup.source.bucket object.key))⟩
  | notFound (bucket key : String) : Fetched attempts (.error (.notFound bucket key))
      ⟨object, none, .ended (.error (.sourceNotFound bucket key))⟩
  | failed {e : StorageError} (hother : ∀ bucket key, e ≠ .notFound bucket key) :
      Fetched attempts (.error e)
        ⟨object, none, .ended (.error (.metadataFetch object.key attempts e))⟩

namespace Fetch

/-- A copy goes on, when the attempts to get the metadata have the given results. -/
inductive Step : Fetch → Fetch → Prop
  | attempt {v : Fetch} {lane : Lane} {reply : Reply} {next : ObjectCopy.Next}
      (hcall : v.copy.call? setup lane = some (headSourceCall setup v.copy.object))
      (hreply : Reply.metadata? reply = some (r ((results v.events).length + 1)))
      (hnext : v.copy.resume setup lane reply = some next) :
      Step v ⟨next.1, v.events ++ [.attempted (r ((results v.events).length + 1))]⟩
  | pause {v : Fetch} {ms : Nat} {next : ObjectCopy.Next} (hms : v.copy.pauseMs? setup = some ms)
      (hnext : v.copy.wake = some next) : Step v ⟨next.1, v.events ++ [.paused ms]⟩
  | answer {v : Fetch} {lane : Lane} {reply : Reply} {next : ObjectCopy.Next}
      (hother : v.copy.call? setup lane ≠ some (headSourceCall setup v.copy.object))
      (hnext : v.copy.resume setup lane reply = some next) : Step v ⟨next.1, v.events⟩
  | startPart {v : Fetch} {next : ObjectCopy.Next} (hnext : v.copy.startPart setup = some next) :
      Step v ⟨next.1, v.events⟩

abbrev Reach : Fetch → Fetch → Prop :=
  Relation.ReflTransGen (Step setup r)

/-- How far a copy has come with the metadata of its source. -/
inductive Stage : Fetch → Prop
  | describing {n : Nat} (hn : n < setup.options.metadataRetry.lastAttempt r) :
      Stage ⟨⟨object, none, .describing (n + 1)⟩, fetchRounds setup r n⟩
  | pausing {n : Nat} (hn : n + 1 < setup.options.metadataRetry.lastAttempt r) :
      Stage ⟨⟨object, none, .pausing (n + 1)⟩,
        fetchRounds setup r n ++ [.attempted (r (n + 1))]⟩
  | settled {c : ObjectCopy} (hpast : c.phase.isFetching = false)
      (hfetched : Fetched setup object (setup.options.metadataRetry.lastAttempt r)
        (r (setup.options.metadataRetry.lastAttempt r)) c) :
      Stage ⟨c, fetchCourse setup r⟩

end Fetch

end Course

namespace RetrySettings

variable {settings : RetrySettings} {r : Nat → Except StorageError α} {n : Nat}

theorem lastAttempt_spec (settings : RetrySettings) (r : Nat → Except StorageError α) :
    0 < settings.lastAttempt r ∧ settings.lastAttempt r ≤ settings.attempts ∧
      (isConclusive (r (settings.lastAttempt r)) = true ∨
        settings.lastAttempt r = settings.attempts) ∧
        ∀ i, 0 < i → i < settings.lastAttempt r → isConclusive (r i) = false := by
  have hpos := settings.attempts_pos
  rw [lastAttempt_eq]
  cases hfind : (List.range' 1 settings.attempts).find? fun i => isConclusive (r i) with
  | none =>
    have hopen := List.find?_range'_eq_none.mp hfind
    refine ⟨hpos, Nat.le_refl _, .inr rfl, fun i hi hlt => ?_⟩
    rw [Option.getD_none] at hlt
    simpa using hopen i hi (by omega)
  | some k =>
    obtain ⟨hconclusive, hmem, hbefore⟩ := List.find?_range'_eq_some.mp hfind
    obtain ⟨hk, hle⟩ := List.mem_range'_1.mp hmem
    rw [Nat.add_comm, Nat.lt_succ_iff] at hle
    exact ⟨hk, hle, .inl hconclusive, fun i hi hlt => by simpa using hbefore i hi hlt⟩

theorem lastAttempt_eq_succ (hn : n < settings.lastAttempt r)
    (hlast : isConclusive (r (n + 1)) = true ∨ settings.attempts ≤ n + 1) :
    settings.lastAttempt r = n + 1 := by
  obtain ⟨-, hle, -, hbefore⟩ := settings.lastAttempt_spec r
  by_contra hne
  have hlt : n + 1 < settings.lastAttempt r := by omega
  have hopen := hbefore (n + 1) n.succ_pos hlt
  rcases hlast with hconclusive | hspent
  · rw [hopen] at hconclusive
    cases hconclusive
  · omega

theorem succ_lt_lastAttempt (hn : n < settings.lastAttempt r)
    (hopen : isConclusive (r (n + 1)) = false) (hleft : n + 1 < settings.attempts) :
    n + 1 < settings.lastAttempt r := by
  obtain ⟨-, -, hlast, -⟩ := settings.lastAttempt_spec r
  by_contra hge
  have heq : settings.lastAttempt r = n + 1 := by omega
  rw [heq, hopen] at hlast
  rcases hlast with hconclusive | hspent
  · cases hconclusive
  · omega

end RetrySettings

section Events

variable {setup : Setup} {r : Nat → Except StorageError (Option ObjectMetadata)} {n m : Nat}

theorem fetchRounds_succ (setup : Setup) (r : Nat → Except StorageError (Option ObjectMetadata))
    (n : Nat) : fetchRounds setup r (n + 1) = fetchRounds setup r n ++
      [.attempted (r (n + 1)), .paused (setup.options.metadataRetry.backoff (n + 1))] := by
  rw [fetchRounds, List.range'_1_concat, List.flatMap_append, ← fetchRounds, Nat.add_comm 1 n]
  rfl

theorem results_fetchRounds (setup : Setup) (r : Nat → Except StorageError (Option ObjectMetadata))
    (n : Nat) : results (fetchRounds setup r n) = (List.range' 1 n).map r := by
  rw [results, fetchRounds, List.filterMap_flatMap, List.map_eq_flatMap]
  rfl

theorem pauses_fetchRounds (setup : Setup) (r : Nat → Except StorageError (Option ObjectMetadata))
    (n : Nat) : pauses (fetchRounds setup r n) =
      (List.range' 1 n).map setup.options.metadataRetry.backoff := by
  rw [pauses, fetchRounds, List.filterMap_flatMap, List.map_eq_flatMap]
  rfl

theorem fetchRounds_mono (h : n ≤ m) : fetchRounds setup r n <+: fetchRounds setup r m := by
  induction h with
  | refl => exact List.prefix_rfl
  | step _ ih =>
    rw [fetchRounds_succ]
    exact ih.trans (List.prefix_append ..)

theorem fetchRounds_opens_fetchCourse (h : n < setup.options.metadataRetry.lastAttempt r) :
    fetchRounds setup r n <+: fetchCourse setup r :=
  (fetchRounds_mono (Nat.le_sub_one_of_lt h)).trans (List.prefix_append ..)

theorem fetchRounds_append_opens_fetchCourse
    (h : n + 1 < setup.options.metadataRetry.lastAttempt r) :
    fetchRounds setup r n ++ [.attempted (r (n + 1))] <+: fetchCourse setup r := by
  refine List.IsPrefix.trans ?_ (fetchRounds_opens_fetchCourse h)
  rw [fetchRounds_succ]
  exact (List.prefix_append_right_inj _).mpr (List.prefix_append [_] [_])

theorem fetchCourse_eq (h : setup.options.metadataRetry.lastAttempt r = n + 1) :
    fetchCourse setup r = fetchRounds setup r n ++ [.attempted (r (n + 1))] := by
  rw [fetchCourse, h]
  rfl

theorem results_fetchCourse (setup : Setup)
    (r : Nat → Except StorageError (Option ObjectMetadata)) :
    results (fetchCourse setup r) =
      (List.range' 1 (setup.options.metadataRetry.lastAttempt r)).map r := by
  obtain ⟨n, hn⟩ := Nat.exists_eq_add_one_of_ne_zero
    (setup.options.metadataRetry.lastAttempt_spec r).1.ne'
  rw [fetchCourse_eq hn, hn, FetchEvent.results_append, results_fetchRounds, List.range'_1_concat,
    List.map_append, Nat.add_comm 1 n]
  rfl

theorem pauses_fetchCourse (setup : Setup)
    (r : Nat → Except StorageError (Option ObjectMetadata)) :
    pauses (fetchCourse setup r) =
      (List.range' 1 (setup.options.metadataRetry.lastAttempt r - 1)).map
        setup.options.metadataRetry.backoff := by
  rw [fetchCourse, FetchEvent.pauses_append, pauses_fetchRounds]
  exact List.append_nil _

theorem length_fetchRounds (setup : Setup) (r : Nat → Except StorageError (Option ObjectMetadata))
    (n : Nat) : (results (fetchRounds setup r n)).length = n := by
  rw [results_fetchRounds, List.length_map, List.length_range']

end Events

namespace ObjectCopy

variable {setup : Setup} {c : ObjectCopy} {lane : Lane}

theorem call?_ne_headSourceCall (h : c.phase.isFetching = false) :
    c.call? setup lane ≠ some (headSourceCall setup c.object) := by
  cases lane with
  | whole =>
    cases hphase : c.phase with
    | describing =>
      rw [hphase] at h
      cases h
    | _ => simp [call?, hphase, headSourceCall]
  | part number =>
    intro hcall
    cases hphase : c.phase with
    | copying s =>
      obtain ⟨p, -, -, hget⟩ := call?_copying hphase hcall
      unfold PartCopy.call at hget
      split at hget <;> simp [headSourceCall] at hget
    | _ => simp [call?, hphase] at hcall

end ObjectCopy

theorem Reply.exists_metadata?_eq (result : Except StorageError (Option ObjectMetadata)) :
    ∃ reply, Reply.metadata? reply = some result := by
  cases result with
  | error e => exact ⟨.error e, rfl⟩
  | ok found => exact ⟨.ok (.metadata found), rfl⟩

namespace Fetch

variable {setup : Setup} {object : ObjectDescriptor}
  {r : Nat → Except StorageError (Option ObjectMetadata)} {v w : Fetch} {n : Nat}

theorem stage_described (hn : n < setup.options.metadataRetry.lastAttempt r) :
    Stage setup object r ⟨(ObjectCopy.described setup ⟨object, none, .describing (n + 1)⟩ (n + 1)
      (r (n + 1))).1, fetchRounds setup r n ++ [.attempted (r (n + 1))]⟩ := by
  have hover : ∀ {c : ObjectCopy},
      (isConclusive (r (n + 1)) = true ∨ setup.options.metadataRetry.attempts ≤ n + 1) →
      c.phase.isFetching = false → Fetched setup object (n + 1) (r (n + 1)) c →
      Stage setup object r ⟨c, fetchRounds setup r n ++ [.attempted (r (n + 1))]⟩ := by
    intro c hlast hpast hfetched
    have heq := RetrySettings.lastAttempt_eq_succ hn hlast
    rw [← fetchCourse_eq heq]
    refine .settled hpast ?_
    rw [heq]
    exact hfetched
  generalize hresult : r (n + 1) = result at hover ⊢
  match result with
  | .ok (some metadata) =>
    simp only [ObjectCopy.described]
    split
    · obtain ⟨phase, hpast, hnext⟩ := ObjectCopy.passes_transfer setup
        ⟨object, some metadata, .describing (n + 1)⟩
      rw [hnext]
      exact hover (.inl rfl) hpast (.found rfl)
    · exact hover (.inl rfl) rfl (.found rfl)
  | .ok none => exact hover (.inl rfl) rfl .missing
  | .error e =>
    simp only [ObjectCopy.described]
    split
    · rename_i hagain
      have hstage := @Stage.pausing setup object r n
        (RetrySettings.succ_lt_lastAttempt hn (by simp [hresult, isConclusive_error, hagain.1]) hagain.2)
      rw [hresult] at hstage
      exact hstage
    · rename_i hlast
      have hlast : isConclusive (.error e : Except StorageError (Option ObjectMetadata)) = true ∨
          setup.options.metadataRetry.attempts ≤ n + 1 := by
        cases hretryable : e.isRetryable with
        | false => exact .inl (by rw [isConclusive_error, hretryable]; rfl)
        | true => exact .inr (Nat.not_lt.mp fun hleft => hlast ⟨hretryable, hleft⟩)
      split
      · exact hover hlast rfl (.notFound _ _)
      · exact hover hlast rfl (.failed ‹_›)

theorem Stage.of_moves {c : ObjectCopy} {next : ObjectCopy.Next} (hmoves : c.Moves setup next)
    (hpasses : c.Passes next)
    (h : Fetched setup object (setup.options.metadataRetry.lastAttempt r)
      (r (setup.options.metadataRetry.lastAttempt r)) c) :
    Stage setup object r ⟨next.1, fetchCourse setup r⟩ := by
  have hnone := hmoves.verdict?_eq_none
  obtain ⟨phase, hpast, hnext⟩ := hpasses
  rw [hnext]
  refine .settled hpast ?_
  generalize r (setup.options.metadataRetry.lastAttempt r) = result at h ⊢
  cases h with
  | found hmetadata => exact .found hmetadata
  | missing | notFound | failed => cases hnone

theorem Step.of_describing (h : Step setup r v w) {attempt : Nat}
    (hphase : v.copy.phase = .describing attempt) :
    w = ⟨(v.copy.described setup attempt (r ((results v.events).length + 1))).1,
      v.events ++ [.attempted (r ((results v.events).length + 1))]⟩ := by
  cases h with
  | attempt _ hreply hnext =>
    obtain ⟨-, result, hresult, rfl⟩ := ObjectCopy.resume_describing hphase hnext
    obtain rfl := Option.some.inj (hresult.symm.trans hreply)
    rfl
  | pause hms => simp [ObjectCopy.pauseMs?, hphase] at hms
  | answer hother hnext =>
    obtain ⟨rfl, -⟩ := ObjectCopy.resume_describing hphase hnext
    exact absurd (ObjectCopy.asks_describing hphase).call? hother
  | startPart hnext => simp [ObjectCopy.startPart, hphase] at hnext

theorem Step.of_pausing (h : Step setup r v w) {attempt : Nat}
    (hphase : v.copy.phase = .pausing attempt) :
    w = ⟨{ v.copy with phase := .describing (attempt + 1) },
      v.events ++ [.paused (setup.options.metadataRetry.backoff attempt)]⟩ := by
  cases h with
  | @attempt lane _ _ hcall => cases lane <;> simp [ObjectCopy.call?, hphase] at hcall
  | pause hms hnext =>
    simp only [ObjectCopy.pauseMs?, hphase, Option.some.injEq] at hms
    simp only [ObjectCopy.wake, hphase, Option.some.injEq] at hnext
    rw [← hms, ← hnext]
    rfl
  | @answer lane _ _ _ hnext => cases lane <;> simp [ObjectCopy.resume, hphase] at hnext
  | startPart hnext => simp [ObjectCopy.startPart, hphase] at hnext

theorem Stage.step (h : Stage setup object r v) (hstep : Step setup r v w) :
    Stage setup object r w := by
  cases h with
  | describing hn =>
    obtain rfl := hstep.of_describing rfl
    rw [length_fetchRounds]
    exact stage_described hn
  | pausing hn =>
    obtain rfl := hstep.of_pausing rfl
    have hstage := @Stage.describing setup object r _ hn
    rw [fetchRounds_succ] at hstage
    rw [List.append_assoc]
    exact hstage
  | settled hpast hfetched =>
    cases hstep with
    | attempt hcall => exact absurd hcall (ObjectCopy.call?_ne_headSourceCall hpast)
    | @pause ms _ hms =>
      unfold ObjectCopy.pauseMs? at hms
      split at hms
      · rename_i hphase
        rw [hphase] at hpast
        cases hpast
      · cases hms
    | answer _ hnext => exact .of_moves (.reply hnext) (ObjectCopy.passes_resume hpast hnext) hfetched
    | startPart hnext => exact .of_moves (.startPart hnext) (ObjectCopy.passes_startPart hnext) hfetched

theorem Stage.reach (h : Stage setup object r v) (hreach : Reach setup r v w) :
    Stage setup object r w := by
  induction hreach with
  | refl => exact h
  | tail _ hstep ih => exact ih.step hstep

theorem Stage.events_open_fetchCourse (h : Stage setup object r v) : v.events <+: fetchCourse setup r := by
  cases h with
  | describing hn => exact fetchRounds_opens_fetchCourse hn
  | pausing hn => exact fetchRounds_append_opens_fetchCourse hn
  | settled => exact List.prefix_rfl

theorem Stage.isFetching_iff (h : Stage setup object r v) :
    v.copy.phase.isFetching = true ↔ v.events ≠ fetchCourse setup r := by
  have hcount : v.events = fetchCourse setup r →
      (results v.events).length = setup.options.metadataRetry.lastAttempt r := by
    intro heq
    rw [heq, results_fetchCourse, List.length_map, List.length_range']
  cases h with
  | describing hn =>
    refine iff_of_true rfl fun heq => ?_
    rw [length_fetchRounds] at hcount
    exact hn.ne (hcount heq)
  | pausing hn =>
    refine iff_of_true rfl fun heq => ?_
    rw [FetchEvent.results_append, List.length_append, length_fetchRounds] at hcount
    exact hn.ne (hcount heq)
  | settled hpast => exact iff_of_false (by rw [hpast]; exact Bool.false_ne_true) fun hne => hne rfl

/-- An attempt is made, or a pause is over, as long as the course goes on. -/
theorem Stage.exists_step (h : Stage setup object r v) (hmore : v.events ≠ fetchCourse setup r) :
    ∃ w, Step setup r v w := by
  cases h with
  | @describing n =>
    obtain ⟨reply, hreply⟩ := Reply.exists_metadata?_eq
      (r ((results (fetchRounds setup r n)).length + 1))
    exact ⟨_, @Step.attempt setup r _ .whole reply _ rfl hreply
      (by simp only [ObjectCopy.resume, hreply, Option.map_some]; rfl)⟩
  | pausing => exact ⟨_, .pause rfl rfl⟩
  | settled => exact absurd rfl hmore

theorem Stage.exists_event (h : Stage setup object r v) (hmore : v.events ≠ fetchCourse setup r)
    (hstep : Step setup r v w) : ∃ e, w.events = v.events ++ [e] := by
  cases h with
  | describing =>
    obtain rfl := hstep.of_describing rfl
    exact ⟨_, rfl⟩
  | pausing =>
    obtain rfl := hstep.of_pausing rfl
    exact ⟨_, rfl⟩
  | settled => exact absurd rfl hmore

theorem Stage.inevitable (h : Stage setup object r v) :
    Inevitable (Step setup r) (fun w => w.events = fetchCourse setup r) v := by
  refine Inevitable.of_wellFounded_of_not Nat.lt_wfRel.wf (Stage setup object r)
    (fun w => (fetchCourse setup r).length - w.events.length) ?_
    (fun w hw hmore => hw.exists_step hmore) h
  intro w x hw hmore hstep
  have hx := hw.step hstep
  obtain ⟨e, he⟩ := hw.exists_event hmore hstep
  have hle := hx.events_open_fetchCourse.length_le
  rw [he, List.length_append, List.length_singleton] at hle
  refine ⟨hx, ?_⟩
  show (fetchCourse setup r).length - x.events.length < (fetchCourse setup r).length - w.events.length
  rw [he, List.length_append, List.length_singleton]
  omega

theorem stage_start (r : Nat → Except StorageError (Option ObjectMetadata))
    (hadmitted : Admitted setup.options object.size) :
    Stage setup object r ⟨(ObjectCopy.start setup object).1, []⟩ := by
  have hstart : (ObjectCopy.start setup object).1 = ⟨object, none, .describing 1⟩ := by
    have hunskipped := hadmitted.unskipped
    unfold ObjectCopy.start
    dsimp only
    rw [if_neg (Nat.not_lt.mpr hadmitted.le_maxObjectSize), if_neg (by omega)]
  rw [hstart]
  exact .describing (setup.options.metadataRetry.lastAttempt_spec r).1

/-- The metadata of the source is attempted to be had until a result is conclusive or the budget is
spent, with the pauses of the backoff curve between the attempts and none after them, and the last
result decides how the copy goes on. This comes about whatever else happens. -/
theorem attempts_end_with_first_conclusive_result
    (r : Nat → Except StorageError (Option ObjectMetadata))
    (hadmitted : Admitted setup.options object.size) :
    (∀ v, Reach setup r ⟨(ObjectCopy.start setup object).1, []⟩ v →
      v.events <+: fetchCourse setup r ∧
        (v.copy.phase.isFetching = true ↔ v.events ≠ fetchCourse setup r) ∧
        (v.events = fetchCourse setup r →
          Fetched setup object (setup.options.metadataRetry.lastAttempt r)
            (r (setup.options.metadataRetry.lastAttempt r)) v.copy)) ∧
      Inevitable (Step setup r) (fun v => v.events = fetchCourse setup r)
        ⟨(ObjectCopy.start setup object).1, []⟩ ∧
      results (fetchCourse setup r) =
        (List.range' 1 (setup.options.metadataRetry.lastAttempt r)).map r ∧
      pauses (fetchCourse setup r) =
        (List.range' 1 (setup.options.metadataRetry.lastAttempt r - 1)).map
          setup.options.metadataRetry.backoff := by
  have hstart := stage_start r hadmitted
  refine ⟨fun v hreach => ?_, hstart.inevitable, results_fetchCourse setup r,
    pauses_fetchCourse setup r⟩
  have hstage := hstart.reach hreach
  refine ⟨hstage.events_open_fetchCourse, hstage.isFetching_iff, fun hend => ?_⟩
  have hiff := hstage.isFetching_iff
  cases hstage with
  | settled _ hfetched => exact hfetched
  | describing | pausing => exact absurd hend (hiff.mp rfl)

def plainSetup : Setup where
  source := { bucket := "from" }
  target := { bucket := "to" }

def hastySetup : Setup :=
  { plainSetup with options := { metadataRetry := { maxAttempts := 2 } } }

/-- The connection is lost twice, which is one time too many, and then the object would be there. -/
def lostTwice : Nat → Except StorageError (Option ObjectMetadata)
  | 1 | 2 => .error (.network "reset" true)
  | _ => .ok (some ⟨1, none, none, none⟩)

theorem attempts_lostTwice :
    Admitted hastySetup.options 1 ∧
      ∃ v, Reach hastySetup lostTwice ⟨(ObjectCopy.start hastySetup ⟨"k", 1⟩).1, []⟩ v ∧
        v.events = [.attempted (.error (.network "reset" true)),
          .paused (hastySetup.options.metadataRetry.backoff 1),
          .attempted (.error (.network "reset" true))] ∧
        Fetched hastySetup ⟨"k", 1⟩ 2 (.error (.network "reset" true)) v.copy := by
  have hadmitted : Admitted hastySetup.options 1 := ⟨by decide, .inl rfl⟩
  have hreach : Reach hastySetup lostTwice ⟨(ObjectCopy.start hastySetup ⟨"k", 1⟩).1, []⟩
      ⟨⟨⟨"k", 1⟩, none, .ended (.error (.metadataFetch "k" 2 (.network "reset" true)))⟩,
        fetchCourse hastySetup lostTwice⟩ := by
    have hfirst := @Step.attempt hastySetup lostTwice ⟨⟨⟨"k", 1⟩, none, .describing 1⟩, []⟩ .whole
      (.error (.network "reset" true)) _ rfl rfl rfl
    have hpause := @Step.pause hastySetup lostTwice
      ⟨⟨⟨"k", 1⟩, none, .pausing 1⟩, [.attempted (lostTwice 1)]⟩ _ _ rfl rfl
    have hsecond := @Step.attempt hastySetup lostTwice ⟨⟨⟨"k", 1⟩, none, .describing 2⟩,
      [.attempted (lostTwice 1), .paused (hastySetup.options.metadataRetry.backoff 1)]⟩ .whole
      (.error (.network "reset" true)) _ rfl rfl rfl
    exact ((Relation.ReflTransGen.single hfirst).tail hpause).tail hsecond
  obtain ⟨hall, -⟩ :=
    @attempts_end_with_first_conclusive_result hastySetup ⟨"k", 1⟩ lostTwice hadmitted
  exact ⟨hadmitted, _, hreach, rfl, (hall _ hreach).2.2 rfl⟩

end Fetch

end BucketMigration
