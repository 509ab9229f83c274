import BucketMigration.Proofs.Copy.Advance
import BucketMigration.Proofs.Copy.Course
import BucketMigration.Proofs.Job.Accounting
import BucketMigration.Proofs.Layout.Partition

/-!
# What is decided about an object

Whatever the replies are, a copy is decided by the size of its object, the metadata of both sides and
the options. `Decision` says of a conversation, from the start of a copy on, which calls are made when
and what the copy ends with; `Transfer` says the same of the one transfer that may be part of it. A copy
also counts its object, once it has ended, among those migrated or skipped.
-/

namespace BucketMigration

open Conversation (calls)

/-- Every call was made after events with which it is allowed. -/
def EachCall (P : Call → List CopyEvent → Prop) (events : List CopyEvent) : Prop :=
  ∀ lane call earlier, .called lane call :: earlier <:+ events → P call earlier

section EachCall

variable {P : Call → List CopyEvent → Prop} {events before : List CopyEvent}

theorem eachCall_nil : EachCall P [] := by
  intro lane call earlier h
  cases List.suffix_nil.mp h

theorem EachCall.called (h : EachCall P events) {lane : Lane} {call : Call} (hcall : P call events) :
    EachCall P (.called lane call :: events) := by
  intro l c earlier hsuffix
  rcases List.suffix_cons_iff.mp hsuffix with heq | hsuffix
  · cases heq
    exact hcall
  · exact h l c earlier hsuffix

theorem EachCall.answered (h : EachCall P events) (lane : Lane) (call : Call) (reply : Reply) :
    EachCall P (.answered lane call reply :: events) := by
  intro l c earlier hsuffix
  rcases List.suffix_cons_iff.mp hsuffix with heq | hsuffix
  · cases heq
  · exact h l c earlier hsuffix

theorem EachCall.exchange (h : EachCall P before) {call : Call} (hcall : P call before)
    (reply : Reply) : EachCall P (exchange call reply before) :=
  (h.called hcall).answered _ _ reply

theorem EachCall.due (h : EachCall P before) {call : Call} (hcall : P call before)
    {pending : List Lane} (hdue : Due call pending events before) : EachCall P events := by
  rcases hdue with ⟨-, rfl⟩ | ⟨-, rfl⟩
  · exact h
  · exact h.called hcall

theorem EachCall.append (h : EachCall P before) {Q : CopyEvent → Prop}
    (hevents : ∀ e ∈ events, ¬Q e) (hbefore : ∀ e ∈ before, Q e)
    (hcall : ∀ lane call earlier, ¬Q (.called lane call) → P call (earlier ++ before)) :
    EachCall P (events ++ before) := by
  intro lane call earlier hsuffix
  by_cases hkind : Q (.called lane call)
  · exact h lane call earlier
      (suffix_of_not_mem hsuffix fun hmem => hevents _ hmem hkind)
  · obtain ⟨mid, rfl, -⟩ := exists_suffix_of_not_mem hsuffix fun hmem => hkind (hbefore _ hmem)
    exact hcall lane call mid hkind

end EachCall

section Decision

variable (setup : Setup) (object : ObjectDescriptor)

/-- The bytes have to be moved: the source has told its metadata, and the target is not current or is
overwritten anyway. -/
def MustMove (metadata : ObjectMetadata) (events : List CopyEvent) : Prop :=
  SourceSaid setup object events (.ok (.metadata (some metadata))) ∧
    (setup.options.forceOverwrite = true ∨
      ∃ found, TargetSaid setup object events (.ok (.metadata found)) ∧ ¬Current metadata found)

/-- When a call may be made, after what has happened earlier. -/
structure Permitted (call : Call) (earlier : List CopyEvent) : Prop where
  /-- Nothing but the source metadata is asked for before that is known. -/
  informed : call ≠ headSourceCall setup object →
    ∃ metadata, SourceSaid setup object earlier (.ok (.metadata (some metadata)))
  /-- The target is asked once, and not at all when it is overwritten anyway. -/
  once : call = headTargetCall setup object → setup.options.forceOverwrite = false ∧
    ∀ lane, .called lane (headTargetCall setup object) ∉ earlier
  /-- Nothing is read or written unless it has to be. -/
  moving : call.request.operation ≠ .head → ∃ metadata, MustMove setup object metadata earlier

/-- What a copy does and ends with in a conversation. -/
structure Decision (v : Conversation) : Prop where
  sizeExceeded_iff : ∀ key size limit,
    v.copy.verdict? = some (.error (.sizeExceeded key size limit)) ↔
      min (setup.options.maxParts * setup.options.maxPartSize) (2 ^ 64 - 1) < object.size ∧
        key = object.key ∧ size = object.size ∧
        limit = min (setup.options.maxParts * setup.options.maxPartSize) (2 ^ 64 - 1)
  skipLimitExceeded_iff : ∀ key size limit,
    v.copy.verdict? = some (.error (.skipLimitExceeded key size limit)) ↔
      object.size ≤ min (setup.options.maxParts * setup.options.maxPartSize) (2 ^ 64 - 1) ∧
        0 < setup.options.skipSize ∧ setup.options.skipSize < object.size ∧ key = object.key ∧
        size = object.size ∧ limit = setup.options.skipSize
  /-- The size limits need no call. -/
  uncalled : ¬Admitted setup.options object.size → v.events = []
  order : EachCall (Permitted setup object) v.events
  asked : Admitted setup.options object.size → v.copy.verdict? ≠ none →
    .called .whole (headSourceCall setup object) ∈ v.events
  attempts : (calls v.events .whole).count (headSourceCall setup object) ≤
    max setup.options.metadataRetry.maxAttempts 1
  sourceNotFound_iff : ∀ bucket key,
    v.copy.verdict? = some (.error (.sourceNotFound bucket key)) ↔
      (SourceSaid setup object v.events (.ok (.metadata none)) ∧
          bucket = setup.source.bucket ∧ key = object.key) ∨
        SourceSaid setup object v.events (.error (.notFound bucket key))
  metadataFetch : ∀ key n e, v.copy.verdict? = some (.error (.metadataFetch key n e)) →
    key = object.key ∧ SourceSaid setup object v.events (.error e) ∧
      calls v.events .whole = List.replicate n (headSourceCall setup object)
  compared : setup.options.forceOverwrite = false →
    ∀ metadata, SourceSaid setup object v.events (.ok (.metadata (some metadata))) →
      v.copy.verdict? ≠ none → .called .whole (headTargetCall setup object) ∈ v.events
  uncompared : ∀ e, TargetSaid setup object v.events (.error e) →
    v.copy.verdict? = some (.error (.storage (setup.targetKey object.key) "head target object" e)) ∧
      ∀ x ∈ v.events, x.IsHead
  targetCurrent_iff : v.copy.verdict? = some (.ok .targetCurrent) ↔
    setup.options.forceOverwrite = false ∧ ∃ metadata found,
      SourceSaid setup object v.events (.ok (.metadata (some metadata))) ∧
        TargetSaid setup object v.events (.ok (.metadata found)) ∧ Current metadata found
  /-- Nothing is read or written for an object that is left as it is. -/
  leftAlone : v.copy.verdict? = some (.ok .targetCurrent) → ∀ x ∈ v.events, x.IsHead
  /-- Otherwise one transfer follows, and nothing else. -/
  transfers : ∀ metadata, MustMove setup object metadata v.events →
    ∃ moved inquiry, v.events = moved ++ inquiry ∧ (∀ x ∈ inquiry, x.IsHead) ∧
      Transfer setup object metadata ⟨v.copy, v.pending, moved⟩
  migrated : ∀ mode bytes, v.copy.verdict? = some (.ok (.migrated mode bytes)) →
    mode = transferMode setup object ∧ bytes = object.size ∧
      ∃ metadata, MustMove setup object metadata v.events
  /-- Only an object that has to be moved may be one that no layout can be computed for, and only when
  it is too large or may have too many parts. -/
  overflowed : v.copy.phase = .overflowed →
    (∃ metadata, MustMove setup object metadata v.events) ∧
      (2 ^ 63 - 2 ^ 20 < object.size ∨ 2 ^ 31 - 2 < setup.options.maxParts)
  skipped_iff : v.copy.status? = some .skipped ↔
    v.copy.verdict? = some (.ok .targetCurrent) ∨
      ∃ key size limit, v.copy.verdict? = some (.error (.skipLimitExceeded key size limit))
  migrated_iff : v.copy.status? = some .migrated ↔
    ∃ mode bytes, v.copy.verdict? = some (.ok (.migrated mode bytes))

end Decision

section Course

variable {setup : Setup} {object : ObjectDescriptor} {metadata : ObjectMetadata}
  {errors : List StorageError} {c : ObjectCopy} {pending : List Lane} {events : List CopyEvent}

theorem permitted_headSource (earlier : List CopyEvent) :
    Permitted setup object (headSourceCall setup object) earlier where
  informed := fun hne => absurd rfl hne
  once := fun heq => absurd heq.symm (headTargetCall_ne_headSourceCall setup object)
  moving := fun hne => absurd rfl hne

theorem eachCall_failedHeads :
    EachCall (Permitted setup object) (failedHeads setup object errors) := by
  induction errors with
  | nil => exact eachCall_nil
  | cons e errors ih => exact ih.exchange (permitted_headSource _) _

theorem eachCall_headSource {reply : Reply} : EachCall (Permitted setup object)
    (exchange (headSourceCall setup object) reply (failedHeads setup object errors)) :=
  eachCall_failedHeads.exchange (permitted_headSource _) reply

theorem not_mem_called_failedHeads (lane : Lane) :
    .called lane (headTargetCall setup object) ∉ failedHeads setup object errors := by
  induction errors with
  | nil => simp [failedHeads]
  | cons e errors ih => simp [failedHeads, exchange, headTargetCall_ne_headSourceCall, ih]

theorem permitted_headTarget (hforce : setup.options.forceOverwrite = false) :
    Permitted setup object (headTargetCall setup object)
      (exchange (headSourceCall setup object) (.ok (.metadata (some metadata)))
        (failedHeads setup object errors)) where
  informed := fun _ => ⟨metadata, by simp⟩
  once := fun _ => ⟨hforce, fun lane => by
    simp [exchange, headTargetCall_ne_headSourceCall, not_mem_called_failedHeads]⟩
  moving := fun hne => absurd rfl hne

theorem isHead_failedHeads : ∀ x ∈ failedHeads setup object errors, x.IsHead := by
  induction errors with
  | nil => simp [failedHeads]
  | cons e errors ih =>
    intro x hx
    simp only [failedHeads, exchange, List.mem_cons] at hx
    rcases hx with rfl | rfl | hx
    · rfl
    · rfl
    · exact ih x hx

theorem isHead_exchange {call : Call} {reply : Reply} {before : List CopyEvent}
    (hcall : call.request.operation = .head) (hbefore : ∀ x ∈ before, x.IsHead) :
    ∀ x ∈ exchange call reply before, x.IsHead := by
  intro x hx
  simp only [exchange, List.mem_cons] at hx
  rcases hx with rfl | rfl | hx
  · exact hcall
  · exact hcall
  · exact hbefore x hx

theorem Inquiry.isHead {inquiry : List CopyEvent} (h : Inquiry setup object metadata inquiry) :
    ∀ x ∈ inquiry, x.IsHead := by
  cases h with
  | forced => exact isHead_exchange rfl isHead_failedHeads
  | compared => exact isHead_exchange rfl (isHead_exchange rfl isHead_failedHeads)

theorem Inquiry.mustMove {inquiry : List CopyEvent} (h : Inquiry setup object metadata inquiry) :
    MustMove setup object metadata inquiry := by
  cases h with
  | forced hforce => exact ⟨by simp, .inl hforce⟩
  | compared _ _ hold => exact ⟨by simp, .inr ⟨_, by simp, hold⟩⟩

theorem Inquiry.eachCall {inquiry : List CopyEvent} (h : Inquiry setup object metadata inquiry) :
    EachCall (Permitted setup object) inquiry := by
  cases h with
  | forced => exact eachCall_headSource
  | compared hforce =>
    exact eachCall_headSource.exchange (permitted_headTarget hforce) _

theorem MustMove.append (h : MustMove setup object metadata events) (since : List CopyEvent) :
    MustMove setup object metadata (since ++ events) := by
  refine ⟨List.mem_append_right _ h.1, h.2.imp_right ?_⟩
  rintro ⟨found, hsaid, hold⟩
  exact ⟨found, List.mem_append_right _ hsaid, hold⟩

theorem Course.order (h : Course setup object c pending events) :
    EachCall (Permitted setup object) events := by
  cases h with
  | tooLarge | aboveSkip => exact eachCall_nil
  | describing _ _ hdue => exact eachCall_failedHeads.due (permitted_headSource _) hdue
  | pausing => exact eachCall_failedHeads
  | missing | notFound | undescribed => exact eachCall_headSource
  | comparing _ hforce _ hdue => exact eachCall_headSource.due (permitted_headTarget hforce) hdue
  | uncompared _ hforce | current _ hforce =>
    exact eachCall_headSource.exchange (permitted_headTarget hforce) _
  | transferring _ hinquiry _ h =>
    refine hinquiry.eachCall.append h.not_isHead hinquiry.isHead ?_
    intro lane call earlier hcall
    have hmove := hinquiry.mustMove.append earlier
    refine ⟨fun _ => ⟨_, hmove.1⟩, ?_, fun _ => ⟨_, hmove⟩⟩
    rintro rfl
    exact absurd rfl hcall

theorem calls_exchange (call : Call) (reply : Reply) (before : List CopyEvent) :
    calls (exchange call reply before) .whole = calls before .whole ++ [call] := by
  simp [calls, exchange]

theorem calls_failedHeads (setup : Setup) (object : ObjectDescriptor) (errors : List StorageError) :
    calls (failedHeads setup object errors) .whole =
      List.replicate errors.length (headSourceCall setup object) := by
  induction errors with
  | nil => rfl
  | cons e errors ih =>
    rw [failedHeads, calls_exchange, ih, List.length_cons, List.replicate_succ']

theorem Due.calls_sublist {call : Call} {before : List CopyEvent}
    (h : Due call pending events before) :
    (calls events .whole).Sublist (calls before .whole ++ [call]) := by
  rcases h with ⟨-, rfl⟩ | ⟨-, rfl⟩
  · exact List.sublist_append_left ..
  · simp [calls]

theorem count_calls_eq_zero (h : ∀ x ∈ events, ¬x.IsHead) :
    (calls events .whole).count (headSourceCall setup object) = 0 := by
  rw [List.count_eq_zero]
  intro hmem
  simp only [calls, List.mem_filterMap, List.mem_reverse] at hmem
  obtain ⟨x, hx, hcall⟩ := hmem
  refine h x hx ?_
  split at hcall
  · split at hcall
    · cases hcall
      rfl
    · cases hcall
  · cases hcall

theorem Retried.count_le (h : Retried setup errors) {cs : List Call}
    (hcs : cs.Sublist (calls (failedHeads setup object errors) .whole ++
      [headSourceCall setup object] ++ [headTargetCall setup object])) :
    cs.count (headSourceCall setup object) ≤ setup.options.metadataRetry.attempts := by
  have htarget := List.count_eq_zero_of_not_mem
    (mt List.mem_singleton.mp (headTargetCall_ne_headSourceCall setup object).symm)
  have hfew := h.few
  refine Nat.le_trans (hcs.count_le _) ?_
  rw [calls_failedHeads, List.count_append, List.count_append, List.count_replicate_self,
    List.count_singleton_self, htarget]
  omega

theorem Inquiry.count_le {inquiry : List CopyEvent} (h : Inquiry setup object metadata inquiry) :
    (calls inquiry .whole).count (headSourceCall setup object) ≤
      setup.options.metadataRetry.attempts := by
  cases h with
  | forced _ hretried =>
    apply hretried.count_le
    rw [calls_exchange]
    exact List.sublist_append_left ..
  | compared _ hretried =>
    apply hretried.count_le
    rw [calls_exchange, calls_exchange]

theorem Course.count_le (h : Course setup object c pending events) :
    (calls events .whole).count (headSourceCall setup object) ≤
      setup.options.metadataRetry.attempts := by
  cases h with
  | tooLarge | aboveSkip => exact Nat.zero_le _
  | describing _ hretried hdue =>
    exact hretried.count_le (hdue.calls_sublist.trans (List.sublist_append_left ..))
  | pausing _ hretried =>
    exact hretried.count_le
      ((List.sublist_append_left ..).trans (List.sublist_append_left ..))
  | missing _ hretried | notFound _ hretried | undescribed _ hretried =>
    apply hretried.count_le
    rw [calls_exchange]
    exact List.sublist_append_left ..
  | comparing _ _ hretried hdue =>
    apply hretried.count_le
    rw [← calls_exchange]
    exact hdue.calls_sublist
  | uncompared _ _ hretried | current _ _ hretried =>
    apply hretried.count_le
    rw [calls_exchange, calls_exchange]
  | transferring _ hinquiry _ h =>
    rw [Conversation.calls_append, List.count_append, count_calls_eq_zero h.not_isHead]
    exact hinquiry.count_le

/-- The errors of objects that are not looked at for their size. -/
def MigrationError.IsLimit : MigrationError → Prop
  | sizeExceeded .. | skipLimitExceeded .. => True
  | _ => False

theorem MigrationError.IsTransfer.not_isLimit {e : MigrationError} (h : e.IsTransfer) :
    ¬e.IsLimit := by
  cases e with
  | sizeExceeded | skipLimitExceeded => exact False.elim h
  | _ => exact id

theorem Course.sized (h : Course setup object c pending events) :
    (setup.options.maxObjectSize < object.size ∧ events = [] ∧
      c.verdict? = some (.error (.sizeExceeded object.key object.size setup.options.maxObjectSize))) ∨
    (object.size ≤ setup.options.maxObjectSize ∧
      (0 < setup.options.skipSize ∧ setup.options.skipSize < object.size) ∧ events = [] ∧
      c.verdict? = some (.error (.skipLimitExceeded object.key object.size setup.options.skipSize))) ∨
    (Admitted setup.options object.size ∧ ∀ e, c.verdict? = some (.error e) → ¬e.IsLimit) := by
  cases h with
  | tooLarge hsize => exact .inl ⟨hsize, rfl, rfl⟩
  | aboveSkip hsize hskip => exact .inr (.inl ⟨hsize, hskip, rfl, rfl⟩)
  | transferring hadmitted hinquiry hobject h =>
    have htransfer := h.transfer (v := ⟨c, pending, _⟩) hobject
    exact .inr (.inr ⟨hadmitted, fun e hverdict => (htransfer.isTransfer hverdict).not_isLimit⟩)
  | _ hadmitted =>
    refine .inr (.inr ⟨hadmitted, ?_⟩)
    rintro e ⟨⟩ ⟨⟩

theorem called_mem_exchange (call : Call) (reply : Reply) (before : List CopyEvent) :
    .called .whole call ∈ exchange call reply before :=
  List.mem_cons_of_mem _ List.mem_cons_self

theorem mem_exchange_of_mem {call : Call} {reply : Reply} {before : List CopyEvent} {x : CopyEvent}
    (h : x ∈ before) : x ∈ exchange call reply before :=
  List.mem_cons_of_mem _ (List.mem_cons_of_mem _ h)

theorem Course.asked (h : Course setup object c pending events)
    (hadmitted : Admitted setup.options object.size) (hend : c.verdict? ≠ none) :
    .called .whole (headSourceCall setup object) ∈ events := by
  cases h with
  | tooLarge hsize => exact absurd hadmitted.le_maxObjectSize (Nat.not_le.mpr hsize)
  | aboveSkip _ hskip => exact absurd hadmitted.unskipped (by omega)
  | describing | pausing | comparing => exact absurd rfl hend
  | missing | notFound | undescribed => exact called_mem_exchange ..
  | uncompared | current => exact mem_exchange_of_mem (called_mem_exchange ..)
  | transferring _ hinquiry =>
    apply List.mem_append_right
    cases hinquiry with
    | forced => exact called_mem_exchange ..
    | compared => exact mem_exchange_of_mem (called_mem_exchange ..)

theorem Course.sourceNotFound_iff (h : Course setup object c pending events) (bucket key : String) :
    c.verdict? = some (.error (.sourceNotFound bucket key)) ↔
      (SourceSaid setup object events (.ok (.metadata none)) ∧
          bucket = setup.source.bucket ∧ key = object.key) ∨
        SourceSaid setup object events (.error (.notFound bucket key)) := by
  have hretry : ∀ {errors}, Retried setup errors → StorageError.notFound bucket key ∉ errors :=
    fun hretried => hretried.not_mem rfl
  cases h with
  | tooLarge | aboveSkip => simp [ObjectCopy.verdict?]
  | describing _ hretried hdue =>
    simp [ObjectCopy.verdict?, hdue.sourceSaid_iff, hretry hretried]
  | comparing _ _ hretried hdue =>
    simp [ObjectCopy.verdict?, hdue.sourceSaid_iff, hretry hretried]
  | pausing _ hretried => simp [ObjectCopy.verdict?, hretry hretried]
  | missing _ hretried | notFound _ hretried =>
    simp [ObjectCopy.verdict?, hretry hretried, eq_comm]
  | undescribed _ hretried hfound => simp [ObjectCopy.verdict?, hretry hretried, (hfound _ _).symm]
  | uncompared _ _ hretried | current _ _ hretried => simp [ObjectCopy.verdict?, hretry hretried]
  | transferring _ hinquiry hobject h =>
    obtain ⟨errors, hretried, hsaid⟩ := hinquiry.sourceSaid_iff
    have htransfer := h.transfer (v := ⟨c, pending, _⟩) hobject
    have hverdict : c.verdict? ≠ some (.error (.sourceNotFound bucket key)) :=
      fun hverdict => htransfer.isTransfer hverdict
    simp [sourceSaid_append h.not_isHead, hsaid, hretry hretried, hverdict]

theorem Course.metadataFetch (h : Course setup object c pending events) {key : String} {n : Nat}
    {e : StorageError} (hverdict : c.verdict? = some (.error (.metadataFetch key n e))) :
    key = object.key ∧ SourceSaid setup object events (.error e) ∧
      calls events .whole = List.replicate n (headSourceCall setup object) := by
  cases h with
  | undescribed =>
    cases hverdict
    refine ⟨rfl, by simp, ?_⟩
    rw [calls_exchange, calls_failedHeads, List.replicate_succ']
  | transferring _ _ hobject h =>
    exact absurd ((h.transfer (v := ⟨c, pending, _⟩) hobject).isTransfer hverdict) id
  | _ => cases hverdict

theorem Course.compared (h : Course setup object c pending events)
    (hforce : setup.options.forceOverwrite = false)
    (hsaid : SourceSaid setup object events (.ok (.metadata (some metadata))))
    (hend : c.verdict? ≠ none) : .called .whole (headTargetCall setup object) ∈ events := by
  cases h with
  | tooLarge | aboveSkip => simp at hsaid
  | describing | pausing | comparing => exact absurd rfl hend
  | missing | notFound | undescribed => simp at hsaid
  | uncompared | current => exact called_mem_exchange ..
  | transferring _ hinquiry =>
    apply List.mem_append_right
    cases hinquiry with
    | forced hforced => simp [hforce] at hforced
    | compared => exact called_mem_exchange ..

theorem Course.uncompared_of_said (h : Course setup object c pending events) {e : StorageError}
    (hsaid : TargetSaid setup object events (.error e)) :
    c.verdict? =
        some (.error (.storage (setup.targetKey object.key) "head target object" e)) ∧
      ∀ x ∈ events, x.IsHead := by
  cases h with
  | uncompared =>
    obtain rfl : e = _ := by simpa using hsaid
    exact ⟨rfl, isHead_exchange rfl (isHead_exchange rfl isHead_failedHeads)⟩
  | transferring _ hinquiry _ h =>
    obtain ⟨found, hreply, -⟩ := hinquiry.of_targetSaid ((targetSaid_append h.not_isHead).mp hsaid)
    cases hreply
  | describing _ _ hdue | comparing _ _ _ hdue => simp [hdue.targetSaid_iff] at hsaid
  | _ => simp at hsaid

theorem Course.targetCurrent_iff (h : Course setup object c pending events) :
    c.verdict? = some (.ok .targetCurrent) ↔
      setup.options.forceOverwrite = false ∧ ∃ metadata found,
        SourceSaid setup object events (.ok (.metadata (some metadata))) ∧
          TargetSaid setup object events (.ok (.metadata found)) ∧ Current metadata found := by
  cases h with
  | tooLarge | aboveSkip => simp [ObjectCopy.verdict?]
  | describing _ _ hdue => simp [ObjectCopy.verdict?, hdue.sourceSaid_iff]
  | comparing _ _ _ hdue => simp [ObjectCopy.verdict?, hdue.targetSaid_iff]
  | current _ hforce _ hcurrent =>
    exact ⟨fun _ => ⟨hforce, _, _, by simp, by simp, hcurrent⟩, fun _ => rfl⟩
  | transferring _ hinquiry hobject h =>
    constructor
    · intro hverdict
      cases (h.transfer (v := ⟨c, pending, _⟩) hobject).outcome_eq hverdict
    · rintro ⟨-, metadata', found, hsource, htarget, hcurrent⟩
      obtain rfl := hinquiry.eq_of_said ((sourceSaid_append h.not_isHead).mp hsource)
      obtain ⟨found', hfound, hold⟩ :=
        hinquiry.of_targetSaid ((targetSaid_append h.not_isHead).mp htarget)
      cases hfound
      exact absurd hcurrent hold
  | _ => simp [ObjectCopy.verdict?]

theorem Course.leftAlone (h : Course setup object c pending events)
    (hverdict : c.verdict? = some (.ok .targetCurrent)) : ∀ x ∈ events, x.IsHead := by
  cases h with
  | current => exact isHead_exchange rfl (isHead_exchange rfl isHead_failedHeads)
  | transferring _ _ hobject h =>
    cases (h.transfer (v := ⟨c, pending, _⟩) hobject).outcome_eq hverdict
  | _ => cases hverdict

theorem Course.transfers (h : Course setup object c pending events)
    (hmove : MustMove setup object metadata events) :
    ∃ moved inquiry, events = moved ++ inquiry ∧ (∀ x ∈ inquiry, x.IsHead) ∧
      Transfer setup object metadata ⟨c, pending, moved⟩ := by
  obtain ⟨hsaid, hmove⟩ := hmove
  cases h with
  | tooLarge | aboveSkip | pausing | missing | notFound | undescribed => simp at hsaid
  | describing _ _ hdue => simp [hdue.sourceSaid_iff] at hsaid
  | comparing _ hforce _ hdue => simp [hforce, hdue.targetSaid_iff] at hmove
  | uncompared _ hforce => simp [hforce] at hmove
  | current _ hforce _ hcurrent =>
    obtain rfl : metadata = _ := by simpa using hsaid
    simp [hforce, hcurrent] at hmove
  | transferring _ hinquiry hobject h =>
    obtain rfl := hinquiry.eq_of_said ((sourceSaid_append h.not_isHead).mp hsaid)
    exact ⟨_, _, rfl, hinquiry.isHead, h.transfer (v := ⟨c, pending, _⟩) hobject⟩

theorem Course.mustMove_of_migrated (h : Course setup object c pending events) {mode : TransferMode}
    {bytes : Nat} (hverdict : c.verdict? = some (.ok (.migrated mode bytes))) :
    mode = transferMode setup object ∧ bytes = object.size ∧
      ∃ metadata, MustMove setup object metadata events := by
  cases h with
  | transferring _ hinquiry hobject h =>
    have houtcome := (h.transfer (v := ⟨c, pending, _⟩) hobject).outcome_eq hverdict
    cases houtcome
    exact ⟨rfl, rfl, _, hinquiry.mustMove.append _⟩
  | _ => cases hverdict

theorem Course.overflowed (h : Course setup object c pending events)
    (hphase : c.phase = .overflowed) :
    (∃ metadata, MustMove setup object metadata events) ∧
      (2 ^ 63 - 2 ^ 20 < object.size ∨ 2 ^ 31 - 2 < setup.options.maxParts) := by
  cases h with
  | transferring _ hinquiry hobject h =>
    refine ⟨⟨_, hinquiry.mustMove.append _⟩, ?_⟩
    obtain ⟨-, hplan⟩ := (h.transfer (v := ⟨c, pending, _⟩) hobject).overflowed hphase
    by_contra hsmall
    obtain ⟨hsize, hparts⟩ := not_or.mp hsmall
    exact Layout.plan?_ne_none _ (Nat.not_lt.mp hsize) (Nat.not_lt.mp hparts) hplan
  | _ => cases hphase

theorem Course.decision {v : Conversation}
    (h : Course setup object v.copy v.pending v.events) : Decision setup object v where
  sizeExceeded_iff := by
    intro key size limit
    rw [← setup.options.maxObjectSize_eq]
    rcases h.sized with ⟨hsize, -, hverdict⟩ | ⟨hsize, -, -, hverdict⟩ | ⟨hadmitted, hnone⟩
    · simp [hverdict, hsize, eq_comm]
    · simp [hverdict, Nat.not_lt.mpr hsize]
    · simp only [Nat.not_lt.mpr hadmitted.le_maxObjectSize, false_and, iff_false]
      exact fun hverdict => hnone _ hverdict trivial
  skipLimitExceeded_iff := by
    intro key size limit
    rw [← setup.options.maxObjectSize_eq]
    rcases h.sized with ⟨hsize, -, hverdict⟩ | ⟨hsize, hskip, -, hverdict⟩ | ⟨hadmitted, hnone⟩
    · simp [hverdict, Nat.not_le.mpr hsize]
    · simp [hverdict, hsize, hskip, eq_comm]
    · have hunskipped := hadmitted.unskipped
      refine ⟨fun hverdict => absurd trivial (hnone _ hverdict), ?_⟩
      rintro ⟨-, hpos, hlt, -⟩
      omega
  uncalled := by
    intro hnot
    rcases h.sized with ⟨-, hevents, -⟩ | ⟨-, -, hevents, -⟩ | ⟨hadmitted, -⟩
    · exact hevents
    · exact hevents
    · exact absurd hadmitted hnot
  order := h.order
  asked := h.asked
  attempts := h.count_le
  sourceNotFound_iff := h.sourceNotFound_iff
  metadataFetch := fun _ _ _ => h.metadataFetch
  compared := fun hforce _ => h.compared hforce
  uncompared := fun _ => h.uncompared_of_said
  targetCurrent_iff := h.targetCurrent_iff
  leftAlone := h.leftAlone
  transfers := fun _ => h.transfers
  migrated := fun _ _ => h.mustMove_of_migrated
  overflowed := h.overflowed
  skipped_iff := v.copy.status?_eq_skipped_iff
  migrated_iff := v.copy.status?_eq_migrated_iff

end Course

/-- A conversation of a copy, and what the copy has done besides, in order. -/
structure CopyRun where
  talk : Conversation
  effects : List Effect

namespace CopyRun

def start (setup : Setup) (object : ObjectDescriptor) : CopyRun :=
  ⟨⟨(ObjectCopy.start setup object).1, [], []⟩, (ObjectCopy.start setup object).2⟩

/-- The steps of a conversation, each with its effects. -/
inductive Step (setup : Setup) : CopyRun → CopyRun → Prop
  | call {a : CopyRun} {lane : Lane} {call : Call} (hcall : a.talk.copy.call? setup lane = some call)
      (hfree : lane ∉ a.talk.pending) :
      Step setup a ⟨⟨a.talk.copy, lane :: a.talk.pending, .called lane call :: a.talk.events⟩,
        a.effects⟩
  | answer {a : CopyRun} {lane : Lane} {call : Call} {reply : Reply} {next : ObjectCopy.Next}
      (hpending : lane ∈ a.talk.pending) (hcall : a.talk.copy.call? setup lane = some call)
      (hnext : a.talk.copy.resume setup lane reply = some next) :
      Step setup a ⟨⟨next.1, a.talk.pending.erase lane, .answered lane call reply :: a.talk.events⟩,
        a.effects ++ next.2⟩
  | startPart {a : CopyRun} {s : Session} {part : PartRange} {waiting : List PartRange}
      {next : ObjectCopy.Next} (hphase : a.talk.copy.phase = .copying s)
      (hwaiting : s.waiting = part :: waiting) (hnext : a.talk.copy.startPart setup = some next) :
      Step setup a ⟨⟨next.1, a.talk.pending, .begun part.number :: a.talk.events⟩,
        a.effects ++ next.2⟩
  | wake {a : CopyRun} {next : ObjectCopy.Next} (hnext : a.talk.copy.wake = some next) :
      Step setup a ⟨⟨next.1, a.talk.pending, a.talk.events⟩, a.effects ++ next.2⟩

abbrev Reach (setup : Setup) : CopyRun → CopyRun → Prop :=
  Relation.ReflTransGen (Step setup)

/-- The tally of a migration after what a copy has done. -/
def tally (a : CopyRun) (p : Progress) : Progress :=
  a.effects.foldl Effect.count p

variable {setup : Setup} {object : ObjectDescriptor} {a b : CopyRun}

theorem Step.talk (h : Step setup a b) : Conversation.Step setup a.talk b.talk := by
  cases h with
  | call hcall hfree => exact .call hcall hfree
  | answer hpending hcall hnext => exact .answer hpending hcall hnext
  | startPart hphase hwaiting hnext => exact .startPart hphase hwaiting hnext
  | wake hnext => exact .wake hnext

theorem Step.moves (h : Step setup a b) :
    (b.talk.copy = a.talk.copy ∧ b.effects = a.effects) ∨
      ∃ next, a.talk.copy.Moves setup next ∧ b.talk.copy = next.1 ∧
        b.effects = a.effects ++ next.2 := by
  cases h with
  | call => exact .inl ⟨rfl, rfl⟩
  | answer _ _ hnext => exact .inr ⟨_, .reply hnext, rfl, rfl⟩
  | startPart _ _ hnext => exact .inr ⟨_, .startPart hnext, rfl, rfl⟩
  | wake hnext => exact .inr ⟨_, .wake hnext, rfl, rfl⟩

theorem exists_step {w : Conversation} (h : Conversation.Step setup a.talk w) :
    ∃ b, Step setup a b := by
  cases h with
  | call hcall hfree => exact ⟨_, .call hcall hfree⟩
  | answer hpending hcall hnext => exact ⟨_, .answer hpending hcall hnext⟩
  | startPart hphase hwaiting hnext => exact ⟨_, .startPart hphase hwaiting hnext⟩
  | wake hnext => exact ⟨_, .wake hnext⟩

structure Kept (setup : Setup) (object : ObjectDescriptor) (a : CopyRun) : Prop where
  course : Course setup object a.talk.copy a.talk.pending a.talk.events
  orderly : a.talk.copy.phase.Orderly
  counts : ObjectCopy.Counts (a.talk.copy, a.effects)

theorem kept_start (setup : Setup) (object : ObjectDescriptor) : Kept setup object (start setup object) :=
  ⟨course_start setup object, ObjectCopy.orderly_start setup object,
    ObjectCopy.counts_start object⟩

theorem Kept.counts_append (h : Kept setup object a) {next : ObjectCopy.Next}
    (hmoves : a.talk.copy.Moves setup next) :
    ObjectCopy.Counts (next.1, a.effects ++ next.2) := by
  have hnext := hmoves.counts h.counts.sound
  have hstatus : a.talk.copy.status? = none := by
    rw [ObjectCopy.status?, hmoves.verdict?_eq_none]
    rfl
  have hmigrated := h.counts.migrated
  have hskipped := h.counts.skipped
  simp only [hstatus, reduceCtorEq, if_false] at hmigrated hskipped
  refine ⟨hnext.sound, ?_, ?_⟩
  · rw [List.count_append, hmigrated, hnext.migrated, Nat.zero_add]
  · rw [List.count_append, hskipped, hnext.skipped, Nat.zero_add]

theorem Kept.step (h : Kept setup object a) (hstep : Step setup a b) : Kept setup object b := by
  have hcourse := h.course.step hstep.talk
  rcases hstep.moves with ⟨hcopy, heffects⟩ | ⟨next, hmoves, hcopy, heffects⟩
  · exact ⟨hcourse, hcopy ▸ h.orderly, by rw [hcopy, heffects]; exact h.counts⟩
  · exact ⟨hcourse, hcopy ▸ hmoves.orderly h.orderly,
      by rw [hcopy, heffects]; exact h.counts_append hmoves⟩

theorem Kept.reach (h : Kept setup object a) (hreach : Reach setup a b) : Kept setup object b := by
  induction hreach with
  | refl => exact h
  | tail _ hstep ih => exact ih.step hstep

theorem Kept.exists_step (h : Kept setup object a) (hnone : a.talk.copy.verdict? = none)
    (hflow : a.talk.copy.phase ≠ .overflowed) : ∃ b, Step setup a b := by
  rcases ObjectCopy.exists_call_or_move setup h.orderly hnone hflow with
    ⟨lane, call, hcall⟩ | ⟨next, hnext⟩ | ⟨next, hnext⟩
  · obtain ⟨w, hw⟩ := Conversation.exists_step_of_call? hcall
    exact CopyRun.exists_step hw
  · exact ⟨_, .wake hnext⟩
  · obtain ⟨s, part, waiting, hphase, hwaiting, -⟩ := ObjectCopy.startPart_eq_some hnext
    exact ⟨_, .startPart hphase hwaiting hnext⟩

theorem Kept.inevitable (h : Kept setup object a) :
    Inevitable (Step setup) (fun b =>
      (∃ verdict, b.talk.copy.verdict? = some verdict) ∨ b.talk.copy.phase = .overflowed) a := by
  refine Inevitable.of_measure (Kept setup object)
    (fun b => b.talk.copy.remaining 2 b.talk.left setup) ?_ ?_ h
  · intro b c hb hstep
    refine ⟨hb.step hstep, hstep.talk.remaining_lt ?_⟩
    exact fun s => ObjectCopy.nodup_of_orderly hb.orderly
  · intro b hb hend
    push Not at hend
    exact hb.exists_step (Option.eq_none_iff_forall_ne_some.mpr hend.1) hend.2

/-- The decision about an object. Every copy decides as `Decision` says, whatever the replies are and in
whatever order they come; it counts its object as migrated or skipped once it has ended so, and not
otherwise; and it comes to its end, unless a layout of its object overflows. -/
theorem copy_decides (setup : Setup) (object : ObjectDescriptor) :
    (∀ a, Reach setup (start setup object) a →
      Decision setup object a.talk ∧
        (∀ p, (a.tally p).skipped =
          p.skipped + if a.talk.copy.status? = some .skipped then 1 else 0) ∧
        ∀ p, (a.tally p).migrated =
          p.migrated + if a.talk.copy.status? = some .migrated then 1 else 0) ∧
    Inevitable (Step setup) (fun a =>
      (∃ verdict, a.talk.copy.verdict? = some verdict) ∨ a.talk.copy.phase = .overflowed)
      (start setup object) := by
  have hstart := kept_start setup object
  refine ⟨fun a hreach => ?_, hstart.inevitable⟩
  have hkept := hstart.reach hreach
  refine ⟨hkept.course.decision, fun p => ?_, fun p => ?_⟩
  · rw [tally, Job.foldl_count, ← hkept.counts.skipped]
  · rw [tally, Job.foldl_count, ← hkept.counts.migrated]

end CopyRun

end BucketMigration
