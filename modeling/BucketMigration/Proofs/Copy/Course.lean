import BucketMigration.Proofs.Copy.Transfer

/-!
# The course of a copy

What has happened in a copy since its start is fixed by how far it has come. An object that is too
large, or above the skip size, is left alone at once. Otherwise the source is asked for its metadata
until it tells, the target is asked once unless it is to be overwritten anyway, and then the bytes are
moved. `Course` has one case for each of these stages and one for each way to end before the last.
-/

namespace BucketMigration

/-- The target holds a copy at least as new as the source. Both times have to be known. -/
def Current (metadata : ObjectMetadata) (found : Option ObjectMetadata) : Prop :=
  ∃ modified copied, metadata.lastModified = some modified ∧
    found.bind ObjectMetadata.lastModified = some copied ∧ modified ≤ copied

theorem ObjectCopy.isCurrent_iff {c : ObjectCopy} {metadata : ObjectMetadata}
    (h : c.metadata = some metadata) (found : Option ObjectMetadata) :
    c.isCurrent found = true ↔ Current metadata found := by
  unfold isCurrent Current
  rw [h, Option.bind_some]
  cases found.bind ObjectMetadata.lastModified <;> cases metadata.lastModified <;> simp

theorem MigrationOptions.maxObjectSize_eq (options : MigrationOptions) :
    options.maxObjectSize = min (options.maxParts * options.maxPartSize) (2 ^ 64 - 1) := rfl

/-- An object that neither size limit keeps from being looked at. -/
structure Admitted (options : MigrationOptions) (size : Nat) : Prop where
  fits : size ≤ min (options.maxParts * options.maxPartSize) (2 ^ 64 - 1)
  unskipped : options.skipSize = 0 ∨ size ≤ options.skipSize

theorem Admitted.le_maxObjectSize {options : MigrationOptions} {size : Nat}
    (h : Admitted options size) : size ≤ options.maxObjectSize := by
  rw [options.maxObjectSize_eq]
  exact h.fits

section Stages

variable (setup : Setup) (object : ObjectDescriptor)

/-- Attempts to get the metadata of the source that have failed, the newest first. -/
def failedHeads : List StorageError → List CopyEvent
  | [] => []
  | e :: errors => exchange (headSourceCall setup object) (.error e) (failedHeads errors)

/-- All attempts so far have failed in a way that another one is made for. -/
structure Retried (errors : List StorageError) : Prop where
  retryable : ∀ e ∈ errors, e.isRetryable = true
  few : errors.length < setup.options.metadataRetry.attempts

inductive Inquiry (metadata : ObjectMetadata) : List CopyEvent → Prop
  | forced (hforce : setup.options.forceOverwrite = true) {errors : List StorageError}
      (hretried : Retried setup errors) :
      Inquiry metadata (exchange (headSourceCall setup object) (.ok (.metadata (some metadata)))
        (failedHeads setup object errors))
  | compared (hforce : setup.options.forceOverwrite = false) {errors : List StorageError}
      (hretried : Retried setup errors) {found : Option ObjectMetadata}
      (hold : ¬Current metadata found) :
      Inquiry metadata (exchange (headTargetCall setup object) (.ok (.metadata found))
        (exchange (headSourceCall setup object) (.ok (.metadata (some metadata)))
          (failedHeads setup object errors)))

/-- A copy, the lanes that wait for a reply, and what has happened, the newest first. -/
inductive Course : ObjectCopy → List Lane → List CopyEvent → Prop
  | tooLarge (hsize : setup.options.maxObjectSize < object.size) :
      Course ⟨object, none, .ended (.error
        (.sizeExceeded object.key object.size setup.options.maxObjectSize))⟩ [] []
  | aboveSkip (hsize : object.size ≤ setup.options.maxObjectSize)
      (hskip : 0 < setup.options.skipSize ∧ setup.options.skipSize < object.size) :
      Course ⟨object, none, .ended (.error
        (.skipLimitExceeded object.key object.size setup.options.skipSize))⟩ [] []
  | describing (hadmitted : Admitted setup.options object.size) {errors : List StorageError}
      (hretried : Retried setup errors) {pending : List Lane} {events : List CopyEvent}
      (hdue : Due (headSourceCall setup object) pending events (failedHeads setup object errors)) :
      Course ⟨object, none, .describing (errors.length + 1)⟩ pending events
  | pausing (hadmitted : Admitted setup.options object.size) {errors : List StorageError}
      (hretried : Retried setup errors) :
      Course ⟨object, none, .pausing errors.length⟩ [] (failedHeads setup object errors)
  | missing (hadmitted : Admitted setup.options object.size) {errors : List StorageError}
      (hretried : Retried setup errors) :
      Course ⟨object, none, .ended (.error (.sourceNotFound setup.source.bucket object.key))⟩ []
        (exchange (headSourceCall setup object) (.ok (.metadata none))
          (failedHeads setup object errors))
  | notFound (hadmitted : Admitted setup.options object.size) {errors : List StorageError}
      (hretried : Retried setup errors) (bucket key : String) :
      Course ⟨object, none, .ended (.error (.sourceNotFound bucket key))⟩ []
        (exchange (headSourceCall setup object) (.error (.notFound bucket key))
          (failedHeads setup object errors))
  | undescribed (hadmitted : Admitted setup.options object.size) {errors : List StorageError}
      (hretried : Retried setup errors) {e : StorageError} (hfound : ∀ b k, e ≠ .notFound b k)
      (hlast : e.isRetryable = true →
        setup.options.metadataRetry.attempts = errors.length + 1) :
      Course ⟨object, none, .ended (.error (.metadataFetch object.key (errors.length + 1) e))⟩ []
        (exchange (headSourceCall setup object) (.error e) (failedHeads setup object errors))
  | comparing (hadmitted : Admitted setup.options object.size)
      (hforce : setup.options.forceOverwrite = false) {errors : List StorageError}
      (hretried : Retried setup errors) {metadata : ObjectMetadata} {pending : List Lane}
      {events : List CopyEvent}
      (hdue : Due (headTargetCall setup object) pending events
        (exchange (headSourceCall setup object) (.ok (.metadata (some metadata)))
          (failedHeads setup object errors))) :
      Course ⟨object, some metadata, .comparing⟩ pending events
  | uncompared (hadmitted : Admitted setup.options object.size)
      (hforce : setup.options.forceOverwrite = false) {errors : List StorageError}
      (hretried : Retried setup errors) {metadata : ObjectMetadata} (e : StorageError) :
      Course ⟨object, some metadata, .ended (.error
          (.storage (setup.targetKey object.key) "head target object" e))⟩ []
        (exchange (headTargetCall setup object) (.error e)
          (exchange (headSourceCall setup object) (.ok (.metadata (some metadata)))
            (failedHeads setup object errors)))
  | current (hadmitted : Admitted setup.options object.size)
      (hforce : setup.options.forceOverwrite = false) {errors : List StorageError}
      (hretried : Retried setup errors) {metadata : ObjectMetadata} {found : Option ObjectMetadata}
      (hcurrent : Current metadata found) :
      Course ⟨object, some metadata, .ended (.ok .targetCurrent)⟩ []
        (exchange (headTargetCall setup object) (.ok (.metadata found))
          (exchange (headSourceCall setup object) (.ok (.metadata (some metadata)))
            (failedHeads setup object errors)))
  | transferring (hadmitted : Admitted setup.options object.size) {metadata : ObjectMetadata}
      {inquiry : List CopyEvent} (hinquiry : Inquiry setup object metadata inquiry)
      {c : ObjectCopy} (hobject : c.object = object) {pending : List Lane}
      {events : List CopyEvent}
      (h : TransferStory setup object metadata c.phase pending events) :
      Course c pending (events ++ inquiry)

end Stages

section Step

variable {setup : Setup} {object : ObjectDescriptor} {v w : Conversation}

theorem course_start (setup : Setup) (object : ObjectDescriptor) :
    Course setup object (ObjectCopy.start setup object).1 [] [] := by
  have hretried : Retried setup [] := ⟨by simp, setup.options.metadataRetry.attempts_pos⟩
  unfold ObjectCopy.start
  dsimp only
  split
  · exact .tooLarge ‹_›
  · rename_i hfits
    split
    · exact .aboveSkip (Nat.not_lt.mp hfits) ‹_›
    · have hadmitted : Admitted setup.options object.size := ⟨Nat.not_lt.mp hfits, by omega⟩
      exact .describing hadmitted hretried (.inl ⟨rfl, rfl⟩)

theorem Conversation.Step.of_append {c : ObjectCopy} {pending : List Lane}
    {events inquiry : List CopyEvent} (h : Step setup ⟨c, pending, events ++ inquiry⟩ w) :
    ∃ events', w.events = events' ++ inquiry ∧
      Step setup ⟨c, pending, events⟩ ⟨w.copy, w.pending, events'⟩ := by
  cases h with
  | call hcall hfree => exact ⟨_ :: events, rfl, .call hcall hfree⟩
  | answer hpending hcall hnext => exact ⟨_ :: events, rfl, .answer hpending hcall hnext⟩
  | startPart hphase hwaiting hnext => exact ⟨_ :: events, rfl, .startPart hphase hwaiting hnext⟩
  | wake hnext => exact ⟨events, rfl, .wake hnext⟩

variable {errors : List StorageError}

theorem Retried.course_described (hadmitted : Admitted setup.options object.size)
    (hretried : Retried setup errors) {reply : Reply}
    {result : Except StorageError (Option ObjectMetadata)}
    (hresult : Reply.metadata? reply = some result) :
    Course setup object (ObjectCopy.described setup
        ⟨object, none, .describing (errors.length + 1)⟩ (errors.length + 1) result).1 []
      (exchange (headSourceCall setup object) reply (failedHeads setup object errors)) := by
  have hfew := hretried.few
  rcases Reply.metadata?_eq_some hresult with ⟨e, rfl, rfl⟩ | ⟨found, rfl, rfl⟩
  · simp only [ObjectCopy.described]
    split
    · rename_i hagain
      have hretried : Retried setup (e :: errors) :=
        ⟨List.forall_mem_cons.mpr ⟨hagain.1, hretried.retryable⟩, hagain.2⟩
      exact .pausing hadmitted hretried
    · rename_i hlast
      split
      · exact .notFound hadmitted hretried _ _
      · refine .undescribed hadmitted hretried ‹_› fun hretryable => ?_
        have hle := Nat.not_lt.mp fun hlt => hlast ⟨hretryable, hlt⟩
        omega
  · cases found with
    | none => exact .missing hadmitted hretried
    | some metadata =>
      simp only [ObjectCopy.described]
      split
      · rename_i hforce
        exact .transferring hadmitted (.forced hforce hretried) (ObjectCopy.object_transfer ..)
          (transferStory_transfer rfl rfl)
      · exact .comparing hadmitted (Bool.eq_false_iff.mpr ‹_›) hretried (.inl ⟨rfl, rfl⟩)

theorem Retried.course_compared (hadmitted : Admitted setup.options object.size)
    (hforce : setup.options.forceOverwrite = false) (hretried : Retried setup errors)
    {metadata : ObjectMetadata} {reply : Reply}
    {result : Except StorageError (Option ObjectMetadata)}
    (hresult : Reply.metadata? reply = some result) :
    Course setup object
      (ObjectCopy.compared setup ⟨object, some metadata, .comparing⟩ result).1 []
      (exchange (headTargetCall setup object) reply
        (exchange (headSourceCall setup object) (.ok (.metadata (some metadata)))
          (failedHeads setup object errors))) := by
  rcases Reply.metadata?_eq_some hresult with ⟨e, rfl, rfl⟩ | ⟨found, rfl, rfl⟩
  · exact .uncompared hadmitted hforce hretried e
  · have hmetadata : ObjectCopy.metadata ⟨object, some metadata, .comparing⟩ = some metadata := rfl
    have hcurrent := ObjectCopy.isCurrent_iff hmetadata found
    simp only [ObjectCopy.compared]
    split
    · exact .current hadmitted hforce hretried (hcurrent.mp ‹_›)
    · exact .transferring hadmitted
        (.compared hforce hretried fun hnew => absurd (hcurrent.mpr hnew) ‹_›)
        (ObjectCopy.object_transfer ..) (transferStory_transfer rfl rfl)

theorem Course.step (h : Course setup object v.copy v.pending v.events)
    (hstep : Conversation.Step setup v w) : Course setup object w.copy w.pending w.events := by
  have hnone := hstep.verdict?_eq_none
  rcases v with ⟨c, pending, events⟩
  cases h with
  | describing hadmitted hretried hdue =>
    rcases hstep.of_asks (ObjectCopy.asks_describing rfl) hdue with
      ⟨hcopy, hdue⟩ | ⟨reply, next, hnext, rfl⟩
    · rw [hcopy]
      exact .describing hadmitted hretried hdue
    · obtain ⟨-, result, hresult, rfl⟩ := ObjectCopy.resume_describing rfl hnext
      exact hretried.course_described hadmitted hresult
  | pausing hadmitted hretried =>
    cases hstep with
    | @call lane _ hcall _ => cases lane <;> cases hcall
    | answer hpending _ _ => cases hpending
    | startPart hphase _ _ => cases hphase
    | wake hnext =>
      cases hnext
      exact .describing hadmitted hretried (.inl ⟨rfl, rfl⟩)
  | @comparing hadmitted hforce errors hretried metadata _ _ hdue =>
    have hasks : ObjectCopy.Asks setup ⟨object, some metadata, .comparing⟩
        (headTargetCall setup object) :=
      ObjectCopy.asks_comparing rfl
    rcases hstep.of_asks hasks hdue with
      ⟨hcopy, hdue⟩ | ⟨reply, next, hnext, rfl⟩
    · rw [hcopy]
      exact .comparing hadmitted hforce hretried hdue
    · obtain ⟨-, result, hresult, rfl⟩ := ObjectCopy.resume_comparing rfl hnext
      exact hretried.course_compared hadmitted hforce hresult
  | @transferring hadmitted metadata inquiry hinquiry _ hobject _ events h =>
    obtain ⟨events', hevents, hstep⟩ := hstep.of_append
    obtain ⟨hobject, h⟩ := TransferStory.step (v := ⟨c, pending, events⟩) hobject h hstep
    rw [hevents]
    exact .transferring hadmitted hinquiry hobject h
  | _ => cases hnone

end Step

section Said

variable (setup : Setup) (object : ObjectDescriptor) (events : List CopyEvent)

/-- The source has answered for the metadata of the object. -/
def SourceSaid (reply : Reply) : Prop :=
  .answered .whole (headSourceCall setup object) reply ∈ events

/-- The target has answered for the metadata of the object. -/
def TargetSaid (reply : Reply) : Prop :=
  .answered .whole (headTargetCall setup object) reply ∈ events

end Said

section Said

variable {setup : Setup} {object : ObjectDescriptor} {events before : List CopyEvent}
  {reply given : Reply} {errors : List StorageError}

theorem headTargetCall_ne_headSourceCall (setup : Setup) (object : ObjectDescriptor) :
    headTargetCall setup object ≠ headSourceCall setup object := by
  simp [headTargetCall, headSourceCall]

@[simp] theorem sourceSaid_nil : ¬SourceSaid setup object [] reply :=
  List.not_mem_nil

@[simp] theorem targetSaid_nil : ¬TargetSaid setup object [] reply :=
  List.not_mem_nil

@[simp] theorem sourceSaid_exchange_source :
    SourceSaid setup object (exchange (headSourceCall setup object) given before) reply ↔
      reply = given ∨ SourceSaid setup object before reply := by
  simp [SourceSaid, exchange]

@[simp] theorem sourceSaid_exchange_target :
    SourceSaid setup object (exchange (headTargetCall setup object) given before) reply ↔
      SourceSaid setup object before reply := by
  simp [SourceSaid, exchange, (headTargetCall_ne_headSourceCall setup object).symm]

@[simp] theorem targetSaid_exchange_source :
    TargetSaid setup object (exchange (headSourceCall setup object) given before) reply ↔
      TargetSaid setup object before reply := by
  simp [TargetSaid, exchange, headTargetCall_ne_headSourceCall]

@[simp] theorem targetSaid_exchange_target :
    TargetSaid setup object (exchange (headTargetCall setup object) given before) reply ↔
      reply = given ∨ TargetSaid setup object before reply := by
  simp [TargetSaid, exchange]

@[simp] theorem sourceSaid_failedHeads :
    SourceSaid setup object (failedHeads setup object errors) reply ↔
      ∃ e ∈ errors, reply = .error e := by
  induction errors with
  | nil => simp [failedHeads]
  | cons e errors ih => simp [failedHeads, ih]

@[simp] theorem targetSaid_failedHeads :
    ¬TargetSaid setup object (failedHeads setup object errors) reply := by
  induction errors with
  | nil => simp [failedHeads]
  | cons e errors ih => simp [failedHeads, ih]

theorem Due.said_iff {call called : Call} {pending : List Lane} {lane : Lane}
    (h : Due called pending events before) :
    .answered lane call reply ∈ events ↔ .answered lane call reply ∈ before := by
  rcases h with ⟨-, rfl⟩ | ⟨-, rfl⟩ <;> simp

theorem Due.sourceSaid_iff {call : Call} {pending : List Lane}
    (h : Due call pending events before) :
    SourceSaid setup object events reply ↔ SourceSaid setup object before reply :=
  h.said_iff

theorem Due.targetSaid_iff {call : Call} {pending : List Lane}
    (h : Due call pending events before) :
    TargetSaid setup object events reply ↔ TargetSaid setup object before reply :=
  h.said_iff

theorem sourceSaid_append (h : ∀ e ∈ events, ¬e.IsHead) :
    SourceSaid setup object (events ++ before) reply ↔ SourceSaid setup object before reply := by
  rw [SourceSaid, List.mem_append, or_iff_right, SourceSaid]
  exact fun hmem => h _ hmem rfl

theorem targetSaid_append (h : ∀ e ∈ events, ¬e.IsHead) :
    TargetSaid setup object (events ++ before) reply ↔ TargetSaid setup object before reply := by
  rw [TargetSaid, List.mem_append, or_iff_right, TargetSaid]
  exact fun hmem => h _ hmem rfl

theorem Retried.not_mem (h : Retried setup errors) {e : StorageError} (he : e.isRetryable = false) :
    e ∉ errors := by
  intro hmem
  rw [h.retryable e hmem] at he
  cases he

theorem Inquiry.sourceSaid_iff {metadata : ObjectMetadata} {inquiry : List CopyEvent}
    (h : Inquiry setup object metadata inquiry) :
    ∃ errors, Retried setup errors ∧ ∀ reply, SourceSaid setup object inquiry reply ↔
      reply = .ok (.metadata (some metadata)) ∨ ∃ e ∈ errors, reply = .error e := by
  cases h with
  | forced _ hretried => exact ⟨_, hretried, by simp⟩
  | compared _ hretried => exact ⟨_, hretried, by simp⟩

theorem Inquiry.eq_of_said {metadata told : ObjectMetadata} {inquiry : List CopyEvent}
    (h : Inquiry setup object metadata inquiry)
    (hsaid : SourceSaid setup object inquiry (.ok (.metadata (some told)))) : told = metadata := by
  obtain ⟨errors, -, hiff⟩ := h.sourceSaid_iff
  simpa using (hiff _).mp hsaid

theorem Inquiry.of_targetSaid {metadata : ObjectMetadata} {inquiry : List CopyEvent}
    (h : Inquiry setup object metadata inquiry) (hsaid : TargetSaid setup object inquiry reply) :
    ∃ found, reply = .ok (.metadata found) ∧ ¬Current metadata found := by
  cases h with
  | forced => simp at hsaid
  | compared _ _ hold => exact ⟨_, by simpa using hsaid, hold⟩

end Said

end BucketMigration
