import BucketMigration.Proofs.Copy.Retries
import BucketMigration.Service.Client

/-!
# What comes of a failed request

A failure is told by the status of the response and by the code of the error, and the service alone
names a code. First it is asked whether the object is missing, then whether access is denied, and only
what says neither is a network error, which may be worth another attempt. The metadata of a source is
fetched by that: another attempt follows a failure that may pass, as long as the budget lasts, a missing
object ends the fetch at once, and so does any other failure.
-/

namespace BucketMigration

namespace Service

namespace Failure

variable (f : Failure)

def Names (code : String) : Prop :=
  f.kind = .service ∧ f.code = some code

def SaysMissing : Prop :=
  f.status = some 404 ∨ f.Names "NoSuchKey" ∨ f.Names "NotFound"

def SaysDenied : Prop :=
  f.status = some 403 ∨ f.Names "AccessDenied"

/-- The request got lost on its way, or the service is not ready for it. -/
def MayPass : Prop :=
  f.kind = .timeout ∨ f.kind = .dispatch ∨ f.kind = .response ∨
    f.kind = .service ∧ (∃ status, f.status = some status ∧ (500 ≤ status ∨ status = 429)) ∨
    ∃ code ∈ retryableCodes, f.Names code

/-- Neither a missing object nor denied access, and the failure may pass. -/
def IsTransient : Prop :=
  ¬f.SaysMissing ∧ ¬f.SaysDenied ∧ f.MayPass

/-- The storage error of a failure of a request for an object. -/
def storageError (bucket key message : String) : StorageError :=
  (ClientError.ofFailure f bucket key message).toStorageError

/-- When a failure is which storage error. -/
structure Classified (bucket key message : String) (e : StorageError) : Prop where
  missing : e = .notFound bucket key ↔ f.SaysMissing
  denied : e = .accessDenied bucket key message ↔ ¬f.SaysMissing ∧ f.SaysDenied
  network : ∀ retryable, e = .network message retryable ↔
    ¬f.SaysMissing ∧ ¬f.SaysDenied ∧ (retryable = true ↔ f.MayPass)

variable {f}

theorem knownCode_eq_some_iff {code : String} : f.knownCode = some code ↔ f.Names code := by
  unfold knownCode Names
  split <;> simp [*]

theorem saysNotFound_iff :
    ClientError.saysNotFound f.status f.knownCode = true ↔ f.SaysMissing := by
  simp only [ClientError.saysNotFound, Bool.or_eq_true, beq_iff_eq, knownCode_eq_some_iff,
    SaysMissing, or_assoc]

theorem saysDenied_iff : ClientError.saysDenied f.status f.knownCode = true ↔ f.SaysDenied := by
  simp only [ClientError.saysDenied, Bool.or_eq_true, beq_iff_eq, knownCode_eq_some_iff, SaysDenied]

theorem isRetryable_iff : f.isRetryable = true ↔ f.MayPass := by
  obtain ⟨kind, status, code⟩ := f
  cases kind with
  | construction => simp [isRetryable, MayPass, Names]
  | timeout | dispatch | response => simp [isRetryable, MayPass]
  | service =>
    simp only [isRetryable, MayPass, Names, Bool.or_eq_true, Option.any_eq_true, decide_eq_true_eq,
      beq_iff_eq, List.contains_iff_mem, reduceCtorEq, false_or, true_and]
    refine or_congr_right ⟨?_, ?_⟩
    · rintro ⟨code, hcode, hmem⟩
      exact ⟨code, hmem, hcode⟩
    · rintro ⟨code, hmem, hcode⟩
      exact ⟨code, hcode, hmem⟩

variable (bucket key message : String)

theorem storageError_of_saysMissing (h : f.SaysMissing) :
    f.storageError bucket key message = .notFound bucket key :=
  if_pos (saysNotFound_iff.mpr h)

theorem storageError_of_saysDenied (hnot : ¬f.SaysMissing) (h : f.SaysDenied) :
    f.storageError bucket key message = .accessDenied bucket key message :=
  (if_neg (mt saysNotFound_iff.mp hnot)).trans (if_pos (saysDenied_iff.mpr h))

theorem storageError_of_neither (hmissing : ¬f.SaysMissing) (hdenied : ¬f.SaysDenied) :
    f.storageError bucket key message = .network message f.isRetryable :=
  (if_neg (mt saysNotFound_iff.mp hmissing)).trans (if_neg (mt saysDenied_iff.mp hdenied))

theorem classified : f.Classified bucket key message (f.storageError bucket key message) := by
  by_cases hmissing : f.SaysMissing
  · rw [storageError_of_saysMissing _ _ _ hmissing]
    constructor <;> simp [hmissing]
  by_cases hdenied : f.SaysDenied
  · rw [storageError_of_saysDenied _ _ _ hmissing hdenied]
    constructor <;> simp [hmissing, hdenied]
  rw [storageError_of_neither _ _ _ hmissing hdenied]
  constructor
  · simp [hmissing]
  · simp [hdenied]
  · intro retryable
    rw [StorageError.network.injEq, ← isRetryable_iff, ← Bool.eq_iff_iff]
    simp [hmissing, hdenied, eq_comm]

theorem storageError_ne_notFound (hnot : ¬f.SaysMissing) (bucket' key' : String) :
    f.storageError bucket key message ≠ .notFound bucket' key' := by
  by_cases hdenied : f.SaysDenied
  · rw [storageError_of_saysDenied _ _ _ hnot hdenied]
    nofun
  · rw [storageError_of_neither _ _ _ hnot hdenied]
    nofun

theorem isRetryable_storageError_iff :
    (f.storageError bucket key message).isRetryable = true ↔ f.IsTransient := by
  rw [StorageError.isRetryable_iff]
  constructor
  · rintro ⟨text, he⟩
    by_cases hmissing : f.SaysMissing
    · rw [storageError_of_saysMissing _ _ _ hmissing] at he
      cases he
    by_cases hdenied : f.SaysDenied
    · rw [storageError_of_saysDenied _ _ _ hmissing hdenied] at he
      cases he
    rw [storageError_of_neither _ _ _ hmissing hdenied, StorageError.network.injEq] at he
    exact ⟨hmissing, hdenied, isRetryable_iff.mp he.2⟩
  · rintro ⟨hmissing, hdenied, hpass⟩
    exact ⟨message, ((classified bucket key message).network true).mpr
      ⟨hmissing, hdenied, iff_of_true rfl hpass⟩⟩

end Failure

variable {bucket key : String} {message : Failure → String} {f : Failure}

theorem replyTo_head_of_saysMissing (h : f.SaysMissing) :
    replyTo (.head bucket key) message (.error f) = .ok (.metadata none) := by
  have he := Failure.storageError_of_saysMissing bucket key (message f) h
  rw [Failure.storageError] at he
  simp only [replyTo, replyOfFailure, Request.bucket, Request.key, he]

theorem replyTo_head_of_not_saysMissing (h : ¬f.SaysMissing) :
    replyTo (.head bucket key) message (.error f) =
      .error (f.storageError bucket key (message f)) := by
  simp only [replyTo, replyOfFailure, Request.bucket, Request.key]
  split
  · rename_i he
    exact absurd he (Failure.storageError_ne_notFound bucket key (message f) h _ _)
  · rfl

theorem replyTo_head_eq_none_iff (sent : Except Failure Output) :
    replyTo (.head bucket key) message sent = .ok (.metadata none) ↔
      ∃ f, sent = .error f ∧ f.SaysMissing := by
  cases sent with
  | ok output => simp [replyTo, replyOf]
  | error f =>
    by_cases h : f.SaysMissing
    · simp [replyTo_head_of_saysMissing h, h]
    · simp [replyTo_head_of_not_saysMissing h, h]

end Service

theorem RetrySettings.succ_lt_lastAttempt_iff {settings : RetrySettings}
    {r : Nat → Except StorageError (Option ObjectMetadata)} {n : Nat}
    (hn : n < settings.lastAttempt r) :
    n + 1 < settings.lastAttempt r ↔
      isConclusive (r (n + 1)) = false ∧ n + 1 < settings.attempts := by
  constructor
  · intro hlt
    obtain ⟨-, hle, -, hbefore⟩ := settings.lastAttempt_spec r
    exact ⟨hbefore _ n.succ_pos hlt, hlt.trans_le hle⟩
  · rintro ⟨hopen, hleft⟩
    exact succ_lt_lastAttempt hn hopen hleft

namespace Fetched

variable {setup : Setup} {object : ObjectDescriptor} {n : Nat} {c : ObjectCopy}

theorem eq_of_missing (h : Fetched setup object n (.ok none) c) :
    c = ⟨object, none, .ended (.error (.sourceNotFound setup.source.bucket object.key))⟩ := by
  cases h
  rfl

theorem eq_of_failed {e : StorageError} (h : Fetched setup object n (.error e) c)
    (hother : ∀ bucket key, e ≠ .notFound bucket key) :
    c = ⟨object, none, .ended (.error (.metadataFetch object.key n e))⟩ := by
  cases h with
  | notFound bucket key => exact absurd rfl (hother bucket key)
  | failed => rfl

end Fetched

namespace Fetch

open FetchEvent (results)
open Service (Output replyTo)

variable {setup : Setup} {object : ObjectDescriptor}
  {r : Nat → Except StorageError (Option ObjectMetadata)} {v : Fetch} {n : Nat}

theorem Stage.length_le (h : Stage setup object r v) :
    (results v.events).length ≤ setup.options.metadataRetry.lastAttempt r := by
  have hprefix := (h.events_open_fetchCourse.filterMap FetchEvent.result?).length_le
  rwa [← results, ← results, results_fetchCourse, List.length_map, List.length_range'] at hprefix

theorem Stage.another (h : Stage setup object r v) (hn : (results v.events).length = n + 1)
    (hopen : isConclusive (r (n + 1)) = false)
    (hleft : n + 1 < setup.options.metadataRetry.attempts) :
    Inevitable (Step setup r) (fun w => n + 1 < (results w.events).length) v := by
  have hle := h.length_le
  rw [hn] at hle
  have hlt := RetrySettings.succ_lt_lastAttempt hle hopen hleft
  refine h.inevitable.mono fun w hw => ?_
  rwa [hw, results_fetchCourse, List.length_map, List.length_range']

theorem Stage.fetched (h : Stage setup object r v) (hn : (results v.events).length = n + 1)
    (hlast : ¬(isConclusive (r (n + 1)) = false ∧
      n + 1 < setup.options.metadataRetry.attempts)) :
    Fetched setup object (n + 1) (r (n + 1)) v.copy := by
  have hle := h.length_le
  rw [hn] at hle
  have heq : setup.options.metadataRetry.lastAttempt r = n + 1 := by
    rw [← RetrySettings.succ_lt_lastAttempt_iff hle] at hlast
    omega
  cases h with
  | @describing m hm =>
    rw [length_fetchRounds] at hn
    omega
  | @pausing m hm =>
    rw [FetchEvent.results_append, List.length_append, length_fetchRounds] at hn
    change m + 1 = n + 1 at hn
    omega
  | settled _ hfetched =>
    rw [heq] at hfetched
    exact hfetched

theorem Stage.copy_ne_ended (h : Stage setup object r v)
    (hn : (results v.events).length < setup.options.metadataRetry.lastAttempt r)
    (verdict : Verdict) : v.copy ≠ ⟨object, none, .ended verdict⟩ := by
  cases h with
  | describing | pausing => nofun
  | settled =>
    rw [results_fetchCourse, List.length_map, List.length_range'] at hn
    exact absurd hn (Nat.lt_irrefl _)

/-- How a fetch goes on when its attempt number `n` is answered by a failure. -/
structure AfterFailure (setup : Setup) (object : ObjectDescriptor)
    (r : Nat → Except StorageError (Option ObjectMetadata)) (n : Nat) (f : Service.Failure)
    (message : String) (v : Fetch) : Prop where
  again : (∃ w, Reach setup r v w ∧ n < (results w.events).length) ↔
    f.IsTransient ∧ n < max setup.options.metadataRetry.maxAttempts 1
  goesOn : f.IsTransient ∧ n < max setup.options.metadataRetry.maxAttempts 1 →
    Inevitable (Step setup r) (fun w => n < (results w.events).length) v
  missing : v.copy =
      ⟨object, none, .ended (.error (.sourceNotFound setup.source.bucket object.key))⟩ ↔
    f.SaysMissing
  otherwise : v.copy = ⟨object, none, .ended (.error (.metadataFetch object.key n
      (f.storageError setup.source.bucket object.key message)))⟩ ↔
    ¬f.SaysMissing ∧ ¬(f.IsTransient ∧ n < max setup.options.metadataRetry.maxAttempts 1)

theorem result_cases {message : Service.Failure → String} {f : Service.Failure}
    {result : Except StorageError (Option ObjectMetadata)} {bucket key : String}
    (h : Reply.metadata? (replyTo (.head bucket key) message (.error f)) = some result) :
    (isConclusive result = false ↔ f.IsTransient) ∧
      (f.SaysMissing ∧ result = .ok none ∨
        ¬f.SaysMissing ∧ result = .error (f.storageError bucket key (message f))) := by
  by_cases hmissing : f.SaysMissing
  · rw [Service.replyTo_head_of_saysMissing hmissing] at h
    cases h
    exact ⟨⟨nofun, fun htransient => absurd hmissing htransient.1⟩, .inl ⟨hmissing, rfl⟩⟩
  · rw [Service.replyTo_head_of_not_saysMissing hmissing] at h
    cases h
    refine ⟨?_, .inr ⟨hmissing, rfl⟩⟩
    rw [← Service.Failure.isRetryable_storageError_iff bucket key (message f), isConclusive_error]
    cases (f.storageError bucket key (message f)).isRetryable <;> simp

theorem Stage.ending (h : Stage setup object r v) {message : Service.Failure → String}
    {f : Service.Failure} (hn : (results v.events).length = n + 1)
    (hr : Reply.metadata? (replyTo (.head setup.source.bucket object.key) message (.error f)) =
      some (r (n + 1))) :
    f.SaysMissing ∧
        v.copy = ⟨object, none, .ended (.error (.sourceNotFound setup.source.bucket object.key))⟩ ∨
      ¬f.SaysMissing ∧ (¬(f.IsTransient ∧ n + 1 < setup.options.metadataRetry.attempts) →
        v.copy = ⟨object, none, .ended (.error (.metadataFetch object.key (n + 1)
          (f.storageError setup.source.bucket object.key (message f))))⟩) := by
  obtain ⟨hopen, hcases⟩ := result_cases hr
  have hfetched : ¬(f.IsTransient ∧ n + 1 < setup.options.metadataRetry.attempts) →
      Fetched setup object (n + 1) (r (n + 1)) v.copy := by
    rw [← hopen]
    exact h.fetched hn
  rcases hcases with ⟨hmissing, hresult⟩ | ⟨hmissing, hresult⟩
  · rw [hresult] at hfetched
    exact .inl ⟨hmissing, (hfetched fun hgo => hgo.1.1 hmissing).eq_of_missing⟩
  · rw [hresult] at hfetched
    exact .inr ⟨hmissing, fun hlast => (hfetched hlast).eq_of_failed
      fun bucket key => Service.Failure.storageError_ne_notFound _ _ _ hmissing bucket key⟩

theorem Stage.afterFailure (h : Stage setup object r v) {message : Service.Failure → String}
    {f : Service.Failure} (hn : (results v.events).length = n + 1)
    (hr : Reply.metadata? (replyTo (.head setup.source.bucket object.key) message (.error f)) =
      some (r (n + 1))) :
    AfterFailure setup object r (n + 1) f (message f) v := by
  obtain ⟨hopen, -⟩ := result_cases hr
  have hle := h.length_le
  rw [hn] at hle
  have hlast := RetrySettings.succ_lt_lastAttempt_iff hle
  rw [hopen] at hlast
  have hgoes : f.IsTransient ∧ n + 1 < setup.options.metadataRetry.attempts →
      Inevitable (Step setup r) (fun w => n + 1 < (results w.events).length) v :=
    fun hgo => h.another hn (hopen.mpr hgo.1) hgo.2
  have hunended : f.IsTransient ∧ n + 1 < setup.options.metadataRetry.attempts →
      ∀ verdict, v.copy ≠ ⟨object, none, .ended verdict⟩ :=
    fun hgo => h.copy_ne_ended (by rw [hn]; exact hlast.mpr hgo)
  constructor
  · constructor
    · rintro ⟨w, hreach, hlt⟩
      exact hlast.mp (hlt.trans_le (h.reach hreach).length_le)
    · exact fun hgo => (hgoes hgo).exists_reach
  · exact hgoes
  · rcases h.ending hn hr with ⟨hmissing, hcopy⟩ | ⟨hmissing, hcopy⟩
    · exact iff_of_true hcopy hmissing
    · refine iff_of_false (fun hgone => ?_) hmissing
      have hended := hcopy fun hgo => hunended hgo _ hgone
      rw [hgone] at hended
      cases hended
  · rcases h.ending hn hr with ⟨hmissing, hcopy⟩ | ⟨hmissing, hcopy⟩
    · refine iff_of_false ?_ fun hother => hother.1 hmissing
      rw [hcopy]
      nofun
    · exact ⟨fun hended => ⟨hmissing, fun hgo => hunended hgo _ hended⟩, fun hother => hcopy hother.2⟩

/-- The status and the code of a failure tell the storage error it is. There is no metadata exactly if
they say that the object is missing, and a fetch of the metadata goes on after a failed attempt exactly
if the failure may pass and the budget lasts. -/
theorem failures_decide_fetch (setup : Setup) (object : ObjectDescriptor)
    (sent : Nat → Except Service.Failure Output) (message : Nat → Service.Failure → String)
    (r : Nat → Except StorageError (Option ObjectMetadata))
    (hr : ∀ n, Reply.metadata?
      (replyTo (.head setup.source.bucket object.key) (message n) (sent n)) = some (r n)) :
    (∀ (f : Service.Failure) bucket key text,
      f.Classified bucket key text (f.storageError bucket key text)) ∧
    (∀ bucket key text sent, replyTo (.head bucket key) text sent = .ok (.metadata none) ↔
      ∃ f, sent = .error f ∧ f.SaysMissing) ∧
    ∀ v, Reach setup r ⟨⟨object, none, .describing 1⟩, []⟩ v →
      ∀ n f, (results v.events).length = n + 1 → sent (n + 1) = .error f →
        AfterFailure setup object r (n + 1) f (message (n + 1) f) v := by
  refine ⟨fun f bucket key text => Service.Failure.classified bucket key text,
    fun _ _ _ sent => Service.replyTo_head_eq_none_iff sent, ?_⟩
  intro v hreach n f hn hsent
  have hstart := @Stage.describing setup object r 0
    (setup.options.metadataRetry.lastAttempt_spec r).1
  refine (hstart.reach hreach).afterFailure hn ?_
  rw [← hsent]
  exact hr (n + 1)

/-- The service is busy at first, and then denies access to a key that it does not have. -/
def busyThenGone : Nat → Except Service.Failure Output
  | 1 => .error ⟨.service, some 503, some "SlowDown"⟩
  | _ => .error ⟨.service, some 403, some "NoSuchKey"⟩

def busyThenGoneResults : Nat → Except StorageError (Option ObjectMetadata)
  | 1 => .error (.network "busy" true)
  | _ => .ok none

theorem fetch_busyThenGone :
    (∀ n, Reply.metadata? (replyTo (.head "from" "k") (fun _ => "busy") (busyThenGone n)) =
      some (busyThenGoneResults n)) ∧
    ∃ v w, Reach plainSetup busyThenGoneResults ⟨⟨⟨"k", 1⟩, none, .describing 1⟩, []⟩ v ∧
      (results v.events).length = 1 ∧
      AfterFailure plainSetup ⟨"k", 1⟩ busyThenGoneResults 1
        ⟨.service, some 503, some "SlowDown"⟩ "busy" v ∧
      Reach plainSetup busyThenGoneResults v w ∧ (results w.events).length = 2 ∧
      AfterFailure plainSetup ⟨"k", 1⟩ busyThenGoneResults 2
        ⟨.service, some 403, some "NoSuchKey"⟩ "busy" w := by
  have hr : ∀ n, Reply.metadata? (replyTo (.head "from" "k") (fun _ => "busy") (busyThenGone n)) =
      some (busyThenGoneResults n) := by
    intro n
    unfold busyThenGone busyThenGoneResults
    split <;> rfl
  have hbusy := @Step.attempt plainSetup busyThenGoneResults
    ⟨⟨⟨"k", 1⟩, none, .describing 1⟩, []⟩ .whole (.error (.network "busy" true)) _ rfl rfl rfl
  have hpause := @Step.pause plainSetup busyThenGoneResults
    ⟨⟨⟨"k", 1⟩, none, .pausing 1⟩, [.attempted (busyThenGoneResults 1)]⟩ _ _ rfl rfl
  have hgone := @Step.attempt plainSetup busyThenGoneResults ⟨⟨⟨"k", 1⟩, none, .describing 2⟩,
    [.attempted (busyThenGoneResults 1), .paused (plainSetup.options.metadataRetry.backoff 1)]⟩ .whole
    (.ok (.metadata none)) _ rfl rfl rfl
  have hfirst := Relation.ReflTransGen.single hbusy
  have hsecond := ((Relation.ReflTransGen.refl).tail hpause).tail hgone
  obtain ⟨-, -, hafter⟩ := failures_decide_fetch plainSetup ⟨"k", 1⟩ busyThenGone
    (fun _ _ => "busy") busyThenGoneResults hr
  exact ⟨hr, _, _, hfirst, rfl, hafter _ hfirst 0 _ rfl rfl, hsecond, rfl,
    hafter _ (hfirst.trans hsecond) 1 _ rfl rfl⟩

end Fetch

end BucketMigration
