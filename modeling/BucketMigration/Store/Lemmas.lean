import BucketMigration.Store.Basic

/-!
# What the calls of a store change

A store is read through `object?`, `uploads` and `calls`. Here is what each operation does to these
views. The first half of a call only touches the counts and the fault budgets; of the work itself
only a write, a completed upload and a change of the reported part count touch an object.
-/

namespace BucketMigration.Store

variable (s : Store)

theorem object?_write (bucket key : String) (object : StoredObject) (b k : String) :
    (s.write bucket key object).object? b k =
      if bucket = b ∧ key = k then some object else s.object? b k := by
  unfold object? Store.bucket write
  simp only [Std.TreeMap.getD_insert, Std.compare_eq_iff_eq]
  by_cases hb : bucket = b
  · subst hb
    simp only [if_true, true_and, Std.TreeMap.getElem?_insert, Std.compare_eq_iff_eq]
    rfl
  · simp [hb]

theorem object?_congr {s t : Store} (h : s.buckets = t.buckets) : s.object? = t.object? := by
  funext b k
  simp only [object?, Store.bucket, h]

@[simp] theorem object?_takeId : s.takeId.object? = s.object? :=
  object?_congr rfl

theorem object?_insert (bucket key : String) (data : ByteArray) (time : Int) (b k : String) :
    (s.insert bucket key data time).object? b k =
      if bucket = b ∧ key = k then some ⟨data, time, s.etag data.size, none⟩
      else s.object? b k := by
  rw [insert, object?_write, object?_takeId]

@[simp] theorem object?_createUpload (bucket key : String) :
    (s.createUpload bucket key).object? = s.object? :=
  object?_congr rfl

@[simp] theorem object?_uploadPart (bucket key id : String) (part : Int) (data : ByteArray) :
    (s.uploadPart bucket key id part data).2.object? = s.object? := by
  unfold uploadPart
  split <;> exact object?_congr rfl

@[simp] theorem object?_abortUpload (bucket key id : String) :
    (s.abortUpload bucket key id).2.object? = s.object? := by
  unfold abortUpload
  split <;> exact object?_congr rfl

@[simp] theorem uploads_write (bucket key : String) (object : StoredObject) :
    (s.write bucket key object).uploads = s.uploads := rfl

@[simp] theorem uploads_insert (bucket key : String) (data : ByteArray) (time : Int) :
    (s.insert bucket key data time).uploads = s.uploads := rfl

theorem session?_eq_some_iff {bucket key id : String} {session : UploadSession} :
    s.session? bucket key id = some session ↔
      s.uploads[id]? = some session ∧ session.bucket = bucket ∧ session.key = key := by
  simp [session?, Option.filter_eq_some_iff]

@[simp] theorem buckets_enter (r : Request) : (s.enter r).2.buckets = s.buckets := by
  simp only [enter]
  cases Fault.spendFirst? r s.faults with
  | none => cases r.movesData <;> rfl
  | some spent => rfl

@[simp] theorem uploads_enter (r : Request) : (s.enter r).2.uploads = s.uploads := by
  simp only [enter]
  cases Fault.spendFirst? r s.faults with
  | none => cases r.movesData <;> rfl
  | some spent => rfl

@[simp] theorem object?_enter (r : Request) : (s.enter r).2.object? = s.object? :=
  object?_congr (s.buckets_enter r)

@[simp] theorem nextId_enter (r : Request) : (s.enter r).2.nextId = s.nextId := by
  simp only [enter]
  cases Fault.spendFirst? r s.faults with
  | none => cases r.movesData <;> rfl
  | some spent => rfl

theorem calls_enter (r : Request) (operation : Operation) :
    (s.enter r).2.calls operation =
      s.calls operation + if r.operation = operation then 1 else 0 := by
  have h : (s.enter r).2.callLog = r.operation :: s.callLog := by
    simp only [enter]
    cases Fault.spendFirst? r s.faults with
    | none => cases r.movesData <;> rfl
    | some spent => rfl
  rw [calls, calls, h, List.count_cons]
  simp only [beq_iff_eq]

/-- A call is failed in its first half exactly when a fault applies to it. -/
theorem enter_eq_ok_iff {r : Request} :
    (s.enter r).1 = .ok () ↔ ∀ f ∈ s.faults, f.applies r = false := by
  rw [← Fault.spendFirst?_eq_none_iff]
  simp only [enter]
  cases Fault.spendFirst? r s.faults <;> simp

/-- The work of a call changes data and gives ids away. Settings and counts stay. -/
structure Worked (s t : Store) : Prop where
  faults : t.faults = s.faults
  callLog : t.callLog = s.callLog
  latencyMs : t.latencyMs = s.latencyMs
  inFlight : t.inFlight = s.inFlight
  peakInFlight : t.peakInFlight = s.peakInFlight
  dropsTokens : t.dropsTokens = s.dropsTokens
  omitsEtags : t.omitsEtags = s.omitsEtags
  nextId : s.nextId ≤ t.nextId

theorem worked_perform (now : Int) (r : Request) : s.Worked (s.perform now r).2 := by
  have hrefl : s.Worked s := ⟨rfl, rfl, rfl, rfl, rfl, rfl, rfl, Nat.le_refl _⟩
  cases r with
  | list | head | get => exact hrefl
  | put | createUpload => exact { hrefl with nextId := Nat.le_succ _ }
  | uploadPart bucket key id part data =>
    simp only [perform, uploadPart]
    split <;> exact { hrefl with nextId := Nat.le_succ _ }
  | completeUpload bucket key id parts =>
    simp only [perform, completeUpload]
    split
    · exact hrefl
    · split
      · exact hrefl
      · split
        · exact hrefl
        · split
          · exact hrefl
          · exact { hrefl with nextId := Nat.le_succ _ }
  | abortUpload bucket key id =>
    simp only [perform, abortUpload]
    split
    · exact { hrefl with nextId := Nat.le_refl _ }
    · exact hrefl

section Work

variable {s} {bucket key id : String}

theorem finish_uploadPart_unknown (h : s.session? bucket key id = none) (now part : Int)
    (data : ByteArray) :
    s.finish now (.uploadPart bucket key id part data) =
      (.error (unknownUpload bucket key id), s.takeId.land) := by
  simp [finish, perform, uploadPart, h, Request.movesData, Except.map]

theorem finish_uploadPart_known {session : UploadSession} (h : s.session? bucket key id = some session)
    (now part : Int) (data : ByteArray) :
    s.finish now (.uploadPart bucket key id part data) =
      (.ok (.etag (if s.omitsEtags then none else some (s.etag data.size))),
        land { s.takeId with
          uploads := s.uploads.insert id
            (⟨session.bucket, session.key,
              session.parts.insert part ⟨data, s.etag data.size⟩⟩ : UploadSession) }) := by
  simp [finish, perform, uploadPart, h, Request.movesData, Except.map]

theorem finish_completeUpload_unknown (h : s.session? bucket key id = none) (now : Int)
    (parts : List CompletedPart) :
    s.finish now (.completeUpload bucket key id parts) =
      (.error (unknownUpload bucket key id), s) := by
  simp [finish, perform, completeUpload, h, Request.movesData, Except.map]

def completedObject (s : Store) (now : Int) (parts : List CompletedPart) (data : ByteArray) :
    StoredObject :=
  ⟨data, now, "\"" ++ s.etagDigits data.size ++ s!"-{parts.length}\"",
    some (parts.length % Nat.pow 2 32)⟩

theorem finish_completeUpload_known {session : UploadSession}
    (h : s.session? bucket key id = some session) {parts : List CompletedPart} (hne : parts ≠ [])
    (hascending : ascending parts = true) {data : ByteArray}
    (hdata : assemble session .empty parts = .ok data) (now : Int) :
    s.finish now (.completeUpload bucket key id parts) = (.ok .done,
      write { s.takeId with uploads := s.uploads.erase id } bucket key
        (s.completedObject now parts data)) := by
  simp only [finish, perform, completeUpload, h, List.isEmpty_iff, hne, hascending, hdata]
  rfl

theorem finish_completeUpload_cases (s : Store) (now : Int) (bucket key id : String)
    (parts : List CompletedPart) :
    (∃ e, s.finish now (.completeUpload bucket key id parts) = (.error e, s)) ∨
      ∃ session data, s.session? bucket key id = some session ∧ parts ≠ [] ∧
        ascending parts = true ∧ assemble session .empty parts = .ok data := by
  cases hsession : s.session? bucket key id with
  | none => exact .inl ⟨_, finish_completeUpload_unknown hsession now parts⟩
  | some session =>
    by_cases hempty : parts = []
    · left
      refine ⟨.multipart bucket key id "no parts supplied", ?_⟩
      simp only [finish, perform, completeUpload, hsession, hempty]
      rfl
    cases hascending : ascending parts with
    | false =>
      left
      refine ⟨.multipart bucket key id "parts are not in ascending order", ?_⟩
      simp only [finish, perform, completeUpload, hsession, List.isEmpty_iff, hempty, hascending]
      rfl
    | true =>
      cases hdata : assemble session .empty parts with
      | error part =>
        left
        refine ⟨.multipart bucket key id
          s!"part {part.number} was not uploaded with etag {part.etag}", ?_⟩
        simp only [finish, perform, completeUpload, hsession, List.isEmpty_iff, hempty, hascending,
          hdata]
        rfl
      | ok data => exact .inr ⟨session, data, rfl, hempty, rfl, hdata⟩

theorem finish_abortUpload_unknown (h : id ∉ s.uploads) (now : Int) (bucket key : String) :
    s.finish now (.abortUpload bucket key id) = (.error (unknownUpload bucket key id), s) := by
  simp [finish, perform, abortUpload, h, Request.movesData, Except.map]

theorem finish_abortUpload_known (h : id ∈ s.uploads) (now : Int) (bucket key : String) :
    s.finish now (.abortUpload bucket key id) =
      (.ok .done, { s with uploads := s.uploads.erase id }) := by
  simp [finish, perform, abortUpload, h, Request.movesData, Except.map]

end Work

end BucketMigration.Store
