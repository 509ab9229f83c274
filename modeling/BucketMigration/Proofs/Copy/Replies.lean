import BucketMigration.Copy.Step

/-!
# Replies to a copy

What a reply does in each phase, and what the first step of a part does. A reply is either an error
or of the one kind that the call of the phase asks for.
-/

namespace BucketMigration

namespace Reply

variable {reply : Reply}

theorem metadata?_eq_some {result : Except StorageError (Option ObjectMetadata)}
    (h : Reply.metadata? reply = some result) :
    (∃ e, reply = .error e ∧ result = .error e) ∨
      ∃ found, reply = .ok (.metadata found) ∧ result = .ok found := by
  rcases reply with e | answer
  · cases h
    exact .inl ⟨e, rfl, rfl⟩
  · cases answer <;> cases h
    exact .inr ⟨_, rfl, rfl⟩

theorem content?_eq_some {result : Except StorageError ByteArray}
    (h : Reply.content? reply = some result) :
    (∃ e, reply = .error e ∧ result = .error e) ∨
      ∃ data, reply = .ok (.content data) ∧ result = .ok data := by
  rcases reply with e | answer
  · cases h
    exact .inl ⟨e, rfl, rfl⟩
  · cases answer <;> cases h
    exact .inr ⟨_, rfl, rfl⟩

theorem uploadId?_eq_some {result : Except StorageError String}
    (h : Reply.uploadId? reply = some result) :
    (∃ e, reply = .error e ∧ result = .error e) ∨
      ∃ id, reply = .ok (.uploadId id) ∧ result = .ok id := by
  rcases reply with e | answer
  · cases h
    exact .inl ⟨e, rfl, rfl⟩
  · cases answer <;> cases h
    exact .inr ⟨_, rfl, rfl⟩

theorem etag?_eq_some {result : Except StorageError (Option String)}
    (h : Reply.etag? reply = some result) :
    (∃ e, reply = .error e ∧ result = .error e) ∨
      ∃ etag, reply = .ok (.etag etag) ∧ result = .ok etag := by
  rcases reply with e | answer
  · cases h
    exact .inl ⟨e, rfl, rfl⟩
  · cases answer <;> cases h
    exact .inr ⟨_, rfl, rfl⟩

theorem done?_eq_some {result : Except StorageError Unit} (h : Reply.done? reply = some result) :
    (∃ e, reply = .error e ∧ result = .error e) ∨ reply = .ok .done ∧ result = .ok () := by
  rcases reply with e | answer
  · cases h
    exact .inl ⟨e, rfl, rfl⟩
  · cases answer <;> cases h
    exact .inr ⟨rfl, rfl⟩

end Reply

namespace ObjectCopy

variable {setup : Setup} {c : ObjectCopy} {lane : Lane} {reply : Reply} {next : Next}

theorem resume_describing {attempt : Nat} (hphase : c.phase = .describing attempt)
    (h : c.resume setup lane reply = some next) :
    lane = .whole ∧ ∃ result, Reply.metadata? reply = some result ∧
      next = c.described setup attempt result := by
  unfold resume at h
  rw [hphase] at h
  cases lane with
  | part n => cases h
  | whole =>
    obtain ⟨result, hresult, rfl⟩ := Option.map_eq_some_iff.mp h
    exact ⟨rfl, result, hresult, rfl⟩

theorem resume_comparing (hphase : c.phase = .comparing) (h : c.resume setup lane reply = some next) :
    lane = .whole ∧ ∃ result, Reply.metadata? reply = some result ∧
      next = c.compared setup result := by
  unfold resume at h
  rw [hphase] at h
  cases lane with
  | part n => cases h
  | whole =>
    obtain ⟨result, hresult, rfl⟩ := Option.map_eq_some_iff.mp h
    exact ⟨rfl, result, hresult, rfl⟩

theorem resume_reading (hphase : c.phase = .reading) (h : c.resume setup lane reply = some next) :
    lane = .whole ∧
      ((∃ e, reply = .error e ∧ next = c.failCall c.object.key "get object" e) ∨
        ∃ data, reply = .ok (.content data) ∧ next = c.go (.writing data)) := by
  unfold resume at h
  rw [hphase] at h
  cases lane with
  | part n => cases h
  | whole =>
    obtain ⟨result, hresult, rfl⟩ := Option.map_eq_some_iff.mp h
    refine ⟨rfl, ?_⟩
    rcases Reply.content?_eq_some hresult with ⟨e, rfl, rfl⟩ | ⟨data, rfl, rfl⟩
    · exact .inl ⟨e, rfl, rfl⟩
    · exact .inr ⟨data, rfl, rfl⟩

theorem resume_writing {data : ByteArray} (hphase : c.phase = .writing data)
    (h : c.resume setup lane reply = some next) :
    lane = .whole ∧
      ((∃ e, reply = .error e ∧ next = c.failCall (c.targetKey setup) "put object" e) ∨
        reply = .ok .done ∧ next = c.written setup (.ok ())) := by
  unfold resume at h
  rw [hphase] at h
  cases lane with
  | part n => cases h
  | whole =>
    obtain ⟨result, hresult, rfl⟩ := Option.map_eq_some_iff.mp h
    refine ⟨rfl, ?_⟩
    rcases Reply.done?_eq_some hresult with ⟨e, rfl, rfl⟩ | ⟨rfl, rfl⟩
    · exact .inl ⟨e, rfl, rfl⟩
    · exact .inr ⟨rfl, rfl⟩

theorem resume_opening {plan : PartPlan} (hphase : c.phase = .opening plan)
    (h : c.resume setup lane reply = some next) :
    lane = .whole ∧
      ((∃ e, reply = .error e ∧
          next = c.failCall (c.targetKey setup) "create multipart upload" e) ∨
        ∃ id, reply = .ok (.uploadId id) ∧ next = c.opened setup plan (.ok id)) := by
  unfold resume at h
  rw [hphase] at h
  cases lane with
  | part n => cases h
  | whole =>
    obtain ⟨result, hresult, rfl⟩ := Option.map_eq_some_iff.mp h
    refine ⟨rfl, ?_⟩
    rcases Reply.uploadId?_eq_some hresult with ⟨e, rfl, rfl⟩ | ⟨id, rfl, rfl⟩
    · exact .inl ⟨e, rfl, rfl⟩
    · exact .inr ⟨id, rfl, rfl⟩

theorem resume_completing {id : String} {parts : List CompletedPart}
    (hphase : c.phase = .completing id parts) (h : c.resume setup lane reply = some next) :
    lane = .whole ∧
      ((∃ e, reply = .error e ∧
          next = c.abort setup id (.storage (c.targetKey setup) "complete multipart upload" e)) ∨
        reply = .ok .done ∧ next = c.completed setup id (.ok ())) := by
  unfold resume at h
  rw [hphase] at h
  cases lane with
  | part n => cases h
  | whole =>
    obtain ⟨result, hresult, rfl⟩ := Option.map_eq_some_iff.mp h
    refine ⟨rfl, ?_⟩
    rcases Reply.done?_eq_some hresult with ⟨e, rfl, rfl⟩ | ⟨rfl, rfl⟩
    · exact .inl ⟨e, rfl, rfl⟩
    · exact .inr ⟨rfl, rfl⟩

theorem resume_aborting {id : String} {cause : MigrationError}
    (hphase : c.phase = .aborting id cause) (h : c.resume setup lane reply = some next) :
    lane = .whole ∧
      ((∃ e, reply = .error e ∧ next = c.fail (.abortFailed (c.targetKey setup) id e cause)) ∨
        reply = .ok .done ∧ next = c.fail cause) := by
  unfold resume at h
  rw [hphase] at h
  cases lane with
  | part n => cases h
  | whole =>
    obtain ⟨result, hresult, rfl⟩ := Option.map_eq_some_iff.mp h
    refine ⟨rfl, ?_⟩
    rcases Reply.done?_eq_some hresult with ⟨e, rfl, rfl⟩ | ⟨rfl, rfl⟩
    · exact .inl ⟨e, rfl, rfl⟩
    · exact .inr ⟨rfl, rfl⟩

theorem resume_copying {s : Session} (hphase : c.phase = .copying s)
    (h : c.resume setup lane reply = some next) :
    ∃ p, s.active? p.part.number = some p ∧ lane = .part p.part.number ∧
      ((p.data = none ∧ ∃ e, reply = .error e ∧ next = c.partRead setup s p (.error e)) ∨
        (p.data = none ∧ ∃ data, reply = .ok (.content data) ∧
          next = c.partRead setup s p (.ok data)) ∨
        (∃ data, p.data = some data ∧ ∃ e, reply = .error e ∧
          next = c.partWritten setup s p (.error e)) ∨
        ∃ data, p.data = some data ∧ ∃ etag, reply = .ok (.etag etag) ∧
          next = c.partWritten setup s p (.ok etag)) := by
  unfold resume at h
  rw [hphase] at h
  cases lane with
  | whole => cases h
  | part n =>
    dsimp only at h
    split at h
    · cases h
    · rename_i p hp
      have hn : p.part.number = n := by simpa using List.find?_some hp
      subst hn
      refine ⟨p, hp, rfl, ?_⟩
      split at h
      · rename_i hdata
        obtain ⟨result, hresult, rfl⟩ := Option.map_eq_some_iff.mp h
        rcases Reply.content?_eq_some hresult with ⟨e, rfl, rfl⟩ | ⟨data, rfl, rfl⟩
        · exact .inl ⟨hdata, e, rfl, rfl⟩
        · exact .inr (.inl ⟨hdata, data, rfl, rfl⟩)
      · rename_i data hdata
        obtain ⟨result, hresult, rfl⟩ := Option.map_eq_some_iff.mp h
        rcases Reply.etag?_eq_some hresult with ⟨e, rfl, rfl⟩ | ⟨etag, rfl, rfl⟩
        · exact .inr (.inr (.inl ⟨data, hdata, e, rfl, rfl⟩))
        · exact .inr (.inr (.inr ⟨data, hdata, etag, rfl, rfl⟩))

theorem resume_ended {verdict : Verdict} (hphase : c.phase = .ended verdict) :
    c.resume setup lane reply = none := by
  unfold resume
  rw [hphase]
  cases lane <;> rfl

theorem startPart_eq_some (h : c.startPart setup = some next) :
    ∃ s part waiting, c.phase = .copying s ∧ s.waiting = part :: waiting ∧
      s.active.length < setup.options.effectivePartConcurrency ∧
      ((s.hasFailed = true ∧
          next = c.settle setup (Session.finish { s with waiting } part.number .leftOut)) ∨
        s.hasFailed = false ∧
          next = c.go (.copying { s with waiting, active := s.active ++ [⟨part, none⟩] })) := by
  unfold startPart at h
  split at h
  · rename_i s hphase
    split at h
    · cases h
    · rename_i part waiting hw
      split at h
      · rename_i hroom
        refine ⟨s, part, waiting, hphase, hw, hroom, ?_⟩
        dsimp only at h
        split at h
        · rename_i hfailed
          cases h
          exact .inl ⟨hfailed, rfl⟩
        · rename_i hfailed
          cases h
          exact .inr ⟨Bool.eq_false_iff.mpr hfailed, rfl⟩
      · cases h
  · cases h

theorem call?_copying {s : Session} (hphase : c.phase = .copying s) {call : Call}
    (h : c.call? setup lane = some call) :
    ∃ p, s.active? p.part.number = some p ∧ lane = .part p.part.number ∧
      call = p.call setup c.object s.uploadId := by
  cases lane with
  | whole => simp [call?, hphase] at h
  | part n =>
    simp only [call?, hphase, Option.map_eq_some_iff] at h
    obtain ⟨p, hp, rfl⟩ := h
    have hn : p.part.number = n := by simpa using List.find?_some hp
    subst hn
    exact ⟨p, hp, rfl, rfl⟩

theorem call?_ended {verdict : Verdict} (hphase : c.phase = .ended verdict) :
    c.call? setup lane = none := by
  cases lane <;> simp [call?, hphase]

theorem call?_overflowed (hphase : c.phase = .overflowed) : c.call? setup lane = none := by
  cases lane <;> simp [call?, hphase]

theorem exists_resume_error (hcall : c.call? setup lane = some call) (e : StorageError) :
    ∃ next, c.resume setup lane (.error e) = some next := by
  cases lane with
  | whole =>
    cases hphase : c.phase <;> simp only [call?, hphase, reduceCtorEq] at hcall <;>
      simp only [resume, hphase] <;> exact ⟨_, rfl⟩
  | part n =>
    cases hphase : c.phase with
    | copying s =>
      obtain ⟨p, hp, hlane, -⟩ := call?_copying hphase hcall
      rw [hlane]
      simp only [resume, hphase, hp]
      split <;> exact ⟨_, rfl⟩
    | _ => simp [call?, hphase] at hcall

end ObjectCopy

end BucketMigration
