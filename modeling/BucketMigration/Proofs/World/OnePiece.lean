import BucketMigration.Proofs.World.Service

/-!
# Copies in one piece

In most phases a copy waits for one call, which is served as described in `World.Service`. A copy in
one piece has only such phases: it reads the object and writes what it has read.
-/

namespace BucketMigration

theorem Solo.Step.verdict?_eq_none {setup : Setup} {a b : Solo} (h : Solo.Step setup a b) :
    a.copy.verdict? = none := by
  unfold ObjectCopy.verdict?
  split
  · rename_i verdict hphase
    cases h with
    | enter hcall _ => simp [ObjectCopy.call?_ended hphase] at hcall
    | finish _ hcall _ => simp [ObjectCopy.call?_ended hphase] at hcall
    | deliver _ hnext => simp [ObjectCopy.resume_ended hphase] at hnext
    | startPart hnext => simp [ObjectCopy.startPart, hphase] at hnext
    | wake hnext => simp [ObjectCopy.wake, hphase] at hnext
  · rfl

section Serves

variable {setup : Setup} {a b : Solo} {call : Call} {before after : Stores → Prop} {reply : Reply}

theorem Serves.step (h : Serves before after reply a.stores (a.states .whole))
    (hhonest : Honest call before after reply) (hasks : a.copy.Asks setup call)
    (hstep : Solo.Step setup a b) :
    (∀ n, b.states (.part n) = a.states (.part n)) ∧
      (b.copy = a.copy ∧ Serves before after reply b.stores (b.states .whole) ∨
        ∃ next, a.copy.resume setup .whole reply = some next ∧ b.copy = next.1 ∧
          after b.stores ∧ b.states .whole = none) := by
  cases hstep with
  | @enter lane called hcall hfree =>
    cases lane with
    | part n => simp [ObjectCopy.call?_part_of_ne hasks.phase_ne] at hcall
    | whole =>
      obtain rfl : call = called := Option.some.inj (hasks.call?.symm.trans hcall)
      rw [hfree] at h
      exact ⟨fun _ => rfl, .inl ⟨rfl, h.enter hhonest⟩⟩
  | @finish lane called now hcall hentered =>
    cases lane with
    | part n => simp [ObjectCopy.call?_part_of_ne hasks.phase_ne] at hcall
    | whole =>
      obtain rfl : call = called := Option.some.inj (hasks.call?.symm.trans hcall)
      rw [hentered] at h
      exact ⟨fun _ => rfl, .inl ⟨rfl, h.finish hhonest now⟩⟩
  | @deliver lane given next hanswered hnext =>
    cases lane with
    | part n => simp [ObjectCopy.resume_part_of_ne hasks.phase_ne] at hnext
    | whole =>
      rw [hanswered] at h
      obtain ⟨rfl, hafter⟩ := h.deliver
      exact ⟨fun _ => rfl, .inr ⟨next, hnext, rfl, hafter, rfl⟩⟩
  | startPart hnext => simp [ObjectCopy.startPart_of_ne hasks.phase_ne] at hnext
  | wake hnext => simp [hasks.wake] at hnext

theorem Serves.exists_step (h : Serves before after reply a.stores (a.states .whole))
    (hasks : a.copy.Asks setup call)
    (hresume : ∃ next, a.copy.resume setup .whole reply = some next) :
    ∃ b, Solo.Step setup a b := by
  generalize hstate : a.states .whole = state at h
  cases h with
  | due _ => exact ⟨_, .enter hasks.call? hstate⟩
  | entered _ => exact ⟨_, .finish 0 hasks.call? hstate⟩
  | answered _ =>
    obtain ⟨next, hnext⟩ := hresume
    exact ⟨_, .deliver hstate hnext⟩

end Serves

section OnePiece

variable (S₀ : Stores) (setup : Setup) (object : ObjectDescriptor) (source : StoredObject)

/-- The target holds the object, and no upload has changed. -/
def CopiedDirectly (S : Stores) : Prop :=
  Written S₀ setup object source.data none S ∧
    (S.get .target).uploads = (S₀.get .target).uploads

inductive OnePiece : Phase → Stores → Option CallState → Prop
  | reading {S : Stores} {state : Option CallState}
      (h : Serves (Untouched S₀) (Untouched S₀) (.ok (.content source.data)) S state) :
      OnePiece .reading S state
  | writing {S : Stores} {state : Option CallState}
      (h : Serves (Untouched S₀) (CopiedDirectly S₀ setup object source) (.ok .done) S state) :
      OnePiece (.writing source.data) S state
  | copied {S : Stores} {state : Option CallState}
      (h : CopiedDirectly S₀ setup object source S) :
      OnePiece (.ended (.ok (.migrated .direct object.size))) S state

end OnePiece

section OnePiece

variable {S₀ : Stores} {setup : Setup} {object : ObjectDescriptor} {source : StoredObject}
  {a b : Solo}

theorem OnePiece.step
    (hsource : (S₀.get .source).object? setup.source.bucket object.key = some source)
    (hobject : a.copy.object = object)
    (h : OnePiece S₀ setup object source a.copy.phase a.stores (a.states .whole))
    (hstep : Solo.Step setup a b) :
    b.copy.object = object ∧
      OnePiece S₀ setup object source b.copy.phase b.stores (b.states .whole) := by
  subst hobject
  generalize hphase : a.copy.phase = phase at h
  cases h with
  | reading h =>
    rcases (h.step (honest_read hsource) (ObjectCopy.asks_reading hphase) hstep).2 with
      ⟨hcopy, h⟩ | ⟨next, hnext, hcopy, hafter, hstate⟩
    · rw [hcopy, hphase]
      exact ⟨rfl, .reading h⟩
    · rcases (ObjectCopy.resume_reading hphase hnext).2 with ⟨e, he, -⟩ | ⟨data, hdata, rfl⟩
      · cases he
      · cases hdata
        rw [hcopy, hstate]
        exact ⟨rfl, .writing (.due hafter)⟩
  | writing h =>
    rcases (h.step (honest_put source.data) (ObjectCopy.asks_writing hphase) hstep).2 with
      ⟨hcopy, h⟩ | ⟨next, hnext, hcopy, hafter, hstate⟩
    · rw [hcopy, hphase]
      exact ⟨rfl, .writing h⟩
    · rcases (ObjectCopy.resume_writing hphase hnext).2 with ⟨e, he, -⟩ | ⟨-, rfl⟩
      · cases he
      · rw [hcopy]
        exact ⟨rfl, .copied hafter⟩
  | copied h =>
    have hend := hstep.verdict?_eq_none
    simp [ObjectCopy.verdict?, hphase] at hend

theorem OnePiece.exists_step (hobject : a.copy.object = object)
    (h : OnePiece S₀ setup object source a.copy.phase a.stores (a.states .whole))
    (hend : a.copy.verdict? = none) : ∃ b, Solo.Step setup a b := by
  subst hobject
  generalize hphase : a.copy.phase = phase at h
  cases h with
  | reading h =>
    exact h.exists_step (ObjectCopy.asks_reading hphase)
      (by simp [ObjectCopy.resume, hphase, Reply.content?])
  | writing h =>
    exact h.exists_step (ObjectCopy.asks_writing hphase)
      (by simp [ObjectCopy.resume, hphase, Reply.done?])
  | copied h => simp [ObjectCopy.verdict?, hphase] at hend

end OnePiece

end BucketMigration
