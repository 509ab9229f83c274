import BucketMigration.Proofs.Copy.Remaining
import BucketMigration.Proofs.Inevitable
import BucketMigration.World.Basic
import Mathlib.Logic.Function.Basic

/-!
# An object that is migrated on its own

When nothing else happens in a world, an object that is migrated on its own goes on by itself: its
calls enter a store, are worked on and answered, and its parts start, in any order and at any time.
Of the world only the copy, the stores and the state of its calls matter, which make up a `Solo`.
-/

namespace BucketMigration

/-- A copy, the stores that it calls, and how far the call of every lane has come. -/
structure Solo where
  copy : ObjectCopy
  stores : Stores
  states : Lane → Option CallState

namespace Solo

inductive Step (setup : Setup) : Solo → Solo → Prop
  | enter {a : Solo} {lane : Lane} {call : Call} (hcall : a.copy.call? setup lane = some call)
      (hfree : a.states lane = none) :
      Step setup a ⟨a.copy,
        a.stores.set call.side ((a.stores.get call.side).enter call.request).2,
        Function.update a.states lane
          (some (match ((a.stores.get call.side).enter call.request).1 with
          | .error e => .answered (.error e)
          | .ok () => .entered))⟩
  | finish {a : Solo} {lane : Lane} {call : Call} (now : Int)
      (hcall : a.copy.call? setup lane = some call) (hentered : a.states lane = some .entered) :
      Step setup a ⟨a.copy,
        a.stores.set call.side ((a.stores.get call.side).finish now call.request).2,
        Function.update a.states lane
          (some (.answered ((a.stores.get call.side).finish now call.request).1))⟩
  | deliver {a : Solo} {lane : Lane} {reply : Reply} {next : ObjectCopy.Next}
      (hanswered : a.states lane = some (.answered reply))
      (hnext : a.copy.resume setup lane reply = some next) :
      Step setup a ⟨next.1, a.stores, Function.update a.states lane none⟩
  | startPart {a : Solo} {next : ObjectCopy.Next} (hnext : a.copy.startPart setup = some next) :
      Step setup a ⟨next.1, a.stores, a.states⟩
  | wake {a : Solo} {next : ObjectCopy.Next} (hnext : a.copy.wake = some next) :
      Step setup a ⟨next.1, a.stores, a.states⟩

/-- The steps that are left of a call: it enters, it is worked on, it is answered. -/
def stepsLeft : Option CallState → Nat
  | none => 3
  | some .entered => 2
  | some (.answered _) => 1

theorem stepsLeft_le_three (state : Option CallState) : stepsLeft state ≤ 3 := by
  unfold stepsLeft
  split <;> omega

theorem stepsLeft_pos (state : Option CallState) : 0 < stepsLeft state := by
  unfold stepsLeft
  split <;> omega

def left (states : Lane → Option CallState) (lane : Lane) : Nat :=
  stepsLeft (states lane)

theorem remaining_lt_of_update {setup : Setup} {c : ObjectCopy} {states : Lane → Option CallState}
    {lane : Lane} {call : Call} {state : Option CallState} (hcall : c.call? setup lane = some call)
    (hlt : stepsLeft state < stepsLeft (states lane)) :
    c.remaining 3 (left (Function.update states lane state)) setup <
      c.remaining 3 (left states) setup := by
  refine ObjectCopy.remaining_lt_of_left ?_ hcall ?_
  · intro l
    unfold left
    by_cases hl : l = lane
    · subst hl
      rw [Function.update_self]
      exact Nat.le_of_lt hlt
    · rw [Function.update_of_ne hl]
  · unfold left
    rwa [Function.update_self]

theorem Step.remaining_lt {setup : Setup} {a b : Solo} (hstep : Step setup a b)
    (hkeeps : ∀ s, a.copy.phase = .copying s → s.begun.Nodup) :
    b.copy.remaining 3 (left b.states) setup < a.copy.remaining 3 (left a.states) setup := by
  cases hstep with
  | enter hcall hfree =>
    apply remaining_lt_of_update hcall
    rw [hfree]
    split
    · exact Nat.lt_of_sub_eq_succ rfl
    · exact Nat.lt_succ_self 2
  | finish now hcall hentered =>
    apply remaining_lt_of_update hcall
    rw [hentered]
    exact Nat.lt_succ_self 1
  | @deliver lane reply next hanswered hnext =>
    refine ObjectCopy.remaining_resume_lt hkeeps (stepsLeft_pos _) ?_
      (fun l => stepsLeft_le_three _) hnext
    intro l hl
    exact congrArg stepsLeft (Function.update_of_ne hl none a.states)
  | startPart hnext => exact ObjectCopy.remaining_startPart_lt (fun l => stepsLeft_le_three _) hnext
  | wake hnext => exact ObjectCopy.remaining_wake_lt (stepsLeft_le_three _) hnext

end Solo

namespace WorldAction

/-- The actions by which an object that is migrated on its own goes on. -/
def isSolo : WorldAction → Bool
  | enter (.solo _) | finish (.solo _) | deliver (.solo _) | soloWake | soloPart => true
  | _ => false

end WorldAction

namespace World

/-- Some time passes, and the object that is migrated on its own goes on. -/
def SoloStep (w next : World) : Prop :=
  ∃ (seconds : Nat) (action : WorldAction) (t : WorldTransition), action.isSolo = true ∧
    { w with now := w.now + seconds }.act action = some t ∧ t.world = next

/-- What matters to the object that is migrated on its own. -/
def solo? (w : World) : Option Solo :=
  w.solo.map fun copy => ⟨copy, w.stores, fun lane => w.callState? (.solo lane)⟩

theorem find?_filter_ne {calls : List (Caller × CallState)} {caller other : Caller}
    (h : other ≠ caller) :
    (calls.filter fun c => c.1 != caller).find? (fun c => c.1 == other) =
      calls.find? fun c => c.1 == other := by
  rw [List.find?_filter]
  congr 1
  funext c
  by_cases hc : c.1 = other
  · simp [hc, h]
  · simp [hc]

theorem callState?_setCall (w : World) (caller other : Caller) (state : CallState) :
    (w.setCall caller state).callState? other =
      if other = caller then some state else w.callState? other := by
  unfold callState? setCall
  by_cases h : other = caller
  · subst h
    simp
  · rw [if_neg h, List.find?_cons_of_neg (by simpa using Ne.symm h), find?_filter_ne h]

theorem callState?_clearCall (w : World) (caller other : Caller) :
    (w.clearCall caller).callState? other =
      if other = caller then none else w.callState? other := by
  unfold callState? clearCall
  by_cases h : other = caller
  · subst h
    simp
  · rw [if_neg h, find?_filter_ne h]

theorem solo?_eq_some_iff {w : World} {a : Solo} :
    w.solo? = some a ↔ ∃ copy, w.solo = some copy ∧
      a = ⟨copy, w.stores, fun lane => w.callState? (.solo lane)⟩ := by
  unfold solo?
  rw [Option.map_eq_some_iff]
  simp only [eq_comm]

theorem enter_eq (w : World) (caller : Caller) (call : Call) :
    w.enter caller call =
      { w with
        stores := w.stores.set call.side ((w.stores.get call.side).enter call.request).2 }.setCall
        caller (match ((w.stores.get call.side).enter call.request).1 with
          | .error e => .answered (.error e)
          | .ok () => .entered) := by
  unfold enter
  rcases (w.stores.get call.side).enter call.request with ⟨_ | _, store⟩ <;> rfl

theorem states_eq_update {w v : World} {lane : Lane} {state : Option CallState}
    (h : ∀ other, v.callState? other = if other = .solo lane then state else w.callState? other) :
    (fun l => v.callState? (.solo l)) =
      Function.update (fun l => w.callState? (.solo l)) lane state := by
  funext l
  rw [h]
  by_cases hl : l = lane
  · subst hl
    simp
  · simp [hl]

theorem SoloStep.step {w v : World} (h : SoloStep w v) {a : Solo} (ha : w.solo? = some a) :
    v.job.setup = w.job.setup ∧ ∃ b, v.solo? = some b ∧ Solo.Step w.job.setup a b := by
  obtain ⟨copy, hcopy, rfl⟩ := solo?_eq_some_iff.mp ha
  obtain ⟨seconds, action, t, hsolo, hact, rfl⟩ := h
  match action, hsolo with
  | .enter (.solo lane), _ =>
    simp only [act, call?, hcopy, Option.bind_some] at hact
    split at hact
    · rename_i call hcall hfree
      cases hact
      refine ⟨by rw [enter_eq]; rfl, _, solo?_eq_some_iff.mpr ⟨copy, ?_, rfl⟩, ?_⟩
      · rw [enter_eq]
        rfl
      · rw [enter_eq, states_eq_update (callState?_setCall _ _ · _)]
        exact .enter hcall hfree
    · cases hact
  | .finish (.solo lane), _ =>
    simp only [act, call?, hcopy, Option.bind_some] at hact
    split at hact
    · rename_i call hcall hentered
      cases hact
      refine ⟨rfl, _, solo?_eq_some_iff.mpr ⟨copy, rfl, rfl⟩, ?_⟩
      unfold finish
      rw [states_eq_update (callState?_setCall _ _ · _)]
      exact .finish _ hcall hentered
    · cases hact
  | .deliver (.solo lane), _ =>
    simp only [act] at hact
    split at hact
    · rename_i reply hanswered
      simp only [deliver, clearCall, hcopy, Option.bind_some, Option.map_eq_some_iff] at hact
      obtain ⟨next, hnext, rfl⟩ := hact
      refine ⟨rfl, _, solo?_eq_some_iff.mpr ⟨next.1, rfl, rfl⟩, ?_⟩
      have hstep : Solo.Step w.job.setup
          ⟨copy, w.stores, fun l => w.callState? (.solo l)⟩ _ := .deliver hanswered hnext
      rw [← states_eq_update (callState?_clearCall w (.solo lane) ·)] at hstep
      exact hstep
    · cases hact
  | .soloPart, _ =>
    simp only [act, hcopy, Option.bind_some, Option.map_eq_some_iff] at hact
    obtain ⟨next, hnext, rfl⟩ := hact
    exact ⟨rfl, _, solo?_eq_some_iff.mpr ⟨next.1, rfl, rfl⟩, .startPart hnext⟩
  | .soloWake, _ =>
    simp only [act, hcopy, Option.bind_some, Option.map_eq_some_iff] at hact
    obtain ⟨next, hnext, rfl⟩ := hact
    exact ⟨rfl, _, solo?_eq_some_iff.mpr ⟨next.1, rfl, rfl⟩, .wake hnext⟩

theorem exists_soloStep {w : World} {a b : Solo} (ha : w.solo? = some a)
    (h : Solo.Step w.job.setup a b) : ∃ v, SoloStep w v := by
  obtain ⟨copy, hcopy, rfl⟩ := solo?_eq_some_iff.mp ha
  have hgo : ∀ action, action.isSolo = true →
      ({ w with now := w.now + (0 : Nat) }.act action).isSome → ∃ v, SoloStep w v := by
    intro action hsolo hact
    obtain ⟨t, ht⟩ := Option.isSome_iff_exists.mp hact
    exact ⟨_, 0, action, t, hsolo, ht, rfl⟩
  have hcall? : ∀ lane, ({ w with now := w.now + (0 : Nat) } : World).call? (.solo lane) =
      copy.call? w.job.setup lane := by
    intro lane
    simp only [call?, hcopy, Option.bind_some]
  have hstate : ∀ lane, ({ w with now := w.now + (0 : Nat) } : World).callState? (.solo lane) =
      w.callState? (.solo lane) := fun _ => rfl
  cases h with
  | @enter lane call hcall hfree =>
    apply hgo (.enter (.solo lane)) rfl
    dsimp only at hcall hfree
    simp only [act, hcall?, hcall, hstate, hfree, Option.isSome_some]
  | @finish lane call now hcall hentered =>
    apply hgo (.finish (.solo lane)) rfl
    dsimp only at hcall hentered
    simp only [act, hcall?, hcall, hstate, hentered, Option.isSome_some]
  | @deliver lane reply next hanswered hnext =>
    apply hgo (.deliver (.solo lane)) rfl
    dsimp only at hanswered hnext
    simp only [act, hstate, hanswered]
    simp only [deliver, clearCall, hcopy, Option.bind_some, hnext, Option.map_some,
      Option.isSome_some]
  | @startPart next hnext =>
    apply hgo .soloPart rfl
    simp only [act, hcopy, Option.bind_some, hnext, Option.map_some, Option.isSome_some]
  | @wake next hnext =>
    apply hgo .soloWake rfl
    simp only [act, hcopy, Option.bind_some, hnext, Option.map_some, Option.isSome_some]

theorem inevitable_soloStep {w : World} {a : Solo} {P : Solo → Prop}
    (h : Inevitable (Solo.Step w.job.setup) P a) (ha : w.solo? = some a) :
    Inevitable SoloStep (fun v => ∃ b, v.solo? = some b ∧ P b) w := by
  generalize hsetup : w.job.setup = setup at h
  induction h generalizing w with
  | now h => exact .now ⟨_, ha, h⟩
  | later hgo _ ih =>
    subst hsetup
    obtain ⟨b, hb⟩ := hgo
    refine .later (exists_soloStep ha hb) ?_
    intro v hv
    obtain ⟨hsetup, b, hb, hstep⟩ := hv.step ha
    exact ih b hstep hb hsetup

end World

end BucketMigration
