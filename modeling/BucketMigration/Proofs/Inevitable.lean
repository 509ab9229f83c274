import Mathlib.Logic.Relation

/-!
# What comes about on every path

A property is inevitable from a state when every path of steps comes to it: it holds already, or
there is a step, and it is inevitable after each one. So it excludes both paths that stop short of it
and paths that go on forever without it.
-/

namespace BucketMigration

universe u v
variable {α : Type u} {Step : α → α → Prop} {P Q : α → Prop}

inductive Inevitable (Step : α → α → Prop) (P : α → Prop) : α → Prop
  | now {a : α} (h : P a) : Inevitable Step P a
  | later {a : α} (hgo : ∃ b, Step a b) (h : ∀ b, Step a b → Inevitable Step P b) :
      Inevitable Step P a

namespace Inevitable

theorem mono (hPQ : ∀ a, P a → Q a) {a : α} (h : Inevitable Step P a) : Inevitable Step Q a := by
  induction h with
  | now h => exact .now (hPQ _ h)
  | later hgo _ ih => exact .later hgo ih

theorem exists_reach {a : α} (h : Inevitable Step P a) : ∃ b, Relation.ReflTransGen Step a b ∧ P b := by
  induction h with
  | @now a h => exact ⟨a, .refl, h⟩
  | later hgo _ ih =>
    obtain ⟨b, hb⟩ := hgo
    obtain ⟨c, hreach, hc⟩ := ih b hb
    exact ⟨c, hreach.head hb, hc⟩

/-- An invariant with a well-founded measure that every step lowers makes the end inevitable, when no
step is missing before it. What happens after the end does not matter. -/
theorem of_wellFounded_of_not {β : Type v} {lt : β → β → Prop} (hlt : WellFounded lt)
    (Inv : α → Prop) (measure : α → β)
    (hkeep : ∀ a b, Inv a → ¬P a → Step a b → Inv b ∧ lt (measure b) (measure a))
    (hgo : ∀ a, Inv a → ¬P a → ∃ b, Step a b) {a : α} (ha : Inv a) : Inevitable Step P a := by
  induction hm : measure a using hlt.induction generalizing a with
  | _ m ih =>
    by_cases hP : P a
    · exact .now hP
    · refine .later (hgo a ha hP) ?_
      intro b hb
      obtain ⟨hb', hless⟩ := hkeep a b ha hP hb
      exact ih (measure b) (hm ▸ hless) hb' rfl

theorem of_wellFounded {β : Type v} {lt : β → β → Prop} (hlt : WellFounded lt) (Inv : α → Prop)
    (measure : α → β) (hkeep : ∀ a b, Inv a → Step a b → Inv b ∧ lt (measure b) (measure a))
    (hgo : ∀ a, Inv a → ¬P a → ∃ b, Step a b) {a : α} (ha : Inv a) : Inevitable Step P a :=
  of_wellFounded_of_not hlt Inv measure (fun a b ha _ hb => hkeep a b ha hb) hgo ha

theorem of_measure (Inv : α → Prop) (measure : α → Nat)
    (hkeep : ∀ a b, Inv a → Step a b → Inv b ∧ measure b < measure a)
    (hgo : ∀ a, Inv a → ¬P a → ∃ b, Step a b) {a : α} (ha : Inv a) : Inevitable Step P a :=
  of_wellFounded Nat.lt_wfRel.wf Inv measure hkeep hgo ha

/-- What comes about on every path of one system comes about on every path of another that it
simulates, when the other one does not stop before. -/
theorem of_simulation {β : Type v} {StepB : β → β → Prop} {Q : β → Prop} (R : α → β → Prop)
    (hPQ : ∀ a b, R a b → P a → Q b)
    (hgo : ∀ a b, R a b → (∃ a', Step a a') → ∃ b', StepB b b')
    (hback : ∀ a b b', R a b → StepB b b' → ∃ a', Step a a' ∧ R a' b') {a : α} {b : β}
    (h : Inevitable Step P a) (hab : R a b) : Inevitable StepB Q b := by
  induction h generalizing b with
  | now h => exact .now (hPQ _ b hab h)
  | later hsteps _ ih =>
    refine .later (hgo _ b hab hsteps) ?_
    intro b' hstep
    obtain ⟨a', ha', hab'⟩ := hback _ b b' hab hstep
    exact ih a' ha' hab'

end Inevitable

end BucketMigration
