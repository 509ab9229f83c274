import BucketMigration.Storage.Request

/-!
# Faults

Failures that a store is told to answer with. A fault names the calls that it applies to and may
have a budget; a call spends one unit of the first fault that applies to it.
-/

namespace BucketMigration

/-- A failure to answer with. A missing key or part stands for any, a missing budget for an
endless one. -/
structure Fault where
  operation : Operation
  key : Option String := none
  part : Option Int := none
  budget : Option Nat := none
  retryable : Bool := true
deriving DecidableEq, Repr

/-- The name of an operation in the text of an injected failure. -/
def Operation.title : Operation → String
  | list => "List"
  | head => "Head"
  | get => "Get"
  | put => "Put"
  | createUpload => "CreateMultipart"
  | uploadPart => "UploadPart"
  | completeUpload => "CompleteMultipart"
  | abortUpload => "AbortMultipart"

namespace Fault

def applies (f : Fault) (r : Request) : Bool :=
  f.operation == r.operation && f.budget != some 0 && f.key.all (· == r.key)
    && f.part.all fun part => r.part? == some part

def spend (f : Fault) : Fault :=
  { f with budget := f.budget.map (· - 1) }

/-- The first fault that applies to a call, and the faults once it has been spent. -/
def spendFirst? (r : Request) : List Fault → Option (Fault × List Fault)
  | [] => none
  | f :: rest =>
      if f.applies r then some (f, f.spend :: rest)
      else (spendFirst? r rest).map fun (g, rest) => (g, f :: rest)

def error (f : Fault) (r : Request) : StorageError :=
  .network s!"injected {r.operation.title} failure for {r.key}" f.retryable

theorem spendFirst?_eq_none_iff {r : Request} {faults : List Fault} :
    spendFirst? r faults = none ↔ ∀ f ∈ faults, f.applies r = false := by
  induction faults with
  | nil => simp [spendFirst?]
  | cons f rest ih =>
      unfold spendFirst?
      by_cases h : f.applies r = true
      · simp [h]
      · simp [h, ih]

end Fault

end BucketMigration
