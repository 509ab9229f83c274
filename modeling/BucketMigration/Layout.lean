import BucketMigration.Storage.Object
import BucketMigration.Word

/-!
# Part layouts

Whether an object is moved whole or in parts, and how its bytes are laid out in parts. A layout
is fixed before an upload is opened. Offsets and part numbers are words: a layout that needs a
number past the limit has no value.
-/

namespace BucketMigration

def mib : Nat := 1024 * 1024

def minPartSize : Nat := 5 * mib

def maxPartSize : Nat := 5 * 1024 * mib

def maxParts : Nat := 10000

inductive TransferMode
  | direct
  | multipart
deriving DecidableEq, Repr, Inhabited

namespace TransferMode

/-- Objects at or above `threshold` travel in parts. -/
def ofSize (size threshold : Nat) : TransferMode :=
  if threshold ≤ size then multipart else direct

def name : TransferMode → String
  | direct => "direct"
  | multipart => "multipart"

def title : TransferMode → String
  | direct => "Direct"
  | multipart => "Multipart"

theorem ofSize_eq_multipart_iff {size threshold : Nat} :
    ofSize size threshold = multipart ↔ threshold ≤ size := by
  unfold ofSize
  split <;> simp [*]

end TransferMode

/-- One part of a layout. Part numbers start at 1. -/
structure PartRange where
  number : Nat
  range : ByteRange
deriving DecidableEq, Repr, Inhabited

/-- A layout: its parts in ascending order, all of `partSize` bytes but the last. -/
structure PartPlan where
  partSize : Nat
  parts : List PartRange
deriving DecidableEq, Repr, Inhabited

structure PartSizing where
  partSize : Nat := minPartSize
  maxParts : Nat := BucketMigration.maxParts
  maxPartSize : Nat := BucketMigration.maxPartSize
deriving DecidableEq, Repr, Inhabited

inductive PartPlanError
  | tooManyParts (parts partSize maxParts : Nat)
  | partTooLarge (parts partSize maxPartSize : Nat)
  | emptyObject
deriving DecidableEq, Repr, Inhabited

def PartPlanError.message : PartPlanError → String
  | tooManyParts parts partSize maxParts =>
      s!"{parts} parts of {partSize} bytes exceed the maximum of {maxParts} parts"
  | partTooLarge parts partSize maxPartSize =>
      s!"{parts} parts of {partSize} bytes exceed the {maxPartSize} byte part limit"
  | emptyObject => "cannot plan parts for an empty object"

namespace Layout

/-- The largest object that `maxParts` parts of `maxPartSize` bytes hold. -/
def maxObjectSize (maxParts maxPartSize : Nat) : Nat :=
  Word.mulSat maxParts maxPartSize

def roundUpToMib (bytes : Nat) : Nat :=
  Word.mulSat (Word.ceilDiv bytes mib) mib

/-- How many parts of `partSize` bytes hold `size` bytes; one part holds nothing at all. -/
def partCount (size partSize : Nat) : Nat :=
  if partSize = 0 ∨ size = 0 then 1 else Word.ceilDiv size partSize

/-- `count` parts from byte `start` on, the first with the given number. The last part ends with
the object. -/
def partsFrom? (size partSize : Nat) : (count start number : Nat) → Option (List PartRange)
  | 0, _, _ => some []
  | count + 1, start, number => do
      let stop ← Word.add? start partSize
      let next ← Word.nextPart? number
      let rest ← partsFrom? size partSize count (min stop size) next
      return ⟨number, start, min stop size - 1⟩ :: rest

def ranges? (size partSize : Nat) : Option (List PartRange) :=
  if size = 0 ∨ partSize = 0 then some []
  else partsFrom? size partSize (partCount size partSize) 0 1

/-- How many parts to aim at: as many as the object was uploaded in, and otherwise as the
preferred part size asks for, raised until no more than `maxParts` parts are needed. -/
def partTarget (size : Nat) (reported : Option Nat) (sizing : PartSizing) : Nat :=
  match reported with
  | some (count + 1) => count + 1
  | _ =>
      let least := Word.ceilDiv size (max sizing.maxParts 1)
      partCount size (max (max sizing.partSize least) 1)

/-- The layout of an object of `size` bytes. Parts are whole mebibytes, so there may be fewer of
them than were aimed at. -/
def plan? (size : Nat) (reported : Option Nat) (sizing : PartSizing) :
    Option (Except PartPlanError PartPlan) :=
  if size = 0 then some (.error .emptyObject)
  else
    let partSize := roundUpToMib (Word.ceilDiv size (partTarget size reported sizing))
    let planned := partCount size partSize
    if sizing.maxParts < planned then
      some (.error (.tooManyParts planned partSize sizing.maxParts))
    else if sizing.maxPartSize < partSize then
      some (.error (.partTooLarge planned partSize sizing.maxPartSize))
    else (ranges? size partSize).map fun parts => .ok ⟨partSize, parts⟩

end Layout

end BucketMigration
