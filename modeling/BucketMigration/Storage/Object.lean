/-!
# Objects, listings and ranges

What a bucket reports about its objects, and the pieces in which their bytes travel: inclusive
byte ranges and uploaded parts.
-/

namespace BucketMigration

structure ObjectDescriptor where
  key : String
  size : Nat
deriving DecidableEq, Repr, Inhabited

/-- What a bucket tells about one object. Times are seconds since the epoch. -/
structure ObjectMetadata where
  size : Nat
  lastModified : Option Int
  etag : Option String
  partsCount : Option Nat
deriving DecidableEq, Repr, Inhabited

structure ListPage where
  objects : List ObjectDescriptor
  nextToken : Option String
  isTruncated : Bool
deriving DecidableEq, Repr, Inhabited

namespace ListPage

/-- More objects are promised, but no cursor to ask for them. -/
def lacksToken (page : ListPage) : Bool :=
  page.isTruncated && page.nextToken.isNone

end ListPage

/-- The bytes from `first` to `last`, both included. -/
structure ByteRange where
  first : Nat
  last : Nat
deriving DecidableEq, Repr, Inhabited

namespace ByteRange

def length (range : ByteRange) : Nat :=
  range.last - range.first + 1

/-- Both ends belong to a range, so it is never empty. -/
def isEmpty (_ : ByteRange) : Bool :=
  false

def header (range : ByteRange) : String :=
  s!"bytes={range.first}-{range.last}"

/-- Whether an object of `size` bytes has all bytes of the range. -/
def fits (range : ByteRange) (size : Nat) : Bool :=
  range.first ≤ range.last && range.last < size

def slice (range : ByteRange) (data : ByteArray) : ByteArray :=
  data.extract range.first (range.last + 1)

end ByteRange

structure CompletedPart where
  number : Int
  etag : String
deriving DecidableEq, Repr, Inhabited

end BucketMigration
