/-!
# Fronts of texts

Whether a text starts with another one, and what follows it then.
-/

namespace BucketMigration.Text

def hasFront (front s : String) : Bool :=
  front.toList.isPrefixOf s.toList

/-- The rest of `cs` after `front`, or all of it when it starts differently. -/
def dropFront (front cs : List Char) : List Char :=
  if front.isPrefixOf cs then cs.drop front.length else cs

theorem hasFront_iff {front s : String} : hasFront front s ↔ front.toList <+: s.toList := by
  simp [hasFront]

theorem dropFront_append (front cs : List Char) : dropFront front (front ++ cs) = cs := by
  simp [dropFront]

theorem dropFront_of_not_prefix {front cs : List Char} (h : ¬ front <+: cs) :
    dropFront front cs = cs := by
  simp [dropFront, h]

end BucketMigration.Text
