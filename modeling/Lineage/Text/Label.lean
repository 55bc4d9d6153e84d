import Lineage.Text.Quoted
import Lineage.Text.Uppercase
import Lineage.Text.WhiteSpace

/-!
# Labels

A type name is shown on several lines, cut before each capital that follows a character that
is no capital. Runs of capitals stay whole.
-/

namespace Lineage.Text

/-- A seam lies between `before` and `after` when a capital starts there. -/
def isSeam (before after : Char) : Bool :=
  isUppercase after && !isUppercase before

def segments : List Char → List (List Char)
  | [] => [[]]
  | [c] => [[c]]
  | c :: d :: rest =>
      match segments (d :: rest) with
      | [] => [[c]]
      | segment :: others =>
          if isSeam c d then [c] :: segment :: others
          else (c :: segment) :: others

/-- The label of a name as the body of a script literal: its segments, one per line. -/
def label (name : List Char) : List Char :=
  joinWith ['\\', 'n'] ((segments name).map Quoted.escape)

end Lineage.Text

namespace Lineage

def labelSegments (name : String) : List String :=
  (Text.segments name.toList).map String.ofList

def labelText (name : String) : String :=
  String.ofList (Text.label name.toList)

end Lineage
