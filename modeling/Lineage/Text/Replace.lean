/-!
# Replacing a pattern

Every occurrence of a pattern is replaced, from the left and without overlaps; text that a
replacement brings in is not looked at again.
-/

namespace Lineage.Text

/-- Replaces in a text of which the first `skip` characters belong to an occurrence that has
been replaced. -/
def replaceFrom (pattern replacement : List Char) : Nat → List Char → List Char
  | _, [] => []
  | skip + 1, _ :: rest => replaceFrom pattern replacement skip rest
  | 0, c :: rest =>
      if pattern.isPrefixOf (c :: rest) then
        replacement ++ replaceFrom pattern replacement (pattern.length - 1) rest
      else c :: replaceFrom pattern replacement 0 rest

def replace (pattern replacement text : List Char) : List Char :=
  replaceFrom pattern replacement 0 text

/-! ## Several patterns at once -/

/-- As `replaceFrom`, for several patterns in one pass, each with a replacement of its own. Of
the patterns that occur at a place the first one counts. -/
def substituteFrom (fillings : List (List Char × List Char)) : Nat → List Char → List Char
  | _, [] => []
  | skip + 1, _ :: rest => substituteFrom fillings skip rest
  | 0, c :: rest =>
      match fillings.find? fun filling => filling.1.isPrefixOf (c :: rest) with
      | some filling =>
          filling.2 ++ substituteFrom fillings (filling.1.length - 1) rest
      | none => c :: substituteFrom fillings 0 rest

def substitute (fillings : List (List Char × List Char)) (text : List Char) : List Char :=
  substituteFrom fillings 0 text

end Lineage.Text
