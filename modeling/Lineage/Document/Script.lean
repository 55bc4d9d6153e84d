/-!
# Where a script element ends

How a reader of HTML finds the end of a script. The end tag does, but not everywhere: after an
opened comment, a further script tag hides the next end tag. The rules look at tags in any
letter case, and a tag name counts only if a blank, a solidus or a closing bracket follows it.
-/

namespace Lineage.Script

inductive Mode where
  | plain
  | comment
  /-- In a script tag in an opened comment. -/
  | nested
  deriving DecidableEq, Repr

def endsTagName (c : Char) : Bool :=
  [' ', '\t', '\n', '\x0c', '\r', '/', '>'].contains c

def asciiLower (c : Char) : Char :=
  if 'A' ≤ c ∧ c ≤ 'Z' then Char.ofNat (c.toNat + 32) else c

def startsWithTag (opening : List Char) (text : List Char) : Bool :=
  (text.take opening.length).map asciiLower == opening &&
    ((text.drop opening.length).head?.any endsTagName)

def endTag : List Char := "</script".toList

def startTag : List Char := "<script".toList

/-- The mode after a character, which `rest` follows. `dashes` hyphens stand before it. -/
def Mode.next (mode : Mode) (dashes : Nat) (c : Char) (rest : List Char) : Mode :=
  match mode with
  | .plain => if "<!--".toList.isPrefixOf (c :: rest) then .comment else .plain
  | .comment =>
      if c = '>' ∧ 2 ≤ dashes then .plain
      else if startsWithTag startTag (c :: rest) then .nested
      else .comment
  | .nested =>
      if c = '>' ∧ 2 ≤ dashes then .plain
      else if startsWithTag endTag (c :: rest) then .comment
      else .nested

def close? (mode : Mode) (dashes : Nat) : List Char → Option (List Char)
  | [] => none
  | c :: rest =>
      if mode ≠ .nested ∧ startsWithTag endTag (c :: rest) then some (c :: rest)
      else close? (mode.next dashes c rest) (if c = '-' then dashes + 1 else 0) rest

def contentAfter? (tag : List Char) : List Char → Option (List Char)
  | [] => none
  | c :: rest =>
      if tag.isPrefixOf (c :: rest) then some ((c :: rest).drop tag.length)
      else contentAfter? tag rest

end Lineage.Script
