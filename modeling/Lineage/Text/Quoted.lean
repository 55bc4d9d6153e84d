/-!
# Single-quoted script literals

The body of a JavaScript string between single quotes that is safe inside an HTML script
element. Backslash, quote and the two line breaks are escaped, and so is a solidus that
follows a less-than sign, so that no body spells an end tag.

`unescape?` reads a body back. It knows the escapes above and the rule that any other escaped
character stands for itself.
-/

namespace Lineage.Text.Quoted

/-! ## Writing -/

def escapeChar : Char → List Char
  | '\\' => ['\\', '\\']
  | '\'' => ['\\', '\'']
  | '\n' => ['\\', 'n']
  | '\r' => ['\\', 'r']
  | c => [c]

/-- Writes a body. The solidus of an end tag is the only character whose written form hangs
on its neighbour. -/
def escape : List Char → List Char
  | [] => []
  | '<' :: '/' :: rest => '<' :: '\\' :: '/' :: escape rest
  | c :: rest => escapeChar c ++ escape rest

/-! ## Reading -/

/-- The value of the character after a backslash. A line break there would continue the
literal on the next line, which no written body does. -/
def unescapeChar? : Char → Option Char
  | 'n' => some '\n'
  | 'r' => some '\r'
  | '\n' => none
  | '\r' => none
  | c => if c.isAlphanum then none else some c

/-- Reads a body. A bare quote or line break ends the literal, so it is refused. -/
def unescape? : List Char → Option (List Char)
  | [] => some []
  | '\\' :: c :: rest => do
      let value ← unescapeChar? c
      let values ← unescape? rest
      return value :: values
  | c :: rest =>
      if c = '\\' ∨ c = '\'' ∨ c = '\n' ∨ c = '\r' then none
      else (unescape? rest).map (c :: ·)

def readLiteral? : List Char → Option (List Char × List Char)
  | '\'' :: rest => body rest
  | _ => none
where
  body : List Char → Option (List Char × List Char)
    | [] => none
    | '\'' :: rest => some ([], rest)
    | '\\' :: c :: rest => do
        let value ← unescapeChar? c
        let (values, rest) ← body rest
        return (value :: values, rest)
    | c :: rest =>
        if c = '\\' ∨ c = '\n' ∨ c = '\r' then none
        else do
          let (values, rest) ← body rest
          return (c :: values, rest)

end Lineage.Text.Quoted

namespace Lineage

def escapeScript (text : String) : String :=
  String.ofList (Text.Quoted.escape text.toList)

end Lineage
