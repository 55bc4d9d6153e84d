import Lineage.Text.Quoted
import Lineage.Text.WhiteSpace

/-!
# Records on lines

The script documents write an array with one record to a line. A record has named fields, and
the value of each stands between single quotes.

`read?` takes the values off such a line, and `readWhile` takes the records of an array off the
lines of a document.
-/

namespace Lineage.Record

/-! ## Writing -/

def field (key : String) (body : List Char) : List Char :=
  key.toList ++ ": ".toList ++ ('\'' :: body ++ ['\''])

/-- A record such as `        { from: 'A', to: 'B' },`. -/
def line (keys : List String) (bodies : List (List Char)) : List Char :=
  "        \x7b ".toList ++ Text.joinWith ", ".toList (List.zipWith field keys bodies) ++
    " \x7d,".toList

/-! ## Reading -/

def after? : List Char → List Char → Option (List Char)
  | [], text => some text
  | c :: known, d :: text => if c = d then after? known text else none
  | _ :: _, [] => none

def readField? (key : String) (text : List Char) : Option (List Char × List Char) := do
  let rest ← after? (key.toList ++ ": ".toList) text
  Text.Quoted.readLiteral? rest

def readFields? : List String → List Char → Option (List (List Char) × List Char)
  | [], text => some ([], text)
  | [key], text => do
      let (value, rest) ← readField? key text
      return ([value], rest)
  | key :: keys, text => do
      let (value, rest) ← readField? key text
      let rest ← after? ", ".toList rest
      let (values, rest) ← readFields? keys rest
      return (value :: values, rest)

/-- The values of a record that has these keys and no others. -/
def read? (keys : List String) (line : List Char) : Option (List (List Char)) := do
  let rest ← after? "        \x7b ".toList line
  let (values, rest) ← readFields? keys rest
  if rest = " \x7d,".toList then return values else none

/-! ## Arrays -/

def readWhile {α : Type} (line? : List Char → Option α) :
    List (List Char) → List α × List (List Char)
  | [] => ([], [])
  | line :: rest =>
      match line? line with
      | none => ([], line :: rest)
      | some value =>
          let (values, rest) := readWhile line? rest
          (value :: values, rest)

def afterLines? : List (List Char) → List (List Char) → Option (List (List Char))
  | [], lines => some lines
  | known :: others, line :: lines => if known = line then afterLines? others lines else none
  | _ :: _, [] => none

end Lineage.Record
