import Lineage.Text.Json

/-!
# String literals of the script language

The value of a single-quoted literal by the grammar of ECMAScript 2019, a sequence of 16-bit code
units. Since that edition the two separators U+2028 and U+2029 may stand in a literal as they are.
The octal escapes that browsers add are not part of the grammar.
-/

namespace Lineage.Text.StringLiteral

/-! ## Code units -/

def codeUnits (point : Nat) : List UInt16 :=
  if point < 0x10000 then [.ofNat point]
  else [.ofNat (0xD800 + (point - 0x10000) / 0x400), .ofNat (0xDC00 + (point - 0x10000) % 0x400)]

def unitsOf (text : List Char) : List UInt16 :=
  text.flatMap fun c => codeUnits c.toNat

/-! ## Escapes -/

def isLineTerminator (c : Char) : Bool :=
  ['\n', '\r', '\u2028', '\u2029'].contains c

def singleEscape? : Char → Option Char
  | '\'' => some '\''
  | '"' => some '"'
  | '\\' => some '\\'
  | 'b' => some '\x08'
  | 'f' => some '\x0c'
  | 'n' => some '\n'
  | 'r' => some '\r'
  | 't' => some '\t'
  | 'v' => some '\x0b'
  | _ => none

def hexNumber? (digits : List Char) : Option Nat :=
  digits.foldlM (fun value c => (Json.hexValue? c).map (value * 16 + ·)) 0

def hexPrefix? (count : Nat) (text : List Char) : Option Nat :=
  if count ≤ text.length then hexNumber? (text.take count) else none

def unicodeEscape? : List Char → Option (List UInt16 × Nat)
  | '\x7b' :: rest => do
      let digits := rest.takeWhile fun c => (Json.hexValue? c).isSome
      let point ← hexNumber? digits
      if digits ≠ [] ∧ (rest.drop digits.length).head? = some '\x7d' ∧ point ≤ 0x10FFFF then
        return (codeUnits point, digits.length + 2)
      else none
  | rest => (hexPrefix? 4 rest).map fun unit => ([.ofNat unit], 4)

/-- The value of an escape, and how many characters it takes after the backslash. An escaped line
terminator continues the literal on the next line and has no value. -/
def escape? : List Char → Option (List UInt16 × Nat)
  | [] => none
  | c :: rest =>
      match singleEscape? c with
      | some value => some (codeUnits value.toNat, 1)
      | none =>
          if c = 'x' then (hexPrefix? 2 rest).map fun unit => ([.ofNat unit], 3)
          else if c = 'u' then (unicodeEscape? rest).map fun (units, more) => (units, more + 1)
          else if c = '\r' ∧ rest.head? = some '\n' then some ([], 2)
          else if isLineTerminator c then some ([], 1)
          else if c = '0' ∧ ¬rest.head?.any Char.isDigit then some ([0], 1)
          else if c.isDigit then none
          else some (codeUnits c.toNat, 1)

/-! ## Literals -/

/-- The value of the element that begins with a character, and how many characters of the text
after it belong to the element. -/
def element? (c : Char) (rest : List Char) : Option (List UInt16 × Nat) :=
  if c = '\\' then escape? rest
  else if c = '\n' ∨ c = '\r' then none
  else some (codeUnits c.toNat, 0)

def readBody? (text : List Char) : Option (List UInt16 × List Char) :=
  match text with
  | [] => none
  | c :: rest =>
      if c = '\'' then some ([], rest)
      else
        match element? c rest with
        | none => none
        | some (units, more) =>
            (readBody? (rest.drop more)).map fun (value, rest) => (units ++ value, rest)
termination_by text.length
decreasing_by
  rw [List.length_drop, List.length_cons]
  omega

def read? : List Char → Option (List UInt16 × List Char)
  | '\'' :: rest => readBody? rest
  | _ => none

end Lineage.Text.StringLiteral
