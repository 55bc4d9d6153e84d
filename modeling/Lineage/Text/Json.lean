/-!
# JSON text

Values, the pretty printed form with an indent of two spaces, and a reader for any JSON text.
A number is kept as it is spelled, so nothing is rounded.
-/

namespace Lineage

inductive Json where
  | null
  | bool (value : Bool)
  | number (spelling : List Char)
  | string (value : String)
  | array (items : List Json)
  | object (fields : List (String × Json))
  deriving Repr

namespace Json

/-! ## Strings -/

def hexDigit (n : Nat) : Char :=
  if n < 10 then Char.ofNat ('0'.toNat + n) else Char.ofNat ('a'.toNat + (n - 10))

/-- The control characters other than the five with a short escape are written with four
hexadecimal digits; everything above them is written as it is. -/
def escapeChar (c : Char) : List Char :=
  match c with
  | '"' => ['\\', '"']
  | '\\' => ['\\', '\\']
  | '\x08' => ['\\', 'b']
  | '\x0c' => ['\\', 'f']
  | '\n' => ['\\', 'n']
  | '\r' => ['\\', 'r']
  | '\t' => ['\\', 't']
  | c =>
      if c.toNat < 0x20 then
        ['\\', 'u', '0', '0', hexDigit (c.toNat / 16), hexDigit (c.toNat % 16)]
      else [c]

def quote (value : String) : List Char :=
  '"' :: value.toList.flatMap escapeChar ++ ['"']

/-! ## Printing -/

def newLine (depth : Nat) : List Char :=
  '\n' :: List.replicate (2 * depth) ' '

mutual

def pretty (depth : Nat) : Json → List Char
  | .null => "null".toList
  | .bool true => "true".toList
  | .bool false => "false".toList
  | .number spelling => spelling
  | .string value => quote value
  | .array [] => ['[', ']']
  | .array (item :: items) =>
      '[' :: newLine (depth + 1) ++ pretty (depth + 1) item ++
        prettyItems (depth + 1) items ++ newLine depth ++ [']']
  | .object [] => ['\x7b', '\x7d']
  | .object ((key, value) :: fields) =>
      '\x7b' :: newLine (depth + 1) ++ quote key ++ ':' :: ' ' :: pretty (depth + 1) value ++
        prettyFields (depth + 1) fields ++ newLine depth ++ ['\x7d']

def prettyItems (depth : Nat) : List Json → List Char
  | [] => []
  | item :: items =>
      ',' :: newLine depth ++ pretty depth item ++ prettyItems depth items

def prettyFields (depth : Nat) : List (String × Json) → List Char
  | [] => []
  | (key, value) :: fields =>
      ',' :: newLine depth ++ quote key ++ ':' :: ' ' :: pretty depth value ++
        prettyFields depth fields

end

def render (value : Json) : String :=
  String.ofList (pretty 0 value)

/-! ## Reading -/

/-! ### Blanks -/

def isBlank (c : Char) : Bool :=
  c == ' ' || c == '\n' || c == '\r' || c == '\t'

def skipBlanks (text : List Char) : List Char :=
  text.dropWhile isBlank

/-! ### Strings -/

def hexValue? (c : Char) : Option Nat :=
  if '0' ≤ c ∧ c ≤ '9' then some (c.toNat - '0'.toNat)
  else if 'a' ≤ c ∧ c ≤ 'f' then some (c.toNat - 'a'.toNat + 10)
  else if 'A' ≤ c ∧ c ≤ 'F' then some (c.toNat - 'A'.toNat + 10)
  else none

def readUnit? : List Char → Option (Nat × List Char)
  | a :: b :: c :: d :: rest => do
      let a ← hexValue? a
      let b ← hexValue? b
      let c ← hexValue? c
      let d ← hexValue? d
      return (((a * 16 + b) * 16 + c) * 16 + d, rest)
  | _ => none

/-- The character of a numeric escape. A character beyond the basic plane is two escapes, a
high and a low half; a half on its own is no character. -/
def readNumericEscape? (text : List Char) : Option (Char × List Char) := do
  let (unit, rest) ← readUnit? text
  if 0xD800 ≤ unit ∧ unit < 0xDC00 then
    match rest with
    | '\\' :: 'u' :: rest =>
        let (low, rest) ← readUnit? rest
        if 0xDC00 ≤ low ∧ low < 0xE000 then
          return (Char.ofNat (0x10000 + (unit - 0xD800) * 0x400 + (low - 0xDC00)), rest)
        else none
    | _ => none
  else if 0xDC00 ≤ unit ∧ unit < 0xE000 then none
  else return (Char.ofNat unit, rest)

def shortEscape? : Char → Option Char
  | '"' => some '"'
  | '\\' => some '\\'
  | '/' => some '/'
  | 'b' => some '\x08'
  | 'f' => some '\x0c'
  | 'n' => some '\n'
  | 'r' => some '\r'
  | 't' => some '\t'
  | _ => none

def readStringChar? : List Char → Option (Option Char × List Char)
  | [] => none
  | '"' :: rest => some (none, rest)
  | '\\' :: 'u' :: rest => do
      let (c, rest) ← readNumericEscape? rest
      return (some c, rest)
  | '\\' :: c :: rest => do
      let c ← shortEscape? c
      return (some c, rest)
  | c :: rest => if c.toNat < 0x20 then none else some (some c, rest)

/-- A string body up to its closing quote. Every character takes at least one from the text,
so the length of the text is fuel enough. -/
def readStringBody? : Nat → List Char → Option (List Char × List Char)
  | 0, _ => none
  | fuel + 1, text => do
      match ← readStringChar? text with
      | (none, rest) => return ([], rest)
      | (some c, rest) =>
          let (value, rest) ← readStringBody? fuel rest
          return (c :: value, rest)

def readString? : List Char → Option (String × List Char)
  | '"' :: text => do
      let (value, rest) ← readStringBody? (text.length + 1) text
      return (String.ofList value, rest)
  | _ => none

/-! ### Numbers -/

def isNumberChar (c : Char) : Bool :=
  c.isDigit || c == '-' || c == '+' || c == '.' || c == 'e' || c == 'E'

def afterSign (isSign : Char → Bool) : List Char → List Char
  | c :: rest => if isSign c then rest else c :: rest
  | [] => []

def afterDigits? : List Char → Option (List Char)
  | c :: rest => if c.isDigit then some (rest.dropWhile Char.isDigit) else none
  | [] => none

def afterInteger? : List Char → Option (List Char)
  | '0' :: rest => some rest
  | text => afterDigits? text

def afterFraction? : List Char → Option (List Char)
  | '.' :: rest => afterDigits? rest
  | text => some text

def afterExponent? : List Char → Option (List Char)
  | [] => some []
  | c :: rest =>
      if c == 'e' || c == 'E' then
        afterDigits? (afterSign (fun sign => sign == '+' || sign == '-') rest)
      else some (c :: rest)

def isNumber (spelling : List Char) : Bool :=
  let unsigned := afterSign (· == '-') spelling
  ((afterInteger? unsigned).bind afterFraction?).bind afterExponent? == some []

/-- No character that numbers are made of may follow a number, so that a number is the longest
run of them. -/
def readNumber? (text : List Char) : Option (Json × List Char) :=
  let spelling := text.takeWhile isNumberChar
  if isNumber spelling then some (.number spelling, text.dropWhile isNumberChar) else none

/-! ### Values -/

mutual

def readValue? (fuel : Nat) (text : List Char) : Option (Json × List Char) :=
  match fuel with
  | 0 => none
  | fuel + 1 =>
      match skipBlanks text with
      | '"' :: rest => do
          let (value, rest) ← readString? ('"' :: rest)
          return (.string value, rest)
      | '[' :: rest =>
          match skipBlanks rest with
          | ']' :: rest => some (.array [], rest)
          | rest => do
              let (items, rest) ← readItems? fuel rest
              return (.array items, rest)
      | '\x7b' :: rest =>
          match skipBlanks rest with
          | '\x7d' :: rest => some (.object [], rest)
          | rest => do
              let (fields, rest) ← readFields? fuel rest
              return (.object fields, rest)
      | 'n' :: 'u' :: 'l' :: 'l' :: rest => some (.null, rest)
      | 't' :: 'r' :: 'u' :: 'e' :: rest => some (.bool true, rest)
      | 'f' :: 'a' :: 'l' :: 's' :: 'e' :: rest => some (.bool false, rest)
      | text => readNumber? text

def readItems? (fuel : Nat) (text : List Char) : Option (List Json × List Char) :=
  match fuel with
  | 0 => none
  | fuel + 1 => do
      let (item, rest) ← readValue? fuel text
      match skipBlanks rest with
      | ',' :: rest =>
          let (items, rest) ← readItems? fuel rest
          return (item :: items, rest)
      | ']' :: rest => return ([item], rest)
      | _ => none

def readFields? (fuel : Nat) (text : List Char) :
    Option (List (String × Json) × List Char) :=
  match fuel with
  | 0 => none
  | fuel + 1 => do
      let (key, rest) ← readString? (skipBlanks text)
      match skipBlanks rest with
      | ':' :: rest =>
          let (value, rest) ← readValue? fuel rest
          match skipBlanks rest with
          | ',' :: rest =>
              let (fields, rest) ← readFields? fuel rest
              return ((key, value) :: fields, rest)
          | '\x7d' :: rest => return ([(key, value)], rest)
          | _ => none
      | _ => none

end

def read? (document : String) : Option Json := do
  let text := document.toList
  let (value, rest) ← readValue? (2 * text.length + 2) text
  if (skipBlanks rest).isEmpty then return value else none

end Json
end Lineage
