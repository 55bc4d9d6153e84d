/-!
# Lengths of literals and comments

How far a comment, a string literal or a regular expression reaches. Each function gets the
text after the opening and counts characters; `none` means that the closing is missing. No
literal and no comment goes on past a null character.
-/

namespace Lineage.Source.Literal

/-! ## Comments -/

def blockComment? (depth : Nat) : List Char → Option Nat
  | '\x00' :: _ => none
  | '*' :: '/' :: rest =>
      match depth with
      | 0 => some 2
      | depth + 1 => (blockComment? depth rest).map (· + 2)
  | '/' :: '*' :: rest => (blockComment? (depth + 1) rest).map (· + 2)
  | _ :: rest => (blockComment? depth rest).map (· + 1)
  | [] => none

def endsLine (c : Char) : Bool :=
  c == '\n' || c == '\x00'

def line (text : List Char) : Nat :=
  (text.takeWhile (!endsLine ·)).length

/-! ## Strings -/

/-- How a string is delimited: with how many number signs, and by one quote or by three. -/
structure Delimiter where
  signs : Nat
  long : Bool
  deriving DecidableEq, Repr

namespace Delimiter

def quotes (delimiter : Delimiter) : List Char :=
  if delimiter.long then ['"', '"', '"'] else ['"']

def opening (delimiter : Delimiter) : List Char :=
  List.replicate delimiter.signs '#' ++ delimiter.quotes

def closing (delimiter : Delimiter) : List Char :=
  delimiter.quotes ++ List.replicate delimiter.signs '#'

def escape (delimiter : Delimiter) : List Char :=
  '\\' :: List.replicate delimiter.signs '#'

end Delimiter

def opening? (text : List Char) : Option Delimiter :=
  let signs := (text.takeWhile (· = '#')).length
  let rest := text.dropWhile (· = '#')
  if ['"', '"', '"'].isPrefixOf rest then some ⟨signs, true⟩
  else if ['"'].isPrefixOf rest then some ⟨signs, false⟩
  else none

inductive Context where
  | text (delimiter : Delimiter)
  | code (depth : Nat)
  deriving DecidableEq, Repr

/-- The length of the rest of a string literal. The contexts are those that are open,
innermost first, and `skip` characters have been dealt with already. -/
def string? : Nat → List Context → List Char → Option Nat
  | _, _, [] => none
  | _, _, '\x00' :: _ => none
  | skip + 1, contexts, _ :: rest => (string? skip contexts rest).map (· + 1)
  | 0, [], _ :: _ => none
  | 0, .text delimiter :: outer, c :: rest =>
      if delimiter.closing.isPrefixOf (c :: rest) then
        match outer with
        | [] => some delimiter.closing.length
        | _ => (string? (delimiter.closing.length - 1) outer rest).map (· + 1)
      else if (delimiter.escape ++ ['(']).isPrefixOf (c :: rest) then
        (string? delimiter.escape.length (.code 0 :: .text delimiter :: outer) rest).map (· + 1)
      else if delimiter.escape.isPrefixOf (c :: rest) then
        (string? delimiter.escape.length (.text delimiter :: outer) rest).map (· + 1)
      else (string? 0 (.text delimiter :: outer) rest).map (· + 1)
  | 0, .code depth :: outer, c :: rest =>
      match opening? (c :: rest) with
      | some delimiter =>
          (string? (delimiter.opening.length - 1) (.text delimiter :: .code depth :: outer)
            rest).map (· + 1)
      | none =>
          let contexts :=
            if c = '(' then .code (depth + 1) :: outer
            else if c ≠ ')' then .code depth :: outer
            else match depth with
              | 0 => outer
              | depth + 1 => .code depth :: outer
          (string? 0 contexts rest).map (· + 1)

/-! ## Regular expressions -/

def regexBody? : List Char → Option Nat
  | '/' :: _ => some 1
  | '\\' :: c :: rest => if endsLine c then none else (regexBody? rest).map (· + 2)
  | c :: rest => if endsLine c then none else (regexBody? rest).map (· + 1)
  | [] => none

/-- The length of a regular expression after its first solidus. It begins with neither a blank
nor an asterisk and is not empty. -/
def regex? (text : List Char) : Option Nat :=
  match text with
  | ' ' :: _ | '\t' :: _ | '*' :: _ | '/' :: _ => none
  | _ => regexBody? text

def extendedRegex? : List Char → Option Nat
  | '/' :: '#' :: _ => some 2
  | '\x00' :: _ | '\\' :: '\x00' :: _ => none
  | '\\' :: _ :: rest => (extendedRegex? rest).map (· + 2)
  | _ :: rest => (extendedRegex? rest).map (· + 1)
  | [] => none

end Lineage.Source.Literal
