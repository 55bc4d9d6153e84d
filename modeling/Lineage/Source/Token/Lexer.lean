import Lineage.Text.Identifier
import Lineage.Source.Token
import Lineage.Source.Token.Literal

/-!
# From text to tokens

`lexeme` says what a text without leading white space begins with, and `tokens` cuts a whole
source. Every character goes into exactly one token: it is text, white space before a text, or
part of a comment. The last token is the end of the file.
-/

namespace Lineage.Source

open Text (isIdentifierStart isIdentifierPart)

/-! ## Single lexemes -/

inductive LexemeKind where
  | token (kind : TokenKind)
  | trivia
  deriving DecidableEq, Repr

structure Lexeme where
  kind : LexemeKind
  more : Nat
  deriving DecidableEq, Repr

def isBlank (c : Char) : Bool :=
  c == ' ' || '\t' ≤ c && c ≤ '\r'

def operandWords : List String :=
  ["return", "in", "case", "try", "await", "throw", "if", "while", "guard", "switch", "where",
    "else", "default", "is", "as", "do"]

/-- Whether an expression may begin after a token; else a solidus divides. -/
def allowsOperand : Option Token → Bool
  | none => true
  | some token =>
      match token.kind with
      | .word => operandWords.contains token.text
      | .symbol => !([")", "]", "\x7d", "?", "!"].contains token.text)
      | _ => false

def lineDirectives : List String :=
  ["if", "elseif", "else", "endif"]

def knownDirectives : List String :=
  ["available", "unavailable", "selector", "keyPath", "file", "fileID", "filePath", "line",
    "column", "function", "dsohandle", "colorLiteral", "imageLiteral", "fileLiteral",
    "externalMacro", "warning", "error", "sourceLocation"]

/-- The number of characters of a number after its first digit. A point belongs to the number
if a digit follows it. -/
def numberRest (rest : List Char) : Nat :=
  let isPart := fun (c : Char) => c.isAlphanum || c == '_'
  let whole := (rest.takeWhile isPart).length
  match rest.drop whole with
  | '.' :: c :: after =>
      if c.isDigit then whole + 2 + (after.takeWhile isPart).length else whole
  | sign :: c :: after =>
      let exponent := (rest.take whole).getLast?
      if (sign == '-' || sign == '+') && c.isDigit && (exponent == some 'e' || exponent == some 'E')
      then whole + 2 + (after.takeWhile isPart).length
      else whole
  | _ => whole

def lexemeAfterSign (first : Bool) (rest : List Char) : Lexeme :=
  let word := rest.takeWhile isIdentifierPart
  if first && ['!'].isPrefixOf rest then ⟨.trivia, Literal.line rest⟩
  else if lineDirectives.contains (String.ofList word) then ⟨.trivia, Literal.line rest⟩
  else if knownDirectives.contains (String.ofList word) then ⟨.token .directive, word.length⟩
  else if ['/'].isPrefixOf rest then
    match Literal.extendedRegex? (rest.drop 1) with
    | some length => ⟨.token .regex, length + 1⟩
    | none => ⟨.token .unknown, 0⟩
  else ⟨.token .unknown, 0⟩

def punctuation : List Char :=
  ['(', ')', '{', '}', '[', ']', ',', ':', ';', '.', '@', '\\']

def lexeme (prior : Option Token) (c : Char) (rest : List Char) : Lexeme :=
  match Literal.opening? (c :: rest) with
  | some delimiter =>
      match Literal.string? (delimiter.opening.length - 1) [.text delimiter] rest with
      | some length => ⟨.token .string, length⟩
      | none => ⟨.token .unknown, rest.length⟩
  | none =>
      if isIdentifierStart c then ⟨.token .word, (rest.takeWhile isIdentifierPart).length⟩
      else if c.isDigit then ⟨.token .number, numberRest rest⟩
      else if c == '$' then ⟨.token .word, (rest.takeWhile isIdentifierPart).length⟩
      else if c == '\x60' then
        let name := rest.takeWhile fun c => !(isBlank c || c == '\x60' || c == '\x00')
        match rest.drop name.length with
        | '\x60' :: _ => ⟨.token .word, name.length + 1⟩
        | _ => ⟨.token .unknown, 0⟩
      else if c == '#' then lexemeAfterSign prior.isNone rest
      else if c == '/' then
        if ['/'].isPrefixOf rest then ⟨.trivia, Literal.line rest⟩
        else
          let comment :=
            if ['*'].isPrefixOf rest then Literal.blockComment? 0 (rest.drop 1) else none
          match comment with
          | some length => ⟨.trivia, length + 1⟩
          | none =>
              match if allowsOperand prior then Literal.regex? rest else none with
              | some length => ⟨.token .regex, length⟩
              | none => ⟨.token .symbol, 0⟩
      else if c == '-' && ['>'].isPrefixOf rest then ⟨.token .symbol, 1⟩
      else if c == '.' && (['.', '.'].isPrefixOf rest || ['.', '<'].isPrefixOf rest) then
        ⟨.token .symbol, 2⟩
      else if punctuation.contains c || Token.isOperatorChar c then
        ⟨.token .symbol, 0⟩
      else ⟨.token .unknown, 0⟩

/-! ## Whole sources -/

theorem length_rest_lt {c : Char} {rest text : List Char} {n : Nat}
    (h : text.dropWhile isBlank = c :: rest) : (rest.drop n).length < text.length := by
  have dropped : (text.dropWhile isBlank).length ≤ text.length :=
    (List.dropWhile_suffix isBlank).length_le
  rw [h] at dropped
  simp only [List.length_cons, List.length_drop] at *
  omega

/-- The tokens of a text. Blanks in `white` and the trees in `extras` (in reverse order) have
been read since the token `prior`. -/
def tokensFrom (prior : Option Token) (extras : List Tree) (white : List Char)
    (text : List Char) : List Token :=
  let lead := String.ofList (white ++ text.takeWhile isBlank)
  match _h : text.dropWhile isBlank with
  | [] => [⟨.endOfFile, extras.reverse, lead, ""⟩]
  | c :: rest =>
      let lexeme := lexeme prior c rest
      let text := String.ofList (c :: rest.take lexeme.more)
      match lexeme.kind with
      | .token kind =>
          let token : Token := ⟨kind, extras.reverse, lead, text⟩
          token :: tokensFrom (some token) [] [] (rest.drop lexeme.more)
      | .trivia =>
          tokensFrom prior (.leaf none .comment lead text :: extras) [] (rest.drop lexeme.more)
  termination_by text.length
  decreasing_by all_goals exact length_rest_lt _h

/-- Whether a text opens with a byte order mark, which is read as a blank. -/
def hasMark (text : List Char) : Bool :=
  ['\uFEFF'].isPrefixOf text

def tokens (source : String) : List Token :=
  let text := source.toList
  if hasMark text then tokensFrom none [] (text.take 1) (text.drop 1)
  else tokensFrom none [] [] text

end Lineage.Source
