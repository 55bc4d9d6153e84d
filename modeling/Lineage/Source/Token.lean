import Lineage.Source.Tree

/-!
# Tokens

What a source is made of for the grammar. Words are not divided into keywords and names: which
of the two a word is depends on the place. Operators are read one character at a time, and
`isGlued` says which of them were written together.
-/

namespace Lineage.Source

inductive TokenKind where
  | word
  | number
  | string
  | regex
  | symbol
  | directive
  | unknown
  /-- A token that is not in the source: punctuation by its text, or a name for no text. -/
  | invented (expected : String)
  | endOfFile
  deriving DecidableEq, Repr

structure Token where
  kind : TokenKind
  /-- Comments and errors that stand before the token, in order. -/
  extras : List Tree
  lead : String
  text : String
  deriving Repr

namespace Token

def invent (expected : String) : Token :=
  ⟨.invented expected, [], "", ""⟩

def reads (text : String) (token : Token) : Bool :=
  match token.kind with
  | .word | .symbol => token.text == text
  | .invented expected => expected == text
  | _ => false

def readsOneOf (texts : List String) (token : Token) : Bool :=
  texts.any token.reads

def isWord (token : Token) : Bool :=
  match token.kind with
  | .word => true
  | .invented expected => expected == ""
  | _ => false

def isEnd (token : Token) : Bool :=
  token.kind == .endOfFile

def isSymbol (token : Token) : Bool :=
  token.kind == .symbol

def isGlued (token : Token) : Bool :=
  token.extras.isEmpty && token.lead.isEmpty

def breaksLine (white : String) : Bool :=
  white.toList.any fun c => c == '\n' || c == '\r'

def startsLine (token : Token) : Bool :=
  breaksLine token.lead || token.extras.any (breaksLine ·.lead)

def followsBlock (token : Token) : Bool :=
  token.extras.any fun tree => ['/', '*'].isPrefixOf tree.text.toList

def isOperatorChar (c : Char) : Bool :=
  if c.toNat < 0x80 then "/=-+!*%<>&|^~?".toList.contains c
  else
    [(0xA1, 0xA7), (0xA9, 0xA9), (0xAB, 0xAC), (0xAE, 0xAE), (0xB0, 0xB1), (0xB6, 0xB6),
      (0xBB, 0xBB), (0xBF, 0xBF), (0xD7, 0xD7), (0xF7, 0xF7), (0x2016, 0x2017),
      (0x2020, 0x2027), (0x2030, 0x203E), (0x2041, 0x2053), (0x2055, 0x205E),
      (0x2190, 0x23FF), (0x2500, 0x2775), (0x2794, 0x2BFF), (0x2E00, 0x2E7F),
      (0x3001, 0x3003), (0x3008, 0x3020), (0x3030, 0x3030)].any
      fun range => range.1 ≤ c.toNat && c.toNat ≤ range.2

def isOperator (token : Token) : Bool :=
  token.isSymbol && token.text != "->" &&
    (token.text == "..." || token.text == "..<" ||
      match token.text.toList with
      | c :: _ => isOperatorChar c
      | [] => false)

def source (token : Token) : String :=
  Tree.sources token.extras ++ token.lead ++ token.text

end Token

end Lineage.Source
