import Lineage.Source.Grammar.Goal

/-!
# Lookahead

What the tokens ahead have in store. A rule is chosen by the next token alone wherever that is
enough; the functions here look further: past the modifiers of a declaration to its keyword,
past a bracket to what follows, into a brace for the head of a closure.
-/

namespace Lineage.Source

abbrev Ahead := List Token

namespace Ahead

def rest (ahead : Ahead) : Ahead := List.tail ahead

def skip (ahead : Ahead) (count : Nat) : Ahead := List.drop count ahead

def next? (ahead : Ahead) (test : Token → Bool) : Bool :=
  ahead.head?.any test

def reads (text : String) (ahead : Ahead) : Bool :=
  ahead.next? (·.reads text)

def readsOneOf (texts : List String) (ahead : Ahead) : Bool :=
  ahead.next? (·.readsOneOf texts)

def isWord (ahead : Ahead) : Bool :=
  ahead.next? Token.isWord

def isEnd (ahead : Ahead) : Bool :=
  ahead.isEmpty || ahead.next? Token.isEnd

def startsLine (ahead : Ahead) : Bool :=
  ahead.next? Token.startsLine

def beginsType (ahead : Ahead) : Bool :=
  ahead.isWord || ahead.readsOneOf ["(", "["]

def isLabel (ahead : Ahead) : Bool :=
  ahead.isWord && ahead.rest.reads ":"

/-! ## Brackets -/

def openers : List String := ["(", "[", openBrace]

def closers : List String := [")", "]", closeBrace]

def afterBracket (depth : Nat) : Ahead → Ahead
  | [] => []
  | token :: rest =>
      if token.readsOneOf openers then afterBracket (depth + 1) rest
      else if token.readsOneOf closers then
        match depth with
        | 0 => rest
        | depth + 1 => afterBracket depth rest
      else afterBracket depth rest

/-- Whether the bracket ahead holds attribute arguments, and not the parameters of a function
type. -/
def opensArguments (ahead : Ahead) : Bool :=
  ahead.reads "(" &&
    !(afterBracket 0 ahead.rest).readsOneOf ["->", "async", "throws", "rethrows"]

def afterAngle? (depth : Nat) : Ahead → Option Ahead
  | [] => none
  | token :: rest =>
      if token.reads "<" then afterAngle? (depth + 1) rest
      else if token.reads ">" then
        match depth with
        | 0 => some rest
        | depth + 1 => afterAngle? depth rest
      else if token.isWord || token.readsOneOf [",", ".", ":", "?", "[", "]", "(", ")", "->", "&", "@"]
      then afterAngle? depth rest
      else none

def opensGenericArguments (ahead : Ahead) : Bool :=
  ahead.reads "<" && ahead.next? Token.isGlued &&
    match afterAngle? 0 ahead.rest with
    | some rest =>
        rest.isEnd || rest.startsLine ||
          rest.readsOneOf ["(", ")", "]", closeBrace, openBrace, ".", ",", ":", ";", "?", "!"]
    | none => false

/-! ## Operators -/

/-- How many tokens after the first one are written together with it as one operator. -/
def operatorRest : Ahead → Nat
  | [] => 0
  | token :: rest => if token.isOperator && token.isGlued then operatorRest rest + 1 else 0

def operatorLength : Ahead → Nat
  | [] => 0
  | token :: rest => if token.isOperator then operatorRest rest + 1 else 0

def operator (ahead : Ahead) : String :=
  String.join ((ahead.take ahead.operatorLength).map Token.text)

def binaryOperators : List String :=
  ["/", "=", "*", "%", "<", ">", "|", "^", "?", "*/", "/*", "+=", "-=", "*=", "/=", "%=", ">>",
    "<<", "==", "===", "!=", "!==", "<=", ">=", "&&", "||", "??"]

def isPrefixOperator (ahead : Ahead) : Bool :=
  ahead.operatorLength > 0 && !binaryOperators.contains ahead.operator

def endsOperand (ahead : Ahead) : Bool :=
  ahead.isEnd || ahead.readsOneOf (closers ++ [",", ";", ":"])

/-! ## Heads of declarations -/

def modifierWords : List String :=
  ["public", "private", "fileprivate", "internal", "open", "package", "static", "final",
    "override", "required", "convenience", "lazy", "mutating", "nonmutating", "dynamic",
    "optional", "weak", "unowned", "indirect", "prefix", "postfix", "infix", "distributed",
    "nonisolated", "isolated", "borrowing", "consuming", "async"]

def declarationWords : List String :=
  ["class", "struct", "enum", "actor", "extension", "protocol", "func", "var", "let", "init",
    "deinit", "subscript", "typealias", "associatedtype", "import", "operator",
    "precedencegroup", "macro", "case"]

def memberWords : List String := ["func", "var", "let", "subscript", "init", "typealias"]

inductive HeadState where
  | ready
  | attributeName
  | attribute
  | modifier
  | brackets (depth : Nat)
  deriving DecidableEq, Repr

/-- The keyword of a declaration after its attributes and modifiers, with what follows it. -/
def headFrom : HeadState → Ahead → Option (String × Ahead)
  | _, [] => none
  | .attributeName, token :: rest => if token.isWord then headFrom .attribute rest else none
  | .brackets depth, token :: rest =>
      if token.readsOneOf openers then headFrom (.brackets (depth + 1)) rest
      else if token.readsOneOf closers then
        match depth with
        | 0 => headFrom .ready rest
        | depth + 1 => headFrom (.brackets depth) rest
      else headFrom (.brackets depth) rest
  | state, token :: rest =>
      if token.reads "@" then headFrom .attributeName rest
      else if state = .attribute && token.reads "." then headFrom .attributeName rest
      else if state ≠ .ready && token.reads "(" then headFrom (.brackets 0) rest
      else if token.readsOneOf declarationWords then some (token.text, rest)
      else if token.readsOneOf modifierWords then headFrom .modifier rest
      else none

def isClassModifier (rest : Ahead) : Bool :=
  match headFrom .ready rest with
  | some (keyword, _) => memberWords.contains keyword
  | none => false

/-- Whether a word that can also be a name begins a declaration. -/
def confirms (keyword : String) (rest : Ahead) : Bool :=
  match keyword with
  | "actor" | "macro" | "precedencegroup" => rest.isWord
  | "operator" => rest.isWord || rest.next? Token.isOperator
  | "init" => rest.readsOneOf ["(", "<", "?", "!"]
  | "deinit" => rest.reads openBrace
  | "subscript" => rest.readsOneOf ["(", "<"]
  | _ => true

def declaration? (ahead : Ahead) : Option String :=
  match headFrom .ready ahead with
  | some (keyword, rest) =>
      if keyword == "class" && isClassModifier rest then (headFrom .ready rest).map (·.1)
      else if confirms keyword rest then some keyword
      else none
  | none => none

def isModified : Ahead → Bool
  | [] => false
  | token :: rest =>
      token.reads "@" || token.readsOneOf modifierWords ||
        token.reads "class" && isClassModifier rest

def isBareModifier (ahead : Ahead) : Bool :=
  ahead.reads "@" ||
    ahead.readsOneOf ["public", "private", "fileprivate", "internal", "static", "final",
      "override", "required", "convenience", "mutating", "nonmutating", "dynamic", "optional",
      "weak", "unowned", "indirect", "prefix", "postfix", "infix", "distributed", "nonisolated"]

/-! ## Braces -/

def accessorWords : List String :=
  ["get", "set", "willSet", "didSet", "_modify", "_read", "unsafeAddress",
    "unsafeMutableAddress"]

def accessorModifiers : List String := ["mutating", "nonmutating", "__consuming", "borrowing"]

/-- Whether an accessor begins here: its word is followed by a body, a parameter, another
accessor or the end. -/
def beginsAccessor : Ahead → Bool
  | [] => false
  | token :: rest =>
      if token.readsOneOf accessorModifiers || token.reads "@" then
        readsOneOf accessorWords rest || readsOneOf accessorWords rest.tail
      else
        token.readsOneOf accessorWords &&
          readsOneOf (openBrace :: "(" :: closeBrace :: "async" :: "throws" ::
            accessorWords ++ accessorModifiers) rest

def opensClosure (ahead : Ahead) : Bool :=
  ahead.reads openBrace && !beginsAccessor ahead.rest

def hasClosureHead (depth : Nat) : Ahead → Bool
  | [] => false
  | token :: rest =>
      if token.reads "in" then depth == 0 || hasClosureHead depth rest
      else if token.readsOneOf ["(", "["] then hasClosureHead (depth + 1) rest
      else if token.readsOneOf [")", "]"] then
        match depth with
        | 0 => false
        | depth + 1 => hasClosureHead depth rest
      else if depth == 0 && (token.readsOneOf ["for", "let", "var", "if", "return", "case", "="])
      then false
      else if token.isWord ||
          token.readsOneOf [",", ":", ".", "?", "!", "->", "<", ">", "@", "&", "=", "...", "~"]
      then hasClosureHead depth rest
      else false

end Ahead

end Lineage.Source
