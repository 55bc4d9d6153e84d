import Lineage.Source.Token

/-!
# Goals

A grammar rule is answered by a list of goals that are to be met in order: tokens to be read,
phrases to be begun and ended, and further rules. The rules are grouped by what they describe;
how each is answered is said in the module of its group.
-/

namespace Lineage.Source

/-! ## Rules -/

inductive Block where
  | file
  | code
  | branch
  | members
  | enumMembers
  | requirements
  deriving DecidableEq, Repr

inductive TypeRule where
  | whole (field : Option Field)
  | annotated
  | unwrapMark
  | argument
  | core
  | tail
  | nameTail
  | argumentsTail
  | elementTail
  | components
  | component
  | componentsTail
  | componentLabel
  | ellipsis
  | entry
  | entryTail
  | functionTail
  deriving DecidableEq, Repr

inductive DeclarationRule where
  | lostKeyword
  | modifiers
  | modifierList
  | modifierArgument
  | oneAttribute
  | attributeList
  | attributeTail
  | typeParameters
  | typeParameter
  | typeParameterBound
  | typeParametersTail
  | inheritance
  | entriesTail
  | constraints
  | constraint
  | constraintRelation
  | constraintsTail
  | body (block : Block)
  | functionName
  | operatorRest
  | parameters
  | parameterList
  | parametersTail
  | parameterLabel
  | parameterType
  | defaultValue
  | effects
  | result
  | optionalBody
  | accessors
  | accessorList
  | accessorArgument
  | binding
  | bindingValue
  | bindingsTail
  | pattern
  | patternsTail
  | annotation
  | initMark
  | bound
  | assignedType
  | importKind
  | path
  | operatorGroup
  | optionalGroup
  | groupItems
  | groupTail
  | enumEntry
  | enumPayload
  | enumEntriesTail
  | optionalSemicolon
  deriving DecidableEq, Repr

inductive StatementRule where
  | items (block : Block)
  | statements (block : Block)
  | separator (block : Block)
  | statement
  | ifTail
  | elseBranch
  | conditions
  | condition
  | conditionsTail
  | assigned
  | guardCondition
  | catches
  | catchPattern
  | cases
  | casePatterns
  | casePatternsTail
  | optionalValue
  | optionalLabel
  | forPrefix
  deriving DecidableEq, Repr

/-- The flag says whether closures may trail a call, and assignments may occur: neither may
where a brace opens the body of a statement. -/
inductive ExpressionRule where
  | expression (free : Bool)
  | operand (free : Bool)
  | atom
  | suffixes (free : Bool)
  | operators (free : Bool)
  | tryMark
  | castMark
  | listArguments
  | listArgument
  | listArgumentsTail
  | collection
  | collectionTail
  | elementsTail
  | pairsTail
  | closure
  | closureHead
  | closureHeadRest (depth : Nat)
  | trailingLabels
  | genericArguments
  | keyPathRoot
  | directiveArguments
  | balanced (depth : Nat)
  deriving DecidableEq, Repr

inductive Rule where
  | type (rule : TypeRule)
  | declaration (rule : DeclarationRule)
  | statement (rule : StatementRule)
  | expression (rule : ExpressionRule)
  deriving DecidableEq, Repr

/-! ## Goals -/

inductive Terminal where
  /-- Any word: a keyword is a name where only a name can stand. -/
  | name
  | text (text : String)
  | any
  | endOfFile
  deriving DecidableEq, Repr

def Terminal.accepts (terminal : Terminal) (token : Token) : Bool :=
  match terminal with
  | .name => token.isWord
  | .text expected => token.reads expected
  | .any => !token.isEnd
  | .endOfFile => token.isEnd

def Terminal.leafKind : Terminal → LeafKind
  | .name => .name
  | _ => .token

inductive Goal where
  | rule (rule : Rule)
  | shift (terminal : Terminal) (field : Option Field)
  | enter
  | leave (kind : NodeKind) (field : Option Field)
  /-- Begin a phrase whose first part is the part that was read last. -/
  | adopt
  | pause
  deriving DecidableEq, Repr

/-! ## Short forms -/

def TypeRule.goal (rule : TypeRule) : Goal := .rule (.type rule)
def DeclarationRule.goal (rule : DeclarationRule) : Goal := .rule (.declaration rule)
def StatementRule.goal (rule : StatementRule) : Goal := .rule (.statement rule)
def ExpressionRule.goal (rule : ExpressionRule) : Goal := .rule (.expression rule)

namespace Goal

def read (text : String) : Goal := .shift (.text text) none

def readName : Goal := .shift .name none

def readAny : Goal := .shift .any none

def phrase (name : String) (parts : List Goal) : List Goal :=
  .enter :: parts ++ [.leave (.phrase name) none]

end Goal

def bracketed (kind : NodeKind) (opening closing : String) (goals : List Goal) : List Goal :=
  [.enter, .read opening] ++ goals ++ [.read closing, .leave kind none]

def openBrace : String := "\x7b"

def closeBrace : String := "\x7d"

end Lineage.Source
