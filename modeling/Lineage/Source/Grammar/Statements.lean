import Lineage.Source.Grammar.Declarations

/-!
# Items and statements

The items of a block follow each other at separators: a semicolon, or a line break that stands
where the next token cannot continue an item. The members of an enumeration need none.
-/

namespace Lineage.Source

open Goal (read readName readAny phrase)

namespace Block

def ends (block : Block) (ahead : Ahead) : Bool :=
  ahead.isEnd ||
    match block with
    | .file => false
    | .branch =>
        ahead.readsOneOf [closeBrace, "case", "default"] ||
          ahead.reads "@" && ahead.rest.reads "unknown"
    | _ => ahead.reads closeBrace

def allows (block : Block) (keyword : String) : Bool :=
  match block with
  | .enumMembers => true
  | .requirements =>
      ["func", "init", "deinit", "subscript", "var", "let", "typealias", "associatedtype"].contains
        keyword
  | _ => keyword != "case"

def holdsStatements : Block → Bool
  | .file | .code | .branch => true
  | _ => false

def lacksBody (block : Block) (keyword : String) : Bool :=
  keyword == "func" && block != .requirements

end Block

/-- Whether the next token stands on a new line and cannot continue an item. -/
def separatesItems (ahead : Ahead) : Bool :=
  ahead.next? fun token =>
    (token.startsLine || token.followsBlock) && !token.readsOneOf ["?", ":", openBrace]

namespace StatementRule

def guardedExpression : Goal := (ExpressionRule.expression false).goal

def declared (block : Block) (keyword : String) : Option (List Goal) :=
  if block.allows keyword then
    if block.lacksBody keyword then
      (DeclarationRule.ofKeyword keyword).map fun goals =>
        goals.flatMap fun goal =>
          if goal = DeclarationRule.optionalBody.goal then functionBody else [goal]
    else DeclarationRule.ofKeyword keyword
  else none

def item (block : Block) (ahead : Ahead) : Option (List Goal) :=
  match Ahead.declaration? ahead with
  | some keyword => declared block keyword
  | none =>
      if ahead.isBareModifier then
        some [.enter, DeclarationRule.modifiers.goal, DeclarationRule.lostKeyword.goal]
      else if block.holdsStatements || ahead.next? (·.kind == .directive) then
        some [statement.goal]
      else none

def keywordStatement (word : String) : Option (List Goal) :=
  match word with
  | "if" => some (phrase "if_statement"
      ([read "if", conditions.goal] ++ braced .group ++ [ifTail.goal]))
  | "guard" => some (phrase "guard_statement"
      ([read "guard", conditions.goal, read "else"] ++ braced .group))
  | "while" => some (phrase "while_statement"
      ([read "while", conditions.goal] ++ braced .group))
  | "repeat" => some (phrase "repeat_while_statement"
      ([read "repeat"] ++ braced .group ++ [read "while", (ExpressionRule.expression true).goal]))
  | "for" => some (phrase "for_statement"
      ([read "for", forPrefix.goal, guardedExpression, DeclarationRule.annotation.goal, read "in",
        guardedExpression, guardCondition.goal] ++ braced .group))
  | "do" => some (phrase "do_statement"
      ([read "do", DeclarationRule.effects.goal] ++ braced .group ++ [catches.goal]))
  | "switch" => some (phrase "switch_statement"
      ([read "switch", guardedExpression] ++ bracketed .group openBrace closeBrace [cases.goal]))
  | "return" => some (phrase "control_transfer_statement" [read "return", optionalValue.goal])
  | "throw" => some (phrase "control_transfer_statement"
      [read "throw", (ExpressionRule.expression true).goal])
  | "break" => some (phrase "control_transfer_statement" [read "break", optionalLabel.goal])
  | "continue" => some (phrase "control_transfer_statement" [read "continue", optionalLabel.goal])
  | _ => none

def statementWords : List String :=
  ["if", "guard", "while", "repeat", "for", "do", "switch", "return", "throw", "break",
    "continue"]

def isLabelled (ahead : Ahead) : Bool :=
  ahead.isLabel && Ahead.readsOneOf ["for", "while", "repeat", "do", "if", "switch"] ahead.rest.rest

def expand (rule : StatementRule) (ahead : Ahead) : Option (List Goal) :=
  match rule with
  | items block =>
      if block.ends ahead then some []
      else (item block ahead).map (· ++ [(separator block).goal])
  | statements block =>
      some (if block.ends ahead then [] else phrase "statements" [(items block).goal])
  | separator block =>
      if block.ends ahead then some []
      else if block = .enumMembers then some [(items block).goal]
      else if ahead.reads ";" then some [readAny, (items block).goal]
      else if separatesItems ahead then some [.pause, (items block).goal]
      else none
  | statement =>
      if isLabelled ahead then some [readName, readAny, statement.goal]
      else
        match statementWords.find? fun word => ahead.reads word with
        | some word => keywordStatement word
        | none => some (phrase "expression" [(ExpressionRule.expression true).goal])
  | ifTail => introducedBy "else" ahead [elseBranch.goal]
  | elseBranch =>
      if ahead.reads "if" then
        some ([readAny, conditions.goal] ++ braced .group ++ [ifTail.goal])
      else some (braced .group)
  | conditions => some [condition.goal, conditionsTail.goal]
  | condition =>
      if ahead.readsOneOf ["let", "var"] then
        some [readAny, DeclarationRule.pattern.goal, DeclarationRule.annotation.goal, assigned.goal]
      else if ahead.reads "case" then
        some [readAny, guardedExpression, DeclarationRule.annotation.goal, read "=", guardedExpression]
      else some [guardedExpression]
  | conditionsTail => introducedBy "," ahead [condition.goal, conditionsTail.goal]
  | assigned => introducedBy "=" ahead [guardedExpression]
  | guardCondition => introducedBy "where" ahead [guardedExpression]
  | catches =>
      if ahead.reads "catch" then
        some ([readAny, catchPattern.goal] ++ braced .group ++ [catches.goal])
      else some []
  | catchPattern => some (if ahead.reads openBrace then [] else [casePatterns.goal])
  | cases =>
      if ahead.reads "case" then
        some [readAny, casePatterns.goal, read ":", (statements .branch).goal, cases.goal]
      else if ahead.reads "default" then
        some [readAny, read ":", (statements .branch).goal, cases.goal]
      else if ahead.reads "@" then some [DeclarationRule.oneAttribute.goal, cases.goal]
      else some []
  | casePatterns => some [guardedExpression, guardCondition.goal, casePatternsTail.goal]
  | casePatternsTail => introducedBy "," ahead [casePatterns.goal]
  | optionalValue =>
      if ahead.endsOperand || ahead.readsOneOf ["case", "default"] then some []
      else some [(ExpressionRule.expression true).goal]
  | optionalLabel => some (if ahead.isWord && !ahead.startsLine then [readName] else [])
  | forPrefix =>
      if ahead.readsOneOf ["try", "await", "case", "var"] then some [readAny, forPrefix.goal]
      else some []

end StatementRule

end Lineage.Source
