import Lineage.Source.Grammar.Statements

/-!
# Expressions and closures

Expressions are read as rows of operands and operators without precedence: what they mean does
not matter here, only which brackets belong together and where they end.
-/

namespace Lineage.Source

open Goal (read readName readAny phrase)

namespace ExpressionRule

def operandWords : List String := ["try", "await"]

/-- Whether the operator ahead applies to two operands. On a new line it has to be one that
cannot begin a statement. -/
def isBinary (free : Bool) (ahead : Ahead) : Bool :=
  ahead.operatorLength > 0 && (free || ahead.operator != "=") &&
    !(["/*", "*/"].contains ahead.operator) &&
    (!ahead.startsLine ||
      !(ahead.skip ahead.operatorLength).next? Token.isGlued ||
      ["&&", "||", "??", "==", "="].contains ahead.operator)

def isPostfix (ahead : Ahead) : Bool :=
  ahead.operatorLength > 0 && ahead.next? Token.isGlued &&
    let rest := ahead.skip ahead.operatorLength
    rest.endsOperand || rest.startsLine

def isChainMark (ahead : Ahead) : Bool :=
  ahead.next? Token.isGlued &&
    (ahead.reads "?" && !(ahead.rest.reads "?" && ahead.rest.next? Token.isGlued) ||
      ahead.reads "!" && !(ahead.rest.reads "=" && ahead.rest.next? Token.isGlued))

def expand (rule : ExpressionRule) (ahead : Ahead) : Option (List Goal) :=
  match rule with
  | expression free => some [(operand free).goal, (operators free).goal]
  | operand free =>
      if ahead.reads "try" then some [readAny, tryMark.goal, (operand free).goal]
      else if ahead.reads "await" then some [readAny, (operand free).goal]
      else if ahead.readsOneOf ["let", "var"] then some [readAny, (operand free).goal]
      else if ahead.reads "is" then some [readAny, (TypeRule.whole none).goal]
      else if ahead.next? Token.isOperator then
        if (ahead.skip ahead.operatorLength).readsOneOf [")", ","] then
          some (List.replicate ahead.operatorLength readAny)
        else if ahead.isPrefixOperator then
          some (List.replicate ahead.operatorLength readAny ++ [(operand free).goal])
        else none
      else some [atom.goal, (suffixes free).goal]
  | atom =>
      if ahead.readsOneOf ["if", "switch", "do"] then
        (["if", "switch", "do"].find? (ahead.reads ·)).bind StatementRule.keywordStatement
      else if ahead.isWord then some [readName, genericArguments.goal]
      else if ahead.reads "(" then some (bracketed (.phrase "tuple_expression") "(" ")" [listArguments.goal])
      else if ahead.reads "[" then some (bracketed (.phrase "array_literal") "[" "]" [collection.goal])
      else if ahead.reads openBrace then some [closure.goal]
      else if ahead.reads "." then some [readAny, readName, genericArguments.goal]
      else if ahead.reads "\\" then some [readAny, keyPathRoot.goal]
      else
        match ahead.head?.map Token.kind with
        | some .number | some .string | some .regex => some [readAny]
        | some .directive => some [readAny, directiveArguments.goal]
        | _ => none
  | suffixes free =>
      if ahead.reads "." then
        if ahead.rest.next? (·.kind == .number) then some [readAny, readAny, (suffixes free).goal]
        else some [readAny, readName, genericArguments.goal, (suffixes free).goal]
      else if isChainMark ahead then some [readAny, (suffixes free).goal]
      else if ahead.reads "(" && !ahead.startsLine then
        some (bracketed (.phrase "value_arguments") "(" ")" [listArguments.goal] ++
          [(suffixes free).goal])
      else if ahead.reads "[" && !ahead.startsLine then
        some (bracketed (.phrase "value_arguments") "[" "]" [listArguments.goal] ++
          [(suffixes free).goal])
      else if free && ahead.opensClosure then
        some [closure.goal, trailingLabels.goal, (suffixes free).goal]
      else some []
  | operators free =>
      if ahead.reads "as" then
        some [readAny, castMark.goal, (TypeRule.whole none).goal, (operators free).goal]
      else if ahead.reads "is" then
        some [readAny, (TypeRule.whole none).goal, (operators free).goal]
      else if ahead.operator = "?" then
        some [readAny, (expression free).goal, read ":", (expression free).goal]
      else if isPostfix ahead && ahead.operator ≠ "=" then
        some (List.replicate ahead.operatorLength readAny ++ [(operators free).goal])
      else if isBinary free ahead then
        some (List.replicate ahead.operatorLength readAny ++
          [(operand free).goal, (operators free).goal])
      else some []
  | tryMark =>
      some (if ahead.readsOneOf ["?", "!"] && ahead.next? Token.isGlued then [readAny] else [])
  | castMark =>
      some (if ahead.readsOneOf ["?", "!"] && ahead.next? Token.isGlued then [readAny] else [])
  | listArguments =>
      if ahead.readsOneOf [")", "]"] then some []
      else some [listArgument.goal, listArgumentsTail.goal]
  | listArgument =>
      if ahead.isLabel then
        if ahead.rest.rest.endsOperand then some [readName, readAny]
        else if Ahead.isLabel ahead.rest.rest then some [readName, readAny, listArgument.goal]
        else some [readName, readAny, (expression true).goal]
      else some [(expression true).goal]
  | listArgumentsTail => introducedBy "," ahead [listArgument.goal, listArgumentsTail.goal]
  | collection =>
      if ahead.reads "]" then some []
      else if ahead.reads ":" && ahead.rest.reads "]" then some [readAny]
      else some [(expression true).goal, collectionTail.goal]
  | collectionTail =>
      if ahead.reads ":" then some [readAny, (expression true).goal, pairsTail.goal]
      else some [elementsTail.goal]
  | elementsTail =>
      if ahead.reads "," then
        if ahead.rest.reads "]" then some [readAny]
        else some [readAny, (expression true).goal, elementsTail.goal]
      else some []
  | pairsTail =>
      if ahead.reads "," then
        if ahead.rest.reads "]" then some [readAny]
        else some [readAny, (expression true).goal, read ":", (expression true).goal, pairsTail.goal]
      else some []
  | closure =>
      some (bracketed (.phrase "lambda_literal") openBrace closeBrace
        [closureHead.goal, (StatementRule.statements .code).goal])
  | closureHead =>
      some (if Ahead.hasClosureHead 0 ahead then [(closureHeadRest 0).goal] else [])
  | closureHeadRest depth =>
      if ahead.isEnd then none
      else if ahead.reads "in" && depth == 0 then some [readAny]
      else if ahead.readsOneOf ["(", "["] then some [readAny, (closureHeadRest (depth + 1)).goal]
      else if ahead.readsOneOf [")", "]"] then some [readAny, (closureHeadRest (depth - 1)).goal]
      else some [readAny, (closureHeadRest depth).goal]
  | trailingLabels =>
      if ahead.isLabel && ahead.rest.rest.reads openBrace then
        some [readName, readAny, closure.goal, trailingLabels.goal]
      else some []
  | genericArguments =>
      if ahead.opensGenericArguments then
        some [.enter, readAny, TypeRule.argument.goal, TypeRule.argumentsTail.goal,
          .leave .typeArguments none]
      else some []
  | keyPathRoot => some (if ahead.isWord then [readName, genericArguments.goal] else
      if ahead.reads "." && ahead.rest.readsOneOf ["[", "?", "!"] then [readAny] else [])
  | directiveArguments => introducedBy "(" ahead [(balanced 0).goal]
  | balanced depth =>
      if ahead.isEnd then some [read ")"]
      else if ahead.readsOneOf Ahead.openers then some [readAny, (balanced (depth + 1)).goal]
      else if ahead.readsOneOf Ahead.closers then
        match depth with
        | 0 => some [readAny]
        | depth + 1 => some [readAny, (balanced depth).goal]
      else some [readAny, (balanced depth).goal]

end ExpressionRule

/-! ## All rules -/

/-- The goals that answer a rule before the given tokens, if any do. -/
def Rule.expand (rule : Rule) (ahead : Ahead) : Option (List Goal) :=
  match rule with
  | .type rule => rule.expand ahead
  | .declaration rule => rule.expand ahead
  | .statement rule => rule.expand ahead
  | .expression rule => rule.expand ahead

end Lineage.Source
