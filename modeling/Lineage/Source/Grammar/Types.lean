import Lineage.Source.Grammar.Lookahead

/-!
# Types and inheritance entries

A type is one phrase. The type of a name, of its generic arguments and of the names after it is
a phrase of the kind `userType` within it, or is the whole of an inheritance entry.
-/

namespace Lineage.Source

open Goal (read readName readAny phrase)

/-- Words that stand before a type if another type follows them. -/
def typeWords : List String := ["some", "any", "each", "repeat"]

def parameterWords : List String :=
  ["inout", "borrowing", "consuming", "isolated", "sending", "__owned", "__shared"]

def opensWordedType (words : List String) (ahead : Ahead) : Bool :=
  ahead.readsOneOf words && Ahead.beginsType ahead.rest

def isTypeMark (mark : String) (ahead : Ahead) : Bool :=
  ahead.reads mark && ahead.next? Token.isGlued

def continuesFunctionType (ahead : Ahead) : Bool :=
  ahead.readsOneOf ["->", "?", "async", "throws", "rethrows"]

namespace TypeRule

def expand (rule : TypeRule) (ahead : Ahead) : Option (List Goal) :=
  match rule with
  | whole field => some [.enter, core.goal, tail.goal, .leave (.phrase "type") field]
  | annotated =>
      if ahead.reads "@" then some [DeclarationRule.oneAttribute.goal, annotated.goal]
      else if opensWordedType parameterWords ahead then some [readAny, annotated.goal]
      else some [(whole none).goal, unwrapMark.goal]
  | unwrapMark => some (if isTypeMark "!" ahead then [readAny] else [])
  | argument =>
      if ahead.reads "@" then
        some (phrase "type_modifiers"
          [DeclarationRule.oneAttribute.goal, DeclarationRule.attributeList.goal] ++
          [(whole none).goal])
      else some [(whole none).goal]
  | core =>
      if opensWordedType typeWords ahead then some [readAny, core.goal]
      else if ahead.isWord then
        some [.enter, readName, nameTail.goal, .leave .userType none]
      else if ahead.reads "(" then
        some (bracketed (.phrase "tuple_type") "(" ")" [components.goal])
      else if ahead.reads "[" then
        some (bracketed (.phrase "array_type") "[" "]" [(whole none).goal, elementTail.goal])
      else none
  | tail =>
      if isTypeMark "?" ahead then some [readAny, tail.goal]
      else if ahead.reads "." then some [readAny, readName, tail.goal]
      else if ahead.reads "&" then some [readAny, core.goal, tail.goal]
      else if ahead.reads "->" then
        some [readAny, DeclarationRule.attributeList.goal, core.goal, tail.goal]
      else if ahead.readsOneOf ["async", "throws", "rethrows"] &&
          (ahead.rest.reads "->" || ahead.rest.rest.reads "->") then
        some [readAny, tail.goal]
      else some []
  | nameTail =>
      if ahead.reads "<" then
        some [.enter, readAny, argument.goal, argumentsTail.goal,
          .leave .typeArguments none, nameTail.goal]
      else if ahead.reads "." then some [readAny, readName, nameTail.goal]
      else some []
  | argumentsTail =>
      if ahead.reads "," then some [readAny, argument.goal, argumentsTail.goal]
      else some [read ">"]
  | elementTail =>
      if ahead.reads ":" then some [readAny, (whole none).goal] else some []
  | components =>
      if ahead.reads ")" then some [] else some [component.goal, componentsTail.goal]
  | component => some [componentLabel.goal, annotated.goal, ellipsis.goal,
      DeclarationRule.defaultValue.goal]
  | componentLabel =>
      if ahead.isLabel then some [readName, read ":"]
      else if ahead.isWord && Ahead.isLabel ahead.rest then some [readName, readName, read ":"]
      else some []
  | componentsTail =>
      if ahead.reads "," then some [readAny, component.goal, componentsTail.goal] else some []
  | ellipsis => if ahead.reads "..." then some [readAny] else some []
  | entry =>
      if ahead.isWord && !opensWordedType typeWords ahead then
        some [.enter, core.goal, entryTail.goal, .leave .inheritanceSpecifier none]
      else if ahead.beginsType then
        some ([.enter] ++ phrase "function_type" [core.goal, functionTail.goal] ++
          [.leave .inheritanceSpecifier none])
      else none
  | entryTail =>
      if continuesFunctionType ahead then
        some [.adopt, functionTail.goal, .leave (.phrase "function_type") none]
      else some []
  | functionTail =>
      if ahead.readsOneOf ["?", "async", "throws", "rethrows"] then
        some [readAny, functionTail.goal]
      else if ahead.reads "." then some [readAny, readName, functionTail.goal]
      else some [read "->", DeclarationRule.attributeList.goal, (whole none).goal]

end TypeRule

end Lineage.Source
