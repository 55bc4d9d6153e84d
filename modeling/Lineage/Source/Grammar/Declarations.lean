import Lineage.Source.Grammar.Types

/-!
# Declarations

A declaration is one phrase that starts with its attributes and modifiers. Only the
declarations of types have kinds of their own. A member of a class, a structure, an actor or an
extension may be any declaration, and a requirement of a protocol declares no type.
-/

namespace Lineage.Source

open Goal (read readName readAny phrase)

def introducedBy (text : String) (ahead : Ahead) (goals : List Goal) : Option (List Goal) :=
  some (if ahead.reads text then read text :: goals else [])

def braced (kind : NodeKind) : List Goal :=
  bracketed kind openBrace closeBrace [(StatementRule.statements .code).goal]

def functionBody : List Goal := braced (.phrase "function_body")

namespace DeclarationRule

def plain (kind keyword : String) (parts : List DeclarationRule) : List Goal :=
  phrase kind (modifiers.goal :: read keyword :: parts.map goal)

/-- The declaration of a type. Its members are read as `block` says. -/
def typeDeclaration (kind : NodeKind) (keyword : String) (name : Goal) (block : Block) :
    List Goal :=
  [.enter, modifiers.goal, .shift (.text keyword) (some .declarationKind), name,
    typeParameters.goal, inheritance.goal, constraints.goal, (body block).goal,
    .leave kind none]

def ownName : Goal := .shift .name (some .name)

def ofKeyword : String → Option (List Goal)
  | "class" => some (typeDeclaration .typeDeclaration "class" ownName .members)
  | "struct" => some (typeDeclaration .typeDeclaration "struct" ownName .members)
  | "actor" => some (typeDeclaration .typeDeclaration "actor" ownName .members)
  | "enum" => some (typeDeclaration .typeDeclaration "enum" ownName .enumMembers)
  | "extension" => some (typeDeclaration .typeDeclaration "extension"
      (TypeRule.whole (some .name)).goal .members)
  | "protocol" => some (typeDeclaration .protocolDeclaration "protocol" ownName .requirements)
  | "func" => some (plain "function_declaration" "func"
      [functionName, typeParameters, parameters, effects, result, constraints, optionalBody])
  | "init" => some (plain "init_declaration" "init"
      [initMark, typeParameters, parameters, effects, constraints, optionalBody])
  | "deinit" => some (phrase "deinit_declaration" (modifiers.goal :: read "deinit" :: functionBody))
  | "subscript" => some (plain "subscript_declaration" "subscript"
      [typeParameters, parameters, result, constraints, accessors])
  | "var" => some (plain "property_declaration" "var" [binding, bindingsTail])
  | "let" => some (plain "property_declaration" "let" [binding, bindingsTail])
  | "typealias" => some (phrase "typealias_declaration"
      [modifiers.goal, read "typealias", readName, typeParameters.goal, read "=",
        TypeRule.annotated.goal, constraints.goal])
  | "associatedtype" => some (phrase "associatedtype_declaration"
      [modifiers.goal, read "associatedtype", readName, bound.goal, constraints.goal,
        assignedType.goal])
  | "import" => some (phrase "import_declaration"
      [modifiers.goal, read "import", importKind.goal, readName, path.goal])
  | "operator" => some (phrase "operator_declaration"
      [modifiers.goal, read "operator", readAny, operatorRest.goal, operatorGroup.goal,
        optionalGroup.goal])
  | "precedencegroup" => some (phrase "precedence_group_declaration"
      [read "precedencegroup", readName, optionalGroup.goal])
  | "macro" => some (phrase "macro_declaration"
      [modifiers.goal, read "macro", readName, typeParameters.goal, parameters.goal,
        result.goal, defaultValue.goal, constraints.goal])
  | "case" => some (phrase "enum_entry"
      [modifiers.goal, read "case", enumEntry.goal, enumEntriesTail.goal, optionalSemicolon.goal])
  | _ => none

def expand (rule : DeclarationRule) (ahead : Ahead) : Option (List Goal) :=
  match rule with
  | lostKeyword => none
  | modifiers =>
      some (if ahead.isModified then phrase "modifiers" [modifierList.goal] else [])
  | modifierList =>
      if ahead.reads "@" then some [oneAttribute.goal, modifierList.goal]
      else if ahead.isModified then some [readAny, modifierArgument.goal, modifierList.goal]
      else some []
  | modifierArgument =>
      introducedBy "(" ahead [(ExpressionRule.balanced 0).goal]
  | oneAttribute => some (phrase "attribute" [read "@", readName, attributeTail.goal])
  | attributeList =>
      some (if ahead.reads "@" then [oneAttribute.goal, attributeList.goal] else [])
  | attributeTail =>
      if ahead.reads "." then some [readAny, readName, attributeTail.goal]
      else if ahead.opensArguments then some [readAny, (ExpressionRule.balanced 0).goal]
      else some []
  | typeParameters =>
      if ahead.reads "<" then
        some (phrase "type_parameters" [readAny, typeParameter.goal, typeParametersTail.goal])
      else some []
  | typeParameter =>
      if ahead.reads "each" && Ahead.isWord ahead.rest then
        some [attributeList.goal, readAny, readName, typeParameterBound.goal]
      else some [attributeList.goal, readName, typeParameterBound.goal]
  | typeParameterBound => introducedBy ":" ahead [(TypeRule.whole none).goal]
  | typeParametersTail =>
      if ahead.reads "," then some [readAny, typeParameter.goal, typeParametersTail.goal]
      else if ahead.reads "where" then some [constraints.goal, read ">"]
      else some [read ">"]
  | inheritance =>
      introducedBy ":" ahead [attributeList.goal, TypeRule.entry.goal, entriesTail.goal]
  | entriesTail =>
      if ahead.readsOneOf [",", "&"] then
        some [readAny, attributeList.goal, TypeRule.entry.goal, entriesTail.goal]
      else some []
  | constraints =>
      if ahead.reads "where" then
        some (phrase "type_constraints" [readAny, constraint.goal, constraintsTail.goal])
      else some []
  | constraint => some [attributeList.goal, TypeRule.core.goal, constraintRelation.goal]
  | constraintRelation =>
      if ahead.reads "=" then some [readAny, read "=", (TypeRule.whole none).goal]
      else some [read ":", (TypeRule.whole none).goal]
  | constraintsTail => introducedBy "," ahead [constraint.goal, constraintsTail.goal]
  | body block =>
      some (bracketed (.phrase "body") openBrace closeBrace [(StatementRule.items block).goal])
  | functionName =>
      if ahead.isWord then some [readName]
      else if ahead.next? Token.isOperator then some [readAny, operatorRest.goal]
      else none
  | operatorRest =>
      if ahead.next? (fun token => token.isOperator && token.isGlued) &&
          !(ahead.reads "<" && Ahead.isWord ahead.rest) then
        some [readAny, operatorRest.goal]
      else some []
  | parameters => some (bracketed .group "(" ")" [parameterList.goal])
  | parameterList =>
      some (if ahead.reads ")" then [] else [parameterLabel.goal, parametersTail.goal])
  | parametersTail => introducedBy "," ahead [parameterLabel.goal, parametersTail.goal]
  | parameterLabel =>
      let name := if Ahead.isWord ahead.rest then [readName, readName] else [readName]
      if ahead.reads "@" then some [oneAttribute.goal, parameterLabel.goal]
      else if ahead.isWord then
        some (phrase "parameter" (name ++ [read ":", parameterType.goal]))
      else none
  | parameterType => some [TypeRule.annotated.goal, TypeRule.ellipsis.goal, defaultValue.goal]
  | defaultValue => introducedBy "=" ahead [(ExpressionRule.expression true).goal]
  | effects =>
      if ahead.readsOneOf ["async", "throws", "rethrows", "reasync"] then
        some [readAny, effects.goal]
      else some []
  | result => introducedBy "->" ahead [TypeRule.annotated.goal]
  | optionalBody => some (if ahead.reads openBrace then functionBody else [])
  | accessors =>
      let parts :=
        if Ahead.beginsAccessor ahead.rest then [accessorList.goal]
        else [(StatementRule.statements .code).goal]
      some (bracketed (.phrase "computed_property") openBrace closeBrace parts)
  | accessorList =>
      if ahead.readsOneOf Ahead.accessorModifiers then some [readAny, accessorList.goal]
      else if ahead.reads "@" then some [oneAttribute.goal, accessorList.goal]
      else if ahead.readsOneOf Ahead.accessorWords then
        some (phrase "accessor" [readAny, accessorArgument.goal, effects.goal, optionalBody.goal]
          ++ [accessorList.goal])
      else some []
  | accessorArgument => introducedBy "(" ahead [readName, read ")"]
  | binding => some [pattern.goal, annotation.goal, constraints.goal, bindingValue.goal]
  | bindingValue =>
      if ahead.reads "=" then
        some [readAny, (ExpressionRule.expression true).goal, bindingValue.goal]
      else some (if ahead.reads openBrace then [accessors.goal] else [])
  | bindingsTail => introducedBy "," ahead [binding.goal, bindingsTail.goal]
  | pattern =>
      if ahead.reads "(" then some (bracketed (.phrase "tuple_pattern") "(" ")" [pattern.goal, patternsTail.goal])
      else some [readName]
  | patternsTail => introducedBy "," ahead [pattern.goal, patternsTail.goal]
  | annotation => introducedBy ":" ahead [TypeRule.annotated.goal]
  | initMark => some (if ahead.readsOneOf ["?", "!"] then [readAny] else [])
  | bound => introducedBy ":" ahead [(TypeRule.whole none).goal]
  | assignedType => introducedBy "=" ahead [(TypeRule.whole none).goal]
  | importKind =>
      if Ahead.isWord ahead.rest && !Ahead.startsLine ahead.rest &&
          ahead.readsOneOf
            ["typealias", "struct", "class", "enum", "protocol", "let", "var", "func"] then
        some [readAny]
      else some []
  | path => introducedBy "." ahead [readAny, path.goal]
  | operatorGroup => introducedBy ":" ahead [readName, groupTail.goal]
  | optionalGroup =>
      if ahead.reads openBrace then
        some (bracketed (.phrase "group_attributes") openBrace closeBrace [groupItems.goal])
      else some []
  | groupItems =>
      if ahead.isWord then
        some [readName, read ":", readName, groupTail.goal, groupItems.goal]
      else some []
  | groupTail => introducedBy "," ahead [readName, groupTail.goal]
  | enumEntry => some [readName, enumPayload.goal]
  | enumPayload =>
      if ahead.reads "(" then
        some (bracketed (.phrase "enum_type_parameters") "(" ")" [TypeRule.components.goal])
      else introducedBy "=" ahead [(ExpressionRule.expression true).goal]
  | enumEntriesTail => introducedBy "," ahead [enumEntry.goal, enumEntriesTail.goal]
  | optionalSemicolon => introducedBy ";" ahead []

end DeclarationRule

end Lineage.Source
