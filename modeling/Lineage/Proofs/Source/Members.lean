import Lineage.Proofs.Source.Types

/-!
# Trees of printed declarations

A machine that is to read the items of a block and stands before the tokens of declarations puts
the tree of each into the innermost phrase.  What stands before a declaration is put there first:
the comments, and the line break if it separates two items.
-/

namespace Lineage.Source

open Printer
open Goal (read readName readAny)

variable {gap gap' : Gap} {name : String} {kind : DeclarationKind} {block : Block}
variable {rest : Ahead} {token : Token}

/-! ## Declarations by their kind -/

namespace Printer.Member

def nodeKind : DeclarationKind → NodeKind
  | .protocol => .protocolDeclaration
  | _ => .typeDeclaration

def innerBlock : DeclarationKind → Block
  | .enum => .enumMembers
  | .protocol => .requirements
  | _ => .members

/-- An extension gives the type that it extends instead of a name of its own. -/
def nameGoal : DeclarationKind → Goal
  | .extension => (TypeRule.whole (some .name)).goal
  | _ => DeclarationRule.ownName

def nameTree (name : String) : DeclarationKind → Tree
  | .extension =>
      .node (some .name) (.phrase "type") [(Supertype.apply name []).tree .space]
  | _ => .leaf (some .name) .name Gap.space.lead name

end Printer.Member

open Member

theorem ofKeyword_keyword (kind : DeclarationKind) :
    DeclarationRule.ofKeyword kind.keyword =
      some (DeclarationRule.typeDeclaration (nodeKind kind) kind.keyword (nameGoal kind)
        (innerBlock kind)) := by
  cases kind <;> rfl

/-! ## Lookahead at declarations -/

theorem isClassModifier_word (typeName : Supertype.isTypeName name = true) :
    Ahead.isClassModifier (gap.word name :: rest) = false := by
  have unmarked : (gap.word name).reads "@" = false :=
    reads_eq_false_of_isTypeName typeName (by decide)
  have undeclared : (gap.word name).readsOneOf Ahead.declarationWords = false :=
    readsOneOf_eq_false_of_isTypeName typeName (by decide)
  have unmodified : (gap.word name).readsOneOf Ahead.modifierWords = false :=
    readsOneOf_eq_false_of_isTypeName typeName (by decide)
  have headless : Ahead.headFrom .ready (gap.word name :: rest) = none := by
    simp [Ahead.headFrom, unmarked, undeclared, unmodified]
  rw [Ahead.isClassModifier, headless]

theorem declaration?_keyword (typeName : Supertype.isTypeName name = true) :
    Ahead.declaration? (gap.word kind.keyword :: gap'.word name :: rest) = some kind.keyword := by
  have head : Ahead.headFrom .ready (gap.word kind.keyword :: gap'.word name :: rest) =
      some (kind.keyword, gap'.word name :: rest) := by
    cases kind <;> rfl
  have confirmed : Ahead.confirms kind.keyword (gap'.word name :: rest) = true := by
    cases kind <;> rfl
  simp only [Ahead.declaration?, head, isClassModifier_word typeName, Bool.and_false,
    Bool.false_eq_true, if_false, confirmed, if_true]

theorem isModified_keyword (typeName : Supertype.isTypeName name = true) :
    Ahead.isModified (gap.word kind.keyword :: gap'.word name :: rest) = false := by
  rw [Ahead.isModified, isClassModifier_word typeName]
  cases kind <;> rfl

/-! ## Goals of declarations -/

def Holds (block : Block) : Prop := block ∈ [Block.file, .members, .enumMembers]

theorem expand_items (holds : Holds block) (typeName : Supertype.isTypeName name = true) :
    Rule.expand (.statement (.items block))
        (gap.word kind.keyword :: gap'.word name :: rest) =
      some (DeclarationRule.typeDeclaration (nodeKind kind) kind.keyword (nameGoal kind)
        (innerBlock kind) ++ [(StatementRule.separator block).goal]) := by
  have opened : block.ends (gap.word kind.keyword :: gap'.word name :: rest) = false := by
    simp only [Holds, List.mem_cons, List.not_mem_nil, or_false] at holds
    rcases holds with rfl | rfl | rfl <;> cases kind <;> rfl
  have allowed : block.allows kind.keyword = true := by
    simp only [Holds, List.mem_cons, List.not_mem_nil, or_false] at holds
    rcases holds with rfl | rfl | rfl <;> cases kind <;> rfl
  have bodied : block.lacksBody kind.keyword = false := by
    cases kind <;> rfl
  simp only [Rule.expand, StatementRule.expand, opened, Bool.false_eq_true, if_false,
    StatementRule.item, declaration?_keyword typeName, StatementRule.declared, allowed, if_true,
    bodied, ofKeyword_keyword, Option.map_some]

theorem expand_items_of_ends {ahead : Ahead} (ends : block.ends ahead = true) :
    Rule.expand (.statement (.items block)) ahead = some [] := by
  simp only [Rule.expand, StatementRule.expand, ends, if_true]

theorem expand_modifiers (typeName : Supertype.isTypeName name = true) :
    Rule.expand (.declaration .modifiers) (gap.word kind.keyword :: gap'.word name :: rest) =
      some [] := by
  simp only [Rule.expand, DeclarationRule.expand, isModified_keyword typeName, Bool.false_eq_true,
    if_false]

theorem expand_constraints :
    Rule.expand (.declaration .constraints) (gap.symbol openBrace :: rest) = some [] := rfl

theorem expand_body :
    Rule.expand (.declaration (.body block)) rest =
      some [.enter, read openBrace, (StatementRule.items block).goal, read closeBrace,
        .leave (.phrase "body") none] := rfl

theorem EndsType.expand_typeParameters {ahead : Ahead} (ends : EndsType ahead) :
    Rule.expand (.declaration .typeParameters) ahead = some [] := by
  obtain ⟨gap, symbol, rest, ending, rfl⟩ := ends
  simp only [List.mem_cons, List.not_mem_nil, or_false] at ending
  rcases ending with rfl | rfl | rfl | rfl <;> rfl

theorem endsType_clauseTokens (types : List Supertype) :
    EndsType (Supertype.clauseTokens types ++ gap.symbol openBrace :: rest) := by
  cases types with
  | nil => exact ⟨gap, openBrace, rest, by simp, rfl⟩
  | cons first types => exact ⟨.empty, ":", _, by simp, rfl⟩

/-! ## Line breaks between items -/

theorem mem_white_fillAll (fillers : List Filler) (broken : '\n' ∈ gap.white) :
    '\n' ∈ (gap.fillAll fillers).white := by
  induction fillers generalizing gap with
  | nil => exact broken
  | cons filler fillers ih =>
      refine @ih (gap.fill filler) ?_
      cases filler <;> simp [Gap.fill]

theorem startsLine_word (broken : '\n' ∈ gap.white) (text : String) :
    (gap.word text).startsLine = true := by
  have breaks : Token.breaksLine gap.lead = true := by
    rw [Token.breaksLine, Gap.lead, String.toList_ofList, List.any_eq_true]
    exact ⟨'\n', broken, rfl⟩
  rw [Token.startsLine]
  exact Bool.or_eq_true_iff.mpr (.inl breaks)

theorem expand_separator (holds : Holds block) (unlisted : block ≠ .enumMembers)
    (broken : '\n' ∈ gap.white) :
    Rule.expand (.statement (.separator block)) (gap.word kind.keyword :: rest) =
      some [.pause, (StatementRule.items block).goal] := by
  have opened : block.ends (gap.word kind.keyword :: rest) = false := by
    simp only [Holds, List.mem_cons, List.not_mem_nil, or_false] at holds
    rcases holds with rfl | rfl | rfl <;> cases kind <;> rfl
  have separates : separatesItems (gap.word kind.keyword :: rest) = true := by
    have plain : (gap.word kind.keyword).readsOneOf ["?", ":", openBrace] = false := by
      cases kind <;> rfl
    simp [separatesItems, startsLine_word broken, plain]
  have plain : (gap.word kind.keyword).reads ";" = false := by
    cases kind <;> rfl
  simp only [Rule.expand, StatementRule.expand, opened, Bool.false_eq_true, if_false, unlisted,
    Ahead.reads_cons, plain, separates, if_true]

theorem expand_separator_of_ends {ahead : Ahead} (ends : block.ends ahead = true) :
    Rule.expand (.statement (.separator block)) ahead = some [] := by
  simp only [Rule.expand, StatementRule.expand, ends, if_true]

theorem expand_separator_enumMembers :
    Rule.expand (.statement (.separator .enumMembers)) (gap.word kind.keyword :: rest) =
      some [(StatementRule.items .enumMembers).goal] := by
  cases kind <;> rfl

/-! ## Trees of declarations -/

namespace Gap

/-- The trees of a gap before an item: its comments, and the line break if the item is set off
from one before it. -/
def itemTrees (isPaused : Bool) (gap : Gap) : List Tree :=
  gap.extras ++ if isPaused then [.leaf none .separator gap.lead ""] else []

def itemGap (isPaused : Bool) (gap : Gap) : Gap :=
  if isPaused then .empty else ⟨[], gap.white⟩

end Gap

namespace Printer.Member

mutual

def tree (gap : Gap) : Member → Tree
  | declare _ kind name supertypes members below =>
      let closing := Gap.newline.fillAll below
      .node none (nodeKind kind)
        (.leaf (some .declarationKind) .token gap.lead kind.keyword :: nameTree name kind ::
          (Supertype.clauseTrees supertypes ++
            [.node none (.phrase "body") (.leaf none .token Gap.space.lead openBrace ::
              (treesAll false (innerBlock kind != .enumMembers) .newline members ++
                (closing.extras ++ [.leaf none .token closing.lead closeBrace])))]))

/-- The trees of declarations one after the other. Whether they are set off is said for the first
and for the others. -/
def treesAll (isPaused pauses : Bool) (gap : Gap) : List Member → List Tree
  | [] => []
  | member :: rest =>
      let before := gap.fillAll member.above
      before.itemTrees isPaused ++
        tree (before.itemGap isPaused) member :: treesAll pauses pauses .newline rest

end

end Printer.Member

/-! ## Reading declarations -/

namespace Machine

variable {goals : List Goal} {trees : List Tree} {phrases : List (List Tree)} {ahead : Ahead}
variable {root : Tree} {members : List Member}

theorem completes_name (typeName : Supertype.isTypeName name = true) (ends : EndsType ahead)
    (completes : Completes 200 goals ((trees ++ [nameTree name kind]) :: phrases) ahead root) :
    Completes 20 (nameGoal kind :: goals) (trees :: phrases) (Gap.space.word name :: ahead)
      root := by
  cases kind with
  | extension =>
      have printable : (Supertype.apply name []).isPrintable = true := by
        rw [Supertype.isPrintable, typeName]
        rfl
      have read := (readsCore _ printable).phrase printable .tail (by simp) rfl ends completes
      exact .rule rfl (read.mono (by decide))
  | «class» | struct | enum | actor | protocol =>
      exact .shift_bare rfl rfl (completes.mono (by decide))

theorem completes_typeParameters (ends : EndsType ahead)
    (completes : Completes 195 goals phrases ahead root) :
    Completes 200 (DeclarationRule.typeParameters.goal :: goals) phrases ahead root := by
  obtain ⟨token, rest, rfl⟩ := ends.exists_eq_cons
  exact .skip ends.expand_typeParameters (completes.mono (by decide))

/-- Whether the items of a block that start with a declaration are met by its tree first. -/
def ReadsItem (member : Member) : Prop :=
  ∀ ⦃isInner block gap goals trees phrases ahead root⦄,
    member.isPrintable isInner = true → Holds block → ahead ≠ [] →
    Completes 200 ((StatementRule.separator block).goal :: goals)
      ((trees ++ gap.extras ++ [member.tree ⟨[], gap.white⟩]) :: phrases) ahead root →
    Completes 10 ((StatementRule.items block).goal :: goals) (trees :: phrases)
      (member.tokens gap ++ ahead) root

theorem exists_tokens_member (member : Member) :
    ∃ kind more, ∀ gap, member.tokens gap = gap.word (DeclarationKind.keyword kind) :: more := by
  obtain ⟨above, kind, name, supertypes, inner, below⟩ := member
  exact ⟨kind, _, fun gap => rfl⟩

/-- An item after others: a line break sets it off, except between the members of an
enumeration. -/
theorem ReadsItem.later {isInner isPaused : Bool} {member : Member} {before : Gap}
    (reads : ReadsItem member) (printable : member.isPrintable isInner = true)
    (holds : Holds block) (same : isPaused = (block != .enumMembers))
    (broken : '\n' ∈ before.white) (nonempty : ahead ≠ [])
    (completes : Completes 200 ((StatementRule.separator block).goal :: goals)
      ((trees ++ (before.itemTrees isPaused ++ [member.tree (before.itemGap isPaused)])) :: phrases)
      ahead root) :
    Completes 200 ((StatementRule.separator block).goal :: goals) (trees :: phrases)
      (member.tokens before ++ ahead) root := by
  obtain ⟨kind, more, spelled⟩ := exists_tokens_member member
  subst same
  by_cases unpaused : block = .enumMembers
  · subst unpaused
    have item : Completes 10 ((StatementRule.items .enumMembers).goal :: goals) (trees :: phrases)
        (member.tokens before ++ ahead) root := by
      refine reads printable holds nonempty ?_
      simpa [Gap.itemTrees, Gap.itemGap] using completes
    rw [spelled] at item ⊢
    exact .rule expand_separator_enumMembers (item.mono (by decide))
  · have paused : (block != .enumMembers) = true := bne_iff_ne.mpr unpaused
    have item : Completes 10 ((StatementRule.items block).goal :: goals)
        ((trees ++ before.itemTrees true) :: phrases) (member.tokens .empty ++ ahead) root := by
      refine reads printable holds nonempty ?_
      simpa [Gap.itemTrees, Gap.itemGap, Gap.empty, paused] using completes
    rw [spelled] at item ⊢
    refine .rule (expand_separator holds unpaused broken) (.pause ?_)
    exact item.mono (by decide)

theorem completes_separator {isInner : Bool} (reads : ∀ member ∈ members, ReadsItem member)
    (printable : arePrintable isInner members = true) (holds : Holds block)
    (ends : block.ends (token :: rest) = true)
    (completes : Completes 100 goals ((trees ++
      treesAll (block != .enumMembers) (block != .enumMembers) .newline members) :: phrases)
      (token :: rest) root) :
    Completes 200 ((StatementRule.separator block).goal :: goals) (trees :: phrases)
      (tokensAll .newline members ++ token :: rest) root := by
  induction members generalizing trees with
  | nil =>
      rw [treesAll, List.append_nil] at completes
      exact .skip (expand_separator_of_ends ends) (completes.mono (by decide))
  | cons member members ih =>
      rw [arePrintable, Bool.and_eq_true] at printable
      rw [tokensAll, List.append_assoc]
      refine (reads member (by simp)).later printable.1 holds rfl
        (mem_white_fillAll _ (by simp [Gap.newline])) (by simp) ?_
      refine ih (fun other listed => reads other (by simp [listed])) printable.2 ?_
      simpa [treesAll] using completes

theorem completes_items {isInner : Bool} (reads : ∀ member ∈ members, ReadsItem member)
    (printable : arePrintable isInner members = true) (holds : members ≠ [] → Holds block)
    (ends : block.ends (token :: rest) = true)
    (completes : Completes 100 goals
      ((trees ++ treesAll false (block != .enumMembers) gap members) :: phrases)
      (token :: rest) root) :
    Completes 200 ((StatementRule.items block).goal :: goals) (trees :: phrases)
      (tokensAll gap members ++ token :: rest) root := by
  cases members with
  | nil =>
      rw [treesAll, List.append_nil] at completes
      exact .skip (expand_items_of_ends ends) (completes.mono (by decide))
  | cons member members =>
      rw [arePrintable, Bool.and_eq_true] at printable
      have holds := holds (by simp)
      rw [tokensAll, List.append_assoc]
      refine .mono (reads member (by simp) printable.1 holds (by simp) ?_) (by decide)
      refine completes_separator (fun other listed => reads other (by simp [listed])) printable.2
        holds ends ?_
      simpa [treesAll, Gap.itemTrees, Gap.itemGap] using completes

theorem readsItem (member : Member) : ReadsItem member := by
  induction member using Member.induction with
  | declare above kind name supertypes inner below ih =>
      intro isInner block gap goals trees phrases ahead root printable holds nonempty completes
      simp only [Member.isPrintable, Bool.and_eq_true] at printable
      obtain ⟨⟨⟨⟨⟨placed, typeName⟩, types⟩, inside⟩, -⟩, -⟩ := printable
      obtain ⟨token, rest, rfl⟩ := List.exists_cons_of_ne_nil nonempty
      let closing := Gap.newline.fillAll below
      have innerHolds : inner ≠ [] → Holds (innerBlock kind) := by
        intro filled
        cases kind with
        | protocol => simp [isPlaced, filled] at placed
        | «class» | struct | enum | actor | extension => simp [Holds, innerBlock]
      have ends : (innerBlock kind).ends (closing.symbol closeBrace :: token :: rest) = true := by
        cases kind <;> rfl
      have body : Completes 200
          ((StatementRule.items (innerBlock kind)).goal :: read closeBrace ::
            .leave (.phrase "body") none :: .leave (nodeKind kind) none ::
            (StatementRule.separator block).goal :: goals)
          ([.leaf none .token Gap.space.lead openBrace] ::
            (.leaf (some .declarationKind) .token gap.lead kind.keyword :: nameTree name kind ::
              Supertype.clauseTrees supertypes) :: (trees ++ gap.extras) :: phrases)
          (tokensAll .newline inner ++ closing.symbol closeBrace :: token :: rest) root := by
        refine completes_items ih inside innerHolds ends ?_
        refine .shift (by rfl) (.leave (.leave ?_))
        exact completes.mono (by decide)
      have spelled : (declare above kind name supertypes inner below).tokens gap ++ token :: rest =
          gap.word kind.keyword :: Gap.space.word name :: (Supertype.clauseTokens supertypes ++
            Gap.space.symbol openBrace :: (tokensAll .newline inner ++
              closing.symbol closeBrace :: token :: rest)) := by
        simp [Member.tokens, closing]
      rw [spelled]
      have unmodified (more : Ahead) :=
        @expand_modifiers ⟨[], gap.white⟩ .space name kind more typeName
      refine .rule (expand_items holds typeName) (.enter (.skip (unmodified _) ?_))
      refine .shift_bare rfl (by cases kind <;> rfl) ?_
      refine .mono (completes_name typeName (endsType_clauseTokens supertypes) ?_) (by decide)
      refine completes_typeParameters (endsType_clauseTokens supertypes) ?_
      refine completes_inheritance types (.skip expand_constraints (.rule expand_body ?_))
      refine .enter_bare rfl (.shift_bare rfl rfl ?_)
      exact body.mono (by decide)

end Machine

/-! ## Whole files -/

def fileTree (members : List Member) (below : List Filler) : Tree :=
  let ending := (gapAfter .empty members).fillAll below
  .node none .sourceFile (treesAll false true .empty members ++
    (ending.extras ++ [.leaf none .token ending.lead ""]))

theorem treeOf_tokensAll {members : List Member} {below : List Filler}
    (printable : arePrintable false members = true) :
    treeOf (tokensAll .empty members ++ [((gapAfter .empty members).fillAll below).ending]) =
      fileTree members below := by
  refine Machine.treeOf_eq_of_completes ?_
  refine .mono (Machine.completes_items (fun member _ => Machine.readsItem member) printable
    (fun _ => ?_) rfl ?_) (by decide)
  · simp [Holds]
  · let ending := (gapAfter .empty members).fillAll below
    have same : fileTree members below = .node none .sourceFile
        [treesAll false true .empty members ++
          (ending.extras ++ [.leaf none .token ending.lead ""])].reverse.flatten := by
      simp [fileTree, ending]
    rw [same]
    exact .shift rfl Machine.completes_end

end Lineage.Source
