import Lineage.Proofs.Source.Layout
import Lineage.Proofs.Source.Machine
import Lineage.Proofs.Source.Printer

/-!
# Trees of printed types

A machine that is to read a type and stands before the tokens of one puts its tree into the
innermost phrase.  The arguments of a type and the entries of an inheritance clause are rows of
types that differ in their goals and in the phrase around each type, and are read by one lemma.
-/

namespace Lineage.Source

open Printer
open Goal (read readName readAny)

variable {gap : Gap} {name symbol : String} {ahead rest : Ahead} {token : Token}

/-! ## Lookahead at words and symbols -/

@[simp] theorem reads_word (gap : Gap) (text expected : String) :
    (gap.word text).reads expected = (text == expected) := rfl

@[simp] theorem reads_symbol (gap : Gap) (text expected : String) :
    (gap.symbol text).reads expected = (text == expected) := rfl

@[simp] theorem isWord_word (gap : Gap) (text : String) : (gap.word text).isWord = true := rfl

@[simp] theorem isWord_symbol (gap : Gap) (text : String) : (gap.symbol text).isWord = false := rfl

@[simp] theorem isEnd_word (gap : Gap) (text : String) : (gap.word text).isEnd = false := rfl

@[simp] theorem isEnd_symbol (gap : Gap) (text : String) : (gap.symbol text).isEnd = false := rfl

@[simp] theorem isEnd_ending (gap : Gap) : gap.ending.isEnd = true := rfl

namespace Ahead

@[simp] theorem next?_cons (token : Token) (rest : Ahead) (test : Token → Bool) :
    next? (token :: rest) test = test token := rfl

@[simp] theorem reads_cons (text : String) (token : Token) (rest : Ahead) :
    reads text (token :: rest) = token.reads text := rfl

@[simp] theorem readsOneOf_cons (texts : List String) (token : Token) (rest : Ahead) :
    readsOneOf texts (token :: rest) = token.readsOneOf texts := rfl

@[simp] theorem isWord_cons (token : Token) (rest : Ahead) :
    isWord (token :: rest) = token.isWord := rfl

@[simp] theorem isEnd_cons (token : Token) (rest : Ahead) :
    isEnd (token :: rest) = token.isEnd := rfl

end Ahead

/-- The name of a type is none of the words of the grammar. -/
theorem readsOneOf_eq_false_of_isTypeName {words : List String}
    (typeName : Supertype.isTypeName name = true) (plain : words.any Supertype.isTypeName = false) :
    (gap.word name).readsOneOf words = false := by
  refine Bool.eq_false_iff.mpr fun listed => ?_
  obtain ⟨word, listed, same⟩ := List.any_eq_true.mp listed
  obtain rfl := beq_iff_eq.mp same
  exact List.any_eq_false.mp plain name listed typeName

theorem reads_eq_false_of_isTypeName {word : String} (typeName : Supertype.isTypeName name = true)
    (plain : Supertype.isTypeName word = false) : (gap.word name).reads word = false := by
  refine Bool.eq_false_iff.mpr fun same => ?_
  obtain rfl : name = word := beq_iff_eq.mp same
  rw [plain] at typeName
  cases typeName

/-! ## What may follow a type -/

def EndsType (ahead : Ahead) : Prop :=
  ∃ gap symbol rest, symbol ∈ [",", ":", ">", openBrace] ∧ ahead = Gap.symbol gap symbol :: rest

theorem EndsType.expand_eq_nil {rule : TypeRule} (ends : EndsType ahead)
    (listed : rule ∈ [TypeRule.nameTail, .tail, .entryTail]) :
    Rule.expand (.type rule) ahead = some [] := by
  obtain ⟨gap, symbol, rest, ending, rfl⟩ := ends
  simp only [List.mem_cons, List.not_mem_nil, or_false] at ending listed
  rcases ending with rfl | rfl | rfl | rfl <;> rcases listed with rfl | rfl | rfl <;> rfl

theorem EndsType.exists_eq_cons (ends : EndsType ahead) : ∃ token rest, ahead = token :: rest := by
  obtain ⟨gap, symbol, rest, -, rfl⟩ := ends
  exact ⟨_, rest, rfl⟩

theorem endsType_laterTokens (types : List Supertype) (ends : EndsType ahead) :
    EndsType (Supertype.laterTokens types ++ ahead) := by
  cases types with
  | nil => exact ends
  | cons next types => exact ⟨.empty, ",", _, by simp, rfl⟩

/-! ## Goals of types -/

theorem expand_core (typeName : Supertype.isTypeName name = true) :
    Rule.expand (.type .core) (gap.word name :: rest) =
      some [.enter, readName, TypeRule.nameTail.goal, .leave .userType none] := by
  have unworded : (gap.word name).readsOneOf typeWords = false :=
    readsOneOf_eq_false_of_isTypeName typeName (by decide)
  simp [Rule.expand, TypeRule.expand, opensWordedType, unworded]

theorem expand_argument (typeName : Supertype.isTypeName name = true) :
    Rule.expand (.type .argument) (gap.word name :: rest) = some [(TypeRule.whole none).goal] := by
  have plain : (gap.word name).reads "@" = false :=
    reads_eq_false_of_isTypeName typeName (by decide)
  simp only [Rule.expand, TypeRule.expand, Ahead.reads_cons, plain, Bool.false_eq_true, if_false]

theorem expand_nameTail :
    Rule.expand (.type .nameTail) (gap.symbol "<" :: rest) =
      some [.enter, readAny, TypeRule.argument.goal, TypeRule.argumentsTail.goal,
        .leave .typeArguments none, TypeRule.nameTail.goal] := rfl

theorem expand_argumentsTail_comma :
    Rule.expand (.type .argumentsTail) (gap.symbol "," :: rest) =
      some [readAny, TypeRule.argument.goal, TypeRule.argumentsTail.goal] := rfl

theorem expand_argumentsTail_close :
    Rule.expand (.type .argumentsTail) (gap.symbol ">" :: rest) = some [read ">"] := rfl

theorem expand_entry (typeName : Supertype.isTypeName name = true) :
    Rule.expand (.type .entry) (gap.word name :: rest) =
      some [.enter, TypeRule.core.goal, TypeRule.entryTail.goal,
        .leave .inheritanceSpecifier none] := by
  have unworded : (gap.word name).readsOneOf typeWords = false :=
    readsOneOf_eq_false_of_isTypeName typeName (by decide)
  simp [Rule.expand, TypeRule.expand, opensWordedType, unworded]

theorem expand_attributeList (typeName : Supertype.isTypeName name = true) :
    Rule.expand (.declaration .attributeList) (gap.word name :: rest) = some [] := by
  have plain : (gap.word name).reads "@" = false :=
    reads_eq_false_of_isTypeName typeName (by decide)
  simp only [Rule.expand, DeclarationRule.expand, Ahead.reads_cons, plain, Bool.false_eq_true,
    if_false]

/-! ## Trees of types -/

namespace Printer.Supertype

mutual

def tree (gap : Gap) : Supertype → Tree
  | apply name [] => .node none .userType [.leaf none .name gap.lead name]
  | apply name (first :: rest) =>
      .node none .userType [.leaf none .name gap.lead name,
        .node none .typeArguments
          (.leaf none .token Gap.empty.lead "<" ::
            (.node none (.phrase "type") [tree .empty first] ::
              laterTrees (.phrase "type") rest ++ [.leaf none .token Gap.empty.lead ">"]))]

/-- The trees of the types of a row after its first, each in a phrase of the kind. -/
def laterTrees (kind : NodeKind) : List Supertype → List Tree
  | [] => []
  | next :: rest =>
      .leaf none .token Gap.empty.lead "," :: .node none kind [tree .space next] ::
        laterTrees kind rest

end

def clauseTrees : List Supertype → List Tree
  | [] => []
  | first :: rest =>
      .leaf none .token Gap.empty.lead ":" ::
        .node none .inheritanceSpecifier [tree .space first] ::
          laterTrees .inheritanceSpecifier rest

end Printer.Supertype

namespace Machine

variable {goals : List Goal} {trees : List Tree} {phrases : List (List Tree)}
variable {root : Tree} {type : Supertype}

/-- Whether the goal of a type by its name is met by the tree of the type. -/
def ReadsCore (type : Supertype) : Prop :=
  ∀ ⦃gap goals trees phrases ahead root⦄, gap.extras = [] → EndsType ahead →
    Completes 220 goals ((trees ++ [type.tree gap]) :: phrases) ahead root →
    Completes 10 (TypeRule.core.goal :: goals) (trees :: phrases) (type.tokens gap ++ ahead) root

def ReadsElement (goal : Goal) (kind : NodeKind) (type : Supertype) : Prop :=
  ∀ ⦃gap goals trees phrases ahead root⦄, gap.extras = [] → EndsType ahead →
    Completes 200 goals ((trees ++ [.node none kind [type.tree gap]]) :: phrases) ahead root →
    Completes 20 (goal :: goals) (trees :: phrases) (type.tokens gap ++ ahead) root

theorem completes_row {element later : Goal} {kind : NodeKind} {first : Supertype}
    {types : List Supertype} (bare : gap.extras = [])
    (reads : ∀ type ∈ first :: types, ReadsElement element kind type)
    (goesOn : ∀ {trees ahead}, ∀ type ∈ types,
      Completes 20 (element :: later :: goals)
        ((trees ++ [.leaf none .token Gap.empty.lead ","]) :: phrases)
        (type.tokens .space ++ ahead) root →
      Completes 200 (later :: goals) (trees :: phrases)
        (Gap.empty.symbol "," :: (type.tokens .space ++ ahead)) root)
    (ends : EndsType ahead)
    (completes : Completes 200 (later :: goals)
      ((trees ++ .node none kind [first.tree gap] :: Supertype.laterTrees kind types) :: phrases)
      ahead root) :
    Completes 20 (element :: later :: goals) (trees :: phrases)
      (first.tokens gap ++ (Supertype.laterTokens types ++ ahead)) root := by
  induction types generalizing first trees gap with
  | nil => exact reads first (by simp) bare ends completes
  | cons second types ih =>
      refine reads first (by simp) bare (endsType_laterTokens _ ends) ?_
      rw [Supertype.laterTokens, List.cons_append, List.append_assoc]
      refine goesOn second (by simp) (ih rfl (fun type listed => reads type (by simp [listed]))
        (fun type listed => goesOn type (by simp [listed])) ?_)
      simpa [Supertype.laterTrees] using completes

theorem exists_tokens_eq (gap : Gap) (printable : type.isPrintable = true) :
    ∃ name rest, Supertype.isTypeName name = true ∧ type.tokens gap = gap.word name :: rest := by
  obtain ⟨name, arguments⟩ := type
  rw [Supertype.isPrintable, Bool.and_eq_true] at printable
  cases arguments with
  | nil => exact ⟨name, [], printable.1, rfl⟩
  | cons first types => exact ⟨name, _, printable.1, rfl⟩

/-- A phrase that holds a type by its name and nothing else. -/
theorem ReadsCore.phrase {kind : NodeKind} {field : Option Field} (reads : ReadsCore type)
    (printable : type.isPrintable = true) (later : TypeRule)
    (listed : later ∈ [TypeRule.nameTail, .tail, .entryTail]) (bare : gap.extras = [])
    (ends : EndsType ahead)
    (completes : Completes 200 goals ((trees ++ [.node field kind [type.tree gap]]) :: phrases)
      ahead root) :
    Completes 15 (.enter :: TypeRule.core.goal :: later.goal :: .leave kind field :: goals)
      (trees :: phrases) (type.tokens gap ++ ahead) root := by
  obtain ⟨token, rest, rfl⟩ := ends.exists_eq_cons
  obtain ⟨name, others, typeName, same⟩ := exists_tokens_eq gap printable
  have read : Completes 10 (TypeRule.core.goal :: later.goal :: .leave kind field :: goals)
      ([] :: trees :: phrases) (type.tokens gap ++ token :: rest) root := by
    refine reads bare ends (.skip (ends.expand_eq_nil listed) (.leave ?_))
    exact completes.mono (by decide)
  rw [same] at read ⊢
  exact .enter_bare bare (read.mono (by decide))

theorem ReadsCore.argument (reads : ReadsCore type) (printable : type.isPrintable = true) :
    ReadsElement TypeRule.argument.goal (.phrase "type") type := by
  intro gap goals trees phrases ahead root bare ends completes
  obtain ⟨name, others, typeName, same⟩ := exists_tokens_eq gap printable
  have read := reads.phrase printable .tail (by simp) bare ends completes
  rw [same] at read ⊢
  exact .rule (expand_argument typeName) (.rule rfl (read.mono (by decide)))

theorem ReadsCore.entry (reads : ReadsCore type) (printable : type.isPrintable = true) :
    ReadsElement TypeRule.entry.goal .inheritanceSpecifier type := by
  intro gap goals trees phrases ahead root bare ends completes
  obtain ⟨name, others, typeName, same⟩ := exists_tokens_eq gap printable
  have read := reads.phrase printable .entryTail (by simp) bare ends completes
  rw [same] at read ⊢
  exact .rule (expand_entry typeName) (read.mono (by decide))

theorem completes_arguments {first : Supertype} {types : List Supertype}
    (reads : ∀ type ∈ first :: types, ReadsCore type)
    (printable : Supertype.arePrintable (first :: types) = true)
    (completes : Completes movesPerGoal goals
      ((trees ++ .node none (.phrase "type") [first.tree .empty] ::
        (Supertype.laterTrees (.phrase "type") types ++ [.leaf none .token Gap.empty.lead ">"])) ::
          phrases) ahead root) :
    Completes 20 (TypeRule.argument.goal :: TypeRule.argumentsTail.goal :: goals)
      (trees :: phrases)
      (first.tokens .empty ++ (Supertype.laterTokens types ++ Gap.empty.symbol ">" :: ahead))
      root := by
  have ends : EndsType (Gap.empty.symbol ">" :: ahead) := ⟨.empty, ">", ahead, by simp, rfl⟩
  refine completes_row rfl
    (fun type listed => (reads type listed).argument (Supertype.isPrintable_of_mem printable listed))
    (fun type listed read => ?_) ends ?_
  · refine .rule expand_argumentsTail_comma (.shift_bare rfl rfl ?_)
    exact read.mono (by decide)
  · refine .rule expand_argumentsTail_close (.shift_bare rfl rfl ?_)
    simpa [leaf, Gap.symbol, Gap.token, Terminal.leafKind] using completes

theorem readsCore (type : Supertype) (printable : type.isPrintable = true) : ReadsCore type := by
  induction type using Supertype.induction with
  | apply name arguments ih =>
      intro gap goals trees phrases ahead root bare ends completes
      obtain ⟨token, rest, rfl⟩ := ends.exists_eq_cons
      rw [Supertype.isPrintable, Bool.and_eq_true] at printable
      obtain ⟨typeName, printable⟩ := printable
      cases arguments with
      | nil =>
          refine .rule (expand_core typeName) (.enter_bare bare (.shift_bare bare rfl ?_))
          refine .skip (ends.expand_eq_nil (by simp)) (.leave ?_)
          exact completes.mono (by decide)
      | cons first types =>
          have reads : ∀ type ∈ first :: types, ReadsCore type :=
            fun type listed => ih type listed (Supertype.isPrintable_of_mem printable listed)
          have read : Completes 20
              (TypeRule.argument.goal :: TypeRule.argumentsTail.goal :: .leave .typeArguments none ::
                TypeRule.nameTail.goal :: .leave .userType none :: goals)
              ([.leaf none .token Gap.empty.lead "<"] :: [.leaf none .name gap.lead name] ::
                trees :: phrases)
              (first.tokens .empty ++
                (Supertype.laterTokens types ++ Gap.empty.symbol ">" :: token :: rest)) root := by
            refine completes_arguments reads printable
              (.leave (.skip (ends.expand_eq_nil (by simp)) (.leave ?_)))
            exact completes.mono (by decide)
          have same : (Supertype.apply name (first :: types)).tokens gap ++ token :: rest =
              gap.word name :: Gap.empty.symbol "<" :: (first.tokens .empty ++
                (Supertype.laterTokens types ++ Gap.empty.symbol ">" :: token :: rest)) := by
            simp [Supertype.tokens]
          rw [same]
          refine .rule (expand_core typeName) (.enter_bare bare (.shift_bare bare rfl ?_))
          refine .rule expand_nameTail (.enter_bare rfl (.shift_bare rfl rfl ?_))
          exact read.mono (by decide)

/-! ## Inheritance clauses -/

theorem expand_inheritance_brace :
    Rule.expand (.declaration .inheritance) (gap.symbol openBrace :: rest) = some [] := rfl

theorem expand_inheritance_colon :
    Rule.expand (.declaration .inheritance) (gap.symbol ":" :: rest) =
      some [read ":", DeclarationRule.attributeList.goal, TypeRule.entry.goal,
        DeclarationRule.entriesTail.goal] := rfl

theorem expand_entriesTail_comma :
    Rule.expand (.declaration .entriesTail) (gap.symbol "," :: rest) =
      some [readAny, DeclarationRule.attributeList.goal, TypeRule.entry.goal,
        DeclarationRule.entriesTail.goal] := rfl

theorem expand_entriesTail_brace :
    Rule.expand (.declaration .entriesTail) (gap.symbol openBrace :: rest) = some [] := rfl

theorem completes_attributeList (printable : type.isPrintable = true)
    (completes : Completes 20 goals phrases (type.tokens gap ++ rest) root) :
    Completes 30 (DeclarationRule.attributeList.goal :: goals) phrases (type.tokens gap ++ rest)
      root := by
  obtain ⟨name, others, typeName, same⟩ := exists_tokens_eq gap printable
  rw [same] at completes ⊢
  exact .skip (expand_attributeList typeName) (completes.mono (by decide))

theorem completes_inheritance {types : List Supertype}
    (printable : Supertype.arePrintable types = true)
    (completes : Completes 190 goals ((trees ++ Supertype.clauseTrees types) :: phrases)
      (gap.symbol openBrace :: rest) root) :
    Completes 195 (DeclarationRule.inheritance.goal :: goals) (trees :: phrases)
      (Supertype.clauseTokens types ++ gap.symbol openBrace :: rest) root := by
  cases types with
  | nil =>
      rw [Supertype.clauseTrees, List.append_nil] at completes
      exact .skip expand_inheritance_brace (completes.mono (by decide))
  | cons first types =>
      have ends : EndsType (gap.symbol openBrace :: rest) := ⟨gap, openBrace, rest, by simp, rfl⟩
      have listed : first.isPrintable = true := Supertype.isPrintable_of_mem printable (by simp)
      rw [Supertype.clauseTokens, List.cons_append, List.append_assoc]
      refine .rule expand_inheritance_colon (.shift_bare rfl rfl ?_)
      refine .mono (completes_attributeList listed ?_) (by decide)
      refine completes_row rfl (fun type listed => (readsCore type (Supertype.isPrintable_of_mem printable
        listed)).entry (Supertype.isPrintable_of_mem printable listed)) (fun type listed read => ?_) ends ?_
      · refine .rule expand_entriesTail_comma (.shift_bare rfl rfl ?_)
        exact .mono (completes_attributeList (Supertype.isPrintable_of_mem printable (by simp [listed])) read)
          (by decide)
      · refine .skip expand_entriesTail_brace ?_
        rw [List.append_assoc]
        exact completes.mono (by decide)

end Machine

end Lineage.Source
