import Lineage.Source.Printer
import Lineage.Source.Grammar.Goal
import Lineage.Proofs.Source.Lexer

/-!
# Tokens of printed declarations

The tokens of a printed type, declaration or file are written down by the structure of what was
printed, and the reader of tokens finds them.  Blank lines and comments become a part of the gap
before the next token.
-/

namespace Lineage.Source

open Text (isIdentifierStart isIdentifierPart)
open Printer

variable {gap : Gap} {rest : List Char} {found : List Token}

/-! ## Lines without declarations -/

namespace Gap

def fill (gap : Gap) : Filler → Gap
  | .blank white => ⟨gap.extras, gap.white ++ (white.toList ++ ['\n'])⟩
  | .comment white text =>
      ⟨gap.extras ++
          [.leaf none .comment (String.ofList (gap.white ++ white.toList)) ("//" ++ text)], ['\n']⟩

def fillAll (gap : Gap) (fillers : List Filler) : Gap := fillers.foldl fill gap

end Gap

theorem isBlank_of_areBlanks {white : String} (areBlanks : Filler.areBlanks white = true) :
    ∀ c ∈ white.toList, isBlank c = true := by
  intro c listed
  have blank := List.all_eq_true.mp areBlanks c listed
  simp only [Bool.or_eq_true, beq_iff_eq] at blank
  rcases blank with rfl | rfl <;> decide

namespace Lexes

theorem filler {filler : Filler} (printable : filler.isPrintable = true)
    (lexes : Lexes (gap.fill filler) rest found) :
    Lexes gap (filler.print.toList ++ rest) found := by
  cases filler with
  | blank white =>
      have blank : ∀ c ∈ white.toList ++ ['\n'], isBlank c = true := by
        intro c listed
        rcases List.mem_append.mp listed with listed | listed
        · exact isBlank_of_areBlanks printable c listed
        · rw [List.mem_singleton.mp listed]
          decide
      rw [Filler.print, String.toList_append]
      exact .blanks blank lexes
  | comment white text =>
      rw [Filler.isPrintable, Bool.and_eq_true] at printable
      obtain ⟨blank, parts⟩ := printable
      have unbroken : ∀ c ∈ text.toList, Literal.endsLine c = false := fun c listed => by
        simpa [Filler.isCommentPart, Literal.endsLine] using List.all_eq_true.mp parts c listed
      have ended : Lexes ⟨gap.extras ++ [.leaf none .comment
          (String.ofList (gap.white ++ white.toList)) ("//" ++ text)], []⟩ ('\n' :: rest) found :=
        .blank rfl lexes
      have read := @comment _ ⟨gap.extras, gap.white ++ white.toList⟩ _ text unbroken ended
      have spelled : (Filler.comment white text).print.toList ++ rest =
          white.toList ++ (("//" ++ text).toList ++ '\n' :: rest) := by
        simp [Filler.print]
      rw [spelled]
      exact .blanks (isBlank_of_areBlanks blank) read

theorem fillers {fillers : List Filler} (printable : fillers.all Filler.isPrintable = true)
    (lexes : Lexes (gap.fillAll fillers) rest found) :
    Lexes gap ((printFillers fillers).toList ++ rest) found := by
  induction fillers generalizing gap with
  | nil => exact lexes
  | cons filler fillers ih =>
      rw [List.all_cons, Bool.and_eq_true] at printable
      rw [printFillers, List.map_cons, String.join_cons, String.toList_append, List.append_assoc]
      exact .filler printable.1 (ih printable.2 lexes)

end Lexes

/-! ## Names -/

theorem isIdentifierPart_of_isAlphanum {c : Char} (part : (c.isAlphanum || c == '_') = true) :
    isIdentifierPart c = true := by
  have ascii : c.toNat < 0x80 := by
    rw [Bool.or_eq_true, isAlphanum_iff, isAlpha_iff, beq_iff_eq] at part
    rcases part with code | rfl
    · omega
    · decide
  rw [isIdentifierPart, if_pos ascii, part]

theorem isIdentifierStart_of_isUpper {c : Char} (upper : c.isUpper = true) :
    isIdentifierStart c = true := by
  have code := isUpper_iff.mp upper
  rw [isIdentifierStart, if_pos (by omega), Bool.or_eq_true, isAlpha_iff]
  exact .inl (.inl code)

theorem isWordText_of_isTypeName {name : String} (typeName : Supertype.isTypeName name = true) :
    isWordText name = true := by
  unfold Supertype.isTypeName at typeName
  unfold isWordText
  cases spelled : name.toList with
  | nil => simp only [spelled, Bool.false_eq_true] at typeName
  | cons first rest =>
      simp only [spelled, Bool.and_eq_true, List.all_eq_true] at typeName ⊢
      obtain ⟨⟨upper, parts⟩, -⟩ := typeName
      exact ⟨isIdentifierStart_of_isUpper upper,
        fun c listed => isIdentifierPart_of_isAlphanum (parts c listed)⟩

theorem isWordText_keyword (kind : DeclarationKind) : isWordText kind.keyword = true := by
  cases kind <;> decide

/-! ## Types -/

namespace Printer.Supertype

mutual

def tokens (gap : Gap) : Supertype → List Token
  | apply name [] => [gap.word name]
  | apply name (first :: rest) =>
      gap.word name :: Gap.empty.symbol "<" ::
        (tokens .empty first ++ (laterTokens rest ++ [Gap.empty.symbol ">"]))

def laterTokens : List Supertype → List Token
  | [] => []
  | next :: rest => Gap.empty.symbol "," :: (tokens .space next ++ laterTokens rest)

end

def clauseTokens : List Supertype → List Token
  | [] => []
  | first :: rest => Gap.empty.symbol ":" :: (tokens .space first ++ laterTokens rest)

end Printer.Supertype

namespace Lexes

open Supertype

/-- Whether the print of a type is read as its tokens wherever it stands. -/
def ReadsType (type : Supertype) : Prop :=
  type.isPrintable = true → ∀ {gap rest found}, endsWord rest = true → Lexes .empty rest found →
    Lexes gap (type.print.toList ++ rest) (type.tokens gap ++ found)

theorem row {first : Supertype} {types : List Supertype} (readsFirst : ReadsType first)
    (reads : ∀ type ∈ types, ReadsType type) (printable : first.isPrintable = true)
    (arePrintable : arePrintable types = true) (ends : endsWord rest = true)
    (lexes : Lexes .empty rest found) :
    Lexes gap ((String.intercalate ", " (first.print :: printAll types)).toList ++ rest)
      (first.tokens gap ++ (laterTokens types ++ found)) := by
  induction types generalizing first gap with
  | nil =>
      rw [printAll, String.intercalate_singleton]
      exact readsFirst printable ends lexes
  | cons second types ih =>
      rw [Supertype.arePrintable, Bool.and_eq_true] at arePrintable
      have later : Lexes .space _ _ := ih (reads second (by simp))
        (fun type listed => reads type (by simp [listed])) arePrintable.1 arePrintable.2
      have read : Lexes gap (first.print.toList ++ ',' :: ' ' :: _) _ :=
        readsFirst printable rfl (symbol (by decide) (space later))
      simpa [printAll, String.intercalate_cons_cons, laterTokens] using read

theorem type (type : Supertype) : ReadsType type := by
  induction type using Supertype.induction with
  | apply name arguments ih =>
      intro printable gap rest found ends lexes
      rw [Supertype.isPrintable, Bool.and_eq_true] at printable
      cases arguments with
      | nil => exact .word (isWordText_of_isTypeName printable.1) ends lexes
      | cons first types =>
          rw [Supertype.arePrintable, Bool.and_eq_true] at printable
          have closed : Lexes .empty ('>' :: rest) _ := .symbol (by decide) lexes
          have read : Lexes .empty _ _ := row (ih first (by simp))
            (fun type listed => ih type (by simp [listed])) printable.2.1 printable.2.2 rfl closed
          have named : Lexes gap (name.toList ++ '<' :: _) _ :=
            .word (isWordText_of_isTypeName printable.1) rfl (.symbol (by decide) read)
          simpa [Supertype.print, specializedName, Supertype.tokens] using named

theorem endsWord_clause (types : List Supertype) :
    endsWord ((inheritanceClause types).toList ++ ' ' :: rest) = true := by
  cases types with
  | nil => rfl
  | cons first types =>
      simp only [inheritanceClause, String.toList_append]
      rfl

theorem clause {types : List Supertype} (printable : Supertype.arePrintable types = true)
    (ends : endsWord rest = true) (lexes : Lexes .empty rest found) :
    Lexes .empty ((inheritanceClause types).toList ++ rest) (clauseTokens types ++ found) := by
  cases types with
  | nil => exact lexes
  | cons first types =>
      rw [Supertype.arePrintable, Bool.and_eq_true] at printable
      have read : Lexes .space _ _ :=
        row (type first) (fun other _ => type other) printable.1 printable.2 ends lexes
      have opened : Lexes .empty (':' :: ' ' :: _) _ := .symbol (by decide) (.space read)
      simpa [inheritanceClause, printAll, clauseTokens] using opened

end Lexes

/-! ## Declarations -/

namespace Printer.Member

mutual

def tokens (gap : Gap) : Member → List Token
  | declare _ kind name supertypes members below =>
      gap.word kind.keyword :: Gap.space.word name ::
        (Supertype.clauseTokens supertypes ++ Gap.space.symbol openBrace ::
          (tokensAll .newline members ++ [(Gap.newline.fillAll below).symbol closeBrace]))

def tokensAll (gap : Gap) : List Member → List Token
  | [] => []
  | member :: rest => tokens (gap.fillAll member.above) member ++ tokensAll .newline rest

end

/-- The gap after declarations that stand after a gap: their last brace ends its line. -/
def gapAfter (gap : Gap) (members : List Member) : Gap :=
  if members.isEmpty then gap else .newline

@[simp] theorem gapAfter_newline (members : List Member) :
    gapAfter .newline members = .newline := by
  rw [gapAfter, ite_self]

end Printer.Member

namespace Lexes

open Member

def ReadsMember (member : Member) : Prop :=
  ∀ {isInner}, member.isPrintable isInner = true → ∀ {gap rest found}, Lexes .newline rest found →
    Lexes gap (member.print.toList ++ rest) (member.tokens (gap.fillAll member.above) ++ found)

theorem members {isInner : Bool} {members : List Member}
    (reads : ∀ member ∈ members, ReadsMember member)
    (printable : arePrintable isInner members = true)
    (lexes : Lexes (gapAfter gap members) rest found) :
    Lexes gap ((printAll members).toList ++ rest) (tokensAll gap members ++ found) := by
  induction members generalizing gap with
  | nil => exact lexes
  | cons member members ih =>
      rw [arePrintable, Bool.and_eq_true] at printable
      have later : Lexes .newline _ _ := ih (fun other listed => reads other (by simp [listed]))
        printable.2 (by rwa [gapAfter_newline])
      have read : Lexes gap _ _ := reads member (by simp) printable.1 later
      simpa [printAll, tokensAll] using read

theorem member (member : Member) : ReadsMember member := by
  induction member using Member.induction with
  | declare above kind name supertypes inner below ih =>
      intro isInner printable gap rest found lexes
      simp only [Member.isPrintable, Bool.and_eq_true] at printable
      obtain ⟨⟨⟨⟨⟨-, typeName⟩, types⟩, inside⟩, above'⟩, below'⟩ := printable
      have closed : Lexes .newline ((printFillers below).toList ++ '\x7d' :: '\n' :: rest)
          ((Gap.newline.fillAll below).symbol closeBrace :: found) :=
        .fillers below' (.symbol (by decide) (.newline lexes))
      have filled : Lexes .newline _ _ := members ih inside (by rwa [gapAfter_newline])
      have opened : Lexes .empty (' ' :: '\x7b' :: '\n' :: _) (Gap.space.symbol openBrace :: _) :=
        .space (.symbol (by decide) (.newline filled))
      have named : Lexes .empty (' ' :: (name.toList ++ _)) (Gap.space.word name :: _) :=
        .space (.word (isWordText_of_isTypeName typeName) (endsWord_clause supertypes)
          (.clause types rfl opened))
      have read : Lexes gap _ _ :=
        .fillers above' (.word (isWordText_keyword kind) rfl named)
      simpa [Member.print, Member.tokens, Member.above] using read

end Lexes

/-! ## Files -/

theorem hasMark_append_eq_false {front back : List Char} (unmarked : hasMark front = false)
    (unmarked' : hasMark back = false) : hasMark (front ++ back) = false := by
  cases front with
  | nil => exact unmarked'
  | cons c front =>
      simp only [hasMark, List.cons_append, List.isPrefixOf_cons_cons, List.isPrefixOf_nil_left,
        Bool.and_true] at unmarked ⊢
      exact unmarked

theorem hasMark_print_filler {filler : Filler} (printable : filler.isPrintable = true) :
    hasMark filler.print.toList = false := by
  have unmarked {white : String} (blanks : Filler.areBlanks white = true) :
      hasMark white.toList = false := by
    have plain := List.all_eq_true.mp blanks
    cases spelled : white.toList with
    | nil => rfl
    | cons c rest =>
        have blank := plain c (by simp [spelled])
        simp only [Bool.or_eq_true, beq_iff_eq] at blank
        rcases blank with rfl | rfl <;> rfl
  cases filler with
  | blank white =>
      rw [Filler.print, String.toList_append]
      exact hasMark_append_eq_false (unmarked printable) rfl
  | comment white text =>
      rw [Filler.isPrintable, Bool.and_eq_true] at printable
      rw [Filler.print, String.append_assoc, String.append_assoc, String.toList_append,
        String.toList_append]
      exact hasMark_append_eq_false (unmarked printable.1) rfl

theorem hasMark_printFillers {fillers : List Filler}
    (printable : fillers.all Filler.isPrintable = true) :
    hasMark (printFillers fillers).toList = false := by
  induction fillers with
  | nil => rfl
  | cons filler fillers ih =>
      rw [List.all_cons, Bool.and_eq_true] at printable
      rw [printFillers, List.map_cons, String.join_cons, String.toList_append]
      exact hasMark_append_eq_false (hasMark_print_filler printable.1) (ih printable.2)

theorem hasMark_printAll {members : List Member} {isInner : Bool}
    (printable : Member.arePrintable isInner members = true) :
    hasMark (Member.printAll members).toList = false := by
  induction members with
  | nil => rfl
  | cons member members ih =>
      rw [Member.arePrintable, Bool.and_eq_true] at printable
      rw [Member.printAll, String.toList_append]
      refine hasMark_append_eq_false ?_ (ih printable.2)
      obtain ⟨above, kind, name, supertypes, inner, below⟩ := member
      simp only [Member.isPrintable, Bool.and_eq_true] at printable
      obtain ⟨⟨⟨-, above'⟩, -⟩, -⟩ := printable
      simp only [Member.print, String.toList_append, List.append_assoc]
      refine hasMark_append_eq_false (hasMark_printFillers above') ?_
      cases kind <;> rfl

theorem tokens_printFile {members : List Member} {below : List Filler}
    (printable : Member.arePrintable false members = true)
    (printable' : below.all Filler.isPrintable = true) :
    tokens (printFile members below) =
      Member.tokensAll .empty members ++
        [((Member.gapAfter .empty members).fillAll below).ending] := by
  have unmarked : hasMark (printFile members below).toList = false := by
    rw [printFile, String.toList_append]
    exact hasMark_append_eq_false (hasMark_printAll printable) (hasMark_printFillers printable')
  have ended : Lexes (Member.gapAfter .empty members) ((printFillers below).toList ++ []) _ :=
    .fillers printable' .ending
  have read : Lexes .empty _ _ :=
    .members (fun member _ => .member member) printable ended
  rw [tokens, unmarked]
  rw [List.append_nil, ← String.toList_append] at read
  exact read none

end Lineage.Source
