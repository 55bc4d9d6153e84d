import Lineage.Source.Token.Lexer

/-!
# Cutting a text into tokens

What the tokens of a text are is decided from its end: `Lexes` says which ones a text has after a
gap, and each rule adds what may stand before a text of which that is known.  A word ends only
where no character that continues it follows.
-/

namespace Lineage.Source

open Text (isIdentifierStart isIdentifierPart)

/-! ## Gaps -/

/-- What stands before a token: comments, and the white space after the last of them. -/
structure Gap where
  extras : List Tree
  white : List Char

namespace Gap

def empty : Gap := ⟨[], []⟩

def space : Gap := ⟨[], [' ']⟩

def newline : Gap := ⟨[], ['\n']⟩

def lead (gap : Gap) : String := String.ofList gap.white

def token (gap : Gap) (kind : TokenKind) (text : String) : Token :=
  ⟨kind, gap.extras, gap.lead, text⟩

def word (gap : Gap) (text : String) : Token := gap.token .word text

def symbol (gap : Gap) (text : String) : Token := gap.token .symbol text

def ending (gap : Gap) : Token := gap.token .endOfFile ""

end Gap

/-- Whether the text after a gap is cut into the tokens, whatever token stands before it. -/
def Lexes (gap : Gap) (text : List Char) (tokens : List Token) : Prop :=
  ∀ prior, tokensFrom prior gap.extras.reverse gap.white text = tokens

variable {prior : Option Token} {extras : List Tree} {white text rest : List Char} {c : Char}
variable {gap : Gap} {tokens : List Token}

/-! ## Equations of the reader -/

theorem tokensFrom_of_dropWhile_eq_nil (h : text.dropWhile isBlank = []) :
    tokensFrom prior extras white text =
      [⟨.endOfFile, extras.reverse, String.ofList (white ++ text.takeWhile isBlank), ""⟩] := by
  rw [tokensFrom]
  split
  · rfl
  · rename_i same
    rw [h] at same
    cases same

theorem tokensFrom_of_dropWhile_eq_cons (h : text.dropWhile isBlank = c :: rest) :
    tokensFrom prior extras white text =
      let lead := String.ofList (white ++ text.takeWhile isBlank)
      let lexeme := lexeme prior c rest
      let text := String.ofList (c :: rest.take lexeme.more)
      match lexeme.kind with
      | .token kind =>
          let token : Token := ⟨kind, extras.reverse, lead, text⟩
          token :: tokensFrom (some token) [] [] (rest.drop lexeme.more)
      | .trivia =>
          tokensFrom prior (.leaf none .comment lead text :: extras) []
            (rest.drop lexeme.more) := by
  conv => lhs; rw [tokensFrom]
  split
  · rename_i same
    rw [h] at same
    cases same
  · rename_i same
    rw [h] at same
    cases same
    rfl

theorem tokensFrom_cons_of_isBlank (blank : isBlank c = true) :
    tokensFrom prior extras white (c :: text) = tokensFrom prior extras (white ++ [c]) text := by
  have dropped : (c :: text).dropWhile isBlank = text.dropWhile isBlank := by simp [blank]
  have taken : (c :: text).takeWhile isBlank = c :: text.takeWhile isBlank := by simp [blank]
  cases left : text.dropWhile isBlank with
  | nil =>
      rw [tokensFrom_of_dropWhile_eq_nil left, tokensFrom_of_dropWhile_eq_nil (dropped.trans left),
        taken, List.append_assoc, List.singleton_append]
  | cons first rest =>
      rw [tokensFrom_of_dropWhile_eq_cons left,
        tokensFrom_of_dropWhile_eq_cons (dropped.trans left), taken, List.append_assoc,
        List.singleton_append]

/-! ## Gaps and single lexemes -/

namespace Lexes

theorem ending : Lexes gap [] [gap.ending] := by
  intro prior
  rw [tokensFrom_of_dropWhile_eq_nil rfl, List.reverse_reverse, List.takeWhile_nil, List.append_nil]
  rfl

theorem blanks {blanks : List Char} (areBlank : ∀ c ∈ blanks, isBlank c = true)
    (lexes : Lexes ⟨gap.extras, gap.white ++ blanks⟩ text tokens) :
    Lexes gap (blanks ++ text) tokens := by
  induction blanks generalizing gap with
  | nil => rwa [List.append_nil] at lexes
  | cons c blanks ih =>
      intro prior
      rw [List.cons_append, tokensFrom_cons_of_isBlank (areBlank c (by simp))]
      refine @ih ⟨gap.extras, gap.white ++ [c]⟩ (fun d listed => areBlank d (by simp [listed])) ?_
        prior
      rwa [List.append_assoc, List.singleton_append]

theorem blank (isBlank : isBlank c = true)
    (lexes : Lexes ⟨gap.extras, gap.white ++ [c]⟩ text tokens) : Lexes gap (c :: text) tokens :=
  @blanks _ _ _ [c] (List.forall_mem_singleton.mpr isBlank) lexes

theorem space (lexes : Lexes .space text tokens) : Lexes .empty (' ' :: text) tokens :=
  .blank rfl lexes

theorem newline (lexes : Lexes .newline text tokens) : Lexes .empty ('\n' :: text) tokens :=
  .blank rfl lexes

theorem of_lexeme {kind : TokenKind} {more : Nat} {spelled : String} (solid : isBlank c = false)
    (found : ∀ prior, lexeme prior c rest = ⟨.token kind, more⟩)
    (spells : String.ofList (c :: rest.take more) = spelled)
    (lexes : Lexes .empty (rest.drop more) tokens) :
    Lexes gap (c :: rest) (gap.token kind spelled :: tokens) := by
  intro prior
  have kept : (c :: rest).dropWhile isBlank = c :: rest := by simp [solid]
  have taken : (c :: rest).takeWhile isBlank = [] := by simp [solid]
  rw [tokensFrom_of_dropWhile_eq_cons kept, taken, found prior]
  simp only [List.append_nil, List.reverse_reverse, spells]
  exact congrArg (gap.token kind spelled :: ·) (lexes _)

theorem of_trivia {more : Nat} (solid : isBlank c = false)
    (found : ∀ prior, lexeme prior c rest = ⟨.trivia, more⟩)
    (lexes : Lexes
      ⟨gap.extras ++ [.leaf none .comment gap.lead (String.ofList (c :: rest.take more))], []⟩
      (rest.drop more) tokens) : Lexes gap (c :: rest) tokens := by
  intro prior
  have kept : (c :: rest).dropWhile isBlank = c :: rest := by simp [solid]
  have taken : (c :: rest).takeWhile isBlank = [] := by simp [solid]
  rw [tokensFrom_of_dropWhile_eq_cons kept, taken, found prior]
  have read := lexes prior
  rw [List.reverse_append] at read
  simp only [List.append_nil]
  exact read

end Lexes

/-! ## Comments -/

theorem lexeme_comment :
    lexeme prior '/' ('/' :: rest) = ⟨.trivia, Literal.line ('/' :: rest)⟩ := rfl

theorem Lexes.comment {text : String} (unbroken : ∀ c ∈ text.toList, Literal.endsLine c = false)
    (lexes : Lexes ⟨gap.extras ++ [.leaf none .comment gap.lead ("//" ++ text)], []⟩
      ('\n' :: rest) tokens) :
    Lexes gap (("//" ++ text).toList ++ '\n' :: rest) tokens := by
  have spelled : ("//" ++ text).toList = '/' :: '/' :: text.toList := by
    rw [String.toList_append]
    rfl
  have onLine : ∀ c ∈ '/' :: text.toList, (!Literal.endsLine c) = true := by
    simp only [Bool.not_eq_true']
    exact List.forall_mem_cons.mpr ⟨rfl, unbroken⟩
  have length : Literal.line ('/' :: text.toList ++ '\n' :: rest) =
      ('/' :: text.toList).length := by
    rw [Literal.line, List.takeWhile_append_of_pos onLine]
    simp [Literal.endsLine]
  have found (prior : Option Token) : lexeme prior '/' ('/' :: text.toList ++ '\n' :: rest) =
      ⟨.trivia, ('/' :: text.toList).length⟩ := by
    rw [← length]
    exact lexeme_comment
  rw [spelled, List.cons_append]
  refine of_trivia (by decide) found ?_
  rw [List.take_left, List.drop_left, ← spelled, String.ofList_toList]
  exact lexes

/-! ## Symbols -/

theorem opening?_eq_none (unsigned : c ≠ '#') (unquoted : c ≠ '"') :
    Literal.opening? (c :: rest) = none := by
  simp [Literal.opening?, List.isPrefixOf, unsigned, unquoted.symm]

/-- The symbols of which a declaration without statements is made. -/
def plainSymbols : List Char := [':', ',', '<', '>', '\x7b', '\x7d']

theorem lexeme_of_mem_plainSymbols (listed : c ∈ plainSymbols) :
    lexeme prior c rest = ⟨.token .symbol, 0⟩ := by
  simp only [plainSymbols, List.mem_cons, List.not_mem_nil, or_false] at listed
  rcases listed with rfl | rfl | rfl | rfl | rfl | rfl <;> rfl

theorem Lexes.symbol (listed : c ∈ plainSymbols) (lexes : Lexes .empty rest tokens) :
    Lexes gap (c :: rest) (gap.symbol (String.ofList [c]) :: tokens) := by
  have solid : plainSymbols.all (!isBlank ·) = true := by decide
  have solid := (Bool.not_eq_true' _).mp (List.all_eq_true.mp solid c listed)
  exact of_lexeme solid (fun prior => lexeme_of_mem_plainSymbols listed) rfl lexes

/-! ## Words -/

def endsWord (text : List Char) : Bool :=
  text.head?.all fun c => !isIdentifierPart c

theorem takeWhile_eq_nil_of_endsWord (ends : endsWord rest = true) :
    rest.takeWhile isIdentifierPart = [] := by
  cases rest with
  | nil => rfl
  | cons c rest =>
      have stops : isIdentifierPart c = false := (Bool.not_eq_true' _).mp ends
      rw [List.takeWhile_cons, stops, if_neg Bool.false_ne_true]

def isWordText (text : String) : Bool :=
  match text.toList with
  | [] => false
  | first :: rest => isIdentifierStart first && rest.all isIdentifierPart

theorem isUpper_iff : c.isUpper = true ↔ 65 ≤ c.toNat ∧ c.toNat ≤ 90 :=
  decide_eq_true_iff

theorem isLower_iff : c.isLower = true ↔ 97 ≤ c.toNat ∧ c.toNat ≤ 122 :=
  Bool.and_eq_true_iff.trans (and_congr decide_eq_true_iff decide_eq_true_iff)

theorem isAlpha_iff :
    c.isAlpha = true ↔ 65 ≤ c.toNat ∧ c.toNat ≤ 90 ∨ 97 ≤ c.toNat ∧ c.toNat ≤ 122 :=
  Bool.or_eq_true_iff.trans (or_congr isUpper_iff isLower_iff)

theorem isAlphanum_iff :
    c.isAlphanum = true ↔ c.isAlpha = true ∨ 48 ≤ c.toNat ∧ c.toNat ≤ 57 := by
  simp [Char.isAlphanum, Char.isDigit, UInt32.le_iff_toNat_le]

theorem isBlank_iff : isBlank c = true ↔ c = ' ' ∨ 9 ≤ c.toNat ∧ c.toNat ≤ 13 := by
  simp [isBlank, Char.le_def, UInt32.le_iff_toNat_le]

theorem isBlank_eq_false_of_isIdentifierStart (start : isIdentifierStart c = true) :
    isBlank c = false := by
  refine Bool.eq_false_iff.mpr fun blank => ?_
  rw [isIdentifierStart] at start
  rcases isBlank_iff.mp blank with rfl | code
  · revert start
    decide
  · rw [if_pos (by omega), Bool.or_eq_true, isAlpha_iff, beq_iff_eq] at start
    rcases start with letter | rfl
    · omega
    · revert code
      decide

theorem lexeme_of_isIdentifierStart (start : isIdentifierStart c = true) :
    lexeme prior c rest = ⟨.token .word, (rest.takeWhile isIdentifierPart).length⟩ := by
  have unsigned : c ≠ '#' := by
    rintro rfl
    revert start
    decide
  have unquoted : c ≠ '"' := by
    rintro rfl
    revert start
    decide
  rw [lexeme, opening?_eq_none unsigned unquoted]
  exact if_pos start

theorem Lexes.word {text : String} (isWord : isWordText text = true)
    (ends : endsWord rest = true) (lexes : Lexes .empty rest tokens) :
    Lexes gap (text.toList ++ rest) (gap.word text :: tokens) := by
  cases spelled : text.toList with
  | nil => simp [isWordText, spelled] at isWord
  | cons first others =>
      simp only [isWordText, spelled, Bool.and_eq_true, List.all_eq_true] at isWord
      obtain ⟨start, parts⟩ := isWord
      have taken : (others ++ rest).takeWhile isIdentifierPart = others := by
        rw [List.takeWhile_append_of_pos parts, takeWhile_eq_nil_of_endsWord ends, List.append_nil]
      rw [List.cons_append]
      refine of_lexeme (isBlank_eq_false_of_isIdentifierStart start)
        (fun prior => lexeme_of_isIdentifierStart start) ?_ ?_
      · rw [taken, List.take_left, ← spelled, String.ofList_toList]
      · rwa [taken, List.drop_left]

end Lineage.Source
