import Lineage.Proofs.Source.Lexer
import Lineage.Proofs.Source.Recovery
import Lineage.Source.Parser

/-!
# The tokens of a source

The tokens spell the source, white space and comments included, and each of them is one that the
machine can rely on.  So the tree of a source spells the source.
-/

namespace Lineage.Source

theorem lexemeAfterSign_ne_invented {first : Bool} {rest : List Char} {expected : String} :
    (lexemeAfterSign first rest).kind ≠ .token (.invented expected) := by
  fun_cases lexemeAfterSign first rest <;> intro same <;> cases same

theorem lexeme_ne_invented {prior : Option Token} {c : Char} {rest : List Char}
    {expected : String} : (lexeme prior c rest).kind ≠ .token (.invented expected) := by
  fun_cases lexeme prior c rest
  case case8 => exact lexemeAfterSign_ne_invented
  all_goals intro same
  all_goals cases same

theorem text_eq {white text rest : List Char} {c : Char} (more : Nat)
    (h : text.dropWhile isBlank = c :: rest) :
    String.ofList white ++ String.ofList text =
      String.ofList (white ++ text.takeWhile isBlank) ++
        (String.ofList (c :: rest.take more) ++ String.ofList (rest.drop more)) := by
  rw [← String.ofList_append, ← String.ofList_append, ← String.ofList_append, List.cons_append,
    List.take_append_drop, ← h, List.append_assoc, List.takeWhile_append_dropWhile]

theorem source_tokensFrom (prior : Option Token) (extras : List Tree) (white text : List Char) :
    Ahead.source (tokensFrom prior extras white text) =
      Tree.sources extras.reverse ++ (String.ofList white ++ String.ofList text) := by
  cases h : text.dropWhile isBlank with
  | nil =>
      have blank : text.takeWhile isBlank = text := by
        have parted := List.takeWhile_append_dropWhile (p := isBlank) (l := text)
        rwa [h, List.append_nil] at parted
      rw [tokensFrom_of_dropWhile_eq_nil h, blank, String.ofList_append]
      simp [Ahead.source, Token.source]
  | cons c rest =>
      rw [tokensFrom_of_dropWhile_eq_cons h, text_eq (lexeme prior c rest).more h]
      dsimp only
      split
      · rw [Ahead.source, source_tokensFrom, Token.source_eq]
        simp [Tree.sources, String.append_assoc]
      · rw [source_tokensFrom]
        simp [Tree.sources, Tree.source, Tree.sources_append, String.append_assoc]
  termination_by text.length
  decreasing_by all_goals exact length_rest_lt h

theorem isRegular_tokensFrom (prior : Option Token) (extras : List Tree) (white text : List Char)
    (extra : ∀ tree ∈ extras, tree.isExtra = true ∧ tree.IsShaped) :
    Ahead.IsRegular (tokensFrom prior extras white text) := by
  have extra' : ∀ tree ∈ extras.reverse, tree.isExtra = true ∧ tree.IsShaped :=
    fun tree listed => extra tree (List.mem_reverse.mp listed)
  cases h : text.dropWhile isBlank with
  | nil =>
      rw [tokensFrom_of_dropWhile_eq_nil h]
      exact List.forall_mem_singleton.mpr ⟨extra', fun expected invented => by cases invented⟩
  | cons c rest =>
      rw [tokensFrom_of_dropWhile_eq_cons h]
      dsimp only
      split
      · rename_i kind same
        refine List.forall_mem_cons.mpr ⟨⟨extra', fun expected invented => ?_⟩, ?_⟩
        · cases invented
          exact absurd same lexeme_ne_invented
        · exact isRegular_tokensFrom _ _ _ _ (List.forall_mem_nil _)
      · refine isRegular_tokensFrom _ _ _ _ (List.forall_mem_cons.mpr ⟨⟨rfl, ?_⟩, extra⟩)
        exact .leaf fun _ => rfl
  termination_by text.length
  decreasing_by all_goals exact length_rest_lt h

theorem source_tokens (source : String) : Ahead.source (tokens source) = source := by
  have whole : String.ofList (source.toList.take 1) ++ String.ofList (source.toList.drop 1) =
      source := by
    rw [← String.ofList_append, List.take_append_drop, String.ofList_toList]
  simp only [tokens]
  split
  · simpa [Tree.sources] using (source_tokensFrom _ _ _ _).trans (by simpa [Tree.sources] using whole)
  · simp [source_tokensFrom, Tree.sources]

theorem isRegular_tokens (source : String) : Ahead.IsRegular (tokens source) := by
  simp only [tokens]
  split <;> exact isRegular_tokensFrom _ _ _ _ nofun

theorem isShaped_tree (source : String) : (tree source).IsShaped :=
  (treeOf_spells (isRegular_tokens source)).1

theorem source_tree (source : String) : (tree source).source = source :=
  (treeOf_spells (isRegular_tokens source)).2.trans (source_tokens source)

end Lineage.Source
