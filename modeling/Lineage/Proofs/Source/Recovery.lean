import Lineage.Proofs.Source.Steps
import Mathlib.Data.List.TakeWhile

/-!
# Every way through a source spells it

Trees that are given up go into an error together with the tokens that are skipped, and a supplied
token has no text.  So whatever remedies are taken, the tree at the end spells the source.
-/

namespace Lineage.Source

/-! ## Tokens ahead -/

namespace Ahead

def source : Ahead → String
  | [] => ""
  | token :: rest => token.source ++ source rest

def IsRegular (ahead : Ahead) : Prop :=
  ∀ token ∈ ahead, token.IsRegular

theorem source_append (front back : Ahead) : source (front ++ back) = source front ++ source back := by
  induction front with
  | nil => rw [List.nil_append, source, String.empty_append]
  | cons token front ih => rw [List.cons_append, source, source, ih, String.append_assoc]

end Ahead

/-! ## Errors -/

section Errors

variable {token : Token} {tokens : List Token} {trees : List Tree}

theorem isShaped_leaf_token (lead text : String) :
    (Tree.leaf none .token lead text).IsShaped :=
  .leaf nofun

theorem sources_skippedLeaves (token : Token) :
    Tree.sources (skippedLeaves token) = token.lead ++ token.text := by
  rw [skippedLeaves]
  split
  · rename_i first second rest kind spelled
    have closed : (second :: rest).dropLast ++ (second :: rest).getLast?.toList = second :: rest := by
      rw [List.getLast?_eq_some_getLast (List.cons_ne_nil second rest), Option.toList_some,
        List.dropLast_append_getLast]
    have inner : Tree.sources (if (second :: rest).dropLast.isEmpty then []
        else [.leaf none .token "" (String.ofList (second :: rest).dropLast)]) =
        String.ofList (second :: rest).dropLast := by
      split
      · rename_i nothing
        rw [List.isEmpty_iff.mp nothing]
        rfl
      · simp [Tree.sources, Tree.source]
    have whole : token.text = String.ofList [first] ++ (String.ofList (second :: rest).dropLast ++
        String.ofList (second :: rest).getLast?.toList) := by
      rw [← String.ofList_append, closed, ← String.ofList_append, List.singleton_append, ← spelled,
        String.ofList_toList]
    simp only [List.cons_append, Tree.sources, Tree.sources_append, Tree.source, inner, whole,
      String.empty_append, String.append_empty, String.append_assoc]
  · simp [Tree.sources, Tree.source]

theorem isShaped_skippedLeaves : ∀ tree ∈ skippedLeaves token, tree.IsShaped := by
  intro tree listed
  rw [skippedLeaves] at listed
  split at listed
  · simp only [List.cons_append, List.mem_cons, List.mem_append] at listed
    rcases listed with rfl | inner | last
    · exact isShaped_leaf_token _ _
    · split_ifs at inner
      · cases inner
      · cases List.mem_singleton.mp inner
        exact isShaped_leaf_token _ _
    · cases List.mem_singleton.mp (List.mem_cons.mpr last)
      exact isShaped_leaf_token _ _
  · cases List.mem_singleton.mp listed
    exact isShaped_leaf_token _ _

theorem sources_skippedTrees (tokens : List Token) :
    Tree.sources (skippedTrees tokens) = Ahead.source tokens := by
  induction tokens with
  | nil => rfl
  | cons token tokens ih =>
      rw [skippedTrees, List.flatMap_cons, Tree.sources_append, Tree.sources_append,
        sources_skippedLeaves, ← Token.source_eq, Ahead.source, ← ih, skippedTrees]

theorem isShaped_skippedTrees (regular : Ahead.IsRegular tokens) :
    ∀ tree ∈ skippedTrees tokens, tree.IsShaped := by
  intro tree listed
  obtain ⟨token, among, here⟩ := List.mem_flatMap.mp listed
  rcases List.mem_append.mp here with extra | leaf
  · exact ((regular token among).extras tree extra).2
  · exact isShaped_skippedLeaves tree leaf

theorem source_precededBy (trees : List Tree) (token : Token) :
    (precededBy trees token).source = Tree.sources trees ++ token.source := by
  have parted : Tree.sources (trees.takeWhile Tree.isExtra ++ [.node none .error
      (trees.dropWhile Tree.isExtra)]) = Tree.sources trees := by
    rw [Tree.sources_append, Tree.sources, Tree.source, Tree.sources, String.append_empty,
      ← Tree.sources_append, List.takeWhile_append_dropWhile]
  rw [Token.source_eq, Token.source_eq, precededBy, Tree.sources_append, parted,
    String.append_assoc]

theorem isShaped_error (shaped : ∀ tree ∈ trees, tree.IsShaped) :
    (Tree.node none .error trees).IsShaped :=
  .node nofun nofun (fun _ => rfl) shaped

theorem isShaped_sourceFile (shaped : ∀ tree ∈ trees, tree.IsShaped) :
    (Tree.node none .sourceFile trees).IsShaped :=
  .node nofun nofun (fun _ => rfl) shaped

theorem isRegular_precededBy (shaped : ∀ tree ∈ trees, tree.IsShaped) (regular : token.IsRegular) :
    (precededBy trees token).IsRegular where
  extras := by
    intro tree listed
    rw [precededBy, List.mem_append, List.mem_append] at listed
    rcases listed with (front | error) | extra
    · exact ⟨List.mem_takeWhile_imp front, shaped tree (List.takeWhile_subset _ front)⟩
    · cases List.mem_singleton.mp error
      refine ⟨rfl, isShaped_error fun tree listed => shaped tree ?_⟩
      exact (List.dropWhile_suffix _).subset listed
    · exact regular.extras tree extra
  invented := regular.invented

end Errors

/-! ## Points -/

/-- A point to go back to, with what was lost and all that follows, spells the source. -/
structure Cut.Spells (source : String) (rest : Ahead) (cut : Cut) : Prop where
  machine : cut.machine.IsSound
  lost : ∀ tree ∈ cut.lost, tree.IsShaped
  next : cut.next.IsRegular
  whole : cut.machine.source ++ (Tree.sources cut.lost ++ (cut.next.source ++ rest.source)) = source

theorem spells_of_mem_cutsFrom {source : String} {next : Token} {rest : Ahead}
    {pieces : List Piece} {lost : List Tree} {cut : Cut} (kept : Kept pieces)
    (shaped : ∀ tree ∈ lost, tree.IsShaped) (regular : next.IsRegular)
    (whole : Tree.sources (pieces.map Piece.tree).reverse ++
      (Tree.sources lost ++ (next.source ++ rest.source)) = source)
    (listed : cut ∈ cutsFrom next pieces lost) : cut.Spells source rest := by
  induction pieces generalizing lost with
  | nil => cases listed
  | cons piece older ih =>
      have shaped' : ∀ tree ∈ piece.tree :: lost, tree.IsShaped :=
        List.forall_mem_cons.mpr ⟨kept.isShaped piece (.head _), shaped⟩
      have whole' : Tree.sources (older.map Piece.tree).reverse ++
          (Tree.sources (piece.tree :: lost) ++ (next.source ++ rest.source)) = source := by
        rw [List.map_cons, List.reverse_cons, Tree.sources_append] at whole
        simpa only [Tree.sources, String.append_empty, String.append_assoc] using whole
      rw [cutsFrom] at listed
      rcases List.mem_cons.mp listed with rfl | later
      · refine ⟨kept.before.resumed, shaped', regular, ?_⟩
        rw [Machine.source, Machine.resumed, kept.treesOf_before]
        exact whole'
      · exact ih kept.tail shaped' whole' later

theorem spells_of_mem_cuts {source : String} {stuck : Machine} {left : Token} {rest : Ahead}
    {cut : Cut} (sound : stuck.IsSound) (regular : left.IsRegular)
    (whole : stuck.source ++ (left.source ++ rest.source) = source)
    (listed : cut ∈ cuts left stuck) : cut.Spells source rest := by
  have nothing : ∀ tree ∈ ([] : List Tree), tree.IsShaped := nofun
  refine spells_of_mem_cutsFrom sound.kept nothing regular ?_ listed
  rw [Tree.sources, String.empty_append]
  exact whole

/-! ## Ways -/

def Machine.Outcome.Spells (source : String) : Machine.Outcome → Prop
  | .finished machine => machine.IsSound ∧ machine.source = source
  | .halted checkpoint stuck token left rest _ =>
      checkpoint.IsSound ∧ stuck.IsSound ∧ token.IsRegular ∧ left.IsRegular ∧ Ahead.IsRegular rest ∧
        checkpoint.source ++ (token.source ++ rest.source) = source ∧
        stuck.source ++ (left.source ++ rest.source) = source

def Way.Spells (source : String) (way : Way) : Prop :=
  way.outcome.Spells source

section Ways

variable {source : String} {machine stuck checkpoint : Machine} {token left : Token}
variable {rest ahead : Ahead} {points : List Cut} {skipped : List Token} {way : Way}
variable {found : List Way} {cost : Nat}

theorem Machine.IsSound.run (sound : machine.IsSound) (regular : ahead.IsRegular)
    (whole : machine.source ++ ahead.source = source) (count : Nat) :
    (machine.run count ahead).Spells source := by
  induction ahead generalizing machine count with
  | nil =>
      refine ⟨sound, ?_⟩
      rw [← whole, Ahead.source, String.append_empty]
  | cons token rest ih =>
      have regular' : Ahead.IsRegular rest := fun other later => regular other (.tail _ later)
      have here : token.IsRegular := regular token (.head _)
      have consumed := sound.consume machine.moveLimit rest here
      rw [Ahead.source] at whole
      rw [Machine.run]
      split
      · rename_i next same
        rw [same] at consumed
        refine ih consumed.1 regular' ?_ (count + 1)
        rw [consumed.2, String.append_assoc, whole]
      · rename_i stuck left same
        rw [same] at consumed
        obtain ⟨sound', regular'', kept⟩ := consumed
        refine ⟨sound, sound', here, regular'', regular', whole, ?_⟩
        rw [← String.append_assoc, kept, String.append_assoc, whole]

theorem spells_ofMachine (sound : machine.IsSound) (regular : ahead.IsRegular)
    (whole : machine.source ++ ahead.source = source) (cost : Nat) :
    (Way.ofMachine machine ahead cost).Spells source :=
  sound.run regular whole 0

theorem Machine.IsSound.consume? {next : Machine} (sound : machine.IsSound)
    (regular : token.IsRegular) (read : machine.consume? token rest = some next) :
    next.IsSound ∧ next.source = machine.source ++ token.source := by
  have consumed := sound.consume machine.moveLimit rest regular
  rw [Machine.consume?] at read
  cases same : machine.consume machine.moveLimit token rest with
  | ok reached =>
      rw [same] at read consumed
      cases read
      exact consumed
  | error stuck =>
      rw [same] at read
      cases read

theorem expected_eq_invent {goals : List Goal} {invented : Token}
    (expects : expected goals = some invented) : ∃ text, invented = .invent text := by
  revert expects
  fun_cases expected goals <;> intro expects <;> cases expects <;> exact ⟨_, rfl⟩

theorem spells_of_mem_supply (sound : stuck.IsSound) (regular : Ahead.IsRegular (left :: rest))
    (whole : stuck.source ++ Ahead.source (left :: rest) = source)
    (listed : way ∈ supply cost stuck left rest) : way.Spells source := by
  rw [supply] at listed
  split at listed
  · cases listed
  · rename_i invented expects
    obtain ⟨text, rfl⟩ := expected_eq_invent expects
    split_ifs at listed
    · split at listed
      · cases listed
      · rename_i machine read
        obtain ⟨sound', same⟩ := sound.consume? (Token.isRegular_invent text) read
        split at listed
        · cases listed
        · cases List.mem_singleton.mp listed
          refine spells_ofMachine sound' regular ?_ _
          rw [same, Token.source_invent, String.append_empty, whole]
    · cases listed

theorem Cut.Spells.resume {point : Cut} {before : List Token} (spells : point.Spells source rest)
    (skipped : Ahead.IsRegular before) (regular : Ahead.IsRegular (token :: ahead))
    (same : Ahead.source (before ++ token :: ahead) = Ahead.source (point.next :: rest)) :
    (Way.ofMachine point.machine
      (precededBy (point.lost ++ skippedTrees before) token :: ahead) cost).Spells source := by
  obtain ⟨sound, shaped, regular', whole⟩ := spells
  have shaped' : ∀ tree ∈ point.lost ++ skippedTrees before, tree.IsShaped := by
    intro tree listed
    rcases List.mem_append.mp listed with lost | given
    · exact shaped tree lost
    · exact isShaped_skippedTrees skipped tree given
  obtain ⟨here, later⟩ := List.forall_mem_cons.mp regular
  refine spells_ofMachine sound ?_ ?_ cost
  · exact List.forall_mem_cons.mpr ⟨isRegular_precededBy shaped' here, later⟩
  · rw [Ahead.source_append, Ahead.source, Ahead.source] at same
    rw [Ahead.source, source_precededBy, Tree.sources_append, sources_skippedTrees]
    simp only [String.append_assoc, same]
    exact whole

theorem spells_of_mem_resumeAt {first : Token}
    (points_spell : ∀ point ∈ points, point.Spells source rest)
    (regular : Ahead.IsRegular (first :: rest)) (parted : skipped ++ token :: ahead = first :: rest)
    (listed : way ∈ resumeAt cost points skipped token ahead) : way.Spells source := by
  rw [resumeAt, Option.mem_toList] at listed
  obtain ⟨point, among, resumed⟩ := List.exists_of_findSome?_eq_some listed
  have spells := points_spell point among
  have later : Ahead.IsRegular rest := (List.forall_mem_cons.mp regular).2
  cases skipped with
  | nil =>
      -- No token is skipped, so that what was left of the first one is read again.
      cases parted
      simp only at resumed
      split_ifs at resumed
      obtain ⟨machine, -, rfl⟩ := Option.map_eq_some_iff.mp resumed
      exact spells.resume nofun (List.forall_mem_cons.mpr ⟨spells.next, later⟩) rfl
  | cons one more =>
      cases parted
      simp only at resumed
      split_ifs at resumed
      obtain ⟨machine, -, rfl⟩ := Option.map_eq_some_iff.mp resumed
      refine spells.resume ?_ (fun other listed => later other (List.mem_append_right _ listed)) rfl
      refine List.forall_mem_cons.mpr ⟨spells.next, fun other listed => ?_⟩
      exact later other (List.mem_append_left _ listed)

theorem spells_of_mem_resume {first : Token} (points_spell : ∀ point ∈ points, point.Spells source rest)
    (regular : Ahead.IsRegular (first :: rest)) (parted : skipped ++ ahead = first :: rest)
    (found_spell : ∀ way ∈ found, way.Spells source)
    (listed : way ∈ resume cost points found skipped ahead) : way.Spells source := by
  -- The tokens ahead are skipped one after the other, while `found` gathers the ways that go on.
  induction ahead generalizing found skipped with
  | nil => exact found_spell way listed
  | cons token ahead ih =>
      have parted' : (skipped ++ [token]) ++ ahead = first :: rest := by
        rw [← parted, List.append_assoc, List.singleton_append]
      have more : ∀ way ∈ (if skipped.isEmpty || resumesAfterSkip token then
          found ++ resumeAt cost points skipped token ahead else found), way.Spells source := by
        intro way listed
        split_ifs at listed
        · rcases List.mem_append.mp listed with old | new
          · exact found_spell way old
          · exact spells_of_mem_resumeAt points_spell regular parted new
        · exact found_spell way listed
      simp only [resume] at listed
      generalize (if skipped.isEmpty || resumesAfterSkip token then
        found ++ resumeAt cost points skipped token ahead else found) = ways at more listed
      split_ifs at listed
      · exact more way listed
      · exact ih parted' more listed

theorem spells_of_mem_remedies (sound : checkpoint.IsSound) (stuck_sound : stuck.IsSound)
    (regular : Ahead.IsRegular (token :: rest)) (left_regular : left.IsRegular)
    (whole : checkpoint.source ++ (token.source ++ Ahead.source rest) = source)
    (stuck_whole : stuck.source ++ (left.source ++ Ahead.source rest) = source)
    (listed : way ∈ remedies cost checkpoint stuck token left rest) : way.Spells source := by
  obtain ⟨here, later⟩ := List.forall_mem_cons.mp regular
  refine spells_of_mem_resume ?_ regular rfl ?_ listed
  · refine List.forall_mem_cons.mpr ⟨⟨sound, nofun, here, ?_⟩, fun cut listed => ?_⟩
    · rw [Tree.sources, String.empty_append, whole]
    · exact spells_of_mem_cuts stuck_sound left_regular stuck_whole (List.mem_of_mem_take listed)
  · intro way listed
    exact spells_of_mem_supply stuck_sound (List.forall_mem_cons.mpr ⟨left_regular, later⟩)
      stuck_whole listed

theorem spells_of_mem_surrender (sound : stuck.IsSound) (regular : Ahead.IsRegular (left :: rest))
    (whole : stuck.source ++ (left.source ++ Ahead.source rest) = source)
    (listed : way ∈ surrender cost stuck left rest) : way.Spells source := by
  obtain ⟨here, later⟩ := List.forall_mem_cons.mp regular
  rw [surrender] at listed
  split at listed
  · rename_i point last found ended
    have spells : ∀ cut ∈ [point], cut.Spells source rest :=
      List.forall_mem_singleton.mpr
        (spells_of_mem_cuts sound here whole (List.mem_of_getLast? found))
    refine spells_of_mem_resumeAt spells regular ?_ listed
    exact List.dropLast_append_getLast? last ended
  · cases listed

theorem mem_insert {other : Way} {ways : List Way} :
    way ∈ insert other ways ↔ way = other ∨ way ∈ ways := by
  induction ways with
  | nil => simp [insert]
  | cons first rest ih =>
      rw [insert]
      split_ifs
      · exact List.mem_cons
      · rw [List.mem_cons, ih, List.mem_cons]
        tauto

theorem mem_foldl_insert {further ways : List Way} :
    way ∈ further.foldl (fun ways way => insert way ways) ways ↔ way ∈ further ∨ way ∈ ways := by
  induction further generalizing ways with
  | nil => simp
  | cons first rest ih =>
      rw [List.foldl_cons, ih, mem_insert, List.mem_cons]
      tauto

theorem isSound_of_cheapest {fuel : Nat} {ways : List Way}
    (ways_spell : ∀ way ∈ ways, way.Spells source) (cheap : cheapest fuel ways = some machine) :
    machine.IsSound ∧ machine.source = source := by
  induction fuel generalizing ways with
  | zero => cases cheap
  | succ fuel ih =>
      cases ways with
      | nil => cases cheap
      | cons way others =>
          have spells := ways_spell way (.head _)
          rw [cheapest] at cheap
          rw [Way.Spells] at spells
          split at cheap
          · rename_i final finished
            cases cheap
            rw [finished] at spells
            exact spells
          · rename_i checkpoint stuck token left rest count halted
            rw [halted] at spells
            obtain ⟨sound, sound', here, here', later, whole, whole'⟩ := spells
            refine ih (fun other listed => ?_) cheap
            -- The ways that were put off are known to spell the source, those from here are new.
            rcases mem_foldl_insert.mp listed with new | old
            · split_ifs at new
              · cases new
              · split at new
                · exact spells_of_mem_surrender sound' (List.forall_mem_cons.mpr ⟨here', later⟩)
                    whole' new
                · exact spells_of_mem_remedies sound sound' (List.forall_mem_cons.mpr ⟨here, later⟩)
                    here' whole whole' new
            · exact ways_spell other (.tail _ (List.mem_of_mem_filter old))

end Ways

/-! ## The tree of a source -/

theorem held_start : Held Machine.startGoals [[]] :=
  ⟨[.unnamed], _, .cons Summary.holds_unnamed .nil, rfl⟩

theorem isSound_start : Machine.start.IsSound :=
  Point.IsSound.resumed ⟨nofun, held_start, .nil⟩

/-- The tree is shaped as the grammar asks, and spells the source of its tokens. -/
theorem treeOf_spells {tokens : List Token} (regular : Ahead.IsRegular tokens) :
    (treeOf tokens).IsShaped ∧ (treeOf tokens).source = Ahead.source tokens := by
  have empty : Machine.start.source ++ Ahead.source tokens = Ahead.source tokens :=
    String.empty_append
  rw [treeOf]
  split
  · rename_i machine cheap
    have spells : ∀ way ∈ [Way.ofMachine .start tokens 0], way.Spells (Ahead.source tokens) :=
      List.forall_mem_singleton.mpr (spells_ofMachine isSound_start regular empty 0)
    obtain ⟨sound, whole⟩ := isSound_of_cheapest spells cheap
    rw [Machine.root_eq]
    exact ⟨isShaped_sourceFile sound.kept.isShaped_trees, whole⟩
  · have shaped := isShaped_error (isShaped_skippedTrees regular)
    refine ⟨isShaped_sourceFile (List.forall_mem_singleton.mpr shaped), ?_⟩
    rw [Tree.source, Tree.sources, Tree.source, Tree.sources, String.append_empty,
      sources_skippedTrees]

end Lineage.Source
