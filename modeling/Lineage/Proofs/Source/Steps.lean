import Lineage.Proofs.Source.Machine
import Lineage.Proofs.Source.Promises
import Lineage.Proofs.Source.Trees

/-!
# What each step of a machine keeps

No character of the source is lost or made up while a token is read: the trees of the open phrases
and the tokens ahead always spell the same source.  The goals never do harm to the open phrases, and
this was so at every point to which a machine can be set back.
-/

namespace Lineage.Source

/-! ## Tokens -/

/-- What the machine may rely on when it reads a token. -/
structure Token.IsRegular (token : Token) : Prop where
  extras : ∀ tree ∈ token.extras, tree.isExtra = true ∧ tree.IsShaped
  invented : ∀ expected, token.kind = .invented expected → token.lead = "" ∧ token.text = ""

theorem Token.source_eq (token : Token) :
    token.source = Tree.sources token.extras ++ (token.lead ++ token.text) :=
  String.append_assoc

theorem Token.isRegular_invent (expected : String) : (Token.invent expected).IsRegular where
  extras := nofun
  invented _ _ := ⟨rfl, rfl⟩

theorem Token.source_invent (expected : String) : (Token.invent expected).source = "" := rfl

/-! ## Harmless goals -/

/-- The goals do no harm to open phrases that have the given trees so far, innermost first. -/
def Held (goals : List Goal) (phrases : List (List Tree)) : Prop :=
  ∃ summaries after, List.Forall₂ Summary.Holds summaries phrases ∧
    effects goals summaries = some after

namespace Held

variable {goals goals' : List Goal} {phrases : List (List Tree)} {trees outer : List Tree}
variable {tree : Tree} {kind : NodeKind} {field : Option Field} {rule : Rule} {ahead : Ahead}

theorem answer (held : Held (.rule rule :: goals) phrases)
    (expands : rule.expand ahead = some goals') : Held (goals' ++ goals) phrases := by
  obtain ⟨summaries, after, holds, done⟩ := held
  obtain ⟨learnt, done'⟩ := effects_answer expands done
  exact ⟨summaries, learnt, holds, done'⟩

theorem enter (held : Held (.enter :: goals) phrases) : Held goals ([] :: phrases) := by
  obtain ⟨summaries, after, holds, done⟩ := held
  exact ⟨.unnamed :: summaries, after, .cons Summary.holds_unnamed holds, done⟩

theorem leave (held : Held (.leave kind field :: goals) (trees :: outer :: phrases))
    (shaped : ∀ tree ∈ trees, tree.IsShaped) :
    (Tree.node field kind trees).IsShaped ∧
      Held goals ((outer ++ [.node field kind trees]) :: phrases) := by
  obtain ⟨summaries, after, holds, done⟩ := held
  obtain _ | ⟨inner, _ | ⟨above, others⟩⟩ := holds
  obtain ⟨between, first, rest⟩ := Option.bind_eq_some_iff.mp done
  simp only [Goal.effect] at first
  split_ifs at first with ended
  cases first
  refine ⟨inner.isShaped_node ended shaped, _, after, .cons ?_ others, rest⟩
  refine above.add Iff.rfl ?_
  cases kind <;> rfl

theorem adopt (held : Held (.adopt :: goals) (trees :: phrases)) (first rest : List Tree) :
    Held goals (first :: rest :: phrases) := by
  obtain ⟨summaries, after, holds, done⟩ := held
  obtain _ | ⟨-, others⟩ := holds
  have weak := Summary.holds_unknown
  exact ⟨_, after, .cons (weak first) (.cons (weak rest) others), done⟩

theorem extra (held : Held goals (trees :: phrases)) (extra : tree.isExtra = true)
    (shaped : tree.IsShaped) : Held goals ((trees ++ [tree]) :: phrases) := by
  obtain ⟨summaries, after, holds, done⟩ := held
  obtain _ | ⟨inner, others⟩ := holds
  exact ⟨_, after, .cons (inner.add_extra extra shaped) others, done⟩

theorem pause (held : Held (.pause :: goals) phrases) : Held goals phrases := by
  obtain ⟨summaries, after, holds, done⟩ := held
  cases holds with
  | nil => cases done
  | cons inner others => exact ⟨_, after, .cons inner others, done⟩

end Held

/-! ## Leaves -/

section Leaves

variable {goals : List Goal} {phrases : List (List Tree)} {trees : List Tree}
variable {terminal : Terminal} {field : Option Field} {token : Token}

theorem Terminal.accepts_name (accepts : Terminal.name.accepts token = true) :
    token.kind = .word ∨ token.kind = .invented "" := by
  simp only [Terminal.accepts, Token.isWord] at accepts
  split at accepts
  · exact .inl ‹_›
  · rename_i expected same
    rw [eq_of_beq accepts] at same
    exact .inr same
  · cases accepts

theorem Machine.source_leaf (regular : token.IsRegular) :
    (Machine.leaf terminal field token).source = token.lead ++ token.text := by
  rw [Machine.leaf]
  split
  · rename_i expected same
    obtain ⟨lead, text⟩ := regular.invented expected same
    rw [lead, text]
    split <;> rfl
  · rfl

theorem Machine.isShaped_leaf (terminal : Terminal) (field : Option Field) (token : Token) :
    (Machine.leaf terminal field token).IsShaped := by
  rw [Machine.leaf]
  split
  · split
    · exact .leaf nofun
    · exact .missing
  · exact .leaf (by cases terminal <;> nofun)

theorem Machine.field?_leaf (accepts : terminal.accepts token = true)
    (named : field = some .name → terminal = .name) :
    (Machine.leaf terminal field token).field? = some .name ↔ field = some .name := by
  rw [Machine.leaf]
  split
  · rename_i expected same
    split
    · exact Iff.rfl
    · rename_i mark
      refine iff_of_false nofun fun name => ?_
      rw [named name] at accepts
      rcases Terminal.accepts_name accepts with word | supplied
      · rw [word] at same; cases same
      · rw [supplied] at same
        cases same
        exact mark rfl
  · exact Iff.rfl

theorem Machine.isSpecifier_leaf (terminal : Terminal) (field : Option Field) (token : Token) :
    (Machine.leaf terminal field token).isSpecifier = false := by
  rw [Machine.leaf]
  split
  · split <;> rfl
  · rfl

theorem Held.shift (held : Held (.shift terminal field :: goals) (trees :: phrases))
    (accepts : terminal.accepts token = true) :
    Held goals ((trees ++ [Machine.leaf terminal field token]) :: phrases) := by
  obtain ⟨summaries, after, holds, done⟩ := held
  obtain _ | ⟨inner, others⟩ := holds
  obtain ⟨between, first, rest⟩ := Option.bind_eq_some_iff.mp done
  simp only [Goal.effect] at first
  split_ifs at first with strange
  cases first
  refine ⟨_, after, .cons (inner.add ?_ ?_) others, rest⟩
  · refine Machine.field?_leaf accepts fun name => ?_
    by_contra other
    exact strange ⟨name, other⟩
  · exact Machine.isSpecifier_leaf terminal field token

end Leaves

/-! ## Points to go back to -/

def treesOf (frames : List Frame) : List Tree :=
  (frames.flatten.map Piece.tree).reverse

/-- Parts of open phrases, newest first.  Each was read at a point at which there were the older ones
and the goals did no harm. -/
inductive Kept : List Piece → Prop where
  | nil : Kept []
  | cons {piece : Piece} {older : List Piece} (shaped : piece.tree.IsShaped)
      (opened : piece.before.frames ≠ [])
      (held : Held piece.before.goals (piece.before.frames.map Frame.trees))
      (same : piece.before.frames.flatten.map Piece.tree = older.map Piece.tree)
      (before : Kept piece.before.frames.flatten) (kept : Kept older) : Kept (piece :: older)

structure Point.IsSound (point : Point) : Prop where
  opened : point.frames ≠ []
  held : Held point.goals (point.frames.map Frame.trees)
  kept : Kept point.frames.flatten

structure Machine.IsSound (machine : Machine) : Prop where
  opened : machine.frames ≠ []
  held : Held machine.goals (machine.frames.map Frame.trees)
  kept : Kept machine.frames.flatten
  checkpoint : machine.checkpoint.IsSound
  same : treesOf machine.checkpoint.frames = treesOf machine.frames

def Machine.source (machine : Machine) : String :=
  Tree.sources (treesOf machine.frames)

theorem Machine.root_eq (machine : Machine) :
    machine.root = .node none .sourceFile (treesOf machine.frames) := by
  rw [root, treesOf, List.map_flatten, List.reverse_flatten, List.flatMap_def, List.map_reverse,
    List.map_map]
  rfl

section Points

variable {point : Point} {piece : Piece} {pieces newer older : List Piece}
variable {frame : Frame} {frames : List Frame}

theorem Kept.isShaped (kept : Kept pieces) : ∀ piece ∈ pieces, piece.tree.IsShaped := by
  induction kept with
  | nil => nofun
  | cons shaped _ _ _ _ _ _ ih =>
      intro piece listed
      rcases List.mem_cons.mp listed with rfl | listed
      · exact shaped
      · exact ih piece listed

theorem Kept.isShaped_trees (kept : Kept frames.flatten) :
    ∀ tree ∈ treesOf frames, tree.IsShaped := by
  intro tree listed
  obtain ⟨piece, among, rfl⟩ := List.mem_map.mp (List.mem_reverse.mp listed)
  exact kept.isShaped piece among

theorem Kept.tail (kept : Kept (piece :: older)) : Kept older := by
  cases kept with | cons _ _ _ _ _ kept => exact kept

theorem Kept.of_append (kept : Kept (newer ++ older)) : Kept older := by
  induction newer with
  | nil => exact kept
  | cons piece newer ih => exact ih kept.tail

theorem Kept.before (kept : Kept (piece :: older)) : piece.before.IsSound := by
  cases kept with | cons _ opened held _ before _ => exact ⟨opened, held, before⟩

theorem Kept.treesOf_before (kept : Kept (piece :: older)) :
    treesOf piece.before.frames = (older.map Piece.tree).reverse := by
  cases kept with | cons _ _ _ same _ _ => rw [treesOf, same]

theorem flatten_attach (piece : Piece) (frames : List Frame) :
    (Machine.attach piece frames).flatten = piece :: frames.flatten := by
  cases frames <;> rfl

theorem attach_ne_nil (piece : Piece) (frames : List Frame) : Machine.attach piece frames ≠ [] := by
  cases frames <;> nofun

theorem treesOf_attach (piece : Piece) (frames : List Frame) :
    treesOf (Machine.attach piece frames) = treesOf frames ++ [piece.tree] := by
  rw [treesOf, flatten_attach, List.map_cons, List.reverse_cons, treesOf]

theorem treesOf_cons (frame : Frame) (frames : List Frame) :
    treesOf (frame :: frames) = treesOf frames ++ frame.trees := by
  rw [treesOf, List.flatten_cons, List.map_append, List.reverse_append]
  rfl

theorem Kept.attach (kept : Kept frames.flatten) (shaped : piece.tree.IsShaped)
    (before : piece.before.IsSound) (same : treesOf piece.before.frames = treesOf frames) :
    Kept (Machine.attach piece frames).flatten := by
  rw [flatten_attach]
  exact .cons shaped before.opened before.held (List.reverse_injective same) before.kept kept

theorem Held.attach {goals goals' : List Goal} (held : Held goals (frames.map Frame.trees))
    (opened : frames ≠ [])
    (adds : ∀ {trees phrases}, Held goals (trees :: phrases) →
      Held goals' ((trees ++ [piece.tree]) :: phrases)) :
    Held goals' ((Machine.attach piece frames).map Frame.trees) := by
  obtain ⟨frame, outer, rfl⟩ := List.exists_cons_of_ne_nil opened
  rw [Machine.trees_attach]
  exact adds held

theorem Point.IsSound.resumed (sound : point.IsSound) : (Machine.resumed point).IsSound where
  opened := sound.opened
  held := sound.held
  kept := sound.kept
  checkpoint := sound
  same := rfl

theorem Kept.beginning {outer : List Piece} (kept : Kept (frame ++ outer)) (sound : point.IsSound)
    (same : treesOf point.frames = ((frame ++ outer).map Piece.tree).reverse) :
    (Machine.beginning frame point).IsSound ∧
      treesOf (Machine.beginning frame point).frames = (outer.map Piece.tree).reverse := by
  -- A phrase was begun before its oldest part was read, or just now if it has none.
  rcases List.eq_nil_or_concat frame with rfl | ⟨newer, first, rfl⟩
  · exact ⟨sound, same⟩
  · have began : Machine.beginning (newer.concat first) point = first.before := by
      rw [Machine.beginning, List.concat_eq_append, List.getLast?_concat]
    rw [List.concat_eq_append, List.append_assoc] at kept
    have least : Kept (first :: outer) := kept.of_append
    rw [began]
    exact ⟨least.before, least.treesOf_before⟩

end Points

/-! ## Moves -/

namespace Machine

theorem goals_add (machine : Machine) (trees : List Tree) :
    (machine.add trees).goals = machine.goals := by
  induction trees generalizing machine with
  | nil => rfl
  | cons tree trees ih => exact ih (machine.addTree tree)

theorem treesOf_add (machine : Machine) (trees : List Tree) :
    treesOf (machine.add trees).frames = treesOf machine.frames ++ trees := by
  induction trees generalizing machine with
  | nil => rw [List.append_nil]; rfl
  | cons tree trees ih =>
      rw [add, List.foldl_cons, List.append_cons]
      refine (ih (machine.addTree tree)).trans ?_
      rw [addTree, treesOf_attach]

theorem source_add (machine : Machine) (trees : List Tree) :
    (machine.add trees).source = machine.source ++ Tree.sources trees := by
  rw [source, treesOf_add, Tree.sources_append]
  rfl

theorem add_concat (machine : Machine) (trees : List Tree) (tree : Tree) :
    machine.add (trees ++ [tree]) = (machine.add trees).addTree tree := by
  rw [add, List.foldl_append]
  rfl

end Machine

namespace Machine.IsSound

variable {goals : List Goal} {machine next : Machine} {token left : Token} {rest : Ahead}
variable {tree : Tree} {trees : List Tree} {terminal : Terminal} {field : Option Field}
variable {kind : NodeKind}

theorem addTree (sound : machine.IsSound) (extra : tree.isExtra = true) (shaped : tree.IsShaped) :
    (machine.addTree tree).IsSound where
  opened := attach_ne_nil _ _
  held := sound.held.attach sound.opened (·.extra extra shaped)
  kept := sound.kept.attach shaped sound.checkpoint sound.same
  checkpoint := by
    have point := sound.checkpoint
    refine ⟨attach_ne_nil _ _, ?_, point.kept.attach shaped point rfl⟩
    exact point.held.attach point.opened (·.extra extra shaped)
  same := by
    rw [Machine.addTree, treesOf_attach, treesOf_attach, sound.same]

theorem add (sound : machine.IsSound)
    (extras : ∀ tree ∈ trees, tree.isExtra = true ∧ tree.IsShaped) :
    (machine.add trees).IsSound := by
  induction trees generalizing machine with
  | nil => exact sound
  | cons tree trees ih =>
      obtain ⟨extra, shaped⟩ := extras tree (by simp)
      exact ih (sound.addTree extra shaped) fun other listed => extras other (by simp [listed])

theorem read (sound : machine.IsSound) (regular : token.IsRegular) (shaped : tree.IsShaped)
    (held : ∀ {trees phrases}, Held machine.goals (trees :: phrases) →
      Held goals ((trees ++ [tree]) :: phrases)) :
    Point.IsSound ⟨goals, (machine.add (token.extras ++ [tree])).frames⟩ := by
  have before := sound.add regular.extras
  have here := before.held
  rw [goals_add] at here
  rw [add_concat]
  refine ⟨attach_ne_nil _ _, here.attach before.opened held, ?_⟩
  exact before.kept.attach shaped before.checkpoint before.same

theorem shift (sound : machine.IsSound) (regular : token.IsRegular)
    (same : machine.goals = .shift terminal field :: goals)
    (accepts : terminal.accepts token = true) :
    (machine.shift goals terminal field token).IsSound ∧
      (machine.shift goals terminal field token).source = machine.source ++ token.source := by
  constructor
  · refine Point.IsSound.resumed (sound.read regular (isShaped_leaf _ _ _) fun held => ?_)
    rw [same] at held
    exact held.shift accepts
  · have spelled := source_add machine (token.extras ++ [leaf terminal field token])
    rw [Tree.sources_append, Tree.sources, source_leaf regular, Tree.sources,
      String.append_empty, ← Token.source_eq] at spelled
    exact spelled

theorem pause (sound : machine.IsSound) (regular : token.IsRegular)
    (same : machine.goals = .pause :: goals) :
    (machine.pause goals token).1.IsSound ∧ (machine.pause goals token).2.IsRegular ∧
      (machine.pause goals token).1.source ++ (machine.pause goals token).2.source =
        machine.source ++ token.source := by
  have shaped : (Tree.leaf none .separator token.lead "").IsShaped := .leaf fun _ => rfl
  refine ⟨?_, ⟨nofun, fun expected kind => ⟨rfl, (regular.invented _ kind).2⟩⟩, ?_⟩
  · refine Point.IsSound.resumed (sound.read regular shaped fun held => ?_)
    rw [same] at held
    exact held.pause.extra rfl shaped
  · -- The white space goes to the separator, so that the token is left without.
    have spelled := source_add machine (token.extras ++ [.leaf none .separator token.lead ""])
    have leaf : (Tree.leaf none .separator token.lead "").source = token.lead := by
      rw [Tree.source, String.append_empty]
    rw [Tree.sources_append, Tree.sources, leaf, Tree.sources, String.append_empty] at spelled
    have left : (machine.pause goals token).2.source = token.text := by
      simp [Machine.pause, Token.source, Tree.sources]
    rw [left, Token.source, ← String.append_assoc, ← spelled]
    rfl

theorem enter (sound : machine.IsSound) (regular : token.IsRegular)
    (same : machine.goals = .enter :: goals) :
    Machine.IsSound { machine.add token.extras with
      goals := goals, frames := [] :: (machine.add token.extras).frames } := by
  have before := sound.add regular.extras
  have held := before.held
  rw [goals_add, same] at held
  exact ⟨nofun, held.enter, before.kept, before.checkpoint, before.same⟩

theorem leave (sound : machine.IsSound) (same : machine.goals = .leave kind field :: goals)
    (left : { machine with goals := goals }.leave kind field = some next) :
    next.IsSound ∧ next.source = machine.source := by
  rw [Machine.leave] at left
  split at left
  · rename_i frame outer frames opened
    have opened : machine.frames = frame :: outer :: frames := opened
    cases left
    -- The new part of the outer phrase goes back to the point at which the inner one was begun.
    have kept : Kept (frame ++ (outer :: frames).flatten) := by
      have kept := sound.kept
      rwa [opened] at kept
    have begun := sound.same
    rw [opened] at begun
    obtain ⟨before, around⟩ := kept.beginning sound.checkpoint begun
    obtain ⟨shaped, held⟩ : (Tree.node field kind frame.trees).IsShaped ∧ Held goals
        ((outer.trees ++ [.node field kind frame.trees]) :: frames.map Frame.trees) := by
      have held := sound.held
      rw [same, opened] at held
      refine held.leave fun tree listed => ?_
      obtain ⟨piece, among, rfl⟩ := List.mem_map.mp (List.mem_reverse.mp listed)
      exact kept.isShaped piece (List.mem_append_left _ among)
    constructor
    · refine Point.IsSound.resumed ⟨?_, ?_, kept.of_append.attach shaped before around⟩
      · exact List.cons_ne_nil _ _
      · rw [trees_attach]
        exact held
    · rw [source, source, resumed, treesOf_attach, opened, treesOf_cons frame, Tree.sources_append,
        Tree.sources_append, Tree.sources, Tree.sources, Tree.source, String.append_empty]
  · cases left

theorem adopt (sound : machine.IsSound) (same : machine.goals = .adopt :: goals)
    (adopted : { machine with goals := goals }.adopt = some next) :
    next.IsSound ∧ next.source = machine.source := by
  rw [Machine.adopt] at adopted
  split at adopted
  · rename_i piece pieces outer opened
    have opened : machine.frames = (piece :: pieces) :: outer := opened
    have unchanged : ([piece] :: pieces :: outer).flatten = machine.frames.flatten := by
      rw [opened]
      rfl
    cases adopted
    -- The pieces stay as they are; only the phrases that they are parts of change.
    constructor
    · refine ⟨nofun, ?_, ?_, sound.checkpoint, ?_⟩
      · have held := sound.held
        rw [same, opened] at held
        exact held.adopt [piece.tree] (Frame.trees pieces)
      · exact unchanged ▸ sound.kept
      · rw [sound.same, treesOf, treesOf, unchanged]
    · rw [source, source, treesOf, treesOf, unchanged]
  · cases adopted

theorem move (sound : machine.IsSound) (regular : token.IsRegular)
    (moved : machine.move? token rest = some (next, left)) :
    next.IsSound ∧ left.IsRegular ∧ next.source ++ left.source = machine.source ++ token.source := by
  rw [Machine.move?] at moved
  split at moved
  · rename_i rule goals same
    obtain ⟨answer, expands, answered⟩ := Option.map_eq_some_iff.mp moved
    cases answered
    have held := sound.held
    rw [same] at held
    exact ⟨⟨sound.opened, held.answer expands, sound.kept, sound.checkpoint, sound.same⟩, regular,
      rfl⟩
  · rename_i goals same
    cases moved
    refine ⟨sound.enter regular same, ⟨List.forall_mem_nil _, regular.invented⟩, ?_⟩
    have spelled := source_add machine token.extras
    rw [Token.source_eq token, ← String.append_assoc, ← spelled, Token.source_eq]
    simp only [Tree.sources, String.empty_append]
    rfl
  · rename_i same
    obtain ⟨reached, left, answered⟩ := Option.map_eq_some_iff.mp moved
    cases answered
    obtain ⟨sound', unchanged⟩ := sound.leave same left
    exact ⟨sound', regular, by rw [unchanged]⟩
  · rename_i same
    obtain ⟨reached, adopted, answered⟩ := Option.map_eq_some_iff.mp moved
    cases answered
    obtain ⟨sound', unchanged⟩ := sound.adopt same adopted
    exact ⟨sound', regular, by rw [unchanged]⟩
  · rename_i same
    cases moved
    exact sound.pause regular same
  · cases moved

/-- Reading a token keeps the machine sound and the source whole; so does getting stuck on it. -/
theorem consume (moves : Nat) (rest : Ahead) (sound : machine.IsSound) (regular : token.IsRegular) :
    match machine.consume moves token rest with
    | .ok next => next.IsSound ∧ next.source = machine.source ++ token.source
    | .error (stuck, left) =>
        stuck.IsSound ∧ left.IsRegular ∧ stuck.source ++ left.source = machine.source ++ token.source
    := by
  fun_induction Machine.consume moves machine token rest with
  | case1 moves machine token terminal field goals same accepts =>
      exact sound.shift regular same accepts
  | case2 | case3 | case5 => exact ⟨sound, regular, rfl⟩
  | case4 machine token moves next left moved other ih =>
      obtain ⟨sound', regular', whole⟩ := sound.move regular moved
      rw [← whole]
      exact ih sound' regular'

end Machine.IsSound

end Lineage.Source
