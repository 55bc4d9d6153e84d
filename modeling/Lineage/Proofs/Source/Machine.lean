import Lineage.Source.Recovery

/-!
# Sources that are read to their end

What a machine makes of the tokens ahead depends on its goals and on the trees of its open phrases,
and not on the points to go back to.  A run that ends well is put together from its end: each
lemma adds one move before it.
-/

namespace Lineage.Source.Machine

variable {goals : List Goal} {phrases : List (List Tree)} {ahead rest : Ahead} {root : Tree}
variable {token : Token} {moves : Nat} {trees outer : List Tree}

/-- Runs on, with so many moves left before the next token has to be read. -/
def runWithin (moves : Nat) (machine : Machine) (count : Nat) : Ahead → Outcome
  | [] => .finished machine
  | token :: rest =>
      match machine.consume moves token rest with
      | .ok next => run next (count + 1) rest
      | .error (stuck, left) => .halted machine stuck token left rest count

/-- A machine that has these goals and these trees in its open phrases, innermost first, reads the
tokens ahead to their end and has the given tree then. -/
def Completes (moves : Nat) (goals : List Goal) (phrases : List (List Tree)) (ahead : Ahead)
    (root : Tree) : Prop :=
  ∀ machine : Machine, machine.goals = goals → machine.frames.map Frame.trees = phrases →
    ∃ final, (∀ count, machine.runWithin moves count ahead = .finished final) ∧ final.root = root

theorem runWithin_moveLimit (machine : Machine) (count : Nat) (ahead : Ahead) :
    machine.runWithin machine.moveLimit count ahead = machine.run count ahead := by
  cases ahead <;> rfl

theorem movesPerGoal_le_moveLimit (machine : Machine) : movesPerGoal ≤ machine.moveLimit :=
  Nat.le_mul_of_pos_right _ (Nat.succ_pos _)

theorem completes_end :
    Completes moves goals phrases [] (.node none .sourceFile phrases.reverse.flatten) := by
  rintro machine - rfl
  refine ⟨machine, fun _ => rfl, ?_⟩
  rw [Machine.root, List.flatMap_def, List.map_reverse]

/-! ## Trees of phrases -/

theorem trees_attach (piece : Piece) (frame : Frame) (frames : List Frame) :
    (attach piece (frame :: frames)).map Frame.trees =
      (frame.trees ++ [piece.tree]) :: frames.map Frame.trees := by
  simp [attach, Frame.trees]

theorem trees_add (machine : Machine) (added : List Tree)
    (opened : machine.frames.map Frame.trees = trees :: phrases) :
    (machine.add added).frames.map Frame.trees = (trees ++ added) :: phrases := by
  induction added generalizing machine trees with
  | nil => rwa [List.append_nil]
  | cons tree added ih =>
      obtain ⟨frame, frames, same, rfl, rfl⟩ := List.map_eq_cons_iff.mp opened
      have grown : (machine.addTree tree).frames.map Frame.trees =
          (frame.trees ++ [tree]) :: frames.map Frame.trees := by
        rw [addTree, same]
        exact trees_attach _ _ _
      rw [add, List.foldl_cons, List.append_cons]
      exact ih _ grown

/-! ## Single moves -/

theorem consume_of_shift {machine : Machine} {terminal : Terminal} {field : Option Field}
    (same : machine.goals = .shift terminal field :: goals) :
    machine.consume moves token rest =
      if terminal.accepts token then .ok (machine.shift goals terminal field token)
      else .error (machine, token) := by
  unfold consume
  simp only [same]

theorem consume_of_move {machine next : Machine} {token' : Token}
    (moved : machine.move? token rest = some (next, token')) :
    machine.consume (moves + 1) token rest = next.consume moves token' rest := by
  conv => lhs; unfold consume
  split
  · rename_i same
    simp only [move?, same, reduceCtorEq] at moved
  · simp only [moved]

theorem runWithin_cons_eq_finished_iff {machine final : Machine} {count : Nat} :
    machine.runWithin moves count (token :: rest) = .finished final ↔
      ∃ next, machine.consume moves token rest = .ok next ∧
        next.run (count + 1) rest = .finished final := by
  rw [runWithin]
  cases machine.consume moves token rest with
  | ok next => simp
  | error stuck => simp

theorem Completes.move {goals' : List Goal} {phrases' : List (List Tree)} {token' : Token}
    (completes : Completes moves goals' phrases' (token' :: rest) root)
    (moved : ∀ machine : Machine, machine.goals = goals →
      machine.frames.map Frame.trees = phrases →
      ∃ next, machine.move? token rest = some (next, token') ∧ next.goals = goals' ∧
        next.frames.map Frame.trees = phrases') :
    Completes (moves + 1) goals phrases (token :: rest) root := by
  rintro machine rfl opened
  obtain ⟨next, moved, goals_eq, phrases_eq⟩ := moved machine rfl opened
  obtain ⟨final, finished, built⟩ := completes next goals_eq phrases_eq
  refine ⟨final, fun count => ?_, built⟩
  obtain ⟨last, read, ended⟩ := runWithin_cons_eq_finished_iff.mp (finished count)
  exact runWithin_cons_eq_finished_iff.mpr ⟨last, (consume_of_move moved).trans read, ended⟩

theorem Completes.rule {rule : Rule} {answer : List Goal}
    (expands : rule.expand (token :: rest) = some answer)
    (completes : Completes moves (answer ++ goals) phrases (token :: rest) root) :
    Completes (moves + 1) (.rule rule :: goals) phrases (token :: rest) root := by
  refine .move completes fun machine goals_eq opened => ?_
  refine ⟨{ machine with goals := answer ++ goals }, ?_, rfl, opened⟩
  simp only [move?, goals_eq, expands, Option.map_some]

theorem Completes.skip {rule : Rule} (expands : rule.expand (token :: rest) = some [])
    (completes : Completes moves goals phrases (token :: rest) root) :
    Completes (moves + 1) (.rule rule :: goals) phrases (token :: rest) root :=
  .rule expands completes

theorem Completes.enter
    (completes : Completes moves goals ([] :: (trees ++ token.extras) :: phrases)
      ({ token with extras := [] } :: rest) root) :
    Completes (moves + 1) (.enter :: goals) (trees :: phrases) (token :: rest) root := by
  refine .move completes fun machine goals_eq opened => ?_
  let adding := machine.add token.extras
  refine ⟨{ adding with goals := goals, frames := [] :: adding.frames }, ?_, rfl, ?_⟩
  · simp only [move?, goals_eq, adding]
  · exact congrArg ([] :: ·) (trees_add machine token.extras opened)

theorem Completes.enter_bare (bare : token.extras = [])
    (completes : Completes moves goals ([] :: trees :: phrases) (token :: rest) root) :
    Completes (moves + 1) (.enter :: goals) (trees :: phrases) (token :: rest) root := by
  refine .enter ?_
  obtain ⟨kind, extras, lead, text⟩ := token
  cases bare
  rwa [List.append_nil]

theorem Completes.leave {kind : NodeKind} {field : Option Field}
    (completes : Completes moves goals ((outer ++ [.node field kind trees]) :: phrases)
      (token :: rest) root) :
    Completes (moves + 1) (.leave kind field :: goals) (trees :: outer :: phrases)
      (token :: rest) root := by
  refine .move completes fun machine goals_eq opened => ?_
  obtain ⟨frame, frames', same, rfl, opened'⟩ := List.map_eq_cons_iff.mp opened
  obtain ⟨around, frames, rfl, rfl, rfl⟩ := List.map_eq_cons_iff.mp opened'
  let piece : Piece := ⟨.node field kind frame.trees, beginning frame machine.checkpoint⟩
  refine ⟨resumed ⟨goals, attach piece (around :: frames)⟩, ?_, rfl, trees_attach _ _ _⟩
  simp only [move?, goals_eq, Machine.leave, same, Option.map_some, piece]

theorem Completes.pause
    (completes : Completes moves goals
      ((trees ++ (token.extras ++ [.leaf none .separator token.lead ""])) :: phrases)
      ({ token with extras := [], lead := "" } :: rest) root) :
    Completes (moves + 1) (.pause :: goals) (trees :: phrases) (token :: rest) root := by
  refine .move completes fun machine goals_eq opened => ?_
  refine ⟨(machine.pause goals token).1, ?_, rfl, trees_add machine _ opened⟩
  simp only [move?, goals_eq, Machine.pause]

/-! ## Moves to spare -/

theorem shifts_or_moves_of_consume {machine next : Machine}
    (consumed : machine.consume moves token rest = .ok next) :
    (∃ terminal field goals, machine.goals = .shift terminal field :: goals) ∨
      ∃ fewer between token', moves = fewer + 1 ∧
        machine.move? token rest = some (between, token') := by
  unfold consume at consumed
  split at consumed
  · exact .inl ⟨_, _, _, ‹_›⟩
  · cases moves with
    | zero => cases consumed
    | succ fewer =>
        cases moved : machine.move? token rest with
        | none =>
            simp only [moved] at consumed
            cases consumed
        | some reached => exact .inr ⟨fewer, reached.1, reached.2, rfl, rfl⟩

theorem consume_le {machine next : Machine} {more : Nat} (le : moves ≤ more)
    (consumed : machine.consume moves token rest = .ok next) :
    machine.consume more token rest = .ok next := by
  induction moves generalizing machine token more with
  | zero =>
      obtain ⟨_, _, _, same⟩ | ⟨_, _, _, none_left, _⟩ := shifts_or_moves_of_consume consumed
      · rw [consume_of_shift same] at consumed ⊢
        exact consumed
      · cases none_left
  | succ moves ih =>
      obtain ⟨_, _, _, same⟩ | ⟨_, _, _, _, moved⟩ := shifts_or_moves_of_consume consumed
      · rw [consume_of_shift same] at consumed ⊢
        exact consumed
      · obtain ⟨more, rfl⟩ : ∃ fewer, more = fewer + 1 := ⟨more - 1, by omega⟩
        rw [consume_of_move moved] at consumed ⊢
        exact ih (Nat.le_of_succ_le_succ le) consumed

theorem Completes.mono {more : Nat} (completes : Completes moves goals phrases ahead root)
    (le : moves ≤ more) : Completes more goals phrases ahead root := by
  intro machine goals_eq opened
  obtain ⟨final, finished, built⟩ := completes machine goals_eq opened
  refine ⟨final, fun count => ?_, built⟩
  cases ahead with
  | nil => exact finished count
  | cons token rest =>
      obtain ⟨next, consumed, ended⟩ := runWithin_cons_eq_finished_iff.mp (finished count)
      exact runWithin_cons_eq_finished_iff.mpr ⟨next, consume_le le consumed, ended⟩

/-! ## Moves that read a token -/

theorem Completes.shift {terminal : Terminal} {field : Option Field}
    (accepts : terminal.accepts token = true)
    (completes : Completes movesPerGoal goals
      ((trees ++ (token.extras ++ [leaf terminal field token])) :: phrases) rest root) :
    Completes moves (.shift terminal field :: goals) (trees :: phrases) (token :: rest) root := by
  intro machine goals_eq opened
  let next := machine.shift goals terminal field token
  have consumed : machine.consume moves token rest = .ok next := by
    rw [consume_of_shift goals_eq, if_pos accepts]
  obtain ⟨final, finished, built⟩ :=
    completes.mono next.movesPerGoal_le_moveLimit next rfl (trees_add machine _ opened)
  refine ⟨final, fun count => ?_, built⟩
  refine runWithin_cons_eq_finished_iff.mpr ⟨next, consumed, ?_⟩
  rw [← runWithin_moveLimit, finished]

theorem Completes.shift_bare {terminal : Terminal} {field : Option Field}
    (bare : token.extras = []) (accepts : terminal.accepts token = true)
    (completes : Completes movesPerGoal goals
      ((trees ++ [leaf terminal field token]) :: phrases) rest root) :
    Completes moves (.shift terminal field :: goals) (trees :: phrases) (token :: rest) root := by
  refine .shift accepts ?_
  rwa [bare, List.nil_append]

/-! ## Whole sources -/

theorem treeOf_eq_of_completes {tokens : List Token}
    (completes : Completes movesPerGoal startGoals [[]] tokens root) : treeOf tokens = root := by
  obtain ⟨final, finished, built⟩ :=
    completes.mono start.movesPerGoal_le_moveLimit start rfl rfl
  have outcome : start.run 0 tokens = .finished final := by
    rw [← runWithin_moveLimit, finished]
  have found : cheapest (wayLimit tokens) [.ofMachine start tokens 0] = some final := by
    obtain ⟨fuel, more⟩ : ∃ fuel, wayLimit tokens = fuel + 1 :=
      Nat.exists_eq_succ_of_ne_zero (by simp [wayLimit, waysPerToken])
    rw [more, cheapest]
    simp only [Way.ofMachine, outcome]
  rw [treeOf, found]
  exact built

end Lineage.Source.Machine
