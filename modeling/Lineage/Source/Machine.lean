import Lineage.Source.Grammar.Expressions

/-!
# The parsing machine

A machine holds the goals that are still to be met and the phrases that are open. It reads a
token by answering rules until its first goal is to shift that token. Every tree that is part
of an open phrase remembers the point at which it was read, so that a machine can be set back
to any point between two such trees.
-/

namespace Lineage.Source

/-! ## Open phrases -/

mutual

structure Piece where
  tree : Tree
  before : Point

/-- What is still to be met and what is open, innermost phrase first. The parts of a phrase stand
newest first. -/
structure Point where
  goals : List Goal
  frames : List (List Piece)

end

abbrev Frame := List Piece

def Frame.trees (frame : Frame) : List Tree :=
  (frame.map Piece.tree).reverse

/-! ## Machines -/

structure Machine where
  goals : List Goal
  frames : List Frame
  /-- The point after the latest tree. Rules may have been answered and phrases begun since. -/
  checkpoint : Point

namespace Machine

def startGoals : List Goal :=
  [(StatementRule.items .file).goal, .shift .endOfFile none]

def resumed (point : Point) : Machine := ⟨point.goals, point.frames, point⟩

def start : Machine := .resumed ⟨startGoals, [[]]⟩

def attach (piece : Piece) : List Frame → List Frame
  | [] => [[piece]]
  | frame :: outer => (piece :: frame) :: outer

def addTree (machine : Machine) (tree : Tree) : Machine :=
  let piece : Piece := ⟨tree, machine.checkpoint⟩
  { machine with
    frames := attach piece machine.frames
    checkpoint := { machine.checkpoint with frames := attach piece machine.checkpoint.frames } }

def add (machine : Machine) (trees : List Tree) : Machine :=
  trees.foldl addTree machine

def beginning (frame : Frame) (checkpoint : Point) : Point :=
  match frame.getLast? with
  | some piece => piece.before
  | none => checkpoint

def leave (machine : Machine) (kind : NodeKind) (field : Option Field) : Option Machine :=
  match machine.frames with
  | frame :: outer :: rest =>
      let piece : Piece := ⟨.node field kind frame.trees, beginning frame machine.checkpoint⟩
      some (.resumed ⟨machine.goals, attach piece (outer :: rest)⟩)
  | _ => none

def adopt (machine : Machine) : Option Machine :=
  match machine.frames with
  | (piece :: pieces) :: outer => some { machine with frames := [piece] :: pieces :: outer }
  | _ => none

/-! ## Reading a token -/

def leaf (terminal : Terminal) (field : Option Field) (token : Token) : Tree :=
  match token.kind with
  | .invented expected =>
      if expected = "" then .leaf field .name "" "" else .missing expected
  | _ => .leaf field terminal.leafKind token.lead token.text

def shift (machine : Machine) (goals : List Goal) (terminal : Terminal) (field : Option Field)
    (token : Token) : Machine :=
  .resumed ⟨goals, (machine.add (token.extras ++ [leaf terminal field token])).frames⟩

def pause (machine : Machine) (goals : List Goal) (token : Token) : Machine × Token :=
  let separator : Tree := .leaf none .separator token.lead ""
  (.resumed ⟨goals, (machine.add (token.extras ++ [separator])).frames⟩,
    { token with extras := [], lead := "" })

/-- One move that reads no token. It may take comments and white space off the next one. -/
def move? (machine : Machine) (token : Token) (rest : Ahead) : Option (Machine × Token) :=
  match machine.goals with
  | .rule rule :: goals =>
      (rule.expand (token :: rest)).map fun answer =>
        ({ machine with goals := answer ++ goals }, token)
  | .enter :: goals =>
      let machine := machine.add token.extras
      some ({ machine with goals := goals, frames := [] :: machine.frames },
        { token with extras := [] })
  | .leave kind field :: goals =>
      ({ machine with goals := goals }.leave kind field).map (·, token)
  | .adopt :: goals => ({ machine with goals := goals }.adopt).map (·, token)
  | .pause :: goals => some (machine.pause goals token)
  | _ => none

/-- Reads a token after at most `moves` moves. A machine that cannot is given back, with what
is left of the token, as it was when it got stuck. -/
def consume (moves : Nat) (machine : Machine) (token : Token) (rest : Ahead) :
    Except (Machine × Token) Machine :=
  match machine.goals with
  | .shift terminal field :: goals =>
      if terminal.accepts token then .ok (machine.shift goals terminal field token)
      else .error (machine, token)
  | _ =>
      match moves with
      | 0 => .error (machine, token)
      | moves + 1 =>
          match machine.move? token rest with
          | some (machine, token) => consume moves machine token rest
          | none => .error (machine, token)

def movesPerGoal : Nat := 256

/-- How many moves a machine may make before it reads the next token. One that has not read it by
then is taken to be stuck. -/
def moveLimit (machine : Machine) : Nat :=
  movesPerGoal * (machine.goals.length + 1)

def consume? (machine : Machine) (token : Token) (rest : Ahead) : Option Machine :=
  (machine.consume machine.moveLimit token rest).toOption

/-! ## Whole sources -/

inductive Outcome where
  | finished (machine : Machine)
  /-- The next token cannot be read. `checkpoint` is the machine after the token before, and
  `stuck` the one that could not go on, which `left` the token so; `count` tokens were read. -/
  | halted (checkpoint stuck : Machine) (token left : Token) (rest : Ahead) (count : Nat)

def run (machine : Machine) (count : Nat) : Ahead → Outcome
  | [] => .finished machine
  | token :: rest =>
      match machine.consume machine.moveLimit token rest with
      | .ok next => run next (count + 1) rest
      | .error (stuck, left) => .halted machine stuck token left rest count

def root (machine : Machine) : Tree :=
  .node none .sourceFile (machine.frames.reverse.flatMap Frame.trees)

end Machine

end Lineage.Source
