import Lineage.Source.Machine

/-!
# Recovery from errors

Where a token cannot be read there are two remedies. A missing token may be supplied; or trees
that were read and tokens that follow are given up to an error, which then stands before the
token at which reading goes on. Each remedy has a price, and the cheapest way through the whole
source is taken.
-/

namespace Lineage.Source

/-! ## Prices -/

namespace Price

def remedy : Nat := 500

def supplied : Nat := 110

def givenUp : Nat := 100

/-- A line break that is given up; a byte costs one. -/
def line : Nat := 30

/-- How much worse than another one a way may be before it is abandoned. -/
def patience : Nat := 1600

def ofError (trees : List Tree) : Nat :=
  let text := Tree.texts trees
  remedy + givenUp * Tree.weights trees + text.utf8ByteSize +
    line * text.toList.count '\n'

end Price

/-! ## Points to go back to -/

structure Cut where
  machine : Machine
  lost : List Tree
  next : Token

/-- The points before the given pieces, which stand newest first. -/
def cutsFrom (next : Token) : List Piece → List Tree → List Cut
  | [], _ => []
  | piece :: older, lost =>
      let lost := piece.tree :: lost
      ⟨.resumed piece.before, lost, next⟩ :: cutsFrom next older lost

def cuts (next : Token) (machine : Machine) : List Cut :=
  cutsFrom next machine.frames.flatten []

/-- How many points to go back to are tried where reading halts. No point is tried that gives up
more, so a way that would have to is not found. -/
def cutLimit : Nat := 16

/-! ## Remedies -/

/-- A way through the source: the tokens at which it goes on after a remedy, what all remedies
cost so far, and how far it gets. -/
structure Way where
  rest : Ahead
  cost : Nat
  outcome : Machine.Outcome

namespace Way

def ofMachine (machine : Machine) (rest : Ahead) (cost : Nat) : Way :=
  ⟨rest, cost, machine.run 0 rest⟩

def unread (way : Way) : Nat :=
  match way.outcome with
  | .finished _ => 0
  | .halted _ _ _ _ rest _ => rest.length + 1

def passes (way : Way) (remaining : Nat) : Bool :=
  remaining ≤ way.rest.length && way.unread < remaining

end Way

def keywords : List String :=
  Ahead.declarationWords ++ Ahead.modifierWords ++ StatementRule.statementWords ++
    ["else", "catch", "default", "where", "in", "as", "is", "try", "await", "throws",
      "rethrows", "self", "super", "true", "false", "nil", "fallthrough", "some", "any"]

def softKeywords : List String :=
  ["actor", "async", "each", "lazy", "repeat", "package", "borrowing", "consuming", "self",
    "super", "true", "false", "nil"]

def resumesAfterSkip (token : Token) : Bool :=
  !token.isWord || keywords.contains token.text

/-- Whether a machine that has just read a token took it for what it is: after an error a
keyword is no name. -/
def takesKeyword (token : Token) (machine : Machine) : Bool :=
  !keywords.contains token.text || softKeywords.contains token.text ||
    match machine.frames with
    | (piece :: _) :: _ => !piece.tree.isName
    | _ => true

def allowsSupply (token : Token) : Bool :=
  token.kind != .unknown && !token.reads "."

def skippedLeaves (token : Token) : List Tree :=
  match token.kind, token.text.toList with
  | .string, first :: second :: rest =>
      let inner := (second :: rest).dropLast
      .leaf none .token token.lead (String.ofList [first]) ::
        (if inner.isEmpty then [] else [.leaf none .token "" (String.ofList inner)]) ++
        [.leaf none .token "" (String.ofList (second :: rest).getLast?.toList)]
  | _, _ => [.leaf none .token token.lead token.text]

def skippedTrees (tokens : List Token) : List Tree :=
  tokens.flatMap fun token => token.extras ++ skippedLeaves token

/-- Puts the trees that were given up, as one error, before a token. Comments before the first
of them stay out of the error. -/
def precededBy (trees : List Tree) (token : Token) : Token :=
  let error := trees.dropWhile Tree.isExtra
  { token with
    extras := trees.takeWhile Tree.isExtra ++ [.node none .error error] ++ token.extras }

def endsPhrase : List Goal → Bool
  | .leave .. :: _ => true
  | _ => false

/-- The token that a stuck machine expects: the punctuation that ends a phrase, or a name. -/
def expected (goals : List Goal) : Option Token :=
  match goals with
  | .shift (.text text) _ :: goals => if endsPhrase goals then some (.invent text) else none
  | .shift .name _ :: _ => some (.invent "")
  | .rule _ :: _ => some (.invent "")
  | _ => none

def supply (cost : Nat) (stuck : Machine) (left : Token) (rest : Ahead) : List Way :=
  match expected stuck.goals with
  | none => []
  | some invented =>
      if allowsSupply left then
        match stuck.consume? invented (left :: rest) with
        | none => []
        | some machine =>
            match machine.consume? left rest with
            | none => []
            | some _ => [.ofMachine machine (left :: rest) (cost + Price.remedy + Price.supplied)]
      else []

def resumeAt (cost : Nat) (points : List Cut) (skipped : List Token) (token : Token)
    (rest : Ahead) : List Way :=
  (points.findSome? fun point =>
    let (before, token) :=
      match skipped with
      | [] => ([], point.next)
      | _ :: more => (point.next :: more, token)
    let trees := point.lost ++ skippedTrees before
    let token := precededBy trees token
    if Tree.weights trees > 0 then
      ((point.machine.consume? token rest).filter (takesKeyword token)).map fun _ =>
        Way.ofMachine point.machine (token :: rest) (cost + Price.ofError trees)
    else none).toList

/-- The ways on at the given tokens and at later ones, beside the ways `found` already. Tokens
are skipped as long as no way that passes them is cheaper than skipping. -/
def resume (cost : Nat) (points : List Cut) (found : List Way) (skipped : List Token) :
    Ahead → List Way
  | [] => found
  | token :: rest =>
      let ways :=
        if skipped.isEmpty || resumesAfterSkip token then
          found ++ resumeAt cost points skipped token rest
        else found
      let skipped := skipped ++ [token]
      let price := cost + Price.ofError (skippedTrees skipped)
      if ways.any fun way => way.cost < price && way.passes (rest.length + 1) then ways
      else resume cost points ways skipped rest

def remedies (cost : Nat) (checkpoint stuck : Machine) (token left : Token) (rest : Ahead) :
    List Way :=
  let points := ⟨checkpoint, [], token⟩ :: (cuts left stuck).take cutLimit
  resume cost points (supply cost stuck left rest) [] (token :: rest)

def surrender (cost : Nat) (stuck : Machine) (left : Token) (rest : Ahead) : List Way :=
  match (cuts left stuck).getLast?, (left :: rest).getLast? with
  | some point, some last => resumeAt cost [point] (left :: rest).dropLast last []
  | _, _ => []

/-! ## The cheapest way -/

def insert (way : Way) : List Way → List Way
  | [] => [way]
  | first :: rest =>
      if way.cost ≤ first.cost then way :: first :: rest else first :: insert way rest

/-- Whether a way is too expensive beside one that read `count` tokens at the price of `cost` and
left `remaining` unread. -/
def isHopeless (cost count remaining : Nat) (way : Way) : Bool :=
  remaining ≤ way.rest.length && (way.cost - cost) * (count + 1) > Price.patience

def isMerged (way other : Way) : Bool :=
  match way.outcome, other.outcome with
  | .halted _ first _ _ _ _, .halted _ second _ _ _ _ =>
      way.cost == other.cost && way.unread == other.unread && first.goals == second.goals
  | _, _ => false

/-- Follows the ways from the cheapest on until one reaches the end. A way that halts where a
hardly dearer one passes is given up. -/
def cheapest : Nat → List Way → Option Machine
  | 0, _ => none
  | _, [] => none
  | fuel + 1, way :: others =>
      match way.outcome with
      | .finished machine => some machine
      | .halted checkpoint stuck token left rest count =>
          let remaining := rest.length + 1
          let others := others.filter fun other =>
            !isMerged way other && !isHopeless way.cost count remaining other
          let further :=
            if others.any fun other =>
                other.cost < way.cost + Price.remedy && other.passes remaining then []
            else
              match remedies way.cost checkpoint stuck token left rest with
              | [] => surrender way.cost stuck left rest
              | ways => ways
          cheapest fuel (further.foldl (fun ways way => insert way ways) others)

def waysPerToken : Nat := 128

/-- How many ways are followed through a source. If none of them has led to its end by then, the
source is given up. -/
def wayLimit (tokens : List Token) : Nat :=
  waysPerToken * (tokens.length + 1)

/-- The tree of a source. If no way leads to its end, all of it is one error. -/
def treeOf (tokens : List Token) : Tree :=
  match cheapest (wayLimit tokens) [.ofMachine .start tokens 0] with
  | some machine => machine.root
  | none => .node none .sourceFile [.node none .error (skippedTrees tokens)]

end Lineage.Source
