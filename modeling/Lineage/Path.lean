/-!
# Paths

A path is a text whose pieces are separated by solidi. Two paths are compared by their
components, in which repeated solidi and inner full stops do not show.
-/

namespace Lineage.Path

/-! ## Components -/

inductive Component where
  | root
  | current
  | parent
  | name (text : String)
  deriving DecidableEq, Repr

def Component.text : Component → String
  | .root => "/"
  | .current => "."
  | .parent => ".."
  | .name text => text

def IsName (text : String) : Prop :=
  text ∉ ["", ".", ".."] ∧ '/' ∉ text.toList

instance : DecidablePred IsName := fun text =>
  inferInstanceAs (Decidable (text ∉ ["", ".", ".."] ∧ '/' ∉ text.toList))

def pieces (path : String) : List String :=
  (split path.toList).map String.ofList
where
  split : List Char → List (List Char)
    | [] => [[]]
    | c :: rest =>
        if c = '/' then [] :: split rest
        else
          match split rest with
          | [] => [[c]]
          | piece :: others => (c :: piece) :: others

def isAbsolute (path : String) : Bool :=
  path.toList.head? == some '/'

def innerComponent? : String → Option Component
  | "" => none
  | "." => none
  | ".." => some .parent
  | name => some (.name name)

def components (path : String) : List Component :=
  if isAbsolute path then .root :: (pieces path).filterMap innerComponent?
  else
    match pieces path with
    | "." :: rest => .current :: rest.filterMap innerComponent?
    | pieces => pieces.filterMap innerComponent?

/-! ## Names relative to a root -/

def below? : List Component → List Component → Option (List Component)
  | [], path => some path
  | first :: root, second :: path => if first = second then below? root path else none
  | _ :: _, [] => none

/-- The name of a path below a root: its components after those of the root, or all of them
where the path does not lie below. -/
def relativeName (root path : String) : String :=
  let path := components path
  String.intercalate "/" (((below? (components root) path).getD path).map Component.text)

/-! ## Joining and extensions -/

/-- The path of an entry of a directory. A path that ends in a solidus gets no second one. -/
def join (directory name : String) : String :=
  if directory.isEmpty || directory.toList.getLast? == some '/' then directory ++ name
  else directory ++ "/" ++ name

def joinAll (directory : String) (names : List String) : String :=
  names.foldl join directory

@[simp] theorem joinAll_nil (directory : String) : joinAll directory [] = directory := rfl

@[simp] theorem joinAll_cons (directory name : String) (names : List String) :
    joinAll directory (name :: names) = joinAll (join directory name) names := rfl

/-- What follows the last full stop of a file name. A name whose only full stop comes first
has no extension. -/
def extension? (name : String) : Option String :=
  let reversed := name.toList.reverse
  let ending := reversed.takeWhile (· != '.')
  match reversed.drop ending.length with
  | [] => none
  | [_] => none
  | _ => if name = ".." then none else some (String.ofList ending.reverse)

end Lineage.Path
