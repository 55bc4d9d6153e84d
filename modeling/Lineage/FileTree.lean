import Lineage.FileError
import Lineage.Path

/-!
# File trees

Directories, files and symbolic links as a value, with the rules by which a path text leads
to a place in the tree.
-/

namespace Lineage

inductive FileTree where
  | file (content : ByteArray)
  | link (target : String)
  | directory (entries : List (String × FileTree))

namespace FileTree

theorem induction {motive : FileTree → Prop} (file : ∀ content, motive (.file content))
    (link : ∀ target, motive (.link target))
    (directory : ∀ entries, (∀ entry ∈ entries, motive entry.2) → motive (.directory entries))
    (tree : FileTree) : motive tree := by
  refine FileTree.rec (motive_2 := fun entries => ∀ entry ∈ entries, motive entry.2)
    (motive_3 := fun entry => motive entry.2) file link directory nofun ?_
    (fun _ _ known => known) tree
  intro entry rest here others other listed
  rcases List.mem_cons.mp listed with rfl | listed
  · exact here
  · exact others other listed

def isDirectory : FileTree → Bool
  | .directory _ => true
  | _ => false

def isFile : FileTree → Bool
  | .file _ => true
  | _ => false

def member? (entries : List (String × FileTree)) (name : String) : Option FileTree :=
  (entries.find? (·.1 = name)).map (·.2)

/-- The node that names lead to through directories alone. No link is followed. -/
def at? (tree : FileTree) : List String → Option FileTree
  | [] => some tree
  | name :: rest =>
      match tree with
      | .directory entries => (member? entries name).bind (·.at? rest)
      | _ => none

/-- A tree as a file system keeps it: the entries of a directory have names, and no two of them
the same one. -/
inductive WellFormed : FileTree → Prop where
  | file (content : ByteArray) : WellFormed (.file content)
  | link (target : String) : WellFormed (.link target)
  | directory {entries : List (String × FileTree)} :
      (entries.map (·.1)).Nodup →
      (∀ entry ∈ entries, Path.IsName entry.1) →
      (∀ entry ∈ entries, WellFormed entry.2) →
      WellFormed (.directory entries)

/-! ## Following a path -/

/-- A place in a tree: the nodes on the way to it with their names, the deepest first. The
empty trail is the tree itself. -/
abbrev Trail := List (String × FileTree)

def Trail.node (tree : FileTree) : Trail → FileTree
  | [] => tree
  | (_, node) :: _ => node

def Trail.names (trail : Trail) : List String :=
  (trail.map (·.1)).reverse

def Trail.Within (tree : FileTree) : Trail → Prop
  | [] => True
  | (name, node) :: above =>
      Within tree above ∧
        ∃ entries, Trail.node tree above = .directory entries ∧
          member? entries name = some node

inductive Place where
  | node (trail : Trail)
  | vacant (trail : Trail) (name : String)

def maxNameLength : Nat := 255

def maxPathLength : Nat := 4095

def maxLinks : Nat := 40

/-- Follows the pieces of a path. A link is replaced by the pieces of its target. -/
def follow (tree : FileTree) (links : Nat) (trail : Trail) :
    List String → Except FileError Place
  | [] => .ok (.node trail)
  | piece :: rest =>
      match trail.node tree with
      | .directory entries =>
          if piece = "" ∨ piece = "." then follow tree links trail rest
          else if piece = ".." then follow tree links trail.tail rest
          else if maxNameLength < piece.utf8ByteSize then .error .nameTooLong
          else
            match member? entries piece with
            | none => if rest.isEmpty then .ok (.vacant trail piece) else .error .notFound
            | some (.link target) =>
                match links with
                | 0 => .error .tooManyLinks
                | links + 1 =>
                    follow tree links (if Path.isAbsolute target then [] else trail)
                      (Path.pieces target ++ rest)
            | some node => follow tree links ((piece, node) :: trail) rest
      | _ => .error .notADirectory
termination_by pieces => (links, pieces.length)

def place? (tree : FileTree) (directory : Trail) (path : String) : Except FileError Place :=
  if path.isEmpty then .error .notFound
  else if maxPathLength < path.utf8ByteSize then .error .nameTooLong
  else
    follow tree maxLinks (if Path.isAbsolute path then [] else directory) (Path.pieces path)

def lookup? (tree : FileTree) (directory : Trail) (path : String) :
    Except FileError FileTree :=
  match tree.place? directory path with
  | .ok (.node trail) => .ok (trail.node tree)
  | .ok (.vacant ..) => .error .notFound
  | .error cause => .error cause

def text? : FileTree → Except FileError String
  | .file content =>
      match String.fromUTF8? content with
      | some text => .ok text
      | none => .error .notText
  | .directory _ => .error .isADirectory
  | .link _ => .error .notFound

/-! ## Writing -/

def setEntry (name : String) (node : FileTree) :
    List (String × FileTree) → List (String × FileTree)
  | [] => [(name, node)]
  | entry :: rest =>
      if entry.1 = name then (name, node) :: rest else entry :: setEntry name node rest

def put (tree : FileTree) (node : FileTree) : List String → FileTree
  | [] => node
  | name :: rest =>
      match tree with
      | .directory entries =>
          let below := (member? entries name).getD (.directory [])
          .directory (setEntry name (below.put node rest) entries)
      | other => other

def namesFile (path : String) : Bool :=
  (Path.pieces path).getLast? ∉ [some "", some ".", some ".."]

/-- Writes a file at a path text. A file that is there is replaced and a free name is taken.
A text that does not end in a name is refused as a directory, once what comes before its end
leads to one. -/
def write? (tree : FileTree) (directory : Trail) (path : String) (content : String) :
    Except FileError FileTree :=
  if namesFile path then
    match tree.place? directory path with
    | .error cause => .error cause
    | .ok (.vacant trail name) =>
        .ok (tree.put (.file content.toUTF8) (trail.names ++ [name]))
    | .ok (.node trail) =>
        match trail.node tree with
        | .directory _ => .error .isADirectory
        | _ => .ok (tree.put (.file content.toUTF8) trail.names)
  else if path.isEmpty then .error .notFound
  else
    let above := ((Path.pieces path).reverse.dropWhile (· = "")).tail.reverse
    match tree.follow maxLinks (if Path.isAbsolute path then [] else directory) above with
    | .error cause => .error cause
    | .ok (.vacant ..) => .error .notFound
    | .ok (.node trail) =>
        if (trail.node tree).isDirectory then .error .isADirectory
        else .error .notADirectory

end FileTree
end Lineage
