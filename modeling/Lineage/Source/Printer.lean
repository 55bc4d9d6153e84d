import Lineage.Declaration

/-!
# Printing declarations

A plain layout for nested declarations: each takes a line for its head, the lines of the
declarations in it, and a line for its closing brace. Blank lines and comments may stand before
any of these lines. `isPrintable` says for which declarations the layout is meant, and `expected`
lists what a reader of the printed text has to find.
-/

namespace Lineage.Source.Printer

/-! ## Supertypes -/

inductive Supertype where
  | apply (name : String) (arguments : List Supertype)

namespace Supertype

theorem induction {motive : Supertype → Prop}
    (apply : ∀ name arguments, (∀ argument ∈ arguments, motive argument) →
      motive (.apply name arguments)) (type : Supertype) : motive type := by
  refine Supertype.rec (motive_2 := fun types => ∀ type ∈ types, motive type) apply nofun ?_ type
  intro first rest here others type listed
  rcases List.mem_cons.mp listed with rfl | listed
  · exact here
  · exact others type listed

mutual

def print : Supertype → String
  | apply name [] => name
  | apply name (first :: rest) => specializedName name (print first :: printAll rest)

def printAll : List Supertype → List String
  | [] => []
  | first :: rest => print first :: printAll rest

end

def entry : Supertype → Entry
  | apply name [] => .named name
  | apply name arguments => .generic name (printAll arguments)

/-- Names that the language gives a meaning of their own where a type stands. -/
def reservedNames : List String := ["Any", "Self", "Type", "Protocol"]

def isTypeName (name : String) : Bool :=
  match name.toList with
  | [] => false
  | first :: rest =>
      first.isUpper && rest.all (fun c => c.isAlphanum || c == '_') && !reservedNames.contains name

mutual

def isPrintable : Supertype → Bool
  | apply name arguments => isTypeName name && arePrintable arguments

def arePrintable : List Supertype → Bool
  | [] => true
  | first :: rest => isPrintable first && arePrintable rest

end

end Supertype

/-! ## Declarations -/

/-- A line without declarations. Blanks may stand on it, also before a comment. -/
inductive Filler where
  | blank (white : String)
  | comment (white text : String)

namespace Filler

def print : Filler → String
  | blank white => white ++ "\n"
  | comment white text => white ++ "//" ++ text ++ "\n"

def areBlanks (white : String) : Bool :=
  white.toList.all fun c => c == ' ' || c == '\t'

/-- A comment ends at a line feed, and a null character is part of none. -/
def isCommentPart (c : Char) : Bool :=
  c != '\n' && c != '\x00'

def isPrintable : Filler → Bool
  | blank white => areBlanks white
  | comment white text => areBlanks white && text.toList.all isCommentPart

end Filler

/-- A declaration with its supertypes and members. `above` are the lines before its head, and
`below` those before its closing brace. -/
inductive Member where
  | declare (above : List Filler) (kind : DeclarationKind) (name : String)
      (supertypes : List Supertype) (members : List Member) (below : List Filler)

def printFillers (fillers : List Filler) : String :=
  String.join (fillers.map Filler.print)

def inheritanceClause : List Supertype → String
  | [] => ""
  | supertypes => ": " ++ String.intercalate ", " (Supertype.printAll supertypes)

namespace Member

theorem induction {motive : Member → Prop}
    (declare : ∀ above kind name supertypes members below,
      (∀ member ∈ members, motive member) →
      motive (.declare above kind name supertypes members below)) (member : Member) :
    motive member := by
  refine Member.rec (motive_2 := fun members => ∀ member ∈ members, motive member)
    declare nofun ?_ member
  intro first rest here others member listed
  rcases List.mem_cons.mp listed with rfl | listed
  · exact here
  · exact others member listed

def above : Member → List Filler
  | declare above _ _ _ _ _ => above

mutual

def print : Member → String
  | declare above kind name supertypes members below =>
      printFillers above ++
        kind.keyword ++ " " ++ name ++ inheritanceClause supertypes ++ " \x7b\n" ++
        printAll members ++ printFillers below ++ "\x7d\n"

def printAll : List Member → String
  | [] => ""
  | member :: rest => print member ++ printAll rest

end

mutual

def height : Member → Nat
  | declare above _ _ _ members below => above.length + heights members + below.length + 2

def heights : List Member → Nat
  | [] => 0
  | member :: rest => height member + heights rest

end

mutual

/-- The declarations in a member whose print starts on the given line: those within it before
itself. -/
def expected (line : Nat) : Member → List Declaration
  | declare above kind name supertypes members _ =>
      expectedAll (line + above.length + 1) members ++
        [⟨name, kind, line + above.length, supertypes.map Supertype.entry⟩]

def expectedAll (line : Nat) : List Member → List Declaration
  | [] => []
  | member :: rest => expected line member ++ expectedAll (line + height member) rest

end

/-- Whether a declaration of a kind can stand where it does and hold the members. -/
def isPlaced (isInner : Bool) (members : List Member) : DeclarationKind → Bool
  | .class | .struct | .enum | .actor => true
  | .extension => !isInner
  | .protocol => !isInner && members.isEmpty

mutual

def isPrintable (isInner : Bool) : Member → Bool
  | declare above kind name supertypes members below =>
      isPlaced isInner members kind && Supertype.isTypeName name &&
        Supertype.arePrintable supertypes && arePrintable true members &&
        above.all Filler.isPrintable && below.all Filler.isPrintable

def arePrintable (isInner : Bool) : List Member → Bool
  | [] => true
  | member :: rest => isPrintable isInner member && arePrintable isInner rest

end

end Member

def printFile (members : List Member) (below : List Filler) : String :=
  Member.printAll members ++ printFillers below

end Lineage.Source.Printer
