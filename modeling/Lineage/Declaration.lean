/-!
# Type declarations

A declaration names a type and lists, in order, the entries of its inheritance clause. An
entry keeps the text as written and the parts that the text is made of.
-/

namespace Lineage

/-! ## Kinds -/

inductive DeclarationKind where
  | «class» | struct | enum | actor | extension | protocol
  deriving DecidableEq, Repr

namespace DeclarationKind

def keyword : DeclarationKind → String
  | .class => "class"
  | .struct => "struct"
  | .enum => "enum"
  | .actor => "actor"
  | .extension => "extension"
  | .protocol => "protocol"

def ofKeyword? : String → Option DeclarationKind
  | "class" => some .class
  | "struct" => some .struct
  | "enum" => some .enum
  | "actor" => some .actor
  | "extension" => some .extension
  | "protocol" => some .protocol
  | _ => none

@[simp] theorem ofKeyword?_keyword (kind : DeclarationKind) :
    ofKeyword? kind.keyword = some kind := by
  cases kind <;> rfl

end DeclarationKind

/-! ## Entries -/

/-- One piece of an entry: a name, a clause of generic arguments with the text of each, or any
other node of the type grammar by its kind. -/
inductive Part where
  | name (text : String)
  | arguments (texts : List String)
  | other (kind : String)
  deriving DecidableEq, Repr

def Part.kind : Part → String
  | .name _ => "type_identifier"
  | .arguments _ => "type_arguments"
  | .other kind => kind

structure Entry where
  text : String
  parts : List Part
  deriving DecidableEq, Repr

def specializedName (base : String) (arguments : List String) : String :=
  base ++ "<" ++ String.intercalate ", " arguments ++ ">"

namespace Entry

def named (name : String) : Entry :=
  ⟨name, [.name name]⟩

def generic (base : String) (arguments : List String) : Entry :=
  ⟨specializedName base arguments, [.name base, .arguments arguments]⟩

end Entry

/-! ## Declarations -/

structure Declaration where
  name : String
  kind : DeclarationKind
  /-- The line on which the declaration starts, counted from one. -/
  line : Nat
  inherited : List Entry
  deriving DecidableEq, Repr

end Lineage
