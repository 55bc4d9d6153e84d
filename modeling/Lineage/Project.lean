import Lineage.Run
import Lineage.Scan
import Lineage.Source.Parser

/-!
# Projects

The sources below a root, read and extracted one by one.
-/

namespace Lineage

abbrev Lookup := String → Except FileError FileTree

abbrev Parser := String → Except ParseError (List Declaration)

def Lookup.declarations? (lookup : Lookup) (parse : Parser) (path : String) :
    Except ParseError (List Declaration) :=
  match lookup path >>= FileTree.text? with
  | .ok source => parse source
  | .error cause => .error (.file cause)

def Lookup.extract (lookup : Lookup) (strategy : Strategy) (path : String)
    (parse : Parser := Source.parse) : FileResult :=
  extractFrom strategy (lookup.declarations? parse path)

end Lineage
