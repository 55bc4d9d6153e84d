import Lineage.Document.Record
import Lineage.Graph.Basic

/-!
# The data document

A script element that assigns the nodes and the links of a graph to a variable, for a host
page to draw. Each node and each link has a line of its own.

`Data.read?` reads such a document back.
-/

namespace Lineage.Data

/-! ## Writing -/

def nodeKeys : List String := ["id"]

def linkKeys : List String := ["source", "target"]

def nodeLine (node : String) : List Char :=
  Record.line nodeKeys [Text.Quoted.escape node.toList]

def linkLine (link : String × String) : List Char :=
  Record.line linkKeys
    [Text.Quoted.escape link.1.toList, Text.Quoted.escape link.2.toList]

def opening : List (List Char) :=
  ["<script type=\"text/javascript\">", "var the_data = \x7b", "", "    nodes: ["].map
    String.toList

def middle : List (List Char) :=
  ["    ],", "", "    links: ["].map String.toList

def closing : List (List Char) :=
  ["    ],", "", "\x7d;", "</script>"].map String.toList

def lines (graph : Graph) : List (List Char) :=
  opening ++ graph.nodeList.map nodeLine ++ middle ++ graph.links.map linkLine ++ closing

/-- Every line, the last one too, ends with a line feed. -/
def text (graph : Graph) : List Char :=
  (lines graph).flatMap (· ++ ['\n'])

/-! ## Reading -/

def readNodeLine? (line : List Char) : Option String :=
  match Record.read? nodeKeys line with
  | some [name] => some (String.ofList name)
  | _ => none

def readLinkLine? (line : List Char) : Option (String × String) :=
  match Record.read? linkKeys line with
  | some [source, target] => some (String.ofList source, String.ofList target)
  | _ => none

def readLines? (lines : List (List Char)) : Option (List String × List (String × String)) := do
  let rest ← Record.afterLines? opening lines
  let (nodes, rest) := Record.readWhile readNodeLine? rest
  let rest ← Record.afterLines? middle rest
  let (links, rest) := Record.readWhile readLinkLine? rest
  if rest = closing then return (nodes, links) else none

def splitLines? (text : List Char) : Option (List (List Char)) :=
  match (Text.pieces (· == '\n') text).reverse with
  | [] :: lines => some lines.reverse
  | _ => none

def read? (document : String) : Option (List String × List (String × String)) := do
  let lines ← splitLines? document.toList
  readLines? lines

end Lineage.Data

namespace Lineage

def Graph.data (graph : Graph) : String :=
  String.ofList (Data.text graph)

end Lineage
