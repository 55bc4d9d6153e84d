import Lineage.Document.Record
import Lineage.Graph.Basic
import Lineage.Text.Label
import Lineage.Text.Replace

/-!
# The network page

A page of its own that shows the graph with a network library. The page is a template with
marks for the nodes, the edges and the distance between nodes. The marks are filled one after
the other, so a later filling also reaches into the names that an earlier one brought in.
-/

namespace Lineage.Page

/-! ## The template -/

def nodesMark : List Char := "__NODES__".toList

def edgesMark : List Char := "__EDGES__".toList

def distanceMark : List Char := "__NODE_DISTANCE__".toList

def templateLines : List String :=
  ["<html>",
   "<head>",
   "    <script type=\"text/javascript\" src=\"https://unpkg.com/vis-network/standalone/umd/vis-network.min.js\"></script>",
   "",
   "    <style type=\"text/css\">",
   "        #mynetwork \x7b",
   "            width: 100%;",
   "            height: 100%;",
   "            border: 1px solid lightgray;",
   "        \x7d",
   "    </style>",
   "</head>",
   "<body>",
   "<div id=\"mynetwork\"></div>",
   "",
   "<script type=\"text/javascript\">",
   "    var nodes = new vis.DataSet([",
   "__NODES__",
   "    ]);",
   "",
   "    var edges = new vis.DataSet([",
   "__EDGES__",
   "    ]);",
   "",
   "    var container = document.getElementById('mynetwork');",
   "",
   "    var data = \x7b",
   "        nodes: nodes,",
   "        edges: edges",
   "    \x7d;",
   "",
   "    var options = \x7b",
   "        interaction: \x7b",
   "            dragNodes: true,",
   "            dragView: true,",
   "            zoomView: true,",
   "        \x7d,",
   "        physics: \x7b",
   "            solver: \"repulsion\",",
   "            repulsion: \x7b",
   "                nodeDistance: __NODE_DISTANCE__,",
   "            \x7d,",
   "        \x7d,",
   "        edges: \x7b",
   "            smooth: true,",
   "            arrows: \x7b from: true \x7d,",
   "            length: __NODE_DISTANCE__,",
   "        \x7d,",
   "    \x7d;",
   "",
   "    var network = new vis.Network(container, data, options);",
   "</script>",
   "</body>",
   "</html>",
   ""]

def template : List Char :=
  Text.joinWith ['\n'] (templateLines.map String.toList)

/-! ## The data -/

def nodeKeys : List String := ["id", "label"]

def edgeKeys : List String := ["from", "to"]

def nodeLine (node : String) : List Char :=
  Record.line nodeKeys [Text.Quoted.escape node.toList, Text.label node.toList]

def edgeLine (link : String × String) : List Char :=
  Record.line edgeKeys
    [Text.Quoted.escape link.1.toList, Text.Quoted.escape link.2.toList]

def nodesText (graph : Graph) : List Char :=
  Text.joinWith ['\n'] (graph.nodeList.map nodeLine)

def edgesText (graph : Graph) : List Char :=
  Text.joinWith ['\n'] (graph.links.map edgeLine)

/-! ## The page -/

def defaultDistance : Nat := 400

def fill (graph : Graph) (distance : Nat) : List Char :=
  let page := Text.replace nodesMark (nodesText graph) template
  let page := Text.replace edgesMark (edgesText graph) page
  Text.replace distanceMark (toString distance).toList page

/-- The page with all its marks filled at once, so that no filling reaches into another. -/
def filled (graph : Graph) (distance : Nat) : List Char :=
  Text.substitute
    [(nodesMark, nodesText graph), (edgesMark, edgesText graph),
     (distanceMark, (toString distance).toList)]
    template

/-! ## Reading -/

def readNodeLine? (line : List Char) : Option String :=
  match Record.read? nodeKeys line with
  | some [name, _] => some (String.ofList name)
  | _ => none

def readEdgeLine? (line : List Char) : Option (String × String) :=
  match Record.read? edgeKeys line with
  | some [source, target] => some (String.ofList source, String.ofList target)
  | _ => none

/-- The records of an array. Where there are none, one blank line stands in their place. -/
def readArray {α : Type} (line? : List Char → Option α) :
    List (List Char) → List α × List (List Char)
  | [] :: rest => ([], rest)
  | lines => Record.readWhile line? lines

def beforeNodes : List (List Char) :=
  (templateLines.take 17).map String.toList

def beforeEdges : List (List Char) :=
  ((templateLines.drop 18).take 3).map String.toList

def afterEdges : List (List Char) :=
  (templateLines.drop 22).map String.toList

def readLines? (lines : List (List Char)) : Option (List String × List (String × String)) := do
  let rest ← Record.afterLines? beforeNodes lines
  let (nodes, rest) := readArray readNodeLine? rest
  let rest ← Record.afterLines? beforeEdges rest
  let (edges, rest) := readArray readEdgeLine? rest
  let _ ← Record.afterLines? (afterEdges.take 1) rest
  return (nodes, edges)

def read? (page : List Char) : Option (List String × List (String × String)) :=
  readLines? (Text.pieces (· == '\n') page)

end Lineage.Page

namespace Lineage

def Graph.page (graph : Graph) (distance : Nat) : String :=
  String.ofList (Page.fill graph distance)

end Lineage
