import Lineage.Text.Label
import Lineage.Text.Json
import Lineage.Text.StringLiteral
import Lineage.Text.Identifier
import Lineage.Graph.History
import Lineage.Normalization
import Lineage.Source.Node
import Lineage.Source.Outline
import Lineage.Source.Reader
import Lineage.Source.Parser
import Lineage.Source.Printer
import Lineage.Run
import Lineage.Document
import Lineage.Document.Script
import Lineage.Scan
import Lineage.Project
import Lineage.Command.Arguments
import Lineage.Command.Execution
import Lineage.Main
import Lineage.Proofs.Pool.Progress
import Lineage.Proofs.Pool.Delivery
import Lineage.Proofs.Graph.Merge
import Lineage.Proofs.Graph.History
import Lineage.Proofs.Graph.Inherit
import Lineage.Proofs.Graph.Algebra
import Lineage.Proofs.Graph.Links
import Lineage.Proofs.Text.Order
import Lineage.Proofs.Text.Quoted
import Lineage.Proofs.Text.Label
import Lineage.Proofs.Text.Segments
import Lineage.Proofs.Text.Json
import Lineage.Proofs.Text.Literals
import Lineage.Proofs.Text.Maps
import Lineage.Proofs.Text.Lines
import Lineage.Proofs.Text.Collapse
import Lineage.Proofs.Text.Infix
import Lineage.Proofs.Text.Replace
import Lineage.Proofs.Document.Record
import Lineage.Proofs.Document.Data
import Lineage.Proofs.Document.Object
import Lineage.Proofs.Document.Page
import Lineage.Proofs.Document.Script
import Lineage.Proofs.Results
import Lineage.Proofs.Run.Order
import Lineage.Proofs.Run.SinglePass
import Lineage.Proofs.Run.Outcome
import Lineage.Proofs.Path
import Lineage.Proofs.Path.Spelling
import Lineage.Proofs.FileTree.Follow
import Lineage.Proofs.Scan.Sources
import Lineage.Proofs.Scan.Files
import Lineage.Proofs.Source.Positions
import Lineage.Proofs.Source.Walk
import Lineage.Proofs.Source.Texts
import Lineage.Proofs.Source.Coverage
import Lineage.Proofs.Source.Parser
import Lineage.Proofs.Source.Pieces
import Lineage.Proofs.Source.Names
import Lineage.Proofs.Source.Printer
import Lineage.Proofs.Source.Printed
import Lineage.Proofs.Source.Layout
import Lineage.Proofs.Source.Lexer
import Lineage.Proofs.Source.Machine
import Lineage.Proofs.Source.Members
import Lineage.Proofs.Source.Types
import Lineage.Proofs.Source.Entries
import Lineage.Proofs.Source.Files
import Lineage.Proofs.Command.Arguments
import Lineage.Proofs.Command.Outcome
import Lineage.Proofs.Command.Threading
import Lineage.Proofs.Command.Output
import Lineage.Proofs.Command.Isolation
import Lineage.Proofs.Except
import Lineage.Proofs.Option
import Lineage.Proofs.Extraction
import Lineage.Proofs.Specialization
import Lineage.Proofs.Strategies
