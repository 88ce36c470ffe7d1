import JavaUml.Calendar
import JavaUml.CommandLine.Generate
import JavaUml.CommandLine.Options
import JavaUml.CommandLine.Program
import JavaUml.Config.Defaults
import JavaUml.Config.Document
import JavaUml.Config.Load
import JavaUml.Config.Merge
import JavaUml.Config.Placeholder
import JavaUml.Config.Setting
import JavaUml.Decimal.Binary64
import JavaUml.Decimal.FloatText
import JavaUml.Decimal.Number
import JavaUml.Decimal.Shortest
import JavaUml.Diagram.ClassDiagram
import JavaUml.Diagram.ComponentDiagram
import JavaUml.Diagram.Lines
import JavaUml.Diagram.SequenceDiagram
import JavaUml.Extract.Analysis
import JavaUml.Extract.Dependency
import JavaUml.Extract.Records
import JavaUml.Extract.UnitNames
import JavaUml.Files.Path
import JavaUml.Files.Pieces
import JavaUml.Files.Search
import JavaUml.Files.Tree
import JavaUml.Java.CallSite
import JavaUml.Java.Complaint
import JavaUml.Java.Escape
import JavaUml.Java.Grammar.Declarations
import JavaUml.Java.Grammar.Expressions
import JavaUml.Java.Grammar.Goal
import JavaUml.Java.Grammar.Parser
import JavaUml.Java.Grammar.Statements
import JavaUml.Java.Grammar.Types
import JavaUml.Java.Grammar.Unit
import JavaUml.Java.Naming
import JavaUml.Java.SimpleType
import JavaUml.Java.Token
import JavaUml.Java.Tokens
import JavaUml.Java.Tree
import JavaUml.Java.TypeRef
import JavaUml.Java.TypeText
import JavaUml.Java.Word
import JavaUml.Log
import JavaUml.Main
import JavaUml.Model.Catalog
import JavaUml.Model.Component
import JavaUml.Model.Index
import JavaUml.Model.Record
import JavaUml.Model.TypeMap
import JavaUml.Model.Visibility
import JavaUml.Ordered
import JavaUml.Pack.Copies
import JavaUml.Pack.FixedCode
import JavaUml.Pack.Radix64
import JavaUml.Proofs.CommandLine.ExitStatus
import JavaUml.Proofs.Config.Correspondence
import JavaUml.Proofs.Config.Evolution
import JavaUml.Proofs.Config.Expansion
import JavaUml.Proofs.Config.FixedPoint
import JavaUml.Proofs.Config.Holding
import JavaUml.Proofs.Config.Overlay
import JavaUml.Proofs.Config.Ownership
import JavaUml.Proofs.Config.Reordering
import JavaUml.Proofs.Config.Resolution
import JavaUml.Proofs.Config.Settling
import JavaUml.Proofs.Config.Template
import JavaUml.Proofs.Config.TreeDocuments
import JavaUml.Proofs.Config.TreeMerging
import JavaUml.Proofs.Config.TreeRounds
import JavaUml.Proofs.Diagram.ClassBlocks
import JavaUml.Proofs.Diagram.ClassEdges
import JavaUml.Proofs.Diagram.ComponentAliases
import JavaUml.Proofs.Diagram.EdgeAgreement
import JavaUml.Proofs.Diagram.Outline
import JavaUml.Proofs.Diagram.Participants
import JavaUml.Proofs.Diagram.UnitOrder
import JavaUml.Proofs.Extract.Heritage
import JavaUml.Proofs.Extract.PackageCut
import JavaUml.Proofs.Extract.References
import JavaUml.Proofs.Extract.TypeVariables
import JavaUml.Proofs.Extract.UnitCommit
import JavaUml.Proofs.Files.Locations
import JavaUml.Proofs.Files.Walks
import JavaUml.Proofs.Java.AnyText
import JavaUml.Proofs.Java.CallOrder
import JavaUml.Proofs.Java.QualifiedNames
import JavaUml.Proofs.Java.TopLevelCommas
import JavaUml.Proofs.Java.TypeNames
import JavaUml.Proofs.Java.TypePaths
import JavaUml.Proofs.Java.WrittenCalls
import JavaUml.Proofs.Lists
import JavaUml.Proofs.Model.NameScan
import JavaUml.Proofs.Model.PackageEdges
import JavaUml.Proofs.Model.RequiredInterfaces
import JavaUml.Proofs.Pack.CopyReplay
import JavaUml.Proofs.Pack.FixedBlock
import JavaUml.Proofs.Pack.Inflate
import JavaUml.Proofs.Pack.Unpacking
import JavaUml.Proofs.Resolve.BlockScope
import JavaUml.Proofs.Resolve.BreadthFirst
import JavaUml.Proofs.Resolve.ChainedCalls
import JavaUml.Proofs.Resolve.FieldPaths
import JavaUml.Proofs.Resolve.Inheritance
import JavaUml.Proofs.Resolve.NearestMethod
import JavaUml.Proofs.Resolve.TraceOutcome
import JavaUml.Proofs.Text.Splitting
import JavaUml.Proofs.Text.Trimming
import JavaUml.Proofs.Yaml.Keys
import JavaUml.Render.Renderer
import JavaUml.Render.Request
import JavaUml.Resolve.Binding
import JavaUml.Resolve.Hierarchy
import JavaUml.Resolve.Scope
import JavaUml.Resolve.Sequence
import JavaUml.Session.Logging
import JavaUml.Session.World
import JavaUml.Text.Blank
import JavaUml.Text.Category
import JavaUml.Text.Cut
import JavaUml.Text.Numeral
import JavaUml.Text.Printable
import JavaUml.Text.Quoted
import JavaUml.Text.Utf8
import JavaUml.Timing
import JavaUml.Yaml.Cursor
import JavaUml.Yaml.Node
import JavaUml.Yaml.ScalarText
import JavaUml.Yaml.ScalarValue
import JavaUml.Yaml.Tag
import JavaUml.Yaml.Tokens
import JavaUml.Yaml.Value
