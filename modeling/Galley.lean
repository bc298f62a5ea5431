import Galley.Compiler.Command
import Galley.Compiler.Execution
import Galley.Dependency.Discovery
import Galley.Dependency.Graph
import Galley.Dependency.Lookup
import Galley.Dependency.Resolution
import Galley.Digest.Sha256
import Galley.Environment
import Galley.Event
import Galley.Failure.Basic
import Galley.Failure.Chain
import Galley.Failure.Report
import Galley.FileSystem.Access
import Galley.FileSystem.Basic
import Galley.FileSystem.Ensure
import Galley.FileSystem.Error
import Galley.FileSystem.Glob
import Galley.FileSystem.Walk
import Galley.Host.Programs
import Galley.Host.Shell.Arithmetic
import Galley.Host.Shell.Date
import Galley.Host.Shell.Reader
import Galley.Host.Shell.Run
import Galley.Host.Shell.Script
import Galley.Host.Shell.Session
import Galley.Host.Shell.Token
import Galley.Host.Shell.Utility
import Galley.Machine
import Galley.Number.Double
import Galley.Number.Layout
import Galley.Number.Shortest
import Galley.Path.Basic
import Galley.Path.Order
import Galley.Path.Protected
import Galley.Proofs.Compiler.Arguments
import Galley.Proofs.Dependency.Closure
import Galley.Proofs.Dependency.Discovery
import Galley.Proofs.Dependency.FirstInsert
import Galley.Proofs.Dependency.IllFormed
import Galley.Proofs.Dependency.ImportKey
import Galley.Proofs.Dependency.Independence
import Galley.Proofs.Dependency.Protection
import Galley.Proofs.Dependency.Redirection
import Galley.Proofs.Dependency.ScratchLimits
import Galley.Proofs.Dependency.ScratchName
import Galley.Proofs.Dependency.Worklist
import Galley.Proofs.Failure.Contexts
import Galley.Proofs.FileSystem.Canonical
import Galley.Proofs.FileSystem.Child
import Galley.Proofs.FileSystem.Denotation
import Galley.Proofs.FileSystem.Ensured
import Galley.Proofs.FileSystem.Entry
import Galley.Proofs.FileSystem.Escaped
import Galley.Proofs.FileSystem.Made
import Galley.Proofs.FileSystem.Parent
import Galley.Proofs.FileSystem.Place
import Galley.Proofs.FileSystem.Removal
import Galley.Proofs.FileSystem.Tree
import Galley.Proofs.FileSystem.Unprotected
import Galley.Proofs.FileSystem.Visited
import Galley.Proofs.FileSystem.Ways
import Galley.Proofs.FileSystem.Without
import Galley.Proofs.Machine.Run
import Galley.Proofs.Number.Token
import Galley.Proofs.Outcome
import Galley.Proofs.Path.Extension
import Galley.Proofs.Path.Location
import Galley.Proofs.Service.Alone
import Galley.Proofs.Service.Artifact
import Galley.Proofs.Service.Cleanup
import Galley.Proofs.Service.CompilerView
import Galley.Proofs.Service.DefaultOutput
import Galley.Proofs.Service.Invocation
import Galley.Proofs.Service.Leftover
import Galley.Proofs.Service.Materialization
import Galley.Proofs.Service.Protection
import Galley.Proofs.Service.Stages
import Galley.Proofs.Service.Update
import Galley.Proofs.Settings.Directories
import Galley.Proofs.Settings.Layers
import Galley.Proofs.Template.CallSite
import Galley.Proofs.Template.Called
import Galley.Proofs.Template.ExprPassage
import Galley.Proofs.Template.FirstDenied
import Galley.Proofs.Template.GateCoverage
import Galley.Proofs.Template.LexemePassage
import Galley.Proofs.Template.MissingVariable
import Galley.Proofs.Template.Nearest
import Galley.Proofs.Template.NodeCalls
import Galley.Proofs.Template.Passage
import Galley.Proofs.Template.PlainText
import Galley.Proofs.Text.CaseFolding
import Galley.Proofs.Text.EditDistance
import Galley.Proofs.Text.Hex
import Galley.Proofs.Text.Span
import Galley.Proofs.Text.Utf8
import Galley.Proofs.Typst.BareNames
import Galley.Proofs.Typst.DataBlock
import Galley.Proofs.Typst.DataImportShape
import Galley.Proofs.Typst.DeclaredNames
import Galley.Proofs.Typst.DirectiveKinds
import Galley.Proofs.Typst.Escape
import Galley.Proofs.Typst.Expansion
import Galley.Proofs.Typst.FieldText
import Galley.Proofs.Typst.ImportShape
import Galley.Proofs.Typst.LeftToRight
import Galley.Proofs.Typst.LineEnds
import Galley.Proofs.Typst.LiteralLayout
import Galley.Proofs.Typst.LiteralReader
import Galley.Proofs.Typst.LiteralRoundTrip
import Galley.Proofs.Typst.Outside
import Galley.Proofs.Typst.Pattern
import Galley.Proofs.Typst.Redirect
import Galley.Proofs.Typst.Shifted
import Galley.Proofs.Workspace.Copies
import Galley.Proofs.Workspace.CopyName
import Galley.Proofs.Workspace.Dropping
import Galley.Proofs.Workspace.Isolation
import Galley.Proofs.Workspace.Opening
import Galley.Proofs.Workspace.Preserving
import Galley.Proofs.Workspace.Session
import Galley.Proofs.Workspace.Sweeping
import Galley.Proofs.Workspace.Writing
import Galley.Service.Basic
import Galley.Service.Compilation
import Galley.Service.Load
import Galley.Settings.Basic
import Galley.Settings.Expansion
import Galley.Settings.Safety
import Galley.Settings.Source
import Galley.Settings.Update
import Galley.Template.Detect
import Galley.Template.Error
import Galley.Template.Expr.Basic
import Galley.Template.Expr.Eval
import Galley.Template.Expr.Lexeme
import Galley.Template.Expr.Limits
import Galley.Template.Expr.Parser
import Galley.Template.Filter
import Galley.Template.Function
import Galley.Template.Gate
import Galley.Template.Listing
import Galley.Template.Node.Basic
import Galley.Template.Node.Output
import Galley.Template.Node.Parser
import Galley.Template.Node.Trim
import Galley.Template.Pointer
import Galley.Template.Printed
import Galley.Template.Render
import Galley.Template.Scope
import Galley.Template.Suggestion
import Galley.Template.Tester
import Galley.Testing.FakeCompiler
import Galley.Testing.Project
import Galley.Text.Alphanumeric
import Galley.Text.Blank
import Galley.Text.Case
import Galley.Text.CaseTable
import Galley.Text.Cluster
import Galley.Text.ClusterTable
import Galley.Text.EditDistance
import Galley.Text.Hex
import Galley.Text.Printable
import Galley.Text.Quoted
import Galley.Text.Ranges
import Galley.Text.Search
import Galley.Text.Utf8
import Galley.Text.Word
import Galley.Toml.Basic
import Galley.Toml.Document
import Galley.Toml.Parser
import Galley.Toml.Scalar
import Galley.Typst.DataImport
import Galley.Typst.Identifier
import Galley.Typst.Import
import Galley.Typst.Literal
import Galley.Value.Basic
import Galley.Value.Compare
import Galley.Value.Printer
import Galley.Value.Reader
import Galley.Workspace.Basic
import Galley.Workspace.Job
import Galley.Workspace.Preservation
import Galley.Workspace.Sweep
