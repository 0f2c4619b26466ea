import PatchLint.Batch
import PatchLint.Calendar
import PatchLint.Checker
import PatchLint.Command.Arguments
import PatchLint.Command.Check
import PatchLint.Command.ListRules
import PatchLint.Command.Run
import PatchLint.Config.Basic
import PatchLint.Config.Decode
import PatchLint.Config.Source
import PatchLint.Discovery
import PatchLint.FileSystem
import PatchLint.Glob.Basic
import PatchLint.Glob.Exclude
import PatchLint.Glob.IgnorePattern
import PatchLint.Glob.IgnoreRule
import PatchLint.Glob.Measured
import PatchLint.Issue
import PatchLint.JsonValue
import PatchLint.Literal
import PatchLint.Main
import PatchLint.Path
import PatchLint.Proofs.Batch.Decomposition
import PatchLint.Proofs.Bytewise.Basic
import PatchLint.Proofs.Bytewise.Blocks
import PatchLint.Proofs.Bytewise.Context
import PatchLint.Proofs.Bytewise.Rules
import PatchLint.Proofs.Bytewise.Words
import PatchLint.Proofs.Checker.Settings
import PatchLint.Proofs.Command.Verdict
import PatchLint.Proofs.Discovery.Notes
import PatchLint.Proofs.FileSystem.Listing
import PatchLint.Proofs.FileSystem.Notes
import PatchLint.Proofs.LineEnding.BlockRules
import PatchLint.Proofs.LineEnding.CarriageReturn
import PatchLint.Proofs.LineEnding.Independence
import PatchLint.Proofs.LineEnding.LineRules
import PatchLint.Proofs.LineEnding.Padding
import PatchLint.Proofs.LineEnding.Source
import PatchLint.Proofs.Location.Analysis
import PatchLint.Proofs.Location.Basic
import PatchLint.Proofs.Location.TextRules
import PatchLint.Proofs.Location.TreeRules
import PatchLint.Proofs.Mask.Projection
import PatchLint.Proofs.Mask.Rules
import PatchLint.Proofs.Mask.Segments
import PatchLint.Proofs.Path.Parts
import PatchLint.Proofs.Retention.History
import PatchLint.Proofs.Retention.Names
import PatchLint.Proofs.Retention.Pruning
import PatchLint.Proofs.Retention.Selection
import PatchLint.Proofs.Source.Block
import PatchLint.Proofs.Source.Matching
import PatchLint.Proofs.Text.Bytes
import PatchLint.Proofs.Text.Lines
import PatchLint.Report
import PatchLint.Retention
import PatchLint.Rule.Basic
import PatchLint.Rule.Catalog
import PatchLint.Rule.Complexity
import PatchLint.Rule.Concatenation
import PatchLint.Rule.Disposable
import PatchLint.Rule.EmptyCatch
import PatchLint.Rule.Forbidden
import PatchLint.Rule.Linq
import PatchLint.Rule.LongMethod
import PatchLint.Rule.MagicNumber
import PatchLint.Rule.Nesting
import PatchLint.Rule.NullGuard
import PatchLint.Rule.PatchClass
import PatchLint.Rule.PatchMethod
import PatchLint.Rule.Todo
import PatchLint.Source.Block
import PatchLint.Source.Declaration
import PatchLint.Source.File
import PatchLint.Source.GuidContext
import PatchLint.Source.Line
import PatchLint.Source.Mask
import PatchLint.Source.Method
import PatchLint.Surroundings
import PatchLint.SyntaxTree.Basic
import PatchLint.SyntaxTree.Declaration
import PatchLint.Text.Basic
import PatchLint.Text.Blank
import PatchLint.Text.Digit
import PatchLint.Text.Letter
import PatchLint.Text.Words
import PatchLint.Toml.Basic
import PatchLint.Toml.Document
import PatchLint.Toml.Scalar
import PatchLint.Proofs.Patch.Targets
import PatchLint.Proofs.Patch.Visits
import PatchLint.Proofs.Patch.Comments
import PatchLint.Proofs.Patch.Privacy
import PatchLint.Proofs.Mask.Position
import PatchLint.Proofs.Source.Passage
import PatchLint.Proofs.EmptyCatch.Detection
import PatchLint.Proofs.SyntaxTree.Preorder
import PatchLint.Proofs.Patch.Declarations
import PatchLint.Proofs.GuidContext.Window
import PatchLint.Proofs.Patch.Calls
import PatchLint.Proofs.Mask.Comments
import PatchLint.Proofs.Exclude.PlainPattern
import PatchLint.Proofs.Discovery.Search
import PatchLint.Proofs.Literal.Spelling
import PatchLint.Proofs.Nesting.Chains
import PatchLint.Proofs.Source.Methods
import PatchLint.Proofs.Forbidden.Registry
import PatchLint.Proofs.Report.Reading
import PatchLint.Proofs.EmptyCatch.Keywords
import PatchLint.Proofs.SyntaxTree.DocumentOrder
import PatchLint.Proofs.Path.Display
import PatchLint.Proofs.Todo.Description
