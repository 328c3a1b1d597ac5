import RecordMapper.Block.Basic
import RecordMapper.Block.Error
import RecordMapper.Block.Graph
import RecordMapper.Block.Profile
import RecordMapper.Block.Reader
import RecordMapper.Block.Source
import RecordMapper.Block.Type
import RecordMapper.Block.Walk
import RecordMapper.Design.Basic
import RecordMapper.Design.Lowering
import RecordMapper.Design.Run
import RecordMapper.Diagnostic
import RecordMapper.Digest.Sha256
import RecordMapper.Evaluation.Error
import RecordMapper.Evaluation.Evaluator
import RecordMapper.Files.Directory
import RecordMapper.Files.Documents
import RecordMapper.Files.PathName
import RecordMapper.Json.Basic
import RecordMapper.Json.Decode
import RecordMapper.Json.Fields
import RecordMapper.Json.Printer
import RecordMapper.Json.Reader
import RecordMapper.Json.Token
import RecordMapper.Json.Tree
import RecordMapper.Number.Basic
import RecordMapper.Number.Binary64
import RecordMapper.Number.Shortest
import RecordMapper.Number.Text
import RecordMapper.Path.Basic
import RecordMapper.Path.JsonPath
import RecordMapper.Path.Pointer
import RecordMapper.Program.Basic
import RecordMapper.Program.Finished
import RecordMapper.Program.Fragment
import RecordMapper.Program.Lines
import RecordMapper.Program.Preamble
import RecordMapper.Program.Quoted
import RecordMapper.Program.Script.Binding
import RecordMapper.Program.Script.Character
import RecordMapper.Program.Script.Class
import RecordMapper.Program.Script.Composite
import RecordMapper.Program.Script.Declaration
import RecordMapper.Program.Script.Exchange
import RecordMapper.Program.Script.Expression
import RecordMapper.Program.Script.Function
import RecordMapper.Program.Script.Grammar
import RecordMapper.Program.Script.Lexeme
import RecordMapper.Program.Script.Literal
import RecordMapper.Program.Script.Phrase
import RecordMapper.Program.Script.Reader
import RecordMapper.Program.Script.Statement
import RecordMapper.Program.Statement
import RecordMapper.Program.Target
import RecordMapper.Program.WellFormed
import RecordMapper.Query
import RecordMapper.Record.Atom
import RecordMapper.Record.Basic
import RecordMapper.Schema.Registry
import RecordMapper.Schema.Tree
import RecordMapper.Session.Basic
import RecordMapper.Session.Cache
import RecordMapper.Session.Config
import RecordMapper.Text.Blank
import RecordMapper.Text.Debug
import RecordMapper.Text.Digits
import RecordMapper.Text.Identifier
import RecordMapper.Text.Runs
import RecordMapper.Text.Visible
import RecordMapper.Proofs.Runs
import RecordMapper.Proofs.StringLiterals
import RecordMapper.Proofs.Backlinks
import RecordMapper.Proofs.Stops
import RecordMapper.Proofs.Documents
import RecordMapper.Proofs.SchemaTree
import RecordMapper.Proofs.SchemaCounts
import RecordMapper.Proofs.EmptyCode
import RecordMapper.Proofs.InferencePass
import RecordMapper.Proofs.PathGrammar
import RecordMapper.Proofs.PathReading
import RecordMapper.Proofs.DroppedAttributes
import RecordMapper.Proofs.SameDrops
import RecordMapper.Proofs.PointerReading
import RecordMapper.Proofs.TwoForms
import RecordMapper.Proofs.CommentLines
import RecordMapper.Proofs.CodeLines
import RecordMapper.Proofs.Reading
import RecordMapper.Proofs.StaticKeys
import RecordMapper.Proofs.Orders
import RecordMapper.Proofs.NumberTexts
import RecordMapper.Proofs.MaskedLiterals
import RecordMapper.Proofs.Noninterference
import RecordMapper.Proofs.TwoStyles
import RecordMapper.Proofs.TwoLanguages
import RecordMapper.Proofs.Layout
import RecordMapper.Proofs.WellFormedRecords
import RecordMapper.Proofs.Bookkeeping
import RecordMapper.Proofs.EntryReading
import RecordMapper.Proofs.CacheKeys
import RecordMapper.Proofs.Caching
import RecordMapper.Proofs.Failures
import RecordMapper.Proofs.MissingIds
import RecordMapper.Proofs.UnreadSlots
import RecordMapper.Proofs.CleanQueries
import RecordMapper.Proofs.SkippedDocuments
import RecordMapper.Proofs.RegistryRuns
import RecordMapper.Proofs.TreeInvariants
import RecordMapper.Proofs.PathMatches
import RecordMapper.Proofs.ReachableBlocks
import RecordMapper.Proofs.UnwrappedBacklinks
import RecordMapper.Proofs.AssignedNames
import RecordMapper.Proofs.Tolerance
import RecordMapper.Proofs.Places
import RecordMapper.Proofs.Reports
import RecordMapper.Proofs.IncompleteProfiles
import RecordMapper.Proofs.InputNames
import RecordMapper.Proofs.LevelOrder
import RecordMapper.Proofs.CodeProperties
import RecordMapper.Proofs.LineEnds
import RecordMapper.Proofs.Brackets
import RecordMapper.Proofs.ShownPaths
import RecordMapper.Proofs.Fallbacks
import RecordMapper.Proofs.LocatedFaults
import RecordMapper.Proofs.FirstOccurrences
