import CodeAtlas.Cache.Recent
import CodeAtlas.Classify.Classifier
import CodeAtlas.Classify.ConfigFile
import CodeAtlas.Classify.Content
import CodeAtlas.Classify.IgnoreRule
import CodeAtlas.Cli.Command
import CodeAtlas.Cli.Completion
import CodeAtlas.Cli.Flag
import CodeAtlas.Cli.Invocation
import CodeAtlas.Cli.Report
import CodeAtlas.Cli.Task
import CodeAtlas.Cli.Workspace
import CodeAtlas.Digest.Sha
import CodeAtlas.Engine.Basic
import CodeAtlas.Engine.Caller
import CodeAtlas.Engine.Memory
import CodeAtlas.Engine.Repository
import CodeAtlas.Engine.Run
import CodeAtlas.Engine.Shapes
import CodeAtlas.Extract.Basic
import CodeAtlas.Extract.Heuristic
import CodeAtlas.Extract.Parser
import CodeAtlas.Extract.TagStream
import CodeAtlas.Graph.Analysis
import CodeAtlas.Graph.Basic
import CodeAtlas.Graph.Build
import CodeAtlas.Graph.Shapes
import CodeAtlas.Index.Document
import CodeAtlas.Index.Fault
import CodeAtlas.Index.Migration
import CodeAtlas.Index.RunLock
import CodeAtlas.Index.Saved
import CodeAtlas.Index.Search
import CodeAtlas.Index.Store
import CodeAtlas.Index.Tables
import CodeAtlas.Index.Tamper
import CodeAtlas.Index.TextIndex
import CodeAtlas.Index.TokenTable
import CodeAtlas.Index.Version
import CodeAtlas.Index.Writers
import CodeAtlas.Json.Basic
import CodeAtlas.Json.Reader
import CodeAtlas.Json.Shapes
import CodeAtlas.Json.Writer
import CodeAtlas.Main
import CodeAtlas.Model.Hit
import CodeAtlas.Model.Instant
import CodeAtlas.Model.Kind
import CodeAtlas.Model.Language
import CodeAtlas.Model.Project
import CodeAtlas.Model.Symbol
import CodeAtlas.Model.Tag
import CodeAtlas.Number
import CodeAtlas.Path.Basic
import CodeAtlas.Pattern.Basic
import CodeAtlas.Pattern.Expression
import CodeAtlas.Pattern.Reader
import CodeAtlas.Pattern.Wildcard
import CodeAtlas.Proofs.Cache.Recent
import CodeAtlas.Proofs.Classify.Decoding
import CodeAtlas.Proofs.Engine.Accounts
import CodeAtlas.Proofs.Engine.Again
import CodeAtlas.Proofs.Engine.Agreement
import CodeAtlas.Proofs.Engine.Alike
import CodeAtlas.Proofs.Engine.Alone
import CodeAtlas.Proofs.Engine.ByWorkers
import CodeAtlas.Proofs.Engine.Commits
import CodeAtlas.Proofs.Engine.Crew
import CodeAtlas.Proofs.Engine.Discover
import CodeAtlas.Proofs.Engine.Effects
import CodeAtlas.Proofs.Engine.Errands
import CodeAtlas.Proofs.Engine.FailedRun
import CodeAtlas.Proofs.Engine.Found
import CodeAtlas.Proofs.Engine.Jobs
import CodeAtlas.Proofs.Engine.Ledger
import CodeAtlas.Proofs.Engine.Level
import CodeAtlas.Proofs.Engine.Lone
import CodeAtlas.Proofs.Engine.Memory
import CodeAtlas.Proofs.Engine.Mirror
import CodeAtlas.Proofs.Engine.Neighbours
import CodeAtlas.Proofs.Engine.Newcomers
import CodeAtlas.Proofs.Engine.Order
import CodeAtlas.Proofs.Engine.Patience
import CodeAtlas.Proofs.Engine.Pruning
import CodeAtlas.Proofs.Engine.Quiet
import CodeAtlas.Proofs.Engine.Reachable
import CodeAtlas.Proofs.Engine.Rebuild
import CodeAtlas.Proofs.Engine.Removal
import CodeAtlas.Proofs.Engine.Restart
import CodeAtlas.Proofs.Engine.Restore
import CodeAtlas.Proofs.Engine.Runs
import CodeAtlas.Proofs.Engine.Schedules
import CodeAtlas.Proofs.Engine.Serial
import CodeAtlas.Proofs.Engine.Settle
import CodeAtlas.Proofs.Engine.Staged
import CodeAtlas.Proofs.Engine.Take
import CodeAtlas.Proofs.Engine.Tallies
import CodeAtlas.Proofs.Engine.Turns
import CodeAtlas.Proofs.Engine.Yield
import CodeAtlas.Proofs.Extract.Declarations
import CodeAtlas.Proofs.Extract.Parsing
import CodeAtlas.Proofs.Extract.Recall
import CodeAtlas.Proofs.Extract.Resolving
import CodeAtlas.Proofs.Extract.Stretches
import CodeAtlas.Proofs.Extract.TagReport
import CodeAtlas.Proofs.Graph.Apart
import CodeAtlas.Proofs.Graph.Bases
import CodeAtlas.Proofs.Graph.Branching
import CodeAtlas.Proofs.Graph.Building
import CodeAtlas.Proofs.Graph.Calls
import CodeAtlas.Proofs.Graph.Containment
import CodeAtlas.Proofs.Graph.Cycles
import CodeAtlas.Proofs.Graph.DepthFirst
import CodeAtlas.Proofs.Graph.Enclosing
import CodeAtlas.Proofs.Graph.Figures
import CodeAtlas.Proofs.Graph.Layers
import CodeAtlas.Proofs.Graph.Merging
import CodeAtlas.Proofs.Graph.Observed
import CodeAtlas.Proofs.Graph.Passes
import CodeAtlas.Proofs.Graph.Peeling
import CodeAtlas.Proofs.Graph.Recording
import CodeAtlas.Proofs.Graph.Shape
import CodeAtlas.Proofs.Graph.Typing
import CodeAtlas.Proofs.Graph.Walks
import CodeAtlas.Proofs.Graph.WellFormed
import CodeAtlas.Proofs.Identity
import CodeAtlas.Proofs.Index.Accepted
import CodeAtlas.Proofs.Index.InStep
import CodeAtlas.Proofs.Index.Keeps
import CodeAtlas.Proofs.Index.Listing
import CodeAtlas.Proofs.Index.Migrating
import CodeAtlas.Proofs.Index.Queued
import CodeAtlas.Proofs.Index.RollingBack
import CodeAtlas.Proofs.Index.Rows
import CodeAtlas.Proofs.Index.Share
import CodeAtlas.Proofs.Index.Shelf
import CodeAtlas.Proofs.Index.WriterSteps
import CodeAtlas.Proofs.Index.Writers
import CodeAtlas.Proofs.List.Basic
import CodeAtlas.Proofs.Number
import CodeAtlas.Proofs.Pattern.Spans
import CodeAtlas.Proofs.Query.Expressions
import CodeAtlas.Proofs.Query.Words
import CodeAtlas.Proofs.Search.Keys
import CodeAtlas.Proofs.Search.Traffic
import CodeAtlas.Proofs.Snippet.BestLine
import CodeAtlas.Proofs.Snippet.Matches
import CodeAtlas.Proofs.Snippet.WholeWords
import CodeAtlas.Proofs.Snippet.Window
import CodeAtlas.Proofs.Source.Decls
import CodeAtlas.Proofs.Source.Exprs
import CodeAtlas.Proofs.Source.Identifiers
import CodeAtlas.Proofs.Source.Reading
import CodeAtlas.Proofs.Source.Scanning
import CodeAtlas.Proofs.Source.Spots
import CodeAtlas.Proofs.Source.Stmts
import CodeAtlas.Proofs.Source.Types
import CodeAtlas.Proofs.Text.Glyphs
import CodeAtlas.Proofs.Text.Lines
import CodeAtlas.Proofs.Text.Tables
import CodeAtlas.Proofs.Text.Words
import CodeAtlas.Query.Expression
import CodeAtlas.Search.Request
import CodeAtlas.Search.Searcher
import CodeAtlas.Search.Shapes
import CodeAtlas.Search.Traffic
import CodeAtlas.Snippet.Excerpt
import CodeAtlas.Source.LineTable
import CodeAtlas.Source.Outline
import CodeAtlas.Source.Parse.Basic
import CodeAtlas.Source.Parse.Decls
import CodeAtlas.Source.Parse.Exprs
import CodeAtlas.Source.Parse.Stmts
import CodeAtlas.Source.Parse.Types
import CodeAtlas.Source.Render
import CodeAtlas.Source.Scanner
import CodeAtlas.Source.Tree
import CodeAtlas.Text.Base64
import CodeAtlas.Text.Blank
import CodeAtlas.Text.CharClass
import CodeAtlas.Text.CharTable
import CodeAtlas.Text.Decimal
import CodeAtlas.Text.Glyph
import CodeAtlas.Text.Integer
import CodeAtlas.Text.Quoted
import CodeAtlas.Text.Signature
import CodeAtlas.Text.Table
import CodeAtlas.Tools.Definition
import CodeAtlas.Tools.Messages
import CodeAtlas.Tools.Server
import CodeAtlas.Tree.Basic
import CodeAtlas.Uuid
import CodeAtlas.Yaml.Lexer
import CodeAtlas.Yaml.Node
import CodeAtlas.Yaml.Scalar
import CodeAtlas.Yaml.Stream
import CodeAtlas.Yaml.Token
import CodeAtlas.Yaml.Value
