import ViewWriter.Analysis.Basic
import ViewWriter.Analysis.Context
import ViewWriter.Analysis.Declaration
import ViewWriter.Analysis.Style
import ViewWriter.Archive
import ViewWriter.Attempt
import ViewWriter.Bundle
import ViewWriter.Code
import ViewWriter.CommandLine.Command
import ViewWriter.CommandLine.Display
import ViewWriter.CommandLine.Option
import ViewWriter.CommandLine.Run
import ViewWriter.Config.Basic
import ViewWriter.Config.Layers
import ViewWriter.Document.Address
import ViewWriter.Document.Load
import ViewWriter.Failure
import ViewWriter.Fault
import ViewWriter.Folder
import ViewWriter.Framework
import ViewWriter.Generator.Basic
import ViewWriter.Generator.Registry
import ViewWriter.Generator.Request
import ViewWriter.Json.Basic
import ViewWriter.Json.Printer
import ViewWriter.Json.Reader
import ViewWriter.Main
import ViewWriter.Markup.Attribute
import ViewWriter.Markup.Dialect
import ViewWriter.Markup.Render
import ViewWriter.Name.Case
import ViewWriter.Name.Channel
import ViewWriter.Name.Fresh
import ViewWriter.Name.Identifier
import ViewWriter.Name.Sanitizer
import ViewWriter.Number.Basic
import ViewWriter.Number.Binary64
import ViewWriter.Number.Reading
import ViewWriter.Number.Shortest
import ViewWriter.Optimize
import ViewWriter.Options
import ViewWriter.Proofs.Analysis.Declarations
import ViewWriter.Proofs.Analysis.PropertyNames
import ViewWriter.Proofs.Analysis.SectionOrder
import ViewWriter.Proofs.Analysis.Styles
import ViewWriter.Proofs.Analysis.Texts
import ViewWriter.Proofs.Bundle
import ViewWriter.Proofs.Config.Layers
import ViewWriter.Proofs.Config.Saving
import ViewWriter.Proofs.Folder
import ViewWriter.Proofs.Generator.ClosedScripts
import ViewWriter.Proofs.Generator.Computing
import ViewWriter.Proofs.Generator.DeclaredNames
import ViewWriter.Proofs.Generator.Equipment
import ViewWriter.Proofs.Generator.FailedRegistration
import ViewWriter.Proofs.Generator.FileReferences
import ViewWriter.Proofs.Generator.Filling
import ViewWriter.Proofs.Generator.Identifiers
import ViewWriter.Proofs.Generator.ImportWeights
import ViewWriter.Proofs.Generator.IndexFile
import ViewWriter.Proofs.Generator.Interpolation
import ViewWriter.Proofs.Generator.MainFile
import ViewWriter.Proofs.Generator.ModuleStyles
import ViewWriter.Proofs.Generator.Primitives
import ViewWriter.Proofs.Generator.Readings
import ViewWriter.Proofs.Generator.Registered
import ViewWriter.Proofs.Generator.Run
import ViewWriter.Proofs.Generator.Serving
import ViewWriter.Proofs.Generator.StyleFile
import ViewWriter.Proofs.Generator.StyleReference
import ViewWriter.Proofs.Generator.Subjects
import ViewWriter.Proofs.Generator.TakenTexts
import ViewWriter.Proofs.Json.OneLine
import ViewWriter.Proofs.Json.Texts
import ViewWriter.Proofs.Markup.ClassAttribute
import ViewWriter.Proofs.Markup.Escaping
import ViewWriter.Proofs.Markup.ReadBack
import ViewWriter.Proofs.Markup.Reading
import ViewWriter.Proofs.Markup.Sparing
import ViewWriter.Proofs.Name.Camel
import ViewWriter.Proofs.Name.Case
import ViewWriter.Proofs.Name.Characters
import ViewWriter.Proofs.Name.Fresh
import ViewWriter.Proofs.Name.UniqueNames
import ViewWriter.Proofs.Name.Words
import ViewWriter.Proofs.Number.Digits
import ViewWriter.Proofs.Number.Range
import ViewWriter.Proofs.Number.Shortest
import ViewWriter.Proofs.Optimization
import ViewWriter.Proofs.Schema.Attaching
import ViewWriter.Proofs.Schema.Forest
import ViewWriter.Proofs.Schema.Holding
import ViewWriter.Proofs.Schema.Operations
import ViewWriter.Proofs.Schema.Pages
import ViewWriter.Proofs.Schema.Reshaping
import ViewWriter.Proofs.Schema.Storage
import ViewWriter.Proofs.Schema.WellFormed
import ViewWriter.Proofs.Script.BareLines
import ViewWriter.Proofs.Script.Clause
import ViewWriter.Proofs.Script.CodeLines
import ViewWriter.Proofs.Script.ComponentTags
import ViewWriter.Proofs.Script.DecodedBlock
import ViewWriter.Proofs.Script.Identifier
import ViewWriter.Proofs.Script.ImportShape
import ViewWriter.Proofs.Script.Inlining
import ViewWriter.Proofs.Script.LineShape
import ViewWriter.Proofs.Script.LoadingBlock
import ViewWriter.Proofs.Script.LoadingFunction
import ViewWriter.Proofs.Script.LoadingLines
import ViewWriter.Proofs.Script.LoadingUse
import ViewWriter.Proofs.Script.Occurrences
import ViewWriter.Proofs.Script.Regrouping
import ViewWriter.Proofs.Script.Replacement
import ViewWriter.Proofs.Script.SharedLines
import ViewWriter.Proofs.Script.SharedNumber
import ViewWriter.Proofs.Script.SharedRound
import ViewWriter.Proofs.Script.Sharing
import ViewWriter.Proofs.Script.StableImports
import ViewWriter.Proofs.Script.StaticBlock
import ViewWriter.Proofs.Script.UnusedImports
import ViewWriter.Proofs.Script.UsedNames
import ViewWriter.Proofs.Script.Wrapper
import ViewWriter.Proofs.Stylesheet.Cascade
import ViewWriter.Proofs.Stylesheet.Deduplication
import ViewWriter.Proofs.Stylesheet.Fixpoint
import ViewWriter.Proofs.Stylesheet.RoundTrip
import ViewWriter.Proofs.Stylesheet.Scanning
import ViewWriter.Proofs.Stylesheet.Shorthand
import ViewWriter.Proofs.Stylesheet.Step
import ViewWriter.Proofs.Table
import ViewWriter.Proofs.Target.HtmlNodes
import ViewWriter.Proofs.Target.Nodes
import ViewWriter.Proofs.Target.Templates
import ViewWriter.Proofs.Template.Calls
import ViewWriter.Proofs.Template.Compiling
import ViewWriter.Proofs.Template.DocComment
import ViewWriter.Proofs.Template.Following
import ViewWriter.Proofs.Template.Junctions
import ViewWriter.Proofs.Template.LoneTags
import ViewWriter.Proofs.Template.Loops
import ViewWriter.Proofs.Template.Parts
import ViewWriter.Proofs.Template.QuotedOperands
import ViewWriter.Proofs.Template.Reading
import ViewWriter.Proofs.Template.Scanning
import ViewWriter.Proofs.Template.Sketching
import ViewWriter.Proofs.Template.Spans
import ViewWriter.Proofs.Template.TemplateLiteral
import ViewWriter.Proofs.Template.Totality
import ViewWriter.Proofs.Text.Blocks
import ViewWriter.Proofs.Text.Doubled
import ViewWriter.Proofs.Text.Needle
import ViewWriter.Proofs.Text.Needles
import ViewWriter.Proofs.Text.NormalForm
import ViewWriter.Proofs.Text.Occurrences
import ViewWriter.Proofs.Text.Pieces
import ViewWriter.Proofs.Text.Replacing
import ViewWriter.Proofs.Text.Spacing
import ViewWriter.Proofs.Text.Tidying
import ViewWriter.Proofs.Traversal
import ViewWriter.Schema.Arena
import ViewWriter.Schema.Tree
import ViewWriter.Script.Fragment
import ViewWriter.Script.Import
import ViewWriter.Script.Loading
import ViewWriter.Script.Piece
import ViewWriter.Script.Reference
import ViewWriter.Stylesheet.Basic
import ViewWriter.Stylesheet.Merge
import ViewWriter.Table
import ViewWriter.Target.Angular
import ViewWriter.Target.Html
import ViewWriter.Target.React
import ViewWriter.Target.View
import ViewWriter.Target.Vue
import ViewWriter.Template.Engine
import ViewWriter.Template.Helper
import ViewWriter.Template.Node
import ViewWriter.Template.Operand
import ViewWriter.Template.Render
import ViewWriter.Template.Scope
import ViewWriter.Template.Source
import ViewWriter.Template.Store
import ViewWriter.Template.Token
import ViewWriter.Text.Case
import ViewWriter.Text.Character
import ViewWriter.Text.CodeSet
import ViewWriter.Text.Lines
import ViewWriter.Text.Markup
import ViewWriter.Text.Quoted
import ViewWriter.Text.Split
import ViewWriter.Text.Table.Case
import ViewWriter.Text.Table.Character
