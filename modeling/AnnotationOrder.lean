import AnnotationOrder.Command.Arguments
import AnnotationOrder.Command.Page
import AnnotationOrder.Command.Run
import AnnotationOrder.Command.Switch
import AnnotationOrder.Command.Usage
import AnnotationOrder.Document.Atom
import AnnotationOrder.Document.Calendar
import AnnotationOrder.Document.Value
import AnnotationOrder.Java.Declaration
import AnnotationOrder.Java.Item
import AnnotationOrder.Java.Lexeme
import AnnotationOrder.Java.Node
import AnnotationOrder.Java.Outline
import AnnotationOrder.Java.Position
import AnnotationOrder.Java.Region
import AnnotationOrder.Java.Scan
import AnnotationOrder.Java.Template
import AnnotationOrder.Java.Token
import AnnotationOrder.Java.Tree
import AnnotationOrder.Lint.Log
import AnnotationOrder.Lint.Rules
import AnnotationOrder.Lint.Run
import AnnotationOrder.Main
import AnnotationOrder.Number.Binary64
import AnnotationOrder.Number.Reading
import AnnotationOrder.Number.Shortest
import AnnotationOrder.Order.Graph
import AnnotationOrder.Order.Queue
import AnnotationOrder.Order.Violation
import AnnotationOrder.Project.Discovery
import AnnotationOrder.Project.Path
import AnnotationOrder.Project.Tree
import AnnotationOrder.Project.Workspace
import AnnotationOrder.Proofs.Command.AllPairs
import AnnotationOrder.Proofs.Command.Invalid
import AnnotationOrder.Proofs.Command.SameRules
import AnnotationOrder.Proofs.Java.Grammar
import AnnotationOrder.Proofs.Java.Item
import AnnotationOrder.Proofs.Java.Location
import AnnotationOrder.Proofs.Java.Place
import AnnotationOrder.Proofs.Java.SourceOrder
import AnnotationOrder.Proofs.Java.Syntax
import AnnotationOrder.Proofs.Java.Token
import AnnotationOrder.Proofs.Java.Tree
import AnnotationOrder.Proofs.Java.Walk
import AnnotationOrder.Proofs.Lint.Checked
import AnnotationOrder.Proofs.Lint.CustomRules
import AnnotationOrder.Proofs.Lint.Exclusion
import AnnotationOrder.Proofs.Lint.Finding
import AnnotationOrder.Proofs.Lint.Independence
import AnnotationOrder.Proofs.Lint.Parts
import AnnotationOrder.Proofs.Lint.Paths
import AnnotationOrder.Proofs.Lint.SourceLine
import AnnotationOrder.Proofs.Lint.Visit
import AnnotationOrder.Proofs.Order.Agreement
import AnnotationOrder.Proofs.Order.Bystander
import AnnotationOrder.Proofs.Order.Chain
import AnnotationOrder.Proofs.Order.Picked
import AnnotationOrder.Proofs.Order.Precedence
import AnnotationOrder.Proofs.Order.Queue
import AnnotationOrder.Proofs.Order.Rank
import AnnotationOrder.Proofs.Order.Recheck
import AnnotationOrder.Proofs.Order.Release
import AnnotationOrder.Proofs.Order.Scan
import AnnotationOrder.Proofs.Order.Standing
import AnnotationOrder.Proofs.Project.Candidates
import AnnotationOrder.Proofs.Project.Change
import AnnotationOrder.Proofs.Project.Place
import AnnotationOrder.Proofs.Project.Walk
import AnnotationOrder.Proofs.Report.Float
import AnnotationOrder.Proofs.Report.JsonReport
import AnnotationOrder.Proofs.Report.Limit
import AnnotationOrder.Proofs.Report.Porcelain
import AnnotationOrder.Proofs.Report.ReadBack
import AnnotationOrder.Proofs.Report.Reader
import AnnotationOrder.Proofs.Report.Scalar
import AnnotationOrder.Proofs.Rule.Answer
import AnnotationOrder.Proofs.Rule.Carried
import AnnotationOrder.Proofs.Rule.Fault
import AnnotationOrder.Proofs.Rule.Grammar
import AnnotationOrder.Proofs.Rule.Orientation
import AnnotationOrder.Proofs.Rule.Overlap
import AnnotationOrder.Proofs.Rule.Reading
import AnnotationOrder.Proofs.Rule.Removal
import AnnotationOrder.Proofs.Rule.Room
import AnnotationOrder.Proofs.Rule.Warned
import AnnotationOrder.Proofs.Text.Lines
import AnnotationOrder.Proofs.Text.Utf8
import AnnotationOrder.Proofs.Text.Wildcard
import AnnotationOrder.Proofs.Yaml.Room
import AnnotationOrder.Report.Finding
import AnnotationOrder.Report.Format
import AnnotationOrder.Report.Json
import AnnotationOrder.Rule.Builtin
import AnnotationOrder.Rule.Config
import AnnotationOrder.Rule.Matcher
import AnnotationOrder.Rule.Table
import AnnotationOrder.Rule.Warning
import AnnotationOrder.Text.Affix
import AnnotationOrder.Text.Base64
import AnnotationOrder.Text.Blank
import AnnotationOrder.Text.ControlSequence
import AnnotationOrder.Text.Digit
import AnnotationOrder.Text.Feed
import AnnotationOrder.Text.Lines
import AnnotationOrder.Text.Lowercase
import AnnotationOrder.Text.Printable
import AnnotationOrder.Text.Quoted
import AnnotationOrder.Text.Similarity
import AnnotationOrder.Text.Utf8
import AnnotationOrder.Text.Wildcard
import AnnotationOrder.Yaml.Document
import AnnotationOrder.Yaml.Error
import AnnotationOrder.Yaml.Merge
import AnnotationOrder.Yaml.Node
import AnnotationOrder.Yaml.Scalar
import AnnotationOrder.Yaml.Setting
import AnnotationOrder.Yaml.Source
import AnnotationOrder.Yaml.Tag
import AnnotationOrder.Yaml.Token
import AnnotationOrder.Yaml.Token.Cursor
import AnnotationOrder.Yaml.Token.Lexer
import AnnotationOrder.Yaml.Token.Name
import AnnotationOrder.Yaml.Token.Scalar
