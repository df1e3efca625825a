import Schemata.Base
import Schemata.Calendar.Date
import Schemata.Calendar.DateTime
import Schemata.Calendar.Mail
import Schemata.Declaration.Basic
import Schemata.Declaration.Reader
import Schemata.Facet.Basic
import Schemata.Facet.Merge
import Schemata.Format
import Schemata.Graph
import Schemata.Json.Data
import Schemata.Json.Numeral
import Schemata.Json.Quoted
import Schemata.Json.Reader
import Schemata.Json.Visitor
import Schemata.Json.Writer
import Schemata.Keyed
import Schemata.Library.Basic
import Schemata.Library.Journal
import Schemata.Library.Resolution
import Schemata.Library.Session
import Schemata.Node.Alternatives
import Schemata.Node.Basic
import Schemata.Number.Basic
import Schemata.Number.Decimal
import Schemata.Number.Double
import Schemata.Number.Rounding
import Schemata.Pattern.Basic
import Schemata.Pattern.Bracket
import Schemata.Pattern.Escape
import Schemata.Pattern.Notation
import Schemata.Pattern.Part
import Schemata.Pattern.Plan
import Schemata.Pattern.Property
import Schemata.Pattern.Regex
import Schemata.Pattern.Size
import Schemata.Proofs.Calendar.Date
import Schemata.Proofs.Declaration.FacetNumber
import Schemata.Proofs.Declaration.Mention
import Schemata.Proofs.Declaration.Naming
import Schemata.Proofs.Facet.Algebra
import Schemata.Proofs.Facet.Gathering
import Schemata.Proofs.Facet.Likeness
import Schemata.Proofs.Facet.Merging
import Schemata.Proofs.Facet.Tidy
import Schemata.Proofs.Graph.Reach
import Schemata.Proofs.Graph.Similarity
import Schemata.Proofs.Json.Agreement
import Schemata.Proofs.Json.Numeral
import Schemata.Proofs.Json.Quoted
import Schemata.Proofs.Json.Reading
import Schemata.Proofs.Json.Scaling
import Schemata.Proofs.Json.Text
import Schemata.Proofs.Json.Visitor
import Schemata.Proofs.Json.WideNumeral
import Schemata.Proofs.Keyed
import Schemata.Proofs.Library.Addition
import Schemata.Proofs.Library.Batch
import Schemata.Proofs.Library.Built
import Schemata.Proofs.Library.Carried
import Schemata.Proofs.Library.Document
import Schemata.Proofs.Library.Given
import Schemata.Proofs.Library.Journal
import Schemata.Proofs.Library.Obtained
import Schemata.Proofs.Library.Order
import Schemata.Proofs.Library.Reached
import Schemata.Proofs.Library.Session
import Schemata.Proofs.Library.Singly
import Schemata.Proofs.Node.Alternatives
import Schemata.Proofs.Node.Combinations
import Schemata.Proofs.Node.Compatible
import Schemata.Proofs.Node.Declared
import Schemata.Proofs.Node.Depth
import Schemata.Proofs.Node.Gathering
import Schemata.Proofs.Node.Inheritance
import Schemata.Proofs.Node.Leading
import Schemata.Proofs.Node.Leaves
import Schemata.Proofs.Node.Likeness
import Schemata.Proofs.Node.Tidy
import Schemata.Proofs.Number.Display
import Schemata.Proofs.Number.ExactValue
import Schemata.Proofs.Number.Exactness
import Schemata.Proofs.Number.Layout
import Schemata.Proofs.Number.Nearest
import Schemata.Proofs.Number.Order
import Schemata.Proofs.Number.Reading
import Schemata.Proofs.Number.Sameness
import Schemata.Proofs.Number.Shortest
import Schemata.Proofs.Related
import Schemata.Proofs.Resolution.Building
import Schemata.Proofs.Resolution.Cycle
import Schemata.Proofs.Resolution.Description
import Schemata.Proofs.Resolution.Faults
import Schemata.Proofs.Resolution.Invariant
import Schemata.Proofs.Resolution.Journal
import Schemata.Proofs.Resolution.Lockstep
import Schemata.Proofs.Resolution.Success
import Schemata.Proofs.Resolution.Twins
import Schemata.Proofs.Text.Numeral
import Schemata.Proofs.Text.Runs
import Schemata.Proofs.Text.Utf8
import Schemata.Proofs.Validation.Acceptance
import Schemata.Proofs.Validation.Calls
import Schemata.Proofs.Validation.Composite
import Schemata.Proofs.Validation.Context
import Schemata.Proofs.Validation.Contract
import Schemata.Proofs.Validation.DateNative
import Schemata.Proofs.Validation.DateOnly
import Schemata.Proofs.Validation.DateReading
import Schemata.Proofs.Validation.DateRoundTrip
import Schemata.Proofs.Validation.DateText
import Schemata.Proofs.Validation.DateThroughNative
import Schemata.Proofs.Validation.DateTypes
import Schemata.Proofs.Validation.DateYears
import Schemata.Proofs.Validation.Deduplication
import Schemata.Proofs.Validation.Discriminator
import Schemata.Proofs.Validation.Disjunction
import Schemata.Proofs.Validation.Dispatch
import Schemata.Proofs.Validation.FirstMatch
import Schemata.Proofs.Validation.FixedPoint
import Schemata.Proofs.Validation.Idempotence
import Schemata.Proofs.Validation.Keys
import Schemata.Proofs.Validation.Leniency
import Schemata.Proofs.Validation.Limits
import Schemata.Proofs.Validation.Location
import Schemata.Proofs.Validation.Merged
import Schemata.Proofs.Validation.NumberFormats
import Schemata.Proofs.Validation.NumberTypes
import Schemata.Proofs.Validation.Origin
import Schemata.Proofs.Validation.Pointing
import Schemata.Proofs.Validation.Predicate
import Schemata.Proofs.Validation.Purity
import Schemata.Proofs.Validation.Relaxation
import Schemata.Proofs.Validation.Requirement
import Schemata.Proofs.Validation.Scalars
import Schemata.Proofs.Validation.Selection
import Schemata.Proofs.Validation.Steps
import Schemata.Proofs.Validation.Tandem
import Schemata.Proofs.Validation.Termination
import Schemata.Proofs.Validation.Transparency
import Schemata.Proofs.Validation.Uniqueness
import Schemata.Proofs.Validation.Verdict
import Schemata.Proofs.Value.Equality
import Schemata.Proofs.Value.Occurrence
import Schemata.Record
import Schemata.Text.Age
import Schemata.Text.Blank
import Schemata.Text.Category
import Schemata.Text.CharSet
import Schemata.Text.Fold
import Schemata.Text.Numeral
import Schemata.Text.Property
import Schemata.Text.Runs
import Schemata.Text.Script
import Schemata.Text.Segmentation
import Schemata.Text.Slice
import Schemata.Text.Utf8
import Schemata.Tree
import Schemata.TypeError
import Schemata.Validation.Composite
import Schemata.Validation.Context
import Schemata.Validation.Date
import Schemata.Validation.DateText
import Schemata.Validation.Error
import Schemata.Validation.Location
import Schemata.Validation.Options
import Schemata.Validation.Report
import Schemata.Validation.Scalar
import Schemata.Validation.Validator
import Schemata.Value
import Schemata.Yaml.Cursor
import Schemata.Yaml.Expr
import Schemata.Yaml.Gap
import Schemata.Yaml.Literal
import Schemata.Yaml.Plain
import Schemata.Yaml.Quoted
import Schemata.Yaml.Reader
import Schemata.Yaml.Scalar
import Schemata.Yaml.Tag
import Schemata.Yaml.Token
