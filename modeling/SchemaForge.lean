import SchemaForge.Cli.Args
import SchemaForge.Cli.Command
import SchemaForge.Cli.Flags
import SchemaForge.Code.Basic
import SchemaForge.Code.Check
import SchemaForge.Code.Fragment
import SchemaForge.Code.Layout
import SchemaForge.Code.Source
import SchemaForge.Code.Text
import SchemaForge.Compile.Document
import SchemaForge.Compile.Primitive
import SchemaForge.Compile.Record
import SchemaForge.Compile.Schema
import SchemaForge.Compile.Types
import SchemaForge.Config
import SchemaForge.Digest.Canonical
import SchemaForge.Digest.Encode
import SchemaForge.Digest.Literal
import SchemaForge.Digest.Sha256
import SchemaForge.Digest.Source
import SchemaForge.Document
import SchemaForge.Fetch.Basic
import SchemaForge.Fetch.Status
import SchemaForge.Fetch.Url
import SchemaForge.Files.Tree
import SchemaForge.Glob.Ignore
import SchemaForge.Glob.Match
import SchemaForge.Glob.Pattern
import SchemaForge.Glob.Plan
import SchemaForge.Ident
import SchemaForge.Json.Basic
import SchemaForge.Json.Reader
import SchemaForge.Json.Token
import SchemaForge.Json.Writer
import SchemaForge.Main
import SchemaForge.Number.Decimal
import SchemaForge.Number.Double
import SchemaForge.Number.Integer
import SchemaForge.Number.Power
import SchemaForge.Path
import SchemaForge.Pointer
import SchemaForge.Proofs.Anchors
import SchemaForge.Proofs.Bounds
import SchemaForge.Proofs.Checks
import SchemaForge.Proofs.Closure
import SchemaForge.Proofs.Construction
import SchemaForge.Proofs.Cycles
import SchemaForge.Proofs.Decoding
import SchemaForge.Proofs.Emission
import SchemaForge.Proofs.Expansion
import SchemaForge.Proofs.Linking
import SchemaForge.Proofs.Locality
import SchemaForge.Proofs.Meaning
import SchemaForge.Proofs.Names
import SchemaForge.Proofs.Nodes
import SchemaForge.Proofs.Numerals
import SchemaForge.Proofs.Pointer
import SchemaForge.Proofs.Reading
import SchemaForge.Proofs.Record
import SchemaForge.Proofs.Region
import SchemaForge.Proofs.Running
import SchemaForge.Proofs.Scheduling
import SchemaForge.Proofs.Types
import SchemaForge.Report.Check
import SchemaForge.Report.Table
import SchemaForge.Run.Basic
import SchemaForge.Run.Plan
import SchemaForge.Run.Trace
import SchemaForge.Schema.Basic
import SchemaForge.Schema.Decode
import SchemaForge.Schema.Error
import SchemaForge.Schema.Subset
import SchemaForge.Service.Body
import SchemaForge.Service.Error
import SchemaForge.Service.Handler
import SchemaForge.Service.Http
import SchemaForge.Sink.Basic
import SchemaForge.Sink.Directory
import SchemaForge.Support.Convert
import SchemaForge.Support.Files
import SchemaForge.Support.Names
import SchemaForge.Support.Result
import SchemaForge.Support.Validate
import SchemaForge.Support.Value
import SchemaForge.Text.Chars
import SchemaForge.Text.Digit
import SchemaForge.Text.Letter
import SchemaForge.Text.Printable
import SchemaForge.Text.Quoted
import SchemaForge.Text.Ranges
import SchemaForge.Text.Upper
import SchemaForge.Text.Utf8
import SchemaForge.Text.Width
import SchemaForge.Time.DateTime
import SchemaForge.Validator.Basic
import SchemaForge.Validator.Check
import SchemaForge.Validator.Failure
import SchemaForge.Yaml.Cursor
import SchemaForge.Yaml.Error
import SchemaForge.Yaml.Event
import SchemaForge.Yaml.Graph
import SchemaForge.Yaml.Plain
import SchemaForge.Yaml.Scalar
import SchemaForge.Yaml.Tag
import SchemaForge.Yaml.Token
import SchemaForge.Yaml.Writer
import SchemaForge.Proofs.Delivery
import SchemaForge.Proofs.Places
import SchemaForge.Proofs.Publishing
import SchemaForge.Proofs.Drift
import SchemaForge.Proofs.Encoding
import SchemaForge.Proofs.Grammar
import SchemaForge.Proofs.Parsing
import SchemaForge.Proofs.Lexing
import SchemaForge.Proofs.Digesting
import SchemaForge.Proofs.KeyOrder
import SchemaForge.Proofs.Doubles
import SchemaForge.Proofs.Shortest
import SchemaForge.Proofs.Spelling
import SchemaForge.Proofs.Literals
import SchemaForge.Proofs.Digestible
import SchemaForge.Proofs.CanonicalForm
import SchemaForge.Proofs.Twins
import SchemaForge.Proofs.Identity
import SchemaForge.Proofs.Following
import SchemaForge.Proofs.Targets
import SchemaForge.Proofs.Strictness
import SchemaForge.Proofs.Atomicity
import SchemaForge.Proofs.Comparison
import SchemaForge.Proofs.Containers
import SchemaForge.Proofs.Locating
import SchemaForge.Proofs.Required
import SchemaForge.Proofs.Keywords
import SchemaForge.Proofs.Addresses
import SchemaForge.Proofs.Containment
import SchemaForge.Proofs.Tags
import SchemaForge.Proofs.Fetching
import SchemaForge.Proofs.Usable
import SchemaForge.Proofs.Tokens
import SchemaForge.Proofs.Pieces
import SchemaForge.Proofs.Printing
import SchemaForge.Proofs.SourceText
import SchemaForge.Proofs.Contents
import SchemaForge.Proofs.Imports
import SchemaForge.Proofs.Hexadecimal
import SchemaForge.Proofs.PackageNames
