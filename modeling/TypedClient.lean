import TypedClient.Assoc
import TypedClient.Calendar
import TypedClient.Client.Comment
import TypedClient.Client.Declaration
import TypedClient.Client.Method
import TypedClient.Client.Url
import TypedClient.CommandLine.Arguments
import TypedClient.CommandLine.Command
import TypedClient.Decimal.Binary64
import TypedClient.Decimal.Shortest
import TypedClient.Document
import TypedClient.Endpoint.Basic
import TypedClient.Endpoint.Reading
import TypedClient.Endpoint.Success
import TypedClient.Failure
import TypedClient.FileTree.Basic
import TypedClient.FileTree.Error
import TypedClient.FileTree.Sink
import TypedClient.Generation.Run
import TypedClient.Generation.Stage
import TypedClient.Json.Reader
import TypedClient.Json.Token
import TypedClient.Log
import TypedClient.Main
import TypedClient.Name.Identifier
import TypedClient.Name.Method
import TypedClient.Name.Registry
import TypedClient.Package.Files
import TypedClient.Package.JsonText
import TypedClient.Package.Layout
import TypedClient.Package.ModulePath
import TypedClient.Path
import TypedClient.Schema.Basic
import TypedClient.Schema.Literal
import TypedClient.Schema.Reading
import TypedClient.Schema.TypeText
import TypedClient.Text.Blank
import TypedClient.Text.Case
import TypedClient.Text.CaseTable
import TypedClient.Text.CharSet
import TypedClient.Text.Digit
import TypedClient.Text.DigitTable
import TypedClient.Text.Lead
import TypedClient.Text.PrintableTable
import TypedClient.Text.Quoted
import TypedClient.Text.Terminal
import TypedClient.Value.Basic
import TypedClient.Value.SetOrder
import TypedClient.Value.Text
import TypedClient.Yaml.Block
import TypedClient.Yaml.Cursor
import TypedClient.Yaml.Kind
import TypedClient.Yaml.Lexer
import TypedClient.Yaml.Node
import TypedClient.Yaml.Plain
import TypedClient.Yaml.Quoted
import TypedClient.Yaml.Reader
import TypedClient.Yaml.Scalar
import TypedClient.Yaml.Tag
import TypedClient.Yaml.TimestampForm
import TypedClient.Yaml.Token
import TypedClient.Proofs.Generation.Stages
import TypedClient.Proofs.Generation.History
import TypedClient.Proofs.FileTree.Locate
import TypedClient.Proofs.FileTree.Beside
import TypedClient.Proofs.FileTree.Staging
import TypedClient.Proofs.FileTree.Renaming
import TypedClient.Proofs.FileTree.Rollback
import TypedClient.Proofs.FileTree.AllOrNothing
import TypedClient.Proofs.Name.Registry
import TypedClient.Proofs.Name.Identifier
import TypedClient.Proofs.Log
import TypedClient.Proofs.Client.Declaration
import TypedClient.Proofs.Client.Method
import TypedClient.Proofs.Client.TypeNames
import TypedClient.Proofs.Assoc
import TypedClient.Proofs.Client.Url
import TypedClient.Proofs.Endpoint.Reading
import TypedClient.Proofs.Client.Arguments
import TypedClient.Proofs.Value.Text
import TypedClient.Proofs.Schema.Reading
import TypedClient.Proofs.Endpoint.Success
import TypedClient.Proofs.Endpoint.Operations
import TypedClient.Proofs.Document
import TypedClient.Proofs.Client.Contexts
import TypedClient.Proofs.Client.Comment
import TypedClient.Proofs.Package.Comments
import TypedClient.Proofs.Json.Reader
import TypedClient.Proofs.Value.Extension
import TypedClient.Proofs.Schema.Walk
import TypedClient.Proofs.Schema.Unfolding
import TypedClient.Proofs.Schema.Sharing
import TypedClient.Proofs.Client.Signature
import TypedClient.Proofs.Client.Tokens
import TypedClient.Proofs.Client.Call
import TypedClient.Proofs.Client.Usage
import TypedClient.Proofs.Package.ModulePath
import TypedClient.Proofs.Package.Layout
import TypedClient.Proofs.Name.Method
import TypedClient.Proofs.Package.Import
import TypedClient.Proofs.FileTree.Creation
import TypedClient.Proofs.Package.Nesting
import TypedClient.Proofs.Client.Identifiers
import TypedClient.Proofs.Client.Appending
import TypedClient.Proofs.Decimal.Shortest
import TypedClient.Proofs.Schema.Quotes
import TypedClient.Proofs.Schema.Symbols
import TypedClient.Proofs.Schema.Enumeration
import TypedClient.Proofs.Schema.Record
import TypedClient.Proofs.Endpoint.Extraction
import TypedClient.Proofs.Endpoint.Parameters
import TypedClient.Proofs.Endpoint.Choice
import TypedClient.Proofs.Endpoint.References
import TypedClient.Proofs.Client.Order
import TypedClient.Proofs.Name.Spelling
import TypedClient.Proofs.Client.Capture
import TypedClient.Proofs.Package.Members
import TypedClient.Proofs.Schema.Template
import TypedClient.Proofs.Client.Binding
import TypedClient.Proofs.Package.Specifier
import TypedClient.Proofs.FileTree.Unstaged
import TypedClient.Proofs.Loading
