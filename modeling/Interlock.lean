import Interlock.Amount
import Interlock.Check
import Interlock.CommandLine
import Interlock.CommandLine.Argument
import Interlock.CommandLine.Console
import Interlock.CommandLine.Page
import Interlock.CommandLine.Request
import Interlock.CommandLine.Switch
import Interlock.Compliance
import Interlock.Data
import Interlock.Date
import Interlock.Diagnostic
import Interlock.Exposure
import Interlock.Failure
import Interlock.Fault
import Interlock.FileSystem
import Interlock.FileSystem.Walk
import Interlock.Json
import Interlock.Json.Read
import Interlock.Log
import Interlock.Main
import Interlock.Parser
import Interlock.Parser.Contract
import Interlock.Parser.Function
import Interlock.Parser.SourceUnit
import Interlock.Path
import Interlock.Policy
import Interlock.Policy.Load
import Interlock.Policy.OfData
import Interlock.Position
import Interlock.Proofs.Acceptance
import Interlock.Proofs.Agreement
import Interlock.Proofs.Balance
import Interlock.Proofs.Body
import Interlock.Proofs.Boundary
import Interlock.Proofs.CallOptions
import Interlock.Proofs.Canonical
import Interlock.Proofs.Chain
import Interlock.Proofs.Console
import Interlock.Proofs.Cut
import Interlock.Proofs.Declaration
import Interlock.Proofs.Decoding
import Interlock.Proofs.Depth
import Interlock.Proofs.Description
import Interlock.Proofs.Enumeration
import Interlock.Proofs.Exclusion
import Interlock.Proofs.Grammar
import Interlock.Proofs.Grouping
import Interlock.Proofs.Harmless
import Interlock.Proofs.Header
import Interlock.Proofs.Irrelevance
import Interlock.Proofs.Joining
import Interlock.Proofs.Keys
import Interlock.Proofs.Layout
import Interlock.Proofs.Lexing
import Interlock.Proofs.Lines
import Interlock.Proofs.Loading
import Interlock.Proofs.Locality
import Interlock.Proofs.Marking
import Interlock.Proofs.Moving
import Interlock.Proofs.Moving.Declaration
import Interlock.Proofs.Moving.SourceUnit
import Interlock.Proofs.Neighbour
import Interlock.Proofs.Nesting
import Interlock.Proofs.Order
import Interlock.Proofs.Outcome
import Interlock.Proofs.Outline
import Interlock.Proofs.Parts
import Interlock.Proofs.Path
import Interlock.Proofs.Piece
import Interlock.Proofs.Primary
import Interlock.Proofs.Pruning
import Interlock.Proofs.Recovery
import Interlock.Proofs.Regularity
import Interlock.Proofs.Relaxation
import Interlock.Proofs.Replay
import Interlock.Proofs.Resolution
import Interlock.Proofs.Respelling
import Interlock.Proofs.Resumption
import Interlock.Proofs.Run
import Interlock.Proofs.Slice
import Interlock.Proofs.Spelling
import Interlock.Proofs.Stream
import Interlock.Proofs.Tolerance
import Interlock.Proofs.Variable
import Interlock.Proofs.Verdict
import Interlock.Proofs.Walk
import Interlock.Proofs.Written
import Interlock.Reader
import Interlock.Reader.Block
import Interlock.Reader.Declaration
import Interlock.Reader.Group
import Interlock.Reader.Statement
import Interlock.Reader.Variable
import Interlock.SourceFile
import Interlock.StackRoom
import Interlock.Summary
import Interlock.Text.Blank
import Interlock.Text.CodeRange
import Interlock.Text.Decode
import Interlock.Text.Fields
import Interlock.Text.Letter
import Interlock.Text.Number
import Interlock.Text.Numeral
import Interlock.Text.Printable
import Interlock.Text.Quoted
import Interlock.Token
import Interlock.Token.Lexer
import Interlock.Tree
import Interlock.Tree.Display
import Interlock.Tree.Json
import Interlock.Violation
import Interlock.WordSet
import Interlock.Yaml.Character
import Interlock.Yaml.Document
import Interlock.Yaml.Fault
import Interlock.Yaml.Library
import Interlock.Yaml.Node
import Interlock.Yaml.Node.Merge
import Interlock.Yaml.Scalar
import Interlock.Yaml.Tag
import Interlock.Yaml.Token
import Interlock.Yaml.Token.Block
import Interlock.Yaml.Token.Lexer
import Interlock.Yaml.Token.Property
import Interlock.Yaml.Token.Quoted
import Interlock.Yaml.Writer
import Interlock.YamlLibrary
