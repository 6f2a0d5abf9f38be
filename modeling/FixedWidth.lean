import FixedWidth.Codec.Decode
import FixedWidth.Codec.Encode
import FixedWidth.Codec.Named
import FixedWidth.CommandLine.Arguments
import FixedWidth.CommandLine.Outcome
import FixedWidth.CommandLine.Run
import FixedWidth.CommandLine.Word
import FixedWidth.Emit.Decoder
import FixedWidth.Emit.Encoder
import FixedWidth.Emit.Generate
import FixedWidth.Emit.Identifier
import FixedWidth.Emit.LayoutExpression
import FixedWidth.Emit.Line
import FixedWidth.Emit.Source
import FixedWidth.Emit.StepUse
import FixedWidth.Emit.Struct
import FixedWidth.Layout
import FixedWidth.Main
import FixedWidth.Markup.Attribute
import FixedWidth.Markup.Error
import FixedWidth.Markup.Reference
import FixedWidth.Markup.Token
import FixedWidth.NameMap
import FixedWidth.Naming.Sanitized
import FixedWidth.Naming.Scope
import FixedWidth.Naming.SnakeCase
import FixedWidth.Proofs.Forest
import FixedWidth.Record
import FixedWidth.Sample.Customer
import FixedWidth.Schema.Audit
import FixedWidth.Schema.Document
import FixedWidth.Schema.Dump
import FixedWidth.Schema.Load
import FixedWidth.Schema.Node
import FixedWidth.Schema.Path
import FixedWidth.Schema.Registry
import FixedWidth.Schema.Width
import FixedWidth.Store.Basic
import FixedWidth.Store.Error
import FixedWidth.Store.Location
import FixedWidth.Store.Write
import FixedWidth.Table.Basic
import FixedWidth.Table.Compile
import FixedWidth.Table.Expansion
import FixedWidth.Table.Repetition
import FixedWidth.Text.Bytes
import FixedWidth.Text.Json
import FixedWidth.Text.Lines
import FixedWidth.Text.Numeral
import FixedWidth.Text.Quoted
import FixedWidth.Text.Split
import FixedWidth.Unicode.Alphanumeric
import FixedWidth.Unicode.Blank
import FixedWidth.Unicode.Case
import FixedWidth.Unicode.Printable
import FixedWidth.Unicode.Range
import FixedWidth.Wire.Buffer
import FixedWidth.Wire.Cursor
import FixedWidth.Proofs.Walk
import FixedWidth.Proofs.Filling
import FixedWidth.Proofs.TypeNames
import FixedWidth.Proofs.Edges
import FixedWidth.Proofs.Cycles
import FixedWidth.Proofs.FreeNames
import FixedWidth.Proofs.Members
import FixedWidth.Proofs.Writing
import FixedWidth.Proofs.Reading
import FixedWidth.Proofs.CodecEnds
import FixedWidth.Proofs.NormalForm
import FixedWidth.Proofs.RoundTrip
import FixedWidth.Proofs.Paths
import FixedWidth.Proofs.Identifiers
import FixedWidth.Proofs.WellFormed
import FixedWidth.Proofs.OpenEnd
import FixedWidth.Proofs.Literals
import FixedWidth.Proofs.EmittedNames
import FixedWidth.Proofs.Maps
import FixedWidth.Proofs.EmittedTypes
import FixedWidth.Proofs.SourceReaders
import FixedWidth.Proofs.EncoderSource
import FixedWidth.Proofs.DecoderSource
import FixedWidth.Proofs.EmittedLines
import FixedWidth.Proofs.StructValues
import FixedWidth.Proofs.EmittedEncoder
import FixedWidth.Proofs.EmittedDecoder
import FixedWidth.Proofs.EmittedReading
import FixedWidth.Proofs.Emitted
import FixedWidth.Proofs.Reports
import FixedWidth.Proofs.Loading
import FixedWidth.Proofs.Dangling
import FixedWidth.Proofs.Inlining
import FixedWidth.Proofs.Replacement
import FixedWidth.Proofs.Domain
import FixedWidth.Proofs.Truncation
import FixedWidth.Proofs.Mismatches
import FixedWidth.Proofs.Agreement
import FixedWidth.Proofs.LegalNames
import FixedWidth.Proofs.Files
import FixedWidth.Proofs.Bundle
import FixedWidth.Proofs.ModuleClashes
import FixedWidth.Proofs.Bodies
import FixedWidth.Proofs.Inclusion
import FixedWidth.Proofs.StructNames
import FixedWidth.Proofs.Comments
import FixedWidth.Proofs.SchemaTexts
import FixedWidth.Proofs.AttributeLists
import FixedWidth.Proofs.Lines
import FixedWidth.Proofs.Tags
import FixedWidth.Proofs.Nesting
import FixedWidth.Proofs.References
import FixedWidth.Proofs.DocumentOrder
import FixedWidth.Proofs.Additions
import FixedWidth.Proofs.Defects
import FixedWidth.Proofs.JsonTexts
import FixedWidth.Proofs.Dumps
import FixedWidth.Proofs.Pieces
import FixedWidth.Proofs.ElementTexts
import FixedWidth.Proofs.Framing
import FixedWidth.Proofs.StartTags
import FixedWidth.Proofs.TagAttributes
import FixedWidth.Proofs.Provenances
import FixedWidth.Proofs.Chains
import FixedWidth.Proofs.Repetitions
import FixedWidth.Proofs.CursorReads
import FixedWidth.Proofs.Positions
import FixedWidth.Proofs.CustomerCodec
import FixedWidth.Proofs.WellNamed
import FixedWidth.Proofs.Contents
import FixedWidth.Proofs.LoadedFiles
import FixedWidth.Proofs.Grants
import FixedWidth.Proofs.LineNumbers
import FixedWidth.Proofs.Numerals
import FixedWidth.Proofs.Suppliers
