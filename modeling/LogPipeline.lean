import LogPipeline.Classic.Block
import LogPipeline.Classic.Rendering
import LogPipeline.Classic.Text
import LogPipeline.Classic.Writer
import LogPipeline.Columns
import LogPipeline.CommandLine.Path
import LogPipeline.CommandLine.Request
import LogPipeline.CommandLine.Run
import LogPipeline.CommandLine.World
import LogPipeline.Conversion
import LogPipeline.Decoding
import LogPipeline.Document
import LogPipeline.Failure
import LogPipeline.Lua.Chunk
import LogPipeline.Lua.Compact
import LogPipeline.Lua.Constant
import LogPipeline.Lua.Grammar
import LogPipeline.Lua.Judging
import LogPipeline.Lua.Layout
import LogPipeline.Lua.Lexicon
import LogPipeline.Lua.Literal
import LogPipeline.Lua.Operand
import LogPipeline.Lua.Operation
import LogPipeline.Lua.Reading
import LogPipeline.Lua.Scanning
import LogPipeline.Lua.Scope
import LogPipeline.Lua.Script
import LogPipeline.Lua.Splitting
import LogPipeline.Lua.Token
import LogPipeline.Main
import LogPipeline.Merge
import LogPipeline.Number.Arithmetic
import LogPipeline.Number.Binary64
import LogPipeline.Number.Digits
import LogPipeline.Number.FixedPoint
import LogPipeline.Number.Reading
import LogPipeline.Number.Rounding
import LogPipeline.Number.Shortest
import LogPipeline.Plugin
import LogPipeline.Section
import LogPipeline.Sink
import LogPipeline.Text.Graphic
import LogPipeline.Text.Quoted
import LogPipeline.Text.Shown
import LogPipeline.Text.Utf8
import LogPipeline.Value
import LogPipeline.Value.Address
import LogPipeline.Value.Duration
import LogPipeline.Value.Json
import LogPipeline.Yaml.Generic
import LogPipeline.Yaml.Mark
import LogPipeline.Yaml.Node
import LogPipeline.Yaml.Resolution
import LogPipeline.Yaml.ScalarText
import LogPipeline.Yaml.Tag
import LogPipeline.Yaml.Token
import LogPipeline.Yaml.Tokenizing
import LogPipeline.Yaml.Tree
import LogPipeline.Proofs.Lua.Boundary
import LogPipeline.Proofs.Lua.Part
import LogPipeline.Proofs.Lua.Spelling
import LogPipeline.Proofs.Lua.Joining
import LogPipeline.Proofs.Lua.Spreading
import LogPipeline.Proofs.Lua.Pieces
import LogPipeline.Proofs.Lua.Numerals
import LogPipeline.Proofs.Lua.Interpreting
import LogPipeline.Proofs.Lua.RoundTrip
import LogPipeline.Proofs.Lua.Gaps
import LogPipeline.Proofs.Lua.Tiling
import LogPipeline.Proofs.Lua.Agreement
import LogPipeline.Proofs.Lua.Folding
import LogPipeline.Proofs.Lua.Enclosing
import LogPipeline.Proofs.Lua.Reading
import LogPipeline.Proofs.Lua.Nesting
import LogPipeline.Proofs.Lua.Lines
import LogPipeline.Proofs.Lua.Statements
import LogPipeline.Proofs.Lua.Breaking
import LogPipeline.Proofs.Lua.Neighbours
import LogPipeline.Proofs.Lua.LineStarts
import LogPipeline.Proofs.Lua.Cursors
import LogPipeline.Proofs.Lua.GapScanning
import LogPipeline.Proofs.Lua.LiteralScanning
import LogPipeline.Proofs.Lua.Scanning
import LogPipeline.Proofs.Text.Quoting
import LogPipeline.Proofs.Outcomes
import LogPipeline.Proofs.Merge
import LogPipeline.Proofs.Classic.Rendering
import LogPipeline.Proofs.Columns.Runs
import LogPipeline.Proofs.CommandLine.Files
import LogPipeline.Proofs.CommandLine.Delivering
import LogPipeline.Proofs.Columns
import LogPipeline.Proofs.Classic.Plan
import LogPipeline.Proofs.Classic.Writing
import LogPipeline.Proofs.Classic.Calls
import LogPipeline.Proofs.Classic.Verbatim
import LogPipeline.Proofs.Classic.Failing
import LogPipeline.Proofs.Classic.Instances
import LogPipeline.Proofs.Classic.LineBreaks
import LogPipeline.Proofs.Classic.Indenting
import LogPipeline.Proofs.Classic.Padding
import LogPipeline.Proofs.Classic.Rules
import LogPipeline.Proofs.Number.Decimals
import LogPipeline.Proofs.Number.Shortest
import LogPipeline.Proofs.Number.Whole
import LogPipeline.Proofs.Number.Nearest
import LogPipeline.Proofs.Value.Json
import LogPipeline.Proofs.Value.Reading
import LogPipeline.Proofs.Value.Entries
import LogPipeline.Proofs.Value.Duration
import LogPipeline.Proofs.Value.Equality
import LogPipeline.Proofs.Classic.Equality
import LogPipeline.Proofs.Sink
import LogPipeline.Proofs.Yaml.Integers
import LogPipeline.Proofs.Yaml.Parts
import LogPipeline.Proofs.Yaml.Untagged
import LogPipeline.Proofs.Decoding.Values
import LogPipeline.Proofs.Decoding.Sections
import LogPipeline.Proofs.Decoding.Authored
import LogPipeline.Proofs.Decoding.Entries
import LogPipeline.Proofs.Decoding.Integers
