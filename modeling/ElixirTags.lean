import ElixirTags.Main
import ElixirTags.Scan.Session
import ElixirTags.Scan.Scanner
import ElixirTags.Proofs.Scan.Linewise
import ElixirTags.Proofs.Scan.Streaming
import ElixirTags.Proofs.Scan.Selection
import ElixirTags.Proofs.FileSystem.Frame
import ElixirTags.Proofs.FileSystem.WellFormed
import ElixirTags.Proofs.FileSystem.Listing
import ElixirTags.Proofs.Sources.Identity
import ElixirTags.Proofs.Sources.Descent
import ElixirTags.Proofs.Sources.Walk
import ElixirTags.Proofs.Sources.Exact
import ElixirTags.Proofs.Sources.Usable
import ElixirTags.Proofs.Sources.Hidden
import ElixirTags.Proofs.TagFile.Reading
import ElixirTags.Proofs.TagFile.Sorting
import ElixirTags.Proofs.Program.Contents
import ElixirTags.Proofs.Program.Merge
import ElixirTags.Proofs.Program.Stale
import ElixirTags.Proofs.TagFile.Framing
import ElixirTags.Proofs.Program.Repeat
import ElixirTags.Proofs.Program.Effects
import ElixirTags.Proofs.Scan.Isolation
import ElixirTags.Proofs.Scan.Grammar
import ElixirTags.Proofs.Program.Foreign
import ElixirTags.Proofs.Program.Reorder
import ElixirTags.Proofs.Kind.Mentions
import ElixirTags.Proofs.CommandLine.Grammar
import ElixirTags.Proofs.CommandLine.Summary
import ElixirTags.Proofs.CommandLine.Joining
import ElixirTags.Proofs.Sources.Composition
import ElixirTags.Proofs.Scan.Ascii
import ElixirTags.LineReader
import ElixirTags.Proofs.Scan.Stems
import ElixirTags.Proofs.Text.Boundary
import ElixirTags.Proofs.Text.Writing
import ElixirTags.Proofs.Scan.Bytewise
