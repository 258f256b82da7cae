import Nazm.Encoder.DecodeEncode
import Nazm.Lexer.Encoding
import Nazm.Passes.Visibility
import Nazm.Output.ElfWritten
import Nazm.Api.Assemble
import Nazm.CodeView.LineReader
import Nazm.Coff.Reader
import Nazm.Dwarf.LineReader
import Nazm.Encoder.Names
import Nazm.Lexer.Extension
import Nazm.Lexer.Gaps
import Nazm.Lexer.LayoutEdits
import Nazm.Lexer.RenamedSource
import Nazm.Output.Alignments
import Nazm.Output.CodeviewReadBack
import Nazm.Output.DebugLookup
import Nazm.Output.ExtendedVocabulary
import Nazm.Output.LayoutMeaning
import Nazm.Output.LinkedAlike
import Nazm.Parser.Commas
import Nazm.Parser.MemoryOperand
import Nazm.Passes.RenamedSources
import Nazm.Alloc.Arena
import Nazm.Alloc.ArenaRuns
import Nazm.Api.Heap
import Nazm.Api.HeapOutcomes
import Nazm.Cli.Listing
import Nazm.Cli.ListingFaithful
import Nazm.Cli.Outputs
import Nazm.Diagnostics.Joined
import Nazm.Io.PathIdentity
import Nazm.Io.PosixPath
import Nazm.Io.SourceFile
import Nazm.Lexer.Messages
import Nazm.Lexer.StringLiterals
import Nazm.Lexer.Termination
import Nazm.Output.ReservedNames
import Nazm.Output.SymbolTraversals
import Nazm.Parser.LineLocal
import Nazm.Parser.Messages
import Nazm.Parser.NumberArithmetic
import Nazm.Parser.Printing
import Nazm.Parser.RoundTrip
import Nazm.Parser.Termination
import Nazm.Passes.DebugPath
import Nazm.Passes.DirectiveRules
import Nazm.Passes.Messages
import Nazm.Passes.StringData
import Nazm.Symtable.Buckets
import Nazm.Symtable.FiniteMap
import Nazm.Unicode.Decoder
import Nazm.Api.File
import Nazm.Cli.Args
import Nazm.Cli.SourceKept
import Nazm.Output.LoadedObjects
import Nazm.Passes.Printed
import Nazm.Passes.SeparateAssembly
