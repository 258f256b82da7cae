import Nazm.Passes.Source

/-!
What the writers of object files start from.

Owns `OutputInput` of `src/output/output.h`, as `nazm_assemble_caught` fills it
from the passes, and the symbol list of `src/output/symbols.c`: locals first,
then globals, each in the order of the hash table.

Does not own any object format.
-/

namespace Nazm.Output

open Nazm.Encoder Nazm.Parser Nazm.Lexer Nazm.Symtable Nazm.Passes

/-! ## Input -/

/-- `OutputInput`. The sizes of the three buffers are their lengths. -/
structure OutputInput where
  textBytes : List UInt8
  dataBytes : List UInt8
  readOnlyDataBytes : List UInt8
  bssSize : Nat
  dataAlignment : Nat
  readOnlyDataAlignment : Nat
  bssAlignment : Nat
  symtable : SymbolTable
  relocations : List Relocation
  debugFiles : List DebugFile
  debugLines : List DebugLine
  sourceName : Option (List UInt8)

/-- The `output_input` of `nazm_assemble_caught`. -/
def sourceOutput (src : SourceBuffer) : OutputInput :=
  let pass1 := sourcePass1 src
  let pass2 := sourcePass2 src
  { textBytes := pass2.textBytes
    dataBytes := pass2.dataBytes
    readOnlyDataBytes := pass2.readOnlyDataBytes
    bssSize := pass2.bssSize
    dataAlignment := pass1.alignments.data
    readOnlyDataAlignment := pass1.alignments.readOnlyData
    bssAlignment := pass1.alignments.bss
    symtable := pass1.symtable
    relocations := pass2.relocations
    debugFiles := pass1.debugFiles
    debugLines := pass2.debugLines
    sourceName := src.name }

namespace OutputInput

def hasData (input : OutputInput) : Bool := decide (0 < input.dataBytes.length)

def hasReadOnlyData (input : OutputInput) : Bool := decide (0 < input.readOnlyDataBytes.length)

def hasBss (input : OutputInput) : Bool := decide (0 < input.bssSize)

def hasDebug (input : OutputInput) : Bool := decide (0 < input.debugLines.length)

end OutputInput

/-! ## Symbols -/

def uint32Max : Nat := 4294967295

/-- `OutputSymbol`, less the member that each writer sets for itself. -/
structure OutputSymbol where
  name : List UInt8
  offset : Int
  section_ : Option SymbolSection
  binding : SymbolBinding
deriving DecidableEq

/-- `OutputSymbolList`. -/
structure OutputSymbolList where
  data : List OutputSymbol
  localCount : Nat

/-- An entry that has a symbol in the object. -/
def isOutputSymbol (entry : SymEntry) : Bool := entry.defined || entry.externalDeclared

def outputSymbol (entry : SymEntry) : OutputSymbol :=
  ⟨entry.name, entry.offset, entry.section?, entry.binding⟩

/-- `collect_binding`. -/
def collectBinding (symtable : SymbolTable) (binding : SymbolBinding) : List OutputSymbol :=
  (symtable.entries.filter fun entry =>
    isOutputSymbol entry && decide (entry.binding = binding)).map outputSymbol

/-- `output_symbols_collect`; `none` for `false`. -/
def outputSymbolsCollect (symtable : SymbolTable) : Option OutputSymbolList :=
  if uint32Max - 1 < (symtable.entries.filter isOutputSymbol).length then none
  else
    let locals := collectBinding symtable .local
    some ⟨locals ++ collectBinding symtable .global, locals.length⟩

/-- `output_symbols_find_index`: the index in the object, after its entry zero. -/
def outputSymbolsFindIndex (symbols : OutputSymbolList) (name : List UInt8) : Option Nat :=
  (symbols.data.findIdx? fun symbol => decide (symbol.name = name)).map (· + 1)

/-- `elf_relocations_have_symbols` and `coff_relocations_have_symbols`. -/
def relocationsHaveSymbols (relocations : List Relocation) (symbols : OutputSymbolList) : Bool :=
  relocations.all fun relocation =>
    (outputSymbolsFindIndex symbols relocation.symbol).isSome

/-- The relocations of a section, in their order. -/
def relocationsIn (relocations : List Relocation) (section_ : RelocationSection) :
    List Relocation :=
  relocations.filter fun relocation => decide (relocation.section_ = section_)

/-- The string table of the names: each writer starts it with bytes of its own,
and leaves some names out. -/
def namesFitStrtab : Nat → List (List UInt8) → Bool
  | _, [] => true
  | size, name :: names =>
      if uint32Max ≤ name.length ∨ uint32Max - name.length - 1 < size then false
      else namesFitStrtab (size + (name.length + 1)) names

end Nazm.Output
