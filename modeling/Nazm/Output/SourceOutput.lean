import Nazm.Output.DebugLine
import Nazm.Passes.Branches
import Nazm.Passes.Interleaving
import Nazm.Passes.Linking

/-!
What an accepted source gives to the writers.

Owns the facts that both object formats rest on: the symbols have names and lie
in their sections, the relocated fields lie in their sections and hold zero, the
rows of the line table name declared files at offsets in `.text`, and the
alignments are small powers of two.

Does not own any object format.
-/

namespace Nazm.Output

open FieldEdits LittleEndian
open Nazm.Encoder Nazm.Parser Nazm.Lexer Nazm.Symtable Nazm.Passes

variable {src : SourceBuffer}

/-! ## Symbols -/

/-- What a source asks of the symbol table. -/
def sourceEvents (src : SourceBuffer) : List SymbolEvent :=
  programEvents (sourceInstructions src).data

theorem Accepted.passes (accepted : Accepted src) :
    ProgramPasses (sourceInstructions src).data :=
  pass1Run_accepts_iff.mp accepted.sized

theorem findEntry_source (accepted : Accepted src) (name : List UInt8) :
    findEntry (sourcePass1 src).symtable name = NameFacts.entry? name (factsOf name (sourceEvents src)) :=
  pass1Run_find (Accepted.passes accepted) name

/-- The facts behind an entry of the table. -/
theorem entry_of_source (accepted : Accepted src) {entry : SymEntry}
    (member : entry ∈ (sourcePass1 src).symtable.entries) :
    factsOf entry.name (sourceEvents src) ≠ .start ∧
      (factsOf entry.name (sourceEvents src)).entry entry.name = entry := by
  have found := (findEntry_source accepted entry.name).symm.trans
    (ChainedTable.mem_entries_iff.mp member)
  rw [NameFacts.entry?, Option.ite_none_left_eq_some] at found
  exact ⟨found.1, Option.some.inj found.2⟩

/-- An event of a statement is about its label or about its only operand. -/
theorem event_name {layout : Layout} {instr : Instruction} {event : SymbolEvent}
    (isEvent : statementEvent? layout instr = some event) :
    instr.label = some event.name ∨ ∃ op ∈ instr.ops, op.kind = .label event.name := by
  rw [statementEvent?] at isEvent
  split at isEvent
  · obtain ⟨label, line, col, endCol, ops, cases⟩ := declaration?_eq_some isEvent
    have isName : event.name = label := by
      rcases cases with ⟨-, rfl⟩ | ⟨-, rfl⟩ | ⟨-, rfl⟩ <;> rfl
    rw [ops, isName]
    exact .inr ⟨_, List.mem_singleton_self _, rfl⟩
  · obtain ⟨label, isLabel, rfl⟩ := Option.map_eq_some_iff.mp isEvent
    exact .inl (definedLabel?_eq_some isLabel).1

theorem event_isName {event : SymbolEvent} (member : event ∈ sourceEvents src) :
    IsName event.name := by
  obtain ⟨before, instr, after, split, isEvent⟩ := mem_programEvents.mp member
  have wellFormed := parse_wellFormed src instr (by
    have inData : instr ∈ (sourceInstructions src).data := by rw [split]; simp
    exact inData)
  rcases event_name isEvent with isLabel | ⟨op, inOps, kind⟩
  · exact wellFormed.label _ isLabel
  · exact wellFormed.operands op inOps _ (by rw [symbolName?, kind])

/-- Every entry of the symbol table has a name. -/
theorem entry_isName (accepted : Accepted src) {entry : SymEntry}
    (member : entry ∈ (sourcePass1 src).symtable.entries) : IsName entry.name := by
  obtain ⟨event, inEvents, isName⟩ := exists_event_of_facts (entry_of_source accepted member).1
  rw [← isName]
  exact event_isName inEvents

/-- A definition stands at most at the end of its section. -/
theorem definition_inside (accepted : Accepted src) {name : List UInt8}
    {section_ : SymbolSection} {offset : Nat}
    (member : .define name section_ offset ∈ sourceEvents src) :
    offset ≤ (sourcePass2 src).sizes.get section_ := by
  obtain ⟨before, instr, after, split, isEvent⟩ := mem_programEvents.mp member
  rw [statementEvent?] at isEvent
  split at isEvent
  · obtain ⟨_, _, _, _, _, ⟨_, other⟩ | ⟨_, other⟩ | ⟨_, other⟩⟩ := declaration?_eq_some isEvent <;>
      contradiction
  · obtain ⟨label, -, same⟩ := Option.map_eq_some_iff.mp isEvent
    obtain ⟨-, rfl, rfl⟩ := SymbolEvent.define.inj same
    rw [accepted.image.sizes, split]
    exact Layout.get_after_le before (instr :: after) _

/-- A defined symbol lies in its section; one that is not defined is at zero. -/
theorem entry_offset (accepted : Accepted src) {entry : SymEntry}
    (member : entry ∈ (sourcePass1 src).symtable.entries) :
    (∃ section_ offset, entry.section? = some section_ ∧ entry.offset = (offset : Nat) ∧
      offset ≤ (sourcePass2 src).sizes.get section_) ∨
    (entry.section? = none ∧ entry.offset = 0) := by
  obtain ⟨-, isEntry⟩ := entry_of_source accepted member
  obtain ⟨-, -, -, -, defined⟩ := factsOf_reports entry.name (sourceEvents src)
  rw [← isEntry]
  simp only [NameFacts.entry]
  cases definition : (factsOf entry.name (sourceEvents src)).definition with
  | none => exact .inr ⟨rfl, rfl⟩
  | some place =>
      obtain ⟨section_, offset⟩ := place
      exact .inl ⟨section_, offset, rfl, rfl,
        definition_inside accepted (defined section_ offset definition)⟩

/-! ## Relocations -/

/-- The field of a relocation lies in its section and holds zero, the addend is
the one of its kind, and the symbol is known. -/
structure RelocationPlaced (src : SourceBuffer) (relocation : Relocation) : Prop where
  inside : relocation.offset + relocation.kind.width ≤
    ((sourcePass2 src).bytesIn relocation.section_.symbolSection).length
  zero : slice ((sourcePass2 src).bytesIn relocation.section_.symbolSection) relocation.offset
    relocation.kind.width = intBytes relocation.kind.width 0
  addend : relocation.addend = relocation.kind.addend
  known : symbolKnown (sourcePass1 src).symtable relocation.symbol = true

theorem relocationPlaced (accepted : Accepted src) {relocation : Relocation}
    (member : relocation ∈ (sourcePass2 src).relocations) : RelocationPlaced src relocation := by
  rw [accepted.image.relocations] at member
  obtain ⟨before, instr, after, split, inStatement⟩ := mem_programRelocations.mp member
  have stands := accepted.stands split
  have inText := symbolicInText_of_relocation stands.exclusive inStatement
  rw [@statement_relocations _ _ _ before.length stands inText] at inStatement
  obtain ⟨reference, isReference, rfl⟩ := List.mem_map.mp inStatement
  have placed := statement_field stands inText isReference
  have place := relocation_inPlace placed
  have here : ((sourcePass2 src).bytesIn (Layout.after before).section_).length =
      (sourcePass2 src).sizes.get (Layout.after before).section_ :=
    length_bytesIn _ placed.hasBytes
  have ends := @inPlace_before before after instr _ place
  rw [← split, ← accepted.image.sizes] at ends
  refine ⟨?_, ?_, rfl, placed.known⟩
  · rw [place.section_] at ends ⊢
    rw [here]
    exact ends
  · have bytes := accepted.spanBytes split
    rw [placed.span, Pass2Result.spanBytes] at bytes
    rw [place.section_]
    simp only [Reference.relocation]
    rw [← slice_slice _ placed.within, bytes]
    exact placed.zero

/-- The symbol of a relocation has an entry in the objects. -/
theorem relocation_symbol (accepted : Accepted src) {relocation : Relocation}
    (member : relocation ∈ (sourcePass2 src).relocations) :
    ∃ entry ∈ (sourcePass1 src).symtable.entries, entry.name = relocation.symbol ∧
      isOutputSymbol entry = true := by
  have known := (relocationPlaced accepted member).known
  unfold symbolKnown symtableLookupEx symtableIsExternal at known
  cases found : findEntry (sourcePass1 src).symtable relocation.symbol with
  | none => simp [found] at known
  | some entry =>
      have isName : entry.name = relocation.symbol := ChainedTable.key_of_find found
      refine ⟨entry, ChainedTable.mem_entries_iff.mpr (isName ▸ found), isName, ?_⟩
      rw [isOutputSymbol]
      cases defined : entry.defined
      · simpa [found, defined] using known
      · rfl

/-! ## Rows of the line table -/

/-- A location that stands for a line of a declared file. -/
structure Located (files : List DebugFile) (location : DebugLocation) : Prop where
  file : ∃ file ∈ files, file.id = location.file.toNat
  line : 0 < location.line.toNat ∧ location.line.toNat ≤ 0xffffff
  column : 0 < location.column.toNat ∧ location.column.toNat ≤ 65535

theorem toUInt32_toNat {value : Int64} (lower : 0 ≤ value.toInt) (upper : value.toInt < 2 ^ 32) :
    (value.toUInt64.toUInt32.toNat : Int) = value.toInt := by
  have bits := toNat_toUInt64 value
  rw [UInt64.toNat_toUInt32]
  omega

/-- A location that pass 1 lets pass is cleared or located. -/
theorem located_of_faultless {files : List DebugFile} {instr : Instruction}
    {location : DebugLocation} (kind : instr.directiveKind = .debugLocation)
    (faultless : debugLocationFault instr = none)
    (declared : ∀ id, debugLocationFile? instr = some id → id ∈ files.map DebugFile.id)
    (isLocation : location? instr = some location) :
    location = .cleared ∨ Located files location := by
  unfold location? at isLocation
  split at isLocation
  · next file _ _ _ line _ _ _ column _ _ _ _ ops =>
      obtain rfl := Option.some.inj isLocation
      simp only [debugLocationFault, ops] at faultless
      split at faultless
      · next cleared =>
          refine .inl ?_
          obtain ⟨fileZero, lineZero, columnZero⟩ := cleared
          have file := @toUInt32_toNat file (by omega) (by omega)
          have line := @toUInt32_toNat line (by omega) (by omega)
          have column := @toUInt32_toNat column (by omega) (by omega)
          rw [DebugLocation.cleared, DebugLocation.mk.injEq]
          refine ⟨UInt32.toNat_inj.mp ?_, UInt32.toNat_inj.mp ?_, UInt32.toNat_inj.mp ?_⟩
          · change _ = 0
            omega
          · change _ = 0
            omega
          · change _ = 0
            omega
      · split at faultless
        · contradiction
        · next inRange =>
            simp only [not_or, not_le, not_lt] at inRange
            have isFile := @toUInt32_toNat file (by omega) (by omega)
            have isLine := @toUInt32_toNat line (by omega) (by omega)
            have isColumn := @toUInt32_toNat column (by omega) (by omega)
            have named : debugLocationFile? instr = some file.toInt.toNat := by
              rw [debugLocationFile?, kind, ops]
              exact if_neg (by omega)
            obtain ⟨found, inFiles, isId⟩ := List.mem_map.mp (declared _ named)
            refine .inr ⟨⟨found, inFiles, ?_⟩, by dsimp only; omega, by dsimp only; omega⟩
            rw [isId]
            dsimp only
            omega
  · contradiction

/-- Every location of an accepted source is cleared or located. -/
theorem location_of_source (accepted : Accepted src) {instr : Instruction}
    (member : instr ∈ (sourceInstructions src).data) {location : DebugLocation}
    (isLocation : location? instr = some location) :
    location = .cleared ∨ Located (sourcePass1 src).debugFiles location := by
  have passes := Accepted.passes accepted
  have kind : instr.directiveKind = .debugLocation := by
    by_contra other
    rw [location?_of_other other] at isLocation
    contradiction
  obtain ⟨before, after, split⟩ := List.append_of_mem member
  refine located_of_faultless kind ((passes.walk.passes before instr after split).location kind)
    ?_ isLocation
  intro id named
  have files : (sourcePass1 src).debugFiles =
      (sourceInstructions src).data.filterMap declaredFile? := (pass1Run_reached passes).debugFiles
  rw [files]
  exact passes.located instr member id named

/-- The location that is active at a statement is cleared or located. -/
theorem activeLocation_of_source (accepted : Accepted src) {before after : List Instruction}
    (split : (sourceInstructions src).data = before ++ after) :
    activeLocation before = .cleared ∨
      Located (sourcePass1 src).debugFiles (activeLocation before) := by
  rw [activeLocation]
  cases last : (before.filterMap location?).getLast? with
  | none => exact .inl rfl
  | some location =>
      obtain ⟨instr, member, isLocation⟩ := List.mem_filterMap.mp (List.mem_of_getLast? last)
      refine location_of_source accepted ?_ isLocation
      rw [split]
      exact List.mem_append_left _ member

theorem mem_programRows {statements : List Instruction} {row : DebugLine} :
    row ∈ programRows statements ↔ ∃ before instr after, statements = before ++ instr :: after ∧
      row ∈ statementRows (activeLocation before) (Layout.after before) instr := by
  induction statements using List.reverseRecOn with
  | nil => simp [programRows, Layout.places, rowsFrom]
  | append_singleton statements last inductionHypothesis =>
      rw [programRows_snoc, List.mem_append, inductionHypothesis]
      constructor
      · rintro (⟨before, instr, after, rfl, isRow⟩ | isRow)
        · exact ⟨before, instr, after ++ [last], by simp, isRow⟩
        · exact ⟨statements, last, [], rfl, isRow⟩
      · rintro ⟨before, instr, after, split, isRow⟩
        rcases snoc_split split with ⟨rfl, rfl, -⟩ | ⟨rest, -, within⟩
        · exact .inr isRow
        · exact .inl ⟨before, instr, rest, within, isRow⟩

/-- The row of an instruction at a located place. -/
theorem mem_statementRows {location : DebugLocation} {layout : Layout} {instr : Instruction}
    {row : DebugLine} : row ∈ statementRows location layout instr ↔
      layout.Emits instr ∧ location.file ≠ 0 ∧ location.line ≠ 0 ∧
        row = ⟨layout.sizes.text, location.file, location.line, location.column⟩ := by
  rw [statementRows]
  split
  · next active => simp [active]
  · next silent =>
      simp only [List.not_mem_nil, false_iff]
      rintro ⟨emits, file, line, -⟩
      exact silent ⟨emits, file, line⟩

/-- Each row names a declared file, at an offset in `.text`. -/
structure RowPlaced (src : SourceBuffer) (row : DebugLine) : Prop where
  located : Located (sourcePass1 src).debugFiles ⟨row.fileId, row.line, row.column⟩
  inside : row.offset ≤ (sourcePass2 src).textBytes.length

theorem rowPlaced (accepted : Accepted src) {row : DebugLine}
    (member : row ∈ (sourcePass2 src).debugLines) : RowPlaced src row := by
  have rows : (sourcePass2 src).debugLines = programRows (sourceInstructions src).data :=
    pass2Run_rows accepted.program
  rw [rows] at member
  obtain ⟨before, instr, after, split, isRow⟩ := mem_programRows.mp member
  obtain ⟨-, file, -, rfl⟩ := mem_statementRows.mp isRow
  refine ⟨(activeLocation_of_source accepted split).resolve_left fun cleared => ?_, ?_⟩
  · rw [cleared] at file
    exact file rfl
  · have grows := Layout.get_after_le before (instr :: after) .text
    rw [← split, ← accepted.image.sizes] at grows
    exact grows

/-- An instruction takes its size in `.text`. -/
theorem emits_text {layout : Layout} {instr : Instruction} (emits : layout.Emits instr) :
    (layout.place instr).sizes.text = layout.sizes.text + instructionSize instr := by
  obtain ⟨none, named, text⟩ := emits
  have size : layout.statementSize instr = instructionSize instr := by
    rw [Layout.statementSize, if_pos none, if_neg]
    rintro (invalid | outside)
    · exact named invalid
    · exact outside text
  change (layout.place instr).sizes.get .text = layout.sizes.get .text + _
  rw [Layout.place, SectionSizes.get_add, if_pos text, size]

theorem offset_lt_of_mem_programRows {before : List Instruction} {row : DebugLine}
    (member : row ∈ programRows before) : row.offset < (Layout.after before).sizes.text := by
  obtain ⟨front, instr, back, rfl, isRow⟩ := mem_programRows.mp member
  obtain ⟨emits, -, -, rfl⟩ := mem_statementRows.mp isRow
  have grows := Layout.get_after_le (front ++ [instr]) back .text
  rw [Layout.after_snoc, List.append_assoc, List.singleton_append] at grows
  change ((Layout.after front).place instr).sizes.text ≤ (Layout.after _).sizes.text at grows
  rw [emits_text emits] at grows
  have positive := (instructionSize_bounds instr).1
  dsimp only
  omega

/-- The offsets of the rows increase. -/
theorem programRows_increasing (statements : List Instruction) :
    (programRows statements).Pairwise fun first second => first.offset < second.offset := by
  induction statements using List.reverseRecOn with
  | nil => exact .nil
  | append_singleton statements last inductionHypothesis =>
      rw [programRows_snoc, List.pairwise_append]
      refine ⟨inductionHypothesis, ?_, fun first inBefore second isLast => ?_⟩
      · rw [statementRows]
        split
        · exact List.pairwise_singleton _ _
        · exact .nil
      · obtain ⟨-, -, -, rfl⟩ := mem_statementRows.mp isLast
        exact offset_lt_of_mem_programRows inBefore

theorem debugLinesValid_of_rows {files : List DebugFile} {textSize last : Nat}
    {rows : List DebugLine} (sorted : rows.Pairwise fun first second => first.offset ≤ second.offset)
    (lower : ∀ row ∈ rows, last ≤ row.offset)
    (placed : ∀ row ∈ rows, row.offset ≤ textSize ∧ row.line ≠ 0 ∧
      debugFileIndex files row.fileId ≠ none) :
    debugLinesValid files textSize last rows = true := by
  induction rows generalizing last with
  | nil => rfl
  | cons row rows inductionHypothesis =>
      obtain ⟨inside, line, file⟩ := placed row List.mem_cons_self
      have first := lower row List.mem_cons_self
      rw [List.pairwise_cons] at sorted
      rw [debugLinesValid, if_neg (by
        rintro (beyond | back | noLine | noFile)
        · omega
        · omega
        · exact line noLine
        · exact file noFile)]
      exact inductionHypothesis sorted.2 sorted.1 fun other inRows =>
        placed other (List.mem_cons_of_mem _ inRows)

theorem debugFileIndex_isSome {files : List DebugFile} {id : UInt32} :
    debugFileIndex files id ≠ none ↔ ∃ file ∈ files, file.id = id.toNat := by
  rw [debugFileIndex, Ne, List.findIdx?_eq_none_iff]
  simp

/-- The rows of an accepted source meet the contract of the line tables. -/
theorem debugContract_of_source (accepted : Accepted src)
    (rows : (sourceOutput src).hasDebug = true) :
    debugContractIsValid (sourceOutput src).debugFiles (sourceOutput src).debugLines
      (sourceOutput src).textBytes.length = true := by
  have some_ : (sourcePass2 src).debugLines ≠ [] :=
    List.length_pos_iff.mp (of_decide_eq_true rows)
  have files : (sourcePass1 src).debugFiles ≠ [] := by
    obtain ⟨row, member⟩ := List.exists_mem_of_ne_nil _ some_
    obtain ⟨file, inFiles, -⟩ := (rowPlaced accepted member).located.file
    exact List.ne_nil_of_mem inFiles
  have sorted : (sourcePass2 src).debugLines.Pairwise
      fun first second => first.offset ≤ second.offset := by
    have isRows : (sourcePass2 src).debugLines = programRows (sourceInstructions src).data :=
      pass2Run_rows accepted.program
    rw [isRows]
    exact (programRows_increasing _).imp Nat.le_of_lt
  rw [debugContractIsValid, if_neg (by rintro (none | none); exacts [files none, some_ none])]
  refine debugLinesValid_of_rows sorted (fun row _ => Nat.zero_le _) fun row member => ?_
  have placed := rowPlaced accepted member
  refine ⟨placed.inside, fun zero => ?_, debugFileIndex_isSome.mpr placed.located.file⟩
  have positive := placed.located.line.1
  rw [zero] at positive
  contradiction

/-! ## Alignments -/

/-- An alignment that a section records: none, or a power of two up to 4096. -/
def IsAlignment (alignment : Nat) : Prop := alignment = 0 ∨ ∃ log, log ≤ 12 ∧ alignment = 2 ^ log

theorem IsAlignment.max {first second : Nat} (one : IsAlignment first) (two : IsAlignment second) :
    IsAlignment (max first second) := by
  rcases Nat.le_total first second with less | less
  · rwa [Nat.max_eq_right less]
  · rwa [Nat.max_eq_left less]

theorem IsAlignment.le {alignment : Nat} (isAlignment : IsAlignment alignment) :
    alignment ≤ 4096 := by
  rcases isAlignment with rfl | ⟨log, small, rfl⟩
  · decide
  · exact Nat.pow_le_pow_right (by decide) small

/-- The bit test of pass 1 on a boundary lets powers of two pass. -/
theorem isAlignment_of_bits {boundary : Nat} (positive : 0 < boundary) (small : boundary ≤ 4096)
    (bits : boundary &&& (boundary - 1) = 0) : IsAlignment boundary := by
  obtain ⟨log, rfl⟩ := (Nat.and_sub_one_eq_zero_iff_isPowerOfTwo (by omega)).mp bits
  have bound : 2 ^ log ≤ 2 ^ 12 := small
  exact .inr ⟨log, (Nat.pow_le_pow_iff_right (by decide)).mp bound, rfl⟩

theorem isAlignment_boundary {section_ : SymbolSection} {instr : Instruction}
    (passes : StatementPasses section_ instr) :
    IsAlignment ((alignmentBoundary? instr).getD 0) := by
  by_cases kind : instr.directiveKind = .alignment
  · have faultless := passes.accepted.faultless (by rw [kind]; rfl)
    simp only [dataDirectiveFault, kind] at faultless
    split at faultless
    · next value _ _ _ ops =>
        split at faultless
        · contradiction
        · next inRange =>
            simp only [not_or, not_lt, ne_eq, not_not] at inRange
            obtain ⟨lower, upper, bits⟩ := inRange
            simp only [alignmentBoundary?, kind, ops]
            rw [if_pos (by omega), Option.getD_some]
            exact isAlignment_of_bits (by omega) (by omega) bits
    · contradiction
  · rw [alignmentBoundary?_eq_none kind]
    exact .inl rfl

/-- What a section records is a small power of two. -/
theorem isAlignment_of_source (accepted : Accepted src) (section_ : SymbolSection) :
    IsAlignment ((sourcePass1 src).alignments.get section_) := by
  have passes := (Accepted.passes accepted).walk.passes
  have recorded : (sourcePass1 src).alignments =
      programAlignments (sourceInstructions src).data :=
    (pass1Run_reached (Accepted.passes accepted)).alignments
  rw [recorded]
  generalize (sourceInstructions src).data = statements at passes
  by_cases text : section_ = .text
  · rw [text]
    exact .inl rfl
  · induction statements using List.reverseRecOn with
    | nil => cases section_ <;> exact .inl rfl
    | append_singleton before instr inductionHypothesis =>
        have earlier := inductionHypothesis fun front other back split =>
          passes front other (back ++ [instr]) (by rw [split]; simp)
        rw [programAlignments_snoc, get_noteAlignment _ _ _ text]
        split
        · exact earlier.max (isAlignment_boundary (passes before instr [] rfl))
        · exact earlier

end Nazm.Output
