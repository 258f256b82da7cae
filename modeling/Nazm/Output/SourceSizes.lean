import Mathlib.Data.List.Flatten
import Mathlib.Data.List.Perm.Subperm
import Nazm.Library.ByteFile
import Nazm.Output.SourceOutput

/-!
How large what the writers are given can be.

Owns the bounds that follow from the length of a source: on the names of the
symbols, the relocations, the rows and files of the line table, and the
sections.

Does not own any object format.
-/

namespace Nazm.Output

open ByteFile
open Nazm.Encoder Nazm.Parser Nazm.Lexer Nazm.Symtable Nazm.Unicode Nazm.Diagnostics Nazm.Passes

variable {src : SourceBuffer}

/-- What the statements of a source weigh. -/
def sourceWeight (src : SourceBuffer) : Nat := instructionsWeight (sourceInstructions src).data

/-- A source within the size limit is light. -/
theorem sourceWeight_le (limit : src.data.length ≤ nazmApiMaxSourceSize) :
    sourceWeight src ≤ 209715200 := by
  have weight := parse_weight src
  rw [nazmApiMaxSourceSize] at limit
  exact Nat.le_trans weight (by omega)

/-- What each statement contributes, summed over a program. -/
theorem sum_places_le {measure : Layout → Instruction → Nat} {statements : List Instruction}
    (layout : Layout)
    (each : ∀ before instr after, statements = before ++ instr :: after →
      measure (before.foldl Layout.place layout) instr ≤ instructionWeight instr) :
    ((layout.places statements).map fun place => measure place.1 place.2).sum ≤
      instructionsWeight statements := by
  induction statements generalizing layout with
  | nil => exact Nat.le_refl _
  | cons instr statements inductionHypothesis =>
      rw [Layout.places, List.map_cons, List.sum_cons, instructionsWeight_cons]
      refine Nat.add_le_add (each [] instr statements rfl) (inductionHypothesis _ ?_)
      intro before other after split
      exact each (instr :: before) other after (by rw [split]; rfl)

theorem operandWeight_le {instr : Instruction} {op : Operand} (member : op ∈ instr.ops) :
    operandWeight op + 1 ≤ instructionWeight instr := by
  have label : 1 ≤ labelWeight instr.label := by
    cases instr.label with
    | none => exact Nat.le_refl _
    | some label => exact Nat.le_add_left _ _
  have total : ∀ ops : List Operand, op ∈ ops → operandWeight op ≤ operandsWeight ops := by
    intro ops inOps
    induction ops with
    | nil => contradiction
    | cons head tail inductionHypothesis =>
        rw [operandsWeight_cons]
        rcases List.mem_cons.mp inOps with rfl | inTail
        · omega
        · have rest := inductionHypothesis inTail
          omega
  have bound := total instr.ops member
  rw [instructionWeight]
  omega

theorem instructionWeight_pos (instr : Instruction) : 0 < instructionWeight instr := by
  rw [instructionWeight]
  cases instr.label with
  | none => exact Nat.add_pos_left Nat.one_pos _
  | some label => exact Nat.add_pos_left (Nat.succ_pos _) _

theorem length_le_weight (statements : List Instruction) :
    statements.length ≤ instructionsWeight statements := by
  induction statements with
  | nil => exact Nat.le_refl _
  | cons instr statements inductionHypothesis =>
      have positive := instructionWeight_pos instr
      rw [List.length_cons, instructionsWeight_cons]
      omega

/-! ## Names -/

theorem length_strings (names : List (List UInt8)) :
    (strings names).length = (names.map fun name => name.length + 1).sum := by
  rw [strings, List.length_flatMap]
  simp only [List.length_append, List.length_singleton]

/-- The names of the events fit the statements. -/
theorem length_eventNames (src : SourceBuffer) :
    (strings ((sourceEvents src).map SymbolEvent.name)).length ≤ sourceWeight src := by
  have weigh : ∀ places : List (Layout × Instruction),
      (strings ((places.filterMap fun place => statementEvent? place.1 place.2).map
        SymbolEvent.name)).length ≤
      (places.map fun place => ((statementEvent? place.1 place.2).map
        fun event => event.name.length + 1).getD 0).sum := by
    intro places
    induction places with
    | nil => exact Nat.le_refl _
    | cons place places inductionHypothesis =>
        obtain ⟨layout, instr⟩ := place
        rw [List.map_cons, List.sum_cons, List.filterMap_cons]
        cases event : statementEvent? layout instr with
        | none =>
            dsimp only
            rw [Option.map_none, Option.getD_none, Nat.zero_add]
            exact inductionHypothesis
        | some event =>
            dsimp only at event ⊢
            rw [List.map_cons, Option.map_some, Option.getD_some, strings, List.flatMap_cons,
              List.length_append, List.length_append, List.length_singleton]
            exact Nat.add_le_add_left inductionHypothesis _
  refine Nat.le_trans (weigh _) (@sum_places_le (fun layout instr =>
    ((statementEvent? layout instr).map fun event => event.name.length + 1).getD 0) _ _
    fun before instr after _ => ?_)
  cases isEvent : statementEvent? (before.foldl Layout.place Layout.start) instr with
  | none => exact Nat.zero_le _
  | some event =>
      rw [Option.map_some, Option.getD_some]
      rcases event_name isEvent with isLabel | ⟨op, inOps, kind⟩
      · rw [instructionWeight, isLabel, labelWeight]
        omega
      · have bound := operandWeight_le inOps
        rw [operandWeight, kind] at bound
        dsimp only at bound
        omega

/-- Distinct names of the symbol table fit the statements. -/
theorem length_names_le (accepted : Accepted src) {names : List (List UInt8)}
    (distinct : names.Nodup)
    (known : ∀ name ∈ names, ∃ entry ∈ (sourcePass1 src).symtable.entries, entry.name = name) :
    (strings names).length ≤ sourceWeight src := by
  have within : names ⊆ (sourceEvents src).map SymbolEvent.name := by
    intro name member
    obtain ⟨entry, inTable, rfl⟩ := known name member
    obtain ⟨event, inEvents, isName⟩ :=
      exists_event_of_facts (entry_of_source accepted inTable).1
    rw [← isName]
    exact List.mem_map_of_mem inEvents
  obtain ⟨chosen, permuted, sublist⟩ := distinct.subperm within
  have same : (strings names).length = (strings chosen).length := by
    rw [length_strings, length_strings]
    exact ((permuted.map _).sum_nat).symm
  rw [same]
  exact Nat.le_trans (sublist.flatMap _).length_le (length_eventNames src)

/-! ## Relocations -/

theorem length_references_le (symtable : SymbolTable) (statement : Nat) (instr : Instruction) :
    (statementReferences symtable statement instr).length ≤ instructionWeight instr := by
  have each : ∀ (ops : List Operand) (start : Nat),
      ((ops.zipIdx start).filterMap fun pair =>
        (operandForm? symtable instr pair.1).map fun form =>
          Reference.mk statement pair.2 form.1 form.2).length ≤ operandsWeight ops := by
    intro ops
    induction ops with
    | nil => exact fun _ => Nat.le_refl _
    | cons op ops inductionHypothesis =>
        intro start
        have rest := inductionHypothesis (start + 1)
        rw [List.zipIdx_cons, List.filterMap_cons, operandsWeight_cons]
        cases isForm : operandForm? symtable instr op with
        | none =>
            dsimp only
            rw [Option.map_none]
            exact Nat.le_trans rest (Nat.le_add_left _ _)
        | some form =>
            have heavy : 1 ≤ operandWeight op := by
              unfold operandForm? at isForm
              unfold operandWeight
              cases kind : op.kind <;> simp [kind] at isForm ⊢
            dsimp only at rest ⊢
            rw [Option.map_some, List.length_cons]
            omega
  rw [instructionWeight]
  exact Nat.le_trans (each instr.ops 0) (Nat.le_add_left _ _)

theorem length_relocations_le (accepted : Accepted src) :
    (sourcePass2 src).relocations.length ≤ sourceWeight src := by
  rw [accepted.image.relocations, programRelocations, List.length_flatMap]
  refine @sum_places_le (fun layout instr =>
    (statementRelocations (sourcePass1 src).symtable layout instr).length) _ _
    fun before instr after split => ?_
  change (statementRelocations _ (Layout.after before) instr).length ≤ _
  cases relocations : statementRelocations (sourcePass1 src).symtable (Layout.after before) instr with
  | nil => exact Nat.zero_le _
  | cons relocation rest =>
      have stands := accepted.stands split
      have inText := symbolicInText_of_relocation stands.exclusive
        (show relocation ∈ statementRelocations _ _ _ by rw [relocations]; exact List.mem_cons_self)
      rw [← relocations, @statement_relocations _ _ _ before.length stands inText, List.length_map]
      exact length_references_le _ _ _

/-! ## The line table -/

/-- A digit of `.ملف_بايتات` is read. -/
theorem debugPathItem_length {fuel : Nat} {encoded next : List UInt8} {value digits : Nat}
    {ended : Bool} {readValue readDigits : Nat} {readEnded : Bool}
    (read : debugPathItem fuel encoded value digits ended =
      some (next, readValue, readDigits, readEnded)) :
    next.length ≤ encoded.length ∧ (readDigits ≠ digits → next.length < encoded.length) := by
  induction fuel generalizing encoded value digits ended with
  | zero =>
      rw [debugPathItem] at read
      obtain ⟨rfl, -, rfl, -⟩ : encoded = next ∧ value = readValue ∧ digits = readDigits ∧
        ended = readEnded := by simpa using read
      exact ⟨Nat.le_refl _, fun same => absurd rfl same⟩
  | succ fuel inductionHypothesis =>
      rw [debugPathItem] at read
      split at read
      · obtain ⟨rfl, -, rfl, -⟩ : encoded = next ∧ value = readValue ∧ digits = readDigits ∧
          ended = readEnded := by simpa using read
        exact ⟨Nat.le_refl _, fun same => absurd rfl same⟩
      · next unread =>
          obtain ⟨used, split_, moves, -⟩ := utf8NextCodepoint_split encoded
          have shorter : (utf8NextCodepoint encoded).2.length < encoded.length := by
            have nonempty := moves (by simpa using unread)
            have positive := List.length_pos_iff.mpr nonempty
            have total := congrArg List.length split_
            rw [List.length_append] at total
            omega
          dsimp only at read
          split at read
          · obtain ⟨rfl, -, rfl, -⟩ : (utf8NextCodepoint encoded).2 = next ∧ value = readValue ∧
              digits = readDigits ∧ _ = readEnded := by simpa using read
            exact ⟨by omega, fun _ => shorter⟩
          · split at read
            · contradiction
            · have rest := (inductionHypothesis read).1
              exact ⟨by omega, fun _ => by omega⟩

theorem debugPathItems_length {fuel : Nat} {encoded decoded read : List UInt8} {ended last : Bool}
    (ok : debugPathItems fuel encoded decoded ended = .ok (read, last)) :
    read.length ≤ decoded.length + encoded.length := by
  induction fuel generalizing encoded decoded ended with
  | zero =>
      obtain ⟨rfl, -⟩ := Prod.mk.inj (Except.ok.inj ok)
      exact Nat.le_add_right _ _
  | succ fuel inductionHypothesis =>
      rw [debugPathItems] at ok
      split at ok
      · obtain ⟨rfl, -⟩ := Prod.mk.inj (Except.ok.inj ok)
        exact Nat.le_add_right _ _
      · split at ok
        · contradiction
        · next item =>
            split at ok
            · contradiction
            · next inRange =>
                rw [not_or] at inRange
                have shorter := (debugPathItem_length item).2 inRange.1
                have rest := inductionHypothesis ok
                rw [List.length_append, List.length_singleton] at rest
                omega

/-- The operand of a declaration, and the path that it stands for. -/
theorem declaredFile_operand {instr : Instruction} {file : DebugFile}
    (declared : declaredFile? instr = some file) :
    ∃ encoded, (∃ op ∈ instr.ops, op.kind = .string encoded) ∧ encoded.length ≠ 0 ∧
      (cString encoded).length = encoded.length ∧
      (file.path = encoded ∨ decodeDebugPathBytes encoded = .ok file.path) := by
  rw [declaredFile?, Option.ite_none_right_eq_some] at declared
  obtain ⟨-, directive⟩ := declared
  unfold Except.toOption at directive
  split at directive
  · next found isFile =>
      obtain rfl := Option.some.inj directive
      unfold debugFileDirective at isFile
      split at isFile
      · next id _ _ _ encoded line col endCol ops =>
          split at isFile
          · contradiction
          · split at isFile
            · contradiction
            · next sound =>
                rw [not_or, not_not] at sound
                split at isFile
                · contradiction
                · next path decoded =>
                    split at isFile
                    · contradiction
                    · obtain rfl := Except.ok.inj isFile
                      refine ⟨encoded, ⟨⟨.string encoded, line, col, endCol⟩, ?_, rfl⟩, sound.1,
                        sound.2, ?_⟩
                      · rw [‹instr.ops = _›]
                        simp
                      · split at decoded
                        · exact .inr decoded
                        · exact .inl (Except.ok.inj decoded).symm
      · contradiction
  · contradiction

theorem decodeDebugPathBytes_ok {encoded path : List UInt8}
    (decoded : decodeDebugPathBytes encoded = .ok path) :
    path ≠ [] ∧ ∃ ended, debugPathItems encoded.length encoded [] false = .ok (path, ended) := by
  unfold decodeDebugPathBytes at decoded
  split at decoded
  · contradiction
  · next items ended isItems =>
      split at decoded
      · contradiction
      · next nonempty =>
          rw [not_or] at nonempty
          split at decoded
          · obtain rfl := Except.ok.inj decoded
            exact ⟨fun nil => nonempty.1 (by rw [nil]; rfl), ended, isItems⟩
          · contradiction

/-- A declared path is no longer than its operand. -/
theorem declaredFile_weight {instr : Instruction} {file : DebugFile}
    (declared : declaredFile? instr = some file) :
    file.path ≠ [] ∧ file.path.length + 2 ≤ instructionWeight instr := by
  obtain ⟨encoded, ⟨op, inOps, kind⟩, nonempty, -, path⟩ := declaredFile_operand declared
  have weight := operandWeight_le inOps
  rw [operandWeight, kind] at weight
  dsimp only at weight
  have bound : file.path ≠ [] ∧ file.path.length ≤ encoded.length := by
    rcases path with same | decoded
    · rw [same]
      exact ⟨fun nil => nonempty (by rw [nil]; rfl), Nat.le_refl _⟩
    · obtain ⟨some_, ended, items⟩ := decodeDebugPathBytes_ok decoded
      have shorter := debugPathItems_length items
      rw [List.length_nil, Nat.zero_add] at shorter
      exact ⟨some_, shorter⟩
  exact ⟨bound.1, by omega⟩

/-- The bytes of `.ملف_بايتات` are not zero. -/
theorem debugPathItems_clean {fuel : Nat} {encoded decoded items : List UInt8}
    {ended result : Bool} (clean : 0 ∉ decoded)
    (ok : debugPathItems fuel encoded decoded ended = .ok (items, result)) : 0 ∉ items := by
  induction fuel generalizing encoded decoded ended with
  | zero =>
      obtain ⟨rfl, -⟩ := Prod.mk.inj (Except.ok.inj ok)
      exact clean
  | succ fuel inductionHypothesis =>
      unfold debugPathItems at ok
      split at ok
      · obtain ⟨rfl, -⟩ := Prod.mk.inj (Except.ok.inj ok)
        exact clean
      · split at ok
        · contradiction
        · next next value digits ended item =>
            split at ok
            · contradiction
            · next inRange =>
                rw [not_or, not_or] at inRange
                obtain ⟨-, small, positive⟩ := inRange
                refine inductionHypothesis ?_ ok
                rw [List.mem_append, not_or, List.mem_singleton]
                refine ⟨clean, fun zero => ?_⟩
                have number := congrArg UInt8.toNat zero
                rw [UInt8.toNat_ofNat_of_lt' (Nat.lt_succ_of_le (Nat.le_of_not_lt small))] at number
                exact positive number.symm

/-- A declared path holds no NUL. -/
theorem declaredFile_clean {instr : Instruction} {file : DebugFile}
    (declared : declaredFile? instr = some file) : 0 ∉ file.path := by
  obtain ⟨encoded, -, -, whole, path⟩ := declaredFile_operand declared
  rcases path with same | decoded
  · have isWhole : cString encoded = encoded := by
      rw [cString] at whole ⊢
      exact (List.takeWhile_prefix _).eq_of_length whole
    rw [same, ← isWhole]
    exact zero_notMem_cString encoded
  · obtain ⟨-, ended, items⟩ := decodeDebugPathBytes_ok decoded
    exact debugPathItems_clean List.not_mem_nil items

/-- What the files take: a path, and two more. -/
def filesWeight (files : List DebugFile) : Nat := (files.map fun file => file.path.length + 2).sum

theorem rowsFrom_weight (location : DebugLocation) (layout : Layout)
    (statements : List Instruction) :
    (rowsFrom location (layout.places statements)).length +
      filesWeight (statements.filterMap declaredFile?) ≤ instructionsWeight statements := by
  induction statements generalizing location layout with
  | nil => exact Nat.le_refl _
  | cons instr statements inductionHypothesis =>
      have rest := inductionHypothesis ((location? instr).getD location) (layout.place instr)
      have positive := instructionWeight_pos instr
      rw [Layout.places, rowsFrom, List.length_append, instructionsWeight_cons]
      cases declared : declaredFile? instr with
      | none =>
          have single : (statementRows location layout instr).length ≤ 1 := by
            rw [statementRows]
            split <;> simp
          rw [List.filterMap_cons_none declared]
          omega
      | some file =>
          -- a line that declares a file is no instruction
          have silent : statementRows location layout instr = [] := by
            refine if_neg fun active => ?_
            have none := active.1.1
            rw [declaredFile?, isDebugFile, none] at declared
            simp at declared
          have weight := (declaredFile_weight declared).2
          rw [List.filterMap_cons_some declared, silent, List.length_nil, filesWeight,
            List.map_cons, List.sum_cons]
          rw [filesWeight] at rest
          omega

theorem debugFiles_of_source (accepted : Accepted src) :
    (sourcePass1 src).debugFiles = (sourceInstructions src).data.filterMap declaredFile? :=
  (pass1Run_reached (Accepted.passes accepted)).debugFiles

theorem debugLines_of_source (accepted : Accepted src) :
    (sourcePass2 src).debugLines = programRows (sourceInstructions src).data :=
  pass2Run_rows accepted.program

/-- The rows and the files of the line table come from statements of their own. -/
theorem lineTable_weight (accepted : Accepted src) :
    (sourcePass2 src).debugLines.length + filesWeight (sourcePass1 src).debugFiles ≤
      sourceWeight src := by
  rw [debugFiles_of_source accepted, debugLines_of_source accepted]
  exact rowsFrom_weight _ _ _

/-- A declared path is not empty. -/
theorem debugFile_path (accepted : Accepted src) {file : DebugFile}
    (member : file ∈ (sourcePass1 src).debugFiles) : file.path ≠ [] := by
  rw [debugFiles_of_source accepted] at member
  obtain ⟨instr, -, declared⟩ := List.mem_filterMap.mp member
  exact (declaredFile_weight declared).1

theorem debugFile_clean (accepted : Accepted src) {file : DebugFile}
    (member : file ∈ (sourcePass1 src).debugFiles) : 0 ∉ file.path := by
  rw [debugFiles_of_source accepted] at member
  obtain ⟨instr, -, declared⟩ := List.mem_filterMap.mp member
  exact declaredFile_clean declared

/-- The files are declared once each. -/
theorem debugFiles_distinct (accepted : Accepted src) :
    ((sourcePass1 src).debugFiles.map DebugFile.id).Nodup := by
  rw [debugFiles_of_source accepted]
  exact (Accepted.passes accepted).walk.files

/-! ## Sections -/

/-- Statements that take a bounded room each. -/
theorem get_after_le_count {bound : Nat} {section_ : SymbolSection} {statements : List Instruction}
    (each : ∀ before instr after, statements = before ++ instr :: after →
      (Layout.after before).section_ = section_ →
      (Layout.after before).statementSize instr ≤ bound) :
    (Layout.after statements).sizes.get section_ ≤ statements.length * bound := by
  induction statements using List.reverseRecOn with
  | nil => cases section_ <;> exact Nat.zero_le _
  | append_singleton before instr inductionHypothesis =>
      have earlier := inductionHypothesis fun front other back split =>
        each front other (back ++ [instr]) (by rw [split]; simp)
      have last := each before instr [] rfl
      rw [Layout.after_snoc, Layout.place, SectionSizes.get_add, List.length_append,
        List.length_singleton, Nat.succ_mul]
      split
      · next here => exact Nat.add_le_add earlier (last here)
      · omega

/-- A data directive of a source reserves less than 2^31 bytes. -/
theorem dataDirectiveSizeAt_lt {instr : Instruction} (count : instr.ops.length ≤ maxOperands)
    (offset : Nat) : dataDirectiveSizeAt instr offset < 2 ^ 31 := by
  have wraps : ∀ value : Int, asInt value < 2 ^ 31 := by
    intro value
    have bound := @Int.bmod_lt value (2 ^ 32) (by decide)
    rw [asInt]
    omega
  rw [maxOperands] at count
  unfold dataDirectiveSizeAt
  split
  · exact wraps _
  · unfold dataDirectiveSize
    split
    · have total : ∀ (ops : List Operand) (start : Int), start < 2 ^ 31 →
          ops.foldl addStringSize start < 2 ^ 31 := by
        intro ops
        induction ops with
        | nil => exact fun _ small => small
        | cons op ops inductionHypothesis =>
            intro start small
            refine inductionHypothesis _ ?_
            unfold addStringSize
            split
            · exact wraps _
            · exact small
      exact total _ _ (by decide)
    · omega
    · omega
    · omega
    · omega
    · split
      · exact wraps _
      · decide
    · decide

theorem statementSize_lt {layout : Layout} {instr : Instruction}
    (count : instr.ops.length ≤ maxOperands) : layout.statementSize instr ≤ 2 ^ 31 := by
  have instruction := instructionSize_bounds instr
  have directive := dataDirectiveSizeAt_lt count layout.offset
  unfold Layout.statementSize
  split
  · split <;> omega
  · split <;> omega

/-- No section of a source is larger than this. -/
theorem sectionSize_le (accepted : Accepted src) (section_ : SymbolSection) :
    (sourcePass2 src).sizes.get section_ ≤ sourceWeight src * 2 ^ 31 := by
  rw [accepted.image.sizes]
  refine Nat.le_trans (get_after_le_count fun before instr after split _ => ?_)
    (Nat.mul_le_mul_right _ (length_le_weight _))
  exact statementSize_lt (parse_wellFormed src instr (by
    have inData : instr ∈ (sourceInstructions src).data := by rw [split]; simp
    exact inData)).count

/-- An instruction takes at most fifteen bytes of `.text`. -/
theorem textSize_le (accepted : Accepted src) :
    (sourcePass2 src).textBytes.length ≤ sourceWeight src * 15 := by
  have sizes : (sourcePass2 src).textBytes.length = (sourcePass2 src).sizes.get .text := rfl
  rw [sizes, accepted.image.sizes]
  refine Nat.le_trans (get_after_le_count fun before instr after split here => ?_)
    (Nat.mul_le_mul_right _ (length_le_weight _))
  have bounds := instructionSize_bounds instr
  have stands := statementAccepted accepted.sized split
  unfold Layout.statementSize
  split
  · split <;> omega
  · split
    · next isData => exact absurd here (stands.notText isData)
    · exact Nat.zero_le _

end Nazm.Output
