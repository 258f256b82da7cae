import Nazm.Passes.Linking
import Nazm.Passes.RenamedResults

/-!
Linked sections, statement by statement.

Owns the linked bytes of one statement, and that a linked section of an accepted source
is those of its statements one after the other.

Does not own what the bytes mean.
-/

namespace Nazm.Passes

open FieldEdits LittleEndian
open Nazm.Encoder Nazm.Parser Nazm.Lexer Nazm.Symtable Nazm.Unicode Nazm.Diagnostics

/-! ## One statement -/

/-- Write a number into a field. -/
def numberEdit (offset width : Nat) (number : Int) : Edit UInt8 where
  offset := offset
  width := width
  change _ := intBytes width number
  keeps _ _ := length_intBytes _ _

/-- The edit of a relocation, in the bytes of a statement that starts at `start`. -/
def Relocation.editFrom (start : Nat) (symtable : SymbolTable) (addresses : Addresses)
    (relocation : Relocation) : Edit UInt8 :=
  numberEdit (relocation.offset - start) relocation.kind.width
    (relocation.linked symtable addresses)

/-- The bytes of a statement with every relocation applied. -/
def statementLinked (symtable : SymbolTable) (addresses : Addresses) (layout : Layout)
    (instr : Instruction) : List UInt8 :=
  applyAll ((statementRelocations symtable layout instr).map
    (Relocation.editFrom layout.offset symtable addresses)) (statementBytes symtable layout instr)

/-- The linked bytes that statements put into a section. -/
def placesLinked (symtable : SymbolTable) (addresses : Addresses) (section_ : SymbolSection)
    (places : List (Layout × Instruction)) : List UInt8 :=
  places.flatMap fun (layout, instr) =>
    if layout.section_ = section_ then statementLinked symtable addresses layout instr else []

theorem placesLinked_append (symtable : SymbolTable) (addresses : Addresses)
    (section_ : SymbolSection) (first second : List (Layout × Instruction)) :
    placesLinked symtable addresses section_ (first ++ second) =
      placesLinked symtable addresses section_ first ++
        placesLinked symtable addresses section_ second :=
  List.flatMap_append

theorem placesLinked_singleton (symtable : SymbolTable) (addresses : Addresses)
    (section_ : SymbolSection) (layout : Layout) (instr : Instruction) :
    placesLinked symtable addresses section_ [(layout, instr)] =
      if layout.section_ = section_ then statementLinked symtable addresses layout instr
      else [] :=
  List.flatMap_singleton _ _

section Statements

variable {symtable : SymbolTable} {addresses : Addresses} {layout : Layout} {instr : Instruction}

/-- A field at the end. -/
theorem applyAll_numberEdit {front field : List UInt8} {width : Nat} (fills : field.length = width)
    (number : Int) :
    applyAll [numberEdit front.length width number] (front ++ field) =
      front ++ intBytes width number := by
  have behind := applyAll_shift [numberEdit 0 width number] front field
  have whole : applyAll [numberEdit 0 width number] field = intBytes width number := by
    rw [applyAll_cons, applyAll_nil, Edit.apply]
    simp only [numberEdit, List.take_zero, List.nil_append, Nat.zero_add]
    rw [List.drop_of_length_le (Nat.le_of_eq fills), List.append_nil]
  rw [whole] at behind
  exact behind

theorem editFrom_shift {relocation : Relocation} (behind : layout.offset ≤ relocation.offset) :
    (relocation.editFrom layout.offset symtable addresses).shift layout.offset =
      relocation.edit symtable addresses := by
  unfold Relocation.editFrom Edit.shift numberEdit
  dsimp only
  rw [Nat.add_sub_cancel' behind]
  rfl

/-- A statement without bytes has no relocations. -/
theorem statementLinked_of_empty (notEmits : ¬ layout.Emits instr)
    (notStores : ¬ layout.Stores instr) : statementLinked symtable addresses layout instr = [] := by
  have none : statementRelocations symtable layout instr = [] := by
    rw [statementRelocations, if_neg notEmits, if_neg fun both => notStores both.1]
  rw [statementLinked, none, statementBytes_of_empty notEmits notStores]
  rfl

/-- `.bss` has no bytes. -/
theorem statementLinked_of_bss (bss : layout.section_ = .bss) :
    statementLinked symtable addresses layout instr = [] := by
  apply statementLinked_of_empty
  · intro emits
    rw [emits.2.2] at bss
    contradiction
  · intro stores
    have place := stores.2
    rw [bss] at place
    rcases place with other | other <;> contradiction

theorem tableRenamed_id (names : List (List UInt8)) (symtable : SymbolTable) :
    TableRenamed id names symtable symtable where
  entries name _ := by
    rw [id_eq]
    cases findEntry symtable name <;> rfl

/-- The spans of a statement do not matter. -/
theorem statementLinked_renamed :
    statementLinked symtable addresses layout (instr.renamed id) =
      statementLinked symtable addresses layout instr := by
  have same := tableRenamed_id (instructionNames instr) symtable
  have all : NamesIn (instructionNames instr) instr := fun _ member => member
  have identity : Relocation.renamed id = id := rfl
  rw [statementLinked, statementLinked, statementBytes_renamed same all,
    statementRelocations_renamed same all, identity, List.map_id]

/-- Lists of statements that differ in spans alone. -/
theorem placesLinked_of_spans {first second : List Instruction}
    (same : List.Forall₂ (Renamed id) first second) (section_ : SymbolSection) (layout : Layout) :
    placesLinked symtable addresses section_ (layout.places second) =
      placesLinked symtable addresses section_ (layout.places first) := by
  have spanless : ∀ statements : List Instruction,
      placesLinked symtable addresses section_
          (layout.places (statements.map (Instruction.renamed id))) =
        placesLinked symtable addresses section_ (layout.places statements) := by
    intro statements
    rw [places_renamed, placesLinked, placesLinked, List.flatMap_map]
    simp only [statementLinked_renamed]
  rw [← spanless second, map_renamed same, spanless]

end Statements

/-! ## A section -/

section Programs

variable {src : SourceBuffer} {before after : List Instruction}

/-- The edits that a list of statements makes in a section. -/
def sectionEdits (symtable : SymbolTable) (addresses : Addresses) (section_ : SymbolSection)
    (relocations : List Relocation) : List (Edit UInt8) :=
  (relocations.filter fun relocation =>
    decide (relocation.section_.symbolSection = section_)).map
      (Relocation.edit symtable addresses)

theorem sectionEdits_append (symtable : SymbolTable) (addresses : Addresses)
    (section_ : SymbolSection) (first second : List Relocation) :
    sectionEdits symtable addresses section_ (first ++ second) =
      sectionEdits symtable addresses section_ first ++
        sectionEdits symtable addresses section_ second := by
  rw [sectionEdits, List.filter_append, List.map_append]
  rfl

theorem sectionEdits_inside (accepted : Accepted src)
    (split : (sourceInstructions src).data = before ++ after) (addresses : Addresses)
    {section_ : SymbolSection} (hasBytes : section_ ≠ .bss) :
    ∀ edit ∈ sectionEdits (sourcePass1 src).symtable addresses section_
        (programRelocations (sourcePass1 src).symtable before),
      edit.Inside (sectionImage (sourcePass1 src).symtable section_ before) := by
  intro edit member
  obtain ⟨relocation, inSection, rfl⟩ := List.mem_map.mp member
  obtain ⟨inList, isSection⟩ := List.mem_filter.mp inSection
  obtain ⟨front, other, back, isBefore, inOther⟩ := mem_programRelocations.mp inList
  have place := statement_inPlace accepted
    (show _ = front ++ other :: (back ++ after) by
      rw [split, isBefore, List.append_assoc, List.cons_append]) inOther
  have ends := @inPlace_before front back other relocation place
  have length := length_sectionImage accepted.program split hasBytes
  rw [← isBefore, of_decide_eq_true isSection] at ends
  exact Nat.le_trans ends (Nat.le_of_eq length.symm)

/-- The edits of one statement, behind what stands before it. -/
theorem sectionEdits_here (accepted : Accepted src) {instr : Instruction}
    (split : (sourceInstructions src).data = before ++ instr :: after) (addresses : Addresses)
    (section_ : SymbolSection) :
    sectionEdits (sourcePass1 src).symtable addresses section_
        (statementRelocations (sourcePass1 src).symtable (Layout.after before) instr) =
      if (Layout.after before).section_ = section_ then
        ((statementRelocations (sourcePass1 src).symtable (Layout.after before) instr).map
          (Relocation.editFrom (Layout.after before).offset (sourcePass1 src).symtable
            addresses)).map (Edit.shift (Layout.after before).offset)
      else [] := by
  have places := fun relocation =>
    @statement_inPlace src before after instr accepted split relocation
  split_ifs with here
  · have all : (statementRelocations (sourcePass1 src).symtable (Layout.after before) instr).filter
        (fun relocation => decide (relocation.section_.symbolSection = section_)) =
        statementRelocations (sourcePass1 src).symtable (Layout.after before) instr := by
      apply List.filter_eq_self.mpr
      intro relocation member
      exact decide_eq_true ((places relocation member).section_.trans here)
    rw [sectionEdits, all, List.map_map]
    apply List.map_congr_left
    intro relocation member
    exact (editFrom_shift (places relocation member).least).symm
  · have nothing : (statementRelocations (sourcePass1 src).symtable (Layout.after before)
        instr).filter (fun relocation => decide (relocation.section_.symbolSection = section_)) =
        [] := by
      apply List.filter_eq_nil_iff.mpr
      intro relocation member isSection
      exact here ((places relocation member).section_.symm.trans (of_decide_eq_true isSection))
    rw [sectionEdits, nothing, List.map_nil]

theorem prefix_linked (accepted : Accepted src)
    (split : (sourceInstructions src).data = before ++ after) (addresses : Addresses)
    {section_ : SymbolSection} (hasBytes : section_ ≠ .bss) :
    applyAll (sectionEdits (sourcePass1 src).symtable addresses section_
        (programRelocations (sourcePass1 src).symtable before))
        (sectionImage (sourcePass1 src).symtable section_ before) =
      placesLinked (sourcePass1 src).symtable addresses section_ (Layout.start.places before) := by
  induction before using List.reverseRecOn generalizing after with
  | nil => rfl
  | append_singleton before instr inductionHypothesis =>
      have split' : (sourceInstructions src).data = before ++ instr :: after := by
        rw [split, List.append_assoc, List.singleton_append]
      have inside := sectionEdits_inside accepted split' addresses hasBytes
      have front := inductionHypothesis split'
      have length := length_applyAll inside
      rw [front] at length
      have length := length.trans (length_sectionImage accepted.program split' hasBytes)
      rw [programRelocations_snoc, sectionImage_snoc, sectionEdits_append, applyAll_append,
        applyAll_append_left inside, front, sectionEdits_here accepted split', places_snoc,
        placesLinked_append, placesLinked_singleton]
      split_ifs with here
      · have start : (Layout.after before).offset =
            (placesLinked (sourcePass1 src).symtable addresses section_
              (Layout.start.places before)).length := by
          rw [length, ← here]
          rfl
        rw [start, applyAll_shift, ← start]
        rfl
      · rfl

/-- A linked section is the linked bytes of its statements. -/
theorem linkedBytes_eq (accepted : Accepted src) (addresses : Addresses)
    (section_ : SymbolSection) :
    linkedBytes src addresses section_ =
      placesLinked (sourcePass1 src).symtable addresses section_
        (Layout.start.places (sourceInstructions src).data) := by
  by_cases hasBytes : section_ = .bss
  · subst hasBytes
    have nothing : sectionRelocations src .bss = [] := by
      apply List.filter_eq_nil_iff.mpr
      intro relocation _ isBss
      cases section_ : relocation.section_ <;> rw [section_] at isBss <;> contradiction
    have empty : placesLinked (sourcePass1 src).symtable addresses .bss
        (Layout.start.places (sourceInstructions src).data) = [] := by
      apply List.flatMap_eq_nil_iff.mpr
      intro place _
      dsimp only
      split_ifs with bss
      · exact statementLinked_of_bss bss
      · rfl
    rw [linkedBytes, nothing, empty]
    rfl
  · rw [← prefix_linked accepted (List.append_nil _).symm addresses hasBytes,
      ← accepted.image.relocations, ← accepted.image.bytes]
    rfl

end Programs

end Nazm.Passes
