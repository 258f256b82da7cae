import Nazm.Passes.Source
import Nazm.Passes.Layout

/-!
Which labels pass 1 defines.

Owns the effect of a turn of pass 1 on the definitions of the symbol table, the
invariant of a walk (the definitions are those of the labels that stand before
statements and data directives), and exactly when no label is lost.

Does not own what the definitions are used for.
-/

namespace Nazm.Passes

open Nazm.Encoder Nazm.Parser Nazm.Lexer Nazm.Symtable Nazm.Unicode Nazm.Diagnostics

/-! ## The current section -/

/-- The section of the last section directive, `.text` before the first. -/
def currentSection (before : List Instruction) : SymbolSection :=
  ((before.filterMap fun instr => sectionSwitch? instr.directiveKind).getLast?).getD .text

theorem currentSection_eq (before : List Instruction) :
    (Layout.after before).section_ = currentSection before := by
  induction before using List.reverseRecOn with
  | nil => rfl
  | append_singleton before instr inductionHypothesis =>
      rw [Layout.after_snoc]
      simp only [Layout.place, Layout.sectionAfter, inductionHypothesis, currentSection,
        List.filterMap_append]
      cases switch : sectionSwitch? instr.directiveKind <;> simp [switch]

/-! ## One turn -/

/-- A statement whose label pass 1 enters. -/
def EntersLabel (instr : Instruction) : Prop :=
  instr.directiveKind = .none ∨ isDataDirective instr.directiveKind = true

instance (instr : Instruction) : Decidable (EntersLabel instr) :=
  inferInstanceAs (Decidable (_ ∨ _))

/-- The label that a statement defines. -/
def definedLabel? (instr : Instruction) : Option (List UInt8) :=
  if EntersLabel instr then instr.label else none

/-- How a turn changes the definitions at a layout. -/
structure DefinesLabel (layout : Layout) (instr : Instruction) (symtable next : SymbolTable) :
    Prop where
  fresh : ∀ label, definedLabel? instr = some label → symtableLookupEx symtable label = none
  lookup : ∀ name, symtableLookupEx next name =
    if definedLabel? instr = some name then some ((layout.offset : Int), some layout.section_)
    else symtableLookupEx symtable name

section Pass1

variable {instructions : InstructionList} {state : Pass1State} {instr : Instruction}

theorem definesLabel_of_same {layout : Layout} {symtable next : SymbolTable}
    (undefined : definedLabel? instr = none)
    (same : ∀ name, symtableLookupEx next name = symtableLookupEx symtable name) :
    DefinesLabel layout instr symtable next :=
  ⟨fun label defined => by rw [undefined] at defined; contradiction,
    fun name => by rw [undefined, if_neg (by simp), same]⟩

/-- Entering the label of a statement that may have one. -/
theorem pass1Label_defines (enters : EntersLabel instr)
    (clean : errorHasAny (pass1Label instructions state instr).errors = false) :
    DefinesLabel state.layout instr state.symtable
      (pass1Label instructions state instr).symtable := by
  have defined : definedLabel? instr = instr.label := if_pos enters
  unfold pass1Label at clean ⊢
  split
  · next none => exact definesLabel_of_same (defined.trans none) fun _ => rfl
  · next label some =>
      rw [some] at clean
      dsimp only at clean
      split at clean
      · next symtable inserted =>
          obtain ⟨fresh, lookup⟩ := symtableInsertSection_lookup inserted
          refine ⟨fun other isLabel => ?_, fun name => ?_⟩
          · rw [defined, some, Option.some.injEq] at isLabel
            exact isLabel ▸ fresh
          · rw [lookup, defined, some]
            exact if_congr (eq_comm.trans (Option.some.injEq _ _).symm.to_iff) rfl rfl
      · simp at clean

theorem pass1External_lookup (name : List UInt8) :
    symtableLookupEx (pass1External instructions state instr).symtable name =
      symtableLookupEx state.symtable name := by
  unfold pass1External
  split
  · split
    · next declared => exact symtableDeclareExternal_lookup declared name
    · rfl
  · rfl

theorem pass1Visibility_lookup {binding : SymbolBinding} (name : List UInt8) :
    symtableLookupEx (pass1Visibility instructions state instr binding).symtable name =
      symtableLookupEx state.symtable name := by
  unfold pass1Visibility
  split
  · split
    · next declared => exact symtableDeclareBinding_lookup declared name
    · rfl
  · rfl

/-- A turn of pass 1 that reports nothing defines the label of its statement,
if it enters labels, and changes no other definition. -/
theorem pass1Step_defines
    (clean : errorHasAny (pass1Step instructions state instr).errors = false) :
    DefinesLabel state.layout instr state.symtable
      (pass1Step instructions state instr).symtable := by
  have data : isDataDirective instr.directiveKind = true →
      pass1Step instructions state instr = pass1DataDirective instructions state instr →
      DefinesLabel state.layout instr state.symtable
        (pass1Step instructions state instr).symtable := by
    intro isData step
    rw [step] at clean ⊢
    obtain ⟨noted, layout, symtable, -, -, errors, result⟩ :=
      (pass1DataDirective_cases state instr clean).labelled
    rw [errors] at clean
    rw [result, ← layout, ← symtable]
    exact pass1Label_defines (.inr isData) clean
  have undefined : instr.directiveKind ≠ .none → isDataDirective instr.directiveKind = false →
      definedLabel? instr = none := by
    intro directive noData
    rw [definedLabel?, if_neg]
    rintro (none | isData)
    · exact directive none
    · rw [noData] at isData
      contradiction
  cases kind : instr.directiveKind with
  | none =>
      have step : pass1Step instructions state instr = pass1Statement instructions state instr := by
        rw [pass1Step, kind]
      rw [step] at clean ⊢
      rw [pass1Statement_errors] at clean
      rw [pass1Statement_symtable]
      exact pass1Label_defines (.inl kind) clean
  | text | data | readOnlyData | bss =>
      rw [pass1Step, kind]
      exact definesLabel_of_same (undefined (by simp [kind]) (by rw [kind]; rfl)) fun _ => rfl
  | int8 | int16 | int32 | int64 | alignment | zeroSpace | nulString =>
      exact data (by rw [kind]; rfl) (by rw [pass1Step, kind])
  | invalid => simp [pass1Step, kind] at clean
  | external =>
      rw [pass1Step, kind]
      exact definesLabel_of_same (undefined (by simp [kind]) (by rw [kind]; rfl))
        pass1External_lookup
  | debugFile | debugFileBytes =>
      rw [pass1Step, kind]
      refine definesLabel_of_same (undefined (by simp [kind]) (by rw [kind]; rfl)) fun name => ?_
      unfold pass1DebugFile
      dsimp only
      split <;> rfl
  | debugLocation =>
      rw [pass1Step, kind]
      refine definesLabel_of_same (undefined (by simp [kind]) (by rw [kind]; rfl)) fun name => ?_
      unfold pass1DebugLocation
      dsimp only
      split <;> rfl
  | global | «local» =>
      rw [pass1Step, kind]
      exact definesLabel_of_same (undefined (by simp [kind]) (by rw [kind]; rfl))
        fun name => pass1Visibility_lookup name

end Pass1

/-! ## Walks -/

/-- The definitions of a table are those of the labels entered by a list. -/
structure DefinesLabels (before : List Instruction) (symtable : SymbolTable) : Prop where
  sound : ∀ name offset section_, symtableLookupEx symtable name = some (offset, section_) →
    ∃ front instr back, before = front ++ instr :: back ∧ definedLabel? instr = some name ∧
      offset = (Layout.after front).offset ∧ section_ = some (Layout.after front).section_
  complete : ∀ front instr back label, before = front ++ instr :: back →
    definedLabel? instr = some label →
    symtableLookupEx symtable label =
      some (((Layout.after front).offset : Int), some (Layout.after front).section_)
  distinct : (before.filterMap definedLabel?).Nodup

theorem DefinesLabels.start : DefinesLabels [] ChainedTable.empty where
  sound name offset section_ found := by simp at found
  complete front instr back label split := by simp at split
  distinct := List.nodup_nil

/-- A list with one more element, split at one of its elements. -/
theorem snoc_split {α : Type} {before front back : List α} {last element : α}
    (split : before ++ [last] = front ++ element :: back) :
    (front = before ∧ element = last ∧ back = []) ∨
      ∃ rest, back = rest ++ [last] ∧ before = front ++ element :: rest := by
  rcases List.eq_nil_or_concat back with rfl | ⟨rest, other, rfl⟩
  · obtain ⟨rfl, equal⟩ := List.append_inj' split rfl
    exact .inl ⟨rfl, (List.cons.inj equal).1.symm, rfl⟩
  · rw [List.concat_eq_append, ← List.cons_append, ← List.append_assoc] at split
    obtain ⟨rfl, equal⟩ := List.append_inj' split rfl
    exact .inr ⟨rest, by rw [List.concat_eq_append, (List.cons.inj equal).1], rfl⟩

theorem DefinesLabels.turn {before : List Instruction} {symtable next : SymbolTable}
    {instr : Instruction} (labels : DefinesLabels before symtable)
    (defines : DefinesLabel (Layout.after before) instr symtable next) :
    DefinesLabels (before ++ [instr]) next where
  sound name offset section_ found := by
    rw [defines.lookup] at found
    split at found
    · next here =>
        rw [Option.some.injEq, Prod.mk.injEq] at found
        exact ⟨before, instr, [], rfl, here, found.1.symm, found.2.symm⟩
    · obtain ⟨front, other, back, rfl, isLabel, isOffset, isSection⟩ :=
        labels.sound name offset section_ found
      exact ⟨front, other, back ++ [instr], by simp, isLabel, isOffset, isSection⟩
  complete front other back label split isLabel := by
    rw [defines.lookup]
    rcases snoc_split split with ⟨rfl, rfl, -⟩ | ⟨rest, -, within⟩
    · rw [if_pos isLabel]
    · have known := labels.complete front other rest label within isLabel
      rw [if_neg, known]
      intro again
      rw [defines.fresh label again] at known
      contradiction
  distinct := by
    rw [List.filterMap_append]
    cases isLabel : definedLabel? instr with
    | none => simpa [isLabel] using labels.distinct
    | some label =>
        have single : [instr].filterMap definedLabel? = [label] := by simp [isLabel]
        rw [single]
        refine List.Nodup.append labels.distinct (List.nodup_singleton label) ?_
        intro other member last
        obtain rfl := List.mem_singleton.mp last
        obtain ⟨same, inBefore, sameLabel⟩ := List.mem_filterMap.mp member
        obtain ⟨front, back, rfl⟩ := List.append_of_mem inBefore
        have known := labels.complete front same back other rfl sameLabel
        rw [defines.fresh other isLabel] at known
        contradiction

/-- After every beginning of an accepted list, the table defines its labels. -/
theorem pass1Walk_definesLabels {instructions : InstructionList}
    (accepted : errorHasAny (pass1Run instructions).errors = false)
    {before after : List Instruction} (split : instructions.data = before ++ after) :
    DefinesLabels before (pass1Walk instructions before).symtable := by
  refine Walk.foldl_invariant instructions.data
    (fun before (state : Pass1State) => DefinesLabels before state.symtable) DefinesLabels.start ?_
    split
  intro before instr after split labels
  have clean := @pass1Walk_clean _ accepted (before ++ [instr]) after (by simpa using split)
  rw [pass1Walk_snoc] at clean
  have defines := pass1Step_defines clean
  rw [pass1Walk_layout accepted split] at defines
  exact labels.turn defines

theorem pass1Run_definesLabels {instructions : InstructionList}
    (accepted : errorHasAny (pass1Run instructions).errors = false) :
    DefinesLabels instructions.data (pass1Run instructions).symtable :=
  pass1Walk_definesLabels accepted (List.append_nil _).symm

/-! ## Lost labels -/

/-- Every label has an entry with the section and the offset of its statement. -/
def LabelsDefined (instructions : InstructionList) : Prop :=
  ∀ before instr after label, instructions.data = before ++ instr :: after →
    instr.label = some label →
    ∃ entry, findEntry (pass1Run instructions).symtable label = some entry ∧
      entry.defined = true ∧ entry.section? = some (currentSection before) ∧
      entry.offset = (pass1Walk instructions before).offsets.get (currentSection before)

/-- No name is given to two statements. -/
def LabelsDistinct (instructions : InstructionList) : Prop :=
  (instructions.data.filterMap fun instr => instr.label).Nodup

theorem symtableLookupEx_eq_some {st : SymbolTable} {name : List UInt8} {offset : Int}
    {section_ : Option SymbolSection} :
    symtableLookupEx st name = some (offset, section_) ↔
      ∃ entry, findEntry st name = some entry ∧ entry.defined = true ∧
        entry.section? = section_ ∧ entry.offset = offset := by
  unfold symtableLookupEx
  constructor
  · intro found
    split at found
    · next entry isEntry =>
        rw [Option.ite_none_right_eq_some, Option.some.injEq, Prod.mk.injEq] at found
        exact ⟨entry, isEntry, found.1, found.2.2, found.2.1⟩
    · contradiction
  · rintro ⟨entry, isEntry, defined, rfl, rfl⟩
    rw [isEntry]
    exact if_pos defined

theorem not_labelsDefined {instructions : InstructionList} {label : List UInt8}
    (given : label ∈ instructions.data.filterMap fun instr => instr.label)
    (absent : findEntry (pass1Run instructions).symtable label = none) :
    ¬ LabelsDefined instructions := by
  intro defined
  obtain ⟨instr, member, isLabel⟩ := List.mem_filterMap.mp given
  obtain ⟨before, after, split⟩ := List.append_of_mem member
  obtain ⟨entry, found, -⟩ := defined before instr after label split isLabel
  rw [absent] at found
  contradiction

/-- Pass 1 keeps every label definition, and lets no name be given twice,
exactly when no label stands before a directive that is not a data directive. -/
theorem labels_kept_iff (instructions : InstructionList)
    (accepted : errorHasAny (pass1Run instructions).errors = false) :
    (LabelsDefined instructions ∧ LabelsDistinct instructions) ↔
      ∀ instr ∈ instructions.data, instr.label.isSome = true →
        instr.directiveKind = .none ∨ isDataDirective instr.directiveKind = true := by
  have labels := pass1Run_definesLabels accepted
  constructor
  · rintro ⟨defined, distinct⟩ instr member labelled
    obtain ⟨label, isLabel⟩ := Option.isSome_iff_exists.mp labelled
    by_contra dropped
    obtain ⟨before, after, split⟩ := List.append_of_mem member
    obtain ⟨entry, found, isDefined, -, -⟩ := defined before instr after label split isLabel
    -- the definition comes from another statement with the same name
    obtain ⟨front, other, back, otherSplit, otherLabel, -, -⟩ :=
      labels.sound label entry.offset entry.section?
        (symtableLookupEx_eq_some.mpr ⟨entry, found, isDefined, rfl, rfl⟩)
    have enters : EntersLabel other := by
      by_contra skipped
      rw [definedLabel?, if_neg skipped] at otherLabel
      contradiction
    have otherName : other.label = some label := by
      rw [definedLabel?, if_pos enters] at otherLabel
      exact otherLabel
    have different : other ≠ instr := fun same => dropped (same ▸ enters)
    have otherMember : other ∈ before ∨ other ∈ after := by
      have inData : other ∈ instructions.data := by rw [otherSplit]; simp
      rw [split, List.mem_append, List.mem_cons] at inData
      rcases inData with inBefore | same | inAfter
      · exact .inl inBefore
      · exact absurd same different
      · exact .inr inAfter
    rw [LabelsDistinct, split, List.filterMap_append, List.filterMap_cons_some isLabel,
      List.nodup_append] at distinct
    obtain ⟨-, tail, apart⟩ := distinct
    rcases otherMember with inBefore | inAfter
    · exact apart label (List.mem_filterMap.mpr ⟨other, inBefore, otherName⟩) label
        List.mem_cons_self rfl
    · exact (List.nodup_cons.mp tail).1 (List.mem_filterMap.mpr ⟨other, inAfter, otherName⟩)
  · intro entered
    have same : ∀ instr ∈ instructions.data, definedLabel? instr = instr.label := by
      intro instr member
      cases isLabel : instr.label with
      | none => simp [definedLabel?, isLabel]
      | some label =>
          have enters : EntersLabel instr := entered instr member (by simp [isLabel])
          rw [definedLabel?, if_pos enters, isLabel]
    refine ⟨fun before instr after label split isLabel => ?_, ?_⟩
    · have defined : definedLabel? instr = some label :=
        (same instr (by rw [split]; simp)).trans isLabel
      have found := labels.complete before instr after label split defined
      rw [Layout.offset, currentSection_eq] at found
      obtain ⟨entry, isEntry, isDefined, isSection, isOffset⟩ := symtableLookupEx_eq_some.mp found
      refine ⟨entry, isEntry, isDefined, isSection, ?_⟩
      rw [isOffset, ← pass1Walk_layout accepted split]
      rfl
    · rw [LabelsDistinct, ← List.filterMap_congr same]
      exact labels.distinct

theorem labels_kept_iff_atReturn :
    errorHasAny (pass1Run (sourceInstructions ⟨utf8 "أ: ارجع\n", none⟩)).errors = false ∧
      ((LabelsDefined (sourceInstructions ⟨utf8 "أ: ارجع\n", none⟩) ∧
        LabelsDistinct (sourceInstructions ⟨utf8 "أ: ارجع\n", none⟩)) ↔
      ∀ instr ∈ (sourceInstructions ⟨utf8 "أ: ارجع\n", none⟩).data, instr.label.isSome = true →
        instr.directiveKind = .none ∨ isDataDirective instr.directiveKind = true) :=
  ⟨by decide +kernel, labels_kept_iff _ (by decide +kernel)⟩

/-- Two section directives after one label: both definitions are dropped, and
the second is not reported. -/
def labelledSections : SourceBuffer := ⟨utf8 "أ: .بيانات\nأ: .نص\n", none⟩

theorem labels_lost_on_sections :
    Accepted labelledSections ∧ ¬ LabelsDefined (sourceInstructions labelledSections) ∧
      ¬ LabelsDistinct (sourceInstructions labelledSections) := by
  have given : (sourceInstructions labelledSections).data.filterMap (fun instr => instr.label) =
      [utf8 "أ", utf8 "أ"] := by decide +kernel
  have absent : findEntry (pass1Run (sourceInstructions labelledSections)).symtable (utf8 "أ") =
      none := by decide +kernel
  refine ⟨by decide +kernel, not_labelsDefined ?_ absent, ?_⟩
  · rw [given]
    exact List.mem_cons_self
  · rw [LabelsDistinct, given]
    decide +kernel

end Nazm.Passes
