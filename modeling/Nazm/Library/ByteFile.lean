import Mathlib.Data.List.Forall2
import Nazm.Library.FieldEdits
import Nazm.Library.LittleEndian
import Nazm.Library.Tiling

/-!
Random access to the bytes of a file.

Owns the numbers and strings that a file holds at an offset, what it means that
bytes stand at an offset, records of fields, tables of records of one width,
string tables, files that are laid out chunk by chunk (each chunk stands at its
offset, and no two chunks overlap), and files that are put together from parts.

Does not own any file format.
-/

namespace ByteFile

open FieldEdits LittleEndian

/-! ## Bytes at an offset -/

/-- The bytes stand in a file at an offset. -/
structure Holds (file : List UInt8) (offset : Nat) (bytes : List UInt8) : Prop where
  inside : offset + bytes.length ≤ file.length
  same : slice file offset bytes.length = bytes

namespace Holds

variable {file bytes : List UInt8} {offset : Nat}

theorem whole (bytes : List UInt8) : Holds bytes 0 bytes :=
  ⟨by omega, by rw [slice, List.drop_zero, List.take_length]⟩

theorem middle (front bytes back : List UInt8) :
    Holds (front ++ bytes ++ back) front.length bytes :=
  ⟨by simp only [List.length_append]; omega, slice_middle front bytes back⟩

theorem last (file bytes : List UInt8) : Holds (file ++ bytes) file.length bytes := by
  have holds := middle file bytes []
  rwa [List.append_nil] at holds

/-- What is appended to a file moves nothing. -/
theorem append (holds : Holds file offset bytes) (more : List UInt8) :
    Holds (file ++ more) offset bytes where
  inside := by
    have inside := holds.inside
    rw [List.length_append]
    omega
  same := by rw [slice_append_left holds.inside, holds.same]

/-- A part of bytes that stand in a file. -/
theorem part {front back : List UInt8} (holds : Holds file offset (front ++ bytes ++ back)) :
    Holds file (offset + front.length) bytes := by
  have inside := holds.inside
  rw [List.length_append, List.length_append] at inside
  refine ⟨by omega, ?_⟩
  have within : front.length + bytes.length ≤ (front ++ bytes ++ back).length := by
    simp only [List.length_append]
    omega
  rw [← slice_slice file within, holds.same, slice_middle]

end Holds

/-- What is written over the bytes before an offset moves nothing after it. -/
theorem Holds.overwrite {file bytes : List UInt8} {offset place : Nat}
    (holds : Holds file offset bytes) {written : List UInt8}
    (before : place + written.length ≤ offset) :
    Holds (file.take place ++ written ++ file.drop (place + written.length)) offset bytes := by
  have inside := holds.inside
  have front : (file.take place ++ written).length = place + written.length := by
    rw [List.length_append, List.length_take, Nat.min_eq_left (by omega)]
  refine ⟨?_, ?_⟩
  · rw [List.length_append, front, List.length_drop]
    omega
  · have same := holds.same
    have start : offset = (file.take place ++ written).length +
        (offset - (place + written.length)) := by
      rw [front]
      omega
    rw [start, slice_append_right, slice, List.drop_drop,
      show place + written.length + (offset - (place + written.length)) = offset by omega]
    exact same

/-! ## Numbers -/

/-- The number in `width` bytes at an offset, lowest byte first. -/
def word (file : List UInt8) (offset width : Nat) : Nat := value (slice file offset width)

theorem Holds.word_eq {file bytes : List UInt8} {offset : Nat} (holds : Holds file offset bytes)
    {inner width : Nat} (within : inner + width ≤ bytes.length) :
    word file (offset + inner) width = word bytes inner width := by
  rw [word, word, ← slice_slice file within, holds.same]

/-! ## Records of one width -/

theorem length_flatMap_uniform {α : Type} {render : α → List UInt8} {width : Nat}
    (uniform : ∀ record, (render record).length = width) (records : List α) :
    (records.flatMap render).length = records.length * width := by
  induction records with
  | nil => simp
  | cons record records inductionHypothesis =>
      rw [List.flatMap_cons, List.length_append, uniform, inductionHypothesis, List.length_cons,
        Nat.succ_mul, Nat.add_comm]

/-- A record of a table that stands in a file. -/
theorem Holds.record {α : Type} {render : α → List UInt8} {width : Nat}
    (uniform : ∀ record, (render record).length = width) {file : List UInt8} {offset : Nat}
    {records : List α} (holds : Holds file offset (records.flatMap render)) {index : Nat}
    {record : α} (isRecord : records[index]? = some record) :
    Holds file (offset + index * width) (render record) := by
  obtain ⟨inRange, isElement⟩ := List.getElem?_eq_some_iff.mp isRecord
  have front : ((records.take index).flatMap render).length = index * width := by
    rw [length_flatMap_uniform uniform, List.length_take, Nat.min_eq_left (by omega)]
  have split : records.flatMap render = (records.take index).flatMap render ++ render record ++
      (records.drop (index + 1)).flatMap render := by
    conv_lhs => rw [← List.take_append_drop index records, List.drop_eq_getElem_cons inRange,
      isElement]
    rw [List.flatMap_append, List.flatMap_cons, List.append_assoc]
  rw [split] at holds
  rw [← front]
  exact holds.part

/-- A list of results, element by element. -/
theorem mapM_eq_some {α β : Type} {f : α → Option β} {elements : List α} {results : List β}
    (each : List.Forall₂ (fun element result => f element = some result) elements results) :
    elements.mapM f = some results := by
  induction each with
  | nil => rfl
  | cons head _ inductionHypothesis =>
      rw [List.mapM_cons, head, inductionHypothesis]
      rfl

theorem forall₂_of_mapM {α β : Type} {f : α → Option β} {elements : List α} {results : List β}
    (mapped : elements.mapM f = some results) :
    List.Forall₂ (fun element result => f element = some result) elements results := by
  induction elements generalizing results with
  | nil =>
      obtain rfl := Option.some.inj mapped
      exact .nil
  | cons element elements inductionHypothesis =>
      rw [List.mapM_cons] at mapped
      cases head : f element with
      | none =>
          rw [head] at mapped
          contradiction
      | some result =>
          cases tail : elements.mapM f with
          | none =>
              rw [head, tail] at mapped
              contradiction
          | some rest =>
              rw [head, tail] at mapped
              obtain rfl := Option.some.inj mapped
              exact .cons head (inductionHypothesis tail)

/-- A table of records that each are read. -/
theorem mapM_range {β : Type} {read : Nat → Option β} {results : List β}
    (each : ∀ index result, results[index]? = some result → read index = some result) :
    (List.range results.length).mapM read = some results := by
  refine mapM_eq_some (List.forall₂_iff_get.mpr ⟨List.length_range, fun index first second => ?_⟩)
  rw [List.get_eq_getElem, List.getElem_range]
  exact each index _ (List.getElem?_eq_getElem second)

/-! ## Records of fields -/

/-- Numbers of given widths, one after the other. -/
def fields (record : List (Nat × Nat)) : List UInt8 :=
  record.flatMap fun (width, number) => bytes width number

def widths (record : List (Nat × Nat)) : Nat := (record.map Prod.fst).sum

theorem length_fields (record : List (Nat × Nat)) : (fields record).length = widths record := by
  induction record with
  | nil => rfl
  | cons field record inductionHypothesis =>
      rw [fields, List.flatMap_cons, List.length_append, length_bytes, widths, List.map_cons,
        List.sum_cons]
      exact congrArg (field.1 + ·) inductionHypothesis

/-- A field of a record that stands in a file. -/
theorem Holds.field {file : List UInt8} {offset : Nat} {record : List (Nat × Nat)}
    (holds : Holds file offset (fields record)) {index width number : Nat}
    (isField : record[index]? = some (width, number)) (fits : number < 256 ^ width) :
    word file (offset + widths (record.take index)) width = number := by
  obtain ⟨inRange, isElement⟩ := List.getElem?_eq_some_iff.mp isField
  have split : fields record = fields (record.take index) ++ bytes width number ++
      fields (record.drop (index + 1)) := by
    conv_lhs => rw [← List.take_append_drop index record, List.drop_eq_getElem_cons inRange,
      isElement]
    rw [fields, List.flatMap_append, List.flatMap_cons, List.append_assoc]
    rfl
  rw [split] at holds
  have part := holds.part
  rw [length_fields] at part
  have same := part.same
  rw [length_bytes] at same
  rw [word, same, value_bytes_of_lt fits]

/-! ## Strings -/

/-- The string that starts at an offset of a table, where it ends in a NUL. -/
def stringAt (table : List UInt8) (offset : Nat) : Option (List UInt8) :=
  if 0 ∈ table.drop offset then some ((table.drop offset).takeWhile fun byte => byte ≠ 0) else none

theorem takeWhile_string {name back : List UInt8} (clean : 0 ∉ name) :
    (name ++ 0 :: back).takeWhile (fun byte => byte ≠ 0) = name := by
  induction name with
  | nil => simp
  | cons byte name inductionHypothesis =>
      rw [List.mem_cons, not_or] at clean
      rw [List.cons_append, List.takeWhile_cons_of_pos (by simpa using Ne.symm clean.1),
        inductionHypothesis clean.2]

theorem stringAt_middle {front name back : List UInt8} (clean : 0 ∉ name) :
    stringAt (front ++ name ++ 0 :: back) front.length = some name := by
  rw [stringAt, List.append_assoc, List.drop_left, if_pos (by simp), takeWhile_string clean]

/-- Strings with their NULs, one after the other. -/
def strings (names : List (List UInt8)) : List UInt8 := names.flatMap fun name => name ++ [0]

theorem strings_append (first second : List (List UInt8)) :
    strings (first ++ second) = strings first ++ strings second :=
  List.flatMap_append

/-- A string of a table, at the offset after the strings before it. -/
theorem stringAt_strings {front : List UInt8} {names : List (List UInt8)} {index : Nat}
    {name : List UInt8} (isName : names[index]? = some name) (clean : 0 ∉ name) :
    stringAt (front ++ strings names) (front.length + (strings (names.take index)).length) =
      some name := by
  obtain ⟨inRange, isElement⟩ := List.getElem?_eq_some_iff.mp isName
  have split : strings names = strings (names.take index) ++ (name ++ [0]) ++
      strings (names.drop (index + 1)) := by
    conv_lhs => rw [← List.take_append_drop index names, List.drop_eq_getElem_cons inRange,
      isElement]
    rw [strings_append, strings, strings, List.flatMap_cons, ← List.append_assoc]
    rfl
  have placed := @stringAt_middle (front ++ strings (names.take index)) name
    (strings (names.drop (index + 1))) clean
  rw [List.length_append] at placed
  rw [split, ← placed]
  simp

/-! ## Files laid out chunk by chunk -/

/-- The bytes that lead to the next multiple of the alignment. -/
def padding (alignment length : Nat) : Nat := (alignment - length % alignment) % alignment

structure Chunk where
  present : Bool
  alignment : Nat
  bytes : List UInt8

/-- Append a chunk at its alignment, where it is present: its offset, and the file. -/
def Chunk.lay (chunk : Chunk) (file : List UInt8) : Nat × List UInt8 :=
  if chunk.present then
    let aligned := file ++ List.replicate (padding chunk.alignment file.length) 0
    (aligned.length, aligned ++ chunk.bytes)
  else (0, file)

/-- Lay out chunks one after the other: their offsets, and the file. -/
def lay : List Chunk → List UInt8 → List Nat × List UInt8
  | [], file => ([], file)
  | chunk :: chunks, file =>
      let (offset, file) := chunk.lay file
      let (offsets, file) := lay chunks file
      (offset :: offsets, file)

variable {chunks : List Chunk} {file : List UInt8}

theorem Chunk.lay_extends (chunk : Chunk) (file : List UInt8) :
    ∃ added, (chunk.lay file).2 = file ++ added := by
  unfold Chunk.lay
  split
  · exact ⟨_, List.append_assoc _ _ _⟩
  · exact ⟨[], (List.append_nil _).symm⟩

theorem lay_extends (chunks : List Chunk) (file : List UInt8) :
    ∃ added, (lay chunks file).2 = file ++ added := by
  induction chunks generalizing file with
  | nil => exact ⟨[], (List.append_nil _).symm⟩
  | cons chunk chunks inductionHypothesis =>
      obtain ⟨first, isFirst⟩ := chunk.lay_extends file
      obtain ⟨rest, isRest⟩ := inductionHypothesis (chunk.lay file).2
      exact ⟨first ++ rest, by rw [lay, isRest, isFirst, List.append_assoc]⟩

@[simp] theorem length_lay (chunks : List Chunk) (file : List UInt8) :
    (lay chunks file).1.length = chunks.length := by
  induction chunks generalizing file with
  | nil => rfl
  | cons chunk chunks inductionHypothesis => rw [lay, List.length_cons, inductionHypothesis]; rfl

/-- A present chunk stands at its offset, after what was there before. -/
theorem lay_holds {index offset : Nat} {chunk : Chunk} (isChunk : chunks[index]? = some chunk)
    (isOffset : (lay chunks file).1[index]? = some offset) (present : chunk.present = true) :
    Holds (lay chunks file).2 offset chunk.bytes ∧ file.length ≤ offset := by
  induction chunks generalizing file index with
  | nil => contradiction
  | cons head chunks inductionHypothesis =>
      obtain ⟨added, extended⟩ := lay_extends chunks (head.lay file).2
      rw [lay] at isOffset ⊢
      dsimp only at isOffset ⊢
      cases index with
      | zero =>
          rw [List.getElem?_cons_zero, Option.some.injEq] at isChunk isOffset
          subst isChunk
          rw [extended, ← isOffset, Chunk.lay, if_pos present]
          dsimp only
          refine ⟨(Holds.last _ _).append _, ?_⟩
          rw [List.length_append]
          omega
      | succ index =>
          rw [List.getElem?_cons_succ] at isChunk isOffset
          obtain ⟨holds, least⟩ := inductionHypothesis isChunk isOffset
          obtain ⟨first, isFirst⟩ := head.lay_extends file
          rw [isFirst, List.length_append] at least
          exact ⟨holds, by omega⟩

/-- Of two present chunks, the first ends before the second starts. -/
theorem lay_ordered {first second firstOffset secondOffset : Nat} {firstChunk secondChunk : Chunk}
    (isFirst : chunks[first]? = some firstChunk) (isSecond : chunks[second]? = some secondChunk)
    (firstIs : (lay chunks file).1[first]? = some firstOffset)
    (secondIs : (lay chunks file).1[second]? = some secondOffset)
    (firstPresent : firstChunk.present = true) (secondPresent : secondChunk.present = true)
    (less : first < second) : firstOffset + firstChunk.bytes.length ≤ secondOffset := by
  induction chunks generalizing file first second with
  | nil => contradiction
  | cons head chunks inductionHypothesis =>
      rw [lay] at firstIs secondIs
      dsimp only at firstIs secondIs
      cases second with
      | zero => omega
      | succ second =>
          rw [List.getElem?_cons_succ] at isSecond secondIs
          cases first with
          | zero =>
              rw [List.getElem?_cons_zero, Option.some.injEq] at isFirst firstIs
              subst isFirst
              have least := (lay_holds isSecond secondIs secondPresent).2
              rw [← firstIs]
              refine Nat.le_trans (Nat.le_of_eq ?_) least
              rw [Chunk.lay, if_pos firstPresent, List.length_append]
          | succ first =>
              rw [List.getElem?_cons_succ] at isFirst firstIs
              exact inductionHypothesis isFirst isSecond firstIs secondIs (by omega)

theorem padding_le (alignment length : Nat) : padding alignment length ≤ alignment :=
  Nat.le_trans (Nat.mod_le _ _) (Nat.sub_le _ _)

/-- A file is at most as long as its chunks and the paddings before them. -/
theorem length_lay_le (chunks : List Chunk) (file : List UInt8) :
    (lay chunks file).2.length ≤
      file.length + (chunks.map fun chunk => chunk.alignment + chunk.bytes.length).sum := by
  induction chunks generalizing file with
  | nil => exact Nat.le_add_right _ _
  | cons chunk chunks inductionHypothesis =>
      have rest := inductionHypothesis (chunk.lay file).2
      have head : (chunk.lay file).2.length ≤
          file.length + (chunk.alignment + chunk.bytes.length) := by
        have least := padding_le chunk.alignment file.length
        rw [Chunk.lay]
        split
        · simp only [List.length_append, List.length_replicate]
          omega
        · exact Nat.le_add_right _ _
      rw [lay, List.map_cons, List.sum_cons]
      dsimp only
      omega

/-! ## Files put together from parts -/

section Parts

variable {α : Type} [DecidableEq α]

/-- The offset of a part in the file that is put together from the parts. -/
def partOffset (render : α → List UInt8) (parts : List α) (part : α) : Nat :=
  ((parts.takeWhile fun other => decide (other ≠ part)).flatMap render).length

theorem partOffset_cons_self (render : α → List UInt8) (part : α) (parts : List α) :
    partOffset render (part :: parts) part = 0 := by
  rw [partOffset, List.takeWhile_cons_of_neg (by simp)]
  rfl

theorem partOffset_cons (render : α → List UInt8) {head part : α} (other : head ≠ part)
    (parts : List α) : partOffset render (head :: parts) part =
      (render head).length + partOffset render parts part := by
  rw [partOffset, List.takeWhile_cons_of_pos (by exact decide_eq_true other), List.flatMap_cons,
    List.length_append]
  rfl

/-- A part stands at its offset. -/
theorem part_holds (render : α → List UInt8) {parts : List α} {part : α} (member : part ∈ parts) :
    Holds (parts.flatMap render) (partOffset render parts part) (render part) := by
  have split : parts.flatMap render =
      (parts.takeWhile fun other => decide (other ≠ part)).flatMap render ++ render part ++
        (parts.dropWhile fun other => decide (other ≠ part)).tail.flatMap render := by
    induction parts with
    | nil => contradiction
    | cons head tail inductionHypothesis =>
        by_cases here : head = part
        · subst here
          rw [List.takeWhile_cons_of_neg (by simp), List.dropWhile_cons_of_neg (by simp)]
          rfl
        · have inTail := (List.mem_cons.mp member).resolve_left fun same => here same.symm
          rw [List.takeWhile_cons_of_pos (by exact decide_eq_true here),
            List.dropWhile_cons_of_pos (by exact decide_eq_true here), List.flatMap_cons,
            inductionHypothesis inTail, List.flatMap_cons]
          simp only [List.append_assoc]
  rw [split]
  exact Holds.middle _ _ _

/-- The parts lie one after the other, from the start of the file to its end. -/
theorem parts_contiguous (render : α → List UInt8) {parts : List α} (distinct : parts.Nodup) :
    Tiling.Contiguous (partOffset render parts) (fun part => (render part).length) 0 parts
      (parts.flatMap render).length := by
  have from_ : ∀ (start : Nat) (rest : List α) (offset : α → Nat), rest.Nodup →
      (∀ part ∈ rest, offset part = start + partOffset render rest part) →
      Tiling.Contiguous offset (fun part => (render part).length) start rest
        (start + (rest.flatMap render).length) := by
    intro start rest offset
    induction rest generalizing start with
    | nil => exact fun _ _ => rfl
    | cons head tail inductionHypothesis =>
        intro distinct offsets
        obtain ⟨notIn, distinctTail⟩ := List.nodup_cons.mp distinct
        have first := offsets head List.mem_cons_self
        rw [partOffset_cons_self] at first
        refine ⟨first, ?_⟩
        rw [List.flatMap_cons, List.length_append, ← Nat.add_assoc]
        refine inductionHypothesis _ distinctTail fun part inTail => ?_
        have other : head ≠ part := fun same => notIn (same ▸ inTail)
        rw [offsets part (List.mem_cons_of_mem _ inTail), partOffset_cons render other,
          Nat.add_assoc]
  have whole := from_ 0 parts (partOffset render parts) distinct fun _ _ => (Nat.zero_add _).symm
  rwa [Nat.zero_add] at whole

end Parts

end ByteFile
