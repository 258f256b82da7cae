import Mathlib.Data.List.Basic

/-!
Fields of a list and edits of them.

Owns slices, edits that replace a field by a function of what stood there, and
sequences of edits of fields that do not overlap: each field gets its own edit,
everything else keeps what it held, and two sequences that agree field by field
have the same effect.

Does not own what is written into a field.
-/

namespace FieldEdits

variable {α : Type}

/-! ## Slices -/

/-- The elements from an offset on, `width` of them. -/
def slice (list : List α) (offset width : Nat) : List α := (list.drop offset).take width

theorem length_slice {list : List α} {offset width : Nat} (inside : offset + width ≤ list.length) :
    (slice list offset width).length = width := by
  rw [slice, List.length_take, List.length_drop]
  omega

theorem slice_middle (front middle back : List α) :
    slice (front ++ middle ++ back) front.length middle.length = middle := by
  rw [slice, List.append_assoc, List.drop_left, List.take_left]

theorem slice_slice (list : List α) {offset width inner count : Nat}
    (within : inner + count ≤ width) :
    slice (slice list offset width) inner count = slice list (offset + inner) count := by
  rw [slice, slice, slice, List.drop_take, List.drop_drop, List.take_take,
    Nat.min_eq_left (by omega)]

theorem slice_append_left {front back : List α} {offset width : Nat}
    (inside : offset + width ≤ front.length) :
    slice (front ++ back) offset width = slice front offset width := by
  rw [slice, slice, List.drop_append_of_le_length (by omega), List.take_append_of_le_length]
  rw [List.length_drop]
  omega

theorem slice_append_right {front back : List α} {offset width : Nat} :
    slice (front ++ back) (front.length + offset) width = slice back offset width := by
  rw [slice, slice, ← List.drop_drop, List.drop_left]

/-- Two fields side by side. -/
theorem slice_add (list : List α) (offset first second : Nat) :
    slice list offset (first + second) =
      slice list offset first ++ slice list (offset + first) second := by
  rw [slice, slice, slice, List.take_add, List.drop_drop]

/-- An element of a list of fields of one width. -/
theorem slice_flatMap {β : Type} {field : β → List α} {width : Nat}
    (uniform : ∀ element, (field element).length = width) {elements : List β} {index : Nat}
    {element : β} (isElement : elements[index]? = some element) :
    slice (elements.flatMap field) (index * width) width = field element := by
  induction elements generalizing index with
  | nil => contradiction
  | cons head elements inductionHypothesis =>
      cases index with
      | zero =>
          rw [List.getElem?_cons_zero, Option.some.injEq] at isElement
          subst isElement
          rw [List.flatMap_cons, Nat.zero_mul, slice_append_left (by rw [uniform]; omega), slice,
            List.drop_zero, List.take_of_length_le (Nat.le_of_eq (uniform _))]
      | succ index =>
          rw [List.getElem?_cons_succ] at isElement
          have start : (index + 1) * width = (field head).length + index * width := by
            rw [uniform, Nat.succ_mul, Nat.add_comm]
          rw [List.flatMap_cons, start, slice_append_right, inductionHypothesis isElement]

/-- A list is what stands before a field, the field and what stands after it. -/
theorem take_slice_drop (list : List α) (offset width : Nat) :
    list.take offset ++ slice list offset width ++ list.drop (offset + width) = list := by
  rw [slice, List.append_assoc, ← List.drop_drop, List.take_append_drop, List.take_append_drop]

/-! ## One edit -/

/-- Replace a field by a function of what stands there. -/
structure Edit (α : Type) where
  offset : Nat
  width : Nat
  change : List α → List α
  keeps : ∀ field, field.length = width → (change field).length = width

namespace Edit

def Inside (edit : Edit α) (list : List α) : Prop := edit.offset + edit.width ≤ list.length

/-- The fields of two edits have no element in common. -/
def Apart (first second : Edit α) : Prop :=
  first.offset + first.width ≤ second.offset ∨ second.offset + second.width ≤ first.offset

def apply (edit : Edit α) (list : List α) : List α :=
  list.take edit.offset ++ edit.change (slice list edit.offset edit.width) ++
    list.drop (edit.offset + edit.width)

variable {edit : Edit α} {list : List α}

theorem length_change (inside : edit.Inside list) :
    (edit.change (slice list edit.offset edit.width)).length = edit.width :=
  edit.keeps _ (length_slice inside)

theorem length_apply (inside : edit.Inside list) : (edit.apply list).length = list.length := by
  have changed := length_change inside
  unfold Inside at inside
  simp only [apply, List.length_append, changed, List.length_take, List.length_drop]
  omega

theorem slice_apply_self (inside : edit.Inside list) :
    slice (edit.apply list) edit.offset edit.width =
      edit.change (slice list edit.offset edit.width) := by
  have front : (list.take edit.offset).length = edit.offset := by
    unfold Inside at inside
    rw [List.length_take]
    omega
  have middle := slice_middle (list.take edit.offset)
    (edit.change (slice list edit.offset edit.width)) (list.drop (edit.offset + edit.width))
  rwa [front, length_change inside] at middle

/-- A field that an edit does not touch. -/
theorem slice_apply_of_apart {offset width : Nat} (inside : edit.Inside list)
    (apart : offset + width ≤ edit.offset ∨ edit.offset + edit.width ≤ offset) :
    slice (edit.apply list) offset width = slice list offset width := by
  have front : (list.take edit.offset).length = edit.offset := by
    unfold Inside at inside
    rw [List.length_take]
    omega
  have changed := length_change inside
  rcases apart with before | after
  · have left : offset + width ≤ (list.take edit.offset).length := by omega
    calc slice (edit.apply list) offset width
        = slice (list.take edit.offset) offset width := by
          rw [apply, List.append_assoc, slice_append_left left]
      _ = slice list offset width := by
          conv_rhs => rw [← List.take_append_drop edit.offset list]
          rw [slice_append_left left]
  · obtain ⟨rest, rfl⟩ := Nat.exists_eq_add_of_le after
    have frontLength : (list.take edit.offset ++
        edit.change (slice list edit.offset edit.width)).length = edit.offset + edit.width := by
      rw [List.length_append, front, changed]
    have shifted := @slice_append_right _ (list.take edit.offset ++
      edit.change (slice list edit.offset edit.width)) (list.drop (edit.offset + edit.width)) rest
      width
    rw [frontLength] at shifted
    rw [apply, shifted, slice, slice, List.drop_drop]

end Edit

/-! ## Sequences of edits -/

/-- Apply edits one after the other. -/
def applyAll (edits : List (Edit α)) (list : List α) : List α :=
  edits.foldl (fun list edit => edit.apply list) list

@[simp] theorem applyAll_nil (list : List α) : applyAll [] list = list := rfl

@[simp] theorem applyAll_cons (edit : Edit α) (edits : List (Edit α)) (list : List α) :
    applyAll (edit :: edits) list = applyAll edits (edit.apply list) := rfl

theorem inside_apply {edit other : Edit α} {list : List α} (inside : edit.Inside list)
    (otherInside : other.Inside list) : other.Inside (edit.apply list) := by
  unfold Edit.Inside
  rw [Edit.length_apply inside]
  exact otherInside

theorem length_applyAll {edits : List (Edit α)} {list : List α}
    (inside : ∀ edit ∈ edits, edit.Inside list) :
    (applyAll edits list).length = list.length := by
  induction edits generalizing list with
  | nil => rfl
  | cons edit edits inductionHypothesis =>
      have first := inside edit List.mem_cons_self
      rw [applyAll_cons, inductionHypothesis, Edit.length_apply first]
      exact fun other member => inside_apply first (inside other (List.mem_cons_of_mem _ member))

theorem slice_applyAll_of_apart {edits : List (Edit α)} {list : List α} {offset width : Nat}
    (inside : ∀ edit ∈ edits, edit.Inside list)
    (apart : ∀ edit ∈ edits,
      offset + width ≤ edit.offset ∨ edit.offset + edit.width ≤ offset) :
    slice (applyAll edits list) offset width = slice list offset width := by
  induction edits generalizing list with
  | nil => rfl
  | cons edit edits inductionHypothesis =>
      have first := inside edit List.mem_cons_self
      rw [applyAll_cons, inductionHypothesis,
        Edit.slice_apply_of_apart first (apart edit List.mem_cons_self)]
      · exact fun other member => inside_apply first (inside other (List.mem_cons_of_mem _ member))
      · exact fun other member => apart other (List.mem_cons_of_mem _ member)

/-- Each field ends up with its own edit. -/
theorem slice_applyAll_of_mem {edits : List (Edit α)} {list : List α} {edit : Edit α}
    (inside : ∀ edit ∈ edits, edit.Inside list) (apart : edits.Pairwise Edit.Apart)
    (member : edit ∈ edits) :
    slice (applyAll edits list) edit.offset edit.width =
      edit.change (slice list edit.offset edit.width) := by
  induction edits generalizing list with
  | nil => contradiction
  | cons head edits inductionHypothesis =>
      obtain ⟨headApart, tailApart⟩ := List.pairwise_cons.mp apart
      have first := inside head List.mem_cons_self
      have tailInside : ∀ other ∈ edits, other.Inside (head.apply list) := fun other inTail =>
        inside_apply first (inside other (List.mem_cons_of_mem _ inTail))
      rcases List.mem_cons.mp member with rfl | inTail
      · rw [applyAll_cons, slice_applyAll_of_apart tailInside headApart,
          Edit.slice_apply_self first]
      · rw [applyAll_cons, inductionHypothesis tailInside tailApart inTail,
          Edit.slice_apply_of_apart first (headApart edit inTail).symm]

/-- Two edits of one field that do the same to what stands there. -/
structure Edit.Agree (list : List α) (first second : Edit α) : Prop where
  offset : first.offset = second.offset
  width : first.width = second.width
  change : first.change (slice list first.offset first.width) =
    second.change (slice list second.offset second.width)

theorem Edit.Agree.apply {list : List α} {first second : Edit α} (agree : Agree list first second) :
    first.apply list = second.apply list := by
  have change := agree.change
  rw [Edit.apply, Edit.apply, change, agree.offset, agree.width]

/-- Edits of fields that do not overlap only depend on the fields as they were. -/
theorem applyAll_congr {first second : List (Edit α)} {list : List α}
    (agree : List.Forall₂ (Edit.Agree list) first second)
    (inside : ∀ edit ∈ first, edit.Inside list) (apart : first.Pairwise Edit.Apart) :
    applyAll first list = applyAll second list := by
  induction first generalizing second list with
  | nil =>
      cases agree
      rfl
  | cons head tail inductionHypothesis =>
      obtain ⟨other, rest, headAgree, tailAgree, rfl⟩ :
          ∃ other rest, Edit.Agree list head other ∧
            List.Forall₂ (Edit.Agree list) tail rest ∧ second = other :: rest := by
        cases agree with
        | cons headAgree tailAgree => exact ⟨_, _, headAgree, tailAgree, rfl⟩
      obtain ⟨headApart, tailApart⟩ := List.pairwise_cons.mp apart
      have headInside := inside head List.mem_cons_self
      have sameHead := headAgree.apply
      rw [applyAll_cons, applyAll_cons, ← sameHead]
      refine inductionHypothesis ?_ ?_ tailApart
      · -- the edits of the tail see their fields unchanged
        have kept : ∀ edit ∈ tail, ∀ other : Edit α, edit.Agree list other →
            edit.Agree (head.apply list) other := by
          intro edit member other agreeHere
          have untouched := Edit.slice_apply_of_apart headInside (headApart edit member).symm
          refine ⟨agreeHere.offset, agreeHere.width, ?_⟩
          have change := agreeHere.change
          rw [← agreeHere.offset, ← agreeHere.width] at change ⊢
          rw [untouched, change]
        clear inductionHypothesis agree headApart tailApart inside apart
        induction tailAgree with
        | nil => exact List.Forall₂.nil
        | cons agreeHere _ induction =>
            refine List.Forall₂.cons (kept _ List.mem_cons_self _ agreeHere) (induction ?_)
            exact fun edit member => kept edit (List.mem_cons_of_mem _ member)
      · exact fun edit member =>
          inside_apply headInside (inside edit (List.mem_cons_of_mem _ member))

/-! ## Edits that change nothing -/

namespace Edit

/-- An edit that leaves every field as it is. -/
def Idle (edit : Edit α) : Prop := ∀ field, field.length = edit.width → edit.change field = field

/-- Two edits of one field that do the same to it, whatever stands there. -/
structure Same (first second : Edit α) : Prop where
  offset : first.offset = second.offset
  width : first.width = second.width
  change : ∀ field, field.length = first.width → first.change field = second.change field

theorem Idle.apply {edit : Edit α} {list : List α} (idle : edit.Idle) (inside : edit.Inside list) :
    edit.apply list = list := by
  rw [Edit.apply, idle _ (length_slice inside), take_slice_drop]

theorem Same.apply {first second : Edit α} {list : List α} (same : Same first second)
    (inside : first.Inside list) : first.apply list = second.apply list := by
  have change := same.change _ (length_slice inside)
  rw [Edit.apply, Edit.apply, change, same.offset, same.width]

end Edit

/-- Edits that differ only in those that change nothing. -/
theorem applyAll_of_idle {first second : List (Edit α)} {list : List α}
    (alike : List.Forall₂ (fun one other => one.Same other ∨ one.Idle ∧ other.Idle) first second)
    (firstInside : ∀ edit ∈ first, edit.Inside list)
    (secondInside : ∀ edit ∈ second, edit.Inside list) :
    applyAll first list = applyAll second list := by
  induction alike generalizing list with
  | nil => rfl
  | @cons one other first second here _ inductionHypothesis =>
      have oneInside := firstInside one List.mem_cons_self
      have otherInside := secondInside other List.mem_cons_self
      have equal : one.apply list = other.apply list := by
        rcases here with same | ⟨oneIdle, otherIdle⟩
        · exact same.apply oneInside
        · rw [oneIdle.apply oneInside, otherIdle.apply otherInside]
      rw [applyAll_cons, applyAll_cons, ← equal]
      refine inductionHypothesis (fun edit member => ?_) fun edit member => ?_
      · exact inside_apply oneInside (firstInside edit (List.mem_cons_of_mem _ member))
      · exact inside_apply oneInside (secondInside edit (List.mem_cons_of_mem _ member))

/-- A field that every edit leaves alone or is apart from. -/
theorem slice_applyAll_of_idle {edits : List (Edit α)} {list : List α} {offset width : Nat}
    (inside : ∀ edit ∈ edits, edit.Inside list)
    (spared : ∀ edit ∈ edits, edit.Idle ∨
      offset + width ≤ edit.offset ∨ edit.offset + edit.width ≤ offset) :
    slice (applyAll edits list) offset width = slice list offset width := by
  induction edits generalizing list with
  | nil => rfl
  | cons edit edits inductionHypothesis =>
      have first := inside edit List.mem_cons_self
      have rest : ∀ other ∈ edits, other.Inside (edit.apply list) := fun other member =>
        inside_apply first (inside other (List.mem_cons_of_mem _ member))
      rw [applyAll_cons, inductionHypothesis rest fun other member =>
        spared other (List.mem_cons_of_mem _ member)]
      rcases spared edit List.mem_cons_self with idle | apart
      · rw [idle.apply first]
      · exact Edit.slice_apply_of_apart first apart

/-! ## Edits of a part -/

theorem applyAll_append (first second : List (Edit α)) (list : List α) :
    applyAll (first ++ second) list = applyAll second (applyAll first list) := by
  rw [applyAll, List.foldl_append]
  rfl

namespace Edit

/-- An edit of what stands behind `amount` elements. -/
def shift (amount : Nat) (edit : Edit α) : Edit α := { edit with offset := amount + edit.offset }

theorem apply_append {edit : Edit α} {front : List α} (inside : edit.Inside front)
    (back : List α) : edit.apply (front ++ back) = edit.apply front ++ back := by
  unfold Inside at inside
  rw [Edit.apply, Edit.apply, List.take_append_of_le_length (by omega), slice_append_left inside,
    List.drop_append_of_le_length inside]
  simp only [List.append_assoc]

theorem shift_apply_append (edit : Edit α) (front back : List α) :
    (edit.shift front.length).apply (front ++ back) = front ++ edit.apply back := by
  rw [Edit.apply, Edit.apply, shift]
  dsimp only
  rw [List.take_length_add_append, slice_append_right, Nat.add_assoc,
    List.drop_length_add_append]
  simp only [List.append_assoc]

end Edit

/-- Edits of the front leave the back alone. -/
theorem applyAll_append_left {edits : List (Edit α)} {front : List α}
    (inside : ∀ edit ∈ edits, edit.Inside front) (back : List α) :
    applyAll edits (front ++ back) = applyAll edits front ++ back := by
  induction edits generalizing front with
  | nil => rfl
  | cons edit edits inductionHypothesis =>
      have first := inside edit List.mem_cons_self
      rw [applyAll_cons, applyAll_cons, Edit.apply_append first]
      apply inductionHypothesis
      intro other member
      exact inside_apply first (inside other (List.mem_cons_of_mem _ member))

/-- Edits of the back leave the front alone. -/
theorem applyAll_shift (edits : List (Edit α)) (front back : List α) :
    applyAll (edits.map (Edit.shift front.length)) (front ++ back) =
      front ++ applyAll edits back := by
  induction edits generalizing back with
  | nil => rfl
  | cons edit edits inductionHypothesis =>
      rw [List.map_cons, applyAll_cons, applyAll_cons, Edit.shift_apply_append,
        inductionHypothesis]

end FieldEdits
