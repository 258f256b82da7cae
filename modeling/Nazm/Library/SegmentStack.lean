import Mathlib.Data.List.Basic

/-!
Stacks of segments.

Owns the segments that a separated text leaves on a stack when a segment can stand
for nothing or for taking one off, the text of a stack, and that the two undo each
other on stacks of plain segments.

Does not own any kind of path.
-/

namespace SegmentStack

variable {α : Type} [DecidableEq α]

/-- The segments with a meaning: `here` stands for nothing, `up` takes one off. -/
structure Marks (α : Type) where
  separator : α
  here : List α
  up : List α

variable (marks : Marks α)

/-- What one segment does to the stack, whose top is last. -/
def step (stack : List (List α)) (segment : List α) : List (List α) :=
  if segment = [] ∨ segment = marks.here then stack
  else if segment = marks.up then stack.dropLast
  else stack ++ [segment]

/-- The stack after the segments of a text, left to right. -/
def resolve (stack : List (List α)) (text : List α) : List (List α) :=
  (text.splitOn marks.separator).foldl (step marks) stack

/-- A separator, then the segments with a separator between each two. -/
def rooted (stack : List (List α)) : List α :=
  marks.separator :: [marks.separator].intercalate stack

/-- What stands before a segment put on the stack. -/
def opened : List (List α) → List α
  | [] => [marks.separator]
  | top :: below => rooted marks (top :: below) ++ [marks.separator]

/-- A segment that stands for itself. -/
structure Plain (segment : List α) : Prop where
  notEmpty : segment ≠ []
  notHere : segment ≠ marks.here
  notUp : segment ≠ marks.up
  noSeparator : marks.separator ∉ segment

variable {marks} {stack : List (List α)} {segment text : List α}

/-! ## Reading a text -/

@[simp] theorem step_nil (stack : List (List α)) : step marks stack [] = stack := if_pos (.inl rfl)

@[simp] theorem resolve_nil (stack : List (List α)) : resolve marks stack [] = stack := by
  rw [resolve, List.splitOn_nil, List.foldl_cons, List.foldl_nil, step_nil]

/-- A separator in front changes nothing. -/
theorem resolve_separator (stack : List (List α)) (text : List α) :
    resolve marks stack (marks.separator :: text) = resolve marks stack text := by
  rw [resolve, List.splitOn_cons_eq_if_modifyHead, if_pos (beq_self_eq_true _), List.foldl_cons,
    step_nil, resolve]

theorem resolve_dropWhile_separator (stack : List (List α)) (text : List α) :
    resolve marks stack (text.dropWhile fun byte => byte = marks.separator) =
      resolve marks stack text := by
  induction text with
  | nil => rfl
  | cons head tail inductionHypothesis =>
      by_cases isSeparator : head = marks.separator
      · rw [List.dropWhile_cons_of_pos (by simpa using isSeparator), inductionHypothesis,
          isSeparator, resolve_separator]
      · rw [List.dropWhile_cons_of_neg (by simpa using isSeparator)]

/-- A segment up to the end or to the next separator. -/
theorem resolve_segment (noSeparator : marks.separator ∉ segment)
    (ends : text = [] ∨ text.head? = some marks.separator) :
    resolve marks stack (segment ++ text) = resolve marks (step marks stack segment) text := by
  rcases ends with rfl | starts
  · rw [List.append_nil, resolve_nil, resolve, List.splitOn_eq_singleton noSeparator]
    rfl
  · obtain ⟨rest, rfl⟩ := List.head?_eq_some_iff.mp starts
    rw [resolve_separator, resolve, List.splitOn_append_cons_self_of_not_mem noSeparator]
    rfl

theorem plain_step (plain : ∀ kept ∈ stack, Plain marks kept)
    (noSeparator : marks.separator ∉ segment) :
    ∀ kept ∈ step marks stack segment, Plain marks kept := by
  unfold step
  split
  · exact plain
  · next isMeant =>
      obtain ⟨notEmpty, notHere⟩ := not_or.mp isMeant
      split
      · exact fun kept member => plain kept ((List.dropLast_sublist stack).subset member)
      · next notUp =>
          intro kept member
          rcases List.mem_append.mp member with earlier | isNew
          · exact plain kept earlier
          · exact List.mem_singleton.mp isNew ▸ ⟨notEmpty, notHere, notUp, noSeparator⟩

theorem separator_notMem_of_mem_splitOn {separator : α}
    (member : segment ∈ text.splitOn separator) : separator ∉ segment := by
  induction text generalizing segment with
  | nil =>
      rw [List.splitOn_nil, List.mem_singleton] at member
      exact member ▸ List.not_mem_nil
  | cons head tail inductionHypothesis =>
      rw [List.splitOn_cons_eq_if_modifyHead] at member
      split at member
      · rcases List.mem_cons.mp member with rfl | later
        · exact List.not_mem_nil
        · exact inductionHypothesis later
      · next notSeparator =>
          cases pieces : tail.splitOn separator with
          | nil => exact absurd pieces (List.splitOn_ne_nil separator tail)
          | cons first rest =>
              rw [pieces] at member inductionHypothesis
              rcases List.mem_cons.mp member with rfl | later
              · rw [List.mem_cons, not_or]
                exact ⟨fun same => notSeparator (by simp [same]),
                  inductionHypothesis List.mem_cons_self⟩
              · exact inductionHypothesis (List.mem_cons_of_mem first later)

/-- A text leaves plain segments only. -/
theorem plain_resolve (plain : ∀ kept ∈ stack, Plain marks kept) :
    ∀ kept ∈ resolve marks stack text, Plain marks kept := by
  have noSeparator : ∀ segment ∈ text.splitOn marks.separator, marks.separator ∉ segment :=
    fun segment member => separator_notMem_of_mem_splitOn member
  unfold resolve
  revert noSeparator
  generalize text.splitOn marks.separator = segments
  intro noSeparator
  induction segments generalizing stack with
  | nil => exact plain
  | cons head tail inductionHypothesis =>
      exact inductionHypothesis (plain_step plain (noSeparator head List.mem_cons_self))
        fun segment member => noSeparator segment (List.mem_cons_of_mem head member)

/-! ## The text of a stack -/

theorem step_of_plain (plain : Plain marks segment) :
    step marks stack segment = stack ++ [segment] := by
  rw [step, if_neg (not_or.mpr ⟨plain.notEmpty, plain.notHere⟩), if_neg plain.notUp]

/-- The text of a stack gives the stack back. -/
theorem resolve_rooted (plain : ∀ kept ∈ stack, Plain marks kept) :
    resolve marks [] (rooted marks stack) = stack := by
  rw [rooted, resolve_separator]
  by_cases empty : stack = []
  · rw [empty]
    exact resolve_nil []
  · rw [resolve, List.splitOn_intercalate _ (fun kept member => (plain kept member).noSeparator)
      empty]
    suffices ∀ below, stack.foldl (step marks) below = below ++ stack from this []
    clear empty
    induction stack with
    | nil => exact fun below => (List.append_nil below).symm
    | cons head tail inductionHypothesis =>
        intro below
        rw [List.foldl_cons, step_of_plain (plain head List.mem_cons_self),
          inductionHypothesis fun kept member => plain kept (List.mem_cons_of_mem head member),
          List.append_assoc, List.singleton_append]

omit [DecidableEq α] in
theorem intercalate_append_singleton (separator : List α) (some_ : stack ≠ []) :
    separator.intercalate (stack ++ [segment]) =
      separator.intercalate stack ++ separator ++ segment := by
  induction stack with
  | nil => contradiction
  | cons head tail inductionHypothesis =>
      cases tail with
      | nil => simp [List.intercalate_cons_cons]
      | cons next tail =>
          have rest := inductionHypothesis (List.cons_ne_nil next tail)
          rw [List.cons_append, List.cons_append, List.intercalate_cons_cons,
            List.intercalate_cons_cons, ← List.cons_append, rest]
          simp only [List.append_assoc]

omit [DecidableEq α] in
/-- A segment put on the stack is written behind what opens it. -/
theorem rooted_append_singleton (stack : List (List α)) (segment : List α) :
    rooted marks (stack ++ [segment]) = opened marks stack ++ segment := by
  cases stack with
  | nil =>
      rw [List.nil_append, rooted, List.intercalate_singleton]
      rfl
  | cons top below =>
      rw [opened, rooted, rooted, intercalate_append_singleton _ (List.cons_ne_nil top below)]
      simp only [List.cons_append, List.append_assoc]

omit [DecidableEq α] in
theorem opened_of_ne_nil (some_ : stack ≠ []) :
    opened marks stack = rooted marks stack ++ [marks.separator] := by
  cases stack with
  | nil => contradiction
  | cons top below => rfl

omit [DecidableEq α] in
/-- The text is the separator alone for the empty stack only. -/
theorem length_rooted_eq_one (plain : ∀ kept ∈ stack, Plain marks kept) :
    (rooted marks stack).length = 1 ↔ stack = [] := by
  constructor
  · intro alone
    rcases List.eq_nil_or_concat stack with empty | ⟨below, top, isStack⟩
    · exact empty
    · rw [List.concat_eq_append] at isStack
      have member : top ∈ stack := by
        rw [isStack]
        exact List.mem_append_right below (List.mem_singleton_self top)
      have positive := List.length_pos_iff.mpr (plain top member).notEmpty
      have opens : 0 < (opened marks below).length := by
        cases below <;> simp [opened]
      rw [isStack, rooted_append_singleton, List.length_append] at alone
      omega
  · rintro rfl
    rfl

/-! ## What the segments are made of -/

omit [DecidableEq α] in
theorem mem_intercalate_of_mem {separator : List α} {member : α} (inSegment : member ∈ segment)
    (inStack : segment ∈ stack) : member ∈ separator.intercalate stack := by
  induction stack with
  | nil => contradiction
  | cons head tail inductionHypothesis =>
      cases tail with
      | nil =>
          rw [List.intercalate_singleton]
          exact List.mem_singleton.mp inStack ▸ inSegment
      | cons next tail =>
          rw [List.intercalate_cons_cons]
          rcases List.mem_cons.mp inStack with rfl | later
          · exact List.mem_append_left _ (List.mem_append_left _ inSegment)
          · exact List.mem_append_right _ (inductionHypothesis later)

omit [DecidableEq α] in
theorem of_mem_intercalate {separator : List α} {member : α}
    (inText : member ∈ separator.intercalate stack) :
    member ∈ separator ∨ ∃ segment ∈ stack, member ∈ segment := by
  induction stack with
  | nil => contradiction
  | cons head tail inductionHypothesis =>
      cases tail with
      | nil =>
          rw [List.intercalate_singleton] at inText
          exact .inr ⟨head, List.mem_cons_self, inText⟩
      | cons next tail =>
          rw [List.intercalate_cons_cons] at inText
          rcases List.mem_append.mp inText with front | later
          · rcases List.mem_append.mp front with inHead | inSeparator
            · exact .inr ⟨head, List.mem_cons_self, inHead⟩
            · exact .inl inSeparator
          · rcases inductionHypothesis later with inSeparator | ⟨segment, inStack, inSegment⟩
            · exact .inl inSeparator
            · exact .inr ⟨segment, List.mem_cons_of_mem head inStack, inSegment⟩

theorem mem_foldl_step {segments : List (List α)}
    (kept : segment ∈ segments.foldl (step marks) stack) :
    segment ∈ stack ∨ segment ∈ segments := by
  induction segments generalizing stack with
  | nil => exact .inl kept
  | cons head tail inductionHypothesis =>
      rcases inductionHypothesis kept with stepped | later
      · unfold step at stepped
        split at stepped
        · exact .inl stepped
        · split at stepped
          · exact .inl ((List.dropLast_sublist stack).subset stepped)
          · rcases List.mem_append.mp stepped with earlier | isHead
            · exact .inl earlier
            · exact .inr (List.mem_singleton.mp isHead ▸ List.mem_cons_self)
      · exact .inr (List.mem_cons_of_mem head later)

/-- The text of the stack of a text has no letters of its own but the separator. -/
theorem of_mem_rooted_resolve {member : α} (inText : member ∈ rooted marks (resolve marks [] text)) :
    member = marks.separator ∨ member ∈ text := by
  rcases List.mem_cons.mp inText with isSeparator | inSegments
  · exact .inl isSeparator
  · rcases of_mem_intercalate inSegments with inSeparator | ⟨segment, inStack, inSegment⟩
    · exact .inl (List.mem_singleton.mp inSeparator)
    · rcases mem_foldl_step inStack with none | inSplit
      · contradiction
      · have joined : [marks.separator].intercalate (text.splitOn marks.separator) = text :=
          List.intercalate_splitOn marks.separator
        exact .inr (joined ▸ mem_intercalate_of_mem inSegment inSplit)

end SegmentStack
