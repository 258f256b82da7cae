import Nazm.Unicode.Codepoints
import Nazm.Passes.Directives

/-!
The paths of `.ملف_بايتات`.

Owns the lists of byte values that a path may be written as, its writing with
Arabic digits, and that the decoder reads exactly such lists.

Does not own what is done with the path of a debug file.
-/

namespace Nazm.Passes

open Unicode Utf8

/-! ## What a path is written as -/

/-- The Arabic comma. -/
def arabicComma : List UInt8 := [0xD8, 0x8C]

/-- The value of digits in front of which `value` was read. -/
def digitsFrom (value : Nat) (cps : List Nat) : Nat :=
  cps.foldl (fun value cp => value * 10 + (cp - 0x0660)) value

/-- One to three Arabic-Indic digits, for a byte between 1 and 255. -/
structure PathElement (text : List UInt8) (byte : UInt8) (cps : List Nat) : Prop where
  isText : Codepoints text cps
  digits : ∀ cp ∈ cps, 0x0660 ≤ cp ∧ cp ≤ 0x0669
  some_ : 1 ≤ cps.length
  three : cps.length ≤ 3
  value : digitsFrom 0 cps = byte.toNat
  positive : byte ≠ 0

/-- Elements with one comma between each two, and their bytes. -/
inductive PathList : List UInt8 → List UInt8 → Prop where
  | single {text : List UInt8} {byte : UInt8} {cps : List Nat} :
      PathElement text byte cps → PathList text [byte]
  | cons {text rest bytes : List UInt8} {byte : UInt8} {cps : List Nat} :
      PathElement text byte cps → PathList rest bytes →
        PathList (text ++ (arabicComma ++ rest)) (byte :: bytes)

/-- A number in decimal Arabic-Indic digits. -/
def arabicDecimal (number : Nat) : List UInt8 :=
  (Nat.toDigits 10 number).flatMap fun digit => [0xD9, UInt8.ofNat (digit.toNat - 0x30 + 0xA0)]

/-- A path as the values of its bytes, with a comma between each two. -/
def encodeDebugPath (path : List UInt8) : List UInt8 :=
  arabicComma.intercalate (path.map fun byte => arabicDecimal byte.toNat)

/-! ## Writing -/

theorem encodes_arabicComma : Encodes arabicComma 0x060C :=
  encodes_of_character (.two (by decide) (by decide) (by decide))

theorem encodes_arabicDigit {digit : Nat} (small : digit ≤ 9) :
    Encodes [0xD9, UInt8.ofNat (digit + 0xA0)] (digit + 0x0660) := by
  have isByte : (UInt8.ofNat (digit + 0xA0)).toNat = digit + 0xA0 := toNat_ofNat_small (by omega)
  have isTail : Tail (UInt8.ofNat (digit + 0xA0)) := by
    simp only [Tail, UInt8.le_iff_toNat_le, isByte, UInt8.reduceToNat]
    omega
  have isValue : value [0xD9, UInt8.ofNat (digit + 0xA0)] = digit + 0x0660 := by
    simp only [value, isByte, UInt8.reduceToNat]
    omega
  rw [← isValue]
  exact encodes_of_character (.two (by decide) (by decide) isTail)

/-- The codepoints of a number in Arabic-Indic digits. -/
def arabicDigits (number : Nat) : List Nat :=
  (Nat.toDigits 10 number).map fun digit => digit.toNat - 0x30 + 0x0660

theorem codepoints_arabicDigits {digits : List Char}
    (decimal : ∀ digit ∈ digits, digit.toNat - 0x30 ≤ 9) :
    Codepoints (digits.flatMap fun digit => [0xD9, UInt8.ofNat (digit.toNat - 0x30 + 0xA0)])
      (digits.map fun digit => digit.toNat - 0x30 + 0x0660) := by
  induction digits with
  | nil => exact .nil
  | cons digit digits inductionHypothesis =>
      rw [List.forall_mem_cons] at decimal
      exact .cons (encodes_arabicDigit decimal.1) (inductionHypothesis decimal.2)

/-- The decimal value of a byte is an element for it. -/
theorem pathElement_arabicDecimal {byte : UInt8} (positive : byte ≠ 0) :
    PathElement (arabicDecimal byte.toNat) byte (arabicDigits byte.toNat) := by
  have table : ∀ number : Fin 256,
      ((Nat.toDigits 10 number.val).all fun digit => digit.toNat - 0x30 ≤ 9) = true ∧
      1 ≤ (arabicDigits number.val).length ∧ (arabicDigits number.val).length ≤ 3 ∧
      digitsFrom 0 (arabicDigits number.val) = number.val := by decide +kernel
  obtain ⟨allDecimal, some_, three, value⟩ := table ⟨byte.toNat, byte.toNat_lt⟩
  have decimal : ∀ digit ∈ Nat.toDigits 10 byte.toNat, digit.toNat - 0x30 ≤ 9 :=
    fun digit member => of_decide_eq_true (List.all_eq_true.mp allDecimal digit member)
  refine ⟨codepoints_arabicDigits decimal, fun cp member => ?_, some_, three, value, positive⟩
  obtain ⟨digit, isDigit, rfl⟩ := List.mem_map.mp member
  have small := decimal digit isDigit
  omega

theorem encodeDebugPath_cons (byte next : UInt8) (path : List UInt8) :
    encodeDebugPath (byte :: next :: path) =
      arabicDecimal byte.toNat ++ (arabicComma ++ encodeDebugPath (next :: path)) := by
  rw [encodeDebugPath, List.map_cons, List.map_cons, List.intercalate_cons_cons,
    List.append_assoc]
  rfl

/-- A written path is a list of its bytes. -/
theorem pathList_encodeDebugPath {path : List UInt8} (some_ : path ≠ []) (clean : 0 ∉ path) :
    PathList (encodeDebugPath path) path := by
  induction path with
  | nil => exact absurd rfl some_
  | cons byte path inductionHypothesis =>
      rw [List.mem_cons, not_or] at clean
      have element := pathElement_arabicDecimal (Ne.symm clean.1)
      cases path with
      | nil =>
          have same : encodeDebugPath [byte] = arabicDecimal byte.toNat := by
            simp [encodeDebugPath, List.intercalate_singleton]
          rw [same]
          exact .single element
      | cons next path =>
          rw [encodeDebugPath_cons]
          exact .cons element (inductionHypothesis (List.cons_ne_nil _ _) clean.2)

/-! ## One element -/

/-- Digits of an element, and what ends them. -/
theorem debugPathItem_digit {fuel value digits cp : Nat} {ended : Bool}
    {bytes rest : List UInt8} (encodes : Encodes bytes cp)
    (isDigit : 0x0660 ≤ cp ∧ cp ≤ 0x0669) (room : digits < 3) :
    debugPathItem (fuel + 1) (bytes ++ rest) value digits ended =
      debugPathItem fuel rest (value * 10 + (cp - 0x0660)) (digits + 1) false := by
  have unread : (bytes ++ rest).isEmpty = false := by
    rw [List.isEmpty_eq_false_iff]
    exact fun nil => encodes.nonempty (List.append_eq_nil_iff.mp nil).1
  have arabic : nazmIsArabicDigit cp = true := by simpa [nazmIsArabicDigit] using isDigit
  have refused : (!nazmIsArabicDigit cp || decide (3 ≤ digits)) = false := by
    simp [arabic]
    omega
  rw [debugPathItem, unread, encodes.decodes]
  dsimp only
  rw [if_neg Bool.false_ne_true, if_neg (by omega), refused, if_neg Bool.false_ne_true,
    arabicDigitValue, if_pos arabic]
  rfl

/-- An element is read up to what ends it. -/
theorem debugPathItem_reads {fuel value digits : Nat} {ended : Bool} {text rest : List UInt8}
    {cps : List Nat} (isText : Codepoints text cps)
    (isDigits : ∀ cp ∈ cps, 0x0660 ≤ cp ∧ cp ≤ 0x0669) (room : digits + cps.length ≤ 3) :
    debugPathItem (cps.length + fuel) (text ++ rest) value digits ended =
      debugPathItem fuel rest (digitsFrom value cps) (digits + cps.length)
        (ended && cps.isEmpty) := by
  induction isText generalizing value digits ended with
  | nil => simp [digitsFrom]
  | @cons bytes text cp cps encodes _ inductionHypothesis =>
      rw [List.forall_mem_cons] at isDigits
      rw [List.length_cons] at room
      rw [List.length_cons, List.append_assoc, Nat.add_right_comm,
        debugPathItem_digit encodes isDigits.1 (by omega),
        inductionHypothesis isDigits.2 (by omega)]
      simp [digitsFrom, Nat.add_assoc, Nat.add_comm 1]

theorem debugPathItem_end (fuel value digits : Nat) (ended : Bool) :
    debugPathItem fuel [] value digits ended = some ([], value, digits, ended) := by
  cases fuel <;> rfl

theorem debugPathItem_comma (fuel value digits : Nat) (ended : Bool) (rest : List UInt8) :
    debugPathItem (fuel + 1) (arabicComma ++ rest) value digits ended =
      some (rest, value, digits, rest.isEmpty) := by
  rw [debugPathItem, encodes_arabicComma.decodes]
  rfl

/-- What an element that is read consists of. -/
theorem debugPathItem_text {fuel value digits : Nat} {ended : Bool} {encoded next : List UInt8}
    {readValue readDigits : Nat} {readEnded : Bool} (enough : encoded.length ≤ fuel)
    (few : digits ≤ 3)
    (read : debugPathItem fuel encoded value digits ended =
      some (next, readValue, readDigits, readEnded)) :
    ∃ text cps, Codepoints text cps ∧ (∀ cp ∈ cps, 0x0660 ≤ cp ∧ cp ≤ 0x0669) ∧
      readValue = digitsFrom value cps ∧ readDigits = digits + cps.length ∧ readDigits ≤ 3 ∧
      (encoded = text ∧ next = [] ∧ readEnded = (ended && cps.isEmpty) ∨
        encoded = text ++ (arabicComma ++ next) ∧ readEnded = next.isEmpty) := by
  induction fuel generalizing encoded value digits ended with
  | zero =>
      obtain rfl := List.eq_nil_of_length_eq_zero (Nat.le_zero.mp enough)
      simp only [debugPathItem, Option.some.injEq, Prod.mk.injEq] at read
      obtain ⟨rfl, rfl, rfl, rfl⟩ := read
      exact ⟨[], [], .nil, by simp, rfl, rfl, few, .inl ⟨rfl, rfl, by simp⟩⟩
  | succ fuel inductionHypothesis =>
      by_cases empty : encoded = []
      · rw [empty, debugPathItem_end] at read
        simp only [Option.some.injEq, Prod.mk.injEq] at read
        obtain ⟨rfl, rfl, rfl, rfl⟩ := read
        exact ⟨[], [], .nil, by simp, rfl, rfl, few, .inl ⟨empty, rfl, by simp⟩⟩
      · have unread : encoded.isEmpty = false := List.isEmpty_eq_false_iff.mpr empty
        rw [debugPathItem, unread] at read
        dsimp only at read
        rw [if_neg Bool.false_ne_true] at read
        by_cases isComma : (utf8NextCodepoint encoded).1 = 0x060C
        · rw [if_pos isComma] at read
          simp only [Option.some.injEq, Prod.mk.injEq] at read
          obtain ⟨rfl, rfl, rfl, rfl⟩ := read
          obtain ⟨bytes, split, encodes⟩ := encodes_of_wellFormedAt empty
            (wellFormedAt_of_ne (by rw [utf8PeekCodepoint, isComma]; decide))
          rw [isComma] at encodes
          refine ⟨[], [], .nil, by simp, rfl, rfl, few, .inr ⟨?_, rfl⟩⟩
          rw [List.nil_append, ← encodes.inj encodes_arabicComma]
          exact split
        · rw [if_neg isComma] at read
          split at read
          · contradiction
          · next accepted =>
              have isDigit : nazmIsArabicDigit (utf8NextCodepoint encoded).1 = true ∧
                  digits < 3 := by
                simpa using accepted
              have range : 0x0660 ≤ (utf8NextCodepoint encoded).1 ∧
                  (utf8NextCodepoint encoded).1 ≤ 0x0669 := by
                simpa [nazmIsArabicDigit] using isDigit.1
              obtain ⟨bytes, split, encodes⟩ := encodes_of_wellFormedAt empty
                (wellFormedAt_of_ne (by rw [utf8PeekCodepoint]; omega))
              have moves := List.length_pos_iff.mpr encodes.nonempty
              have length := congrArg List.length split
              rw [List.length_append] at length
              rw [arabicDigitValue, if_pos isDigit.1, Option.getD_some] at read
              obtain ⟨text, cps, isText, isDigits, value', digits', three, ends⟩ :=
                inductionHypothesis (by omega) isDigit.2 read
              refine ⟨bytes ++ text, (utf8NextCodepoint encoded).1 :: cps, .cons encodes isText,
                List.forall_mem_cons.mpr ⟨range, isDigits⟩, ?_, ?_, three, ?_⟩
              · rw [value', digitsFrom, digitsFrom, List.foldl_cons]
              · rw [digits', List.length_cons]
                omega
              · rcases ends with ⟨isRest, nil, last⟩ | ⟨isRest, last⟩
                · refine .inl ⟨?_, nil, ?_⟩
                  · rw [← isRest]
                    exact split
                  · simpa using last
                · refine .inr ⟨?_, last⟩
                  rw [List.append_assoc, ← isRest]
                  exact split

/-! ## All elements -/

theorem PathElement.ne_nil {text : List UInt8} {byte : UInt8} {cps : List Nat}
    (element : PathElement text byte cps) : text ≠ [] := by
  rintro rfl
  have length := element.isText.length_le
  have some_ := element.some_
  rw [List.length_nil] at length
  omega

theorem PathList.ne_nil {encoded bytes : List UInt8} (isList : PathList encoded bytes) :
    encoded ≠ [] ∧ bytes ≠ [] := by
  cases isList with
  | single element => exact ⟨element.ne_nil, List.cons_ne_nil _ _⟩
  | cons element _ =>
      exact ⟨fun nil => element.ne_nil (List.append_eq_nil_iff.mp nil).1, List.cons_ne_nil _ _⟩

/-- One turn of the outer loop. -/
theorem debugPathItems_succ {fuel value digits : Nat} {encoded next decoded : List UInt8}
    {ended last : Bool} (unread : encoded ≠ [])
    (item : debugPathItem encoded.length encoded 0 0 ended = some (next, value, digits, last))
    (range : digits ≠ 0 ∧ value ≤ 255 ∧ value ≠ 0) :
    debugPathItems (fuel + 1) encoded decoded ended =
      debugPathItems fuel next (decoded ++ [UInt8.ofNat value]) last := by
  rw [debugPathItems, List.isEmpty_eq_false_iff.mpr unread, item]
  dsimp only
  rw [if_neg Bool.false_ne_true, if_neg (by omega)]

theorem debugPathItems_end (fuel : Nat) (decoded : List UInt8) (ended : Bool) :
    debugPathItems fuel [] decoded ended = .ok (decoded, ended) := by
  cases fuel <;> rfl

/-- An element in front of what ends it. -/
theorem PathElement.item {text ending : List UInt8} {byte : UInt8} {cps : List Nat}
    (element : PathElement text byte cps) (ended : Bool) :
    debugPathItem (text ++ ending).length (text ++ ending) 0 0 ended =
      debugPathItem ((text ++ ending).length - cps.length) ending byte.toNat cps.length false := by
  have fits := element.isText.length_le
  have nonempty : cps.isEmpty = false := by
    rw [List.isEmpty_eq_false_iff]
    rintro rfl
    exact absurd element.some_ (by decide)
  have reads := @debugPathItem_reads ((text ++ ending).length - cps.length) 0 0 ended text ending
    cps element.isText element.digits (by have := element.three; omega)
  rw [List.length_append] at reads ⊢
  rw [Nat.add_sub_cancel' (by omega)] at reads
  rw [reads, element.value, nonempty, Bool.and_false, Nat.zero_add]

theorem PathElement.range {text : List UInt8} {byte : UInt8} {cps : List Nat}
    (element : PathElement text byte cps) :
    cps.length ≠ 0 ∧ byte.toNat ≤ 255 ∧ byte.toNat ≠ 0 := by
  refine ⟨Nat.ne_of_gt element.some_, Nat.le_of_lt_succ byte.toNat_lt, fun zero => ?_⟩
  exact element.positive (UInt8.toNat_inj.mp zero)

/-- A list of elements is read. -/
theorem debugPathItems_reads {fuel : Nat} {encoded bytes decoded : List UInt8} {ended : Bool}
    (isList : PathList encoded bytes) (enough : encoded.length ≤ fuel) :
    debugPathItems fuel encoded decoded ended = .ok (decoded ++ bytes, false) := by
  induction isList generalizing fuel decoded ended with
  | @single text byte cps element =>
      have positive := List.length_pos_iff.mpr element.ne_nil
      obtain ⟨fuel, rfl⟩ := Nat.exists_eq_add_of_le' (Nat.lt_of_lt_of_le positive enough)
      have item := @PathElement.item _ [] _ _ element ended
      rw [List.append_nil, debugPathItem_end] at item
      rw [debugPathItems_succ element.ne_nil item element.range, debugPathItems_end,
        UInt8.ofNat_toNat]
  | @cons text rest bytes byte cps element isList inductionHypothesis =>
      have unread : text ++ (arabicComma ++ rest) ≠ [] := fun nil =>
        element.ne_nil (List.append_eq_nil_iff.mp nil).1
      have positive := List.length_pos_iff.mpr unread
      obtain ⟨fuel, rfl⟩ := Nat.exists_eq_add_of_le' (Nat.lt_of_lt_of_le positive enough)
      have fits := element.isText.length_le
      have total : (text ++ (arabicComma ++ rest)).length = text.length + (2 + rest.length) := by
        rw [List.length_append, List.length_append]
        rfl
      have item := @PathElement.item _ (arabicComma ++ rest) _ _ element ended
      obtain ⟨left, isLeft⟩ : ∃ left, (text ++ (arabicComma ++ rest)).length - cps.length =
          left + 1 := ⟨text.length + (2 + rest.length) - cps.length - 1, by omega⟩
      rw [isLeft, debugPathItem_comma, List.isEmpty_eq_false_iff.mpr isList.ne_nil.1] at item
      rw [debugPathItems_succ unread item element.range, inductionHypothesis (by omega),
        UInt8.ofNat_toNat, List.append_assoc]
      rfl

/-- What is read without a comma at its end is a list of elements. -/
theorem debugPathItems_list {fuel : Nat} {encoded decoded read : List UInt8} {ended : Bool}
    (unread : encoded ≠ []) (enough : encoded.length ≤ fuel)
    (ok : debugPathItems fuel encoded decoded ended = .ok (read, false)) :
    ∃ bytes, read = decoded ++ bytes ∧ PathList encoded bytes := by
  induction fuel generalizing encoded decoded ended with
  | zero => exact absurd (List.eq_nil_of_length_eq_zero (Nat.le_zero.mp enough)) unread
  | succ fuel inductionHypothesis =>
      rw [debugPathItems, List.isEmpty_eq_false_iff.mpr unread, if_neg Bool.false_ne_true] at ok
      split at ok
      · contradiction
      · next next value digits last item =>
          split at ok
          · contradiction
          · next inRange =>
              rw [not_or, not_or, Nat.not_lt] at inRange
              obtain ⟨someDigits, small, positive⟩ := inRange
              obtain ⟨text, cps, isText, isDigits, isValue, isCount, three, ends⟩ :=
                debugPathItem_text (Nat.le_refl _) (by decide) item
              rw [Nat.zero_add] at isCount
              have isByte := toNat_ofNat_small (Nat.lt_succ_of_le small)
              have element : PathElement text (UInt8.ofNat value) cps := by
                refine ⟨isText, isDigits, by omega, by omega, ?_, fun zero => ?_⟩
                · rw [isByte, isValue]
                · rw [zero] at isByte
                  exact positive isByte.symm
              rcases ends with ⟨isEncoded, isNext, -⟩ | ⟨isEncoded, isLast⟩
              · rw [isNext, debugPathItems_end] at ok
                rw [isEncoded]
                exact ⟨_, (Prod.mk.inj (Except.ok.inj ok)).1.symm, .single element⟩
              · by_cases atEnd : next = []
                · rw [isLast, atEnd, debugPathItems_end] at ok
                  exact absurd (Prod.mk.inj (Except.ok.inj ok)).2 (by decide)
                · have total := congrArg List.length isEncoded
                  rw [List.length_append, List.length_append] at total
                  have separator : arabicComma.length = 2 := rfl
                  obtain ⟨bytes, isRead, isList⟩ := inductionHypothesis atEnd (by omega) ok
                  rw [isEncoded]
                  refine ⟨UInt8.ofNat value :: bytes, ?_, .cons element isList⟩
                  rw [isRead, List.append_assoc]
                  rfl

/-! ## The decoded path -/

theorem character_replacement : Character [0xEF, 0xBF, 0xBD] :=
  .threeHigh (by decide) (by decide) (by decide) (by decide)

/-- The check of the decoded path accepts well-formed UTF-8. -/
theorem debugPathWellFormed_iff {fuel : Nat} {path : List UInt8} (enough : path.length ≤ fuel) :
    debugPathWellFormed fuel path = true ↔ WellFormed path := by
  induction fuel generalizing path with
  | zero =>
      obtain rfl := List.eq_nil_of_length_eq_zero (Nat.le_zero.mp enough)
      exact ⟨fun _ => .nil, fun _ => rfl⟩
  | succ fuel inductionHypothesis =>
      cases path with
      | nil => exact ⟨fun _ => .nil, fun _ => rfl⟩
      | cons b0 src =>
          rw [debugPathWellFormed]
          dsimp only [List.isEmpty_cons]
          rw [if_neg Bool.false_ne_true]
          constructor
          · intro accepted
            split at accepted
            · contradiction
            · next known =>
                rcases utf8NextCodepoint_character b0 src with
                  replaced | ⟨character, split, isCharacter⟩
                · rw [replaced] at known
                  simp at known
                · have length := congrArg List.length split
                  have some_ := List.length_pos_iff.mpr isCharacter.ne_nil
                  rw [List.length_append] at length
                  rw [split]
                  exact .cons isCharacter ((inductionHypothesis (by omega)).mp accepted)
          · intro wellFormed
            generalize isPath : b0 :: src = path at wellFormed enough
            cases wellFormed with
            | nil => contradiction
            | @cons character rest isCharacter isRest =>
                have some_ := List.length_pos_iff.mpr isCharacter.ne_nil
                rw [List.length_append] at enough
                rw [(encodes_of_character isCharacter).decodes]
                dsimp only
                rw [if_neg, (inductionHypothesis (by omega)).mpr isRest]
                rintro ⟨isReplacement, unwritten⟩
                have written : character = [0xEF, 0xBF, 0xBD] :=
                  isCharacter.value_inj character_replacement isReplacement
                rw [written, List.length_append, Nat.add_sub_cancel] at unwritten
                simp at unwritten

/-! ## The decoder -/

/-- What the decoder accepts. -/
theorem decodeDebugPathBytes_ok_iff (encoded path : List UInt8) :
    decodeDebugPathBytes encoded = .ok path ↔ PathList encoded path ∧ WellFormed path := by
  constructor
  · intro decoded
    unfold decodeDebugPathBytes at decoded
    split at decoded
    · contradiction
    · next items ended isItems =>
        split at decoded
        · contradiction
        · next whole =>
            rw [not_or, Bool.not_eq_true] at whole
            split at decoded
            · next accepted =>
                obtain rfl := Except.ok.inj decoded
                have unread : encoded ≠ [] := by
                  rintro rfl
                  rw [debugPathItems_end] at isItems
                  exact whole.1 (by rw [← (Prod.mk.inj (Except.ok.inj isItems)).1]; rfl)
                rw [whole.2] at isItems
                obtain ⟨bytes, isRead, isList⟩ :=
                  debugPathItems_list unread (Nat.le_refl _) isItems
                rw [List.nil_append] at isRead
                rw [isRead]
                rw [isRead] at accepted
                exact ⟨isList, (debugPathWellFormed_iff (Nat.le_refl _)).mp accepted⟩
            · contradiction
  · rintro ⟨isList, wellFormed⟩
    have items := @debugPathItems_reads _ _ _ [] false isList (Nat.le_refl _)
    rw [List.nil_append] at items
    have length := List.length_pos_iff.mpr isList.ne_nil.2
    rw [decodeDebugPathBytes, items]
    dsimp only
    rw [if_neg, if_pos ((debugPathWellFormed_iff (Nat.le_refl _)).mpr wellFormed)]
    rintro (none | ended)
    · omega
    · contradiction

/-- Each path is decoded from its writing, and what the decoder accepts are the
lists of byte values that form a path. -/
theorem debug_path_codec_exact :
    (∀ path, path ≠ [] → 0 ∉ path → WellFormed path →
      decodeDebugPathBytes (encodeDebugPath path) = .ok path) ∧
    ∀ encoded,
      (∀ path, decodeDebugPathBytes encoded = .ok path ↔
        PathList encoded path ∧ WellFormed path) ∧
      ((¬∃ path, PathList encoded path ∧ WellFormed path) ↔
        ∃ message, decodeDebugPathBytes encoded = .error message) := by
  refine ⟨fun path some_ clean wellFormed => ?_, fun encoded => ⟨fun path => ?_, ?_⟩⟩
  · exact (decodeDebugPathBytes_ok_iff _ _).mpr
      ⟨pathList_encodeDebugPath some_ clean, wellFormed⟩
  · exact decodeDebugPathBytes_ok_iff encoded path
  · simp only [← decodeDebugPathBytes_ok_iff]
    cases decodeDebugPathBytes encoded with
    | error message => simp
    | ok path => simp

theorem debug_path_codec_exact_letters :
    decodeDebugPathBytes (encodeDebugPath [0x61, 0x2F, 0x62]) = .ok [0x61, 0x2F, 0x62] :=
  debug_path_codec_exact.1 [0x61, 0x2F, 0x62] (by decide) (by decide) (.of_ascii (by simp))

end Nazm.Passes
