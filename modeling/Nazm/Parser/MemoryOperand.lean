import Nazm.Parser.GrammarAccepts

/-!
Memory operands against their documented grammar.

Owns the documented texts of a memory operand with the address they mean, and
exactly when the parser follows them.

Does not own the instructions that take memory operands.
-/

namespace Nazm.Parser

open Nazm.Encoder Nazm.Lexer Nazm.Unicode Nazm.Diagnostics

/-! ## The documented grammar -/

/-- The address of a memory operand: a base register and a displacement, or a
symbol relative to the instruction pointer. -/
inductive MemoryAddress where
  | base (register : RegId) (displacement : Int)
  | rip (symbol : List UInt8)
deriving DecidableEq

/-- The address that an operand denotes. -/
def memoryAddress? : OperandKind → Option MemoryAddress
  | .memReg base => some (.base base 0)
  | .memDisp base displacement => some (.base base displacement.toInt)
  | .memRipLabel symbol => some (.rip symbol)
  | _ => none

/-- The number that a decimal text writes, without bounds. -/
def numberValue : List UInt8 → Int
  | 0x2D :: digits => -(digitsValue digits : Int)
  | digits => digitsValue digits

/-- A literal with a minus sign of its own. -/
def hasSign (text : List UInt8) : Bool := decide (text.head? = some 0x2D)

/-- The documented text after the opening bracket, and its address. -/
inductive DocumentedMemory : List Token → MemoryAddress → Prop where
  | base {r close : Token} {base : RegId} :
      IsBase .nazm r base → close.type = .rbracket → DocumentedMemory [r, close] (.base base 0)
  | signToken {r sign number close : Token} {base : RegId} :
      IsBase .nazm r base → sign.type = .plus ∨ sign.type = .minus → number.type = .immediate →
      Fits32 (signed sign.type (numberValue number.value)) → close.type = .rbracket →
      DocumentedMemory [r, sign, number, close]
        (.base base (signed sign.type (numberValue number.value)))
  | signedLiteral {r number close : Token} {base : RegId} :
      IsBase .nazm r base → number.type = .immediate → hasSign number.value = true →
      Fits32 (numberValue number.value) → close.type = .rbracket →
      DocumentedMemory [r, number, close] (.base base (numberValue number.value))
  | rip {pointer plus name close : Token} :
      pointer.type = .labelRef → pointer.value = instructionPointerName → plus.type = .plus →
      name.type = .labelRef ∨ name.type = .mnemonic → close.type = .rbracket →
      DocumentedMemory [pointer, plus, name, close] (.rip name.value)

/-- The parser reads every documented text with its address, and reports
everything else within the line. -/
structure FollowsGrammar (p : Parser) (openTok : Token) : Prop where
  accepts : ∀ text rest address, p.tokens = text ++ rest → DocumentedMemory text address →
    ∃ op, parseMemOperand p openTok = ({ p with tokens := rest }, some op) ∧
      memoryAddress? op.kind = some address
  rejects : (∀ text rest address, p.tokens = text ++ rest → ¬ DocumentedMemory text address) →
    FailsLine p (parseMemOperand p openTok)

/-- A number without a sign right after the register. -/
def UnsignedDisplacement (tokens : List Token) : Prop :=
  ∃ r number close rest base, tokens = r :: number :: close :: rest ∧ IsBase .nazm r base ∧
    number.type = .immediate ∧ hasSign number.value = false ∧
    Fits32 (numberValue number.value) ∧ close.type = .rbracket

/-! ## Numbers -/

theorem toInt_strtoll (text : List UInt8) :
    (strtoll text).toInt = max (-2 ^ 63) (min (2 ^ 63 - 1) (numberValue text)) := by
  have bounded : ∀ value : Int,
      (Int64.ofInt (max (-2 ^ 63) (min (2 ^ 63 - 1) value))).toInt =
        max (-2 ^ 63) (min (2 ^ 63 - 1) value) := by
    intro value
    rw [Int64.toInt_ofInt_of_le (by omega) (by omega)]
  exact bounded (numberValue text)

/-- Saturation moves no number into the range of a displacement. -/
theorem fits32_strtoll (sign : TokenType) (text : List UInt8) :
    (Fits32 (signed sign (strtoll text).toInt) ↔ Fits32 (signed sign (numberValue text))) ∧
      (Fits32 (signed sign (numberValue text)) →
        signed sign (strtoll text).toInt = signed sign (numberValue text)) := by
  rw [toInt_strtoll]
  unfold signed Fits32
  split <;> omega

theorem toInt_displacement {value : Int} (fits : Fits32 value) : (Int32.ofInt value).toInt = value := by
  rw [Fits32] at fits
  exact Int32.toInt_ofInt_of_le (by omega) (by omega)

/-! ## The two grammars -/

/-- A text that is read is documented, unless its number has no sign. -/
theorem documented_of_memoryText {text : List Token} {kind : OperandKind}
    (isText : MemoryText .nazm text kind) :
    (∃ address, DocumentedMemory text address ∧ memoryAddress? kind = some address) ∨
      ∀ rest, UnsignedDisplacement (text ++ rest) := by
  cases isText with
  | base isBase isClose => exact .inl ⟨_, .base isBase isClose, rfl⟩
  | @signed r sign number close base isBase isSign isNumber fits isClose =>
      obtain ⟨same, equal⟩ := fits32_strtoll sign.type number.value
      refine .inl ⟨_, .signToken isBase isSign isNumber (same.mp fits) isClose, ?_⟩
      rw [memoryAddress?, toInt_displacement fits, equal (same.mp fits)]
  | @unsigned r number close base isBase isNumber fits isClose =>
      obtain ⟨same, equal⟩ := fits32_strtoll .plus number.value
      have fits' : Fits32 (numberValue number.value) := same.mp fits
      cases sign : hasSign number.value with
      | true =>
          refine .inl ⟨_, .signedLiteral isBase isNumber sign fits' isClose, ?_⟩
          rw [memoryAddress?, toInt_displacement fits]
          exact congrArg (some <| MemoryAddress.base base ·) (equal fits')
      | false =>
          exact .inr fun rest =>
            ⟨r, number, close, rest, base, rfl, isBase, isNumber, sign, fits', isClose⟩
  | rip isPointer pointerName isPlus isName isClose =>
      exact .inl ⟨_, .rip isPointer pointerName isPlus isName isClose, rfl⟩

/-- Every documented text is read, with its address. -/
theorem memoryText_of_documented {text : List Token} {address : MemoryAddress}
    (documented : DocumentedMemory text address) :
    ∃ kind, MemoryText .nazm text kind ∧ memoryAddress? kind = some address := by
  cases documented with
  | base isBase isClose => exact ⟨_, .base isBase isClose, rfl⟩
  | @signToken r sign number close base isBase isSign isNumber fits isClose =>
      obtain ⟨same, equal⟩ := fits32_strtoll sign.type number.value
      refine ⟨_, .signed isBase isSign isNumber (same.mpr fits) isClose, ?_⟩
      rw [memoryAddress?, toInt_displacement (same.mpr fits), equal fits]
  | @signedLiteral r number close base isBase isNumber _ fits isClose =>
      obtain ⟨same, equal⟩ := fits32_strtoll .plus number.value
      have fits' : Fits32 (strtoll number.value).toInt := same.mpr fits
      refine ⟨_, .unsigned isBase isNumber fits' isClose, ?_⟩
      rw [memoryAddress?, toInt_displacement fits']
      exact congrArg (some <| MemoryAddress.base base ·) (equal fits)
  | rip isPointer pointerName isPlus isName isClose =>
      exact ⟨_, .rip isPointer pointerName isPlus isName isClose, rfl⟩

/-- A number without a sign is read, and no documented text starts like it. -/
theorem UnsignedDisplacement.read {tokens : List Token} (unsigned : UnsignedDisplacement tokens) :
    (∃ text rest kind, tokens = text ++ rest ∧ MemoryText .nazm text kind) ∧
      ∀ text rest address, tokens = text ++ rest → ¬ DocumentedMemory text address := by
  obtain ⟨r, number, close, rest, base, rfl, isBase, isNumber, noSign, fits, isClose⟩ := unsigned
  obtain ⟨same, -⟩ := fits32_strtoll .plus number.value
  refine ⟨⟨[r, number, close], rest, _, rfl, .unsigned isBase isNumber (same.mpr fits) isClose⟩, ?_⟩
  intro text after address split documented
  cases documented with
  | base _ isClose' =>
      simp only [List.cons_append, List.cons.injEq] at split
      rw [← split.2.1, isNumber] at isClose'
      contradiction
  | signToken _ isSign _ _ _ =>
      simp only [List.cons_append, List.cons.injEq] at split
      rw [← split.2.1, isNumber] at isSign
      simp at isSign
  | signedLiteral _ _ sign _ _ =>
      simp only [List.cons_append, List.cons.injEq] at split
      rw [← split.2.1, noSign] at sign
      contradiction
  | rip isPointer _ _ _ _ =>
      simp only [List.cons_append, List.cons.injEq] at split
      rw [← split.1, isBase.type] at isPointer
      contradiction

/-! ## The parser -/

theorem parseMemOperand_read {p : Parser} {text rest : List Token} {kind : OperandKind}
    (split : p.tokens = text ++ rest) (isText : MemoryText .nazm text kind) (openTok : Token) :
    parseMemOperand p openTok = ({ p with tokens := rest },
      some ⟨kind, openTok.line, openTok.col,
        (text.getLastD ⟨.eof, [], 0, 0, 0⟩).endCol⟩) := by
  obtain ⟨tokens, errors, out, srcName⟩ := p
  obtain rfl : tokens = text ++ rest := split
  exact parseMemOperand_complete isText openTok errors out srcName

/-- The parser follows the documented grammar after an opening bracket exactly
when no unsigned number stands where a sign must. -/
theorem memory_grammar_iff (p : Parser) (openTok : Token) :
    FollowsGrammar p openTok ↔ ¬ UnsignedDisplacement p.tokens := by
  constructor
  · intro follows unsigned
    obtain ⟨⟨text, rest, kind, split, isText⟩, undocumented⟩ := unsigned.read
    have nothing := (follows.rejects undocumented).nothing
    rw [parseMemOperand_read split isText openTok] at nothing
    contradiction
  · intro noUnsigned
    refine ⟨fun text rest address split documented => ?_, fun undocumented => ?_⟩
    · obtain ⟨kind, isText, address'⟩ := memoryText_of_documented documented
      exact ⟨_, parseMemOperand_read split isText openTok, address'⟩
    · rcases parseMemOperand_outcome .nazm p openTok with ⟨text, kind, isText, q, -, consumes⟩ | fails
      · rcases documented_of_memoryText isText with ⟨address, documented, -⟩ | unsigned
        · exact absurd documented (undocumented text q.tokens address consumes.tokens)
        · exact absurd (consumes.tokens ▸ unsigned q.tokens) noUnsigned
      · exact fails

/-- The tokens after the bracket of `[سجل_العداد 8]`. -/
def unsignedOperand : Parser :=
  ⟨[⟨.register, utf8 "سجل_العداد", 1, 2, 12⟩, ⟨.immediate, [0x38], 1, 13, 14⟩,
    ⟨.rbracket, [0x5D], 1, 14, 15⟩, ⟨.eof, [], 1, 15, 15⟩], .empty, [], []⟩

/-- The parser accepts a displacement without a sign. -/
theorem unsigned_displacement_accepted :
    ¬ ∀ (p : Parser) (openTok : Token), FollowsGrammar p openTok := by
  intro follows
  have rejected := (follows unsignedOperand ⟨.lbracket, [0x5B], 1, 1, 2⟩).rejects
  have unsigned : UnsignedDisplacement unsignedOperand.tokens :=
    ⟨_, _, _, _, .gpr64 1, rfl, ⟨rfl, by decide +kernel, rfl⟩, rfl, rfl, by decide, rfl⟩
  have nothing := (rejected unsigned.read.2).nothing
  have accepted : (parseMemOperand unsignedOperand ⟨.lbracket, [0x5B], 1, 1, 2⟩).2.isSome = true := by
    decide +kernel
  rw [nothing] at accepted
  contradiction

end Nazm.Parser
