import Nazm.Lexer.Spelled

/-!
String literals.

Owns the documented escapes, the text between the quotes of a literal and the
string it stands for, the ways to quote a string, and that the lexer reads
exactly the literals, each as its string.

Does not own what becomes of strings.
-/

namespace Nazm.Lexer

open Utf8
open Nazm.Encoder Nazm.Unicode Nazm.Diagnostics

/-! ## Literals -/

/-- The documented escapes: what follows the backslash, and the byte. -/
def documentedEscapes : List (UInt8 × UInt8) :=
  [(0x6E, 0x0A), (0x74, 0x09), (0x72, 0x0D), (0x30, 0x00), (0x22, 0x22), (0x5C, 0x5C)]

/-- The text between two quotes and the string it stands for. -/
inductive Literal : List UInt8 → List UInt8 → Prop where
  | nil : Literal [] []
  | escape {esc byte : UInt8} {body string : List UInt8} :
      (esc, byte) ∈ documentedEscapes → Literal body string →
      Literal (0x5C :: esc :: body) (byte :: string)
  | character {bytes body string : List UInt8} {cp : Nat} :
      Encodes bytes cp → cp ∉ [0x22, 0x5C, 0x0A, 0x0D] → Literal body string →
      Literal (bytes ++ body) (bytes ++ string)

/-- A string, and a text for it between quotes: NUL, quote, backslash and line
ends are escaped, a tab may be, and what else there is stands as it is. -/
inductive Quoted : List UInt8 → List UInt8 → Prop where
  | nil : Quoted [] []
  | escape {esc byte : UInt8} {string body : List UInt8} :
      (esc, byte) ∈ documentedEscapes → Quoted string body →
      Quoted (byte :: string) (0x5C :: esc :: body)
  | verbatim {bytes string body : List UInt8} {cp : Nat} :
      Encodes bytes cp → cp ∉ [0x00, 0x22, 0x5C, 0x0A, 0x0D] → Quoted string body →
      Quoted (bytes ++ string) (bytes ++ body)

section Literals

variable {string value body text rest : List UInt8}

theorem Quoted.literal (quoted : Quoted string body) : Literal body string := by
  induction quoted with
  | nil => exact .nil
  | escape isEscape _ inductionHypothesis => exact .escape isEscape inductionHypothesis
  | verbatim encodes plain _ inductionHypothesis =>
      exact .character encodes (fun special => plain (List.mem_cons_of_mem _ special))
        inductionHypothesis

/-- Every string can be quoted. -/
theorem exists_quoted (wellFormed : WellFormed string) : ∃ body, Quoted string body := by
  induction wellFormed with
  | nil => exact ⟨[], .nil⟩
  | @cons character rest isCharacter _ inductionHypothesis =>
      obtain ⟨body, quoted⟩ := inductionHypothesis
      have encodes := encodes_of_character isCharacter
      by_cases special : value character ∈ [0x00, 0x22, 0x5C, 0x0A, 0x0D]
      · have escaped : ∀ cp ∈ [0x00, 0x22, 0x5C, 0x0A, 0x0D], ∃ entry ∈ documentedEscapes,
            entry.2 = UInt8.ofNat cp ∧ cp < 0x80 := by decide
        obtain ⟨⟨esc, byte⟩, isEscape, rfl, small⟩ := escaped _ special
        rw [encodes.eq_ascii small]
        exact ⟨_, .escape isEscape quoted⟩
      · exact ⟨_, .verbatim encodes special quoted⟩

theorem escapeByte_iff {esc byte : UInt8} :
    escapeByte esc.toNat = some byte ↔ (esc, byte) ∈ documentedEscapes := by
  constructor
  · intro isEscape
    unfold escapeByte at isEscape
    -- one entry of the table for each branch
    repeat' split at isEscape
    all_goals first
      | contradiction
      | next isEsc =>
          obtain rfl := Option.some.inj isEscape
          rw [← UInt8.ofNat_toNat (x := esc), isEsc]
          decide
  · intro isEscape
    have table : (documentedEscapes.all fun entry =>
        escapeByte entry.1.toNat = some entry.2) = true := by decide
    exact of_decide_eq_true (List.all_eq_true.mp table (esc, byte) isEscape)

/-- A literal and its closing quote are the text of a string. -/
theorem Literal.stringText (literal : Literal body string) :
    StringText (body ++ [0x22]) string := by
  induction literal with
  | nil => exact .close
  | @escape esc byte _ _ isEscape _ inductionHypothesis =>
      have isByte := escapeByte_iff.mpr isEscape
      exact .escape (escapeByte_small isByte) isByte inductionHypothesis
  | character encodes plain _ inductionHypothesis =>
      simp only [List.mem_cons, List.not_mem_nil, or_false, not_or] at plain
      obtain ⟨notQuote, notEscape, notNewline, notReturn⟩ := plain
      rw [List.append_assoc]
      exact .plain encodes notQuote notNewline notReturn notEscape inductionHypothesis

/-- A quoted string is a token, whatever follows. -/
theorem Quoted.spells {string body : List UInt8} (quoted : Quoted string body)
    (next : Option Nat) :
    Spells .nazm (0x22 :: (body ++ [0x22])) (.token (.string, string)) next :=
  .string quoted.literal.stringText

theorem literal_of_stringText (isString : StringText text string) :
    ∃ body, text = body ++ [0x22] ∧ Literal body string := by
  induction isString with
  | close => exact ⟨[], rfl, .nil⟩
  | escape _ isEscape _ inductionHypothesis =>
      obtain ⟨body, rfl, literal⟩ := inductionHypothesis
      exact ⟨_, rfl, .escape (escapeByte_iff.mp isEscape) literal⟩
  | plain encodes notQuote notNewline notReturn notEscape _ inductionHypothesis =>
      obtain ⟨body, rfl, literal⟩ := inductionHypothesis
      exact ⟨_, (List.append_assoc ..).symm, .character encodes (by simp [*]) literal⟩

theorem documentedEscapes_functional : ∀ one ∈ documentedEscapes, ∀ two ∈ documentedEscapes,
    one.1 = two.1 → one.2 = two.2 := by
  have table : (documentedEscapes.all fun one => documentedEscapes.all fun two =>
      one.1 = two.1 → one.2 = two.2) = true := by decide
  intro one isOne two isTwo
  exact of_decide_eq_true (List.all_eq_true.mp (List.all_eq_true.mp table one isOne) two isTwo)

/-- No plain character starts an escape. -/
theorem noEscape {bytes back : List UInt8} {cp : Nat} (encodes : Encodes bytes cp)
    (plain : cp ∉ [0x22, 0x5C, 0x0A, 0x0D]) : 0x5C :: rest ≠ bytes ++ back := by
  intro same
  have isNext := encodes.peek back
  rw [← same, show 0x5C :: rest = [0x5C] ++ rest from rfl, (Encodes.byte 0x5C (by decide)).peek]
    at isNext
  exact plain (isNext ▸ by decide)

/-- A literal stands for one string. -/
theorem Literal.unique {other : List UInt8} (literal : Literal body string)
    (literal' : Literal body other) : string = other := by
  induction literal generalizing other with
  | nil =>
      generalize empty : ([] : List UInt8) = body at literal'
      cases literal' with
      | nil => rfl
      | escape => contradiction
      | character encodes _ _ =>
          exact absurd (List.append_eq_nil_iff.mp empty.symm).1 encodes.nonempty
  | @escape esc byte body string isEscape literal inductionHypothesis =>
      generalize whole : 0x5C :: esc :: body = text at literal'
      cases literal' with
      | nil => contradiction
      | @escape esc' byte' body' string' isEscape' literal' =>
          obtain ⟨rfl, rfl⟩ : esc = esc' ∧ body = body' := by simpa using whole
          have same : byte = byte' := documentedEscapes_functional _ isEscape _ isEscape' rfl
          rw [same, inductionHypothesis literal']
      | character encodes plain _ => exact absurd whole (noEscape encodes plain)
  | @character bytes body string cp encodes plain literal inductionHypothesis =>
      generalize whole : bytes ++ body = text at literal'
      cases literal' with
      | nil => exact absurd (List.append_eq_nil_iff.mp whole).1 encodes.nonempty
      | escape => exact absurd whole.symm (noEscape encodes plain)
      | @character bytes' body' string' cp' encodes' _ literal' =>
          have decoded := encodes.decodes body
          rw [whole, encodes'.decodes] at decoded
          obtain ⟨rfl, rfl⟩ := Prod.mk.inj decoded
          rw [encodes.inj encodes', inductionHypothesis literal']

/-! ## The lexer -/

/-- What the lexer accepts behind a quote is a literal, and the token holds its
string. -/
theorem lexString_literal {lx : Lexer} {cps : List Nat} (view : View lx (0x22 :: cps))
    (line col : Nat) (clean : errorHasAny (lexString lx line col).errors = false) :
    ∃ body string rest, lx.rest = 0x22 :: (body ++ 0x22 :: rest) ∧
      (lexString lx line col).rest = rest ∧
      (lexString lx line col).out.map Token.lexeme =
        lx.out.map Token.lexeme ++ [(.string, string)] ∧
      ∀ other, Literal body other ↔ other = string := by
  obtain ⟨passes, next⟩ := skipCp_passes view
  obtain ⟨bytes, isQuote, isText⟩ := passes.text
  obtain ⟨first, none, rfl, encodes, isNone⟩ := Codepoints.split isText
  rw [Codepoints.eq_nil isNone, List.append_nil, encodes.eq_ascii (by decide)] at isQuote
  have outcome : StringOutcome (skipCp lx)
      (lexStringLoop line col ((skipCp lx).rest.length + 1) (skipCp lx) [] true) [] :=
    lexStringLoop_outcome _ next (Nat.lt_succ_of_le (fuel_of_view next)) []
  rcases outcome with
    ⟨text, string, cps, last, line', col', endCol, isString, split, -, sameOut, pushed, -⟩ | dirty
  · obtain ⟨body, rfl, literal⟩ := literal_of_stringText isString
    have result : lexString lx line col =
        pushTokenValue last .string string line' col' endCol := pushed
    refine ⟨body, string, last.rest, ?_, by rw [result]; rfl, ?_, fun other => ?_⟩
    · rw [isQuote, split, List.append_assoc]
      rfl
    · rw [result, pushTokenValue, sameOut, passes.out, List.map_append]
      rfl
    · exact ⟨fun literal' => literal'.unique literal, fun same => same ▸ literal⟩
  · rw [lexString] at clean
    rw [dirty] at clean
    contradiction

end Literals

/-! ## The buffer -/

/-- `buf`, `len` and `cap` of `lex_string`: what was written lies in the buffer. -/
structure StringBuffer where
  bytes : List UInt8
  cap : Nat
  fits : bytes.length ≤ cap

/-- The buffer a literal starts with. -/
def StringBuffer.init : StringBuffer := ⟨[], 32, Nat.zero_le _⟩

/-- The byte of an escape, after the growth for one byte. -/
def StringBuffer.putByte (buffer : StringBuffer) (out : UInt8) : StringBuffer where
  bytes := buffer.bytes ++ [out]
  cap := if buffer.cap < buffer.bytes.length + 1 then buffer.cap * 2 + 1 else buffer.cap
  fits := by
    have := buffer.fits
    rw [List.length_append, List.length_singleton]
    split <;> omega

/-- The bytes of a character, after the growth for all of them. -/
def StringBuffer.putCharacter (buffer : StringBuffer) (bytes : List UInt8) : StringBuffer where
  bytes := buffer.bytes ++ bytes
  cap := if buffer.cap < buffer.bytes.length + bytes.length then buffer.cap * 2 + bytes.length
    else buffer.cap
  fits := by
    have := buffer.fits
    rw [List.length_append]
    split <;> omega

/-- The loop of `lex_string` with its buffer. -/
def lexStringLoopBuffered (line col : Nat) : Nat → Lexer → StringBuffer → Bool → Lexer
  | 0, lx, _, _ => lx
  | fuel + 1, lx, buffer, ok =>
      if atEnd lx then lexErrorAt lx line col lx.col unclosedString
      else if atIllFormedUtf8 lx then
        lexStringLoopBuffered line col fuel (lexIllFormedUtf8 lx) buffer false
      else
        let cp := peekCp lx
        if cp = 0x22 then
          let lx := skipCp lx
          if ok then pushTokenValue lx .string buffer.bytes line col lx.col else lx
        else if cp = 0x0A ∨ cp = 0x0D then lexErrorAt lx line col lx.col unclosedString
        else if cp = 0x5C then
          let lx := skipCp lx
          if atEnd lx then lexErrorAt lx line col lx.col unclosedString
          else
            match escapeByte (peekCp lx) with
            | some out => lexStringLoopBuffered line col fuel (skipCp lx) (buffer.putByte out) ok
            | none =>
                let lx := lexErrorAt lx lx.line lx.col (lx.col + 1)
                  (utf8 "تسلسل هروب غير معروف داخل السلسلة النصية")
                lexStringLoopBuffered line col fuel (skipCp lx) buffer false
        else
          let after := skipCp lx
          lexStringLoopBuffered line col fuel after (buffer.putCharacter (consumed lx after)) ok

/-- The buffer holds what the loop has read, however it grew. -/
theorem lexStringLoopBuffered_eq (line col fuel : Nat) (lx : Lexer) (buffer : StringBuffer)
    (ok : Bool) : lexStringLoopBuffered line col fuel lx buffer ok =
      lexStringLoop line col fuel lx buffer.bytes ok := by
  induction fuel generalizing lx buffer ok with
  | zero => rfl
  | succ fuel inductionHypothesis =>
      rw [lexStringLoopBuffered, lexStringLoop]
      simp only [inductionHypothesis]
      rfl

end Nazm.Lexer
