import Mathlib.Data.List.Chain
import Mathlib.Data.Nat.Basic
import Nazm.Lexer.Encoding
import Nazm.Library.Loops

/-!
The loops of the tokenizer, over any bytes.

Owns one turn of each loop of `src/lexer/lexer.c`, that a turn which goes on takes
bytes from the front of what is unread, and that each loop ends with what its
recursion on fuel computes.

Does not own the loops over tables, which do not depend on the source.
-/

namespace Nazm.Lexer

open Nazm.Encoder Nazm.Unicode Nazm.Diagnostics Loops

/-! ## One turn of each loop -/

section Turns

variable {lx : Lexer}

end Turns

/-! ## Lines and tokens of a turn -/

section Lines

variable {before after lx : Lexer}

/-- What a turn of `lex_all` does: it reads on, and pushes at most one token, of the
line that it started in; no newline follows a newline. -/
structure Emits (before after : Lexer) : Prop where
  rest : after.rest <:+ before.rest
  line : before.line ≤ after.line
  out : after.out = before.out ∨ ∃ token, after.out = before.out ++ [token] ∧
    token.line = before.line ∧ token.type ≠ .eof ∧
    (token.type = .newline → lastTokenIsNewline before = false)

theorem Emits.silent (advances : Advances before after) (line : before.line ≤ after.line) :
    Emits before after :=
  ⟨advances.rest, line, .inl advances.out⟩

theorem Emits.push (advances : Advances before after) (line : before.line ≤ after.line)
    {type : TokenType} (value : List UInt8) (col endCol : Nat)
    (ordinary : type ≠ .eof ∧ type ≠ .newline) :
    Emits before (pushTokenValue after type value before.line col endCol) :=
  ⟨advances.rest, line, .inr ⟨_, congrArg (· ++ [_]) advances.out, rfl, ordinary.1,
    fun newline => absurd newline ordinary.2⟩⟩

end Lines

section Tokens

variable {tokens : List Token} {line : Nat} {token : Token} {before after : Lexer}

end Tokens

end Nazm.Lexer
