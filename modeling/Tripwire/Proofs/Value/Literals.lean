import Tripwire.Proofs.Token.Scanning
import Tripwire.Proofs.Value.Reading

/-!
# Literals of values

The literal of a value is one token, bare or quoted, whatever characters a text consists of. By the
type of the value it is read as the value again, unless that is no number.
-/

namespace Tripwire.Value

/-- The literal of a value is a lexeme that contains what the type is to read. -/
theorem exists_lexeme_letters (value : Value) : ∃ kind,
    (kind = .word ∨ kind = .quoted) ∧ Token.Lexeme kind value.letters value.contents := by
  rcases value.letters_cases with ⟨bare, isBare⟩ | quoted
  · rw [bare]
    exact ⟨.word, .inl rfl, .word isBare.nonempty isBare.inside⟩
  · rw [quoted]
    exact ⟨.quoted, .inr rfl, .quoted rfl (Token.spells_escape value.contents)⟩

/-- The literal of a value is scanned to one token, which is read as the value. -/
theorem scan_print (value : Value) : ∃ token : Token,
    Token.scan value.print = .ok [token, ⟨.finish, "",
      ⟨Text.byteLength value.print.toList, Text.byteLength value.print.toList⟩⟩] ∧
    (token.kind = .word ∨ token.kind = .quoted) ∧
    token.span = ⟨0, Text.byteLength value.print.toList⟩ ∧
    (value.isNan = false → value.type.read? token.text = some value) := by
  obtain ⟨kind, bareOrQuoted, lexeme⟩ := value.exists_lexeme_letters
  have alone : Token.MayPrecede kind [] := by
    rcases bareOrQuoted with rfl | rfl
    · intro letter next
      cases next
    · trivial
  have tiles := @Token.Tiles.lexeme 0 _ _ _ _ _ lexeme alone .done
  rw [List.append_nil, Nat.zero_add] at tiles
  have printed : value.print.toList = value.letters := String.toList_ofList
  refine ⟨⟨kind, String.ofList value.contents, ⟨0, Text.byteLength value.letters⟩⟩, ?_,
    bareOrQuoted, ?_, value.read?_contents_of_isNumber⟩
  · rw [Token.scan_eq_ok_iff, printed]
    exact tiles
  · rw [printed]

/-- Quotes of both kinds, an escape that is none, a line break and a delimiter between two words. -/
theorem scan_print_text :
    let value : Value := .text "it's \\n\n\"(ü)\",b"
    value.isNan = false ∧ value.print = "'it\\'s \\\\n\n\"(ü)\",b'" ∧
      ∃ token : Token, Token.scan value.print = .ok [token, ⟨.finish, "", ⟨20, 20⟩⟩] ∧
        token.span = ⟨0, 20⟩ ∧ value.type.read? token.text = some value := by
  intro value
  have length : Text.byteLength value.print.toList = 20 := by decide +kernel
  obtain ⟨token, scanned, _, span, read⟩ := value.scan_print
  rw [length] at scanned span
  exact ⟨rfl, by decide +kernel, token, scanned, span, read rfl⟩

end Tripwire.Value
