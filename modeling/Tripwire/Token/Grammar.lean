import Tripwire.Token.Scan

/-!
# The lexical grammar

Which characters write which tokens. The relation is told apart from the scanner and does not run: a
text is blanks and lexemes up to the end marker, a word reaches as far as no character ends it, and
an operator that an equals sign would change has none after it. A text that is not so has a first
character that can stand nowhere: an exclamation mark by itself or the mark of an open quotation.
-/

namespace Tripwire

namespace Text

/-- What a backslash and the letter after it write between two such marks. -/
inductive Escape (mark : Char) : Char → List Char → Prop where
  | newline : Escape mark 'n' ['\n']
  | tab : Escape mark 't' ['\t']
  | itself : Escape mark backslash [backslash]
  | mark : Escape mark mark [mark]
  | other {letter : Char} (notNewline : letter ≠ 'n') (notTab : letter ≠ 't')
      (notBackslash : letter ≠ backslash) (notMark : letter ≠ mark) :
      Escape mark letter [backslash, letter]

/-- The characters between two such marks and the contents that they write. A backslash takes the
character after it along, so that none of them is the closing mark. -/
inductive Spells (mark : Char) : List Char → List Char → Prop where
  | done : Spells mark [] []
  | plain {letter : Char} {rest contents : List Char} (notBackslash : letter ≠ backslash)
      (notMark : letter ≠ mark) (others : Spells mark rest contents) :
      Spells mark (letter :: rest) (letter :: contents)
  | escape {letter : Char} {written rest contents : List Char}
      (escape : Escape mark letter written) (others : Spells mark rest contents) :
      Spells mark (backslash :: letter :: rest) (written ++ contents)

/-- The mark that closes a quotation is among the characters after the one that opens it. -/
def Closes (mark : Char) (letters : List Char) : Prop :=
  ∃ interior contents after, letters = interior ++ mark :: after ∧ Spells mark interior contents

end Text

namespace Token

/-- The characters of a kind of tokens that are all written alike. -/
def Kind.symbol? : Kind → Option (List Char)
  | .junction joined => some joined.symbol.toList
  | .comparison operator => some operator.symbol.toList
  | .openParen => some ['(']
  | .closeParen => some [')']
  | .openBracket => some ['[']
  | .closeBracket => some [']']
  | .comma => some [',']
  | .word => none
  | .quoted => none
  | .finish => none

/-- The characters of a token and its text. -/
inductive Lexeme : Kind → List Char → List Char → Prop where
  | symbol {kind : Kind} {letters : List Char} (symbol : kind.symbol? = some letters) :
      Lexeme kind letters letters
  | word {letters : List Char} (nonempty : letters ≠ [])
      (inside : ∀ letter ∈ letters, isDelimiter letter = false) : Lexeme .word letters letters
  | quoted {mark : Char} {interior contents : List Char} (isMark : Text.isMark mark = true)
      (spells : Text.Spells mark interior contents) :
      Lexeme .quoted (mark :: (interior ++ [mark])) contents

/-- What may stand right after a token. -/
def MayPrecede : Kind → List Char → Prop
  | .word, rest => ∀ letter ∈ rest.head?, isDelimiter letter = true
  | .comparison .lt, rest => rest.head? ≠ some '='
  | .comparison .gt, rest => rest.head? ≠ some '='
  | _, _ => True

/-- A character with which no token begins where others follow it, and what is wrong with it. -/
inductive Breaks : Char → List Char → Flaw → Prop where
  | loneBang {after : List Char} (alone : after.head? ≠ some '=') : Breaks '!' after .loneBang
  | openQuote {mark : Char} {after : List Char} (isMark : Text.isMark mark = true)
      (notClosed : ¬Text.Closes mark after) : Breaks mark after .openQuote

/-- The characters from an offset on are blanks and lexemes, the tokens theirs with the end marker
last. -/
inductive Tiles : Nat → List Char → List Token → Prop where
  | done {offset : Nat} : Tiles offset [] [⟨.finish, "", ⟨offset, offset⟩⟩]
  | blank {offset : Nat} {letter : Char} {rest : List Char} {tokens : List Token}
      (isBlank : Text.isBlank letter = true)
      (others : Tiles (offset + letter.utf8Size) rest tokens) : Tiles offset (letter :: rest) tokens
  | lexeme {offset : Nat} {kind : Kind} {letters text rest : List Char} {tokens : List Token}
      (lexeme : Lexeme kind letters text) (followed : MayPrecede kind rest)
      (others : Tiles (offset + Text.byteLength letters) rest tokens) :
      Tiles offset (letters ++ rest)
        (⟨kind, String.ofList text, ⟨offset, offset + Text.byteLength letters⟩⟩ :: tokens)

end Token

end Tripwire
