import Tripwire.Json.Numeral

/-!
# Reading JSON

What is read is JSON as its standard has it and no more: one value, blanks around its tokens, no
comment, no comma after a last item, and in texts no bare control character and no other escape
than the standard ones. An escape may name half of a pair, and a number may have any size: whoever
asks for the string or the number meets the fault, and a value that is passed over has none.

A text is split into tokens one character at a time, and the tokens make a value one token at
a time. The open arrays and objects are kept as a list, so nesting has no limit. The documented
limit of 128 is one on values that are decoded. What is passed over may be nested deeper, and no
record has a field that could be: a value as deep as that is refused where one is decoded, limit
or not.
-/

namespace Tripwire.Json

/-- A word of a JSON text. -/
inductive Token where
  | openArray
  | closeArray
  | openObject
  | closeObject
  | comma
  | colon
  | scalar (value : Json)

namespace Token

/-- The lexeme that a scan is in the middle of; what it has read is latest first. -/
inductive Mode where
  | between
  | bare (read : List Char)
  | text (read : List Piece)
  | escape (read : List Piece)
  | unit (digits : List Nat) (read : List Piece)

/-- The complete tokens, latest first, and the lexeme in progress. -/
structure Scan where
  complete : List Token
  mode : Mode

def isBlank (letter : Char) : Bool :=
  letter == ' ' || letter == '\t' || letter == '\n' || letter == '\r'

/-- The token that a character always is by itself. -/
def single? : Char → Option Token
  | '[' => some .openArray
  | ']' => some .closeArray
  | '\x7b' => some .openObject
  | '\x7d' => some .closeObject
  | ',' => some .comma
  | ':' => some .colon
  | _ => none

/-- The character that starts and ends a text. -/
def mark : Char := '\x22'

/-- The character that starts an escape. -/
def backslash : Char := '\x5c'

/-- Begins a lexeme with a character that stands after a complete one. -/
def enter (complete : List Token) (letter : Char) : Scan :=
  if isBlank letter then ⟨complete, .between⟩
  else if letter = mark then ⟨complete, .text []⟩
  else
    match single? letter with
    | some token => ⟨token :: complete, .between⟩
    | none => ⟨complete, .bare [letter]⟩

/-- The value of a bare word. -/
def bareValue? (letters : List Char) : Option Json :=
  match String.ofList letters with
  | "null" => some .null
  | "true" => some (.boolean true)
  | "false" => some (.boolean false)
  | _ => (Numeral.ofLetters? letters).map fun _ => .number letters

/-- Whether a character cannot stand in a bare word. -/
def endsBare (letter : Char) : Bool :=
  isBlank letter || letter == mark || (single? letter).isSome

/-- The character that a backslash and a letter stand for. -/
def unescape? (letter : Char) : Option Char :=
  if letter = mark || letter = backslash || letter = '/' then some letter
  else
    match letter with
    | 'b' => some '\x08'
    | 'f' => some '\x0c'
    | 'n' => some '\n'
    | 'r' => some '\r'
    | 't' => some '\t'
    | _ => none

/-- Completes the lexeme in progress at a place where it may end. -/
def close? (scan : Scan) : Option (List Token) :=
  match scan.mode with
  | .between => some scan.complete
  | .bare read =>
      (bareValue? read.reverse).map fun value => .scalar value :: scan.complete
  | _ => none

/-- Reads one more character. -/
def feed (scan : Scan) (letter : Char) : Option Scan :=
  match scan.mode with
  | .between => some (enter scan.complete letter)
  | .bare read =>
      if endsBare letter then (close? scan).map (enter · letter)
      else some { scan with mode := .bare (letter :: read) }
  | .text read =>
      if letter = mark then some ⟨.scalar (.text read.reverse) :: scan.complete, .between⟩
      else if letter = backslash then some { scan with mode := .escape read }
      else if letter.toNat < 0x20 then none
      else some { scan with mode := .text (.letter letter :: read) }
  | .escape read =>
      if letter = 'u' then some { scan with mode := .unit [] read }
      else
        (unescape? letter).map fun meant => { scan with mode := .text (.letter meant :: read) }
  | .unit digits read =>
      (Number.digit? 16 letter).map fun digit =>
        match digits with
        | [third, second, first] =>
            let unit := Number.ofDigits 16 [first, second, third, digit]
            { scan with mode := .text (.ofUnit unit :: read) }
        | _ => { scan with mode := .unit (digit :: digits) read }

/-- The tokens of a text. -/
def scan? (letters : List Char) : Option (List Token) := do
  let scan ← letters.foldlM feed ⟨[], .between⟩
  let complete ← close? scan
  return complete.reverse

end Token

/-- An open array with its items, or an open object with its entries and the key whose value
is being read; both latest first. -/
inductive Parser.Frame where
  | items (earlier : List Json)
  | entry (earlier : List (List Piece × Json)) (key : List Piece)

/-- What the next token has to be. -/
inductive Parser.Awaiting where
  | value
  | firstItem
  | firstKey
  | key (earlier : List (List Piece × Json))
  | colon (earlier : List (List Piece × Json)) (key : List Piece)
  | follower (value : Json)

/-- The open arrays and objects, innermost first, and what comes next. -/
structure Parser where
  frames : List Parser.Frame
  awaiting : Parser.Awaiting

namespace Parser

/-- Reads the first token of a value. -/
def readValue? (frames : List Frame) : Token → Option Parser
  | .scalar value => some ⟨frames, .follower value⟩
  | .openArray => some ⟨frames, .firstItem⟩
  | .openObject => some ⟨frames, .firstKey⟩
  | _ => none

/-- Reads a key after the entries before it. -/
def readKey? (frames : List Frame) (earlier : List (List Piece × Json)) :
    Token → Option Parser
  | .scalar (.text key) => some ⟨frames, .colon earlier key⟩
  | _ => none

/-- Reads what follows a value. -/
def readFollower? (value : Json) : List Frame → Token → Option Parser
  | .items earlier :: outer, .comma => some ⟨.items (value :: earlier) :: outer, .value⟩
  | .items earlier :: outer, .closeArray =>
      some ⟨outer, .follower (.array (value :: earlier).reverse)⟩
  | .entry earlier key :: outer, .comma => some ⟨outer, .key ((key, value) :: earlier)⟩
  | .entry earlier key :: outer, .closeObject =>
      some ⟨outer, .follower (.object ((key, value) :: earlier).reverse)⟩
  | _, _ => none

/-- Reads one more token. -/
def read? (parser : Parser) (token : Token) : Option Parser :=
  match parser.awaiting, token with
  | .value, _ => readValue? parser.frames token
  | .firstItem, .closeArray => some ⟨parser.frames, .follower (.array [])⟩
  | .firstItem, _ => readValue? (.items [] :: parser.frames) token
  | .firstKey, .closeObject => some ⟨parser.frames, .follower (.object [])⟩
  | .firstKey, _ => readKey? parser.frames [] token
  | .key earlier, _ => readKey? parser.frames earlier token
  | .colon earlier key, .colon => some ⟨.entry earlier key :: parser.frames, .value⟩
  | .colon _ _, _ => none
  | .follower value, _ => readFollower? value parser.frames token

/-- The value that all tokens make. -/
def conclude? (parser : Parser) : Option Json :=
  match parser.frames, parser.awaiting with
  | [], .follower value => some value
  | _, _ => none

end Parser

/-- The value that a text writes. -/
def parse? (text : String) : Option Json := do
  let tokens ← Token.scan? text.toList
  let parser ← tokens.foldlM Parser.read? ⟨[], .value⟩
  parser.conclude?

end Tripwire.Json
