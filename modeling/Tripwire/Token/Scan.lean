import Tripwire.Text.Blank
import Tripwire.Text.Quoted
import Tripwire.Text.Utf8
import Tripwire.Token

/-!
# Scanning

Expression text is read one character at a time. A scan remembers the tokens that are
complete and the lexeme that it is in the middle of; at the end of the text the lexeme is
completed and the end marker follows. A scan fails on an exclamation mark that no equals
sign follows and on a quoted text that is never closed, each at the byte where it starts.
-/

namespace Tripwire.Token

/-- The characters other than blanks that end a bare word. -/
def punctuation : List Char :=
  ['(', ')', '[', ']', ',', '&', '|', '=', '!', '<', '>', Text.singleMark, Text.doubleMark]

/-- The characters that no bare word contains. -/
def isDelimiter (letter : Char) : Bool :=
  Text.isBlank letter || punctuation.contains letter

/-- A character that an equals sign after it changes. -/
inductive Scan.Lead where
  | bang
  | less
  | greater
deriving DecidableEq, Repr

namespace Scan.Lead

def letter : Lead → Char
  | bang => '!'
  | less => '<'
  | greater => '>'

def ofLetter? : Char → Option Lead
  | '!' => some bang
  | '<' => some less
  | '>' => some greater
  | _ => none

/-- The operator that it makes together with an equals sign. -/
def joined : Lead → Comparison
  | bang => .ne
  | less => .le
  | greater => .ge

/-- The operator that it is without one. -/
def alone? : Lead → Option Comparison
  | bang => none
  | less => some .lt
  | greater => some .gt

end Scan.Lead

/-- The lexeme that a scan is in the middle of. The characters read are latest first. -/
inductive Scan.Mode where
  | between
  | word (start : Nat) (read : List Char)
  | lead (lead : Scan.Lead) (start : Nat)
  | quoted (mark : Char) (start : Nat) (read : List Char)
  | escaped (mark : Char) (start : Nat) (read : List Char)
deriving DecidableEq, Repr

/-- The progress of a scan: the complete tokens are latest first. -/
structure Scan where
  complete : List Token
  offset : Nat
  mode : Scan.Mode
deriving DecidableEq, Repr

namespace Scan

def start : Scan := ⟨[], 0, .between⟩

/-- A token from a lexeme's start up to a stop. -/
def token (kind : Kind) (text : List Char) (start stop : Nat) : Token :=
  ⟨kind, String.ofList text, ⟨start, stop⟩⟩

/-- The token that a character always is by itself. -/
def single? : Char → Option Kind
  | '(' => some .openParen
  | ')' => some .closeParen
  | '[' => some .openBracket
  | ']' => some .closeBracket
  | ',' => some .comma
  | '&' => some (.junction .all)
  | '|' => some (.junction .any)
  | '=' => some (.comparison .eq)
  | _ => none

/-- Begins a lexeme with a character that stands after a complete one. -/
def enter (complete : List Token) (offset : Nat) (letter : Char) : Scan :=
  let next := offset + letter.utf8Size
  if Text.isBlank letter then ⟨complete, next, .between⟩
  else if Text.isMark letter then ⟨complete, next, .quoted letter offset []⟩
  else
    match single? letter, Lead.ofLetter? letter with
    | some kind, _ => ⟨token kind [letter] offset next :: complete, next, .between⟩
    | none, some lead => ⟨complete, next, .lead lead offset⟩
    | none, none => ⟨complete, next, .word offset [letter]⟩

/-- Completes the lexeme in progress, given that the character after it is no part of it. -/
def close (scan : Scan) : Except Error (List Token) :=
  match scan.mode with
  | .between => .ok scan.complete
  | .word start read => .ok (token .word read.reverse start scan.offset :: scan.complete)
  | .lead lead start =>
      match lead.alone? with
      | some operator =>
          .ok (token (.comparison operator) [lead.letter] start scan.offset :: scan.complete)
      | none => .error (.malformed start .loneBang)
  | .quoted _ start _ => .error (.malformed start .openQuote)
  | .escaped _ start _ => .error (.malformed start .openQuote)

/-- Reads one more character. -/
def feed (scan : Scan) (letter : Char) : Except Error Scan :=
  let next := scan.offset + letter.utf8Size
  match scan.mode with
  | .between => .ok (enter scan.complete scan.offset letter)
  | .word start read =>
      if isDelimiter letter then
        scan.close.map fun complete => enter complete scan.offset letter
      else .ok ⟨scan.complete, next, .word start (letter :: read)⟩
  | .lead lead start =>
      if letter = '=' then
        let whole := token (.comparison lead.joined) [lead.letter, letter] start next
        .ok ⟨whole :: scan.complete, next, .between⟩
      else scan.close.map fun complete => enter complete scan.offset letter
  | .quoted mark start read =>
      if letter = Text.backslash then .ok ⟨scan.complete, next, .escaped mark start read⟩
      else if letter = mark then
        .ok ⟨token .quoted read.reverse start next :: scan.complete, next, .between⟩
      else .ok ⟨scan.complete, next, .quoted mark start (letter :: read)⟩
  | .escaped mark start read =>
      let read := (Text.unescape mark letter).reverse ++ read
      .ok ⟨scan.complete, next, .quoted mark start read⟩

theorem enter_offset (complete : List Token) (offset : Nat) (letter : Char) :
    (enter complete offset letter).offset = offset + letter.utf8Size := by
  unfold enter
  dsimp only
  split
  · rfl
  split
  · rfl
  split <;> rfl

/-- Reading a character moves the offset past its bytes. -/
theorem feed_offset {scan next : Scan} {letter : Char} (fed : scan.feed letter = .ok next) :
    next.offset = scan.offset + letter.utf8Size := by
  have entered (closed : (scan.close.map fun complete =>
      enter complete scan.offset letter) = .ok next) :
      next.offset = scan.offset + letter.utf8Size := by
    cases ended : scan.close with
    | error error => rw [ended] at closed; cases closed
    | ok complete => rw [ended] at closed; cases closed; exact enter_offset ..
  unfold feed at fed
  dsimp only at fed
  split at fed
  · cases fed; exact enter_offset ..
  · split at fed
    · exact entered fed
    · cases fed; rfl
  · split at fed
    · cases fed; rfl
    · exact entered fed
  · split at fed
    · cases fed; rfl
    split at fed <;> (cases fed; rfl)
  · cases fed; rfl

/-- The offset of a scan is the number of bytes read. -/
theorem foldlM_offset {letters : List Char} {scan next : Scan}
    (fed : letters.foldlM feed scan = .ok next) :
    next.offset = scan.offset + Text.byteLength letters := by
  induction letters generalizing scan with
  | nil => cases fed; simp
  | cons letter rest ih =>
      cases first : scan.feed letter with
      | error error =>
          rw [List.foldlM_cons, first] at fed
          cases fed
      | ok middle =>
          rw [List.foldlM_cons, first] at fed
          rw [ih fed, feed_offset first, Text.byteLength_cons, Nat.add_assoc]

end Scan

/-- The tokens of a list of characters, with the end marker last. -/
def scanChars (letters : List Char) : Except Error (List Token) := do
  let scan ← letters.foldlM Scan.feed Scan.start
  let complete ← scan.close
  return (Scan.token .finish [] scan.offset scan.offset :: complete).reverse

/-- The tokens of a text, with the end marker last. -/
def scan (text : String) : Except Error (List Token) :=
  scanChars text.toList

end Tripwire.Token
