import Tripwire.Proofs.Token.Lexemes

/-!
# Scanning follows the lexical grammar

What a scan between two lexemes does with the characters still to come depends on the lexeme that
begins there: it completes that token and is between two lexemes again. So the tokens of a text are
those that the lexical grammar tiles it with, and there are none where it cannot be tiled.
-/

namespace Tripwire

namespace Text

variable {mark letter : Char} {rest : List Char}

theorem closes_cons (mark : Char) (after : List Char) : Closes mark (mark :: after) :=
  ⟨[], [], after, rfl, .done⟩

theorem Closes.plain (notBackslash : letter ≠ backslash) (notMark : letter ≠ mark)
    (closes : Closes mark rest) : Closes mark (letter :: rest) := by
  obtain ⟨interior, contents, after, rfl, spells⟩ := closes
  exact ⟨_, _, after, rfl, .plain notBackslash notMark spells⟩

theorem Closes.escape (letter : Char) (closes : Closes mark rest) :
    Closes mark (backslash :: letter :: rest) := by
  obtain ⟨interior, contents, after, rfl, spells⟩ := closes
  exact ⟨_, _, after, rfl, .escape (Token.escape_unescape mark letter) spells⟩

end Text

namespace Token

theorem Lexeme.nonempty {kind : Kind} {letters text : List Char}
    (lexeme : Lexeme kind letters text) : letters ≠ [] := by
  cases lexeme with
  | symbol symbol =>
      rintro rfl
      cases kind with
      | junction joined => cases joined <;> cases symbol
      | comparison operator => cases operator <;> cases symbol
      | openParen | closeParen | openBracket | closeBracket | comma | word | quoted | finish =>
          cases symbol
  | word nonempty inside => exact nonempty
  | quoted isMark spells => exact List.cons_ne_nil _ _

/-! ## What may stand next -/

theorem mayPrecede_of_delimiter (kind : Kind) {rest : List Char}
    (ends : ∀ letter ∈ rest.head?, isDelimiter letter = true ∧ letter ≠ '=') :
    MayPrecede kind rest := by
  have apart : rest.head? ≠ some '=' := fun next => (ends '=' next).2 rfl
  cases kind with
  | word => exact fun letter next => (ends letter next).1
  | comparison operator => cases operator <;> first | exact apart | trivial
  | junction joined => trivial
  | openParen | closeParen | openBracket | closeBracket | comma | quoted | finish => trivial

/-- Only the first character after a token matters. -/
theorem MayPrecede.of_head? {kind : Kind} {rest other : List Char}
    (followed : MayPrecede kind rest) (same : ∀ letter ∈ other.head?, rest.head? = some letter) :
    MayPrecede kind other := by
  have apart (before : rest.head? ≠ some '=') : other.head? ≠ some '=' :=
    fun next => before (same '=' next)
  cases kind with
  | word => exact fun letter next => followed letter (same letter next)
  | comparison operator =>
      cases operator <;> first | exact apart followed | trivial
  | junction joined => trivial
  | openParen | closeParen | openBracket | closeBracket | comma | quoted | finish => trivial

theorem MayPrecede.of_append {kind : Kind} {before after : List Char}
    (followed : MayPrecede kind (before ++ after)) : MayPrecede kind before := by
  refine followed.of_head? fun letter next => ?_
  rw [List.head?_append, next]
  rfl

theorem Breaks.isDelimiter {letter : Char} {after : List Char} {flaw : Flaw}
    (breaks : Breaks letter after flaw) : isDelimiter letter = true ∧ letter ≠ '=' := by
  cases breaks with
  | loneBang alone => exact ⟨rfl, by decide⟩
  | openQuote isMark notClosed =>
      rw [Text.isMark, Bool.or_eq_true, beq_iff_eq, beq_iff_eq] at isMark
      rcases isMark with rfl | rfl <;> exact ⟨rfl, by decide⟩

/-- What breaks the text ends every token that it stands after. -/
theorem MayPrecede.append_of_breaks {kind : Kind} {rest after : List Char} {letter : Char}
    {flaw : Flaw} (followed : MayPrecede kind rest) (breaks : Breaks letter after flaw) :
    MayPrecede kind (rest ++ letter :: after) := by
  cases rest with
  | nil =>
      refine mayPrecede_of_delimiter kind fun next isNext => ?_
      cases isNext
      exact breaks.isDelimiter
  | cons first rest => exact followed.of_head? fun next isNext => isNext

namespace Scan

/-- The tokens of a scan that reads the characters still to come, the end marker last. -/
def finish (scan : Scan) (rest : List Char) : Except Error (List Token) := do
  let last ← rest.foldlM feed scan
  let complete ← last.close
  return (token .finish [] last.offset last.offset :: complete).reverse

variable {scan : Scan} {complete : List Token} {offset : Nat} {rest : List Char}

theorem finish_nil (scan : Scan) : scan.finish [] = scan.close.map fun complete =>
    (token .finish [] scan.offset scan.offset :: complete).reverse := rfl

theorem finish_cons (scan : Scan) (letter : Char) (rest : List Char) :
    scan.finish (letter :: rest) = scan.feed letter >>= (·.finish rest) := by
  unfold finish
  rw [List.foldlM_cons, bind_assoc]

theorem finish_append {letters : List Char} {next : Scan}
    (fed : letters.foldlM feed scan = .ok next) (rest : List Char) :
    scan.finish (letters ++ rest) = next.finish rest := by
  unfold finish
  rw [List.foldlM_append, fed]
  rfl

/-- A lexeme in progress is complete where the next character begins another or none is left. -/
theorem finish_of_close (closed : scan.close = .ok complete)
    (ends : ∀ letter ∈ rest.head?, scan.feed letter = .ok (enter complete scan.offset letter)) :
    scan.finish rest = finish ⟨complete, scan.offset, .between⟩ rest := by
  cases rest with
  | nil =>
      rw [finish_nil, finish_nil, closed]
      rfl
  | cons letter rest =>
      rw [finish_cons, finish_cons, ends letter rfl]
      rfl

theorem finish_blank {letter : Char} (isBlank : Text.isBlank letter = true) :
    finish ⟨complete, offset, .between⟩ (letter :: rest) =
      finish ⟨complete, offset + letter.utf8Size, .between⟩ rest := by
  rw [finish_cons, feed]
  simp only [enter, isBlank, if_true]
  rfl

/-! ## One lexeme -/

/-- The characters of a token are read whole: its span begins where they do and has their length. -/
theorem finish_of_foldlM {kind : Kind} {letters text : List Char} (stop : Nat)
    (fed : letters.foldlM feed ⟨complete, offset, .between⟩ =
      .ok ⟨token kind text offset stop :: complete, stop, .between⟩) (rest : List Char) :
    finish ⟨complete, offset, .between⟩ (letters ++ rest) =
      finish ⟨token kind text offset (offset + Text.byteLength letters) :: complete,
        offset + Text.byteLength letters, .between⟩ rest := by
  have length : stop = offset + Text.byteLength letters := foldlM_offset fed
  rw [finish_append fed, length]

theorem finish_single {letter : Char} {kind : Kind} (single : single? letter = some kind) :
    finish ⟨complete, offset, .between⟩ ([letter] ++ rest) =
      finish ⟨token kind [letter] offset (offset + Text.byteLength [letter]) :: complete,
        offset + Text.byteLength [letter], .between⟩ rest := by
  refine finish_of_foldlM (offset + letter.utf8Size) ?_ rest
  rw [List.foldlM_cons, feed]
  simp only [enter_of_single? single]
  rfl

theorem finish_joined (lead : Lead) :
    finish ⟨complete, offset, .between⟩ ([lead.letter, '='] ++ rest) =
      finish ⟨token (.comparison lead.joined) [lead.letter, '='] offset
          (offset + Text.byteLength [lead.letter, '=']) :: complete,
        offset + Text.byteLength [lead.letter, '='], .between⟩ rest := by
  refine finish_of_foldlM (offset + 2) ?_ rest
  cases lead <;> rfl

theorem finish_alone (lead : Lead) {operator : Comparison} (alone : lead.alone? = some operator)
    (followed : rest.head? ≠ some '=') :
    finish ⟨complete, offset, .between⟩ ([lead.letter] ++ rest) =
      finish ⟨token (.comparison operator) [lead.letter] offset
          (offset + Text.byteLength [lead.letter]) :: complete,
        offset + Text.byteLength [lead.letter], .between⟩ rest := by
  have begun : [lead.letter].foldlM feed ⟨complete, offset, .between⟩ =
      .ok ⟨complete, offset + Text.byteLength [lead.letter], .lead lead offset⟩ := by
    cases lead <;> rfl
  have closed : close ⟨complete, offset + Text.byteLength [lead.letter], .lead lead offset⟩ =
      .ok (token (.comparison operator) [lead.letter] offset
        (offset + Text.byteLength [lead.letter]) :: complete) := by
    rw [close]
    simp only [alone]
  rw [finish_append begun, finish_of_close closed]
  intro letter next
  have other : letter ≠ '=' := by
    rintro rfl
    exact followed next
  rw [feed]
  simp only [other, if_false, closed, Except.map]

theorem finish_word {letters : List Char} (nonempty : letters ≠ [])
    (inside : ∀ letter ∈ letters, isDelimiter letter = false)
    (followed : ∀ letter ∈ rest.head?, isDelimiter letter = true) :
    finish ⟨complete, offset, .between⟩ (letters ++ rest) =
      finish ⟨token .word letters offset (offset + Text.byteLength letters) :: complete,
        offset + Text.byteLength letters, .between⟩ rest := by
  obtain ⟨first, others, rfl⟩ := List.exists_cons_of_ne_nil nonempty
  obtain ⟨stop, fed⟩ := feed_word (fun letter member => inside letter (.tail _ member))
    complete (offset + first.utf8Size) offset [first]
  have read : (first :: others).foldlM feed ⟨complete, offset, .between⟩ =
      .ok ⟨complete, stop, .word offset (others.reverse ++ [first])⟩ := by
    rw [List.foldlM_cons, feed]
    simp only [enter_of_word (inside first (.head _))]
    exact fed
  have length : stop = offset + Text.byteLength (first :: others) := foldlM_offset read
  have closed : close ⟨complete, stop, .word offset (others.reverse ++ [first])⟩ =
      .ok (token .word (first :: others) offset stop :: complete) := by
    simp only [close, List.reverse_append, List.reverse_reverse, List.reverse_singleton,
      List.singleton_append]
  rw [finish_append read, finish_of_close closed, length]
  intro letter next
  rw [feed]
  simp only [followed letter next, if_true, closed, Except.map]

/-- Whatever lexeme begins between two lexemes, it is completed. -/
theorem finish_lexeme {kind : Kind} {letters text : List Char} (lexeme : Lexeme kind letters text)
    (followed : MayPrecede kind rest) (complete : List Token) (offset : Nat) :
    finish ⟨complete, offset, .between⟩ (letters ++ rest) =
      finish ⟨token kind text offset (offset + Text.byteLength letters) :: complete,
        offset + Text.byteLength letters, .between⟩ rest := by
  cases lexeme with
  | symbol symbol =>
      cases kind with
      | junction joined => cases joined <;> (cases symbol; exact finish_single rfl)
      | comparison operator =>
          cases operator with
          | eq => cases symbol; exact finish_single rfl
          | ne => cases symbol; exact finish_joined .bang
          | le => cases symbol; exact finish_joined .less
          | ge => cases symbol; exact finish_joined .greater
          | lt => cases symbol; exact finish_alone .less rfl followed
          | gt => cases symbol; exact finish_alone .greater rfl followed
      | openParen | closeParen | openBracket | closeBracket | comma =>
          cases symbol
          exact finish_single rfl
      | word | quoted | finish => cases symbol
  | word nonempty inside => exact finish_word nonempty inside followed
  | quoted isMark spells =>
      obtain ⟨stop, fed⟩ := feed_quoted isMark spells complete offset
      exact finish_of_foldlM stop fed rest

/-! ## The lexeme that begins -/

/-- Where nothing closes a quotation it is never complete. A backslash takes the character after it
along, whatever that is. -/
theorem finish_of_open {mark : Char} {rest : List Char} (complete : List Token) (start : Nat) :
    (¬Text.Closes mark rest → ∀ offset read,
      finish ⟨complete, offset, .quoted mark start read⟩ rest =
        .error (.malformed start .openQuote)) ∧
    (¬Text.Closes mark (Text.backslash :: rest) → ∀ offset read,
      finish ⟨complete, offset, .escaped mark start read⟩ rest =
        .error (.malformed start .openQuote)) := by
  induction rest with
  | nil => exact ⟨fun _ _ _ => rfl, fun _ _ _ => rfl⟩
  | cons letter rest ih =>
      constructor
      · intro notClosed offset read
        rw [finish_cons, feed]
        dsimp only
        split
        case isTrue isBackslash =>
          subst isBackslash
          exact ih.2 notClosed _ _
        case isFalse notBackslash =>
          split
          case isTrue isMark =>
            subst isMark
            exact absurd (Text.closes_cons letter rest) notClosed
          case isFalse notMark =>
            exact ih.1 (mt (Text.Closes.plain notBackslash notMark) notClosed) _ _
      · intro notClosed offset read
        exact ih.1 (mt (Text.Closes.escape letter) notClosed) _ _

/-- Where no token can begin the scan fails. -/
theorem finish_of_breaks {letter : Char} {flaw : Flaw} (breaks : Breaks letter rest flaw)
    (complete : List Token) (offset : Nat) :
    finish ⟨complete, offset, .between⟩ (letter :: rest) = .error (.malformed offset flaw) := by
  rw [finish_cons]
  cases breaks with
  | loneBang alone =>
      cases rest with
      | nil => rfl
      | cons next rest =>
          have other : next ≠ '=' := by simpa using alone
          change finish ⟨complete, offset + 1, .lead .bang offset⟩ (next :: rest) = _
          rw [finish_cons, feed]
          simp only [other, if_false]
          rfl
  | openQuote isMark notClosed =>
      have begun : feed ⟨complete, offset, .between⟩ letter =
          .ok ⟨complete, offset + letter.utf8Size, .quoted letter offset []⟩ :=
        feed_mark isMark complete offset
      rw [begun]
      exact (finish_of_open complete offset).1 notClosed _ _

theorem symbol?_of_single? {letter : Char} {kind : Kind} (single : single? letter = some kind) :
    kind.symbol? = some [letter] ∧ ∀ rest, MayPrecede kind rest := by
  unfold single? at single
  split at single <;> first | (cases single; exact ⟨rfl, fun _ => trivial⟩) | cases single

end Scan

theorem lexeme_or_breaks_of_lead (lead : Scan.Lead) (rest : List Char) :
    (∃ kind letters text later, lead.letter :: rest = letters ++ later ∧
      Lexeme kind letters text ∧ MayPrecede kind later) ∨
        ∃ flaw, Breaks lead.letter rest flaw := by
  by_cases followed : rest.head? = some '='
  · obtain ⟨later, rfl⟩ := List.head?_eq_some_iff.1 followed
    exact .inl ⟨.comparison lead.joined, [lead.letter, '='], _, later, rfl,
      .symbol (by cases lead <;> rfl), by cases lead <;> trivial⟩
  · cases lead with
    | bang => exact .inr ⟨_, .loneBang followed⟩
    | less => exact .inl ⟨.comparison .lt, ['<'], _, rest, rfl, .symbol rfl, followed⟩
    | greater => exact .inl ⟨.comparison .gt, ['>'], _, rest, rfl, .symbol rfl, followed⟩

/-- Where no blank stands a lexeme begins, unless no token can. -/
theorem lexeme_or_breaks {letter : Char} (notBlank : Text.isBlank letter = false)
    (rest : List Char) :
    (∃ kind letters text later, letter :: rest = letters ++ later ∧
      Lexeme kind letters text ∧ MayPrecede kind later) ∨ ∃ flaw, Breaks letter rest flaw := by
  by_cases isMark : Text.isMark letter = true
  · by_cases closes : Text.Closes letter rest
    · obtain ⟨interior, contents, later, rfl, spells⟩ := closes
      exact .inl ⟨.quoted, letter :: (interior ++ [letter]), contents, later, by simp,
        .quoted isMark spells, trivial⟩
    · exact .inr ⟨.openQuote, .openQuote isMark closes⟩
  · rw [Bool.not_eq_true] at isMark
    cases single : Scan.single? letter with
    | some kind =>
        obtain ⟨symbol, followed⟩ := Scan.symbol?_of_single? single
        exact .inl ⟨kind, [letter], [letter], rest, rfl, .symbol symbol, followed rest⟩
    | none =>
        cases isLead : Scan.Lead.ofLetter? letter with
        | some lead =>
            have same : letter = lead.letter := by
              unfold Scan.Lead.ofLetter? at isLead
              split at isLead <;> cases isLead <;> rfl
            rw [same]
            exact lexeme_or_breaks_of_lead lead rest
        | none =>
            have plain := isDelimiter_of_enter notBlank isMark single isLead
            refine .inl ⟨.word, (letter :: rest).takeWhile (!isDelimiter ·), _,
              (letter :: rest).dropWhile (!isDelimiter ·),
              List.takeWhile_append_dropWhile.symm, .word ?_ ?_, ?_⟩
            · simp [plain]
            · intro other member
              simpa using List.mem_takeWhile_imp member
            · intro other next
              have stops := List.head?_dropWhile_not (!isDelimiter ·) (letter :: rest)
              rw [next] at stops
              simpa using stops

/-! ## All lexemes -/

/-- The characters are tiled with tokens, or those before one that breaks the text are. -/
theorem tiles_or_breaks (length : Nat) {letters : List Char} (same : letters.length = length)
    (offset : Nat) :
    (∃ tokens, Tiles offset letters tokens) ∨ ∃ before letter after flaw tokens,
      letters = before ++ letter :: after ∧ Breaks letter after flaw ∧
        Tiles offset before tokens := by
  induction length using Nat.strong_induction_on generalizing letters offset with
  | h length ih =>
      cases letters with
      | nil => exact .inl ⟨_, .done⟩
      | cons letter rest =>
          cases blank : Text.isBlank letter with
          | true =>
              rcases ih rest.length (by simp [← same]) rfl (offset + letter.utf8Size) with
                ⟨tokens, tiles⟩ | ⟨before, broken, after, flaw, tokens, rfl, breaks, tiles⟩
              · exact .inl ⟨tokens, .blank blank tiles⟩
              · exact .inr ⟨_, broken, after, flaw, tokens, rfl, breaks, .blank blank tiles⟩
          | false =>
              rcases lexeme_or_breaks blank rest with
                ⟨kind, letters, text, later, split, lexeme, followed⟩ | ⟨flaw, breaks⟩
              · have shorter : later.length < length := by
                  have positive := List.length_pos_iff.2 lexeme.nonempty
                  rw [← same, split, List.length_append]
                  omega
                rw [split]
                rcases ih _ shorter rfl (offset + Text.byteLength letters) with
                  ⟨tokens, tiles⟩ | ⟨before, broken, after, flaw, tokens, rfl, breaks, tiles⟩
                · exact .inl ⟨_, .lexeme lexeme followed tiles⟩
                · exact .inr ⟨_, broken, after, flaw, _, (List.append_assoc ..).symm, breaks,
                    .lexeme lexeme followed.of_append tiles⟩
              · exact .inr ⟨[], letter, rest, flaw, _, rfl, breaks, .done⟩

namespace Tiles

variable {offset : Nat} {letters : List Char} {tokens : List Token}

/-- The characters are read as the tokens that tile them. -/
theorem finish_eq (tiles : Tiles offset letters tokens) (complete : List Token) :
    Scan.finish ⟨complete, offset, .between⟩ letters = .ok (complete.reverse ++ tokens) := by
  induction tiles generalizing complete with
  | done => exact congrArg Except.ok List.reverse_cons
  | blank isBlank others ih => rw [Scan.finish_blank isBlank, ih]
  | lexeme lexeme followed others ih =>
      rw [Scan.finish_lexeme lexeme followed, ih, List.reverse_cons, List.append_assoc]
      rfl

/-- After characters that are tiled with tokens, one that breaks the text is where it fails. -/
theorem finish_append_eq (tiles : Tiles offset letters tokens) {letter : Char}
    {after : List Char} {flaw : Flaw} (breaks : Breaks letter after flaw)
    (complete : List Token) :
    Scan.finish ⟨complete, offset, .between⟩ (letters ++ letter :: after) =
      .error (.malformed (offset + Text.byteLength letters) flaw) := by
  induction tiles generalizing complete with
  | done => exact Scan.finish_of_breaks breaks complete _
  | blank isBlank others ih =>
      rw [List.cons_append, Scan.finish_blank isBlank, ih, Text.byteLength_cons, Nat.add_assoc]
  | lexeme lexeme followed others ih =>
      rw [List.append_assoc, Scan.finish_lexeme lexeme (followed.append_of_breaks breaks), ih,
        Text.byteLength_append, Nat.add_assoc]

end Tiles

/-- A text is scanned to the tokens that the lexical grammar tiles it with, and to no others. -/
theorem scan_eq_ok_iff {text : String} {tokens : List Token} :
    scan text = .ok tokens ↔ Tiles 0 text.toList tokens := by
  constructor
  · intro scanned
    change Scan.finish Scan.start text.toList = _ at scanned
    rcases tiles_or_breaks _ rfl 0 with
      ⟨others, tiles⟩ | ⟨before, letter, after, flaw, others, split, breaks, tiles⟩
    · have same := scanned.symm.trans (tiles.finish_eq [])
      cases same
      exact tiles
    · rw [split] at scanned
      cases scanned.symm.trans (tiles.finish_append_eq breaks [])
  · exact fun tiles => tiles.finish_eq []

theorem Tiles.scan_ofList {letters : List Char} {tokens : List Token}
    (tiles : Tiles 0 letters tokens) : scan (String.ofList letters) = .ok tokens := by
  rwa [scan_eq_ok_iff, String.toList_ofList]

end Token

end Tripwire
