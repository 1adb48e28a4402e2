import Tripwire.Proofs.Steps
import Tripwire.Proofs.Value.Reading
import Tripwire.Token.Grammar

/-!
# Scanning what was put together

Characters that end where a lexeme ends are scanned to the same lexemes wherever they stand, so the
lexemes of a text are those of its pieces in turn. Punctuation stands for itself, a bare word ends
at the punctuation after it, and quoting a text makes one lexeme that contains it. In turn every
word that a scan completes is bare.
-/

namespace Tripwire.Token

/-- What a token says, wherever it stands. -/
def lexeme (token : Token) : Kind × List Char :=
  (token.kind, token.text.toList)

/-- Between two lexemes, characters are scanned to lexemes that end with them. -/
def Lexes (letters : List Char) (lexemes : List (Kind × List Char)) : Prop :=
  ∀ complete offset, ∃ (tokens : List Token) (stop : Nat), tokens.map lexeme = lexemes ∧
    letters.foldlM Scan.feed ⟨complete, offset, .between⟩ =
      .ok ⟨tokens.reverse ++ complete, stop, .between⟩

theorem Lexes.append {first second : List Char} {lexemes more : List (Kind × List Char)}
    (early : Lexes first lexemes) (late : Lexes second more) :
    Lexes (first ++ second) (lexemes ++ more) := by
  intro complete offset
  obtain ⟨tokens, middle, same, read⟩ := early complete offset
  obtain ⟨others, stop, alsoSame, alsoRead⟩ := late (tokens.reverse ++ complete) middle
  refine ⟨tokens ++ others, stop, by rw [List.map_append, same, alsoSame], ?_⟩
  rw [List.foldlM_append, read, List.reverse_append, List.append_assoc]
  exact alsoRead

/-- Scanning from between two lexemes to between two lexemes, with one token. -/
theorem lexes_of_token {letters : List Char} {kind : Kind} {text : List Char}
    (scanned : ∀ complete offset, ∃ start stop last,
      letters.foldlM Scan.feed ⟨complete, offset, .between⟩ =
        .ok ⟨Scan.token kind text start stop :: complete, last, .between⟩) :
    Lexes letters [(kind, text)] := by
  intro complete offset
  obtain ⟨start, stop, last, read⟩ := scanned complete offset
  refine ⟨[Scan.token kind text start stop], last, ?_, read⟩
  simp [lexeme, Scan.token]

/-! ## Punctuation -/

theorem isDelimiter_of_single? {letter : Char} {kind : Kind}
    (single : Scan.single? letter = some kind) : isDelimiter letter = true := by
  unfold Scan.single? at single
  split at single <;> first | rfl | cases single

theorem enter_of_single? {letter : Char} {kind : Kind} (single : Scan.single? letter = some kind)
    (complete : List Token) (offset : Nat) :
    Scan.enter complete offset letter =
      ⟨Scan.token kind [letter] offset (offset + letter.utf8Size) :: complete,
        offset + letter.utf8Size, .between⟩ := by
  unfold Scan.single? at single
  split at single <;> first | (cases single; rfl) | cases single

theorem lexes_single {letter : Char} {kind : Kind} (single : Scan.single? letter = some kind) :
    Lexes [letter] [(kind, [letter])] := by
  refine lexes_of_token fun complete offset =>
    ⟨offset, offset + letter.utf8Size, offset + letter.utf8Size, ?_⟩
  rw [List.foldlM_cons, Scan.feed]
  simp only [enter_of_single? single]
  rfl

theorem lexes_joined (lead : Scan.Lead) :
    Lexes [lead.letter, '='] [(.comparison lead.joined, [lead.letter, '='])] := by
  refine lexes_of_token fun complete offset => ⟨offset, offset + 2, offset + 2, ?_⟩
  cases lead <;> rfl

theorem lexes_alone {lead : Scan.Lead} {operator : Comparison}
    (alone : lead.alone? = some operator) :
    Lexes [lead.letter, '('] [(.comparison operator, [lead.letter]), (.openParen, ['('])] := by
  intro complete offset
  refine ⟨[Scan.token (.comparison operator) [lead.letter] offset (offset + 1),
    Scan.token .openParen ['('] (offset + 1) (offset + 2)], offset + 2, ?_, ?_⟩
  · simp [lexeme, Scan.token]
  · cases lead with
    | bang => cases alone
    | less | greater =>
        cases alone
        rfl

/-- An operator is a lexeme before a parenthesis. -/
theorem lexes_operator (operator : Comparison) :
    Lexes (operator.symbol.toList ++ ['('])
      [(.comparison operator, operator.symbol.toList), (.openParen, ['('])] := by
  have opens : Lexes ['('] [(.openParen, ['('])] := lexes_single rfl
  cases operator with
  | eq => exact Lexes.append (lexes_single rfl) opens
  | ne => exact (lexes_joined .bang).append opens
  | le => exact (lexes_joined .less).append opens
  | ge => exact (lexes_joined .greater).append opens
  | lt =>
      have alone : Scan.Lead.less.alone? = some .lt := rfl
      exact lexes_alone alone
  | gt =>
      have alone : Scan.Lead.greater.alone? = some .gt := rfl
      exact lexes_alone alone

/-! ## Bare words -/

theorem enter_of_word {letter : Char} (inside : isDelimiter letter = false)
    (complete : List Token) (offset : Nat) :
    Scan.enter complete offset letter =
      ⟨complete, offset + letter.utf8Size, .word offset [letter]⟩ := by
  have apart {other : Char} (ends : isDelimiter other = true) : letter ≠ other := by
    rintro rfl
    rw [inside] at ends
    cases ends
  have notBlank : Text.isBlank letter = false := by
    rw [isDelimiter, Bool.or_eq_false_iff] at inside
    exact inside.1
  have notMark : Text.isMark letter = false := by
    rw [Text.isMark, Bool.or_eq_false_iff, beq_eq_false_iff_ne, beq_eq_false_iff_ne]
    exact ⟨apart rfl, apart rfl⟩
  have notSingle : Scan.single? letter = none := by
    rw [Option.eq_none_iff_forall_ne_some]
    intro kind single
    rw [isDelimiter_of_single? single] at inside
    cases inside
  have notLead : Scan.Lead.ofLetter? letter = none := by
    unfold Scan.Lead.ofLetter?
    split
    case h_1 | h_2 | h_3 => cases inside
    case h_4 => rfl
  unfold Scan.enter
  simp only [notBlank, notMark, notSingle, notLead, Bool.false_eq_true, if_false]

theorem feed_word {letters : List Char}
    (inside : ∀ letter ∈ letters, isDelimiter letter = false) (complete : List Token)
    (offset start : Nat) (read : List Char) :
    ∃ stop, letters.foldlM Scan.feed ⟨complete, offset, .word start read⟩ =
      .ok ⟨complete, stop, .word start (letters.reverse ++ read)⟩ := by
  induction letters generalizing offset read with
  | nil => exact ⟨offset, rfl⟩
  | cons letter rest ih =>
      obtain ⟨stop, fed⟩ := ih (fun other member => inside other (.tail _ member))
        (offset + letter.utf8Size) (letter :: read)
      refine ⟨stop, ?_⟩
      rw [List.foldlM_cons, Scan.feed]
      simp only [inside letter (.head _), Bool.false_eq_true, if_false]
      rw [List.reverse_cons, List.append_assoc]
      exact fed

/-- A bare word is a lexeme before punctuation. -/
theorem lexes_word {word : List Char} (bare : IsBare word) {letter : Char} {kind : Kind}
    (single : Scan.single? letter = some kind) :
    Lexes (word ++ [letter]) [(.word, word), (kind, [letter])] := by
  intro complete offset
  obtain ⟨first, rest, rfl⟩ := List.exists_cons_of_ne_nil bare.nonempty
  obtain ⟨stop, fed⟩ := feed_word (fun other member => bare.inside other (.tail _ member))
    complete (offset + first.utf8Size) offset [first]
  refine ⟨[Scan.token .word (first :: rest) offset stop,
    Scan.token kind [letter] stop (stop + letter.utf8Size)], stop + letter.utf8Size, ?_, ?_⟩
  · simp [lexeme, Scan.token]
  · have begun : Scan.feed ⟨complete, offset, .between⟩ first =
        .ok ⟨complete, offset + first.utf8Size, .word offset [first]⟩ :=
      congrArg Except.ok (enter_of_word (bare.inside first (.head _)) complete offset)
    have ended : Scan.feed ⟨complete, stop, .word offset (rest.reverse ++ [first])⟩ letter =
        .ok (Scan.enter (Scan.token .word (first :: rest) offset stop :: complete) stop
          letter) := by
      simp only [Scan.feed, isDelimiter_of_single? single, if_true, Scan.close, Except.map,
        List.reverse_append, List.reverse_reverse, List.reverse_singleton, List.singleton_append]
    change (List.foldlM Scan.feed _ (first :: (rest ++ [letter]))) = _
    rw [List.foldlM_cons, begun]
    change (rest ++ [letter]).foldlM Scan.feed _ = _
    rw [List.foldlM_append, fed]
    change [letter].foldlM Scan.feed _ = _
    rw [List.foldlM_cons, ended, enter_of_single? single]
    rfl

/-! ## Quoted texts -/

theorem unescape_eq {mark letter : Char} {written : List Char} (isMark : Text.isMark mark = true)
    (escape : Text.Escape mark letter written) : Text.unescape mark letter = written := by
  cases escape with
  | newline | tab | itself => rfl
  | mark =>
      rw [Text.isMark, Bool.or_eq_true, beq_iff_eq, beq_iff_eq] at isMark
      rcases isMark with rfl | rfl <;> rfl
  | other notNewline notTab notBackslash notMark =>
      rw [Text.unescape, if_neg notNewline, if_neg notTab, if_neg notBackslash, if_neg notMark]

theorem escape_unescape (mark letter : Char) :
    Text.Escape mark letter (Text.unescape mark letter) := by
  unfold Text.unescape
  split
  case isTrue same =>
    subst same
    exact .newline
  case isFalse notNewline =>
    split
    case isTrue same =>
      subst same
      exact .tab
    case isFalse notTab =>
      split
      case isTrue same =>
        subst same
        exact .itself
      case isFalse notBackslash =>
        split
        case isTrue same =>
          subst same
          exact .mark
        case isFalse notMark => exact .other notNewline notTab notBackslash notMark

/-- What is between two marks is read as what it spells. -/
theorem feed_spells {mark : Char} (isMark : Text.isMark mark = true) {interior contents : List Char}
    (spells : Text.Spells mark interior contents) (complete : List Token) (offset start : Nat)
    (read : List Char) :
    ∃ stop, interior.foldlM Scan.feed ⟨complete, offset, .quoted mark start read⟩ =
      .ok ⟨complete, stop, .quoted mark start (contents.reverse ++ read)⟩ := by
  induction spells generalizing offset read with
  | done => exact ⟨offset, rfl⟩
  | @plain letter rest contents notBackslash notMark others ih =>
      obtain ⟨stop, fed⟩ := ih (offset + letter.utf8Size) (letter :: read)
      refine ⟨stop, ?_⟩
      rw [List.foldlM_cons, Scan.feed, List.reverse_cons, List.append_assoc]
      simp only [notBackslash, notMark, if_false]
      exact fed
  | @escape letter written rest contents escape others ih =>
      obtain ⟨stop, fed⟩ := ih (offset + Text.backslash.utf8Size + letter.utf8Size)
        (written.reverse ++ read)
      refine ⟨stop, ?_⟩
      rw [List.foldlM_cons]
      change List.foldlM Scan.feed ⟨complete, offset + Text.backslash.utf8Size,
        .escaped mark start read⟩ (letter :: rest) = _
      rw [List.foldlM_cons, Scan.feed, List.reverse_append, List.append_assoc]
      simp only [unescape_eq isMark escape]
      exact fed

/-- A mark between two lexemes begins a quoted text. -/
theorem feed_mark {mark : Char} (isMark : Text.isMark mark = true) (complete : List Token)
    (offset : Nat) : Scan.feed ⟨complete, offset, .between⟩ mark =
      .ok ⟨complete, offset + mark.utf8Size, .quoted mark offset []⟩ := by
  rw [Text.isMark, Bool.or_eq_true, beq_iff_eq, beq_iff_eq] at isMark
  rcases isMark with rfl | rfl <;> rfl

theorem feed_quoted {mark : Char} (isMark : Text.isMark mark = true)
    {interior contents : List Char} (spells : Text.Spells mark interior contents)
    (complete : List Token) (offset : Nat) :
    ∃ stop, (mark :: (interior ++ [mark])).foldlM Scan.feed ⟨complete, offset, .between⟩ =
      .ok ⟨Scan.token .quoted contents offset stop :: complete, stop, .between⟩ := by
  obtain ⟨stop, fed⟩ := feed_spells isMark spells complete (offset + mark.utf8Size) offset []
  refine ⟨stop + mark.utf8Size, ?_⟩
  have ended : Scan.feed ⟨complete, stop, .quoted mark offset contents.reverse⟩ mark =
      .ok ⟨Scan.token .quoted contents offset (stop + mark.utf8Size) :: complete,
        stop + mark.utf8Size, .between⟩ := by
    have plain : mark ≠ Text.backslash := by
      rintro rfl
      cases isMark
    rw [Scan.feed]
    simp only [plain, if_false, if_true, List.reverse_reverse]
  rw [List.foldlM_cons, feed_mark isMark]
  change (interior ++ [mark]).foldlM Scan.feed _ = _
  rw [List.foldlM_append, fed, List.append_nil]
  change [mark].foldlM Scan.feed _ = _
  rw [List.foldlM_cons, ended]
  rfl

theorem spells_escape (contents : List Char) :
    Text.Spells Text.singleMark (Text.escape contents) contents := by
  induction contents with
  | nil => exact .done
  | cons letter rest ih =>
      rw [Text.escape]
      split
      case isTrue special =>
        rw [Bool.or_eq_true, decide_eq_true_iff, decide_eq_true_iff] at special
        rcases special with rfl | rfl
        · exact .escape .itself ih
        · exact .escape .mark ih
      case isFalse ordinary =>
        rw [Bool.or_eq_true, decide_eq_true_iff, decide_eq_true_iff, not_or] at ordinary
        exact .plain ordinary.1 ordinary.2 ih

/-- A quoted text is a lexeme that contains the text. -/
theorem lexes_quote (contents : List Char) :
    Lexes (Text.quote contents) [(.quoted, contents)] := by
  refine lexes_of_token fun complete offset => ?_
  obtain ⟨stop, fed⟩ := feed_quoted rfl (spells_escape contents) complete offset
  exact ⟨offset, stop, stop, fed⟩

/-! ## Scanned words -/

theorem begins_of_punctuation : ∀ letter ∈ punctuation,
    (Text.isMark letter || (Scan.single? letter).isSome ||
      (Scan.Lead.ofLetter? letter).isSome) = true :=
  List.all_eq_true.1 rfl

/-- What ends a word is a blank or begins another lexeme. -/
theorem isDelimiter_of_enter {letter : Char} (notBlank : Text.isBlank letter = false)
    (notMark : Text.isMark letter = false) (notSingle : Scan.single? letter = none)
    (notLead : Scan.Lead.ofLetter? letter = none) : isDelimiter letter = false := by
  rw [isDelimiter, notBlank, Bool.false_or, ← Bool.not_eq_true, List.contains_iff_mem]
  intro member
  have begins := begins_of_punctuation letter member
  rw [notMark, notSingle, notLead] at begins
  cases begins

/-- All words are bare: those that are complete and the one in progress. -/
structure Scan.Bare (scan : Scan) : Prop where
  complete : ∀ token ∈ scan.complete, token.kind = .word → IsBare token.text.toList
  word : ∀ {start read}, scan.mode = .word start read → IsBare read.reverse

namespace Scan

theorem bare_start : start.Bare where
  complete token member := by cases member
  word same := by cases same

variable {complete : List Token}

theorem bare_cons {token : Token} (earlier : ∀ other ∈ complete, other.kind = .word →
      IsBare other.text.toList) (here : token.kind = .word → IsBare token.text.toList) :
    ∀ other ∈ token :: complete, other.kind = .word → IsBare other.text.toList := by
  intro other member
  rcases List.mem_cons.1 member with rfl | inRest
  · exact here
  · exact earlier other inRest

theorem bare_enter (earlier : ∀ token ∈ complete, token.kind = .word → IsBare token.text.toList)
    (offset : Nat) (letter : Char) : (enter complete offset letter).Bare := by
  unfold enter
  dsimp only
  split
  case isTrue => exact ⟨earlier, fun same => by cases same⟩
  case isFalse notBlank =>
    split
    case isTrue => exact ⟨earlier, fun same => by cases same⟩
    case isFalse notMark =>
      split
      case h_1 kind single =>
        refine ⟨bare_cons earlier fun isWord => ?_, fun same => by cases same⟩
        change kind = .word at isWord
        subst isWord
        unfold single? at single
        split at single <;> cases single
      case h_2 => exact ⟨earlier, fun same => by cases same⟩
      case h_3 notSingle notLead =>
        refine ⟨earlier, fun same => ?_⟩
        cases same
        refine ⟨List.cons_ne_nil _ _, fun other member => ?_⟩
        rw [List.reverse_singleton, List.mem_singleton] at member
        subst member
        exact isDelimiter_of_enter (Bool.eq_false_iff.2 notBlank) (Bool.eq_false_iff.2 notMark)
          notSingle notLead

theorem Bare.close {scan : Scan} (bare : scan.Bare) (closed : scan.close = .ok complete) :
    ∀ token ∈ complete, token.kind = .word → IsBare token.text.toList := by
  unfold Scan.close at closed
  split at closed
  case h_1 =>
    cases closed
    exact bare.complete
  case h_2 start read mode =>
    cases closed
    refine bare_cons bare.complete fun _ => ?_
    rw [Scan.token, String.toList_ofList]
    exact bare.word mode
  case h_3 =>
    split at closed
    case h_1 =>
      cases closed
      exact bare_cons bare.complete fun isWord => by cases isWord
    case h_2 => cases closed
  case h_4 => cases closed
  case h_5 => cases closed

theorem Bare.feed {scan next : Scan} (bare : scan.Bare) {letter : Char}
    (fed : scan.feed letter = .ok next) : next.Bare := by
  have entered (closed : (scan.close.map fun complete =>
      enter complete scan.offset letter) = .ok next) : next.Bare := by
    obtain ⟨complete, ended, rfl⟩ := map_eq_ok.1 closed
    exact bare_enter (bare.close ended) _ _
  unfold Scan.feed at fed
  dsimp only at fed
  split at fed
  case h_1 =>
    cases fed
    exact bare_enter bare.complete _ _
  case h_2 start read mode =>
    split at fed
    case isTrue => exact entered fed
    case isFalse inside =>
      cases fed
      refine ⟨bare.complete, fun same => ?_⟩
      cases same
      have earlier := bare.word mode
      rw [List.reverse_cons]
      refine ⟨by simp, fun other member => ?_⟩
      rw [List.mem_append, List.mem_singleton] at member
      rcases member with before | rfl
      · exact earlier.inside other before
      · exact Bool.eq_false_iff.2 inside
  case h_3 =>
    split at fed
    case isTrue =>
      cases fed
      exact ⟨bare_cons bare.complete (fun isWord => by cases isWord), fun same => by cases same⟩
    case isFalse => exact entered fed
  case h_4 =>
    split at fed
    case isTrue =>
      cases fed
      exact ⟨bare.complete, fun same => by cases same⟩
    case isFalse =>
      split at fed
      case isTrue =>
        cases fed
        exact ⟨bare_cons bare.complete (fun isWord => by cases isWord), fun same => by cases same⟩
      case isFalse =>
        cases fed
        exact ⟨bare.complete, fun same => by cases same⟩
  case h_5 =>
    cases fed
    exact ⟨bare.complete, fun same => by cases same⟩

end Scan

/-- Every word that a text is scanned to is bare. -/
theorem isBare_of_scan {text : String} {tokens : List Token} (scanned : scan text = .ok tokens) :
    ∀ token ∈ tokens, token.kind = .word → IsBare token.text.toList := by
  unfold scan scanChars at scanned
  obtain ⟨last, fed, ending⟩ := bind_eq_ok.1 scanned
  obtain ⟨complete, closed, done⟩ := bind_eq_ok.1 ending
  cases done
  have bare : last.Bare := foldlM_ok_invariant (fun earlier read => earlier.feed read)
    text.toList Scan.bare_start fed
  intro token member
  rw [List.mem_reverse] at member
  exact Scan.bare_cons (bare.close closed) (fun isWord => by cases isWord) token member

/-- Characters between whose lexemes nothing stands are scanned to them and the end marker. -/
theorem Lexes.scan {letters : List Char} {lexemes : List (Kind × List Char)}
    (lexes : Lexes letters lexemes) :
    ∃ tokens marker, tokens.map lexeme = lexemes ∧ marker.kind = .finish ∧
      Token.scan (String.ofList letters) = .ok (tokens ++ [marker]) := by
  obtain ⟨tokens, stop, same, fed⟩ := lexes [] 0
  refine ⟨tokens, Scan.token .finish [] stop stop, same, rfl, ?_⟩
  unfold Token.scan scanChars Scan.start
  rw [String.toList_ofList, fed]
  change Except.ok ((Scan.token .finish [] stop stop :: (tokens.reverse ++ [])).reverse) = _
  rw [List.append_nil, List.reverse_cons, List.reverse_reverse]

end Tripwire.Token
