import Tripwire.Proofs.Token.Scanning

/-!
# Tokens tile the text

The spans of the tokens of a text follow each other, and all that they leave out is blank. Each is
where its token is written: a quoted token between two equal marks, a word as far as it reaches in
either direction, and every other token as its text.
-/

namespace Tripwire.Token

/-- A token is what is written between the parts of a text before and after it. -/
structure Covers (token : Token) (before inside after : List Char) : Prop where
  nonempty : inside ≠ []
  span : token.span = ⟨Text.byteLength before, Text.byteLength (before ++ inside)⟩
  text : token.kind ≠ .quoted → token.text.toList = inside
  quoted : token.kind = .quoted → ∃ mark interior, Text.isMark mark = true ∧
    inside = mark :: (interior ++ [mark]) ∧ Text.Spells mark interior token.text.toList
  symbol : ∀ symbol ∈ token.kind.symbol?, inside = symbol
  word : token.kind = .word → (∀ letter ∈ inside, isDelimiter letter = false) ∧
    (∀ last ∈ before.getLast?, isDelimiter last = true) ∧
      ∀ next ∈ after.head?, isDelimiter next = true
  alone : token.kind = .comparison .lt ∨ token.kind = .comparison .gt → after.head? ≠ some '='

/-- The tokens stand apart in a text, in their order, and nothing else but blanks does. -/
structure Tiling (letters : List Char) (tokens : List Token) : Prop where
  noMarker : ∀ token ∈ tokens, token.kind ≠ .finish
  covers : ∀ token ∈ tokens, ∃ before inside after,
    letters = before ++ inside ++ after ∧ token.Covers before inside after
  ordered : tokens.Pairwise fun first second => first.span.stop ≤ second.span.start
  blank : ∀ {before letter after}, letters = before ++ letter :: after →
    Text.isBlank letter = true ∨ ∃ token ∈ tokens, token.span.start ≤ Text.byteLength before ∧
      Text.byteLength (before ++ [letter]) ≤ token.span.stop

namespace Lexeme

variable {kind : Kind} {letters text : List Char}

theorem ne_finish (lexeme : Lexeme kind letters text) : kind ≠ .finish := by
  rintro rfl
  cases lexeme with
  | symbol symbol => cases symbol

/-- The last character of a token is not one of a word, unless the token is. -/
theorem isDelimiter_last (lexeme : Lexeme kind letters text) (noWord : kind ≠ .word) :
    ∀ last ∈ letters.getLast?, isDelimiter last = true := by
  intro last isLast
  cases lexeme with
  | symbol symbol =>
      cases kind with
      | junction joined =>
          cases joined <;> (cases symbol; cases isLast; rfl)
      | comparison operator =>
          cases operator <;> (cases symbol; cases isLast; rfl)
      | openParen | closeParen | openBracket | closeBracket | comma =>
          cases symbol
          cases isLast
          rfl
      | word | quoted | finish => cases symbol
  | word nonempty inside => exact absurd rfl noWord
  | @quoted mark interior contents isMark spells =>
      rw [← List.cons_append, List.getLast?_concat, Option.mem_some_iff] at isLast
      subst isLast
      rw [Text.isMark, Bool.or_eq_true, beq_iff_eq, beq_iff_eq] at isMark
      rcases isMark with rfl | rfl <;> rfl

/-- No word stands on both sides of where a token ends. -/
theorem isDelimiter_edge (lexeme : Lexeme kind letters text) {rest : List Char}
    (followed : MayPrecede kind rest) :
    ∀ last ∈ letters.getLast?, ∀ next ∈ rest.head?,
      isDelimiter last = true ∨ isDelimiter next = true := by
  intro last isLast next isNext
  by_cases isWord : kind = .word
  · subst isWord
    exact .inr (followed next isNext)
  · exact .inl (lexeme.isDelimiter_last isWord last isLast)

theorem covers (lexeme : Lexeme kind letters text) {before after : List Char}
    (followed : MayPrecede kind after)
    (edge : ∀ last ∈ before.getLast?, ∀ next ∈ (letters ++ after).head?,
      isDelimiter last = true ∨ isDelimiter next = true) :
    Covers ⟨kind, String.ofList text,
      ⟨Text.byteLength before, Text.byteLength before + Text.byteLength letters⟩⟩
      before letters after where
  nonempty := lexeme.nonempty
  span := by rw [Text.byteLength_append]
  text noQuotes := by
    cases lexeme with
    | symbol symbol => exact String.toList_ofList
    | word nonempty inside => exact String.toList_ofList
    | quoted isMark spells => exact absurd rfl noQuotes
  quoted isQuoted := by
    change kind = .quoted at isQuoted
    subst isQuoted
    cases lexeme with
    | symbol symbol => cases symbol
    | quoted isMark spells =>
        exact ⟨_, _, isMark, rfl, by rw [String.toList_ofList]; exact spells⟩
  symbol known isKnown := by
    cases lexeme with
    | symbol symbol => exact Option.some.inj (symbol.symm.trans isKnown)
    | word nonempty inside => cases isKnown
    | quoted isMark spells => cases isKnown
  word isWord := by
    change kind = .word at isWord
    subst isWord
    cases lexeme with
    | symbol symbol => cases symbol
    | word nonempty inside =>
        refine ⟨inside, fun last isLast => ?_, followed⟩
        obtain ⟨first, others, rfl⟩ := List.exists_cons_of_ne_nil nonempty
        refine (edge last isLast first rfl).resolve_right fun ends => ?_
        rw [inside first List.mem_cons_self] at ends
        cases ends
  alone isAlone := by
    rcases isAlone with isLess | isGreater
    · change kind = _ at isLess
      subst isLess
      exact followed
    · change kind = _ at isGreater
      subst isGreater
      exact followed

end Lexeme

namespace Tiles

variable {offset : Nat} {letters : List Char} {tokens : List Token}

/-- The end marker stands at the end, and nowhere else. -/
theorem exists_marker (tiles : Tiles offset letters tokens) :
    ∃ front, tokens = front ++ [⟨.finish, "",
        ⟨offset + Text.byteLength letters, offset + Text.byteLength letters⟩⟩] ∧
      ∀ token ∈ front, token.kind ≠ .finish := by
  induction tiles with
  | done => exact ⟨[], rfl, fun _ member => by cases member⟩
  | blank isBlank others ih =>
      obtain ⟨front, split, kinds⟩ := ih
      refine ⟨front, ?_, kinds⟩
      rw [split, Text.byteLength_cons, Nat.add_assoc]
  | @lexeme offset kind letters text rest tokens lexeme followed others ih =>
      obtain ⟨front, split, kinds⟩ := ih
      let here : Token :=
        ⟨kind, String.ofList text, ⟨offset, offset + Text.byteLength letters⟩⟩
      refine ⟨here :: front, ?_, List.forall_mem_cons.2 ⟨lexeme.ne_finish, kinds⟩⟩
      rw [split, Text.byteLength_append, Nat.add_assoc]
      rfl

theorem le_start (tiles : Tiles offset letters tokens) :
    ∀ token ∈ tokens, offset ≤ token.span.start := by
  induction tiles with
  | done => exact List.forall_mem_singleton.2 (Nat.le_refl _)
  | blank isBlank others ih =>
      exact fun token member => Nat.le_trans (Nat.le_add_right _ _) (ih token member)
  | lexeme lexeme followed others ih =>
      refine List.forall_mem_cons.2 ⟨Nat.le_refl _, fun token member => ?_⟩
      exact Nat.le_trans (Nat.le_add_right _ _) (ih token member)

theorem ordered (tiles : Tiles offset letters tokens) :
    tokens.Pairwise fun first second => first.span.stop ≤ second.span.start := by
  induction tiles with
  | done => exact List.pairwise_singleton _ _
  | blank isBlank others ih => exact ih
  | lexeme lexeme followed others ih => exact .cons others.le_start ih

/-- A character that is not blank is within the span of a token. -/
theorem exists_span (tiles : Tiles offset letters tokens) {before after : List Char}
    {letter : Char} (split : letters = before ++ letter :: after) :
    Text.isBlank letter = true ∨ ∃ token ∈ tokens, token.kind ≠ .finish ∧
      token.span.start ≤ offset + Text.byteLength before ∧
        offset + Text.byteLength (before ++ [letter]) ≤ token.span.stop := by
  induction tiles generalizing before with
  | done => simp at split
  | @blank offset first rest tokens isBlank others ih =>
      rcases List.cons_eq_append_iff.1 split with ⟨rfl, same⟩ | ⟨tail, rfl, remaining⟩
      · cases same
        exact .inl isBlank
      · refine (ih remaining).imp_right fun ⟨token, member, kind, starts, stops⟩ => ?_
        refine ⟨token, member, kind, ?_⟩
        rw [List.cons_append, Text.byteLength_cons, Text.byteLength_cons]
        omega
  | @lexeme offset kind letters text rest tokens lexeme followed others ih =>
      let here : Token :=
        ⟨kind, String.ofList text, ⟨offset, offset + Text.byteLength letters⟩⟩
      have later (more : List Char) (remaining : rest = more ++ letter :: after) :
          Text.isBlank letter = true ∨ ∃ token ∈ here :: tokens, token.kind ≠ .finish ∧
            token.span.start ≤ offset + Text.byteLength (letters ++ more) ∧
              offset + Text.byteLength (letters ++ more ++ [letter]) ≤ token.span.stop := by
        refine (ih remaining).imp_right fun ⟨token, member, kind, starts, stops⟩ => ?_
        refine ⟨token, .tail _ member, kind, ?_⟩
        rw [List.append_assoc, Text.byteLength_append, Text.byteLength_append]
        omega
      rcases List.append_eq_append_iff.1 split with ⟨more, rfl, remaining⟩ | ⟨inner, same, remaining⟩
      · exact later more remaining
      · subst same
        cases inner with
        | nil =>
            have met := later [] remaining.symm
            rwa [List.append_nil, List.append_nil] at met
        | cons first inner =>
            cases remaining
            refine .inr ⟨here, List.mem_cons_self, lexeme.ne_finish, Nat.le_add_right _ _, ?_⟩
            change _ ≤ offset + Text.byteLength (before ++ letter :: inner)
            simp only [Text.byteLength_append, Text.byteLength_cons, Text.byteLength_nil]
            omega

/-- Every token covers what it was read from, wherever no word reaches across. -/
theorem exists_covers (tiles : Tiles offset letters tokens) (before : List Char)
    (start : offset = Text.byteLength before)
    (edge : ∀ last ∈ before.getLast?, ∀ next ∈ letters.head?,
      isDelimiter last = true ∨ isDelimiter next = true) :
    ∀ token ∈ tokens, token.kind ≠ .finish → ∃ earlier inside after,
      before ++ letters = earlier ++ inside ++ after ∧ token.Covers earlier inside after := by
  induction tiles generalizing before with
  | done => exact List.forall_mem_singleton.2 fun other => absurd rfl other
  | @blank offset letter rest tokens isBlank others ih =>
      intro token member kind
      have delimits : isDelimiter letter = true := by rw [isDelimiter, isBlank, Bool.true_or]
      obtain ⟨earlier, inside, after, split, covers⟩ := ih (before ++ [letter])
        (by rw [start, Text.byteLength_append]; rfl)
        (fun last isLast _ _ => by
          rw [List.getLast?_concat, Option.mem_some_iff] at isLast
          exact .inl (isLast ▸ delimits)) token member kind
      rw [List.append_assoc, List.singleton_append] at split
      exact ⟨earlier, inside, after, split, covers⟩
  | @lexeme offset kind letters text rest tokens lexeme followed others ih =>
      subst start
      refine List.forall_mem_cons.2 ⟨fun _ => ?_, fun token member kind => ?_⟩
      · exact ⟨before, letters, rest, (List.append_assoc ..).symm, lexeme.covers followed edge⟩
      · have last : (before ++ letters).getLast? = letters.getLast? := by
          rw [List.getLast?_append, List.getLast?_eq_some_getLast lexeme.nonempty]
          rfl
        obtain ⟨earlier, inside, after, split, covers⟩ := ih (before ++ letters)
          (Text.byteLength_append _ _).symm (by rw [last]; exact lexeme.isDelimiter_edge followed)
          token member kind
        rw [List.append_assoc] at split
        exact ⟨earlier, inside, after, split, covers⟩

theorem tiling (tiles : Tiles 0 letters tokens) :
    ∃ front, tokens = front ++ [⟨.finish, "",
        ⟨Text.byteLength letters, Text.byteLength letters⟩⟩] ∧ Tiling letters front := by
  obtain ⟨front, split, kinds⟩ := tiles.exists_marker
  rw [Nat.zero_add] at split
  subst split
  refine ⟨front, rfl, kinds, fun token member => ?_, ?_, fun apart => ?_⟩
  · exact tiles.exists_covers [] rfl (fun _ isLast => by cases isLast) token
      (List.mem_append_left _ member) (kinds token member)
  · exact (List.pairwise_append.1 tiles.ordered).1
  · refine (tiles.exists_span apart).imp_right fun ⟨token, member, kind, starts, stops⟩ => ?_
    rw [Nat.zero_add] at starts stops
    refine ⟨token, (List.mem_append.1 member).resolve_right fun last => kind ?_, starts, stops⟩
    rw [List.mem_singleton.1 last]

end Tiles

/-- The tokens of a text tile it up to the end marker, which stands at its end. -/
theorem tiling_of_scan {text : String} {tokens : List Token} (scanned : scan text = .ok tokens) :
    ∃ front, tokens = front ++ [⟨.finish, "",
        ⟨Text.byteLength text.toList, Text.byteLength text.toList⟩⟩] ∧
      Tiling text.toList front :=
  (scan_eq_ok_iff.1 scanned).tiling

/-- A character of two bytes, an escaped mark among unescaped ones of the other kind, an escape that
keeps its backslash, and tokens that touch. -/
theorem tiling_of_scan_marks :
    let text := "à<='it\\'s \"ok\" \\q'b >c"
    let front : List Token :=
      [⟨.word, "à", ⟨0, 2⟩⟩, ⟨.comparison .le, "<=", ⟨2, 4⟩⟩,
        ⟨.quoted, "it's \"ok\" \\q", ⟨4, 19⟩⟩, ⟨.word, "b", ⟨19, 20⟩⟩,
        ⟨.comparison .gt, ">", ⟨21, 22⟩⟩, ⟨.word, "c", ⟨22, 23⟩⟩]
    scan text = .ok (front ++ [⟨.finish, "", ⟨23, 23⟩⟩]) ∧ Tiling text.toList front := by
  intro text front
  have scanned : scan text = .ok (front ++ [⟨.finish, "", ⟨23, 23⟩⟩]) := by decide +kernel
  obtain ⟨others, split, tiling⟩ := tiling_of_scan scanned
  have same : front = others := (List.append_inj' split rfl).1
  exact ⟨scanned, same ▸ tiling⟩

end Tripwire.Token
