import Tripwire.Proofs.Expr.Acceptance
import Tripwire.Proofs.Expr.Errors
import Tripwire.Proofs.Expr.Scoping
import Tripwire.Proofs.Token.Tiling

/-!
# Where errors point

An error points at the first token that no continuation could mend: what stands before it begins
some expression, and with it none. A test outside all scopes is the error exactly of a comparison
operator that would do there, were there a scope.
-/

namespace Tripwire

namespace Expr

open Tripwire.Parser

/-! ## What completes a beginning -/

/-- A token of a kind that stands nowhere. -/
def anyToken (kind : Token.Kind) : Token :=
  ⟨kind, String.ofList (kind.symbol?.getD ['0']), ⟨0, 0⟩⟩

def anyTest : List Token :=
  [anyToken (.comparison .eq), anyToken .openParen, anyToken .word, anyToken .comma,
    anyToken .word, anyToken .closeParen]

def anyExpression : List Token :=
  [anyToken .openBracket, anyToken .word, anyToken .closeBracket] ++ anyTest

theorem anyToken_word_reads :
    Number.unsigned? 10 32 (anyToken .word).text.toList = some 0 := by
  decide

theorem exists_phrase_scope {tokens : List Token} {id : SensorId} (scope : WrittenScope tokens id)
    (outer : Option SensorId) : ∃ expr, Phrase outer (tokens ++ anyTest) expr :=
  ⟨_, .withScope scope (.test rfl rfl rfl rfl (.inl rfl) rfl)⟩

theorem exists_phrase_anyExpression (outer : Option SensorId) :
    ∃ expr, Phrase outer anyExpression expr :=
  exists_phrase_scope (.intro rfl rfl anyToken_word_reads rfl) outer

theorem WrittenPrefix.phrase {inherited scope around : Option SensorId}
    {prior tokens : List Token} {expr : Expr} (prefixed : WrittenPrefix inherited prior scope)
    (body : PhraseBody (scope.or around) tokens expr) :
    Phrase (inherited.or around) (prior ++ tokens) expr := by
  cases prefixed with
  | plain => exact .plain body
  | replaced scope => exact .withScope scope body

theorem WrittenHeading.exists_phrase {depth : Nat} {inherited : Option SensorId}
    {tokens : List Token} {heading : Heading} {opening field comma literal : Token}
    (headed : WrittenHeading inherited tokens heading) (within : depth < depthLimit)
    (openingKind : opening.kind = .openParen) (fieldKind : field.kind = .word)
    (commaKind : comma.kind = .comma)
    (literalKind : literal.kind = .word ∨ literal.kind = .quoted) :
    ∃ expr, Phrase inherited
      (tokens ++ [opening, field, comma, literal, anyToken .closeParen]) expr :=
  ⟨_, (headed.written within openingKind fieldKind commaKind literalKind rfl).phrase.1⟩

/-- What is missing of the expression in progress can be added: the rest of one and the same
expression, from where the one in progress has come to. -/
theorem Begun.completes {depth : Nat} {inherited : Option SensorId} {awaiting : Awaiting}
    {current : List Token} (begun : Begun depth inherited awaiting current) :
    ∃ more expr, Phrase inherited (current ++ more) expr := by
  cases begun with
  | subject => exact ⟨anyExpression, exists_phrase_anyExpression inherited⟩
  | sensorId within openingKind =>
      exact ⟨anyToken .word :: anyToken .closeBracket :: anyTest,
        exists_phrase_scope (.intro openingKind rfl anyToken_word_reads rfl) inherited⟩
  | closeBracket within openingKind wordKind reads =>
      exact ⟨anyToken .closeBracket :: anyTest,
        exists_phrase_scope (.intro openingKind wordKind reads rfl) inherited⟩
  | operator within scope => exact ⟨anyTest, exists_phrase_scope scope inherited⟩
  | @openGroup prior head junction scope within prefixed headKind =>
      obtain ⟨member, phrase⟩ := exists_phrase_anyExpression scope
      have body : PhraseBody scope (head :: anyToken .openParen ::
          (anyExpression ++ [anyToken .closeParen])) _ := .group headKind rfl (.one phrase) rfl
      have whole := prefixed.phrase (body.or none)
      rw [Option.or_none] at whole
      exact ⟨_, _, by rw [List.append_assoc]; exact whole⟩
  | openTest within headed =>
      exact ⟨anyTest.drop 1, headed.exists_phrase within rfl rfl rfl (.inl rfl)⟩
  | fieldName within headed openingKind =>
      refine ⟨anyTest.drop 2, ?_⟩
      rw [List.append_assoc]
      exact headed.exists_phrase within openingKind rfl rfl (.inl rfl)
  | comma within headed openingKind fieldKind =>
      refine ⟨anyTest.drop 3, ?_⟩
      rw [List.append_assoc]
      exact headed.exists_phrase within openingKind fieldKind rfl (.inl rfl)
  | literal within headed openingKind fieldKind commaKind =>
      refine ⟨anyTest.drop 4, ?_⟩
      rw [List.append_assoc]
      exact headed.exists_phrase within openingKind fieldKind commaKind (.inl rfl)
  | closeTest within headed openingKind fieldKind commaKind literalKind =>
      refine ⟨anyTest.drop 5, ?_⟩
      rw [List.append_assoc]
      exact headed.exists_phrase within openingKind fieldKind commaKind literalKind
  | @follower _ expr written =>
      refine ⟨[], expr, ?_⟩
      rw [List.append_nil]
      exact written.phrase.1

theorem WrittenEarlier.phrases {depth : Nat} {scope : Option SensorId}
    {tokens rest : List Token} {members others : List Expr} (around : Option SensorId)
    (earlier : WrittenEarlier depth scope tokens members)
    (later : PhraseMembers (scope.or around) rest others) :
    PhraseMembers (scope.or around) (tokens ++ rest) (members.reverse ++ others) := by
  induction earlier generalizing rest others with
  | none => exact later
  | more earlier member commaKind ih =>
      have joined := ih (.more (member.phrase.1.or around) commaKind later)
      simpa using joined

/-- After a member of the innermost open group all groups can be closed. -/
theorem Opened.completes {groups : List OpenGroup} {before current : List Token} {expr : Expr}
    {around : Option SensorId} (opened : Opened groups before)
    (phrase : Phrase ((Parser.scope ⟨groups, .subject⟩).or around) current expr) :
    ∃ more whole, Phrase around (before ++ current ++ more) whole := by
  induction opened generalizing current expr with
  | none =>
      refine ⟨[], expr, ?_⟩
      rw [List.append_nil]
      exact phrase
  | @inside group outer before prior tokens head opening outside within scope headKind start
      openingKind members ih =>
      have inside := members.phrases around (.one phrase)
      have body : PhraseBody (group.scope.or around)
          (head :: opening :: ((tokens ++ current) ++ [anyToken .closeParen])) _ :=
        .group headKind openingKind inside rfl
      -- The closed group is a member of the next one.
      obtain ⟨more, whole, complete⟩ := ih (scope.phrase body)
      refine ⟨anyToken .closeParen :: more, whole, ?_⟩
      simpa using complete

theorem Opened.viable {groups : List OpenGroup} {before current more : List Token} {expr : Expr}
    {around : Option SensorId} (opened : Opened groups before)
    (phrase : Phrase ((Parser.scope ⟨groups, .subject⟩).or around) (current ++ more) expr) :
    Viable around (before ++ current) := by
  obtain ⟨others, whole, complete⟩ := opened.completes phrase
  refine ⟨more ++ others ++ [anyToken .finish], whole, _, anyToken .finish, [], ?_, rfl, complete⟩
  simp only [List.append_assoc]

/-- What a parser has read on the way begins a sentence. -/
theorem Traced.viable {tokens : List Token} {parser : Parser} (traced : Traced tokens parser)
    (unfinished : ∀ expr, parser.awaiting ≠ .nothing expr) : Viable none tokens := by
  cases traced with
  | finished written markerKind => exact absurd rfl (unfinished _)
  | pending outside begun =>
      obtain ⟨more, expr, phrase⟩ := begun.completes
      exact outside.viable (by rwa [Option.or_none])

/-! ## Missing scopes -/

/-- A test is outside all scopes only where an expression may begin. -/
theorem unscoped_of_read {parser : Parser} {token : Token} {position : Nat}
    (failed : parser.read token = .error (.unscoped position)) :
    (∃ operator, token.kind = .comparison operator) ∧
      (parser.awaiting = .subject ∧ parser.scope = none ∨ parser.awaiting = .operator none) := by
  unfold Parser.read readOperator readFollower unexpected scopeOf at failed
  grind [map_eq_error]

theorem eq_unscoped_of_readOperator {parser : Parser} {scope : Option SensorId} {token : Token}
    {operator : Comparison} {error : Error} (kind : token.kind = .comparison operator)
    (failed : parser.readOperator scope token = .error error) :
    error = .unscoped token.span.start := by
  unfold readOperator at failed
  rw [kind] at failed
  cases scope with
  | none =>
      cases failed
      rfl
  | some sensor => cases failed

theorem eq_unscoped_of_read {parser : Parser} {token : Token} {operator : Comparison}
    {error : Error} (kind : token.kind = .comparison operator)
    (failed : parser.read token = .error error)
    (shallow : ∀ position, error ≠ .malformed position .tooDeep)
    (awaits : parser.awaiting = .subject ∨ ∃ scope, parser.awaiting = .operator scope) :
    error = .unscoped token.span.start := by
  obtain ⟨groups, awaiting⟩ := parser
  rcases awaits with awaits | ⟨scope, awaits⟩
  · cases awaits
    simp only [Parser.read] at failed
    split at failed
    case isTrue =>
      cases failed
      exact absurd rfl (shallow _)
    case isFalse =>
      rw [if_neg (by simp [kind])] at failed
      exact eq_unscoped_of_readOperator kind failed
  · cases awaits
    exact eq_unscoped_of_readOperator kind failed

/-- Where a scope is missing the operator does under any. -/
theorem Traced.viable_of_unscoped {tokens : List Token} {parser : Parser} {token : Token}
    {position : Nat} (traced : Traced tokens parser)
    (failed : parser.read token = .error (.unscoped position)) (sensor : SensorId) :
    Viable (some sensor) (tokens ++ [token]) := by
  obtain ⟨⟨operator, kind⟩, awaits⟩ := unscoped_of_read failed
  cases traced with
  | finished => cases failed
  | @pending groups awaiting before current outside begun =>
      rcases awaits with ⟨awaits, outermost⟩ | awaits
      · cases awaits
        cases begun
        have test : Phrase (some sensor) ([token] ++ anyTest.drop 1) _ :=
          .plain (.test kind rfl rfl rfl (.inl rfl) rfl)
        rw [List.append_nil]
        exact outside.viable (by rwa [outermost])
      · cases awaits
        cases begun

/-! ## The first token that cannot be mended -/

/-- An error is at the token, which is the first that nothing after it could mend. It is a missing
scope exactly if the token is a comparison operator that would do, were all under a scope. -/
structure Offends (before : List Token) (token : Token) (error : Error) : Prop where
  position : error.position? = some token.span.start
  viable : Viable none before
  unmendable : ¬Viable none (before ++ [token])
  unscoped : ∀ sensor, (∃ position, error = .unscoped position) ↔
    (∃ operator, token.kind = .comparison operator) ∧ Viable (some sensor) (before ++ [token])

theorem offends_of_read {before : List Token} {token : Token} {parser : Parser} {error : Error}
    (read : readAll before Parser.start = .ok parser) (failed : parser.read token = .error error)
    (shallow : ∀ position, error ≠ .malformed position .tooDeep) : Offends before token error := by
  have traced : Traced before parser := traced_start.readAll read
  have unmendable : ¬Viable none (before ++ [token]) := by
    intro viable
    have whole : readAll (before ++ [token]) Parser.start = .error error := by
      rw [readAll_append_of_ok read]
      exact readAll_cons_of_error failed
    obtain ⟨position, deep⟩ := viable.position whole
    exact shallow position deep
  refine ⟨position_of_read failed, traced.viable ?_, unmendable, fun sensor => ⟨?_, ?_⟩⟩
  · intro expr finished
    obtain ⟨groups, awaiting⟩ := parser
    cases finished
    cases failed
  · rintro ⟨position, rfl⟩
    exact ⟨(unscoped_of_read failed).1, traced.viable_of_unscoped failed sensor⟩
  · rintro ⟨⟨operator, kind⟩, viable⟩
    exact ⟨_, eq_unscoped_of_read kind failed shallow
      (viable.awaiting unmendable read kind failed shallow)⟩

/-- Where a text has tokens but is no expression, one of them is the first that cannot be mended, and
the end marker is so at the end of the text. -/
theorem offends_of_parse {text : String} {tokens : List Token} {error : Error}
    (scanned : Token.scan text = .ok tokens) (failed : parse text = .error error)
    (shallow : ∀ position, error ≠ .malformed position .tooDeep) :
    ∃ before token after, tokens = before ++ token :: after ∧ Offends before token error ∧
      (token.kind = .finish →
        after = [] ∧ token.span.start = Text.byteLength text.toList) := by
  obtain ⟨front, rfl, kinds⟩ := (Token.scan_eq_ok_iff.1 scanned).exists_marker
  rw [parse, scanned] at failed
  obtain ⟨before, token, after, parser, split, read, here⟩ := exists_read_of_ofTokens rfl failed
  refine ⟨before, token, after, split, offends_of_read read here shallow, fun kind => ?_⟩
  rcases List.eq_nil_or_concat after with rfl | ⟨others, last, rfl⟩
  · obtain ⟨_, same⟩ := List.append_inj' split rfl
    cases same
    exact ⟨rfl, Nat.zero_add _⟩
  · rw [List.concat_eq_append, ← List.cons_append, ← List.append_assoc] at split
    obtain ⟨same, _⟩ := List.append_inj' split rfl
    subst same
    exact absurd kind (kinds token (by simp))

/-- A test outside all scopes, after one with a scope of its own. -/
theorem offends_of_parse_unscoped :
    let text := "&([1]=(A,1),<(B,2))"
    let tokens : List Token :=
      [⟨.junction .all, "&", ⟨0, 1⟩⟩, ⟨.openParen, "(", ⟨1, 2⟩⟩, ⟨.openBracket, "[", ⟨2, 3⟩⟩,
        ⟨.word, "1", ⟨3, 4⟩⟩, ⟨.closeBracket, "]", ⟨4, 5⟩⟩, ⟨.comparison .eq, "=", ⟨5, 6⟩⟩,
        ⟨.openParen, "(", ⟨6, 7⟩⟩, ⟨.word, "A", ⟨7, 8⟩⟩, ⟨.comma, ",", ⟨8, 9⟩⟩,
        ⟨.word, "1", ⟨9, 10⟩⟩, ⟨.closeParen, ")", ⟨10, 11⟩⟩, ⟨.comma, ",", ⟨11, 12⟩⟩,
        ⟨.comparison .lt, "<", ⟨12, 13⟩⟩, ⟨.openParen, "(", ⟨13, 14⟩⟩, ⟨.word, "B", ⟨14, 15⟩⟩,
        ⟨.comma, ",", ⟨15, 16⟩⟩, ⟨.word, "2", ⟨16, 17⟩⟩, ⟨.closeParen, ")", ⟨17, 18⟩⟩,
        ⟨.closeParen, ")", ⟨18, 19⟩⟩, ⟨.finish, "", ⟨19, 19⟩⟩]
    Token.scan text = .ok tokens ∧ parse text = .error (.unscoped 12) ∧
      ∃ before token after, tokens = before ++ token :: after ∧
        Offends before token (.unscoped 12) ∧ (token.kind = .finish →
          after = [] ∧ token.span.start = Text.byteLength text.toList) := by
  intro text tokens
  have scanned : Token.scan text = .ok tokens := by decide +kernel
  have failed : parse text = .error (.unscoped 12) := by
    rw [parse, scanned]
    rfl
  exact ⟨scanned, failed, offends_of_parse scanned failed nofun⟩

end Expr

end Tripwire
