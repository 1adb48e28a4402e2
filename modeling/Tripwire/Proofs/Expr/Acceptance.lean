import Tripwire.Proofs.Expr.Soundness

/-!
# What is accepted

Exactly the token lists with an end marker are accepted of which the tokens before the first end
marker write an expression. Where there is no end marker the last token is what stands next however
often it is asked for: only a closing parenthesis can be taken more than once, and as it closes a
group each time, reading comes to its end all the same.
-/

namespace Tripwire.Expr

open Tripwire.Parser

/-! ## End markers -/

theorem WrittenScope.ne_finish {tokens : List Token} {id : SensorId}
    (scope : WrittenScope tokens id) : ∀ token ∈ tokens, token.kind ≠ .finish := by
  cases scope with
  | intro openingKind wordKind reads closingKind => simp [openingKind, wordKind, closingKind]

mutual

/-- No end marker is part of an expression. -/
theorem Written.ne_finish : ∀ {depth : Nat} {scope : Option SensorId} {tokens : List Token}
    {expr : Expr}, Written depth scope tokens expr → ∀ token ∈ tokens, token.kind ≠ .finish
  | _, _, _, _, .plain _ body => body.ne_finish
  | _, _, _, _, .withScope _ scope body =>
      List.forall_mem_append.2 ⟨scope.ne_finish, body.ne_finish⟩

theorem WrittenBody.ne_finish : ∀ {depth : Nat} {scope : Option SensorId} {tokens : List Token}
    {expr : Expr}, WrittenBody depth scope tokens expr → ∀ token ∈ tokens, token.kind ≠ .finish
  | _, _, _, _, .test headKind openingKind fieldKind commaKind literalKind closingKind => by
      rcases literalKind with literalKind | literalKind <;>
        simp [headKind, openingKind, fieldKind, commaKind, literalKind, closingKind]
  | _, _, _, _, .group headKind openingKind inside closingKind => by
      have members := inside.ne_finish
      simp only [List.forall_mem_cons, List.forall_mem_append]
      exact ⟨by simp [headKind], by simp [openingKind], members, by simp [closingKind]⟩

theorem WrittenMembers.ne_finish : ∀ {depth : Nat} {scope : Option SensorId}
    {tokens : List Token} {members : List Expr}, WrittenMembers depth scope tokens members →
      ∀ token ∈ tokens, token.kind ≠ .finish
  | _, _, _, _, .one member => member.ne_finish
  | _, _, _, _, .more member commaKind others =>
      List.forall_mem_append.2 ⟨member.ne_finish,
        List.forall_mem_cons.2 ⟨by simp [commaKind], others.ne_finish⟩⟩

end

/-! ## Tokens that end without an end marker -/

theorem Opened.two_mul_length_le {groups : List OpenGroup} {tokens : List Token}
    (opened : Opened groups tokens) : 2 * groups.length ≤ tokens.length := by
  induction opened with
  | none => exact Nat.zero_le _
  | inside outside within scope headKind start openingKind members ih =>
      simp only [List.length_cons, List.length_append]
      omega

/-- A parser that has not finished has fewer open groups than it has read tokens. -/
theorem Traced.length_lt {tokens : List Token} {parser : Parser} (traced : Traced tokens parser)
    (some_read : tokens ≠ []) : parser.groups.length < tokens.length := by
  have positive := List.length_pos_iff.2 some_read
  cases traced with
  | finished written markerKind => exact positive
  | @pending groups awaiting before current outside begun =>
      have bound := outside.two_mul_length_le
      rw [List.length_append] at positive ⊢
      change groups.length < _
      omega

/-- A token that a parser takes as an operator is one, and what comes next is its parenthesis. -/
theorem kind_of_readOperator {parser next : Parser} {scope : Option SensorId} {token : Token}
    (read : parser.readOperator scope token = .ok next) :
    (∃ junction scope start, token.kind = .junction junction ∧
        next.awaiting = .openGroup junction scope start) ∨
      ∃ heading, token.kind = .comparison heading.operator ∧ next.awaiting = .openTest heading := by
  unfold readOperator at read
  split at read
  case h_1 kind =>
    cases read
    exact .inl ⟨_, _, _, kind, rfl⟩
  case h_2 kind =>
    cases read
    exact .inr ⟨_, kind, rfl⟩
  case h_3 => cases read
  case h_4 => cases read

/-- The kinds of tokens after which a parser awaits what it does. -/
def Follows : Awaiting → Token.Kind → Prop
  | .subject, kind => kind = .openParen ∨ kind = .comma
  | .sensorId, kind => kind = .openBracket
  | .closeBracket _, kind => kind = .word
  | .operator _, kind => kind = .closeBracket
  | .openGroup junction _ _, kind => kind = .junction junction
  | .openTest heading, kind => kind = .comparison heading.operator
  | .fieldName _, kind => kind = .openParen
  | .comma _ _, kind => kind = .word
  | .literal _ _, kind => kind = .comma
  | .closeTest _ _ _, kind => kind = .word ∨ kind = .quoted
  | .follower _, kind => kind = .closeParen
  | .nothing _, _ => True

theorem follows_of_readOperator {parser next : Parser} {scope : Option SensorId} {token : Token}
    (read : parser.readOperator scope token = .ok next) : Follows next.awaiting token.kind := by
  rcases kind_of_readOperator read with ⟨junction, _, _, kind, awaits⟩ | ⟨heading, kind, awaits⟩ <;>
    simp [Follows, kind, awaits]

theorem follows_of_read {parser next : Parser} {token : Token}
    (read : parser.read token = .ok next) : Follows next.awaiting token.kind := by
  obtain ⟨groups, awaiting⟩ := parser
  cases awaiting with
  | subject =>
      simp only [Parser.read] at read
      split at read
      case isTrue => cases read
      case isFalse =>
        split at read
        case isTrue kind =>
          cases read
          exact kind
        case isFalse => exact follows_of_readOperator read
  | sensorId =>
      simp only [Parser.read] at read
      split at read
      case isTrue kind =>
        obtain ⟨scope, _, rfl⟩ := map_eq_ok.1 read
        exact kind
      case isFalse => cases read
  | operator scope => exact follows_of_readOperator read
  | closeBracket scope | openTest heading | fieldName heading | comma heading field
  | closeTest heading field literal =>
      obtain ⟨kind, rfl⟩ := ite_eq_ok.1 read
      exact kind
  | openGroup junction scope start =>
      obtain ⟨kind, rfl⟩ := ite_eq_ok.1 read
      exact .inl kind
  | literal heading field =>
      obtain ⟨kind, rfl⟩ := ite_eq_ok.1 read
      simpa [Follows, await] using kind
  | follower expr =>
      simp only [Parser.read, readFollower] at read
      split at read
      case h_1 kind =>
        cases read
        trivial
      case h_2 => cases read
      case h_3 kind =>
        cases read
        exact .inr kind
      case h_4 kind =>
        cases read
        exact kind
      case h_5 => cases read
  | nothing expr =>
      cases read
      trivial

theorem follows_of_readAll {front : List Token} {last : Token} {start parser : Parser}
    (read : readAll (front ++ [last]) start = .ok parser) : Follows parser.awaiting last.kind := by
  unfold readAll at read
  rw [List.foldlM_append] at read
  obtain ⟨middle, _, final⟩ := bind_eq_ok.1 read
  rw [List.foldlM_cons] at final
  obtain ⟨next, once, done⟩ := bind_eq_ok.1 final
  cases done
  exact follows_of_read once

/-- A token that is taken where it could stand before ends a group, unless all is read. -/
theorem closes_of_follows {parser next : Parser} {token : Token}
    (follows : Follows parser.awaiting token.kind) (read : parser.read token = .ok next) :
    (∃ expr, parser.awaiting = .nothing expr) ∨
      token.kind = .closeParen ∧ ∃ expr, parser.awaiting = .follower expr := by
  obtain ⟨groups, awaiting⟩ := parser
  cases awaiting with
  | nothing expr => exact .inl ⟨expr, rfl⟩
  | follower expr => exact .inr ⟨follows, expr, rfl⟩
  | subject =>
      simp only [Parser.read] at read
      split at read
      case isTrue => cases read
      case isFalse => rcases follows with kind | kind <;> simp [readOperator, kind] at read
  | closeTest heading field literal =>
      rcases follows with kind | kind <;> simp [Parser.read, kind] at read
  | sensorId | closeBracket scope | operator scope | openGroup junction scope start
  | openTest heading | fieldName heading | comma heading field | literal heading field =>
      simp [Parser.read, readOperator, show token.kind = _ from follows] at read

/-- A closing parenthesis that is read again and again closes the open groups and is then what
follows the whole expression. -/
theorem readAll_replicate_close {groups : List OpenGroup} {expr : Expr} {token : Token}
    (kind : token.kind = .closeParen) {again : Nat} (enough : groups.length < again) :
    readAll (List.replicate again token) ⟨groups, .follower expr⟩ =
      .error (.malformed token.span.start (.trailing token.found)) := by
  induction groups generalizing expr again with
  | nil =>
      obtain ⟨fewer, rfl⟩ := Nat.exists_eq_succ_of_ne_zero (Nat.ne_of_gt enough)
      rw [List.replicate_succ]
      exact readAll_cons_of_error (by simp [Parser.read, readFollower, kind])
  | cons group outer ih =>
      obtain ⟨fewer, rfl⟩ := Nat.exists_eq_succ_of_ne_zero (Nat.ne_zero_of_lt enough)
      have closed : (⟨group :: outer, .follower expr⟩ : Parser).read token =
          .ok ⟨outer, .follower (group.close expr token)⟩ := by
        simp [Parser.read, readFollower, kind]
      rw [List.replicate_succ, readAll_cons_of_ok closed]
      exact ih (Nat.lt_of_succ_lt_succ enough)

/-- The error of a token that is read again and again after all others. -/
theorem readAll_replicate_last {front : List Token} {last : Token} {parser : Parser}
    (read : readAll (front ++ [last]) Parser.start = .ok parser)
    (unfinished : ∀ expr, parser.awaiting ≠ .nothing expr) {again : Nat}
    (enough : front.length + 1 ≤ again) :
    readAll (List.replicate again last) parser = .error (parser.stuckError last) := by
  have fewer : parser.groups.length < again := by
    have bound := (traced_start.readAll read).length_lt (by simp)
    simp only [List.nil_append, List.length_append, List.length_singleton] at bound
    omega
  obtain ⟨more, rfl⟩ := Nat.exists_eq_succ_of_ne_zero (Nat.ne_zero_of_lt fewer)
  have follows := follows_of_readAll read
  unfold stuckError
  cases again : parser.read last with
  | error error => exact readAll_cons_of_error again
  | ok next =>
      rcases closes_of_follows follows again with ⟨expr, finished⟩ | ⟨kind, expr, awaits⟩
      · exact absurd finished (unfinished expr)
      · obtain ⟨groups, awaiting⟩ := parser
        cases awaits
        exact readAll_replicate_close kind fewer

/-- How the answer follows from what is awaited after the last token. -/
theorem ofTokens_concat (front : List Token) (last : Token) :
    ofTokens (front ++ [last]) =
      (readAll (front ++ [last]) Parser.start).bind (Parser.conclude · last) := by
  unfold ofTokens
  rw [List.getLast?_concat]
  rfl

theorem conclude_of_unfinished {parser : Parser} (last : Token)
    (unfinished : ∀ expr, parser.awaiting ≠ .nothing expr) :
    parser.conclude last = .error (parser.stuckError last) := by
  unfold conclude
  split
  case h_1 expr finished => exact absurd finished (unfinished expr)
  case h_2 => rfl

/-- After an end marker no error is left to find. -/
theorem conclude_of_finish {front : List Token} {last : Token} {parser : Parser}
    (read : readAll (front ++ [last]) Parser.start = .ok parser) (kind : last.kind = .finish) :
    ∃ expr, parser.conclude last = .ok expr := by
  have follows := follows_of_readAll read
  rw [kind] at follows
  obtain ⟨groups, awaiting⟩ := parser
  cases awaiting with
  | nothing expr => exact ⟨expr, rfl⟩
  | subject => rcases follows with follows | follows <;> cases follows
  | closeTest heading field literal => rcases follows with follows | follows <;> cases follows
  | sensorId | closeBracket scope | operator scope | openGroup junction scope start
  | openTest heading | fieldName heading | comma heading field | literal heading field
  | follower expr => cases follows

/-- An error of tokens up to an end marker is that of one which is read. -/
theorem exists_read_of_ofTokens {front : List Token} {last : Token} {error : Error}
    (kind : last.kind = .finish) (failed : ofTokens (front ++ [last]) = .error error) :
    ∃ before token after parser, front ++ [last] = before ++ token :: after ∧
      readAll before Parser.start = .ok parser ∧ parser.read token = .error error := by
  rw [ofTokens_concat] at failed
  rcases bind_eq_error.1 failed with failed | ⟨parser, read, stuck⟩
  · exact foldlM_eq_error.1 failed
  · obtain ⟨expr, done⟩ := conclude_of_finish read kind
    cases done.symm.trans stuck

/-- What a parser that has finished has read. -/
theorem Traced.written {tokens : List Token} {parser : Parser} (traced : Traced tokens parser)
    {expr : Expr} (finished : parser.awaiting = .nothing expr) :
    parser = ⟨[], .nothing expr⟩ ∧
      ∃ prior marker rest, tokens = prior ++ marker :: rest ∧ marker.kind = .finish ∧
        Written 0 none prior expr := by
  cases traced with
  | finished written markerKind =>
      cases finished
      exact ⟨rfl, _, _, _, rfl, markerKind, written⟩
  | pending outside begun =>
      cases finished
      cases begun

theorem written_of_ofTokens {tokens : List Token} {expr : Expr}
    (accepted : ofTokens tokens = .ok expr) :
    ∃ prior marker rest, tokens = prior ++ marker :: rest ∧ marker.kind = .finish ∧
      Written 0 none prior expr := by
  rcases List.eq_nil_or_concat tokens with rfl | ⟨front, last, rfl⟩
  · cases accepted
  · rw [List.concat_eq_append] at accepted ⊢
    rw [ofTokens_concat] at accepted
    obtain ⟨parser, read, concluded⟩ := bind_eq_ok.1 accepted
    have finished : parser.awaiting = .nothing expr := by
      unfold conclude at concluded
      split at concluded
      case h_1 result awaits =>
        cases concluded
        exact awaits
      case h_2 => cases concluded
    exact ((traced_start.readAll read).written finished).2

/-- An expression is the result exactly if the tokens before the first end marker write it, and
reading ends for all tokens: the answer is settled before the last one is read again as often as
there are tokens. -/
theorem ofTokens_accepts (tokens : List Token) :
    (∀ expr, ofTokens tokens = .ok expr ↔
      ∃ prior marker rest, tokens = prior ++ marker :: rest ∧ marker.kind = .finish ∧
        (∀ token ∈ prior, token.kind ≠ .finish) ∧ Written 0 none prior expr) ∧
      ∀ last ∈ tokens.getLast?, ∀ again, tokens.length ≤ again →
        readAll (tokens ++ List.replicate again last) Parser.start =
          (ofTokens tokens).map fun expr => ⟨[], .nothing expr⟩ := by
  constructor
  · intro expr
    constructor
    · intro accepted
      obtain ⟨prior, marker, rest, split, markerKind, written⟩ := written_of_ofTokens accepted
      exact ⟨prior, marker, rest, split, markerKind, written.ne_finish, written⟩
    · rintro ⟨prior, marker, rest, rfl, markerKind, _, written⟩
      exact ofTokens_of_written written markerKind
  · intro last isLast again enough
    obtain ⟨front, rfl⟩ := List.getLast?_eq_some_iff.1 isLast
    rw [ofTokens_concat]
    cases read : readAll (front ++ [last]) Parser.start with
    | error error =>
        rw [readAll_append_of_error read]
        rfl
    | ok parser =>
        rw [readAll_append_of_ok read]
        by_cases finished : ∃ expr, parser.awaiting = .nothing expr
        · obtain ⟨expr, awaits⟩ := finished
          obtain ⟨rfl, _⟩ := (traced_start.readAll read).written awaits
          rw [readAll_nothing]
          rfl
        · have unfinished := not_exists.1 finished
          rw [readAll_replicate_last read unfinished (by simpa using enough)]
          change _ = (parser.conclude last).map _
          rw [conclude_of_unfinished last unfinished]
          rfl

/-- A group that is still open after the last token, which is a closing parenthesis. -/
def unclosed : List Token :=
  [⟨.openBracket, "[", ⟨0, 1⟩⟩, ⟨.word, "3", ⟨1, 2⟩⟩, ⟨.closeBracket, "]", ⟨2, 3⟩⟩] ++
    ⟨.junction .all, "&", ⟨3, 4⟩⟩ :: ⟨.openParen, "(", ⟨4, 5⟩⟩ ::
      [⟨.comparison .eq, "=", ⟨5, 6⟩⟩, ⟨.openParen, "(", ⟨6, 7⟩⟩, ⟨.word, "a", ⟨7, 8⟩⟩,
        ⟨.comma, ",", ⟨8, 9⟩⟩, ⟨.quoted, "1", ⟨9, 12⟩⟩, ⟨.closeParen, ")", ⟨12, 13⟩⟩]

theorem ofTokens_accepts_unclosed :
    (⟨.closeParen, ")", ⟨12, 13⟩⟩ ∈ unclosed.getLast? ∧ unclosed.length ≤ 11 ∧
      readAll (unclosed ++ List.replicate 11 ⟨.closeParen, ")", ⟨12, 13⟩⟩) Parser.start =
        .error (.malformed 12 (.trailing (.lexeme ")")))) ∧
      ofTokens ((unclosed ++ [⟨.closeParen, ")", ⟨13, 14⟩⟩]) ++
          ⟨.finish, "", ⟨14, 14⟩⟩ :: unclosed) =
        .ok (.group .all [.test ⟨3, .eq, "a", ⟨7, 8⟩, ⟨"1", true, ⟨9, 12⟩⟩, ⟨5, 13⟩⟩] ⟨3, 14⟩) := by
  have last : ⟨.closeParen, ")", ⟨12, 13⟩⟩ ∈ unclosed.getLast? := by decide
  have enough : unclosed.length ≤ 11 := by decide
  have test : WrittenBody 1 (some 3) (unclosed.drop 5)
      (.test ⟨3, .eq, "a", ⟨7, 8⟩, ⟨"1", true, ⟨9, 12⟩⟩, ⟨5, 13⟩⟩) :=
    .test rfl rfl rfl rfl (.inr rfl) rfl
  have group : WrittenBody 0 (some 3) (unclosed.drop 3 ++ [⟨.closeParen, ")", ⟨13, 14⟩⟩])
      (.group .all [.test ⟨3, .eq, "a", ⟨7, 8⟩, ⟨"1", true, ⟨9, 12⟩⟩, ⟨5, 13⟩⟩] ⟨3, 14⟩) :=
    .group rfl rfl (.one (.plain (by decide) test)) rfl
  have scope : WrittenScope (unclosed.take 3) 3 := .intro rfl rfl rfl rfl
  have written : Written 0 none
      (unclosed.take 3 ++ (unclosed.drop 3 ++ [⟨.closeParen, ")", ⟨13, 14⟩⟩])) _ :=
    .withScope (by decide) scope group
  exact ⟨⟨last, enough, (ofTokens_accepts unclosed).2 _ last 11 enough⟩,
    ((ofTokens_accepts _).1 _).2 ⟨_, _, _, rfl, rfl, by decide, written⟩⟩

end Tripwire.Expr
