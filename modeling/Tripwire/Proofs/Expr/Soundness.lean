import Tripwire.Expr.Completeness
import Tripwire.Proofs.Steps

/-!
# Only written expressions are read

Whatever tokens a parser has read, they are what the grammar lets stand before the token that it
awaits: the beginnings of the open groups, the outermost first, and the beginning of the expression
that it is in the middle of. An expression is therefore read only if the tokens before the first
end marker write it.
-/

namespace Tripwire.Expr

open Tripwire.Parser

/-! ## Beginnings -/

/-- The tokens before an operator: none, or those of a scope that replaces the inherited one. -/
inductive WrittenPrefix : Option SensorId → List Token → Option SensorId → Prop where
  | plain {inherited : Option SensorId} : WrittenPrefix inherited [] inherited
  | replaced {inherited : Option SensorId} {tokens : List Token} {id : SensorId}
      (scope : WrittenScope tokens id) : WrittenPrefix inherited tokens (some id)

/-- Members with a comma after each. The members are latest first. -/
inductive WrittenEarlier (depth : Nat) (scope : Option SensorId) :
    List Token → List Expr → Prop where
  | none : WrittenEarlier depth scope [] []
  | more {tokens written : List Token} {comma : Token} {expr : Expr} {members : List Expr}
      (earlier : WrittenEarlier depth scope tokens members)
      (member : Written depth scope written expr)
      (commaKind : comma.kind = .comma) :
      WrittenEarlier depth scope (tokens ++ (written ++ [comma])) (expr :: members)

/-- The tokens from the first up to the last comma or parenthesis of the innermost open group. -/
inductive Opened : List OpenGroup → List Token → Prop where
  | none : Opened [] []
  | inside {group : OpenGroup} {outer : List OpenGroup} {before prior tokens : List Token}
      {head opening : Token}
      (outside : Opened outer before)
      (within : outer.length < depthLimit)
      (scope : WrittenPrefix (Parser.scope ⟨outer, .subject⟩) prior group.scope)
      (headKind : head.kind = .junction group.junction)
      (start : group.start = head.span.start)
      (openingKind : opening.kind = .openParen)
      (members : WrittenEarlier (outer.length + 1) group.scope tokens group.members) :
      Opened (group :: outer) (before ++ (prior ++ head :: opening :: tokens))

/-- The tokens of a test up to its operator. -/
inductive WrittenHeading (inherited : Option SensorId) : List Token → Heading → Prop where
  | intro {prior : List Token} {head : Token} {heading : Heading}
      (scope : WrittenPrefix inherited prior (some heading.sensor))
      (headKind : head.kind = .comparison heading.operator)
      (start : heading.start = head.span.start) :
      WrittenHeading inherited (prior ++ [head]) heading

/-- The tokens of the expression in progress, up to the one that is awaited. -/
inductive Begun (depth : Nat) (inherited : Option SensorId) : Awaiting → List Token → Prop where
  | subject : Begun depth inherited .subject []
  | sensorId {opening : Token} (within : depth < depthLimit)
      (openingKind : opening.kind = .openBracket) : Begun depth inherited .sensorId [opening]
  | closeBracket {opening word : Token} {id : Nat} (within : depth < depthLimit)
      (openingKind : opening.kind = .openBracket) (wordKind : word.kind = .word)
      (reads : Number.unsigned? 10 32 word.text.toList = some id) :
      Begun depth inherited (.closeBracket (UInt32.ofNat id)) [opening, word]
  | operator {tokens : List Token} {id : SensorId} (within : depth < depthLimit)
      (scope : WrittenScope tokens id) : Begun depth inherited (.operator (some id)) tokens
  | openGroup {prior : List Token} {head : Token} {junction : Junction}
      {scope : Option SensorId} (within : depth < depthLimit)
      (prefixed : WrittenPrefix inherited prior scope)
      (headKind : head.kind = .junction junction) :
      Begun depth inherited (.openGroup junction scope head.span.start) (prior ++ [head])
  | openTest {tokens : List Token} {heading : Heading} (within : depth < depthLimit)
      (headed : WrittenHeading inherited tokens heading) :
      Begun depth inherited (.openTest heading) tokens
  | fieldName {tokens : List Token} {heading : Heading} {opening : Token}
      (within : depth < depthLimit) (headed : WrittenHeading inherited tokens heading)
      (openingKind : opening.kind = .openParen) :
      Begun depth inherited (.fieldName heading) (tokens ++ [opening])
  | comma {tokens : List Token} {heading : Heading} {opening field : Token}
      (within : depth < depthLimit) (headed : WrittenHeading inherited tokens heading)
      (openingKind : opening.kind = .openParen) (fieldKind : field.kind = .word) :
      Begun depth inherited (.comma heading field) (tokens ++ [opening, field])
  | literal {tokens : List Token} {heading : Heading} {opening field comma : Token}
      (within : depth < depthLimit) (headed : WrittenHeading inherited tokens heading)
      (openingKind : opening.kind = .openParen) (fieldKind : field.kind = .word)
      (commaKind : comma.kind = .comma) :
      Begun depth inherited (.literal heading field) (tokens ++ [opening, field, comma])
  | closeTest {tokens : List Token} {heading : Heading} {opening field comma literal : Token}
      (within : depth < depthLimit) (headed : WrittenHeading inherited tokens heading)
      (openingKind : opening.kind = .openParen) (fieldKind : field.kind = .word)
      (commaKind : comma.kind = .comma)
      (literalKind : literal.kind = .word ∨ literal.kind = .quoted) :
      Begun depth inherited
        (.closeTest heading field ⟨literal.text, literal.kind = .quoted, literal.span⟩)
        (tokens ++ [opening, field, comma, literal])
  | follower {tokens : List Token} {expr : Expr}
      (written : Written depth inherited tokens expr) :
      Begun depth inherited (.follower expr) tokens

/-- What the tokens read are to a parser. -/
inductive Traced : List Token → Parser → Prop where
  | pending {groups : List OpenGroup} {awaiting : Awaiting} {before current : List Token}
      (outside : Opened groups before)
      (begun : Begun groups.length (Parser.scope ⟨groups, .subject⟩) awaiting current) :
      Traced (before ++ current) ⟨groups, awaiting⟩
  | finished {tokens rest : List Token} {marker : Token} {expr : Expr}
      (written : Written 0 none tokens expr) (markerKind : marker.kind = .finish) :
      Traced (tokens ++ marker :: rest) ⟨[], .nothing expr⟩

/-! ## Beginnings that are complete -/

theorem WrittenPrefix.written {depth : Nat} {inherited scope : Option SensorId}
    {prior tokens : List Token} {expr : Expr} (prefixed : WrittenPrefix inherited prior scope)
    (within : depth < depthLimit) (body : WrittenBody depth scope tokens expr) :
    Written depth inherited (prior ++ tokens) expr := by
  cases prefixed with
  | plain => exact .plain within body
  | replaced scope => exact .withScope within scope body

theorem WrittenEarlier.members {depth : Nat} {scope : Option SensorId}
    {tokens rest : List Token} {members others : List Expr}
    (earlier : WrittenEarlier depth scope tokens members)
    (later : WrittenMembers depth scope rest others) :
    WrittenMembers depth scope (tokens ++ rest) (members.reverse ++ others) := by
  induction earlier generalizing rest others with
  | none => exact later
  | more earlier member commaKind ih =>
      have joined := ih (.more member commaKind later)
      simpa using joined

theorem WrittenHeading.written {depth : Nat} {inherited : Option SensorId}
    {tokens : List Token} {heading : Heading} {opening field comma literal closing : Token}
    (headed : WrittenHeading inherited tokens heading) (within : depth < depthLimit)
    (openingKind : opening.kind = .openParen) (fieldKind : field.kind = .word)
    (commaKind : comma.kind = .comma) (literalKind : literal.kind = .word ∨ literal.kind = .quoted)
    (closingKind : closing.kind = .closeParen) :
    Written depth inherited (tokens ++ [opening, field, comma, literal, closing])
      (testOf heading field ⟨literal.text, literal.kind = .quoted, literal.span⟩ closing) := by
  cases headed with
  | @intro prior head _ prefixed headKind start =>
      have whole := prefixed.written within
        (.test headKind openingKind fieldKind commaKind literalKind closingKind)
      rw [testOf, start]
      simpa using whole

/-- A closing parenthesis after the last member completes the innermost open group. -/
theorem Written.group {group : OpenGroup} {outer : List OpenGroup}
    {prior tokens last : List Token} {head opening closing : Token} {expr : Expr}
    (within : outer.length < depthLimit)
    (scope : WrittenPrefix (Parser.scope ⟨outer, .subject⟩) prior group.scope)
    (headKind : head.kind = .junction group.junction) (start : group.start = head.span.start)
    (openingKind : opening.kind = .openParen)
    (members : WrittenEarlier (outer.length + 1) group.scope tokens group.members)
    (member : Written (outer.length + 1) group.scope last expr)
    (closingKind : closing.kind = .closeParen) :
    Written outer.length (Parser.scope ⟨outer, .subject⟩)
      (prior ++ head :: opening :: ((tokens ++ last) ++ [closing])) (group.close expr closing) := by
  have inside := members.members (.one member)
  have body := WrittenBody.group headKind openingKind inside closingKind
  rw [OpenGroup.close, List.reverse_cons, start]
  exact scope.written within body

/-! ## One more token -/

/-- The first token of a group or of a test. -/
theorem begun_of_readOperator {groups : List OpenGroup} {awaiting : Awaiting}
    {scope : Option SensorId} {prior : List Token} {token : Token} {next : Parser}
    (within : groups.length < depthLimit)
    (prefixed : WrittenPrefix (Parser.scope ⟨groups, .subject⟩) prior scope)
    (read : (⟨groups, awaiting⟩ : Parser).readOperator scope token = .ok next) :
    next.groups = groups ∧
      Begun groups.length (Parser.scope ⟨groups, .subject⟩) next.awaiting (prior ++ [token]) := by
  unfold readOperator at read
  split at read
  case h_1 junction _ kind =>
    cases read
    exact ⟨rfl, .openGroup within prefixed kind⟩
  case h_2 operator sensor kind =>
    cases read
    exact ⟨rfl, .openTest within (.intro prefixed kind rfl)⟩
  case h_3 => cases read
  case h_4 => cases read

/-- What follows a complete expression. -/
theorem traced_of_readFollower {groups : List OpenGroup} {before current : List Token}
    {expr : Expr} {token : Token} {next : Parser} (outside : Opened groups before)
    (written : Written groups.length (Parser.scope ⟨groups, .subject⟩) current expr)
    (read : readFollower groups expr token = .ok next) :
    Traced (before ++ current ++ [token]) next := by
  unfold readFollower at read
  split at read
  case h_1 kind =>
    cases read
    cases outside
    exact .finished written kind
  case h_2 => cases read
  case h_3 group outer kind =>
    cases read
    cases outside with
    | inside outside within scope headKind start openingKind members =>
        have opened : Opened ({ group with members := expr :: group.members } :: outer) _ :=
          .inside outside within scope headKind start openingKind (members.more written kind)
        have traced := Traced.pending opened .subject
        simpa using traced
  case h_4 group outer kind =>
    cases read
    cases outside with
    | inside outside within scope headKind start openingKind members =>
        have closed := Written.group within scope headKind start openingKind members written kind
        have traced := Traced.pending outside (.follower closed)
        simpa using traced
  case h_5 => cases read

/-- A parser that reads on keeps to the grammar. -/
theorem Traced.read {tokens : List Token} {parser next : Parser} {token : Token}
    (traced : Traced tokens parser) (read : parser.read token = .ok next) :
    Traced (tokens ++ [token]) next := by
  cases traced with
  | @finished prior rest marker expr written markerKind =>
      cases read
      have traced : Traced (prior ++ marker :: (rest ++ [token])) ⟨[], .nothing expr⟩ :=
        .finished written markerKind
      simpa using traced
  | @pending groups awaiting before current outside begun =>
      have proceed {next : Parser} {written : List Token} (same : next.groups = groups)
          (split : current ++ [token] = written)
          (begun : Begun groups.length (Parser.scope ⟨groups, .subject⟩) next.awaiting written) :
          Traced (before ++ current ++ [token]) next := by
        obtain ⟨others, awaiting⟩ := next
        cases same
        rw [List.append_assoc, split]
        exact .pending outside begun
      cases begun with
      | subject =>
          simp only [Parser.read] at read
          split at read
          case isTrue => cases read
          case isFalse shallow =>
            have within := Nat.lt_of_not_le shallow
            split at read
            case isTrue kind =>
              cases read
              exact proceed rfl rfl (.sensorId within kind)
            case isFalse =>
              obtain ⟨same, begun⟩ := begun_of_readOperator within .plain read
              exact proceed same rfl begun
      | @sensorId opening within openingKind =>
          simp only [Parser.read] at read
          split at read
          case isTrue kind =>
            unfold scopeOf at read
            split at read
            case h_1 id reads =>
              cases read
              exact proceed rfl rfl (.closeBracket within openingKind kind reads)
            case h_2 => cases read
          case isFalse => cases read
      | @closeBracket opening word id within openingKind wordKind reads =>
          obtain ⟨kind, rfl⟩ := ite_eq_ok.1 read
          exact proceed rfl rfl (.operator within (.intro openingKind wordKind reads kind))
      | operator within scope =>
          obtain ⟨same, begun⟩ := begun_of_readOperator within (.replaced scope) read
          exact proceed same rfl begun
      | @openGroup prior head junction scope within prefixed headKind =>
          obtain ⟨kind, rfl⟩ := ite_eq_ok.1 read
          have opened : Opened (⟨junction, scope, head.span.start, []⟩ :: groups) _ :=
            .inside outside within prefixed headKind rfl kind .none
          have traced := Traced.pending opened .subject
          simpa using traced
      | openTest within headed =>
          obtain ⟨kind, rfl⟩ := ite_eq_ok.1 read
          exact proceed rfl rfl (.fieldName within headed kind)
      | fieldName within headed openingKind =>
          obtain ⟨kind, rfl⟩ := ite_eq_ok.1 read
          exact proceed rfl (by simp) (.comma within headed openingKind kind)
      | comma within headed openingKind fieldKind =>
          obtain ⟨kind, rfl⟩ := ite_eq_ok.1 read
          exact proceed rfl (by simp) (.literal within headed openingKind fieldKind kind)
      | literal within headed openingKind fieldKind commaKind =>
          obtain ⟨kind, rfl⟩ := ite_eq_ok.1 read
          exact proceed rfl (by simp) (.closeTest within headed openingKind fieldKind commaKind
            (by simpa using kind))
      | closeTest within headed openingKind fieldKind commaKind literalKind =>
          obtain ⟨kind, rfl⟩ := ite_eq_ok.1 read
          exact proceed rfl (by simp) (.follower
            (headed.written within openingKind fieldKind commaKind literalKind kind))
      | follower written => exact traced_of_readFollower outside written read

theorem Traced.readAll {prior tokens : List Token} {parser last : Parser}
    (traced : Traced prior parser) (read : readAll tokens parser = .ok last) :
    Traced (prior ++ tokens) last := by
  induction tokens generalizing prior parser with
  | nil =>
      cases read
      simpa using traced
  | cons token rest ih =>
      unfold Expr.readAll at read
      rw [List.foldlM_cons] at read
      obtain ⟨middle, first, others⟩ := bind_eq_ok.1 read
      have after := ih (traced.read first) others
      simpa using after

theorem traced_start : Traced [] Parser.start :=
  .pending .none .subject

end Tripwire.Expr
