import Tripwire.Expr.Grammar

/-!
# Every written expression is read

A parser that awaits an expression reads exactly the tokens of one: it then awaits what
follows that expression, with the groups that were open before. Before an end marker the
expression is therefore the result, whatever stands after the marker.
-/

namespace Tripwire.Expr

open Tripwire.Parser

/-- Reads tokens in turn. -/
def readAll (tokens : List Token) (parser : Parser) : Except Error Parser :=
  tokens.foldlM Parser.read parser

theorem readAll_cons_of_ok {token : Token} {rest : List Token} {parser next : Parser}
    (read : parser.read token = .ok next) : readAll (token :: rest) parser = readAll rest next := by
  unfold readAll
  rw [List.foldlM_cons, read]
  rfl

theorem readAll_cons_of_error {token : Token} {rest : List Token} {parser : Parser} {error : Error}
    (read : parser.read token = .error error) : readAll (token :: rest) parser = .error error := by
  unfold readAll
  rw [List.foldlM_cons, read]
  rfl

theorem readAll_append_of_ok {first second : List Token} {parser middle : Parser}
    (read : readAll first parser = .ok middle) :
    readAll (first ++ second) parser = readAll second middle := by
  unfold readAll at read ⊢
  rw [List.foldlM_append, read]
  rfl

theorem readAll_append_of_error {first second : List Token} {parser : Parser} {error : Error}
    (read : readAll first parser = .error error) :
    readAll (first ++ second) parser = .error error := by
  unfold readAll at read ⊢
  rw [List.foldlM_append, read]
  rfl

theorem readAll_append {first second : List Token} {start finish : Parser} (middle : Parser)
    (before : readAll first start = .ok middle) (after : readAll second middle = .ok finish) :
    readAll (first ++ second) start = .ok finish :=
  (readAll_append_of_ok before).trans after

theorem readAll_cons {token : Token} {rest : List Token} {start finish : Parser}
    (middle : Parser) (before : start.read token = .ok middle)
    (after : readAll rest middle = .ok finish) :
    readAll (token :: rest) start = .ok finish :=
  (readAll_cons_of_ok before).trans after

theorem readAll_nil (parser : Parser) : readAll [] parser = .ok parser := rfl

theorem readAll_scope {tokens : List Token} {id : SensorId} (scope : WrittenScope tokens id)
    (groups : List OpenGroup) (within : groups.length < depthLimit) :
    readAll tokens ⟨groups, .subject⟩ = .ok ⟨groups, .operator (some id)⟩ := by
  cases scope with
  | @intro opening word closing number openingKind wordKind reads closingKind =>
      have shallow : ¬depthLimit ≤ groups.length := Nat.not_le.2 within
      refine readAll_cons ⟨groups, .sensorId⟩ ?_
        (readAll_cons ⟨groups, .closeBracket (UInt32.ofNat number)⟩ ?_
          (readAll_cons _ ?_ (readAll_nil _)))
      · simp [Parser.read, shallow, openingKind, await]
      · simp [Parser.read, wordKind, scopeOf, reads, Except.map, await]
      · simp [Parser.read, closingKind, await]

/-- A token that is no opening bracket is read as the operator of a group or a test. -/
def TakesOperator (parser : Parser) (scope : Option SensorId) : Prop :=
  ∀ token : Token, token.kind ≠ .openBracket →
    parser.read token = parser.readOperator scope token

theorem takesOperator_operator (groups : List OpenGroup) (scope : Option SensorId) :
    TakesOperator ⟨groups, .operator scope⟩ scope :=
  fun _ _ => rfl

theorem takesOperator_subject {groups : List OpenGroup} {scope : Option SensorId}
    (inherited : (⟨groups, .subject⟩ : Parser).scope = scope)
    (within : groups.length < depthLimit) : TakesOperator ⟨groups, .subject⟩ scope := by
  intro token kind
  have shallow : ¬depthLimit ≤ groups.length := Nat.not_le.2 within
  simp [Parser.read, inherited, shallow, kind]

/-- The beginning of a group is read wherever its first token is taken as an operator. -/
theorem readAll_opening {groups : List OpenGroup} {awaiting : Awaiting}
    {scope : Option SensorId} {junction : Junction} {head opening : Token}
    (starts : TakesOperator ⟨groups, awaiting⟩ scope)
    (headKind : head.kind = .junction junction) (openingKind : opening.kind = .openParen)
    (rest : List Token) :
    readAll (head :: opening :: rest) ⟨groups, awaiting⟩ =
      readAll rest ⟨⟨junction, scope, head.span.start, []⟩ :: groups, .subject⟩ := by
  have first : (⟨groups, awaiting⟩ : Parser).read head =
      .ok ⟨groups, .openGroup junction scope head.span.start⟩ := by
    rw [starts _ (by simp [headKind])]
    simp [readOperator, headKind, await]
  rw [readAll_cons_of_ok first]
  exact readAll_cons_of_ok (by simp [Parser.read, openingKind])

mutual

theorem readAll_written {depth : Nat} {scope : Option SensorId} {tokens : List Token}
    {expr : Expr} (written : Written depth scope tokens expr) (groups : List OpenGroup)
    (open_length : groups.length = depth)
    (inherited : (⟨groups, .subject⟩ : Parser).scope = scope) :
    readAll tokens ⟨groups, .subject⟩ = .ok ⟨groups, .follower expr⟩ := by
  cases written with
  | plain within body =>
      exact readAll_body body groups open_length .subject
        (takesOperator_subject inherited (by omega))
  | withScope within scope body =>
      refine readAll_append _ (readAll_scope scope groups (by omega)) ?_
      exact readAll_body body groups open_length (.operator (some _)) (takesOperator_operator _ _)

/-- A group or a test is read wherever its first token is taken as an operator. -/
theorem readAll_body {depth : Nat} {scope : Option SensorId} {tokens : List Token}
    {expr : Expr} (written : WrittenBody depth scope tokens expr) (groups : List OpenGroup)
    (open_length : groups.length = depth) (awaiting : Awaiting)
    (starts : TakesOperator ⟨groups, awaiting⟩ scope) :
    readAll tokens ⟨groups, awaiting⟩ = .ok ⟨groups, .follower expr⟩ := by
  cases written with
  | @test depth sensor operator head opening field comma literal closing headKind openingKind
      fieldKind commaKind literalKind closingKind =>
      let heading : Heading := ⟨sensor, operator, head.span.start⟩
      let contents : Literal := ⟨literal.text, literal.kind = .quoted, literal.span⟩
      refine readAll_cons ⟨groups, .openTest heading⟩ ?_
        (readAll_cons ⟨groups, .fieldName heading⟩ ?_
          (readAll_cons ⟨groups, .comma heading field⟩ ?_
            (readAll_cons ⟨groups, .literal heading field⟩ ?_
              (readAll_cons ⟨groups, .closeTest heading field contents⟩ ?_
                (readAll_cons _ ?_ (readAll_nil _))))))
      · rw [starts _ (by simp [headKind])]
        simp [readOperator, headKind, await, heading]
      · simp [Parser.read, openingKind, await]
      · simp [Parser.read, fieldKind, await]
      · simp [Parser.read, commaKind, await]
      · simp [Parser.read, literalKind, await, contents]
      · simp [Parser.read, closingKind, await, testOf, heading, contents]
  | @group depth scope junction head opening closing tokens members headKind openingKind inside
      closingKind =>
      obtain ⟨last, front, split, read⟩ :=
        readAll_members inside groups (by omega) junction head.span.start []
      rw [readAll_opening starts headKind openingKind]
      refine readAll_append _ read (readAll_cons _ ?_ (readAll_nil _))
      simp [Parser.read, readFollower, closingKind, OpenGroup.close, split]

/-- The members of an open group are read up to the last, which may still be followed. -/
theorem readAll_members {depth : Nat} {scope : Option SensorId} {tokens : List Token}
    {members : List Expr} (written : WrittenMembers depth scope tokens members)
    (groups : List OpenGroup) (open_length : groups.length + 1 = depth) (junction : Junction)
    (start : Nat) (earlier : List Expr) :
    ∃ last front, members = front ++ [last] ∧
      readAll tokens ⟨⟨junction, scope, start, earlier⟩ :: groups, .subject⟩ =
        .ok ⟨⟨junction, scope, start, front.reverse ++ earlier⟩ :: groups, .follower last⟩ := by
  cases written with
  | @one _ _ _ expr member =>
      refine ⟨expr, [], rfl, ?_⟩
      exact readAll_written member (⟨junction, scope, start, earlier⟩ :: groups)
        (by simpa using open_length) rfl
  | @more _ _ tokens rest comma expr members member commaKind others =>
      have first := readAll_written member (⟨junction, scope, start, earlier⟩ :: groups)
        (by simpa using open_length) rfl
      obtain ⟨last, front, split, read⟩ :=
        readAll_members others groups open_length junction start (expr :: earlier)
      refine ⟨last, expr :: front, by simp [split], readAll_append _ first (readAll_cons
        ⟨⟨junction, scope, start, expr :: earlier⟩ :: groups, .subject⟩ ?_ ?_)⟩
      · simp [Parser.read, readFollower, commaKind]
      · simpa using read

end

/-- What stands after the end marker is not looked at. -/
theorem readAll_nothing (tokens : List Token) (groups : List OpenGroup) (expr : Expr) :
    readAll tokens ⟨groups, .nothing expr⟩ = .ok ⟨groups, .nothing expr⟩ := by
  induction tokens with
  | nil => rfl
  | cons token rest ih => exact readAll_cons _ rfl ih

/-- After an expression and an end marker all is read. -/
theorem readAll_finish {tokens rest : List Token} {marker : Token} {expr : Expr} {start : Parser}
    (read : readAll tokens start = .ok ⟨[], .follower expr⟩) (markerKind : marker.kind = .finish) :
    readAll (tokens ++ marker :: rest) start = .ok ⟨[], .nothing expr⟩ := by
  refine readAll_append _ read (readAll_cons _ ?_ (readAll_nothing rest [] expr))
  simp [Parser.read, readFollower, markerKind]

/-- The expression that the tokens before an end marker write is the result. -/
theorem ofTokens_of_written {tokens rest : List Token} {marker : Token} {expr : Expr}
    (written : Written 0 none tokens expr) (markerKind : marker.kind = .finish) :
    ofTokens (tokens ++ marker :: rest) = .ok expr := by
  have read : readAll (tokens ++ marker :: rest) Parser.start = .ok ⟨[], .nothing expr⟩ :=
    readAll_finish (readAll_written written [] rfl rfl) markerKind
  have nonempty : tokens ++ marker :: rest ≠ [] := by simp
  unfold ofTokens
  rw [List.getLast?_eq_some_getLast nonempty]
  unfold readAll at read
  simp only [read]
  rfl

end Tripwire.Expr
