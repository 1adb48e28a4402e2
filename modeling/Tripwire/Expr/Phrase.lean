import Tripwire.Expr.Grammar

/-!
# The grammar without its limit

The same tokens write the same expressions, in whatever depth. An expression that the limit allows
is written as here; how deep it is nested is then all that is left to ask.
-/

namespace Tripwire.Expr

mutual

/-- How many expressions there are from the outermost down to the innermost, itself included. -/
def height : Expr → Nat
  | test _ => 1
  | group _ members _ => heightOfMembers members + 1

/-- The height of the highest member. -/
def heightOfMembers : List Expr → Nat
  | [] => 0
  | first :: rest => max first.height (heightOfMembers rest)

end

mutual

/-- The tokens write the expression under a scope. -/
inductive Phrase : Option SensorId → List Token → Expr → Prop where
  | plain {scope : Option SensorId} {tokens : List Token} {expr : Expr}
      (body : PhraseBody scope tokens expr) : Phrase scope tokens expr
  | withScope {outer : Option SensorId} {prior tokens : List Token} {id : SensorId} {expr : Expr}
      (scope : WrittenScope prior id) (body : PhraseBody (some id) tokens expr) :
      Phrase outer (prior ++ tokens) expr

/-- The tokens write a group or a test without a scope of its own. -/
inductive PhraseBody : Option SensorId → List Token → Expr → Prop where
  | test {sensor : SensorId} {operator : Comparison}
      {head opening field comma literal closing : Token}
      (headKind : head.kind = .comparison operator)
      (openingKind : opening.kind = .openParen)
      (fieldKind : field.kind = .word)
      (commaKind : comma.kind = .comma)
      (literalKind : literal.kind = .word ∨ literal.kind = .quoted)
      (closingKind : closing.kind = .closeParen) :
      PhraseBody (some sensor) [head, opening, field, comma, literal, closing]
        (.test
          { sensor
            operator
            field := field.text
            fieldSpan := field.span
            literal := ⟨literal.text, literal.kind = .quoted, literal.span⟩
            span := ⟨head.span.start, closing.span.stop⟩ })
  | group {scope : Option SensorId} {junction : Junction} {head opening closing : Token}
      {tokens : List Token} {members : List Expr}
      (headKind : head.kind = .junction junction)
      (openingKind : opening.kind = .openParen)
      (inside : PhraseMembers scope tokens members)
      (closingKind : closing.kind = .closeParen) :
      PhraseBody scope (head :: opening :: (tokens ++ [closing]))
        (.group junction members ⟨head.span.start, closing.span.stop⟩)

/-- The tokens write members with commas between them. -/
inductive PhraseMembers : Option SensorId → List Token → List Expr → Prop where
  | one {scope : Option SensorId} {tokens : List Token} {expr : Expr}
      (member : Phrase scope tokens expr) : PhraseMembers scope tokens [expr]
  | more {scope : Option SensorId} {tokens rest : List Token} {comma : Token} {expr : Expr}
      {members : List Expr}
      (member : Phrase scope tokens expr)
      (commaKind : comma.kind = .comma)
      (others : PhraseMembers scope rest members) :
      PhraseMembers scope (tokens ++ comma :: rest) (expr :: members)

end

/-- The tokens before an end marker write the expression. As for a parser, nothing depends on what
stands after the marker. -/
def Sentence (scope : Option SensorId) (tokens : List Token) (expr : Expr) : Prop :=
  ∃ prior marker rest, tokens = prior ++ marker :: rest ∧ marker.kind = .finish ∧
    Phrase scope prior expr

/-- Some tokens after these complete a sentence. -/
def Viable (scope : Option SensorId) (tokens : List Token) : Prop :=
  ∃ more expr, Sentence scope (tokens ++ more) expr

/-! ## What the limit allows -/

theorem height_pos (expr : Expr) : 0 < expr.height := by
  cases expr <;> exact Nat.succ_pos _

theorem lt_of_height_le (expr : Expr) {depth : Nat} (most : depth + expr.height ≤ depthLimit) :
    depth < depthLimit :=
  Nat.lt_of_lt_of_le (Nat.lt_add_of_pos_right expr.height_pos) most

mutual

theorem Written.phrase : ∀ {depth : Nat} {scope : Option SensorId} {tokens : List Token}
    {expr : Expr}, Written depth scope tokens expr →
      Phrase scope tokens expr ∧ depth + expr.height ≤ depthLimit
  | _, _, _, _, .plain within body =>
      ⟨.plain (body.phrase within).1, (body.phrase within).2⟩
  | _, _, _, _, .withScope within scope body =>
      ⟨.withScope scope (body.phrase within).1, (body.phrase within).2⟩

theorem WrittenBody.phrase : ∀ {depth : Nat} {scope : Option SensorId} {tokens : List Token}
    {expr : Expr}, WrittenBody depth scope tokens expr → depth < depthLimit →
      PhraseBody scope tokens expr ∧ depth + expr.height ≤ depthLimit
  | _, _, _, _, .test headKind openingKind fieldKind commaKind literalKind closingKind, within =>
      ⟨.test headKind openingKind fieldKind commaKind literalKind closingKind, within⟩
  | _, _, _, _, .group headKind openingKind inside closingKind, _ => by
      obtain ⟨phrases, most⟩ := inside.phrases
      refine ⟨.group headKind openingKind phrases closingKind, ?_⟩
      rw [height]
      omega

theorem WrittenMembers.phrases : ∀ {depth : Nat} {scope : Option SensorId}
    {tokens : List Token} {members : List Expr}, WrittenMembers depth scope tokens members →
      PhraseMembers scope tokens members ∧ depth + heightOfMembers members ≤ depthLimit
  | _, _, _, _, .one member => by
      obtain ⟨phrase, most⟩ := member.phrase
      refine ⟨.one phrase, ?_⟩
      rw [heightOfMembers, heightOfMembers]
      omega
  | _, _, _, _, .more member commaKind others => by
      obtain ⟨phrase, most⟩ := member.phrase
      obtain ⟨phrases, mostOthers⟩ := others.phrases
      refine ⟨.more phrase commaKind phrases, ?_⟩
      rw [heightOfMembers]
      omega

end

mutual

theorem Phrase.written : ∀ {scope : Option SensorId} {tokens : List Token} {expr : Expr},
    Phrase scope tokens expr → ∀ {depth : Nat}, depth + expr.height ≤ depthLimit →
      Written depth scope tokens expr
  | _, _, expr, .plain body, _, most =>
      .plain (expr.lt_of_height_le most) (body.written most)
  | _, _, expr, .withScope scope body, _, most =>
      .withScope (expr.lt_of_height_le most) scope (body.written most)

theorem PhraseBody.written : ∀ {scope : Option SensorId} {tokens : List Token} {expr : Expr},
    PhraseBody scope tokens expr → ∀ {depth : Nat}, depth + expr.height ≤ depthLimit →
      WrittenBody depth scope tokens expr
  | _, _, _, .test headKind openingKind fieldKind commaKind literalKind closingKind, _, _ =>
      .test headKind openingKind fieldKind commaKind literalKind closingKind
  | _, _, _, .group headKind openingKind inside closingKind, _, most => by
      rw [height] at most
      exact .group headKind openingKind (inside.written (by omega)) closingKind

theorem PhraseMembers.written : ∀ {scope : Option SensorId} {tokens : List Token}
    {members : List Expr}, PhraseMembers scope tokens members → ∀ {depth : Nat},
      depth + heightOfMembers members ≤ depthLimit → WrittenMembers depth scope tokens members
  | _, _, _, .one member, _, most => by
      rw [heightOfMembers] at most
      exact .one (member.written (by omega))
  | _, _, _, .more member commaKind others, _, most => by
      rw [heightOfMembers] at most
      exact .more (member.written (by omega)) commaKind (others.written (by omega))

end

/-! ## Scopes around -/

mutual

/-- A scope around a phrase reaches the tests that no other scope does. -/
theorem Phrase.or : ∀ {scope : Option SensorId} {tokens : List Token} {expr : Expr},
    Phrase scope tokens expr → ∀ around, Phrase (scope.or around) tokens expr
  | _, _, _, .plain body, around => .plain (body.or around)
  | _, _, _, .withScope scope body, _ => .withScope scope body

theorem PhraseBody.or : ∀ {scope : Option SensorId} {tokens : List Token} {expr : Expr},
    PhraseBody scope tokens expr → ∀ around, PhraseBody (scope.or around) tokens expr
  | _, _, _, .test headKind openingKind fieldKind commaKind literalKind closingKind, _ =>
      .test headKind openingKind fieldKind commaKind literalKind closingKind
  | _, _, _, .group headKind openingKind inside closingKind, around =>
      .group headKind openingKind (inside.or around) closingKind

theorem PhraseMembers.or : ∀ {scope : Option SensorId} {tokens : List Token}
    {members : List Expr}, PhraseMembers scope tokens members →
      ∀ around, PhraseMembers (scope.or around) tokens members
  | _, _, _, .one member, around => .one (member.or around)
  | _, _, _, .more member commaKind others, around =>
      .more (member.or around) commaKind (others.or around)

end

end Tripwire.Expr
