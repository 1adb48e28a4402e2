import Tripwire.Expr.Parser
import Tripwire.Proofs.Token.Spacing

/-!
# Places are only reported

What a parser reads depends on the kinds and the texts of tokens. Their places end up in the spans of
the expression or in the position of the error and nowhere else, so blanks between the tokens of a
text change nothing but those.
-/

namespace Tripwire

/-! ## Without places -/

def Span.nowhere : Span := ⟨0, 0⟩

namespace Token

/-- What the token says, without where. -/
def unplaced (token : Token) : Token :=
  { token with span := .nowhere }

theorem unplaced_eq (token : Token) :
    token.unplaced = Scan.token token.lexeme.1 token.lexeme.2 0 0 := by
  rw [lexeme, Scan.token, String.ofList_toList]
  rfl

theorem map_unplaced (tokens : List Token) :
    tokens.map unplaced = (tokens.map lexeme).map fun said => Scan.token said.1 said.2 0 0 := by
  rw [List.map_map]
  exact List.map_congr_left fun token _ => token.unplaced_eq

end Token

def Literal.unplaced (literal : Literal) : Literal :=
  { literal with span := .nowhere }

/-- The test without its places. -/
def WrittenTest.unplaced (test : WrittenTest) : WrittenTest :=
  { test with fieldSpan := .nowhere, literal := test.literal.unplaced, span := .nowhere }

mutual

/-- The expression without the places of its parts. -/
def Expr.unplaced : Expr → Expr
  | .test leaf => .test leaf.unplaced
  | .group junction members _ => .group junction (Expr.unplacedMembers members) .nowhere

def Expr.unplacedMembers : List Expr → List Expr
  | [] => []
  | first :: rest => first.unplaced :: Expr.unplacedMembers rest

end

theorem Expr.unplacedMembers_eq_map (members : List Expr) :
    unplacedMembers members = members.map unplaced := by
  induction members with
  | nil => rfl
  | cons first rest ih => rw [unplacedMembers, ih, List.map_cons]

/-- The error without its place in the text. -/
def Error.unplaced : Error → Error
  | .malformed _ flaw => .malformed 0 flaw
  | .unscoped _ => .unscoped 0
  | error => error

/-- A result without its places, or an error without its one. -/
def unplacedResult {α : Type} (unplaced : α → α) : Except Error α → Except Error α
  | .ok value => .ok (unplaced value)
  | .error error => .error error.unplaced

/-! ## Reading without places -/

namespace Parser

def OpenGroup.unplaced (group : OpenGroup) : OpenGroup :=
  { group with start := 0, members := group.members.map Expr.unplaced }

def Heading.unplaced (heading : Heading) : Heading :=
  { heading with start := 0 }

/-- What is awaited, without the places of what has been read of it. -/
def Awaiting.unplaced : Awaiting → Awaiting
  | .openGroup junction scope _ => .openGroup junction scope 0
  | .openTest heading => .openTest heading.unplaced
  | .fieldName heading => .fieldName heading.unplaced
  | .comma heading field => .comma heading.unplaced field.unplaced
  | .literal heading field => .literal heading.unplaced field.unplaced
  | .closeTest heading field given =>
      .closeTest heading.unplaced field.unplaced given.unplaced
  | .follower expr => .follower expr.unplaced
  | .nothing expr => .nothing expr.unplaced
  | awaiting => awaiting

/-- The parser that has read the same tokens without their places. -/
def unplaced (parser : Parser) : Parser :=
  ⟨parser.groups.map OpenGroup.unplaced, parser.awaiting.unplaced⟩

theorem unplaced_scope (parser : Parser) : parser.unplaced.scope = parser.scope := by
  obtain ⟨groups, awaiting⟩ := parser
  cases groups <;> rfl

theorem readOperator_unplaced (parser : Parser) (scope : Option SensorId) (token : Token) :
    parser.unplaced.readOperator scope token.unplaced =
      unplacedResult unplaced (parser.readOperator scope token) := by
  obtain ⟨kind, text, span⟩ := token
  cases kind <;> cases scope <;> rfl

theorem close_unplaced (group : OpenGroup) (last : Expr) (token : Token) :
    group.unplaced.close last.unplaced token.unplaced = (group.close last token).unplaced := by
  simp only [OpenGroup.close, Expr.unplaced, Expr.unplacedMembers_eq_map, List.map_reverse,
    List.map_cons]
  rfl

theorem readFollower_unplaced (groups : List OpenGroup) (expr : Expr) (token : Token) :
    readFollower (groups.map OpenGroup.unplaced) expr.unplaced token.unplaced =
      unplacedResult unplaced (readFollower groups expr token) := by
  obtain ⟨kind, text, span⟩ := token
  cases groups with
  | nil => cases kind <;> rfl
  | cons group outer =>
      cases kind with
      | closeParen =>
          have closed := close_unplaced group expr ⟨.closeParen, text, span⟩
          exact congrArg (fun whole => Except.ok (Parser.mk (outer.map OpenGroup.unplaced)
            (.follower whole))) closed
      | _ => rfl

theorem scopeOf_unplaced (token : Token) :
    scopeOf token.unplaced = unplacedResult id (scopeOf token) := by
  unfold scopeOf Token.unplaced
  dsimp only
  split <;> rfl

/-- Reading a token comes to the same without places. -/
theorem read_unplaced (parser : Parser) (token : Token) :
    parser.unplaced.read token.unplaced = unplacedResult unplaced (parser.read token) := by
  obtain ⟨groups, awaiting⟩ := parser
  cases awaiting with
  | subject =>
      change ite (_ ≤ (groups.map OpenGroup.unplaced).length) _ (ite _ _ _) =
        unplacedResult unplaced (ite _ _ (ite _ _ _))
      rw [apply_ite (unplacedResult unplaced), apply_ite (unplacedResult unplaced),
        unplaced_scope, readOperator_unplaced, List.length_map]
      rfl
  | sensorId =>
      change ite _ ((scopeOf token.unplaced).map _) _ = unplacedResult unplaced (ite _ _ _)
      rw [apply_ite (unplacedResult unplaced), scopeOf_unplaced]
      cases scopeOf token <;> rfl
  | operator scope => exact readOperator_unplaced ⟨groups, .operator scope⟩ scope token
  | follower expr => exact readFollower_unplaced groups expr token
  | nothing expr => rfl
  | closeBracket scope | openGroup junction scope start | openTest heading | fieldName heading
  | comma heading field | literal heading field | closeTest heading field literal =>
      change ite _ _ _ = unplacedResult unplaced (ite _ _ _)
      rw [apply_ite (unplacedResult unplaced)]
      rfl

/-- All tokens come to the same without their places. -/
theorem foldlM_unplaced (tokens : List Token) (parser : Parser) :
    (tokens.map Token.unplaced).foldlM read parser.unplaced =
      unplacedResult unplaced (tokens.foldlM read parser) := by
  induction tokens generalizing parser with
  | nil => rfl
  | cons token rest ih =>
      rw [List.map_cons, List.foldlM_cons, List.foldlM_cons, read_unplaced]
      cases parser.read token with
      | error error => rfl
      | ok next => exact ih next

theorem stuckError_unplaced (parser : Parser) (last : Token) :
    parser.unplaced.stuckError last.unplaced = (parser.stuckError last).unplaced := by
  rw [stuckError, stuckError, read_unplaced]
  cases parser.read last <;> rfl

theorem conclude_unplaced (parser : Parser) (last : Token) :
    parser.unplaced.conclude last.unplaced =
      unplacedResult Expr.unplaced (parser.conclude last) := by
  obtain ⟨groups, awaiting⟩ := parser
  cases awaiting with
  | nothing expr => rfl
  | _ => exact congrArg Except.error (stuckError_unplaced _ last)

end Parser

namespace Expr

/-- The expression or the error of tokens is, but for its places, that of the tokens without
theirs. -/
theorem ofTokens_unplaced (tokens : List Token) :
    ofTokens (tokens.map Token.unplaced) = unplacedResult unplaced (ofTokens tokens) := by
  unfold ofTokens
  rw [List.getLast?_map]
  cases tokens.getLast? with
  | none => rfl
  | some last =>
      have read := Parser.foldlM_unplaced tokens Parser.start
      change (tokens.map Token.unplaced).foldlM Parser.read Parser.start >>= _ = _
      change (tokens.map Token.unplaced).foldlM Parser.read Parser.start = _ at read
      rw [read]
      cases tokens.foldlM Parser.read Parser.start with
      | error error => rfl
      | ok parser => exact Parser.conclude_unplaced parser last

/-- Tokens that say the same make the same expression or the same error, but for its places. -/
theorem ofTokens_congr {tokens others : List Token}
    (same : others.map Token.lexeme = tokens.map Token.lexeme) :
    unplacedResult unplaced (ofTokens others) = unplacedResult unplaced (ofTokens tokens) := by
  have alike : others.map Token.unplaced = tokens.map Token.unplaced := by
    rw [Token.map_unplaced, Token.map_unplaced, same]
  rw [← ofTokens_unplaced, alike, ofTokens_unplaced]

/-- Blanks inserted at the edges of the tokens of a text leave it with tokens that say the same, and
with the same expression or the same error but for its places. -/
theorem parse_spaced {text : String} {tokens : List Token} {inserted : Nat → List Char}
    (scanned : Token.scan text = .ok tokens) (spacing : Token.Spacing tokens inserted) :
    (∃ others, Token.scan (String.ofList (Text.spaced inserted 0 text.toList)) = .ok others ∧
      others.map Token.lexeme = tokens.map Token.lexeme) ∧
    unplacedResult unplaced (parse (String.ofList (Text.spaced inserted 0 text.toList))) =
      unplacedResult unplaced (parse text) := by
  obtain ⟨others, rescanned, same⟩ := Token.exists_scan_spaced scanned spacing
  refine ⟨⟨others, rescanned, same⟩, ?_⟩
  rw [parse, parse, rescanned, scanned]
  exact ofTokens_congr same

/-- Blanks of three kinds beside marks, a word of two bytes and an operator of two characters, where
the tokens touch. -/
theorem parse_spaced_touching :
    let text := "[1]!=(à,'a\\' b')"
    let tokens : List Token :=
      [⟨.openBracket, "[", ⟨0, 1⟩⟩, ⟨.word, "1", ⟨1, 2⟩⟩, ⟨.closeBracket, "]", ⟨2, 3⟩⟩,
        ⟨.comparison .ne, "!=", ⟨3, 5⟩⟩, ⟨.openParen, "(", ⟨5, 6⟩⟩, ⟨.word, "à", ⟨6, 8⟩⟩,
        ⟨.comma, ",", ⟨8, 9⟩⟩, ⟨.quoted, "a' b", ⟨9, 16⟩⟩, ⟨.closeParen, ")", ⟨16, 17⟩⟩,
        ⟨.finish, "", ⟨17, 17⟩⟩]
    let inserted : Nat → List Char := fun place =>
      if place = 1 then ['\u3000'] else if place = 5 then ['\n', ' '] else
        if place = 8 then ['\u2003'] else if place = 16 then [' '] else []
    let spaced := "[\u30001]!=\n (à\u2003,'a\\' b' )"
    Token.scan text = .ok tokens ∧ Token.Spacing tokens inserted ∧
      String.ofList (Text.spaced inserted 0 text.toList) = spaced ∧
      (∃ others, Token.scan spaced = .ok others ∧
        others.map Token.lexeme = tokens.map Token.lexeme) ∧
      unplacedResult unplaced (parse spaced) = unplacedResult unplaced (parse text) := by
  intro text tokens inserted spaced
  have scanned : Token.scan text = .ok tokens := by decide +kernel
  have spacing : Token.Spacing tokens inserted := by
    have edges : ∀ place ∈ [1, 5, 8, 16], Token.IsEdge tokens place := by decide
    refine ⟨fun place => ?_, fun place some => edges place ?_⟩
    · dsimp only [inserted]
      split_ifs <;> simp <;> decide
    · by_contra apart
      simp_all [inserted]
  have same : String.ofList (Text.spaced inserted 0 text.toList) = spaced := by decide +kernel
  exact ⟨scanned, spacing, same, same ▸ parse_spaced scanned spacing⟩

end Expr

end Tripwire
