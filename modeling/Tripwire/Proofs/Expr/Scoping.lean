import Tripwire.Proofs.Expr.Depth
import Tripwire.Proofs.Steps

/-!
# Reading under a scope

A parser that reads on goes the same way where a scope stands before all tokens: what it has met
differs in the scopes only, which then are nowhere missing. So it takes a comparison operator there
only if it would take one, were there a scope.
-/

namespace Tripwire

namespace Parser

variable {parser next : Parser} {token : Token}

/-- The group with a scope around it. -/
def OpenGroup.under (sensor : SensorId) (group : OpenGroup) : OpenGroup :=
  { group with scope := group.scope.or (some sensor) }

/-- What is awaited with a scope around it. -/
def Awaiting.under (sensor : SensorId) : Awaiting → Awaiting
  | .operator scope => .operator (scope.or (some sensor))
  | .openGroup junction scope start => .openGroup junction (scope.or (some sensor)) start
  | awaiting => awaiting

/-- The parser that has met a scope before all else. -/
def under (sensor : SensorId) (parser : Parser) : Parser :=
  ⟨parser.groups.map (OpenGroup.under sensor), parser.awaiting.under sensor⟩

/-- The parser stands in a group where it awaits an expression. -/
def IsInside (parser : Parser) : Prop :=
  match parser.awaiting with
  | .subject => parser.groups ≠ []
  | _ => True

theorem under_scope (sensor : SensorId) (inside : parser.groups ≠ []) :
    (parser.under sensor).scope = parser.scope.or (some sensor) := by
  obtain ⟨groups, awaiting⟩ := parser
  cases groups with
  | nil => exact absurd rfl inside
  | cons group outer => rfl

theorem readOperator_under (sensor : SensorId) {scope : Option SensorId}
    (read : parser.readOperator scope token = .ok next) :
    (parser.under sensor).readOperator (scope.or (some sensor)) token = .ok (next.under sensor) ∧
      next.IsInside := by
  unfold readOperator at read
  split at read
  case h_1 kind =>
    cases read
    refine ⟨?_, trivial⟩
    simp [readOperator, kind, under, await, Awaiting.under]
  case h_2 kind =>
    cases read
    refine ⟨?_, trivial⟩
    simp [readOperator, kind, under, await, Awaiting.under]
  case h_3 => cases read
  case h_4 => cases read

theorem readFollower_under (sensor : SensorId) {groups : List OpenGroup} {expr : Expr}
    (read : readFollower groups expr token = .ok next) :
    readFollower (groups.map (OpenGroup.under sensor)) expr token = .ok (next.under sensor) ∧
      next.IsInside := by
  unfold readFollower at read
  split at read
  case h_1 kind =>
    cases read
    refine ⟨?_, trivial⟩
    simp [readFollower, kind, under, Awaiting.under]
  case h_2 => cases read
  case h_3 group outer kind =>
    cases read
    refine ⟨?_, List.cons_ne_nil _ _⟩
    simp [readFollower, kind, under, Awaiting.under, OpenGroup.under]
  case h_4 group outer kind =>
    cases read
    refine ⟨?_, trivial⟩
    simp [readFollower, kind, under, Awaiting.under, OpenGroup.under, OpenGroup.close]
  case h_5 => cases read

theorem read_under (sensor : SensorId) (inside : parser.IsInside)
    (read : parser.read token = .ok next) :
    (parser.under sensor).read token = .ok (next.under sensor) ∧ next.IsInside := by
  obtain ⟨groups, awaiting⟩ := parser
  cases awaiting with
  | subject =>
      obtain ⟨shallow, read⟩ := ite_error_eq_ok.1 read
      have shallower : ¬Expr.depthLimit ≤ (groups.map (OpenGroup.under sensor)).length := by
        rwa [List.length_map]
      split at read
      case isTrue kind =>
        cases read
        exact ⟨(if_neg shallower).trans (if_pos kind), trivial⟩
      case isFalse kind =>
        obtain ⟨later, inside'⟩ := readOperator_under sensor read
        rw [← under_scope sensor inside] at later
        exact ⟨(if_neg shallower).trans ((if_neg kind).trans later), inside'⟩
  | operator scope => exact readOperator_under sensor read
  | follower expr => exact readFollower_under sensor read
  | sensorId =>
      simp only [Parser.read] at read
      split at read
      case isTrue kind =>
        obtain ⟨id, reads, rfl⟩ := map_eq_ok.1 read
        refine ⟨?_, trivial⟩
        simp [Parser.read, kind, reads, Except.map, under, Awaiting.under, await]
      case isFalse => cases read
  | openGroup junction scope start =>
      obtain ⟨kind, rfl⟩ := ite_eq_ok.1 read
      refine ⟨?_, List.cons_ne_nil _ _⟩
      simp [Parser.read, kind, under, Awaiting.under, OpenGroup.under]
  | closeBracket scope | openTest heading | fieldName heading | comma heading field
  | closeTest heading field literal =>
      obtain ⟨kind, rfl⟩ := ite_eq_ok.1 read
      refine ⟨?_, trivial⟩
      simp [Parser.read, kind, under, Awaiting.under, await]
  | literal heading field =>
      obtain ⟨kind, rfl⟩ := ite_eq_ok.1 read
      refine ⟨?_, trivial⟩
      simp_all [Parser.read, under, Awaiting.under, await]
  | nothing expr =>
      cases read
      exact ⟨rfl, trivial⟩

/-- The tokens after the first of a group are read alike. -/
theorem readAll_under (sensor : SensorId) {tokens : List Token} (inside : parser.IsInside)
    (read : Expr.readAll tokens parser = .ok next) :
    Expr.readAll tokens (parser.under sensor) = .ok (next.under sensor) := by
  induction tokens generalizing parser with
  | nil =>
      cases read
      rfl
  | cons token rest ih =>
      rw [Expr.readAll, List.foldlM_cons] at read
      obtain ⟨middle, first, others⟩ := bind_eq_ok.1 read
      obtain ⟨here, inside'⟩ := read_under sensor inside first
      rw [Expr.readAll_cons_of_ok here]
      exact ih inside' others

/-- The first token of a group is read alike after the scope. -/
theorem read_start_under (sensor : SensorId) {other : Parser}
    (read : Parser.start.read token = .ok next)
    (after : (⟨[], .operator (some sensor)⟩ : Parser).read token = .ok other) :
    other = next.under sensor ∧ next.IsInside := by
  simp only [Parser.read, readOperator] at after
  split at after
  case h_1 junction kind =>
    cases after
    have started : Parser.start.read token =
        .ok ⟨[], .openGroup junction none token.span.start⟩ := by
      simp [Parser.read, readOperator, kind, start, await, scope, Expr.depthLimit]
    cases started.symm.trans read
    exact ⟨rfl, trivial⟩
  case h_2 kind _ =>
    have failed : Parser.start.read token = .error (.unscoped token.span.start) := by
      simp [Parser.read, readOperator, kind, start, scope, Expr.depthLimit]
    cases failed.symm.trans read
  case h_3 => cases after
  case h_4 => cases after

theorem ne_tooDeep_of_readOperator {scope : Option SensorId} {error : Error} {position : Nat}
    (failed : parser.readOperator scope token = .error error) :
    error ≠ .malformed position .tooDeep := by
  rintro rfl
  unfold readOperator at failed
  split at failed <;> cases failed

/-- Where a comparison operator is no error for its scope, it is one under any. -/
theorem read_under_comparison (sensor : SensorId) {operator : Comparison} {error : Error}
    (kind : token.kind = .comparison operator) (failed : parser.read token = .error error) :
    parser.awaiting = .subject ∨ (∃ scope, parser.awaiting = .operator scope) ∨
      (parser.under sensor).read token = .error error := by
  obtain ⟨groups, awaiting⟩ := parser
  cases awaiting with
  | subject => exact .inl rfl
  | operator scope => exact .inr (.inl ⟨scope, rfl⟩)
  | nothing expr => cases failed
  | follower expr =>
      refine .inr (.inr ?_)
      cases groups with
      | nil => simpa [Parser.read, readFollower, kind, under, Awaiting.under] using failed
      | cons group outer => simpa [Parser.read, readFollower, kind, under, Awaiting.under] using failed
  | sensorId | closeBracket scope | openGroup junction scope start | openTest heading
  | fieldName heading | comma heading field | literal heading field
  | closeTest heading field literal =>
      refine .inr (.inr ?_)
      simpa [Parser.read, kind, under, Awaiting.under] using failed

end Parser

namespace Expr

open Tripwire.Parser

/-- A comparison operator that is refused, but would do under a scope, stands where an operator
may. -/
theorem Viable.awaiting {sensor : SensorId} {before : List Token} {token : Token}
    {parser : Parser} {operator : Comparison} {error : Error}
    (viable : Viable (some sensor) (before ++ [token]))
    (unscoped : ¬Viable none (before ++ [token]))
    (read : readAll before Parser.start = .ok parser)
    (kind : token.kind = .comparison operator) (failed : parser.read token = .error error)
    (shallow : ∀ position, error ≠ .malformed position .tooDeep) :
    parser.awaiting = .subject ∨ ∃ scope, parser.awaiting = .operator scope := by
  obtain ⟨more, expr, prior, marker, rest, split, markerKind, phrase⟩ := viable
  cases phrase with
  | withScope scope body =>
      exact absurd ⟨more, expr, _, marker, rest, split, markerKind, .withScope scope body⟩ unscoped
  | plain body =>
      -- The phrase is read as if its scope were written before it.
      have reads : ReadsTo (before ++ [token] ++ more) ⟨[], .operator (some sensor)⟩
          ⟨[], .nothing expr⟩ :=
        split ▸ (body.readsTo (takesOperator_operator _ _) (by decide)).finish markerKind
      cases before with
      | nil =>
          cases read
          exact .inl rfl
      | cons first others =>
          rw [readAll, List.foldlM_cons] at read
          obtain ⟨middle, once, later⟩ := bind_eq_ok.1 read
          cases after : (⟨[], .operator (some sensor)⟩ : Parser).read first with
          | error refused =>
              rw [List.cons_append, List.cons_append, ← List.singleton_append] at reads
              obtain ⟨position, deep⟩ := reads.position (readAll_cons_of_error after)
              exact absurd deep (ne_tooDeep_of_readOperator after)
          | ok other =>
              obtain ⟨rfl, inside⟩ := read_start_under sensor once after
              have reached := readAll_under sensor inside later
              rcases read_under_comparison sensor kind failed with here | here | refused
              · exact .inl here
              · exact .inr here
              · have whole : readAll (first :: others ++ [token]) ⟨[], .operator (some sensor)⟩ =
                    .error error := by
                  rw [List.cons_append, readAll_cons_of_ok after, readAll_append_of_ok reached]
                  exact readAll_cons_of_error refused
                obtain ⟨position, deep⟩ := reads.position whole
                exact absurd deep (shallow position)

end Expr

end Tripwire
