import Tripwire.Expr.Completeness
import Tripwire.Expr.Phrase

/-!
# Phrases of any depth

A phrase is read to its end or up to where it is nested too deeply, and no other error comes of it.
What is read with another error is therefore not the beginning of any.
-/

namespace Tripwire.Expr

open Tripwire.Parser

/-- Reading the tokens leads from one parser to another, unless they are nested too deeply. -/
def ReadsTo (tokens : List Token) (start finish : Parser) : Prop :=
  readAll tokens start = .ok finish ∨
    ∃ position, readAll tokens start = .error (.malformed position .tooDeep)

namespace ReadsTo

variable {first second : List Token} {start finish : Parser}

theorem append {middle : Parser} (before : ReadsTo first start middle)
    (after : ReadsTo second middle finish) : ReadsTo (first ++ second) start finish := by
  rcases before with read | ⟨position, deep⟩
  · rw [ReadsTo, readAll_append_of_ok read]
    exact after
  · exact .inr ⟨position, readAll_append_of_error deep⟩

/-- An error on the way is that of the depth. -/
theorem position (reads : ReadsTo (first ++ second) start finish) {error : Error}
    (failed : readAll first start = .error error) :
    ∃ position, error = .malformed position .tooDeep := by
  rw [ReadsTo, readAll_append_of_error failed] at reads
  rcases reads with read | ⟨position, deep⟩
  · cases read
  · cases deep
    exact ⟨position, rfl⟩

end ReadsTo

/-! ## Where the depth ends -/

theorem PhraseBody.exists_cons {scope : Option SensorId} {tokens : List Token} {expr : Expr}
    (body : PhraseBody scope tokens expr) : ∃ head rest, tokens = head :: rest := by
  cases body with
  | test => exact ⟨_, _, rfl⟩
  | group => exact ⟨_, _, rfl⟩

theorem Phrase.exists_cons {scope : Option SensorId} {tokens : List Token} {expr : Expr}
    (phrase : Phrase scope tokens expr) : ∃ head rest, tokens = head :: rest := by
  cases phrase with
  | plain body => exact body.exists_cons
  | withScope scope body =>
      cases scope with
      | intro => exact ⟨_, _, rfl⟩

mutual

/-- A phrase that reaches beyond the limit is read up to the first expression that is too deep. -/
theorem Phrase.tooDeep {scope : Option SensorId} {tokens : List Token} {expr : Expr}
    (phrase : Phrase scope tokens expr) (groups : List OpenGroup)
    (inherited : (⟨groups, .subject⟩ : Parser).scope = scope)
    (deep : depthLimit < groups.length + expr.height) :
    ∃ position, readAll tokens ⟨groups, .subject⟩ = .error (.malformed position .tooDeep) := by
  by_cases crowded : depthLimit ≤ groups.length
  · obtain ⟨head, rest, rfl⟩ := phrase.exists_cons
    exact ⟨head.span.start, readAll_cons_of_error (by simp [Parser.read, crowded])⟩
  · cases phrase with
    | plain body =>
        exact body.tooDeep groups .subject (takesOperator_subject inherited (by omega)) (by omega)
          deep
    | withScope scope body =>
        rw [readAll_append_of_ok (readAll_scope scope groups (by omega))]
        exact body.tooDeep groups (.operator (some _)) (takesOperator_operator _ _) (by omega) deep

theorem PhraseBody.tooDeep {scope : Option SensorId} {tokens : List Token} {expr : Expr}
    (body : PhraseBody scope tokens expr) (groups : List OpenGroup) (awaiting : Awaiting)
    (starts : TakesOperator ⟨groups, awaiting⟩ scope)
    (within : groups.length < depthLimit) (deep : depthLimit < groups.length + expr.height) :
    ∃ position, readAll tokens ⟨groups, awaiting⟩ = .error (.malformed position .tooDeep) := by
  cases body with
  | test => exact absurd within (Nat.not_lt.2 (Nat.le_of_lt_succ deep))
  | @group scope junction head opening closing tokens members headKind openingKind inside
      closingKind =>
      rw [height] at deep
      obtain ⟨position, failed⟩ :=
        inside.tooDeep groups junction head.span.start [] (by omega)
      rw [readAll_opening starts headKind openingKind]
      exact ⟨position, readAll_append_of_error failed⟩

/-- The members before the first that reaches too deep are read to their ends. -/
theorem PhraseMembers.tooDeep {scope : Option SensorId} {tokens : List Token}
    {members : List Expr} (phrases : PhraseMembers scope tokens members)
    (groups : List OpenGroup) (junction : Junction) (start : Nat) (earlier : List Expr)
    (deep : depthLimit < groups.length + 1 + heightOfMembers members) :
    ∃ position, readAll tokens ⟨⟨junction, scope, start, earlier⟩ :: groups, .subject⟩ =
      .error (.malformed position .tooDeep) := by
  cases phrases with
  | one member =>
      rw [heightOfMembers, heightOfMembers, Nat.max_zero] at deep
      exact member.tooDeep (⟨junction, scope, start, earlier⟩ :: groups) rfl deep
  | @more _ _ rest comma expr members member commaKind others =>
      rw [heightOfMembers] at deep
      by_cases first : depthLimit < groups.length + 1 + expr.height
      · obtain ⟨position, failed⟩ :=
          member.tooDeep (⟨junction, scope, start, earlier⟩ :: groups) rfl first
        exact ⟨position, readAll_append_of_error failed⟩
      · have written := member.written (Nat.not_lt.1 first)
        have read := readAll_written written (⟨junction, scope, start, earlier⟩ :: groups) rfl rfl
        have separated : (⟨⟨junction, scope, start, earlier⟩ :: groups, .follower expr⟩ :
            Parser).read comma =
              .ok ⟨⟨junction, scope, start, expr :: earlier⟩ :: groups, .subject⟩ := by
          simp [Parser.read, readFollower, commaKind]
        rw [readAll_append_of_ok read, readAll_cons_of_ok separated]
        exact others.tooDeep groups junction start (expr :: earlier) (by omega)

end

/-! ## Reading phrases -/

theorem PhraseBody.readsTo {scope : Option SensorId} {tokens : List Token} {expr : Expr}
    (body : PhraseBody scope tokens expr) {groups : List OpenGroup} {awaiting : Awaiting}
    (starts : TakesOperator ⟨groups, awaiting⟩ scope)
    (within : groups.length < depthLimit) :
    ReadsTo tokens ⟨groups, awaiting⟩ ⟨groups, .follower expr⟩ := by
  by_cases most : groups.length + expr.height ≤ depthLimit
  · exact .inl (readAll_body (body.written most) groups rfl awaiting starts)
  · exact .inr (body.tooDeep groups awaiting starts within (Nat.not_le.1 most))

theorem Phrase.readsTo {scope : Option SensorId} {tokens : List Token} {expr : Expr}
    (phrase : Phrase scope tokens expr) {groups : List OpenGroup}
    (inherited : (⟨groups, .subject⟩ : Parser).scope = scope) :
    ReadsTo tokens ⟨groups, .subject⟩ ⟨groups, .follower expr⟩ := by
  by_cases most : groups.length + expr.height ≤ depthLimit
  · exact .inl (readAll_written (phrase.written most) groups rfl inherited)
  · exact .inr (phrase.tooDeep groups inherited (Nat.not_le.1 most))

/-- After an end marker all is read. -/
theorem ReadsTo.finish {tokens rest : List Token} {marker : Token} {expr : Expr} {start : Parser}
    (reads : ReadsTo tokens start ⟨[], .follower expr⟩) (markerKind : marker.kind = .finish) :
    ReadsTo (tokens ++ marker :: rest) start ⟨[], .nothing expr⟩ :=
  reads.append (.inl (readAll_finish (readAll_nil _) markerKind))

/-- No error but that of the depth comes of what begins a sentence. -/
theorem Viable.position {tokens : List Token} (viable : Viable none tokens) {error : Error}
    (failed : readAll tokens Parser.start = .error error) :
    ∃ position, error = .malformed position .tooDeep := by
  obtain ⟨more, expr, prior, marker, rest, split, markerKind, phrase⟩ := viable
  have reads : ReadsTo (tokens ++ more) Parser.start ⟨[], .nothing expr⟩ :=
    split ▸ (phrase.readsTo rfl).finish markerKind
  exact reads.position failed

end Tripwire.Expr
