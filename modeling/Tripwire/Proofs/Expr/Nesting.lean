import Tripwire.Expr.Visit
import Tripwire.Proofs.Expr.Acceptance
import Tripwire.Proofs.Formula.Checking
import Tripwire.Proofs.Token.Slicing

/-!
# Spans nest as expressions do

Every part of an expression is written by tokens that stand together, and its span reaches from the
first of them to the last. So members stand apart between the parentheses of their group, and the
leaves are in the order of their spans.
-/

namespace Tripwire

namespace Span

/-- A span is within another and reaches neither of its ends. -/
structure Within (inner outer : Span) : Prop where
  start : outer.start < inner.start
  nonempty : inner.start < inner.stop
  stop : inner.stop < outer.stop

/-- A span ends before another begins. -/
structure Before (first second : Span) : Prop where
  nonempty : first.start < first.stop
  apart : first.stop < second.start

end Span

/-! ## Spans of tokens -/

namespace Token

/-- The tokens take some characters each and stand in their order. -/
structure Apart (tokens : List Token) : Prop where
  nonempty : ∀ token ∈ tokens, token.span.start < token.span.stop
  ordered : tokens.Pairwise fun first second => first.span.stop ≤ second.span.start

/-- The span reaches from the beginning of one of the tokens to the end of one. -/
structure Spans (tokens : List Token) (span : Span) : Prop where
  start : ∃ token ∈ tokens, span.start = token.span.start
  nonempty : span.start < span.stop
  stop : ∃ token ∈ tokens, span.stop = token.span.stop

variable {tokens others : List Token} {span other : Span}

theorem Tiles.apart {offset : Nat} {letters : List Char} (tiles : Tiles offset letters others)
    (among : tokens.Sublist others) (kinds : ∀ token ∈ tokens, token.kind ≠ .finish) :
    Apart tokens where
  nonempty token member := tiles.start_lt_stop token (among.subset member) (kinds token member)
  ordered := tiles.ordered.sublist among

theorem Apart.sublist (apart : Apart others) (among : tokens.Sublist others) : Apart tokens where
  nonempty token member := apart.nonempty token (among.subset member)
  ordered := apart.ordered.sublist among

theorem Spans.mono (spans : Spans tokens span) (among : tokens ⊆ others) : Spans others span where
  start := spans.start.imp fun _ found => ⟨among found.1, found.2⟩
  nonempty := spans.nonempty
  stop := spans.stop.imp fun _ found => ⟨among found.1, found.2⟩

theorem Apart.spans_of_mem (apart : Apart tokens) {token : Token} (member : token ∈ tokens) :
    Spans tokens token.span where
  start := ⟨token, member, rfl⟩
  nonempty := apart.nonempty token member
  stop := ⟨token, member, rfl⟩

theorem Apart.spans_ends {first last : Token} {middle : List Token}
    (apart : Apart (first :: (middle ++ [last]))) :
    Spans (first :: (middle ++ [last])) ⟨first.span.start, last.span.stop⟩ where
  start := ⟨first, List.mem_cons_self, rfl⟩
  nonempty := by
    have before := (List.pairwise_cons.1 apart.ordered).1 last (by simp)
    have starts := apart.nonempty first (by simp)
    have stops := apart.nonempty last (by simp)
    change first.span.start < last.span.stop
    omega
  stop := ⟨last, by simp, rfl⟩

/-- What is between two tokens is within the span from the one to the other. -/
theorem Apart.within {first last : Token} {middle : List Token}
    (apart : Apart (first :: (middle ++ [last]))) (spans : Spans middle span) :
    span.Within ⟨first.span.start, last.span.stop⟩ where
  start := by
    obtain ⟨token, member, same⟩ := spans.start
    have before := (List.pairwise_cons.1 apart.ordered).1 token (by simp [member])
    have starts := apart.nonempty first (by simp)
    change first.span.start < span.start
    omega
  nonempty := spans.nonempty
  stop := by
    obtain ⟨token, member, same⟩ := spans.stop
    have inside := (List.pairwise_cons.1 apart.ordered).2
    have before := (List.pairwise_append.1 inside).2.2 token member last (by simp)
    have stops := apart.nonempty last (by simp)
    change span.stop < last.span.stop
    omega

/-- What is on the two sides of a token stands apart. -/
theorem Apart.before {middle : Token} (apart : Apart (tokens ++ middle :: others))
    (spans : Spans tokens span) (beyond : Spans others other) : span.Before other where
  nonempty := spans.nonempty
  apart := by
    obtain ⟨last, isLast, stops⟩ := spans.stop
    obtain ⟨first, isFirst, starts⟩ := beyond.start
    obtain ⟨_, inside, across⟩ := List.pairwise_append.1 apart.ordered
    have before := across last isLast middle List.mem_cons_self
    have after := (List.pairwise_cons.1 inside).1 first isFirst
    have some := apart.nonempty middle (by simp)
    omega

end Token

namespace Expr

open Token

/-! ## Parts of expressions -/

/-- An expression that occurs in another, if it is not the same. -/
inductive Part (part : Expr) : Expr → Prop where
  | whole : Part part part
  | member {junction : Junction} {members : List Expr} {span : Span} {member : Expr}
      (among : member ∈ members) (inside : Part part member) :
      Part part (.group junction members span)

theorem mem_tests_iff {leaf : WrittenTest} {expr : Expr} :
    leaf ∈ expr.tests ↔ Part (.test leaf) expr := by
  constructor
  · intro member
    induction expr using Expr.induction with
    | test other =>
        rw [List.mem_singleton.1 member]
        exact .whole
    | group junction members span ih =>
        rw [tests, testsOfMembers_eq_flatMap, List.mem_flatMap] at member
        obtain ⟨inner, among, inside⟩ := member
        exact .member among (ih inner among inside)
  · intro part
    induction part with
    | whole => exact List.mem_singleton_self leaf
    | member among inside ih =>
        rw [tests, testsOfMembers_eq_flatMap]
        exact List.mem_flatMap_of_mem among ih

/-- The spans of members are within that of their group, one after the other. -/
structure Nested (expr : Expr) : Prop where
  test : ∀ {leaf}, Part (.test leaf) expr → leaf.span.start < leaf.span.stop
  within : ∀ {junction members span}, Part (.group junction members span) expr →
    ∀ member ∈ members, member.span.Within span
  ordered : ∀ {junction members span}, Part (.group junction members span) expr →
    members.Pairwise fun first second => first.span.Before second.span

namespace Nested

variable {expr : Expr}

theorem of_member {junction : Junction} {members : List Expr} {span : Span}
    (nested : (group junction members span).Nested) {member : Expr} (among : member ∈ members) :
    member.Nested where
  test part := nested.test (.member among part)
  within part := nested.within (.member among part)
  ordered part := nested.ordered (.member among part)

/-- No leaf reaches out of the expression. -/
theorem tests_within (nested : expr.Nested) :
    ∀ leaf ∈ expr.tests, expr.span.start ≤ leaf.span.start ∧ leaf.span.stop ≤ expr.span.stop := by
  induction expr using Expr.induction with
  | test leaf => exact List.forall_mem_singleton.2 ⟨Nat.le_refl _, Nat.le_refl _⟩
  | group junction members span ih =>
      intro leaf isLeaf
      rw [tests, testsOfMembers_eq_flatMap, List.mem_flatMap] at isLeaf
      obtain ⟨member, among, inside⟩ := isLeaf
      have bounds := ih member among (nested.of_member among) leaf inside
      have within := nested.within .whole member among
      exact ⟨Nat.le_trans (Nat.le_of_lt within.start) bounds.1,
        Nat.le_trans bounds.2 (Nat.le_of_lt within.stop)⟩

/-- The leaves stand in their order. -/
theorem tests_ordered (nested : expr.Nested) :
    expr.tests.Pairwise fun first second => first.span.Before second.span := by
  induction expr using Expr.induction with
  | test leaf => exact List.pairwise_singleton _ _
  | group junction members span ih =>
      rw [tests, testsOfMembers_eq_flatMap, List.pairwise_flatMap]
      refine ⟨fun member among => ih member among (nested.of_member among), ?_⟩
      refine (nested.ordered .whole).imp_of_mem fun {first second} isFirst isSecond before => ?_
      intro leaf inFirst other inSecond
      have some := nested.test (.member isFirst (mem_tests_iff.1 inFirst))
      have stops := ((nested.of_member isFirst).tests_within leaf inFirst).2
      have starts := ((nested.of_member isSecond).tests_within other inSecond).1
      exact ⟨some, Nat.lt_of_le_of_lt stops (Nat.lt_of_lt_of_le before.apart starts)⟩

end Nested

/-! ## What writes a part -/

variable {depth : Nat} {scope : Option SensorId} {tokens : List Token} {expr : Expr}
  {members : List Expr}

theorem Written.exists_body (written : Written depth scope tokens expr) :
    ∃ inner own, own <:+: tokens ∧ WrittenBody depth inner own expr := by
  cases written with
  | plain within body => exact ⟨_, _, List.infix_rfl, body⟩
  | withScope within scope body => exact ⟨_, _, (List.suffix_append _ _).isInfix, body⟩

theorem WrittenMembers.exists_member (written : WrittenMembers depth scope tokens members) :
    ∀ member ∈ members, ∃ inner own, own <:+: tokens ∧ WrittenBody depth inner own member := by
  induction members generalizing tokens with
  | nil => exact nofun
  | cons first rest ih =>
      cases written with
      | one member => exact List.forall_mem_singleton.2 member.exists_body
      | @more _ _ tokens later comma _ _ member commaKind others =>
          refine List.forall_mem_cons.2 ⟨?_, fun other among => ?_⟩
          · obtain ⟨inner, own, inside, body⟩ := member.exists_body
            exact ⟨inner, own, inside.trans (List.prefix_append _ _).isInfix, body⟩
          · obtain ⟨inner, own, inside, body⟩ := ih others other among
            have after : later <:+: tokens ++ comma :: later :=
              ((List.suffix_cons _ _).trans (List.suffix_append _ _)).isInfix
            exact ⟨inner, own, inside.trans after, body⟩

/-- Every part is written by tokens that stand together. -/
theorem WrittenBody.exists_part {part : Expr} (occurs : Part part expr)
    (written : WrittenBody depth scope tokens expr) :
    ∃ deeper inner own, own <:+: tokens ∧ WrittenBody deeper inner own part := by
  -- A part may be under a scope of its own, which is not among the tokens that write it.
  induction occurs generalizing depth scope tokens with
  | whole => exact ⟨depth, scope, tokens, List.infix_rfl, written⟩
  | member among inside ih =>
      cases written with
      | @group _ _ _ head opening closing tokens _ _ _ members _ =>
          obtain ⟨inner, own, contained, body⟩ := members.exists_member _ among
          obtain ⟨deeper, innermost, least, within, found⟩ := ih body
          have between : tokens <:+: head :: opening :: (tokens ++ [closing]) :=
            ⟨[head, opening], [closing], rfl⟩
          exact ⟨deeper, innermost, least, within.trans (contained.trans between), found⟩

/-- The span of a group or a test is that of its tokens. -/
theorem WrittenBody.spans (written : WrittenBody depth scope tokens expr) (apart : Apart tokens) :
    Spans tokens expr.span := by
  cases written with
  | @test _ _ _ head opening field comma literal closing =>
      have ends : Apart (head :: ([opening, field, comma, literal] ++ [closing])) := apart
      exact ends.spans_ends
  | @group _ _ _ head opening closing tokens members =>
      have ends : Apart (head :: (opening :: tokens ++ [closing])) := apart
      exact ends.spans_ends

theorem WrittenMembers.spans (written : WrittenMembers depth scope tokens members)
    (apart : Apart tokens) : ∀ member ∈ members, Spans tokens member.span := by
  intro member among
  obtain ⟨inner, own, inside, body⟩ := written.exists_member member among
  exact (body.spans (apart.sublist inside.sublist)).mono inside.subset

theorem WrittenMembers.ordered (written : WrittenMembers depth scope tokens members)
    (apart : Apart tokens) :
    members.Pairwise fun first second => first.span.Before second.span := by
  induction members generalizing tokens with
  | nil => exact .nil
  | cons first rest ih =>
      cases written with
      | one member => exact List.pairwise_singleton _ _
      | @more _ _ tokens later comma _ _ member commaKind others =>
          have before : Apart tokens := apart.sublist (List.sublist_append_left _ _)
          have after : Apart later :=
            apart.sublist ((List.sublist_cons_self _ _).trans (List.sublist_append_right _ _))
          have here := (WrittenMembers.one member).spans before first List.mem_cons_self
          exact .cons (fun other among => apart.before here (others.spans after other among))
            (ih others after)

/-- The members of a group stand apart between its parentheses. -/
theorem WrittenBody.members_apart {junction : Junction} {span : Span}
    (written : WrittenBody depth scope tokens (.group junction members span))
    (apart : Apart tokens) :
    (∀ member ∈ members, member.span.Within span) ∧
      members.Pairwise fun first second => first.span.Before second.span := by
  cases written with
  | @group _ _ _ head opening closing inner _ headKind openingKind inside closingKind =>
      have ends : Apart (head :: (opening :: inner ++ [closing])) := apart
      have between : inner <:+: head :: opening :: (inner ++ [closing]) :=
        ⟨[head, opening], [closing], rfl⟩
      have among : Apart inner := apart.sublist between.sublist
      refine ⟨fun member isMember => ?_, inside.ordered among⟩
      exact ends.within ((inside.spans among member isMember).mono (List.subset_cons_self _ _))

/-- The spans of what tokens write nest. -/
theorem WrittenBody.nested (written : WrittenBody depth scope tokens expr) (apart : Apart tokens) :
    expr.Nested where
  test part := by
    obtain ⟨_, _, own, inside, body⟩ := written.exists_part part
    exact (body.spans (apart.sublist inside.sublist)).nonempty
  within part := by
    obtain ⟨_, _, own, inside, body⟩ := written.exists_part part
    exact (body.members_apart (apart.sublist inside.sublist)).1
  ordered part := by
    obtain ⟨_, _, own, inside, body⟩ := written.exists_part part
    exact (body.members_apart (apart.sublist inside.sublist)).2

end Expr

end Tripwire
