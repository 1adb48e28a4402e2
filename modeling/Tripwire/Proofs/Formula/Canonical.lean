import Mathlib.Data.Multiset.Basic
import Tripwire.Formula

/-!
# Canonical forms

The canonical form of a test is the test, and that of a group its junction with the multiset of
the canonical forms of its members: two formulas have the same if they differ in the order of
members only, at any depth.
-/

namespace Tripwire

namespace Formula

/-- What holds of tests, and of groups of whose members it holds, holds of all formulas. -/
theorem induction {motive : Formula → Prop} (test : ∀ predicate, motive (.test predicate))
    (group : ∀ junction members, (∀ member ∈ members, motive member) →
      motive (.group junction members)) (formula : Formula) : motive formula :=
  Formula.rec (motive_2 := fun members => ∀ member ∈ members, motive member) test group
    (fun _ member => nomatch member)
    (fun _ _ first rest _ member => by
      rcases List.mem_cons.1 member with same | inRest
      · exact same ▸ first
      · exact rest _ inRest)
    formula

mutual

/-- A formula in which the members of a group stand in an order that is the same for equal
multisets of canonical forms. -/
noncomputable def canonical : Formula → Formula
  | test predicate => test predicate
  | group junction members =>
      group junction (canonicalMembers members : Multiset Formula).toList

/-- The canonical form of each member. -/
noncomputable def canonicalMembers : List Formula → List Formula
  | [] => []
  | first :: rest => first.canonical :: canonicalMembers rest

end

mutual

/-- A formula and all that it is made of. -/
def parts : Formula → List Formula
  | test predicate => [test predicate]
  | group junction members => group junction members :: partsOfMembers members

/-- The parts of each member. -/
def partsOfMembers : List Formula → List Formula
  | [] => []
  | first :: rest => first.parts ++ partsOfMembers rest

end

theorem canonicalMembers_eq_map (members : List Formula) :
    canonicalMembers members = members.map canonical := by
  induction members with
  | nil => rfl
  | cons first rest ih => rw [canonicalMembers, ih, List.map_cons]

theorem canonical_test (predicate : Predicate) :
    (test predicate).canonical = test predicate := by
  rw [canonical]

/-- Groups have one canonical form if they have one junction and the same canonical forms of
members, each as often. -/
theorem canonical_group_inj {first second : Junction} {members others : List Formula} :
    (group first members).canonical = (group second others).canonical ↔
      first = second ∧ (members.map canonical).Perm (others.map canonical) := by
  rw [canonical, canonical, canonicalMembers_eq_map, canonicalMembers_eq_map,
    Formula.group.injEq, ← Multiset.coe_eq_coe]
  refine and_congr_right fun _ => ⟨fun same => ?_, fun same => congrArg _ same⟩
  rw [← Multiset.coe_toList (members.map canonical : Multiset Formula), same,
    Multiset.coe_toList]

theorem canonical_test_ne_group {predicate : Predicate} {junction : Junction}
    {members : List Formula} :
    (test predicate).canonical ≠ (group junction members).canonical := by
  rw [canonical, canonical]
  exact Formula.noConfusion

/-- The canonical form of a test is that of nothing else. -/
theorem eq_test_of_canonical_eq {formula : Formula} {predicate : Predicate}
    (same : formula.canonical = (test predicate).canonical) : formula = test predicate := by
  cases formula with
  | test known =>
      rw [canonical_test, canonical_test] at same
      exact same
  | group junction members => exact absurd same.symm canonical_test_ne_group

theorem mem_partsOfMembers {part : Formula} {members : List Formula} :
    part ∈ partsOfMembers members ↔ ∃ member ∈ members, part ∈ member.parts := by
  induction members with
  | nil => simp [partsOfMembers]
  | cons first rest ih => simp [partsOfMembers, ih]

theorem mem_parts_self (formula : Formula) : formula ∈ formula.parts := by
  cases formula <;> simp [parts]

/-- The tests of a formula, from left to right. -/
def predicates (formula : Formula) : List Predicate :=
  formula.parts.filterMap fun part =>
    match part with
    | .test predicate => some predicate
    | .group .. => none

theorem mem_predicates {formula : Formula} {predicate : Predicate} :
    predicate ∈ formula.predicates ↔ .test predicate ∈ formula.parts := by
  unfold predicates
  rw [List.mem_filterMap]
  constructor
  · rintro ⟨part, member, same⟩
    cases part with
    | test known =>
        cases same
        exact member
    | group junction members => cases same
  · intro member
    exact ⟨.test predicate, member, rfl⟩

theorem mem_predicates_of_member {junction : Junction} {members : List Formula}
    {member : Formula} (among : member ∈ members) {predicate : Predicate}
    (inside : predicate ∈ member.predicates) : predicate ∈ (group junction members).predicates := by
  rw [mem_predicates, parts]
  exact .tail _ (mem_partsOfMembers.2 ⟨member, among, mem_predicates.1 inside⟩)

/-- Formulas of one canonical form are made of parts of the same forms. -/
theorem exists_part_of_canonical_eq {formula other : Formula}
    (same : formula.canonical = other.canonical) {part : Formula}
    (member : part ∈ formula.parts) :
    ∃ counterpart ∈ other.parts, counterpart.canonical = part.canonical := by
  induction formula using Formula.induction generalizing other with
  | test predicate =>
      rw [parts, List.mem_singleton] at member
      exact ⟨other, other.mem_parts_self, by rw [member, same]⟩
  | group junction members ih =>
      rw [parts, List.mem_cons, mem_partsOfMembers] at member
      rcases member with whole | ⟨inner, isMember, inside⟩
      · exact ⟨other, other.mem_parts_self, by rw [whole, same]⟩
      · cases other with
        | test predicate => exact absurd same.symm canonical_test_ne_group
        | group joined others =>
            obtain ⟨_, forms⟩ := canonical_group_inj.1 same
            have among : inner.canonical ∈ others.map canonical :=
              forms.mem_iff.1 (List.mem_map_of_mem isMember)
            obtain ⟨twin, alsoMember, alike⟩ := List.mem_map.1 among
            obtain ⟨counterpart, found, form⟩ := ih inner isMember alike.symm inside
            refine ⟨counterpart, ?_, form⟩
            rw [parts]
            exact List.mem_cons_of_mem _ (mem_partsOfMembers.2 ⟨twin, alsoMember, found⟩)

end Formula

end Tripwire
