import Tripwire.Proofs.Engine.Deliveries

/-!
# What conditions rest on

Every test of a condition on record has a node, and the condition is satisfied exactly if its
formula holds of how the nodes of its tests stand.
-/

namespace Tripwire

namespace Formula

/-- Whether a formula holds depends on its own tests only. -/
theorem holds_congr {truth other : Predicate → Bool} {formula : Formula}
    (same : ∀ predicate ∈ formula.predicates, truth predicate = other predicate) :
    formula.holds truth = formula.holds other := by
  induction formula using Formula.induction with
  | test predicate =>
      rw [holds, holds]
      exact same predicate (mem_predicates.2 (mem_parts_self _))
  | group junction members ih =>
      rw [holds, holds, statuses_eq_map, statuses_eq_map]
      congr 1
      refine List.map_congr_left fun member isMember => ih member isMember ?_
      exact fun predicate inside => same predicate (mem_predicates_of_member isMember inside)

end Formula

namespace Graph

/-- Below a node that stands for a formula, every test of the formula has a node. -/
theorem Stands.exists_test {graph : Graph} (linked : graph.Linked) {id : NodeId}
    {formula : Formula} (stands : graph.Stands id formula) {predicate : Predicate}
    (member : predicate ∈ formula.predicates) :
    ∃ test, graph.predicate? test = some predicate := by
  obtain ⟨test, _, below⟩ := stands.exists_part linked (Formula.mem_predicates.1 member)
  exact ⟨test, predicate?_of_form? linked below.inner below.form⟩

end Graph

namespace Engine

variable {engine : Engine} {log : List Registration}

/-- How the node of a test stands; a test without a node does not hold. -/
def standing (engine : Engine) (predicate : Predicate) : Bool :=
  (engine.graph.findTest? predicate).any engine.graph.status

theorem Sound.standing_eq (sound : engine.Sound log) {id : NodeId} {predicate : Predicate}
    (found : engine.graph.predicate? id = some predicate) :
    engine.standing predicate = engine.graph.status id := by
  rw [standing, sound.network.distinct.findTest?_eq found, Option.any_some]

/-- A condition on record carries the formula of its text. -/
theorem Sound.carries (sound : engine.Sound log) {registration : Registration}
    (member : registration ∈ log) {formula : Formula}
    (checked : engine.check registration.entry.expression = .ok formula) :
    engine.Carries registration formula := by
  obtain ⟨known, carried⟩ := sound.carried registration member
  have same := carried.checked
  rw [checked, Except.ok.injEq] at same
  exact same ▸ carried

theorem Sound.exists_test (sound : engine.Sound log) {registration : Registration}
    (member : registration ∈ log) {formula : Formula}
    (checked : engine.check registration.entry.expression = .ok formula) {predicate : Predicate}
    (isTest : predicate ∈ formula.predicates) :
    ∃ id, engine.graph.predicate? id = some predicate := by
  obtain ⟨child, _, stands⟩ := (sound.carries member checked).root
  exact stands.exists_test sound.network.linked isTest

/-- A condition is satisfied exactly if its formula holds of how its tests stand. -/
theorem Sound.isSatisfied_eq_standing (sound : engine.Sound log) {registration : Registration}
    (member : registration ∈ log) {formula : Formula}
    (checked : engine.check registration.entry.expression = .ok formula) :
    engine.isSatisfied registration.condition = formula.holds engine.standing :=
  sound.isSatisfied_eq_of_tests (sound.carries member checked) fun test =>
    (sound.standing_eq test).symm

end Engine

end Tripwire
