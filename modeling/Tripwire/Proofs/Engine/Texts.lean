import Tripwire.Proofs.Engine.Printing

/-!
# Nodes and their texts

The text of a node below the roots is read as the node's formula, but for the signs of literals that
are no number. Two such nodes therefore have one text only if their formulas differ in these signs
alone, and otherwise a text is that of one node.
-/

namespace Tripwire

namespace Graph

/-- The formula that the text of a node is read as. -/
def written? (graph : Graph) (id : NodeId) : Option Formula :=
  (graph.formula? id).map Formula.asWritten

theorem print_of_formula? {graph : Graph} {id : NodeId} {formula : Formula}
    (found : graph.formula? id = some formula) : graph.print id = formula.print := by
  rw [print, found]

end Graph

namespace Engine

variable {engine : Engine} {log : List Registration}

/-- A node below the roots stands for a formula that can be told from its text. -/
theorem Sound.exists_legible (sound : engine.Sound log) {id : NodeId}
    (within : id < engine.graph.size) (inner : engine.graph.root? id = none) :
    ∃ formula, engine.graph.formula? id = some formula ∧ formula.Legible engine.sensors 0 := by
  obtain ⟨_, _, whole, carried, part, isPart, stands⟩ := sound.needed within inner
  obtain ⟨formula, found, same⟩ := Option.map_eq_some_iff.1 stands.form
  obtain ⟨depth, legible⟩ := (legible_of_check carried.checked).exists_part isPart
  exact ⟨formula, found, (legible.of_canonical_eq same).mono (Nat.zero_le depth)⟩

/-- Nodes below the roots that stand for one formula are the same. -/
theorem Sound.eq_of_formula? (sound : engine.Sound log) {first second : NodeId} {formula : Formula}
    (inner : engine.graph.root? first = none) (alsoInner : engine.graph.root? second = none)
    (found : engine.graph.formula? first = some formula)
    (alsoFound : engine.graph.formula? second = some formula) : first = second := by
  have form : engine.graph.form? first = some formula.canonical := by
    rw [Graph.form?, found, Option.map_some]
  have alsoForm : engine.graph.form? second = some formula.canonical := by
    rw [Graph.form?, alsoFound, Option.map_some]
  exact sound.network.distinct.eq_of_form? sound.network.linked inner alsoInner form alsoForm

/-- The texts of two nodes below the roots differ exactly if their formulas differ in more than signs
that are lost, and so they do if no literal of the two loses its sign. -/
theorem Reachable.print_ne_iff (reached : Reachable engine) {first second : NodeId}
    (within : first < engine.graph.size) (inner : engine.graph.root? first = none)
    (alsoWithin : second < engine.graph.size) (alsoInner : engine.graph.root? second = none)
    (apart : first ≠ second) :
    (engine.graph.print first ≠ engine.graph.print second ↔
        engine.graph.written? first ≠ engine.graph.written? second) ∧
      ((∀ formula ∈ engine.graph.formula? first, formula.Signed) →
        (∀ formula ∈ engine.graph.formula? second, formula.Signed) →
          engine.graph.print first ≠ engine.graph.print second) := by
  obtain ⟨log, recorded⟩ := reached.recorded
  have sound := recorded.sound
  obtain ⟨formula, found, legible⟩ := sound.exists_legible within inner
  obtain ⟨other, alsoFound, alsoLegible⟩ := sound.exists_legible alsoWithin alsoInner
  have texts : engine.graph.print first = engine.graph.print second ↔
      engine.graph.written? first = engine.graph.written? second := by
    rw [Graph.print_of_formula? found, Graph.print_of_formula? alsoFound, Graph.written?,
      Graph.written?, found, alsoFound, Option.map_some, Option.map_some, Option.some.injEq]
    exact legible.print_eq_iff alsoLegible
  refine ⟨not_congr texts, fun signed alsoSigned same => apart ?_⟩
  have written := texts.1 same
  rw [Graph.written?, Graph.written?, found, alsoFound, Option.map_some, Option.map_some,
    Option.some.injEq, Formula.asWritten_of_signed (signed formula found),
    Formula.asWritten_of_signed (alsoSigned other alsoFound)] at written
  exact sound.eq_of_formula? inner alsoInner found (written ▸ alsoFound)

/-- Zeros of both signs, and a text that looks like a number. -/
def lookalikes : List Request :=
  [.addSensor 4 none [("f", .float), ("m", .text)],
    .register ⟨none, none, "[4]&(=(f,0),=(f,-0),=(m,0),=(m,'-0'))", []⟩]

theorem print_ne_lookalikes :
    (Reachable (empty.handleAll lookalikes) ∧ 0 < (empty.handleAll lookalikes).graph.size ∧
      (empty.handleAll lookalikes).graph.root? 0 = none ∧
      1 < (empty.handleAll lookalikes).graph.size ∧
      (empty.handleAll lookalikes).graph.root? 1 = none) ∧
      (empty.handleAll lookalikes).graph.print 0 ≠ (empty.handleAll lookalikes).graph.print 1 := by
  have reached : Reachable (empty.handleAll lookalikes) := Reachable.empty.handleAll lookalikes
  have within : 0 < (empty.handleAll lookalikes).graph.size := by decide +kernel
  have alsoWithin : 1 < (empty.handleAll lookalikes).graph.size := by decide +kernel
  have inner : (empty.handleAll lookalikes).graph.root? 0 = none := by decide +kernel
  have alsoInner : (empty.handleAll lookalikes).graph.root? 1 = none := by decide +kernel
  refine ⟨⟨reached, within, inner, alsoWithin, alsoInner⟩, ?_⟩
  have told := reached.print_ne_iff within inner alsoWithin alsoInner (by decide)
  exact told.2 (by decide +kernel) (by decide +kernel)

/-- Two patterns that are no number, of either sign. -/
def nans : List Request :=
  [.addSensor 1 none [("t", .double)],
    .register ⟨none, none, "[1]=(t,NaN)", []⟩,
    .register ⟨none, none, "[1]=(t,-NaN)", []⟩]

/-- The sign of what is no number is not written, so that its two tests have one text. -/
theorem print_eq_of_nans :
    Reachable (empty.handleAll nans) ∧
      (0 < (empty.handleAll nans).graph.size ∧ (empty.handleAll nans).graph.root? 0 = none) ∧
      (2 < (empty.handleAll nans).graph.size ∧ (empty.handleAll nans).graph.root? 2 = none) ∧
      (empty.handleAll nans).graph.print 0 = (empty.handleAll nans).graph.print 2 ∧
      (empty.handleAll nans).graph.print 2 = "[1]=(t,NaN)" := by
  refine ⟨Reachable.empty.handleAll nans, ?_, ?_, ?_, ?_⟩
  all_goals decide +kernel

end Engine

end Tripwire
