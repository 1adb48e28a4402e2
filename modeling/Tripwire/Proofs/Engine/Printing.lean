import Tripwire.Proofs.Engine.Runs
import Tripwire.Proofs.Formula.Printing
import Tripwire.Proofs.Graph.Counting
import Tripwire.Proofs.Network.Rewiring

/-!
# Conditions registered by their own text

The canonical text of a registered condition is accepted again, as the very formula that the
condition stands for: registering it adds one root above the condition's own child and leaves all
else as it was. The only texts that are lost are those of literals that are no number and negative.
-/

namespace Tripwire

namespace Engine

variable {engine : Engine} {log : List Registration}

/-- The formula that a registered condition stands for. -/
def formula? (engine : Engine) (condition : ConditionId) : Option Formula :=
  (engine.roots.get? condition).bind engine.graph.formula?

theorem print?_of_formula? {condition : ConditionId} {formula : Formula}
    (known : engine.formula? condition = some formula) :
    engine.print? condition = some formula.print := by
  obtain ⟨id, rooted, found⟩ := Option.bind_eq_some_iff.1 known
  rw [print?, rooted, Option.map_some, Graph.print, found]

/-! ## The text is accepted -/

/-- A condition on record stands for a formula that differs from its own in the order of members
only. -/
theorem Sound.formula?_of_carries (sound : engine.Sound log) {registration : Registration}
    {formula : Formula} (carries : engine.Carries registration formula) :
    ∃ child known, engine.root? registration.condition = some (registration.root child) ∧
      engine.graph.Stands child known ∧ engine.formula? registration.condition = some known ∧
        known.canonical = formula.canonical := by
  obtain ⟨child, found, stands⟩ := carries.root
  obtain ⟨known, here, same⟩ := Option.map_eq_some_iff.1 stands.form
  obtain ⟨id, rooted, top⟩ := root?_eq_some.1 found
  refine ⟨child, known, found, ⟨stands.inner, by rw [stands.form, same]⟩, ?_, same⟩
  rw [formula?, rooted, Option.bind_some, Graph.formula?_of_root sound.network.linked top]
  exact here

theorem legible_of_check {expression : String} {formula : Formula}
    (checked : engine.check expression = .ok formula) : formula.Legible engine.sensors 0 := by
  obtain ⟨expr, parsed, tests⟩ := check_eq_ok.1 checked
  exact Formula.legible_of_parse parsed tests

/-- The text of a formula that is on record but for the order of members is the formula, but for
signs that are lost. -/
theorem check_print {expression : String} {formula known : Formula}
    (checked : engine.check expression = .ok formula) (same : known.canonical = formula.canonical) :
    engine.check known.print = .ok known.asWritten :=
  check_eq_ok.2 ((legible_of_check checked).of_canonical_eq same).parse_print

/-! ## A root is added -/

/-- What registering a condition adds if its formula has a node: one root above that node. -/
structure Crowned (before : Engine) (child : NodeId) (crown : Registration) (after : Engine) :
    Prop where
  register : before.register crown.entry = .ok (after, crown.condition)
  sensors : after.sensors = before.sensors
  graph : after.graph = before.graph.mount (.root (crown.root child)) (before.graph.status child)
  top : after.roots.get? crown.condition = some before.graph.size

theorem Sound.crowned (sound : engine.Sound log) {crown : Registration} {formula : Formula}
    (named : crown.condition = crown.entry.id.getD engine.nextId)
    (fresh : engine.roots.contains crown.condition = false)
    (checked : engine.check crown.entry.expression = .ok formula) {child : NodeId}
    (stands : engine.graph.Stands child formula) : ∃ after, engine.Crowned child crown after := by
  refine ⟨_, register_eq_ok.2 ⟨named, fresh, formula, checked, rfl⟩, ?_, ?_, ?_⟩
  · simp only [enroll, sound.network.wire_of_stands stands]
  · simp only [enroll, sound.network.wire_of_stands stands]
    rfl
  · simp only [enroll, sound.network.wire_of_stands stands]
    rw [Table.get?_insert, if_pos rfl]
    rfl

/-- A registration of a condition's text adds a root above the condition's child, which stands as
the condition does and has its text. Other nodes are as they were, but for the child's new parent,
and so are the sensors with the watchers of their fields. -/
structure Mirrors (before : Engine) (condition : ConditionId) (child : NodeId)
    (mirror : Registration) (after : Engine) : Prop where
  register : before.register mirror.entry = .ok (after, mirror.condition)
  root : after.root? mirror.condition = some (mirror.root child)
  top : after.roots.get? mirror.condition = some before.graph.size
  size : after.graph.size = before.graph.size + 1
  sharedSize : after.graph.sharedSize = before.graph.sharedSize
  sensors : after.sensors = before.sensors
  node : ∀ id < before.graph.size, after.graph.node? id = (before.graph.node? id).map fun node =>
    if id = child then { node with parents := node.parents ++ [before.graph.size] } else node
  isSatisfied : after.isSatisfied mirror.condition = before.isSatisfied condition
  print : after.print? mirror.condition = before.print? condition

theorem Sound.mirrors {after : Engine} (sound : engine.Sound log) {condition : ConditionId}
    {root : Root} (found : engine.root? condition = some root) {mirror : Registration}
    (crowned : engine.Crowned root.child mirror after) :
    engine.Mirrors condition root.child mirror after := by
  obtain ⟨id, rooted, isRoot⟩ := root?_eq_some.1 found
  have isChild := Graph.child_mem_of_root? isRoot
  have within : (mirror.root root.child).child < engine.graph.size :=
    sound.network.linked.lt_size isChild
  have below : ∀ child ∈ Node.children
      ⟨.root (mirror.root root.child), engine.graph.status root.child, []⟩,
      child < engine.graph.size := List.forall_mem_singleton.2 within
  have extended := sound.register crowned.register
  have grows : engine.graph.Grows after.graph := by
    rw [crowned.graph]
    exact Graph.grows_mount below
  have top : after.graph.root? engine.graph.size = some (mirror.root root.child) := by
    rw [crowned.graph, Graph.root?_mount below, if_pos rfl]
    rfl
  have again := root?_eq_some.2 ⟨_, crowned.top, top⟩
  constructor
  case register => exact crowned.register
  case root => exact again
  case top => exact crowned.top
  case size => rw [crowned.graph, Graph.size_mount]
  case sharedSize => rw [crowned.graph, Graph.sharedSize_mount_root within]
  case sensors => exact crowned.sensors
  case node =>
    intro other earlier
    rw [crowned.graph]
    exact Graph.node?_mount_root within earlier
  case isSatisfied =>
    rw [extended.isSatisfied_eq_status again, sound.isSatisfied_eq_status found]
    exact grows.status_eq within
  case print =>
    have same : after.graph.formula? engine.graph.size = engine.graph.formula? id := by
      rw [Graph.formula?_of_root extended.network.linked top,
        Graph.formula?_of_root sound.network.linked isRoot]
      exact grows.formula?_eq sound.network.linked extended.network.linked within
    rw [print?, print?, crowned.top, rooted, Option.map_some, Option.map_some, Graph.print,
      Graph.print, same]

/-- A registered condition none of whose literals is lost can be registered again by its text. -/
theorem Reachable.mirrored (reached : Reachable engine) {condition : ConditionId}
    (registered : engine.roots.contains condition = true)
    (signed : ∀ formula ∈ engine.formula? condition, formula.Signed) :
    ∃ root text, engine.root? condition = some root ∧ engine.print? condition = some text ∧
      ∀ mirror : Registration, mirror.entry.expression = text →
        mirror.condition = mirror.entry.id.getD engine.nextId →
        engine.roots.contains mirror.condition = false →
        ∃ after, engine.Mirrors condition root.child mirror after := by
  obtain ⟨log, recorded⟩ := reached.recorded
  have sound := recorded.sound
  obtain ⟨registration, member, rfl⟩ := sound.registered.1 registered
  obtain ⟨formula, carries⟩ := sound.carried registration member
  obtain ⟨child, known, found, stands, known?, same⟩ := sound.formula?_of_carries carries
  refine ⟨registration.root child, known.print, found, print?_of_formula? known?, ?_⟩
  intro mirror told named fresh
  have checked : engine.check mirror.entry.expression = .ok known := by
    rw [told, check_print carries.checked same,
      Formula.asWritten_of_signed (signed known known?)]
  obtain ⟨after, crowned⟩ := sound.crowned named fresh checked stands
  exact ⟨after, sound.mirrors found crowned⟩

/-- A condition with a literal that needs quotes and one with a digit too many. -/
def quoting : List Request :=
  [.addSensor 4 none [("m", .text), ("f", .float)],
    .register ⟨none, none, "[4]|(&(=(m,\"it's\"),>(f,0.10)),=(m,'it\\'s'))", []⟩,
    .update 4 "m" (.text "it's")]

theorem mirrored_quoting :
    (Reachable (empty.handleAll quoting) ∧
      (empty.handleAll quoting).roots.contains 0 = true ∧
      ∀ formula ∈ (empty.handleAll quoting).formula? 0, formula.Signed) ∧
      ∃ root after, (empty.handleAll quoting).root? 0 = some root ∧
        (empty.handleAll quoting).Mirrors 0 root.child
          ⟨7, some 7, none, "|(&([4]=(m,'it\\'s'),[4]>(f,0.1)),[4]=(m,'it\\'s'))", []⟩ after := by
  have reached : Reachable (empty.handleAll quoting) := Reachable.empty.handleAll quoting
  have registered : (empty.handleAll quoting).roots.contains 0 = true := by decide +kernel
  have signed : ∀ formula ∈ (empty.handleAll quoting).formula? 0, formula.Signed := by
    decide +kernel
  obtain ⟨root, text, found, told, mirrored⟩ := reached.mirrored registered signed
  refine ⟨⟨reached, registered, signed⟩, root, ?_⟩
  have spelled : (empty.handleAll quoting).print? 0 =
      some "|(&([4]=(m,'it\\'s'),[4]>(f,0.1)),[4]=(m,'it\\'s'))" := by decide +kernel
  rw [told, Option.some.injEq] at spelled
  obtain ⟨after, mirrors⟩ := mirrored ⟨7, some 7, none, _, []⟩ spelled.symm rfl (by decide +kernel)
  exact ⟨after, found, mirrors⟩

end Engine

end Tripwire
