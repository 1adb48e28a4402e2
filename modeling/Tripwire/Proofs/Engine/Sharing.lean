import Tripwire.Proofs.Engine.Runs
import Tripwire.Proofs.Network.Indexing

/-!
# Sharing among conditions

Conditions share a node exactly for what has one canonical form in them. The nodes below the
roots are therefore as many as the canonical forms of all that the conditions are made of. An index
with one entry for each of them finds what a search through all nodes does.
-/

namespace Tripwire

namespace Engine

variable {engine : Engine} {log : List Registration}

/-- A condition on record has a root, and its text a formula, for which the root's child
stands. -/
theorem Sound.stands (sound : engine.Sound log) {registration : Registration}
    (member : registration ∈ log) {root : Root} {formula : Formula}
    (found : engine.root? registration.condition = some root)
    (checked : engine.check registration.entry.expression = .ok formula) :
    engine.graph.Stands root.child formula := by
  obtain ⟨known, carried⟩ := sound.carried registration member
  obtain ⟨child, there, stands⟩ := carried.root
  have formulas := carried.checked
  rw [checked, Except.ok.injEq] at formulas
  rw [found, Option.some.injEq] at there
  rw [there, formulas]
  exact stands

/-- The canonical forms of all that the conditions on record are made of. -/
def HasForm (engine : Engine) (log : List Registration) (form : Formula) : Prop :=
  ∃ registration ∈ log, ∃ formula part,
    engine.check registration.entry.expression = .ok formula ∧ part ∈ formula.parts ∧
      part.canonical = form

theorem Sound.mem_forms_iff (sound : engine.Sound log) (form : Formula) :
    form ∈ engine.graph.forms ↔ engine.HasForm log form := by
  rw [Graph.mem_forms]
  constructor
  · rintro ⟨id, inner, found⟩
    obtain ⟨registration, member, formula, carried, part, isPart, stands⟩ :=
      sound.needed (Graph.lt_size_of_form? found) inner
    refine ⟨registration, member, formula, part, carried.checked, isPart, ?_⟩
    rw [stands.form, Option.some.injEq] at found
    exact found
  · rintro ⟨registration, member, formula, part, checked, isPart, rfl⟩
    obtain ⟨known, carried⟩ := sound.carried registration member
    obtain ⟨child, there, _⟩ := carried.root
    obtain ⟨id, _, stands⟩ :=
      (sound.stands member there checked).exists_part sound.network.linked isPart
    exact ⟨id, stands.inner, stands.form⟩

/-- The roots are those of the conditions on record. -/
theorem Sound.conditions_perm (sound : engine.Sound log) :
    engine.graph.conditions.Perm (log.map Registration.condition) := by
  have unique : ∀ {id other root top}, engine.graph.root? id = some root →
      engine.graph.root? other = some top → root.condition = top.condition → id = other := by
    intro id other root top found also same
    have here := sound.rooted.2 ⟨root, found, rfl⟩
    have there := sound.rooted.2 ⟨top, also, rfl⟩
    rw [same, there, Option.some.injEq] at here
    exact here.symm
  rw [List.perm_ext_iff_of_nodup (Graph.conditions_nodup unique) sound.once]
  intro condition
  rw [Graph.mem_conditions, List.mem_map, ← sound.registered, contains_iff]
  exact exists_congr fun id => sound.rooted.symm

/-- One node for each canonical form, one root for each condition, and no other nodes. -/
structure Sharing (engine : Engine) (log : List Registration) : Prop where
  once : (log.map Registration.condition).Nodup
  registered : ∀ {condition}, engine.roots.contains condition = true ↔
    ∃ registration ∈ log, registration.condition = condition
  resolved : ∀ registration ∈ log, ∃ root formula,
    engine.root? registration.condition = some root ∧
      engine.check registration.entry.expression = .ok formula
  child : ∀ {first second root top formula other}, first ∈ log → second ∈ log →
    engine.root? first.condition = some root → engine.root? second.condition = some top →
      engine.check first.entry.expression = .ok formula →
        engine.check second.entry.expression = .ok other →
          (root.child = top.child ↔ formula.canonical = other.canonical)
  shared : ∃ forms : List Formula, forms.Nodup ∧ forms.length = engine.graph.sharedSize ∧
    ∀ form, form ∈ forms ↔ engine.HasForm log form
  size : engine.graph.size = engine.graph.sharedSize + log.length

/-- Whatever was asked of an engine, its conditions share exactly what they have in common. -/
theorem Recorded.sharing (recorded : Recorded engine log) : engine.Sharing log := by
  have sound := recorded.sound
  have linked := sound.network.linked
  have distinct := sound.network.distinct
  constructor
  case once => exact sound.once
  case registered => exact sound.registered
  case resolved =>
    intro registration member
    obtain ⟨formula, carried⟩ := sound.carried registration member
    obtain ⟨child, found, _⟩ := carried.root
    exact ⟨registration.root child, formula, found, carried.checked⟩
  case child =>
    intro first second root top formula other isFirst isSecond found also checked alsoChecked
    have stands := sound.stands isFirst found checked
    have alsoStands := sound.stands isSecond also alsoChecked
    constructor
    · intro same
      have forms := alsoStands.form
      rw [← same, stands.form, Option.some.injEq] at forms
      exact forms
    · intro same
      exact distinct.eq_of_form? linked stands.inner alsoStands.inner stands.form
        (same ▸ alsoStands.form)
  case shared =>
    exact ⟨engine.graph.forms, Graph.forms_nodup distinct linked, Graph.length_forms linked,
      sound.mem_forms_iff⟩
  case size =>
    rw [engine.graph.size_eq, sound.conditions_perm.length_eq, List.length_map]

theorem sharing_samples :
    (empty.handleAll samples).Sharing (empty.registrations samples) ∧
      (empty.handleAll samples).graph.sharedSize = 4 ∧
        (empty.handleAll samples).graph.size = 7 :=
  ⟨Recorded.sharing (recorded_handleAll samples), by decide +kernel, by decide +kernel⟩

/-! ## The index -/

/-- Searches for nodes may be look-ups in the index of the graph, which has as many entries as there
are nodes that conditions share. Registering a condition by it adds the same nodes and leaves the
index of the larger graph. -/
structure Indexing [Hashable Signature] (engine : Engine) : Prop where
  test : ∀ predicate,
    engine.graph.findTest? predicate = engine.graph.index[Signature.test predicate]?
  group : ∀ junction (children : List NodeId),
    engine.graph.findGroup? junction children =
      engine.graph.index[Signature.group junction children]?
  size : engine.graph.sharedSize = engine.graph.index.size
  intern : ∀ formula,
    Catalog.Follows (Catalog.intern ⟨engine.toNetwork, engine.graph.index⟩ formula)
      (engine.toNetwork.wire formula)
  enroll : ∀ id entry formula,
    (engine.enroll id entry formula).graph.Indexed
      (Catalog.intern ⟨engine.toNetwork, engine.graph.index⟩ formula).1.index

/-- Whatever was asked of an engine, the index of its graph does what the searches do. -/
theorem Reachable.indexing [Hashable Signature] (reached : Reachable engine) :
    engine.Indexing := by
  obtain ⟨log, recorded⟩ := reached.recorded
  have indexed : engine.graph.Indexed engine.graph.index :=
    recorded.sound.network.distinct.indexed
  have follows (formula : Formula) :
      Catalog.Follows (Catalog.intern ⟨engine.toNetwork, engine.graph.index⟩ formula)
        (engine.toNetwork.wire formula) :=
    Catalog.follows_intern formula indexed
  constructor
  case test => exact indexed.findTest?_eq
  case group => exact indexed.findGroup?_eq
  case size => exact indexed.size_eq.symm
  case intern => exact follows
  case enroll =>
    intro id entry formula
    have kept := (follows formula).indexed
    rw [(follows formula).network] at kept
    exact kept.addRoot _

end Engine

end Tripwire
