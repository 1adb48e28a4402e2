import Tripwire.Proofs.Engine.Dormant

/-!
# Loading without what was rejected

A configuration from which the rejected conditions are taken out, while the others carry the ids that
they were given, loads to the same engine but for the id that comes next. Both loads go in lock step:
what is rejected leaves the engine as it was, and what is registered needs of it all but that id.
-/

namespace Tripwire

/-- A condition that was registered, with the id that it was given. -/
def Verdict.kept? (verdict : Verdict) : Option ConditionEntry :=
  verdict.id?.map fun id => { verdict.entry with id := some id }

namespace Engine

variable {engine other extended : Engine} {entries : List ConditionEntry}

/-- The conditions of a configuration that are not rejected, each with its id. -/
def kept (config : Config) : Config :=
  ⟨config.sensors, ((start config).verdicts config.conditions).filterMap Verdict.kept?⟩

/-- Engines that differ in the id that comes next at most. -/
structure Agrees (engine other : Engine) : Prop where
  network : other.toNetwork = engine.toNetwork
  roots : other.roots = engine.roots
  satisfied : other.satisfied = engine.satisfied

/-- A condition that one engine registers is registered by the other under the same id, if it comes
with it. -/
theorem Agrees.register (agrees : engine.Agrees other) {entry : ConditionEntry} {id : ConditionId}
    (registered : engine.register entry = .ok (extended, id)) :
    ∃ again, other.register { entry with id := some id } = .ok (again, id) ∧
      extended.Agrees again := by
  obtain ⟨_, fresh, formula, checked, rfl⟩ := register_eq_ok.1 registered
  obtain ⟨network, roots, satisfied⟩ := agrees
  have alsoChecked : other.check entry.expression = .ok formula := by
    rw [check, network]
    exact checked
  refine ⟨_, register_eq_ok.2 ⟨rfl, by rw [roots, fresh], formula, alsoChecked, rfl⟩, ?_⟩
  constructor
  · simp only [enroll, network]
  · simp only [enroll, network, roots]
  · simp only [enroll, network, satisfied]

/-- The conditions that one engine keeps are all registered by the other. -/
theorem Agrees.registerAll (entries : List ConditionEntry) {engine other : Engine}
    (agrees : engine.Agrees other) :
    let again := (engine.verdicts entries).filterMap Verdict.kept?
    (engine.handleAll (entries.map .register)).Agrees (other.handleAll (again.map .register)) ∧
      Verdict.ids (other.verdicts again) = Verdict.ids (engine.verdicts entries) ∧
      (other.verdicts again).filterMap Verdict.rejection? = [] := by
  induction entries generalizing engine other with
  | nil => exact ⟨agrees, rfl, rfl⟩
  | cons entry rest ih =>
      rw [List.map_cons, verdicts, handleAll, List.foldl_cons, ← handleAll, handle, verdict]
      cases registered : engine.register entry with
      | error error => exact ih agrees
      | ok result =>
          obtain ⟨extended, id⟩ := result
          obtain ⟨again, done, next⟩ := agrees.register registered
          obtain ⟨last, ids, none⟩ := ih next
          let numbered : ConditionEntry := { entry with id := some id }
          let later := (extended.verdicts rest).filterMap Verdict.kept?
          have here : other.verdict numbered = ⟨numbered, .ok id⟩ := by rw [verdict, done]; rfl
          have step : other.handle (.register numbered) = again := by rw [handle, done]; rfl
          have told : other.verdicts (numbered :: later) =
              ⟨numbered, .ok id⟩ :: again.verdicts later := by rw [verdicts, here, step]
          refine ⟨?_, ?_, ?_⟩
          · change Agrees _ ((other.handle (.register numbered)).handleAll (later.map .register))
            rw [step]
            exact last
          · exact (congrArg Verdict.ids told).trans (congrArg (id :: ·) ids)
          · exact (congrArg (List.filterMap Verdict.rejection?) told).trans none

/-! ## Loading again -/

/-- What a configuration that loads comes to without the conditions that its report rejects: the same
sensors with their watchers, graph, roots and satisfied conditions. Nothing is rejected then, and
nothing holds yet. -/
structure Reloads (config : Config) (engine : Engine) (report : Report) : Prop where
  entries : ((start config).verdicts config.conditions).map Verdict.entry = config.conditions
  loaded : report.loaded = ((start config).verdicts config.conditions).filterMap Verdict.id?
  rejected : report.rejected =
    ((start config).verdicts config.conditions).filterMap Verdict.rejection?
  again : ∃ other, load (kept config) = .ok (other, ⟨report.sensors, report.loaded, []⟩) ∧
    other.sensors = engine.sensors ∧ other.graph = engine.graph ∧ other.roots = engine.roots ∧
      other.satisfied = engine.satisfied
  satisfied : engine.satisfied = .empty
  status : ∀ {id node}, engine.graph.node? id = some node → node.status = false

/-- What was rejected does not matter to what was loaded. -/
theorem reloads_of_load {config : Config} {report : Report}
    (loaded : load config = .ok (engine, report)) : Reloads config engine report := by
  have sound := sound_of_load loaded
  have dormant := dormant_of_load loaded
  obtain ⟨declarable, rfl, rfl⟩ := load_eq_ok_iff.1 loaded
  have start : (start config).Agrees (start (kept config)) := ⟨rfl, rfl, rfl⟩
  obtain ⟨agrees, ids, none⟩ := start.registerAll config.conditions
  constructor
  case entries => exact map_entry_verdicts _ _
  case loaded => rfl
  case rejected => rfl
  case again =>
    refine ⟨_, load_eq_ok_iff.2 ⟨declarable, rfl, ?_⟩, ?_, ?_, agrees.roots, agrees.satisfied⟩
    · exact congrArg₂ (Report.mk _) ids.symm none.symm
    · exact congrArg Network.sensors agrees.network
    · exact congrArg Network.graph agrees.network
  case satisfied => exact dormant.satisfied_eq_empty sound
  case status =>
    intro id node found
    rw [← Graph.status_of_node? found]
    exact dormant.status_eq_false sound id

/-- The second text is rejected at its last test only, which would have added a test before those of
the third. -/
theorem reloads_samples :
    ∃ config engine report, load config = .ok (engine, report) ∧
      kept config = ⟨config.sensors,
        [⟨some 3, none, "[1]=(t,1)", []⟩, ⟨some 4, none, "[1]&(=(t,3),=(t,1))", []⟩]⟩ ∧
      report.loaded = [3, 4] ∧ report.rejected.length = 2 ∧ Reloads config engine report := by
  let config : Config :=
    ⟨[⟨1, none, [("t", .unsigned)]⟩],
      [⟨none, none, "[1]=(t,1)", []⟩, ⟨none, none, "[1]&(=(t,2),=(p,1))", []⟩,
        ⟨none, none, "[1]&(=(t,3),=(t,1))", []⟩, ⟨some 2, none, "[1]=(t", []⟩]⟩
  have told : (load config).map (fun done => (done.2.loaded, done.2.rejected.length)) =
      .ok ([3, 4], 2) := by
    decide +kernel
  obtain ⟨⟨engine, report⟩, loaded, same⟩ := map_eq_ok.1 told
  obtain ⟨ids, count⟩ := Prod.mk.inj same
  exact ⟨config, engine, report, loaded, by decide +kernel, ids.symm, count.symm,
    reloads_of_load loaded⟩

end Engine

end Tripwire
