import Mathlib.Data.List.Induction
import Tripwire.Proofs.Engine.Runs

/-!
# Sensors that a configuration declares

The entries of a configuration are declared if none of them declares a field twice or repeats the id
of an earlier one. Otherwise the first entry at fault is the error, and its fields count before its
id.
-/

namespace Tripwire

theorem nodup_map_concat {α β : Type} {key : α → β} {items : List α} {last : α} :
    ((items ++ [last]).map key).Nodup ↔
      (items.map key).Nodup ∧ key last ∉ items.map key := by
  rw [List.map_append, List.map_singleton, (List.perm_append_singleton _ _).nodup_iff,
    List.nodup_cons, and_comm]

theorem Sensor.contains_ofList {name : Option String} {fields : List (String × FieldType)}
    {field : String} :
    (ofList name fields).fields.contains field = true ↔ field ∈ fields.map Prod.fst := by
  induction fields using List.reverseRecOn with
  | nil => simp [ofList, Table.contains, Table.get?_empty]
  | append_singleton earlier last ih =>
      have step : ofList name (earlier ++ [last]) =
          (ofList name earlier).declare last.1 last.2 := List.foldl_append
      rw [step, declare, Table.contains_insert, ih]
      simp [or_comm, eq_comm]

/-- Fields that are declared once have the types that they are declared with. -/
theorem Sensor.type_ofList {name : Option String} {fields : List (String × FieldType)}
    (once : (fields.map Prod.fst).Nodup) {field : String} {type : FieldType} :
    ((ofList name fields).fields.get? field).map Field.type = some type ↔
      (field, type) ∈ fields := by
  induction fields using List.reverseRecOn with
  | nil => simp [ofList, Table.get?_empty]
  | append_singleton earlier last ih =>
      obtain ⟨before, fresh⟩ := nodup_map_concat.1 once
      have step : ofList name (earlier ++ [last]) =
          (ofList name earlier).declare last.1 last.2 := List.foldl_append
      rw [step, declare, Table.get?_insert, List.mem_append, List.mem_singleton]
      split
      case isTrue same =>
        have absent : (field, type) ∉ earlier := by
          intro member
          exact fresh (same ▸ List.mem_map_of_mem member)
        rw [Option.map_some, Option.some.injEq, or_iff_right absent, Prod.ext_iff, Field.ofType]
        exact ⟨fun alike => ⟨same.symm, alike.symm⟩, fun alike => alike.2.symm⟩
      case isFalse apart =>
        rw [ih before, or_iff_left]
        rintro rfl
        exact apart rfl

namespace SensorEntry

/-- An entry's fields in turn make the sensor of all of them if no two have one name. -/
theorem foldlM_declareNew {id : SensorId} {name : Option String}
    {fields : List (String × FieldType)} {sensor : Sensor} :
    fields.foldlM (declareNew id) ⟨name, .empty⟩ = .ok sensor ↔
      (fields.map Prod.fst).Nodup ∧ sensor = .ofList name fields := by
  induction fields using List.reverseRecOn generalizing sensor with
  | nil => simp [Sensor.ofList, pure, Except.pure, eq_comm]
  | append_singleton earlier last ih =>
      have step : Sensor.ofList name (earlier ++ [last]) =
          (Sensor.ofList name earlier).declare last.1 last.2 := List.foldl_append
      rw [List.foldlM_append, bind_eq_ok, step]
      simp only [ih, List.foldlM_cons, List.foldlM_nil, bind_pure, declareNew, ite_error_eq_ok,
        Except.ok.injEq, nodup_map_concat, ← @Sensor.contains_ofList name]
      constructor
      · rintro ⟨_, ⟨once, rfl⟩, fresh, rfl⟩
        exact ⟨⟨once, fresh⟩, rfl⟩
      · rintro ⟨⟨once, fresh⟩, rfl⟩
        exact ⟨_, ⟨once, rfl⟩, fresh, rfl⟩

theorem sensor_eq_ok {entry : SensorEntry} {sensor : Sensor} :
    entry.sensor = .ok sensor ↔
      (entry.fields.map Prod.fst).Nodup ∧ sensor = .ofList entry.name entry.fields :=
  foldlM_declareNew

theorem sensor_eq_error {entry : SensorEntry} {error : Error} :
    entry.sensor = .error error ↔
      ∃ before field after, entry.fields = before ++ field :: after ∧
        (before.map Prod.fst).Nodup ∧ field.1 ∈ before.map Prod.fst ∧
          error = .fieldDeclaredTwice entry.id field.1 := by
  have fails (reached : Sensor) (field : String × FieldType) :
      declareNew entry.id reached field = .error error ↔
        reached.fields.contains field.1 = true ∧
          error = .fieldDeclaredTwice entry.id field.1 := by
    unfold declareNew
    split <;> simp [*, eq_comm]
  rw [sensor, foldlM_eq_error]
  simp only [foldlM_declareNew, fails]
  constructor
  · rintro ⟨before, field, after, _, split, ⟨once, rfl⟩, again, rfl⟩
    exact ⟨before, field, after, split, once, Sensor.contains_ofList.1 again, rfl⟩
  · rintro ⟨before, field, after, split, once, again, rfl⟩
    exact ⟨before, field, after, _, split, ⟨once, rfl⟩, Sensor.contains_ofList.2 again, rfl⟩

/-- No entry declares a field twice, and no two entries have one id. -/
structure Declarable (entries : List SensorEntry) : Prop where
  fields : ∀ entry ∈ entries, (entry.fields.map Prod.fst).Nodup
  ids : (entries.map SensorEntry.id).Nodup

instance (entries : List SensorEntry) : Decidable (Declarable entries) :=
  decidable_of_iff ((∀ entry ∈ entries, (entry.fields.map Prod.fst).Nodup) ∧
    (entries.map SensorEntry.id).Nodup)
    ⟨fun both => ⟨both.1, both.2⟩, fun declarable => ⟨declarable.fields, declarable.ids⟩⟩

theorem declarable_concat {entries : List SensorEntry} {last : SensorEntry} :
    Declarable (entries ++ [last]) ↔ Declarable entries ∧
      (last.fields.map Prod.fst).Nodup ∧ last.id ∉ entries.map SensorEntry.id := by
  constructor
  · intro declarable
    obtain ⟨fields, once⟩ := List.forall_mem_append.1 declarable.fields
    obtain ⟨ids, fresh⟩ := nodup_map_concat.1 declarable.ids
    exact ⟨⟨fields, ids⟩, once last (List.mem_singleton_self _), fresh⟩
  · rintro ⟨declarable, once, fresh⟩
    refine ⟨?_, nodup_map_concat.2 ⟨declarable.ids, fresh⟩⟩
    exact List.forall_mem_append.2 ⟨declarable.fields, List.forall_mem_singleton.2 once⟩

/-- What is wrong with an entry that comes after others. -/
inductive Fault (earlier : List SensorEntry) (entry : SensorEntry) : Error → Prop where
  | field {before after : List (String × FieldType)} {field : String × FieldType}
      (split : entry.fields = before ++ field :: after) (once : (before.map Prod.fst).Nodup)
      (again : field.1 ∈ before.map Prod.fst) :
      Fault earlier entry (.fieldDeclaredTwice entry.id field.1)
  | id (once : (entry.fields.map Prod.fst).Nodup)
      (again : entry.id ∈ earlier.map SensorEntry.id) :
      Fault earlier entry (.duplicateSensor entry.id)

end SensorEntry

namespace Sensors

/-- The sensors of entries, without values and unwatched. -/
def ofEntries (entries : List SensorEntry) : Sensors :=
  .ofList (entries.map fun entry => (entry.id, .ofList entry.name entry.fields))

theorem ofEntries_append (entries : List SensorEntry) (last : SensorEntry) :
    ofEntries (entries ++ [last]) =
      (ofEntries entries).insert last.id (.ofList last.name last.fields) := by
  unfold ofEntries Table.ofList
  rw [List.map_append, List.foldl_append]
  rfl

theorem contains_ofEntries {entries : List SensorEntry} {id : SensorId} :
    (ofEntries entries).contains id = true ↔ id ∈ entries.map SensorEntry.id := by
  induction entries using List.reverseRecOn with
  | nil => simp [ofEntries, Table.ofList, Table.contains, Table.get?_empty]
  | append_singleton earlier last ih =>
      rw [ofEntries_append, Table.contains_insert, ih]
      simp [or_comm, eq_comm]

theorem type?_ofEntries {entries : List SensorEntry} (declarable : SensorEntry.Declarable entries)
    {entry : SensorEntry} (member : entry ∈ entries) {field : String} {type : FieldType} :
    (ofEntries entries).type? entry.id field = some type ↔ (field, type) ∈ entry.fields := by
  induction entries using List.reverseRecOn with
  | nil => cases member
  | append_singleton earlier last ih =>
      obtain ⟨before, once, fresh⟩ := SensorEntry.declarable_concat.1 declarable
      rw [ofEntries_append, type?, field?_insert]
      rcases List.mem_append.1 member with among | isLast
      · have apart : last.id ≠ entry.id := fun same => fresh (same ▸ List.mem_map_of_mem among)
        rw [if_neg apart]
        exact ih before among
      · rw [List.mem_singleton.1 isLast, if_pos rfl]
        exact Sensor.type_ofList once

end Sensors

namespace Engine

open SensorEntry

/-- An engine that has sensors only. -/
def ofSensors (sensors : Sensors) : Engine :=
  { empty with sensors }

theorem addEntry_ofSensors {sensors : Sensors} {entry : SensorEntry} {extended : Engine} :
    addEntry (ofSensors sensors) entry = .ok extended ↔
      (entry.fields.map Prod.fst).Nodup ∧ sensors.contains entry.id = false ∧
        extended = ofSensors (sensors.insert entry.id (.ofList entry.name entry.fields)) := by
  rw [addEntry_eq_ok]
  simp only [sensor_eq_ok, addSensor_eq_ok]
  constructor
  · rintro ⟨_, ⟨once, rfl⟩, fresh, rfl⟩
    exact ⟨once, fresh, rfl⟩
  · rintro ⟨once, fresh, rfl⟩
    exact ⟨_, ⟨once, rfl⟩, fresh, rfl⟩

/-- Entries in turn make an engine of their sensors if they can be declared. -/
theorem foldlM_addEntry {entries : List SensorEntry} {engine : Engine} :
    entries.foldlM addEntry empty = .ok engine ↔
      Declarable entries ∧ engine = ofSensors (.ofEntries entries) := by
  induction entries using List.reverseRecOn generalizing engine with
  | nil =>
      constructor
      · rintro ⟨⟩
        exact ⟨⟨(fun _ member => nomatch member), List.nodup_nil⟩, rfl⟩
      · rintro ⟨_, rfl⟩
        rfl
  | append_singleton earlier last ih =>
      rw [List.foldlM_append, bind_eq_ok]
      simp only [ih, List.foldlM_cons, List.foldlM_nil, bind_pure]
      rw [declarable_concat, ← Sensors.contains_ofEntries, Bool.not_eq_true,
        Sensors.ofEntries_append]
      constructor
      · rintro ⟨_, ⟨declarable, rfl⟩, added⟩
        obtain ⟨once, fresh, rfl⟩ := addEntry_ofSensors.1 added
        exact ⟨⟨declarable, once, fresh⟩, rfl⟩
      · rintro ⟨⟨declarable, once, fresh⟩, rfl⟩
        exact ⟨_, ⟨declarable, rfl⟩, addEntry_ofSensors.2 ⟨once, fresh, rfl⟩⟩

theorem addEntry_eq_error {sensors : Sensors} {entry : SensorEntry} {error : Error} :
    addEntry (ofSensors sensors) entry = .error error ↔
      entry.sensor = .error error ∨ (entry.fields.map Prod.fst).Nodup ∧
        sensors.contains entry.id = true ∧ error = .duplicateSensor entry.id := by
  unfold addEntry
  rw [bind_eq_error]
  refine or_congr_right ?_
  simp only [sensor_eq_ok, addSensor]
  constructor
  · rintro ⟨_, ⟨once, rfl⟩, fails⟩
    split at fails
    case isTrue taken =>
      cases fails
      exact ⟨once, taken, rfl⟩
    case isFalse => cases fails
  · rintro ⟨once, taken, rfl⟩
    exact ⟨_, ⟨once, rfl⟩, if_pos taken⟩

/-- The first entry at fault is the error. -/
theorem foldlM_addEntry_eq_error {entries : List SensorEntry} {error : Error} :
    entries.foldlM addEntry empty = .error error ↔
      ∃ before entry after, entries = before ++ entry :: after ∧ Declarable before ∧
        entry.Fault before error := by
  rw [foldlM_eq_error]
  simp only [foldlM_addEntry]
  constructor
  · rintro ⟨before, entry, after, _, split, ⟨declarable, rfl⟩, fails⟩
    refine ⟨before, entry, after, split, declarable, ?_⟩
    rcases addEntry_eq_error.1 fails with faulty | ⟨once, taken, rfl⟩
    · obtain ⟨_, _, _, split, once, again, rfl⟩ := sensor_eq_error.1 faulty
      exact .field split once again
    · exact .id once (Sensors.contains_ofEntries.1 taken)
  · rintro ⟨before, entry, after, split, declarable, fault⟩
    refine ⟨before, entry, after, _, split, ⟨declarable, rfl⟩, addEntry_eq_error.2 ?_⟩
    cases fault with
    | field split once again =>
        exact .inl (sensor_eq_error.2 ⟨_, _, _, split, once, again, rfl⟩)
    | id once again => exact .inr ⟨once, Sensors.contains_ofEntries.2 again, rfl⟩

/-- Entries cannot be declared exactly if one of them declares a field twice or repeats the id of an
earlier one. -/
theorem exists_foldlM_addEntry_eq_error {entries : List SensorEntry} :
    (∃ error, entries.foldlM addEntry empty = .error error) ↔
      ∃ before entry after, entries = before ++ entry :: after ∧
        (¬(entry.fields.map Prod.fst).Nodup ∨ entry.id ∈ before.map SensorEntry.id) := by
  constructor
  · rintro ⟨error, failed⟩
    obtain ⟨before, entry, after, split, _, fault⟩ := foldlM_addEntry_eq_error.1 failed
    refine ⟨before, entry, after, split, ?_⟩
    cases fault with
    | field parts once again =>
        refine .inl fun all => ?_
        rw [parts, List.map_append, List.map_cons, List.nodup_append] at all
        exact all.2.2 _ again _ List.mem_cons_self rfl
    | id once again => exact .inr again
  · rintro ⟨before, entry, after, rfl, faulty⟩
    cases done : (before ++ entry :: after).foldlM addEntry empty with
    | error error => exact ⟨error, rfl⟩
    | ok engine =>
        obtain ⟨declarable, _⟩ := foldlM_addEntry.1 done
        have ids := declarable.ids
        rw [List.map_append, List.map_cons, List.nodup_append] at ids
        rcases faulty with twice | again
        · exact absurd (declarable.fields entry (by simp)) twice
        · exact absurd rfl (ids.2.2 _ again _ List.mem_cons_self)

end Engine

end Tripwire
