/-!
# Tables

A table holds at most one entry for each key, in ascending order of the keys. Its entries
are therefore settled by what each key maps to, in whatever order they were put in.
-/

namespace Tripwire

/-- Entries in strictly ascending order of their keys. -/
structure Table (κ υ : Type) [Ord κ] where
  entries : List (κ × υ)
  ascending : entries.Pairwise fun first second => compare first.1 second.1 = .lt
deriving DecidableEq

namespace Table

variable {κ υ : Type} [Ord κ]

/-- The entries with one put in its place, or in place of the one with an equal key. -/
def place (key : κ) (value : υ) : List (κ × υ) → List (κ × υ)
  | [] => [(key, value)]
  | first :: rest =>
      match compare key first.1 with
      | .lt => (key, value) :: first :: rest
      | .eq => (key, value) :: rest
      | .gt => first :: place key value rest

theorem mem_of_mem_place {key : κ} {value : υ} {entry : κ × υ} {entries : List (κ × υ)}
    (member : entry ∈ place key value entries) : entry = (key, value) ∨ entry ∈ entries := by
  induction entries with
  | nil => simpa [place] using member
  | cons first rest ih =>
      unfold place at member
      split at member
      · simpa using member
      · rcases List.mem_cons.1 member with same | inRest
        · exact Or.inl same
        · exact Or.inr (List.mem_cons_of_mem _ inRest)
      · rcases List.mem_cons.1 member with same | inRest
        · exact Or.inr (same ▸ List.mem_cons_self)
        · rcases ih inRest with same | inRest
          · exact Or.inl same
          · exact Or.inr (List.mem_cons_of_mem _ inRest)

theorem place_ascending [Std.TransOrd κ] [Std.LawfulEqOrd κ] (key : κ) (value : υ)
    {entries : List (κ × υ)}
    (ascending : entries.Pairwise fun first second => compare first.1 second.1 = .lt) :
    (place key value entries).Pairwise fun first second =>
      compare first.1 second.1 = .lt := by
  induction entries with
  | nil => simp [place]
  | cons first rest ih =>
      obtain ⟨below, restAscending⟩ := List.pairwise_cons.1 ascending
      unfold place
      split
      case h_1 less =>
        refine List.pairwise_cons.2 ⟨fun entry member => ?_, ascending⟩
        rcases List.mem_cons.1 member with same | inRest
        · exact same ▸ less
        · exact Std.TransCmp.lt_trans less (below entry inRest)
      case h_2 equal =>
        have same : key = first.1 := Std.LawfulEqCmp.eq_of_compare equal
        exact List.pairwise_cons.2 ⟨fun entry member => same ▸ below entry member, restAscending⟩
      case h_3 greater =>
        refine List.pairwise_cons.2 ⟨fun entry member => ?_, ih restAscending⟩
        rcases mem_of_mem_place member with same | inRest
        · subst same
          exact Std.OrientedCmp.lt_of_gt greater
        · exact below entry inRest

def empty : Table κ υ := ⟨[], List.Pairwise.nil⟩

/-- What a key maps to. -/
def get? [DecidableEq κ] (table : Table κ υ) (key : κ) : Option υ :=
  (table.entries.find? fun entry => entry.1 = key).map Prod.snd

theorem get?_empty [DecidableEq κ] (key : κ) : (empty : Table κ υ).get? key = none := rfl

/-- Whether a key has an entry. -/
def contains [DecidableEq κ] (table : Table κ υ) (key : κ) : Bool :=
  (table.get? key).isSome

/-- Maps a key to a value, whatever it mapped to. -/
def insert [Std.TransOrd κ] [Std.LawfulEqOrd κ] (table : Table κ υ) (key : κ) (value : υ) :
    Table κ υ :=
  ⟨place key value table.entries, place_ascending key value table.ascending⟩

/-- Changes what a key maps to, if it has an entry. -/
def modify [DecidableEq κ] (table : Table κ υ) (key : κ) (change : υ → υ) : Table κ υ where
  entries := table.entries.map fun entry =>
    (entry.1, if entry.1 = key then change entry.2 else entry.2)
  ascending := List.pairwise_map.2 table.ascending

/-- Removes a key's entry, if it has one. -/
def erase [DecidableEq κ] (table : Table κ υ) (key : κ) : Table κ υ where
  entries := table.entries.filter fun entry => entry.1 ≠ key
  ascending := table.ascending.filter _

def keys (table : Table κ υ) : List κ :=
  table.entries.map Prod.fst

def size (table : Table κ υ) : Nat :=
  table.entries.length

/-- The table of a list of entries, of which a later one replaces an earlier. -/
def ofList [Std.TransOrd κ] [Std.LawfulEqOrd κ] (entries : List (κ × υ)) : Table κ υ :=
  entries.foldl (fun table entry => table.insert entry.1 entry.2) empty

/-! ## What the operations do to look-ups -/

theorem get?_cons [DecidableEq κ] (first : κ × υ) (rest : List (κ × υ)) (ascending) (key : κ) :
    (⟨first :: rest, ascending⟩ : Table κ υ).get? key =
      if first.1 = key then some first.2
      else (⟨rest, (List.pairwise_cons.1 ascending).2⟩ : Table κ υ).get? key := by
  by_cases same : first.1 = key <;> simp [get?, same]

theorem get?_insert [DecidableEq κ] [Std.TransOrd κ] [Std.LawfulEqOrd κ] (table : Table κ υ)
    (key other : κ) (value : υ) :
    (table.insert key value).get? other =
      if key = other then some value else table.get? other := by
  obtain ⟨entries, ascending⟩ := table
  simp only [insert, get?]
  clear ascending
  induction entries with
  | nil => by_cases same : key = other <;> simp [place, same]
  | cons first rest ih =>
      unfold place
      split
      case h_1 less => by_cases same : key = other <;> simp [List.find?_cons, same]
      case h_2 equal =>
        have keys : key = first.1 := Std.LawfulEqCmp.eq_of_compare equal
        by_cases same : first.1 = other <;> simp [keys, same]
      case h_3 greater =>
        have apart : first.1 ≠ key := by
          intro keys
          have equal : compare key key = .eq := Std.ReflCmp.compare_self
          rw [keys, equal] at greater
          cases greater
        by_cases same : first.1 = other
        · have differs : ¬key = other := fun equal => apart (same.trans equal.symm)
          simp [same, differs]
        · simpa [List.find?_cons, same] using ih

theorem contains_insert [DecidableEq κ] [Std.TransOrd κ] [Std.LawfulEqOrd κ]
    (table : Table κ υ) (key other : κ) (value : υ) :
    (table.insert key value).contains other = true ↔
      key = other ∨ table.contains other = true := by
  rw [contains, get?_insert]
  split
  case isTrue same => simp [same]
  case isFalse apart => simp [apart, contains]

theorem get?_modify [DecidableEq κ] (table : Table κ υ) (key other : κ) (change : υ → υ) :
    (table.modify key change).get? other =
      if other = key then (table.get? other).map change else table.get? other := by
  obtain ⟨entries, ascending⟩ := table
  simp only [modify, get?]
  clear ascending
  induction entries with
  | nil => simp
  | cons first rest ih =>
      by_cases same : first.1 = other
      · by_cases target : other = key <;> simp [same, target]
      · simpa [List.find?_cons, same] using ih

theorem get?_erase [DecidableEq κ] (table : Table κ υ) (key other : κ) :
    (table.erase key).get? other = if other = key then none else table.get? other := by
  obtain ⟨entries, ascending⟩ := table
  simp only [erase, get?]
  clear ascending
  induction entries with
  | nil => simp
  | cons first rest ih =>
      by_cases gone : first.1 = key
      · by_cases target : other = key
        · simp [target]
        · have apart : ¬key = other := fun equal => target equal.symm
          simpa [List.filter_cons, List.find?_cons, gone, target, apart] using ih
      · by_cases same : first.1 = other
        · simp [← same, gone]
        · simpa [List.filter_cons, List.find?_cons, gone, same] using ih

theorem contains_erase [DecidableEq κ] (table : Table κ υ) (key other : κ) :
    (table.erase key).contains other = true ↔ other ≠ key ∧ table.contains other = true := by
  rw [contains, get?_erase]
  split
  case isTrue same => simp [same]
  case isFalse apart => simp [apart, contains]

/-! ## Look-ups settle the entries -/

theorem mem_of_get? [DecidableEq κ] {table : Table κ υ} {key : κ} {value : υ}
    (found : table.get? key = some value) : (key, value) ∈ table.entries := by
  obtain ⟨entry, hit, same⟩ := Option.map_eq_some_iff.1 found
  have member := List.mem_of_find?_eq_some hit
  have keys : entry.1 = key := by simpa using List.find?_some hit
  subst same keys
  exact member

theorem get?_of_mem [DecidableEq κ] [Std.TransOrd κ] {table : Table κ υ} {key : κ} {value : υ}
    (member : (key, value) ∈ table.entries) : table.get? key = some value := by
  obtain ⟨entries, ascending⟩ := table
  induction entries with
  | nil => cases member
  | cons first rest ih =>
      rw [get?_cons]
      rcases List.mem_cons.1 member with rfl | inRest
      · exact if_pos rfl
      · have less := (List.pairwise_cons.1 ascending).1 _ inRest
        have apart : first.1 ≠ key := by
          intro same
          have equal : compare key key = .eq := Std.ReflCmp.compare_self
          rw [same, equal] at less
          cases less
        rw [if_neg apart]
        exact ih _ inRest

theorem mem_keys [DecidableEq κ] [Std.TransOrd κ] {table : Table κ υ} {key : κ} :
    key ∈ table.keys ↔ table.contains key = true := by
  rw [contains, Option.isSome_iff_exists, keys, List.mem_map]
  constructor
  · rintro ⟨entry, member, rfl⟩
    exact ⟨entry.2, get?_of_mem member⟩
  · rintro ⟨value, found⟩
    exact ⟨(key, value), mem_of_get? found, rfl⟩

theorem keys_nodup [Std.TransOrd κ] (table : Table κ υ) : table.keys.Nodup := by
  refine List.pairwise_map.2 (table.ascending.imp fun {first second} less same => ?_)
  have equal : compare second.1 second.1 = .eq := Std.ReflCmp.compare_self
  rw [same, equal] at less
  cases less

/-- A key below all others has no entry. -/
theorem get?_eq_none_of_lt [DecidableEq κ] [Std.TransOrd κ] {table : Table κ υ} {key : κ}
    (below : ∀ entry ∈ table.entries, compare key entry.1 = .lt) : table.get? key = none := by
  cases found : table.get? key with
  | none => rfl
  | some value =>
      have less := below _ (mem_of_get? found)
      have equal : compare key key = .eq := Std.ReflCmp.compare_self
      rw [equal] at less
      cases less

/-- Tables in which every key maps to the same are the same. -/
theorem ext_get? [DecidableEq κ] [Std.TransOrd κ] {first second : Table κ υ}
    (same : ∀ key, first.get? key = second.get? key) : first = second := by
  obtain ⟨entries, ascending⟩ := first
  obtain ⟨others, othersAscending⟩ := second
  suffices entries = others by subst this; rfl
  induction entries generalizing others with
  | nil =>
      cases others with
      | nil => rfl
      | cons other rest =>
          have absent := same other.1
          rw [get?_cons] at absent
          simp [get?] at absent
  | cons entry rest ih =>
      cases others with
      | nil =>
          have absent := same entry.1
          rw [get?_cons] at absent
          simp [get?] at absent
      | cons other tail =>
          obtain ⟨below, restAscending⟩ := List.pairwise_cons.1 ascending
          obtain ⟨otherBelow, tailAscending⟩ := List.pairwise_cons.1 othersAscending
          have keys : entry.1 = other.1 := by
            apply Classical.byContradiction
            intro apart
            have here := same entry.1
            rw [get?_cons, get?_cons, if_pos rfl, if_neg (Ne.symm apart)] at here
            have there := same other.1
            rw [get?_cons, get?_cons, if_neg apart, if_pos rfl] at there
            have above := otherBelow _ (mem_of_get? here.symm)
            have under := below _ (mem_of_get? there)
            have swapped : compare other.1 entry.1 = (compare entry.1 other.1).swap :=
              Std.OrientedCmp.eq_swap
            rw [swapped, under] at above
            cases above
          have values := same entry.1
          rw [get?_cons, get?_cons, if_pos rfl, if_pos keys.symm] at values
          have tails : rest = tail := by
            refine ih restAscending tail tailAscending fun key => ?_
            by_cases head : entry.1 = key
            · subst head
              rw [get?_eq_none_of_lt below, get?_eq_none_of_lt (by rw [keys]; exact otherBelow)]
            · have next := same key
              rwa [get?_cons, get?_cons, if_neg head, if_neg (keys ▸ head)] at next
          rw [tails, Prod.ext keys (Option.some.inj values)]

/-- Tables of keys alone are the same if they have the same keys. -/
theorem ext_contains [DecidableEq κ] [Std.TransOrd κ] {first second : Table κ Unit}
    (same : ∀ key, first.contains key = second.contains key) : first = second := by
  refine ext_get? fun key => ?_
  have here := same key
  unfold contains at here
  cases found : first.get? key with
  | none =>
      rw [found, Option.isSome_none, eq_comm, Option.isSome_eq_false_iff] at here
      exact (Option.isNone_iff_eq_none.1 here).symm
  | some value =>
      rw [found, Option.isSome_some, eq_comm, Option.isSome_iff_exists] at here
      obtain ⟨_, also⟩ := here
      exact also.symm

/-! ## Entries in their order -/

theorem place_of_above [Std.TransOrd κ] {key : κ} (value : υ) {entries : List (κ × υ)}
    (above : ∀ entry ∈ entries, compare entry.1 key = .lt) :
    place key value entries = entries ++ [(key, value)] := by
  induction entries with
  | nil => rfl
  | cons first rest ih =>
      obtain ⟨here, later⟩ := List.forall_mem_cons.1 above
      have greater : compare key first.1 = .gt := Std.OrientedCmp.gt_of_lt here
      rw [place, greater, List.cons_append]
      exact congrArg (first :: ·) (ih later)

theorem entries_foldl_insert [Std.TransOrd κ] [Std.LawfulEqOrd κ] {entries : List (κ × υ)}
    {table : Table κ υ} (ascending : (table.entries ++ entries).Pairwise
      fun first second => compare first.1 second.1 = .lt) :
    (entries.foldl (fun table entry => table.insert entry.1 entry.2) table).entries =
      table.entries ++ entries := by
  induction entries generalizing table with
  | nil => exact (List.append_nil _).symm
  | cons first rest ih =>
      have above : ∀ entry ∈ table.entries, compare entry.1 first.1 = .lt := fun entry member =>
        (List.pairwise_append.1 ascending).2.2 entry member first List.mem_cons_self
      have placed : (table.insert first.1 first.2).entries = table.entries ++ [first] :=
        place_of_above first.2 above
      have whole : table.entries ++ first :: rest =
          (table.insert first.1 first.2).entries ++ rest := by
        rw [placed, List.append_assoc, List.singleton_append]
      rw [whole] at ascending ⊢
      exact ih ascending

/-- A table is that of its entries. -/
theorem ofList_entries [Std.TransOrd κ] [Std.LawfulEqOrd κ] (table : Table κ υ) :
    ofList table.entries = table := by
  have entries : (ofList table.entries).entries = table.entries :=
    entries_foldl_insert table.ascending
  obtain ⟨kept, ascending⟩ := table
  generalize ofList kept = other at entries
  obtain ⟨others, _⟩ := other
  cases entries
  rfl

end Table

end Tripwire
