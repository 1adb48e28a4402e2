import Tripwire.Json.Record
import Tripwire.Proofs.Json.Reading
import Tripwire.Proofs.Steps

/-!
# What is kept in documents

A kind of data is kept if each value is written as a well-formed document and read from it again.
Lists of what is kept are kept, and so are optional values, unless a value is written like an absent
one. A record has every field under its name, provided that the names differ.
-/

namespace Tripwire

namespace Json

/-! ## Fields of a record -/

theorem keyed?_pieces (entries : List (String × Json)) :
    keyed? (entries.map fun entry => (pieces entry.1, entry.2)) = some entries := by
  rw [keyed?, mapM_eq_some_iff, List.map_map]
  refine List.map_congr_left fun entry _ => ?_
  change (Piece.join? (pieces entry.1)).map
    (fun letters => (String.ofList letters, entry.2)) = some entry
  rw [pieces, Piece.join?_map_letter, Option.map_some, String.ofList_toList]

/-- What stands under a name that no other entry has is found. -/
theorem lookup?_of_mem {entries : List (String × Json)} (distinct : (entries.map Prod.fst).Nodup)
    {entry : String × Json} (member : entry ∈ entries) :
    lookup? entries entry.1 = some (some entry.2) := by
  have only : (entries.filter fun other => other.1 == entry.1) = [entry] := by
    induction entries with
    | nil => cases member
    | cons first rest ih =>
        obtain ⟨fresh, distinct⟩ := List.nodup_cons.1 distinct
        rcases List.mem_cons.1 member with rfl | later
        · have others : (rest.filter fun other => other.1 == entry.1) = [] := by
            refine List.filter_eq_nil_iff.2 fun other isOther same => fresh ?_
            exact eq_of_beq same ▸ List.mem_map_of_mem isOther
          rw [List.filter_cons, others, beq_self_eq_true, if_pos rfl]
        · have apart : ¬(first.1 == entry.1) = true := fun same =>
            fresh (eq_of_beq same ▸ List.mem_map_of_mem later)
          rw [List.filter_cons, if_neg apart, ih distinct later]
  rw [lookup?, only]

/-- A record has a value for each of its names. -/
theorem fields?_record {names : List String} {entries : List (String × Json)}
    (named : entries.map Prod.fst = names) (distinct : names.Nodup) :
    (record entries).fields? names = some (entries.map fun entry => some entry.2) := by
  subst named
  change (keyed? (entries.map fun entry => (pieces entry.1, entry.2))).bind
    (fun known => (entries.map Prod.fst).mapM (lookup? known)) = _
  rw [keyed?_pieces, Option.bind_some]
  exact mapM_eq_some_map fun entry member => lookup?_of_mem distinct member

/-! ## Well-formed documents -/

theorem wellFormed_pieces (string : String) : ∀ piece ∈ pieces string, piece.WellFormed := by
  intro piece member
  obtain ⟨char, _, rfl⟩ := List.mem_map.1 member
  trivial

theorem wellFormed_record {entries : List (String × Json)}
    (each : ∀ entry ∈ entries, entry.2.WellFormed) : (record entries).WellFormed := by
  refine .object (fun written member => ?_) (fun written member => ?_)
  all_goals obtain ⟨entry, inEntries, rfl⟩ := List.mem_map.1 member
  · exact wellFormed_pieces entry.1
  · exact each entry inEntries

/-- A value that is written as a well-formed document and read from it again. -/
structure Keeps {α : Type} (encode : α → Json) (decode : Json → Option α) (value : α) : Prop where
  wellFormed : (encode value).WellFormed
  read : decode (encode value) = some value

/-! ## Data without parts -/

theorem keeps_string (string : String) : Keeps ofString string? string :=
  ⟨.text (wellFormed_pieces string), string?_ofString string⟩

/-- What is read as an integer is a literal. -/
theorem wellFormed_of_integer? {literal : List Char} {integer : Int}
    (read : (number literal).integer? = some integer) : (number literal).WellFormed := by
  obtain ⟨numeral, found, _⟩ := Option.bind_eq_some_iff.1 read
  exact .number (Option.isSome_iff_exists.2 ⟨numeral, found⟩)

theorem keeps_natural {width number : Nat} (narrow : width ≤ 64) (fits : number < 2 ^ width) :
    Keeps ofNat (natural? width) number := by
  have within : number < 2 ^ 64 :=
    Nat.lt_of_lt_of_le fits (Nat.pow_le_pow_right (by decide) narrow)
  exact ⟨wellFormed_of_integer? (integer?_ofNat within), natural?_ofNat narrow fits⟩

/-! ## Lists and optional values -/

section

variable {α : Type} {encode : α → Json} {decode : Json → Option α}

theorem keeps_list {items : List α} (each : ∀ item ∈ items, Keeps encode decode item) :
    Keeps (fun items => .array (items.map encode)) (list? decode) items where
  wellFormed := by
    refine .array fun written member => ?_
    obtain ⟨item, inItems, rfl⟩ := List.mem_map.1 member
    exact (each item inItems).wellFormed
  read := by
    have all : (items.map encode).mapM decode = some (items.map id) :=
      mapM_eq_some_map fun item member => (each item member).read
    rw [list?, all, List.map_id]

theorem keeps_option (present : ∀ value, encode value ≠ .null) {value? : Option α}
    (each : ∀ value ∈ value?, Keeps encode decode value) :
    Keeps (ofOption encode) (nullable? decode) value? := by
  cases value? with
  | none => exact ⟨.null, rfl⟩
  | some value =>
      have keeps := each value rfl
      refine ⟨keeps.wellFormed, ?_⟩
      rw [ofOption, nullable?, keeps.read, Option.map_some]
      exact present value

end

end Json

end Tripwire
