import Tripwire.Proofs.Json.Scanning

/-!
# Printed documents are read back

The tokens of a value leave the reader where the value is complete, whatever arrays and objects are
open around it. Within an array or an object, what was read before stands in reverse, and the closing
bracket puts it in order again.
-/

namespace Tripwire.Json

namespace Parser

/-- Tokens that are read as a value wherever a value may stand. -/
def Reads (tokens : List Token) (value : Json) : Prop :=
  ∀ frames, tokens.foldlM read? ⟨frames, .value⟩ = some ⟨frames, .follower value⟩

variable {frames : List Frame}

/-- The first item of an array is read like any other, since no value starts with a bracket that
closes. -/
theorem foldlM_firstItem (json : Json) :
    json.tokens.foldlM read? ⟨frames, .firstItem⟩ =
      json.tokens.foldlM read? ⟨.items [] :: frames, .value⟩ := by
  cases json
  all_goals
    rw [tokens, List.foldlM_cons, List.foldlM_cons]
    rfl

section

variable {α : Type} {tokensOf : α → List Token} {closing : Token}
  {follow : List α → α → Parser} (next : List α → Parser) (whole : List α → Json)

/-- Members with commas between them up to the closing bracket make a whole, if each of them is read
where the next may stand and the first is read already. -/
theorem foldlM_members {first : α} {rest earlier : List α} {parser : Parser}
    (comma : ∀ earlier member, read? (follow earlier member) .comma = some (next (member :: earlier)))
    (closed : ∀ earlier member, read? (follow earlier member) closing =
      some ⟨frames, .follower (whole (member :: earlier).reverse)⟩)
    (start : (tokensOf first).foldlM read? parser = some (follow earlier first))
    (each : ∀ member ∈ rest, ∀ earlier,
      (tokensOf member).foldlM read? (next earlier) = some (follow earlier member)) :
    ([Token.comma].intercalate ((first :: rest).map tokensOf) ++ [closing]).foldlM read? parser =
      some ⟨frames, .follower (whole (earlier.reverse ++ first :: rest))⟩ := by
  induction rest generalizing first earlier parser with
  | nil =>
      rw [List.map_cons, List.map_nil, List.intercalate_singleton, List.foldlM_append, start,
        Option.bind_eq_bind, Option.bind_some, List.foldlM_cons, closed, List.reverse_cons]
      rfl
  | cons second rest ih =>
      obtain ⟨here, later⟩ := List.forall_mem_cons.1 each
      rw [List.map_cons, List.map_cons, List.intercalate_cons_cons, ← List.map_cons,
        List.append_assoc, List.append_assoc, List.foldlM_append, start, Option.bind_eq_bind,
        Option.bind_some, List.singleton_append, List.foldlM_cons, comma, Option.bind_eq_bind,
        Option.bind_some, ih (here _) later, List.reverse_cons, List.append_assoc,
        List.singleton_append]

end

/-- An entry is read wherever its key is. -/
theorem foldlM_entry {entry : List Piece × Json} {earlier : List (List Piece × Json)}
    {parser : Parser} (value : Reads entry.2.tokens entry.2)
    (key : read? parser (.scalar (.text entry.1)) = some ⟨frames, .colon earlier entry.1⟩) :
    (entryTokens entry).foldlM read? parser =
      some ⟨.entry earlier entry.1 :: frames, .follower entry.2⟩ := by
  have colon : read? ⟨frames, .colon earlier entry.1⟩ .colon =
      some ⟨.entry earlier entry.1 :: frames, .value⟩ := rfl
  rw [entryTokens, List.foldlM_cons, key, Option.bind_eq_bind, Option.bind_some,
    List.foldlM_cons, colon, Option.bind_eq_bind, Option.bind_some, value]

/-- The tokens of a value are read as that value. -/
theorem reads_tokens {json : Json} (wellFormed : json.WellFormed) : Reads json.tokens json := by
  induction wellFormed with
  | null => exact fun frames => rfl
  | boolean truth => exact fun frames => rfl
  | number read => exact fun frames => rfl
  | text whole => exact fun frames => rfl
  | @array items each ih =>
      intro frames
      have opened : read? ⟨frames, .value⟩ .openArray = some ⟨frames, .firstItem⟩ := rfl
      rw [tokens, tokensOfItems_eq_map, List.foldlM_cons, opened, Option.bind_eq_bind,
        Option.bind_some]
      cases items with
      | nil => rfl
      | cons first rest =>
          obtain ⟨here, later⟩ := List.forall_mem_cons.1 ih
          have start := (foldlM_firstItem first).trans (here (.items [] :: frames))
          have closed : ∀ earlier item, read? ⟨.items earlier :: frames, .follower item⟩
              .closeArray = some ⟨frames, .follower (.array (item :: earlier).reverse)⟩ :=
            fun _ _ => rfl
          exact foldlM_members (fun earlier => ⟨.items earlier :: frames, .value⟩) .array
            (fun _ _ => rfl) closed start
            fun item member earlier => later item member (.items earlier :: frames)
  | @object entries keys each ih =>
      intro frames
      have opened : read? ⟨frames, .value⟩ .openObject = some ⟨frames, .firstKey⟩ := rfl
      rw [tokens, tokensOfEntries_eq_map, List.foldlM_cons, opened, Option.bind_eq_bind,
        Option.bind_some]
      cases entries with
      | nil => rfl
      | cons first rest =>
          obtain ⟨here, later⟩ := List.forall_mem_cons.1 ih
          have key : read? ⟨frames, .firstKey⟩ (.scalar (.text first.1)) =
              some ⟨frames, .colon [] first.1⟩ := rfl
          have closed : ∀ (earlier : List (List Piece × Json)) (entry : List Piece × Json),
              read? ⟨.entry earlier entry.1 :: frames, .follower entry.2⟩ .closeObject =
                some ⟨frames, .follower (.object (entry :: earlier).reverse)⟩ :=
            fun _ _ => rfl
          exact foldlM_members (fun earlier => ⟨frames, .key earlier⟩) .object
            (fun _ _ => rfl) closed (foldlM_entry here key)
            fun entry member earlier => foldlM_entry (later entry member) rfl

end Parser

/-- What is printed of a value is read as that value. -/
theorem parse?_print {json : Json} (wellFormed : json.WellFormed) :
    parse? json.print = some json := by
  rw [parse?, print, String.toList_ofList, Token.scan?_letters wellFormed, Option.bind_eq_bind,
    Option.bind_some, Parser.reads_tokens wellFormed, Option.bind_eq_bind, Option.bind_some]
  rfl

end Tripwire.Json
