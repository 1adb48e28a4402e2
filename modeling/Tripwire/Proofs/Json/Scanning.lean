import Mathlib.Data.List.Forall2
import Tripwire.Json.Parser
import Tripwire.Json.Printer
import Tripwire.Proofs.Json.Numerals

/-!
# Printed documents are split into their tokens

A token that starts or ends by itself is complete at once, whereas a bare word is complete only where
a letter follows that it cannot hold, or none. In a printed value each bare word is followed by a
comma or a closing bracket, or it is the whole document.
-/

namespace Tripwire.Json

/-- A character, or what is in fact the half of a pair. -/
def Piece.WellFormed : Piece → Prop
  | .letter _ => True
  | .half unit => (isLeading unit || isTrailing unit) = true

/-- A value in which numbers are literals and halves are halves. -/
inductive WellFormed : Json → Prop where
  | null : WellFormed .null
  | boolean (truth : Bool) : WellFormed (.boolean truth)
  | number {literal : List Char} (read : (Numeral.ofLetters? literal).isSome) :
      WellFormed (.number literal)
  | text {pieces : List Piece} (whole : ∀ piece ∈ pieces, piece.WellFormed) :
      WellFormed (.text pieces)
  | array {items : List Json} (each : ∀ item ∈ items, WellFormed item) : WellFormed (.array items)
  | object {entries : List (List Piece × Json)}
      (keys : ∀ entry ∈ entries, ∀ piece ∈ entry.1, piece.WellFormed)
      (each : ∀ entry ∈ entries, WellFormed entry.2) : WellFormed (.object entries)

/-! ## The tokens of a value -/

mutual

/-- The tokens of a value. -/
def tokens : Json → List Token
  | null => [.scalar null]
  | boolean truth => [.scalar (boolean truth)]
  | number literal => [.scalar (number literal)]
  | text pieces => [.scalar (text pieces)]
  | array items => .openArray :: ([.comma].intercalate (tokensOfItems items) ++ [.closeArray])
  | object entries =>
      .openObject :: ([.comma].intercalate (tokensOfEntries entries) ++ [.closeObject])

/-- The tokens of each item. -/
def tokensOfItems : List Json → List (List Token)
  | [] => []
  | first :: rest => first.tokens :: tokensOfItems rest

/-- The tokens of each entry. -/
def tokensOfEntries : List (List Piece × Json) → List (List Token)
  | [] => []
  | (key, value) :: rest =>
      (.scalar (.text key) :: .colon :: value.tokens) :: tokensOfEntries rest

end

/-- The characters of one entry. -/
def entryLetters (entry : List Piece × Json) : List Char :=
  textLetters entry.1 ++ ':' :: entry.2.letters

/-- The tokens of one entry. -/
def entryTokens (entry : List Piece × Json) : List Token :=
  .scalar (.text entry.1) :: .colon :: entry.2.tokens

theorem lettersOfItems_eq_map (items : List Json) : lettersOfItems items = items.map letters := by
  induction items with
  | nil => rw [lettersOfItems, List.map_nil]
  | cons first rest ih => rw [lettersOfItems, ih, List.map_cons]

theorem lettersOfEntries_eq_map (entries : List (List Piece × Json)) :
    lettersOfEntries entries = entries.map entryLetters := by
  induction entries with
  | nil => rw [lettersOfEntries, List.map_nil]
  | cons first rest ih => rw [lettersOfEntries, ih, List.map_cons, entryLetters]

theorem tokensOfItems_eq_map (items : List Json) : tokensOfItems items = items.map tokens := by
  induction items with
  | nil => rw [tokensOfItems, List.map_nil]
  | cons first rest ih => rw [tokensOfItems, ih, List.map_cons]

theorem tokensOfEntries_eq_map (entries : List (List Piece × Json)) :
    tokensOfEntries entries = entries.map entryTokens := by
  induction entries with
  | nil => rw [tokensOfEntries, List.map_nil]
  | cons first rest ih => rw [tokensOfEntries, ih, List.map_cons, entryTokens]

namespace Token

/-! ## Texts -/

section

variable {complete : List Token} {read : List Piece}

theorem digit?_hexDigit (number : Nat) :
    Number.digit? 16 (hexDigit number) = some (number % 16) :=
  Number.digit?_digitChar (Nat.mod_lt number (by decide)) (Nat.le_refl 16)

theorem feed_unit {digits : List Nat} (few : digits.length < 3) (number : Nat) :
    feed ⟨complete, .unit digits read⟩ (hexDigit number) =
      some ⟨complete, .unit (number % 16 :: digits) read⟩ := by
  simp only [feed, digit?_hexDigit, Option.map_some]
  match digits, few with
  | [], _ => rfl
  | [_], _ => rfl
  | [_, _], _ => rfl

theorem feed_unit_last (first second third number : Nat) :
    feed ⟨complete, .unit [third, second, first] read⟩ (hexDigit number) =
      some ⟨complete,
        .text (.ofUnit (Number.ofDigits 16 [first, second, third, number % 16]) :: read)⟩ := by
  simp only [feed, digit?_hexDigit, Option.map_some]

/-- Four digits name the unit that they were written for. -/
theorem foldlM_unit {unit : Nat} (small : unit < 0x10000) :
    (unitLetters unit).foldlM feed ⟨complete, .text read⟩ =
      some ⟨complete, .text (.ofUnit unit :: read)⟩ := by
  have value : Number.ofDigits 16
      [unit / 0x1000 % 16, unit / 0x100 % 16, unit / 0x10 % 16, unit % 16] = unit := by
    simp only [Number.ofDigits, List.foldl_cons, List.foldl_nil]
    omega
  have opened : feed ⟨complete, .text read⟩ '\x5c' = some ⟨complete, .escape read⟩ := rfl
  have named : feed ⟨complete, .escape read⟩ 'u' = some ⟨complete, .unit [] read⟩ := rfl
  rw [unitLetters]
  simp only [List.foldlM_cons, opened, named, Option.bind_eq_bind, Option.bind_some]
  rw [feed_unit (by simp), Option.bind_some, feed_unit (by simp), Option.bind_some,
    feed_unit (by simp), Option.bind_some, feed_unit_last, Option.bind_some, value]
  rfl

/-- What a character is written as inside a text is read as that character. -/
theorem foldlM_char (char : Char) :
    (charLetters char).foldlM feed ⟨complete, .text read⟩ =
      some ⟨complete, .text (.letter char :: read)⟩ := by
  unfold charLetters
  split
  case h_8 notMark notBackslash _ _ _ _ _ =>
    split
    case isTrue control =>
      have plain : Piece.ofUnit char.toNat = .letter char := by
        have notLeading : Piece.isLeading char.toNat = false := by
          rw [Piece.isLeading, Bool.and_eq_false_iff, decide_eq_false_iff_not]
          exact Or.inl (by omega)
        have notTrailing : Piece.isTrailing char.toNat = false := by
          rw [Piece.isTrailing, Bool.and_eq_false_iff, decide_eq_false_iff_not]
          exact Or.inl (by omega)
        rw [Piece.ofUnit, notLeading, notTrailing, Char.ofNat_toNat]
        rfl
      rw [foldlM_unit (Nat.lt_trans control (by decide)), plain]
    case isFalse printed =>
      have apart : ¬char = mark := notMark
      have noEscape : ¬char = backslash := notBackslash
      rw [List.foldlM_cons, feed]
      simp only [apart, noEscape, printed, if_false]
      rfl
  all_goals rfl

theorem foldlM_piece {piece : Piece} (whole : piece.WellFormed) :
    piece.letters.foldlM feed ⟨complete, .text read⟩ =
      some ⟨complete, .text (piece :: read)⟩ := by
  cases piece with
  | letter char => exact foldlM_char char
  | half unit =>
      have isHalf : (Piece.isLeading unit || Piece.isTrailing unit) = true := whole
      have small : unit < 0x10000 := by
        simp only [Piece.isLeading, Piece.isTrailing, Bool.or_eq_true, Bool.and_eq_true,
          decide_eq_true_iff] at isHalf
        omega
      have same : Piece.ofUnit unit = .half unit := if_pos isHalf
      rw [Piece.letters, foldlM_unit small, same]

theorem foldlM_pieces {pieces : List Piece} (whole : ∀ piece ∈ pieces, piece.WellFormed) :
    (pieces.flatMap Piece.letters).foldlM feed ⟨complete, .text read⟩ =
      some ⟨complete, .text (pieces.reverse ++ read)⟩ := by
  induction pieces generalizing read with
  | nil => rfl
  | cons first rest ih =>
      obtain ⟨here, later⟩ := List.forall_mem_cons.1 whole
      rw [List.flatMap_cons, List.foldlM_append, foldlM_piece here, Option.bind_eq_bind,
        Option.bind_some, ih later, List.reverse_cons, List.append_assoc, List.singleton_append]

end

/-! ## Scanning on from complete tokens -/

/-- The tokens of letters that stand after complete ones; latest first. -/
def scanFrom (complete : List Token) (letters : List Char) : Option (List Token) :=
  (letters.foldlM feed ⟨complete, .between⟩).bind close?

theorem scan?_eq (letters : List Char) : scan? letters = (scanFrom [] letters).map List.reverse := by
  unfold scan? scanFrom
  simp only [Option.bind_eq_bind, Option.pure_def]
  rw [Option.map_bind]
  refine congrArg _ (funext fun scan => ?_)
  rw [Function.comp_apply]
  cases close? scan <;> rfl

/-- No bare word goes on into these letters. -/
def Delimited (letters : List Char) : Prop :=
  ∀ letter ∈ letters.head?, endsBare letter = true

/-- Letters that are split into tokens wherever no bare word goes on after them. -/
def Scans (letters : List Char) (tokens : List Token) : Prop :=
  ∀ complete rest, Delimited rest →
    scanFrom complete (letters ++ rest) = scanFrom (tokens.reverse ++ complete) rest

theorem delimited_nil : Delimited [] := by
  intro letter member
  cases member

theorem scans_nil : Scans [] [] :=
  fun _ _ _ => rfl

/-- A character that is a token by itself goes before other letters. -/
theorem Scans.cons_single {letter : Char} {token : Token} {letters : List Char}
    {tokens : List Token} (single : ∀ complete, enter complete letter = ⟨token :: complete, .between⟩)
    (scans : Scans letters tokens) : Scans (letter :: letters) (token :: tokens) := by
  intro complete rest delimited
  have step : scanFrom complete (letter :: letters ++ rest) =
      scanFrom (token :: complete) (letters ++ rest) := by
    rw [scanFrom, List.cons_append, List.foldlM_cons, feed, single]
    rfl
  rw [step, scans _ _ delimited, List.reverse_cons, List.append_assoc, List.singleton_append]

/-- Letters may be followed by others that start with a character that ends bare words. -/
theorem Scans.append {letters others : List Char} {tokens more : List Token}
    (scans : Scans letters tokens) (also : Scans others more)
    (delimited : ∀ rest, Delimited rest → Delimited (others ++ rest)) :
    Scans (letters ++ others) (tokens ++ more) := by
  intro complete rest ends
  rw [List.append_assoc, scans _ _ (delimited rest ends), also _ _ ends, List.reverse_append,
    List.append_assoc]

theorem delimited_cons {letter : Char} (ends : endsBare letter = true) (letters rest : List Char) :
    Delimited (letter :: letters ++ rest) := by
  intro other member
  cases member
  exact ends

theorem scans_text {pieces : List Piece} (whole : ∀ piece ∈ pieces, piece.WellFormed) :
    Scans (textLetters pieces) [.scalar (.text pieces)] := by
  intro complete rest _
  have opened : feed ⟨complete, .between⟩ '\x22' = some ⟨complete, .text []⟩ := rfl
  have closed : feed ⟨complete, .text pieces.reverse⟩ '\x22' =
      some ⟨.scalar (.text pieces) :: complete, .between⟩ := by
    change some (Scan.mk (.scalar (.text pieces.reverse.reverse) :: complete) .between) = _
    rw [List.reverse_reverse]
  rw [scanFrom, textLetters, List.cons_append, List.foldlM_cons, opened, Option.bind_eq_bind,
    Option.bind_some, List.append_assoc, List.foldlM_append, foldlM_pieces whole,
    Option.bind_eq_bind, Option.bind_some, List.append_nil, List.singleton_append,
    List.foldlM_cons, closed]
  rfl

/-! ## Bare words -/

/-- The letters of a bare word are taken in one after the other. -/
theorem foldlM_bare {complete : List Token} {letters read : List Char}
    (plain : letters.any endsBare = false) :
    letters.foldlM feed ⟨complete, .bare read⟩ =
      some ⟨complete, .bare (letters.reverse ++ read)⟩ := by
  induction letters generalizing read with
  | nil => rfl
  | cons first rest ih =>
      obtain ⟨here, later⟩ := Bool.or_eq_false_iff.1 plain
      have step : feed ⟨complete, .bare read⟩ first = some ⟨complete, .bare (first :: read)⟩ := by
        simp only [feed, here, Bool.false_eq_true, if_false]
      rw [List.foldlM_cons, step, Option.bind_eq_bind, Option.bind_some, ih later,
        List.reverse_cons, List.append_assoc, List.singleton_append]

theorem enter_of_plain (complete : List Token) {letter : Char} (plain : endsBare letter = false) :
    enter complete letter = ⟨complete, .bare [letter]⟩ := by
  rw [endsBare, Bool.or_eq_false_iff, Bool.or_eq_false_iff, beq_eq_false_iff_ne,
    Option.isSome_eq_false_iff, Option.isNone_iff_eq_none] at plain
  obtain ⟨⟨noBlank, noMark⟩, noToken⟩ := plain
  rw [enter, noBlank, if_neg Bool.false_ne_true, if_neg noMark, noToken]

/-- A bare word is complete where it does not go on. -/
theorem scans_bare {literal : List Char} {value : Json} (nonempty : literal ≠ [])
    (plain : literal.any endsBare = false) (means : bareValue? literal = some value) :
    Scans literal [.scalar value] := by
  intro complete rest delimited
  obtain ⟨first, others, rfl⟩ := List.exists_cons_of_ne_nil nonempty
  obtain ⟨here, later⟩ := Bool.or_eq_false_iff.1 plain
  have whole : (first :: others).foldlM feed ⟨complete, .between⟩ =
      some ⟨complete, .bare (first :: others).reverse⟩ := by
    rw [List.foldlM_cons, feed, enter_of_plain complete here, Option.bind_eq_bind,
      Option.bind_some, foldlM_bare later, List.reverse_cons]
  have closed : close? ⟨complete, .bare (first :: others).reverse⟩ =
      some (.scalar value :: complete) := by
    simp only [close?, List.reverse_reverse, means, Option.map_some]
  rw [scanFrom, List.foldlM_append, whole, Option.bind_eq_bind, Option.bind_some]
  cases rest with
  | nil => exact closed
  | cons next rest =>
      have ends : endsBare next = true := delimited next rfl
      have step : feed ⟨complete, .bare (first :: others).reverse⟩ next =
          some (enter (.scalar value :: complete) next) := by
        simp only [feed, ends, if_true, closed, Option.map_some]
      rw [List.foldlM_cons, step]
      rfl

theorem endsBare_of_mayHold_ascii :
    ∀ code : Fin 128, Numeral.mayHold (Char.ofNat code) = true →
      endsBare (Char.ofNat code) = false := by
  decide

theorem toNat_lt_of_mayHold {letter : Char} (holds : Numeral.mayHold letter = true) :
    letter.toNat < 128 := by
  rcases Bool.or_eq_true_iff.1 holds with isDigit | among
  · exact Nat.lt_of_le_of_lt (Char.isDigit_iff_toNat.1 isDigit).2 (by decide)
  · have each : ['-', '+', '.', 'e', 'E'].all (·.toNat < 128) = true := rfl
    exact of_decide_eq_true (List.all_eq_true.1 each letter (List.contains_iff_mem.1 among))

/-- No letter of a literal ends a bare word. -/
theorem endsBare_of_mayHold {letter : Char} (holds : Numeral.mayHold letter = true) :
    endsBare letter = false := by
  have code := endsBare_of_mayHold_ascii ⟨letter.toNat, toNat_lt_of_mayHold holds⟩
  rw [Char.ofNat_toNat] at code
  exact code holds

theorem bareValue?_number {literal : List Char} (read : (Numeral.ofLetters? literal).isSome) :
    bareValue? literal = some (.number literal) := by
  have noWord : ∀ word ∈ ["null", "true", "false"], String.ofList literal ≠ word := by
    intro word member same
    rw [← String.toList_inj, String.toList_ofList] at same
    have none : ∀ word ∈ ["null", "true", "false"],
        (Numeral.ofLetters? word.toList).isSome = false := by decide
    rw [same, none word member] at read
    cases read
  obtain ⟨numeral, found⟩ := Option.isSome_iff_exists.1 read
  unfold bareValue?
  split
  case h_1 same => exact absurd same (noWord "null" (by decide))
  case h_2 same => exact absurd same (noWord "true" (by decide))
  case h_3 same => exact absurd same (noWord "false" (by decide))
  case h_4 => rw [found, Option.map_some]

theorem scans_number {literal : List Char} (read : (Numeral.ofLetters? literal).isSome) :
    Scans literal [.scalar (.number literal)] := by
  obtain ⟨nonempty, holds⟩ := Numeral.mayHold_of_ofLetters? read
  have plain : literal.any endsBare = false := by
    refine List.any_eq_false.2 fun letter member => ?_
    rw [endsBare_of_mayHold (holds letter member)]
    exact Bool.false_ne_true
  exact scans_bare nonempty plain (bareValue?_number read)

/-! ## Whole values -/

theorem scans_intercalate {letters : List (List Char)} {tokens : List (List Token)}
    (each : List.Forall₂ Scans letters tokens) :
    Scans ([','].intercalate letters) ([.comma].intercalate tokens) := by
  induction each with
  | nil => exact scans_nil
  | @cons first firstTokens rest restTokens here each ih =>
      cases each with
      | nil => simpa [List.intercalate] using here
      | cons next each =>
          have separated : Scans (',' :: [','].intercalate _) (.comma :: [.comma].intercalate _) :=
            ih.cons_single fun _ => rfl
          have joined := here.append separated fun rest _ => delimited_cons rfl _ rest
          simpa [List.intercalate] using joined

theorem Scans.enclose {letters : List Char} {tokens : List Token} {opening closing : Char}
    {opens closes : Token} (scans : Scans letters tokens)
    (opened : ∀ complete, enter complete opening = ⟨opens :: complete, .between⟩)
    (closed : ∀ complete, enter complete closing = ⟨closes :: complete, .between⟩)
    (ends : endsBare closing = true) :
    Scans (opening :: (letters ++ [closing])) (opens :: (tokens ++ [closes])) := by
  have last : Scans [closing] [closes] := scans_nil.cons_single closed
  exact (scans.append last fun rest _ => delimited_cons ends _ rest).cons_single opened

theorem scans_entry {entry : List Piece × Json} (whole : ∀ piece ∈ entry.1, piece.WellFormed)
    (value : Scans entry.2.letters entry.2.tokens) :
    Scans (entryLetters entry) (entryTokens entry) := by
  have after : Scans (':' :: entry.2.letters) (.colon :: entry.2.tokens) :=
    value.cons_single fun _ => rfl
  exact (scans_text whole).append after fun rest _ => delimited_cons rfl _ rest

/-- A printed value is split into its tokens. -/
theorem scans_letters {json : Json} (wellFormed : json.WellFormed) :
    Scans json.letters json.tokens := by
  induction wellFormed with
  | null => exact scans_bare (List.cons_ne_nil _ _) rfl rfl
  | boolean truth =>
      cases truth with
      | true => exact scans_bare (List.cons_ne_nil _ _) rfl rfl
      | false => exact scans_bare (List.cons_ne_nil _ _) rfl rfl
  | number read => exact scans_number read
  | text whole => exact scans_text whole
  | array each ih =>
      rw [letters, tokens, lettersOfItems_eq_map, tokensOfItems_eq_map]
      refine (scans_intercalate ?_).enclose (fun _ => rfl) (fun _ => rfl) rfl
      rw [List.forall₂_map_left_iff, List.forall₂_map_right_iff, List.forall₂_same]
      exact ih
  | object keys each ih =>
      rw [letters, tokens, lettersOfEntries_eq_map, tokensOfEntries_eq_map]
      refine (scans_intercalate ?_).enclose (fun _ => rfl) (fun _ => rfl) rfl
      rw [List.forall₂_map_left_iff, List.forall₂_map_right_iff, List.forall₂_same]
      exact fun entry member => scans_entry (keys entry member) (ih entry member)

theorem scan?_letters {json : Json} (wellFormed : json.WellFormed) :
    scan? json.letters = some json.tokens := by
  have scanned := scans_letters wellFormed [] [] delimited_nil
  rw [List.append_nil, List.append_nil] at scanned
  rw [scan?_eq, scanned]
  exact congrArg some (List.reverse_reverse json.tokens)

end Token

end Tripwire.Json
