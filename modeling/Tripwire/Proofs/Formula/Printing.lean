import Tripwire.Proofs.Expr.Acceptance
import Tripwire.Proofs.Formula.Checking
import Tripwire.Proofs.Token.Lexemes

/-!
# Printed formulas are read back

The formula of a text is legible: its fields stand without quotes, its groups have members and are
not too deep, and every literal is read again from what is written of it, but for the sign of what
is no number. Legible is also what differs from it in the order of members only. The text of a
legible formula is read as the formula itself if no such sign is lost, and as one that means the
same in any case.
-/

namespace Tripwire

open Token

/-! ## Legible formulas -/

namespace Predicate

/-- The test that the text of a test is read as. -/
def asWritten (predicate : Predicate) : Predicate :=
  { predicate with literal := predicate.literal.asWritten }

theorem test_asWritten (predicate : Predicate) : predicate.asWritten.test = predicate.test := by
  funext value
  exact value.compare?_asWritten predicate.operator predicate.literal

/-- A test that can be told from its text. -/
structure Legible (sensors : Sensors) (predicate : Predicate) : Prop where
  field : IsBare predicate.field.toList
  literal : ∃ type, sensors.type? predicate.sensor predicate.field = some type ∧
    type.read? (String.ofList predicate.literal.contents) = some predicate.literal.asWritten

end Predicate

namespace Formula

mutual

/-- The formula that the text of a formula is read as. -/
def asWritten : Formula → Formula
  | test predicate => test predicate.asWritten
  | group junction members => group junction (membersAsWritten members)

/-- What each member is read as. -/
def membersAsWritten : List Formula → List Formula
  | [] => []
  | first :: rest => first.asWritten :: membersAsWritten rest

end

theorem membersAsWritten_eq_map (members : List Formula) :
    membersAsWritten members = members.map asWritten := by
  induction members with
  | nil => rfl
  | cons first rest ih => rw [membersAsWritten, ih, List.map_cons]

theorem lettersOfMembers_eq_map (members : List Formula) :
    lettersOfMembers members = members.map letters := by
  induction members with
  | nil => rfl
  | cons first rest ih => rw [lettersOfMembers, ih, List.map_cons]

/-- What a text is read as has that text again. -/
theorem letters_asWritten (formula : Formula) : formula.asWritten.letters = formula.letters := by
  induction formula using Formula.induction with
  | test predicate =>
      rw [asWritten, letters, letters, Predicate.letters, Predicate.letters, Predicate.asWritten,
        Value.letters_asWritten]
  | group junction members ih =>
      rw [asWritten, letters, letters, lettersOfMembers_eq_map, lettersOfMembers_eq_map,
        membersAsWritten_eq_map, List.map_map]
      congr 4
      exact List.map_congr_left ih

/-- A formula means what its text means. -/
theorem holds_asWritten {truth : Predicate → Bool}
    (blind : ∀ predicate, truth predicate.asWritten = truth predicate) (formula : Formula) :
    formula.asWritten.holds truth = formula.holds truth := by
  induction formula using Formula.induction with
  | test predicate => exact blind predicate
  | group junction members ih =>
      rw [asWritten, holds, holds, statuses_eq_map, statuses_eq_map, membersAsWritten_eq_map,
        List.map_map]
      congr 1
      exact List.map_congr_left ih

/-- A formula that can be told from its text, enclosed by so many groups. -/
inductive Legible (sensors : Sensors) : (depth : Nat) → Formula → Prop where
  | test {depth : Nat} {predicate : Predicate} (within : depth < Expr.depthLimit)
      (legible : predicate.Legible sensors) : Legible sensors depth (.test predicate)
  | group {depth : Nat} {junction : Junction} {members : List Formula}
      (within : depth < Expr.depthLimit) (nonempty : members ≠ [])
      (each : ∀ member ∈ members, Legible sensors (depth + 1) member) :
      Legible sensors depth (.group junction members)

/-- The order of members does not matter. -/
theorem Legible.of_canonical_eq {sensors : Sensors} {depth : Nat} {formula other : Formula}
    (legible : formula.Legible sensors depth) (same : other.canonical = formula.canonical) :
    other.Legible sensors depth := by
  induction legible generalizing other with
  | test within legible =>
      rw [eq_test_of_canonical_eq same]
      exact .test within legible
  | @group depth junction members within nonempty each ih =>
      cases other with
      | test predicate => exact absurd same canonical_test_ne_group
      | group joined others =>
          obtain ⟨rfl, forms⟩ := canonical_group_inj.1 same
          refine .group within ?_ fun counterpart isMember => ?_
          · rintro rfl
            exact nonempty (List.map_eq_nil_iff.1 (List.nil_perm.1 forms))
          · obtain ⟨member, among, alike⟩ :=
              List.mem_map.1 (forms.mem_iff.1 (List.mem_map_of_mem isMember))
            exact ih member among alike.symm

/-- A formula that can be told inside of others can be told inside of fewer. -/
theorem Legible.mono {sensors : Sensors} {depth shallower : Nat} {formula : Formula}
    (legible : formula.Legible sensors depth) (fewer : shallower ≤ depth) :
    formula.Legible sensors shallower := by
  induction legible generalizing shallower with
  | test within legible => exact .test (Nat.lt_of_le_of_lt fewer within) legible
  | group within nonempty each ih =>
      exact .group (Nat.lt_of_le_of_lt fewer within) nonempty fun member among =>
        ih member among (Nat.succ_le_succ fewer)

theorem Legible.exists_part {sensors : Sensors} {depth : Nat} {formula : Formula}
    (legible : formula.Legible sensors depth) {part : Formula} (member : part ∈ formula.parts) :
    ∃ deeper, part.Legible sensors deeper := by
  induction legible with
  | @test depth predicate within legible =>
      rw [List.mem_singleton.1 member]
      exact ⟨depth, .test within legible⟩
  | @group depth junction members within nonempty each ih =>
      rw [parts, List.mem_cons, mem_partsOfMembers] at member
      rcases member with rfl | ⟨inner, among, inside⟩
      · exact ⟨depth, .group within nonempty each⟩
      · exact ih inner among inside

/-- Without a test that holds nothing does. -/
theorem Legible.holds_eq_false {sensors : Sensors} {depth : Nat} {formula : Formula}
    (legible : formula.Legible sensors depth) : formula.holds (fun _ => false) = false := by
  induction legible with
  | test => rfl
  | @group depth junction members within nonempty each ih =>
      have statuses : members.map (holds fun _ => false) =
          List.replicate members.length false := by
        rw [List.eq_replicate_iff, List.length_map]
        exact ⟨rfl, List.forall_mem_map.2 ih⟩
      have some : members.length ≠ 0 := fun none => nonempty (List.length_eq_zero_iff.1 none)
      rw [holds, statuses_eq_map, statuses]
      cases junction with
      | all => simp [Junction.combine, List.all_replicate, some]
      | any => simp [Junction.combine, List.any_replicate, some]

/-! ## What was read is legible -/

/-- No literal is lost by writing it. -/
def Signed (formula : Formula) : Prop :=
  ∀ predicate ∈ formula.predicates, predicate.literal.isNegativeNan = false

instance decidableSigned (formula : Formula) : Decidable formula.Signed :=
  inferInstanceAs (Decidable (∀ predicate ∈ formula.predicates, _))

theorem Signed.member {junction : Junction} {members : List Formula}
    (signed : (group junction members).Signed) {member : Formula} (among : member ∈ members) :
    member.Signed :=
  fun predicate inside => signed predicate (mem_predicates_of_member among inside)

theorem asWritten_of_signed {formula : Formula} (signed : formula.Signed) :
    formula.asWritten = formula := by
  induction formula using Formula.induction with
  | test predicate =>
      have kept := Value.asWritten_of_signed
        (signed predicate (mem_predicates.2 (mem_parts_self _)))
      rw [asWritten, Predicate.asWritten, kept]
  | group junction members ih =>
      rw [asWritten, membersAsWritten_eq_map, List.map_congr_left fun member among =>
        ih member among (signed.member among), List.map_id']

/-- The words among the tokens are bare. -/
def BareWords (tokens : List Token) : Prop :=
  ∀ token ∈ tokens, token.kind = .word → IsBare token.text.toList

theorem BareWords.of_append {tokens others : List Token} (bare : BareWords (tokens ++ others)) :
    BareWords tokens ∧ BareWords others :=
  ⟨fun token member => bare token (List.mem_append_left _ member),
    fun token member => bare token (List.mem_append_right _ member)⟩

variable {sensors : Sensors}

mutual

theorem legible_of_written {depth : Nat} {scope : Option SensorId} {tokens : List Token}
    {expr : Expr} (written : Expr.Written depth scope tokens expr) (bare : BareWords tokens)
    {formula : Formula} (checked : ofExpr sensors expr = .ok formula) :
    formula.Legible sensors depth := by
  cases written with
  | plain within body => exact legible_of_body body within bare checked
  | withScope within scope body => exact legible_of_body body within bare.of_append.2 checked

theorem legible_of_body {depth : Nat} {scope : Option SensorId} {tokens : List Token}
    {expr : Expr} (written : Expr.WrittenBody depth scope tokens expr)
    (within : depth < Expr.depthLimit) (bare : BareWords tokens) {formula : Formula}
    (checked : ofExpr sensors expr = .ok formula) : formula.Legible sensors depth := by
  cases written with
  | @test _ sensor operator head opening field comma literal closing _ _ fieldKind _ _ _ =>
      obtain ⟨predicate, tested, rfl⟩ := ofExpr_test_eq_ok.1 checked
      obtain ⟨type, value, declared, read, rfl⟩ := Predicate.ofTest_eq_ok.1 tested
      exact .test within ⟨bare field (by simp) fieldKind, type, declared,
        Value.read?_contents read⟩
  | @group _ scope junction head opening closing tokens members _ _ inside _ =>
      obtain ⟨formulas, each, rfl⟩ := ofExpr_group_eq_ok.1 checked
      have within_group : BareWords tokens := by
        intro token member
        exact bare token (.tail _ (.tail _ (List.mem_append_left _ member)))
      obtain ⟨nonempty, legible⟩ := legible_of_members inside within_group each
      exact .group within nonempty legible

theorem legible_of_members {depth : Nat} {scope : Option SensorId} {tokens : List Token}
    {exprs : List Expr} (written : Expr.WrittenMembers depth scope tokens exprs)
    (bare : BareWords tokens) {members : List Formula}
    (checked : List.Forall₂ (fun expr formula => ofExpr sensors expr = .ok formula) exprs
      members) :
    members ≠ [] ∧ ∀ member ∈ members, member.Legible sensors depth := by
  cases written with
  | one member =>
      obtain ⟨first, rest, here, others, rfl⟩ := List.forall₂_cons_left_iff.1 checked
      cases others
      have legible := legible_of_written member bare here
      exact ⟨List.cons_ne_nil _ _, List.forall_mem_singleton.2 legible⟩
  | more member commaKind others =>
      obtain ⟨first, rest, here, later, rfl⟩ := List.forall₂_cons_left_iff.1 checked
      obtain ⟨bareFirst, bareRest⟩ := bare.of_append
      have legible := legible_of_written member bareFirst here
      have remaining := legible_of_members others
        (fun token among => bareRest token (.tail _ among)) later
      exact ⟨List.cons_ne_nil _ _, List.forall_mem_cons.2 ⟨legible, remaining.2⟩⟩

end

/-- The formula of a text is legible. -/
theorem legible_of_parse {text : String} {expr : Expr} {formula : Formula}
    (parsed : Expr.parse text = .ok expr) (checked : ofExpr sensors expr = .ok formula) :
    formula.Legible sensors 0 := by
  obtain ⟨tokens, scanned, accepted⟩ := bind_eq_ok.1 parsed
  obtain ⟨prior, marker, rest, rfl, _, written⟩ := Expr.written_of_ofTokens accepted
  have bare : BareWords (prior ++ marker :: rest) := isBare_of_scan scanned
  exact legible_of_written written bare.of_append.1 checked

/-! ## What is legible is read -/

/-- Characters that are scanned to tokens which write the formula under any scope. -/
def Spells (sensors : Sensors) (depth : Nat) (letters : List Char) (formula : Formula) : Prop :=
  ∃ lexemes, Lexes letters lexemes ∧ ∀ tokens, tokens.map lexeme = lexemes → ∀ scope,
    ∃ expr, Expr.Written depth scope tokens expr ∧ ofExpr sensors expr = .ok formula

theorem exists_token_of_lexemes {tokens : List Token} {kind : Token.Kind} {text : List Char}
    {lexemes : List (Token.Kind × List Char)}
    (same : tokens.map lexeme = (kind, text) :: lexemes) :
    ∃ token rest, tokens = token :: rest ∧ token.kind = kind ∧ token.text = String.ofList text ∧
      rest.map lexeme = lexemes := by
  obtain ⟨token, rest, rfl, here, others⟩ := List.map_eq_cons_iff.1 same
  cases here
  exact ⟨token, rest, rfl, rfl, String.ofList_toList.symm, others⟩

/-- A literal stands before a parenthesis, as a word or quoted. -/
theorem lexes_literal (value : Value) :
    ∃ kind, (kind = .word ∨ kind = .quoted) ∧
      Lexes (value.letters ++ [')']) [(kind, value.contents), (.closeParen, [')'])] := by
  rcases value.letters_cases with ⟨same, bare⟩ | same
  · rw [same]
    exact ⟨.word, .inl rfl, lexes_word bare rfl⟩
  · rw [same]
    exact ⟨.quoted, .inr rfl, (lexes_quote _).append (lexes_single rfl)⟩

theorem writtenScope_of_lexemes {tokens : List Token} {id : SensorId}
    (same : tokens.map lexeme =
      [(.openBracket, ['[']), (.word, Number.digitsOf 10 id.toNat), (.closeBracket, [']'])]) :
    Expr.WrittenScope tokens id := by
  obtain ⟨opening, tokens, rfl, openingKind, _, same⟩ := exists_token_of_lexemes same
  obtain ⟨word, tokens, rfl, wordKind, wordText, same⟩ := exists_token_of_lexemes same
  obtain ⟨closing, tokens, rfl, closingKind, _, same⟩ := exists_token_of_lexemes same
  rw [List.map_eq_nil_iff.1 same]
  have reads : Number.unsigned? 10 32 word.text.toList = some id.toNat := by
    rw [wordText, String.toList_ofList]
    exact Number.unsigned?_digitsOf (by decide) (by decide) id.toNat_lt
  have scope := Expr.WrittenScope.intro openingKind wordKind reads closingKind
  rwa [UInt32.ofNat_toNat] at scope

theorem spells_test {depth : Nat} {predicate : Predicate} (within : depth < Expr.depthLimit)
    (legible : predicate.Legible sensors) :
    Spells sensors depth predicate.letters (.test predicate.asWritten) := by
  obtain ⟨bare, type, declared, read⟩ := legible
  obtain ⟨kind, isLiteral, ending⟩ := lexes_literal predicate.literal
  have digits : IsBare (Number.digitsOf 10 predicate.sensor.toNat) :=
    isBare_digitsOf (by decide) (by decide) _
  have opens : Lexes ['['] [(.openBracket, ['['])] := lexes_single rfl
  have scope : Lexes ('[' :: (Number.digitsOf 10 predicate.sensor.toNat ++ [']']))
      [(.openBracket, ['[']), (.word, Number.digitsOf 10 predicate.sensor.toNat),
        (.closeBracket, [']'])] := opens.append (lexes_word digits rfl)
  have sides : Lexes (predicate.field.toList ++ [','])
      [(.word, predicate.field.toList), (.comma, [','])] := lexes_word bare rfl
  have body := (lexes_operator predicate.operator).append (sides.append ending)
  have split : predicate.letters = ('[' :: (Number.digitsOf 10 predicate.sensor.toNat ++ [']'])) ++
      (predicate.operator.symbol.toList ++ ['('] ++ (predicate.field.toList ++ [','] ++
        (predicate.literal.letters ++ [')']))) := by
    simp [Predicate.letters]
  refine ⟨_, split ▸ scope.append body, fun tokens same inherited => ?_⟩
  obtain ⟨prior, rest, rfl, before, same⟩ := List.map_eq_append_iff.1 same
  obtain ⟨head, rest, rfl, headKind, _, same⟩ := exists_token_of_lexemes same
  obtain ⟨opening, rest, rfl, openingKind, _, same⟩ := exists_token_of_lexemes same
  obtain ⟨field, rest, rfl, fieldKind, fieldText, same⟩ := exists_token_of_lexemes same
  obtain ⟨comma, rest, rfl, commaKind, _, same⟩ := exists_token_of_lexemes same
  obtain ⟨literal, rest, rfl, literalKind, literalText, same⟩ := exists_token_of_lexemes same
  obtain ⟨closing, rest, rfl, closingKind, _, same⟩ := exists_token_of_lexemes same
  rw [List.map_eq_nil_iff.1 same]
  refine ⟨_, .withScope within (writtenScope_of_lexemes before) (.test headKind openingKind
    fieldKind commaKind (literalKind ▸ isLiteral) closingKind), ?_⟩
  rw [String.ofList_toList] at fieldText
  refine ofExpr_test_eq_ok.2 ⟨predicate.asWritten, Predicate.ofTest_eq_ok.2
    ⟨type, predicate.literal.asWritten, ?_, ?_, ?_⟩, rfl⟩
  · rw [fieldText]
    exact declared
  · rw [literalText]
    exact read
  · rw [fieldText, Predicate.asWritten]

theorem spells_members {depth : Nat} {members : List Formula} (nonempty : members ≠ [])
    (each : ∀ member ∈ members, Spells sensors depth member.letters member.asWritten) :
    ∃ lexemes, Lexes ([','].intercalate (lettersOfMembers members)) lexemes ∧
      ∀ tokens, tokens.map lexeme = lexemes → ∀ scope, ∃ exprs,
        Expr.WrittenMembers depth scope tokens exprs ∧
          List.Forall₂ (fun expr formula => ofExpr sensors expr = .ok formula) exprs
            (members.map asWritten) := by
  induction members with
  | nil => exact absurd rfl nonempty
  | cons first rest ih =>
      obtain ⟨lexemes, lexes, writes⟩ := each first (.head _)
      cases rest with
      | nil =>
          refine ⟨lexemes, by simpa [lettersOfMembers] using lexes, fun tokens same scope => ?_⟩
          obtain ⟨expr, written, checked⟩ := writes tokens same scope
          exact ⟨[expr], .one written, .cons checked .nil⟩
      | cons second others =>
          obtain ⟨more, alsoLexes, alsoWrites⟩ := ih (List.cons_ne_nil _ _)
            fun member among => each member (.tail _ among)
          have comma : Lexes [','] [(.comma, [','])] := lexes_single rfl
          refine ⟨lexemes ++ ([(.comma, [','])] ++ more), ?_, fun tokens same scope => ?_⟩
          · have whole := lexes.append (comma.append alsoLexes)
            simpa [lettersOfMembers, List.intercalate] using whole
          · obtain ⟨before, after, rfl, here, same⟩ := List.map_eq_append_iff.1 same
            obtain ⟨separator, after, rfl, isComma, _, same⟩ := exists_token_of_lexemes same
            obtain ⟨expr, written, checked⟩ := writes before here scope
            obtain ⟨exprs, alsoWritten, alsoChecked⟩ := alsoWrites after same scope
            exact ⟨expr :: exprs, .more written isComma alsoWritten, .cons checked alsoChecked⟩

theorem lexes_junction (junction : Junction) :
    Lexes junction.symbol.toList [(.junction junction, junction.symbol.toList)] := by
  cases junction with
  | all => exact lexes_single rfl
  | any => exact lexes_single rfl

theorem Legible.spells {depth : Nat} {formula : Formula}
    (legible : formula.Legible sensors depth) :
    Spells sensors depth formula.letters formula.asWritten := by
  induction legible with
  | test within legible =>
      rw [letters, asWritten]
      exact spells_test within legible
  | @group depth junction members within nonempty each ih =>
      obtain ⟨lexemes, lexes, writes⟩ := spells_members nonempty ih
      have opens : Lexes ['('] [(.openParen, ['('])] := lexes_single rfl
      have closes : Lexes [')'] [(.closeParen, [')'])] := lexes_single rfl
      have whole := (lexes_junction junction).append (opens.append (lexes.append closes))
      have split : (Formula.group junction members).letters = junction.symbol.toList ++
          (['('] ++ ([','].intercalate (lettersOfMembers members) ++ [')'])) := by
        simp [letters]
      refine ⟨_, split ▸ whole, fun tokens same scope => ?_⟩
      obtain ⟨head, rest, rfl, headKind, _, same⟩ := exists_token_of_lexemes same
      obtain ⟨opening, rest, rfl, openingKind, _, same⟩ := exists_token_of_lexemes same
      change rest.map lexeme = lexemes ++ [(.closeParen, [')'])] at same
      obtain ⟨inside, rest, rfl, between, same⟩ := List.map_eq_append_iff.1 same
      obtain ⟨closing, rest, rfl, closingKind, _, same⟩ := exists_token_of_lexemes same
      rw [List.map_eq_nil_iff.1 same]
      obtain ⟨exprs, written, checked⟩ := writes inside between scope
      exact ⟨_, .plain within (.group headKind openingKind written closingKind),
        ofExpr_group_eq_ok.2 ⟨_, checked, by rw [asWritten, membersAsWritten_eq_map]⟩⟩

/-- The text of a legible formula is read as the formula, but for signs that are lost. -/
theorem Legible.parse_print {formula : Formula} (legible : formula.Legible sensors 0) :
    ∃ expr, Expr.parse formula.print = .ok expr ∧
      ofExpr sensors expr = .ok formula.asWritten := by
  obtain ⟨lexemes, lexes, writes⟩ := legible.spells
  obtain ⟨tokens, marker, same, markerKind, scanned⟩ := lexes.scan
  obtain ⟨expr, written, checked⟩ := writes tokens same none
  refine ⟨expr, ?_, checked⟩
  unfold Expr.parse print
  rw [scanned]
  exact Expr.ofTokens_of_written written markerKind

/-- Formulas have one text exactly if they differ in nothing but signs that are lost. -/
theorem Legible.print_eq_iff {formula other : Formula} (legible : formula.Legible sensors 0)
    (also : other.Legible sensors 0) :
    formula.print = other.print ↔ formula.asWritten = other.asWritten := by
  constructor
  · intro same
    obtain ⟨expr, parsed, checked⟩ := legible.parse_print
    obtain ⟨twin, alsoParsed, alsoChecked⟩ := also.parse_print
    rw [same, alsoParsed, Except.ok.injEq] at parsed
    rw [← parsed, alsoChecked, Except.ok.injEq] at checked
    exact checked.symm
  · intro same
    rw [print, print, ← formula.letters_asWritten, same, other.letters_asWritten]

end Formula

end Tripwire
