import Tripwire.Proofs.Expr.Nesting
import Tripwire.Proofs.Expr.Spacing
import Tripwire.Proofs.Formula.Printing

/-!
# Spans delimit their sources

What stands in the span of a test is read as that test again under the scope of its sensor. A field
and an unquoted literal are what stands in their spans, and the leaves that a stack visits are the
tests of the expression in the order of theirs.
-/

namespace Tripwire

/-- The characters are what stands in the span. -/
def Span.Delimits (span : Span) (letters inside : List Char) : Prop :=
  Text.slice? letters span.start span.stop = some inside

/-- The text of characters under the scope of a sensor. -/
def SensorId.scopeOver (sensor : SensorId) (source : List Char) : String :=
  String.ofList ('[' :: (Number.digitsOf 10 sensor.toNat ++ ']' :: source))

open Token

/-! ## A part under a scope of its own -/

/-- Characters keep their tokens after the scope that is put before them. -/
theorem Token.exists_scan_scoped {source : List Char} {offset : Nat} {tokens : List Token}
    (tiles : Tiles offset source tokens) (sensor : SensorId) :
    ∃ front others, scan (sensor.scopeOver source) = .ok (front ++ others) ∧
      Expr.WrittenScope front sensor ∧ others.map lexeme = tokens.map lexeme := by
  let digits := Number.digitsOf 10 sensor.toNat
  have bare : IsBare digits := isBare_digitsOf (by decide) (by decide) _
  have opening : Lexeme .openBracket ['['] ['['] := .symbol rfl
  have closing : Lexeme .closeBracket [']'] [']'] := .symbol rfl
  have follows : MayPrecede .word ([']'] ++ source) := by
    intro letter next
    cases next
    rfl
  obtain ⟨others, moved, same⟩ := tiles.moved
    (0 + Text.byteLength ['['] + Text.byteLength digits + Text.byteLength [']'])
  have whole : Tiles 0 (['['] ++ (digits ++ ([']'] ++ source))) _ :=
    .lexeme opening trivial
      (.lexeme (.word bare.nonempty bare.inside) follows (.lexeme closing trivial moved))
  refine ⟨[_, _, _], others, whole.scan_ofList, Formula.writtenScope_of_lexemes ?_, same⟩
  simp [lexeme, digits]

theorem exists_of_unplacedResult {α : Type} {unplaced : α → α} {result : Except Error α} {value : α}
    (same : unplacedResult unplaced result = .ok value) :
    ∃ found, result = .ok found ∧ unplaced found = value := by
  cases result with
  | ok found => exact ⟨found, rfl, Except.ok.inj same⟩
  | error error => cases same

namespace Expr

/-- What writes a part is read as it under a scope of its own. -/
theorem exists_parse_scoped {source : List Char} {offset : Nat} {body : List Token}
    {marker : Token} {sensor : SensorId} {expr : Expr}
    (tiles : Tiles offset source (body ++ [marker])) (markerKind : marker.kind = .finish)
    (written : WrittenBody 0 (some sensor) body expr) :
    ∃ other, parse (sensor.scopeOver source) = .ok other ∧ other.unplaced = expr.unplaced := by
  obtain ⟨front, others, scanned, scope, same⟩ := exists_scan_scoped tiles sensor
  have whole : ofTokens ((front ++ body) ++ [marker]) = .ok expr :=
    ofTokens_of_written (.withScope (by decide) scope written) markerKind
  have alike : (front ++ others).map lexeme = ((front ++ body) ++ [marker]).map lexeme := by
    rw [List.append_assoc, List.map_append, List.map_append, same]
  have congr := ofTokens_congr alike
  rw [whole] at congr
  rw [parse, scanned]
  exact exists_of_unplacedResult congr

end Expr

/-! ## Tests in their text -/

/-- The spans of a test delimit it and its parts in a text. -/
structure WrittenTest.Sourced (letters : List Char) (test : WrittenTest) : Prop where
  source : ∃ source other, test.span.Delimits letters source ∧
    Expr.parse (test.sensor.scopeOver source) = .ok (.test other) ∧ other.unplaced = test.unplaced
  field : test.fieldSpan.Delimits letters test.field.toList
  literal : test.literal.quoted = false →
    test.literal.span.Delimits letters test.literal.text.toList
  fieldWithin : test.fieldSpan.Within test.span
  literalWithin : test.literal.span.Within test.span
  ordered : test.fieldSpan.Before test.literal.span

namespace Expr

variable {depth : Nat} {scope : Option SensorId} {earlier own later : List Token}
  {letters : List Char}

/-- A test that tokens of a text write is read again from where they stand. -/
theorem WrittenBody.exists_source {leaf : WrittenTest}
    (written : WrittenBody depth scope own (.test leaf))
    (tiles : Tiles 0 letters (earlier ++ own ++ later)) :
    ∃ source other, leaf.span.Delimits letters source ∧
      parse (leaf.sensor.scopeOver source) = .ok (.test other) ∧
        other.unplaced = leaf.unplaced := by
  cases written with
  | @test _ sensor operator head opening field comma literal closing headKind openingKind
      fieldKind commaKind literalKind closingKind =>
      let middle := [opening, field, comma, literal]
      have standing : Tiles 0 letters (earlier ++ (head :: (middle ++ [closing])) ++ later) := tiles
      obtain ⟨source, delimits, tiled⟩ := standing.exists_slice (by simp [closingKind])
      -- By itself a test is enclosed by nothing, however deep it stands in the text.
      obtain ⟨other, parsed, same⟩ := exists_parse_scoped tiled rfl
        (.test headKind openingKind fieldKind commaKind literalKind closingKind)
      cases other with
      | test found => exact ⟨source, found, delimits, parsed, Expr.test.inj same⟩
      | group junction members span => cases same

/-- The field and the literal stand apart between the parentheses of a test. -/
theorem WrittenBody.parts_apart {leaf : WrittenTest}
    (written : WrittenBody depth scope own (.test leaf)) (apart : Apart own) :
    leaf.fieldSpan.Within leaf.span ∧ leaf.literal.span.Within leaf.span ∧
      leaf.fieldSpan.Before leaf.literal.span := by
  cases written with
  | @test _ _ _ head opening field comma literal closing =>
      have ends : Apart (head :: ([opening, field, comma, literal] ++ [closing])) := apart
      have sides : Apart ([head, opening, field] ++ comma :: [literal, closing]) := apart
      have between : Apart [opening, field, comma, literal] :=
        ends.sublist ((List.sublist_append_left _ _).cons head)
      have before : Apart [head, opening, field] := sides.sublist (List.sublist_append_left _ _)
      have after : Apart [literal, closing] :=
        sides.sublist ((List.sublist_cons_self comma _).trans (List.sublist_append_right _ _))
      exact ⟨ends.within (between.spans_of_mem (by simp)),
        ends.within (between.spans_of_mem (by simp)),
        sides.before (before.spans_of_mem (by simp)) (after.spans_of_mem (by simp))⟩

/-- The spans of a test that tokens of a text write delimit it there. -/
theorem WrittenBody.sourced {leaf : WrittenTest}
    (written : WrittenBody depth scope own (.test leaf))
    (tiles : Tiles 0 letters (earlier ++ own ++ later)) : leaf.Sourced letters := by
  have inside : own <:+: earlier ++ own ++ later := ⟨earlier, later, rfl⟩
  obtain ⟨fieldWithin, literalWithin, ordered⟩ :=
    written.parts_apart (tiles.apart inside.sublist written.ne_finish)
  refine ⟨written.exists_source tiles, ?_, fun noQuotes => ?_, fieldWithin, literalWithin, ordered⟩
  · cases written with
    | @test _ _ _ head opening field comma literal closing headKind openingKind fieldKind =>
        exact tiles.slice?_token (by simp) (by simp [fieldKind]) (by simp [fieldKind])
  · cases written with
    | @test _ _ _ head opening field comma literal closing headKind openingKind fieldKind commaKind
        literalKind =>
        have isWord : literal.kind = .word :=
          literalKind.resolve_right (of_decide_eq_false noQuotes)
        exact tiles.slice?_token (by simp) (by simp [isWord]) (by simp [isWord])

/-! ## Expressions in their text -/

/-- The spans in an expression delimit what its parts were read from, and a stack visits its leaves
in the order of theirs. -/
structure Sourced (letters : List Char) (expr : Expr) : Prop where
  test : ∀ {leaf}, Part (.test leaf) expr → leaf.Sourced letters
  within : ∀ {junction members span}, Part (.group junction members span) expr →
    ∀ member ∈ members, member.span.Within span
  ordered : ∀ {junction members span}, Part (.group junction members span) expr →
    members.Pairwise fun first second => first.span.Before second.span
  visited : visit [expr] = expr.tests
  listed : ∀ leaf, leaf ∈ visit [expr] ↔ Part (.test leaf) expr
  once : (visit [expr]).Nodup
  listedInOrder : (visit [expr]).Pairwise fun first second => first.span.Before second.span

/-- The spans in the expression of a text delimit what its parts were read from. -/
theorem sourced_of_parse {text : String} {expr : Expr} (parsed : parse text = .ok expr) :
    expr.Sourced text.toList := by
  obtain ⟨tokens, scanned, accepted⟩ := bind_eq_ok.1 parsed
  obtain ⟨prior, marker, rest, rfl, _, written⟩ := written_of_ofTokens accepted
  obtain ⟨inner, own, inside, body⟩ := written.exists_body
  have tiles := Token.scan_eq_ok_iff.1 scanned
  have among : own <:+: prior ++ marker :: rest := inside.trans (List.prefix_append _ _).isInfix
  have nested := body.nested (tiles.apart among.sublist body.ne_finish)
  have ordered := nested.tests_ordered
  rw [← visit_singleton] at ordered
  refine ⟨fun part => ?_, nested.within, nested.ordered, visit_singleton expr, fun leaf => ?_, ?_,
    ordered⟩
  · obtain ⟨_, _, least, within, found⟩ := body.exists_part part
    obtain ⟨earlier, later, split⟩ := within.trans among
    rw [← split] at tiles
    exact found.sourced tiles
  · rw [visit_singleton, mem_tests_iff]
  · refine ordered.imp fun before same => ?_
    subst same
    exact absurd before.apart (Nat.lt_asymm before.nonempty)

/-- A scope within another one, blanks between tokens, characters of two bytes and a quoted literal
with an escape. -/
theorem sourced_of_parse_nested :
    let text := "[2]&( >(à,'x\\'é') ,\n[3]|(<=(b,-1)))"
    let expr : Expr := .group .all
      [.test ⟨2, .gt, "à", ⟨8, 10⟩, ⟨"x'é", true, ⟨11, 18⟩⟩, ⟨6, 19⟩⟩,
        .group .any [.test ⟨3, .le, "b", ⟨30, 31⟩, ⟨"-1", false, ⟨32, 34⟩⟩, ⟨27, 35⟩⟩] ⟨25, 36⟩]
      ⟨3, 37⟩
    parse text = .ok expr ∧ expr.Sourced text.toList := by
  intro text expr
  have scanned : scan text = .ok
      [⟨.openBracket, "[", ⟨0, 1⟩⟩, ⟨.word, "2", ⟨1, 2⟩⟩, ⟨.closeBracket, "]", ⟨2, 3⟩⟩,
        ⟨.junction .all, "&", ⟨3, 4⟩⟩, ⟨.openParen, "(", ⟨4, 5⟩⟩,
        ⟨.comparison .gt, ">", ⟨6, 7⟩⟩, ⟨.openParen, "(", ⟨7, 8⟩⟩, ⟨.word, "à", ⟨8, 10⟩⟩,
        ⟨.comma, ",", ⟨10, 11⟩⟩, ⟨.quoted, "x'é", ⟨11, 18⟩⟩, ⟨.closeParen, ")", ⟨18, 19⟩⟩,
        ⟨.comma, ",", ⟨20, 21⟩⟩, ⟨.openBracket, "[", ⟨22, 23⟩⟩, ⟨.word, "3", ⟨23, 24⟩⟩,
        ⟨.closeBracket, "]", ⟨24, 25⟩⟩, ⟨.junction .any, "|", ⟨25, 26⟩⟩,
        ⟨.openParen, "(", ⟨26, 27⟩⟩, ⟨.comparison .le, "<=", ⟨27, 29⟩⟩,
        ⟨.openParen, "(", ⟨29, 30⟩⟩, ⟨.word, "b", ⟨30, 31⟩⟩, ⟨.comma, ",", ⟨31, 32⟩⟩,
        ⟨.word, "-1", ⟨32, 34⟩⟩, ⟨.closeParen, ")", ⟨34, 35⟩⟩, ⟨.closeParen, ")", ⟨35, 36⟩⟩,
        ⟨.closeParen, ")", ⟨36, 37⟩⟩, ⟨.finish, "", ⟨37, 37⟩⟩] := by decide +kernel
  have parsed : parse text = .ok expr := by
    rw [parse, scanned]
    rfl
  exact ⟨parsed, sourced_of_parse parsed⟩

end Expr

end Tripwire
