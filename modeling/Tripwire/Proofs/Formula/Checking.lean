import Mathlib.Data.List.Forall2
import Tripwire.Expr.Meaning
import Tripwire.Formula.OfExpr
import Tripwire.Proofs.Formula.Canonical
import Tripwire.Proofs.Sensors

/-!
# What checking an expression gives

A checked expression is a formula whose tests are typed and which says of the latest values what
the expression says. It stays checked, as the same formula, when sensors are added.
-/

namespace Tripwire

/-- What holds of tests, and of groups of whose members it holds, holds of all expressions. -/
theorem Expr.induction {motive : Expr → Prop} (test : ∀ leaf, motive (.test leaf))
    (group : ∀ junction members span, (∀ member ∈ members, motive member) →
      motive (.group junction members span)) (expr : Expr) : motive expr :=
  Expr.rec (motive_2 := fun members => ∀ member ∈ members, motive member) test group
    (fun _ member => nomatch member)
    (fun _ _ first rest _ member => by
      rcases List.mem_cons.1 member with same | inRest
      · exact same ▸ first
      · exact rest _ inRest)
    expr

theorem FieldType.type_of_read? {type : FieldType} {text : String} {value : Value}
    (read : type.read? text = some value) : value.type = type := by
  cases type with
  | text =>
      cases read
      rfl
  | unsigned | signed | float | double | boolean | bits =>
      obtain ⟨_, _, rfl⟩ := Option.map_eq_some_iff.1 read
      rfl

theorem exists_of_forall₂ {α β : Type} {related : α → β → Prop} {items : List α}
    {others : List β} (each : List.Forall₂ related items others) {other : β}
    (member : other ∈ others) : ∃ item ∈ items, related item other := by
  induction each with
  | nil => cases member
  | cons here _ ih =>
      rcases List.mem_cons.1 member with same | inRest
      · exact ⟨_, List.mem_cons_self, same ▸ here⟩
      · obtain ⟨item, among, found⟩ := ih inRest
        exact ⟨item, List.mem_cons_of_mem _ among, found⟩

namespace Predicate

/-- When a test passes the check, and as what. -/
theorem ofTest_eq_ok {sensors : Sensors} {test : WrittenTest} {predicate : Predicate} :
    ofTest sensors test = .ok predicate ↔
      ∃ type literal, sensors.type? test.sensor test.field = some type ∧
        type.read? test.literal.text = some literal ∧
        predicate = ⟨test.sensor, test.field, test.operator, literal⟩ := by
  unfold ofTest Sensors.type? Sensors.field?
  cases sensors.get? test.sensor with
  | none => simp
  | some sensor =>
      cases found : sensor.fields.get? test.field with
      | none => simp [found]
      | some field =>
          cases read : field.type.read? test.literal.text with
          | none => simp [found, read]
          | some literal => simp [found, read, eq_comm]

/-- How a test is checked is settled by which sensors are registered and the types of fields. -/
theorem ofTest_congr {first second : Sensors}
    (contains : ∀ id, first.contains id = second.contains id) (type : first.type? = second.type?)
    (test : WrittenTest) : ofTest first test = ofTest second test := by
  have known := contains test.sensor
  have declared := congrFun (congrFun type test.sensor) test.field
  unfold Table.contains at known
  unfold Sensors.type? Sensors.field? at declared
  unfold ofTest
  cases here : first.get? test.sensor with
  | none =>
      rw [here, Option.isSome_none, eq_comm, Option.isSome_eq_false_iff,
        Option.isNone_iff_eq_none] at known
      rw [known]
  | some sensor =>
      rw [here, Option.isSome_some, eq_comm, Option.isSome_iff_exists] at known
      obtain ⟨other, there⟩ := known
      simp only [here, there, Option.bind_some] at declared ⊢
      cases field : sensor.fields.get? test.field with
      | none =>
          rw [field, Option.map_none, eq_comm, Option.map_eq_none_iff] at declared
          simp only [declared]
      | some found =>
          rw [field, Option.map_some, eq_comm, Option.map_eq_some_iff] at declared
          obtain ⟨twin, also, same⟩ := declared
          simp only [also, same]

end Predicate

namespace Formula

theorem ofMembers_eq_ok {sensors : Sensors} {members : List Expr} {formulas : List Formula} :
    ofMembers sensors members = .ok formulas ↔
      List.Forall₂ (fun member formula => ofExpr sensors member = .ok formula)
        members formulas := by
  induction members generalizing formulas with
  | nil =>
      rw [ofMembers, List.forall₂_nil_left_iff]
      constructor
      · rintro ⟨⟩
        rfl
      · rintro rfl
        rfl
  | cons first rest ih =>
      rw [ofMembers, List.forall₂_cons_left_iff]
      constructor
      · intro checked
        obtain ⟨formula, here, remaining⟩ := bind_eq_ok.1 checked
        obtain ⟨more, others, done⟩ := bind_eq_ok.1 remaining
        cases done
        exact ⟨formula, more, here, ih.1 others, rfl⟩
      · rintro ⟨formula, more, here, others, rfl⟩
        rw [here, ih.2 others]
        rfl

theorem ofExpr_test_eq_ok {sensors : Sensors} {leaf : WrittenTest} {formula : Formula} :
    ofExpr sensors (.test leaf) = .ok formula ↔
      ∃ predicate, Predicate.ofTest sensors leaf = .ok predicate ∧ formula = .test predicate := by
  rw [ofExpr]
  exact map_eq_ok

theorem ofExpr_group_eq_ok {sensors : Sensors} {junction : Junction} {members : List Expr}
    {span : Span} {formula : Formula} :
    ofExpr sensors (.group junction members span) = .ok formula ↔
      ∃ formulas, List.Forall₂ (fun member formula => ofExpr sensors member = .ok formula)
        members formulas ∧ formula = .group junction formulas := by
  simp only [← ofMembers_eq_ok]
  rw [ofExpr]
  exact map_eq_ok

variable {sensors : Sensors} {expr : Expr} {formula : Formula}

/-- All tests of a checked expression are typed. -/
theorem typed_of_ofExpr (checked : ofExpr sensors expr = .ok formula) {predicate : Predicate}
    (member : .test predicate ∈ formula.parts) : predicate.Typed sensors := by
  induction expr using Expr.induction generalizing formula with
  | test leaf =>
      obtain ⟨known, tested, rfl⟩ := ofExpr_test_eq_ok.1 checked
      obtain ⟨type, literal, declared, read, rfl⟩ := Predicate.ofTest_eq_ok.1 tested
      rw [parts, List.mem_singleton, Formula.test.injEq] at member
      rw [member, Predicate.Typed, declared, FieldType.type_of_read? read]
  | group junction members span ih =>
      obtain ⟨formulas, each, rfl⟩ := ofExpr_group_eq_ok.1 checked
      rw [parts, List.mem_cons, mem_partsOfMembers] at member
      rcases member with whole | ⟨inside, isMember, isPart⟩
      · cases whole
      · obtain ⟨written, isWritten, here⟩ := exists_of_forall₂ each isMember
        exact ih written isWritten here isPart

/-- A checked expression stays so when fields are declared in addition. -/
theorem ofExpr_of_extends {after : Sensors} (extending : sensors.Extends after)
    (checked : ofExpr sensors expr = .ok formula) : ofExpr after expr = .ok formula := by
  induction expr using Expr.induction generalizing formula with
  | test leaf =>
      obtain ⟨predicate, tested, rfl⟩ := ofExpr_test_eq_ok.1 checked
      obtain ⟨type, literal, declared, read, same⟩ := Predicate.ofTest_eq_ok.1 tested
      exact ofExpr_test_eq_ok.2 ⟨predicate, Predicate.ofTest_eq_ok.2
        ⟨type, literal, extending declared, read, same⟩, rfl⟩
  | group junction members span ih =>
      obtain ⟨formulas, each, rfl⟩ := ofExpr_group_eq_ok.1 checked
      refine ofExpr_group_eq_ok.2 ⟨formulas, ?_, rfl⟩
      exact ((List.forall₂_and_left _ _).2 ⟨ih, each⟩).imp fun _ _ both => both.1 both.2

/-- How an expression is checked is settled by which sensors are registered and the types of
fields. -/
theorem ofExpr_congr {first second : Sensors}
    (contains : ∀ id, first.contains id = second.contains id) (type : first.type? = second.type?)
    (expr : Expr) : ofExpr first expr = ofExpr second expr := by
  induction expr using Expr.induction with
  | test leaf => rw [ofExpr, ofExpr, Predicate.ofTest_congr contains type]
  | group junction members span ih =>
      rw [ofExpr, ofExpr]
      congr 1
      induction members with
      | nil => rfl
      | cons member rest rec =>
          obtain ⟨here, others⟩ := List.forall_mem_cons.1 ih
          rw [ofMembers, ofMembers, here, rec others]

/-- A test holds as it is written if it does once its literal is read. -/
theorem holds_of_ofTest {leaf : WrittenTest} {predicate : Predicate}
    (tested : Predicate.ofTest sensors leaf = .ok predicate) :
    leaf.holds sensors =
      ((sensors.value? predicate.sensor predicate.field).bind predicate.test).getD false := by
  obtain ⟨type, literal, declared, read, rfl⟩ := Predicate.ofTest_eq_ok.1 tested
  obtain ⟨field, found, rfl⟩ := Option.map_eq_some_iff.1 declared
  unfold WrittenTest.holds Sensors.value?
  rw [found]
  simp only [read, Option.bind_some]
  cases field.value with
  | none => rfl
  | some value =>
      change (value.compare? leaf.operator literal == some true) =
        (value.compare? leaf.operator literal).getD false
      cases value.compare? leaf.operator literal with
      | none => rfl
      | some told => cases told <;> rfl

/-- A checked expression says of the latest values what its formula says. -/
theorem holds_of_ofExpr (checked : ofExpr sensors expr = .ok formula) :
    expr.holds sensors = formula.holds fun predicate =>
      ((sensors.value? predicate.sensor predicate.field).bind predicate.test).getD false := by
  induction expr using Expr.induction generalizing formula with
  | test leaf =>
      obtain ⟨predicate, tested, rfl⟩ := ofExpr_test_eq_ok.1 checked
      rw [Expr.holds, Formula.holds, holds_of_ofTest tested]
  | group junction members span ih =>
      obtain ⟨formulas, each, rfl⟩ := ofExpr_group_eq_ok.1 checked
      rw [Expr.holds, Formula.holds, Expr.statuses_eq_map, Formula.statuses_eq_map]
      have agree := ((List.forall₂_and_left _ _).2 ⟨ih, each⟩).imp fun _ _ both => both.1 both.2
      congr 1
      rw [← List.forall₂_eq_eq_eq, List.forall₂_map_left_iff, List.forall₂_map_right_iff]
      exact agree

/-! ## Canonical forms mean the same -/

theorem combine_perm (junction : Junction) {statuses others : List Bool}
    (same : statuses.Perm others) : junction.combine statuses = junction.combine others := by
  cases junction with
  | all => exact same.all_eq
  | any => exact same.any_eq

/-- A formula holds exactly if its canonical form does. -/
theorem holds_canonical (truth : Predicate → Bool) (formula : Formula) :
    formula.canonical.holds truth = formula.holds truth := by
  induction formula using Formula.induction with
  | test predicate => rw [canonical_test]
  | group junction members ih =>
      have order : (canonicalMembers members : Multiset Formula).toList.Perm
          (members.map canonical) := by
        rw [← Multiset.coe_eq_coe, Multiset.coe_toList, canonicalMembers_eq_map]
      have statuses : (members.map canonical).map (holds truth) = members.map (holds truth) := by
        rw [List.map_map]
        exact List.map_congr_left ih
      rw [canonical, holds, holds, statuses_eq_map, statuses_eq_map,
        combine_perm junction (order.map _), statuses]

theorem holds_eq_of_canonical_eq (truth : Predicate → Bool) {first second : Formula}
    (same : first.canonical = second.canonical) : first.holds truth = second.holds truth := by
  rw [← holds_canonical, same, holds_canonical]

end Formula

end Tripwire
