import Tripwire.Proofs.Token.Tiling

/-!
# Blanks between tokens

Blanks that are inserted where tokens begin or end separate them further and change nothing else:
the text has the same tokens, each as far from its place as there are blanks before it.
-/

namespace Tripwire

namespace Text

/-- The characters from an offset on with others inserted, each list of them before the byte that
it is for. -/
def spaced (inserted : Nat → List Char) : Nat → List Char → List Char
  | offset, [] => inserted offset
  | offset, letter :: rest =>
      inserted offset ++ letter :: spaced inserted (offset + letter.utf8Size) rest

variable {inserted : Nat → List Char} {offset : Nat}

/-- Characters that nothing is inserted between stay together. -/
theorem spaced_append_of_none {letters : List Char} (rest : List Char)
    (none : ∀ place, offset ≤ place → place < offset + byteLength letters → inserted place = []) :
    spaced inserted offset (letters ++ rest) =
      letters ++ spaced inserted (offset + byteLength letters) rest := by
  induction letters generalizing offset with
  | nil => rfl
  | cons letter letters ih =>
      rw [byteLength_cons, ← Nat.add_assoc] at none ⊢
      have positive := letter.utf8Size_pos
      have here : inserted offset = [] := none offset (Nat.le_refl _) (by omega)
      have others := ih fun place above below => none place (by omega) below
      rw [List.cons_append, spaced, here, others]
      rfl

theorem spaced_append {letters : List Char} (nonempty : letters ≠ []) (rest : List Char)
    (none : ∀ place, offset < place → place < offset + byteLength letters → inserted place = []) :
    spaced inserted offset (letters ++ rest) =
      inserted offset ++ (letters ++ spaced inserted (offset + byteLength letters) rest) := by
  obtain ⟨letter, letters, rfl⟩ := List.exists_cons_of_ne_nil nonempty
  rw [byteLength_cons, ← Nat.add_assoc] at none ⊢
  have positive := letter.utf8Size_pos
  rw [List.cons_append, spaced, spaced_append_of_none rest fun place above below =>
    none place (by omega) below]
  rfl

end Text

namespace Token

/-- A token begins or ends at the place. -/
def IsEdge (tokens : List Token) (place : Nat) : Prop :=
  ∃ token ∈ tokens, place = token.span.start ∨ place = token.span.stop

instance decidableIsEdge (tokens : List Token) (place : Nat) : Decidable (IsEdge tokens place) :=
  inferInstanceAs (Decidable (∃ token ∈ tokens, _))

/-- What is inserted is blank and at the edges of tokens. -/
structure Spacing (tokens : List Token) (inserted : Nat → List Char) : Prop where
  blank : ∀ place, ∀ letter ∈ inserted place, Text.isBlank letter = true
  edge : ∀ place, inserted place ≠ [] → IsEdge tokens place

/-- What may stand after a token may do so after blanks. -/
theorem MayPrecede.spaced {kind : Kind} {rest : List Char} (followed : MayPrecede kind rest)
    {inserted : Nat → List Char} {offset : Nat}
    (blank : ∀ letter ∈ inserted offset, Text.isBlank letter = true) :
    MayPrecede kind (Text.spaced inserted offset rest) := by
  cases here : inserted offset with
  | nil =>
      refine followed.of_head? fun letter next => ?_
      cases rest with
      | nil =>
          rw [Text.spaced, here] at next
          cases next
      | cons first rest =>
          rw [Text.spaced, here] at next
          exact next
  | cons first others =>
      have isBlank : Text.isBlank first = true := blank first (here ▸ List.mem_cons_self)
      refine mayPrecede_of_delimiter kind fun letter next => ?_
      have same : first = letter := by
        cases rest <;> (rw [Text.spaced, here] at next; exact Option.some.inj next)
      subst same
      refine ⟨by rw [isDelimiter, isBlank, Bool.true_or], ?_⟩
      rintro rfl
      cases isBlank

namespace Tiles

variable {offset : Nat} {letters : List Char} {tokens : List Token}

theorem start_le_stop (tiles : Tiles offset letters tokens) :
    ∀ token ∈ tokens, token.span.start ≤ token.span.stop := by
  induction tiles with
  | done => exact List.forall_mem_singleton.2 (Nat.le_refl _)
  | blank isBlank others ih => exact ih
  | lexeme lexeme followed others ih =>
      exact List.forall_mem_cons.2 ⟨Nat.le_add_right _ _, ih⟩

theorem blanks {blanks : List Char} (blank : ∀ letter ∈ blanks, Text.isBlank letter = true)
    (tiles : Tiles (offset + Text.byteLength blanks) letters tokens) :
    Tiles offset (blanks ++ letters) tokens := by
  induction blanks generalizing offset with
  | nil => exact tiles
  | cons letter rest ih =>
      rw [Text.byteLength_cons, ← Nat.add_assoc] at tiles
      rw [List.forall_mem_cons] at blank
      exact .blank blank.1 (ih blank.2 tiles)

/-- No token but the first begins or ends within it. -/
theorem edge_of_lexeme {place : Nat} (here : Token)
    (others : Tiles here.span.stop letters tokens) (after : here.span.start < place)
    (edge : IsEdge (here :: tokens) place) :
    here.span.stop ≤ place ∧ (here.span.stop < place → IsEdge tokens place) := by
  obtain ⟨token, member, isEdge⟩ := edge
  rcases List.mem_cons.1 member with rfl | later
  · exact ⟨by omega, fun beyond => by omega⟩
  · have starts := others.le_start token later
    have stops := others.start_le_stop token later
    exact ⟨by omega, fun _ => ⟨token, later, isEdge⟩⟩

/-- Wherever they stand, the characters with blanks at the edges of tokens have the same tokens. -/
theorem spaced (tiles : Tiles offset letters tokens) {inserted : Nat → List Char}
    (blank : ∀ place, ∀ letter ∈ inserted place, Text.isBlank letter = true)
    (edge : ∀ place, offset < place → inserted place ≠ [] → IsEdge tokens place) (start : Nat) :
    ∃ others, Tiles start (Text.spaced inserted offset letters) others ∧
      others.map Token.lexeme = tokens.map Token.lexeme := by
  induction tiles generalizing start with
  | @done offset =>
      have tiled : Tiles start (inserted offset ++ []) _ := .blanks (blank offset) .done
      rw [List.append_nil] at tiled
      exact ⟨_, tiled, rfl⟩
  | @blank offset letter rest tokens isBlank others ih =>
      have positive := letter.utf8Size_pos
      obtain ⟨moved, tiled, same⟩ := ih (fun place after => edge place (by omega))
        (start + Text.byteLength (inserted offset) + letter.utf8Size)
      exact ⟨moved, .blanks (blank offset) (.blank isBlank tiled), same⟩
  | @lexeme offset kind letters text rest tokens lexeme followed others ih =>
      let here : Token :=
        ⟨kind, String.ofList text, ⟨offset, offset + Text.byteLength letters⟩⟩
      have edges (place : Nat) (after : offset < place) (some : inserted place ≠ []) :=
        edge_of_lexeme here others after (edge place after some)
      have none (place : Nat) (after : offset < place)
          (before : place < offset + Text.byteLength letters) : inserted place = [] := by
        by_contra some
        exact absurd before (Nat.not_lt.2 (edges place after some).1)
      obtain ⟨moved, tiled, same⟩ := ih
        (fun place after some => (edges place (by omega) some).2 after)
        (start + Text.byteLength (inserted offset) + Text.byteLength letters)
      rw [Text.spaced_append lexeme.nonempty rest none]
      refine ⟨_, .blanks (blank offset) (.lexeme lexeme (followed.spaced (blank _)) tiled), ?_⟩
      rw [List.map_cons, List.map_cons, same]
      rfl

end Tiles

/-- A text has the tokens that it has with blanks at their edges. -/
theorem exists_scan_spaced {text : String} {tokens : List Token}
    {inserted : Nat → List Char} (scanned : scan text = .ok tokens)
    (spacing : Spacing tokens inserted) :
    ∃ others, scan (String.ofList (Text.spaced inserted 0 text.toList)) = .ok others ∧
      others.map lexeme = tokens.map lexeme := by
  obtain ⟨others, tiles, same⟩ := (scan_eq_ok_iff.1 scanned).spaced spacing.blank
    (fun place _ => spacing.edge place) 0
  exact ⟨others, tiles.scan_ofList, same⟩

end Token

end Tripwire
