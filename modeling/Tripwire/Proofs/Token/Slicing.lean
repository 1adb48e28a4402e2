import Tripwire.Proofs.Token.Spacing
import Tripwire.Text.Slice

/-!
# Tokens of a part of a text

What stands from the beginning of a token to the end of another is tiled with the tokens between
them, and so it is wherever else it stands: all that may stand after a token may be left out.
-/

namespace Tripwire.Token

namespace Tiles

variable {offset : Nat} {letters : List Char} {tokens : List Token}

theorem start_lt_stop (tiles : Tiles offset letters tokens) :
    ∀ token ∈ tokens, token.kind ≠ .finish → token.span.start < token.span.stop := by
  induction tiles with
  | done => exact List.forall_mem_singleton.2 fun other => absurd rfl other
  | blank isBlank others ih => exact ih
  | lexeme lexeme followed others ih =>
      refine List.forall_mem_cons.2 ⟨fun _ => ?_, ih⟩
      exact Nat.lt_add_of_pos_right (Text.byteLength_pos lexeme.nonempty)

/-- The characters from a token on have the tokens from it on. -/
theorem exists_from {earlier later : List Token} {here : Token}
    (tiles : Tiles offset letters (earlier ++ here :: later)) :
    ∃ before after, letters = before ++ after ∧
      here.span.start = offset + Text.byteLength before ∧
        Tiles here.span.start after (here :: later) := by
  generalize whole : earlier ++ here :: later = tokens at tiles
  induction tiles generalizing earlier with
  | done =>
      obtain ⟨rfl, same⟩ := List.append_eq_singleton_iff.1 whole |>.resolve_right (by simp)
      cases same
      exact ⟨[], [], rfl, rfl, .done⟩
  | @blank offset letter rest tokens isBlank others ih =>
      obtain ⟨before, after, rfl, start, tiled⟩ := ih whole
      refine ⟨letter :: before, after, rfl, ?_, tiled⟩
      rw [start, Text.byteLength_cons, Nat.add_assoc]
  | @lexeme offset kind letters text rest tokens lexeme followed others ih =>
      cases earlier with
      | nil =>
          cases whole
          exact ⟨[], letters ++ rest, rfl, rfl, .lexeme lexeme followed others⟩
      | cons first earlier =>
          obtain ⟨before, after, rfl, start, tiled⟩ := ih (List.cons.inj whole).2
          refine ⟨letters ++ before, after, (List.append_assoc ..).symm, ?_, tiled⟩
          rw [start, Text.byteLength_append, Nat.add_assoc]

/-- The characters up to the end of a token have the tokens up to it. -/
theorem exists_upTo {earlier later : List Token} {here : Token}
    (tiles : Tiles offset letters (earlier ++ here :: later)) (notFinish : here.kind ≠ .finish) :
    ∃ inside after, letters = inside ++ after ∧
      here.span.stop = offset + Text.byteLength inside ∧
        Tiles offset inside
          (earlier ++ [here, ⟨.finish, "", ⟨here.span.stop, here.span.stop⟩⟩]) := by
  generalize whole : earlier ++ here :: later = tokens at tiles
  induction tiles generalizing earlier with
  | done =>
      obtain ⟨rfl, same⟩ := List.append_eq_singleton_iff.1 whole |>.resolve_right (by simp)
      cases same
      exact absurd rfl notFinish
  | @blank offset letter rest tokens isBlank others ih =>
      obtain ⟨inside, after, rfl, stop, tiled⟩ := ih whole
      refine ⟨letter :: inside, after, rfl, ?_, .blank isBlank tiled⟩
      rw [stop, Text.byteLength_cons, Nat.add_assoc]
  | @lexeme offset kind letters text rest tokens lexeme followed others ih =>
      cases earlier with
      | nil =>
          cases whole
          have alone : MayPrecede kind [] := mayPrecede_of_delimiter kind nofun
          have tiled : Tiles offset (letters ++ []) _ := .lexeme lexeme alone .done
          rw [List.append_nil] at tiled
          exact ⟨letters, rest, rfl, rfl, tiled⟩
      | cons first earlier =>
          obtain ⟨rfl, same⟩ := List.cons.inj whole
          obtain ⟨inside, after, rfl, stop, tiled⟩ := ih same
          refine ⟨letters ++ inside, after, (List.append_assoc ..).symm, ?_,
            .lexeme lexeme followed.of_append tiled⟩
          rw [stop, Text.byteLength_append, Nat.add_assoc]

/-- From one token to another a text has the tokens between them. -/
theorem exists_slice {earlier middle later : List Token} {first last : Token}
    (tiles : Tiles 0 letters (earlier ++ (first :: (middle ++ [last])) ++ later))
    (notFinish : last.kind ≠ .finish) :
    ∃ inside, Text.slice? letters first.span.start last.span.stop = some inside ∧
      Tiles first.span.start inside
        (first :: (middle ++ [last]) ++ [⟨.finish, "", ⟨last.span.stop, last.span.stop⟩⟩]) := by
  rw [List.append_assoc, List.cons_append] at tiles
  obtain ⟨before, rest, rfl, start, tiled⟩ := tiles.exists_from
  rw [List.append_assoc, ← List.cons_append] at tiled
  obtain ⟨inside, after, rfl, stop, within⟩ := tiled.exists_upTo notFinish
  refine ⟨inside, Text.slice?_eq_some_iff.2 ⟨before, after, ?_, ?_, ?_⟩, ?_⟩
  · exact (List.append_assoc ..).symm
  · rw [start, Nat.zero_add]
  · rw [stop, start, Nat.zero_add, Text.byteLength_append]
  · simpa using within

/-- The tokens of characters are the same wherever these stand. -/
theorem moved (tiles : Tiles offset letters tokens) (start : Nat) :
    ∃ others, Tiles start letters others ∧ others.map Token.lexeme = tokens.map Token.lexeme := by
  have tiled : ∃ others, Tiles start (Text.spaced (fun _ => []) offset letters) others ∧
      others.map Token.lexeme = tokens.map Token.lexeme :=
    tiles.spaced (fun _ _ member => by cases member) (fun _ _ some => absurd rfl some) start
  have same : Text.spaced (fun _ => []) offset (letters ++ []) = letters ++ [] :=
    Text.spaced_append_of_none [] fun _ _ _ => rfl
  rw [List.append_nil] at same
  rwa [same] at tiled

/-- The text of a token that is not quoted is what stands there. -/
theorem slice?_token (tiles : Tiles 0 letters tokens) {token : Token} (member : token ∈ tokens)
    (notFinish : token.kind ≠ .finish) (noQuotes : token.kind ≠ .quoted) :
    Text.slice? letters token.span.start token.span.stop = some token.text.toList := by
  obtain ⟨before, inside, after, split, covers⟩ :=
    tiles.exists_covers [] rfl (fun _ isLast => by cases isLast) token member notFinish
  rw [covers.text noQuotes, covers.span, Text.slice?_eq_some_iff]
  exact ⟨before, after, split, rfl, rfl⟩

end Tiles

end Tripwire.Token
