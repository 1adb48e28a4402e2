import Tripwire.Proofs.Token.Scanning

/-!
# Where scanning fails

A text is scanned unless there is a character in it with which no token begins, and then that is
where scanning fails. What stands before the character has tokens whatever follows, so it is known
there whether a mark opens a quotation or is part of one.
-/

namespace Tripwire

/-- The messages of the two flaws differ wherever they are. -/
theorem Error.message_ne_of_flaw (position other : Nat) :
    (malformed position .loneBang).message ≠ (malformed other .openQuote).message := by
  intro same
  have ends (flaw : Flaw) (position : Nat) {letter : Char}
      (last : flaw.phrase.toList.getLast? = some letter) :
      (malformed position flaw).message.toList.getLast? = some letter := by
    change ("Malformed expression at position " ++ toString position ++ ": " ++
      flaw.phrase).toList.getLast? = _
    rw [String.toList_append, List.getLast?_append, last]
    rfl
  have bang : (malformed position .loneBang).message.toList.getLast? = some Text.singleMark :=
    ends .loneBang position (by decide +kernel)
  have quote : (malformed other .openQuote).message.toList.getLast? = some 'l' :=
    ends .openQuote other (by decide +kernel)
  rw [same, quote] at bang
  exact absurd bang (by decide)

namespace Token

/-- What stands before a position has tokens, and none begins with the character there. -/
def FailsAt (text : String) (position : Nat) (flaw : Flaw) : Prop :=
  ∃ before letter after, text.toList = before ++ letter :: after ∧
    Text.byteLength before = position ∧ (∃ tokens, scan (String.ofList before) = .ok tokens) ∧
      Breaks letter after flaw

/-- A text without tokens fails at the character that breaks it. -/
theorem scan_or_failsAt (text : String) :
    (∃ tokens, scan text = .ok tokens) ∨ ∃ position flaw, FailsAt text position flaw := by
  rcases tiles_or_breaks _ rfl 0 with
    ⟨tokens, tiles⟩ | ⟨before, letter, after, flaw, tokens, split, breaks, tiles⟩
  · exact .inl ⟨tokens, scan_eq_ok_iff.2 tiles⟩
  · exact .inr ⟨_, flaw, before, letter, after, split, rfl, ⟨tokens, tiles.scan_ofList⟩, breaks⟩

theorem FailsAt.scan_eq {text : String} {position : Nat} {flaw : Flaw}
    (fails : FailsAt text position flaw) : scan text = .error (.malformed position flaw) := by
  obtain ⟨before, letter, after, split, rfl, ⟨tokens, scanned⟩, breaks⟩ := fails
  rw [scan_eq_ok_iff, String.toList_ofList] at scanned
  have failed := scanned.finish_append_eq breaks []
  rw [Nat.zero_add, ← split] at failed
  exact failed

/-- Scanning fails exactly at a lone exclamation mark or at the mark of an open quotation, which are
told apart, and only where what precedes it is scanned. -/
theorem scan_fails_iff (text : String) :
    (∀ error, scan text = .error error ↔
      ∃ position flaw, error = .malformed position flaw ∧ FailsAt text position flaw) ∧
    ((∃ tokens, scan text = .ok tokens) ↔ ∀ position flaw, ¬FailsAt text position flaw) ∧
    ∀ position other, (Error.malformed position .loneBang).message ≠
      (Error.malformed other .openQuote).message := by
  refine ⟨fun error => ⟨fun failed => ?_, ?_⟩, ⟨?_, fun never => ?_⟩, Error.message_ne_of_flaw⟩
  · rcases scan_or_failsAt text with ⟨tokens, scanned⟩ | ⟨position, flaw, fails⟩
    · cases scanned.symm.trans failed
    · have same := fails.scan_eq.symm.trans failed
      cases same
      exact ⟨position, flaw, rfl, fails⟩
  · rintro ⟨position, flaw, rfl, fails⟩
    exact fails.scan_eq
  · rintro ⟨tokens, scanned⟩ position flaw fails
    cases scanned.symm.trans fails.scan_eq
  · exact (scan_or_failsAt text).resolve_right fun ⟨position, flaw, fails⟩ =>
      never position flaw fails

/-- A backslash at the end takes nothing along, and one before a mark leaves the quotation open. -/
example : scan "é=\"'!\" 'it\\'\\" = .error (.malformed 8 .openQuote) := by decide +kernel

end Token

end Tripwire
