import Tripwire.Expr.Parser
import Tripwire.Proofs.Steps

/-!
# Errors of texts

A text that is no expression is malformed or has a test outside all scopes. No other error comes of
reading it.
-/

namespace Tripwire

/-- The error is about the text of an expression. -/
def Error.IsTextual : Error → Prop
  | .malformed .. => True
  | .unscoped .. => True
  | _ => False

/-- Where in the text the error is. -/
def Error.position? : Error → Option Nat
  | .malformed position _ => some position
  | .unscoped position => some position
  | _ => none

namespace Token

variable {error : Error}

theorem Scan.textual_of_close {scan : Scan} (failed : scan.close = .error error) :
    error.IsTextual := by
  unfold close at failed
  grind [Error.IsTextual]

theorem Scan.textual_of_feed {scan : Scan} {letter : Char}
    (failed : scan.feed letter = .error error) : error.IsTextual := by
  unfold feed at failed
  grind [textual_of_close, map_eq_error]

theorem textual_of_scan {text : String} (failed : scan text = .error error) :
    error.IsTextual := by
  unfold scan scanChars at failed
  rcases bind_eq_error.1 failed with fed | ⟨scan, _, rest⟩
  · obtain ⟨_, _, _, _, _, _, here⟩ := foldlM_eq_error.1 fed
    exact Scan.textual_of_feed here
  · rcases bind_eq_error.1 rest with closed | ⟨complete, _, done⟩
    · exact Scan.textual_of_close closed
    · cases done

end Token

namespace Parser

variable {parser : Parser} {error : Error}

theorem textual_of_read {token : Token} (failed : parser.read token = .error error) :
    error.IsTextual := by
  unfold read readOperator readFollower unexpected scopeOf at failed
  grind [Error.IsTextual, map_eq_error]

/-- An error of reading is where the token is. -/
theorem position_of_read {token : Token} (failed : parser.read token = .error error) :
    error.position? = some token.span.start := by
  unfold read readOperator readFollower unexpected scopeOf at failed
  grind [Error.position?, map_eq_error]

theorem textual_of_conclude {last : Token} (failed : parser.conclude last = .error error) :
    error.IsTextual := by
  unfold conclude stuckError at failed
  grind [Error.IsTextual, textual_of_read]

end Parser

theorem Expr.textual_of_ofTokens {tokens : List Token} {error : Error}
    (failed : ofTokens tokens = .error error) : error.IsTextual := by
  unfold ofTokens at failed
  split at failed
  case h_1 =>
    cases failed
    trivial
  case h_2 last _ =>
    rcases bind_eq_error.1 failed with fed | ⟨parser, _, stuck⟩
    · obtain ⟨_, _, _, _, _, _, here⟩ := foldlM_eq_error.1 fed
      exact Parser.textual_of_read here
    · exact Parser.textual_of_conclude stuck

end Tripwire
