/-!
# Quoted text

A quoted text stands between two equal marks. A backslash inside it starts an escape:
four escapes stand for one character, and every other keeps its backslash.
-/

namespace Tripwire.Text

/-- The mark that printed texts are quoted with. -/
def singleMark : Char := '\x27'

/-- The other mark that a quoted text may open with. -/
def doubleMark : Char := '\x22'

/-- The character that starts an escape. -/
def backslash : Char := '\x5c'

def isMark (letter : Char) : Bool :=
  letter == singleMark || letter == doubleMark

/-- What a backslash and the letter after it stand for between two such marks. -/
def unescape (mark letter : Char) : List Char :=
  if letter = 'n' then ['\n']
  else if letter = 't' then ['\t']
  else if letter = backslash then [backslash]
  else if letter = mark then [mark]
  else [backslash, letter]

/-- The contents with a backslash before each backslash and each single mark. -/
def escape : List Char → List Char
  | [] => []
  | letter :: rest =>
      if letter = backslash || letter = singleMark then
        backslash :: letter :: escape rest
      else letter :: escape rest

/-- The contents between single marks. -/
def quote (contents : List Char) : List Char :=
  singleMark :: (escape contents ++ [singleMark])

end Tripwire.Text
