import Mathlib.Data.List.Basic

/-!
# Regular expressions

The regular expressions of the sources only ask whether some match exists (`RegExp.test`), so a
match is a set of end positions.  `Regex.fold` and `Regex.isWordFold` are the letters and the
word characters of the flags `iu`, where `ſ` (U+017F) folds to `s` and `K` (U+212A) to `k`.
-/

namespace FitzDestroyer

namespace Js

/-- A position in a text: the character before it and the characters after it. -/
structure Cursor where
  before : Option Char
  rest : List Char

/-- A regular expression. -/
inductive Regex where
  | char (p : Char → Bool)
  | eps
  | seq (a b : Regex)
  | alt (a b : Regex)
  | star (a : Regex)
  /-- `\b`, for the given word characters. -/
  | boundary (word : Char → Bool)

namespace Regex

/-- The positions reached by at most `n` further matches. -/
def repeatEnds (step : Cursor → List Cursor) : ℕ → Cursor → List Cursor
  | 0, c => [c]
  | n + 1, c => c :: (step c).flatMap (repeatEnds step n)

/-- The positions at which a match that starts at the given position can end. -/
def ends : Regex → Cursor → List Cursor
  | char p, c =>
    match c.rest with
    | x :: xs => if p x then [⟨some x, xs⟩] else []
    | [] => []
  | eps, c => [c]
  | seq a b, c => (a.ends c).flatMap b.ends
  | alt a b, c => a.ends c ++ b.ends c
  | star a, c => repeatEnds a.ends c.rest.length c
  | boundary word, c => if c.before.any word != c.rest.head?.any word then [c] else []

/-- Some match starts at the given position or after it. -/
def search (r : Regex) (before : Option Char) : List Char → Bool
  | [] => !(r.ends ⟨before, []⟩).isEmpty
  | x :: xs => !(r.ends ⟨before, x :: xs⟩).isEmpty || r.search (some x) xs

/-- `RegExp.test`. -/
def test (r : Regex) (text : String) : Bool := r.search none text.toList

/-! ### Letters and word characters -/

/-- `\w`. -/
def isWord (c : Char) : Bool := c.isAlphanum || c == '_'

/-- `\w` with the flags `iu`. -/
def isWordFold (c : Char) : Bool := isWord c || c == '\u017F' || c == '\u212A'

/-- A letter with the flags `iu`. -/
def foldEq (letter c : Char) : Bool :=
  c.toLower == letter.toLower || (letter.toLower == 's' && c == '\u017F') ||
    (letter.toLower == 'k' && c == '\u212A')

/-- A text, letter by letter. -/
def lit (eq : Char → Char → Bool) (text : String) : Regex :=
  text.toList.foldr (fun c r => seq (char (eq c)) r) eps

/-- One of several expressions. -/
def oneOf (rs : List Regex) : Regex := rs.foldr alt (char fun _ => false)

/-- `/\b(?:a|b|..)\b/iu` for the texts `a`, `b`, .. -/
def words (texts : List String) : Regex :=
  seq (boundary isWordFold) (seq (oneOf (texts.map (lit foldEq))) (boundary isWordFold))

end Regex

end Js

end FitzDestroyer
