import Roster.Search.Mode
import Roster.Text.Blank

/-!
Search patterns. A pattern matches a whole text: `%` stands for any characters, `_` for one, a
backslash makes the next character stand for itself, and letters of the ASCII range match in either
case. U+FFFE and U+FFFF are taken for U+FFFD, and both pattern and text end at their first U+0000.
-/

namespace Roster.Search

inductive Glyph where
  /-- Any number of characters. -/
  | any
  /-- One character. -/
  | one
  /-- A character up to the case of ASCII letters. -/
  | char (c : Char)
deriving DecidableEq, Repr

def glyphs : List Char → List Glyph
  | [] => []
  | '%' :: rest => .any :: glyphs rest
  | '_' :: rest => .one :: glyphs rest
  | ['\\'] => [.char '\\']
  | '\\' :: c :: rest => .char c :: glyphs rest
  | c :: rest => .char c :: glyphs rest

/-- A character as it is compared: in lower case if it is an ASCII letter. The two last characters
of the basic plane are not told apart from the replacement character. -/
def folded (c : Char) : Char :=
  if c = '\ufffe' ∨ c = '\uffff' then '\ufffd' else c.toLower

def sameLetter (a b : Char) : Bool :=
  folded a == folded b

def fits : List Glyph → List Char → Bool
  | [], text => text.isEmpty
  | .any :: ps, [] => fits ps []
  | .any :: ps, c :: text => fits ps (c :: text) || fits (.any :: ps) text
  | .one :: _, [] => false
  | .one :: ps, _ :: text => fits ps text
  | .char _ :: _, [] => false
  | .char a :: ps, c :: text => sameLetter a c && fits ps text
termination_by ps text => (ps.length, text.length)

def untilNull (cs : List Char) : List Char :=
  cs.takeWhile (· != '\x00')

def like (pattern text : List Char) : Bool :=
  fits (glyphs (untilNull pattern)) (untilNull text)

def escape (word : List Char) : List Char :=
  word.flatMap fun c => if c = '%' ∨ c = '_' ∨ c = '\\' then ['\\', c] else [c]

def containing (word : List Char) : List Char :=
  '%' :: escape word ++ ['%']

/-- The patterns of a query: one for each word, or one for all words together. -/
def patterns (query : String) : Mode → List (List Char)
  | .plain => (Text.words query.toList).map containing
  | .phrase =>
    let ws := Text.words query.toList
    if ws = [] then [] else [containing (Text.unwords ws)]

end Roster.Search
