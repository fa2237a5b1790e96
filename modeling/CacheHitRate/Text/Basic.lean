/-!
Text as a list of Unicode code points. A JSON escape such as `\ud800` yields a lone surrogate,
which `String` cannot hold, so names, ids and messages are kept here as code points; every
length and cut of the library counts code points.
-/
namespace CacheHitRate

/-- A sequence of code points: numbers below `0x110000`, surrogates included. -/
structure Text where
  points : List Nat
  deriving DecidableEq, Inhabited, Hashable, Repr

namespace Text

def empty : Text := ⟨[]⟩

def ofString (s : String) : Text := ⟨s.toList.map Char.toNat⟩

instance : Append Text := ⟨fun a b => ⟨a.points ++ b.points⟩⟩

@[simp] theorem points_append (a b : Text) : (a ++ b).points = a.points ++ b.points := rfl

def length (t : Text) : Nat := t.points.length

def isEmpty (t : Text) : Bool := t.points.isEmpty

def take (n : Nat) (t : Text) : Text := ⟨t.points.take n⟩

def drop (n : Nat) (t : Text) : Text := ⟨t.points.drop n⟩

def startsWith (t p : Text) : Bool := p.points.isPrefixOf t.points

/-- Pieces of a code-point list between the occurrences of `c`. -/
def piecesOf (c : Nat) : List Nat → List (List Nat)
  | [] => [[]]
  | x :: xs =>
    if x = c then [] :: piecesOf c xs
    else match piecesOf c xs with
      | p :: ps => (x :: p) :: ps
      | [] => [[x]]

/-- The pieces of the text between the occurrences of the code point `c`; an empty text is
one empty piece. -/
def splitOn (c : Nat) (t : Text) : List Text := (piecesOf c t.points).map Text.mk

def join (sep : Text) : List Text → Text
  | [] => empty
  | [t] => t
  | t :: ts => t ++ sep ++ join sep ts

/-- Decimal digits of an integer, with a leading minus sign when negative. -/
def ofInt (n : Int) : Text := ofString (toString n)

/-- Characters of the text; a code point that is no Unicode scalar value becomes NUL. Used only
on text that the library has escaped to ASCII. -/
def toString (t : Text) : String := String.ofList (t.points.map Char.ofNat)

theorem length_take (n : Nat) (t : Text) : (t.take n).length = min n t.length := by
  simp [take, length]

/-! ### White space

`isBlank` is the Unicode white space that trimming removes: the code points of
bidirectional class WS, B or S and those of category Zs, 29 in all. Number text is trimmed by a
narrower rule, `isNumberBlank`, which leaves out the four ASCII separators `0x1c` to `0x1f`.
-/

/-- White space removed by `strip`. -/
def isBlank (c : Nat) : Bool :=
  (9 ≤ c && c ≤ 13) || (0x1c ≤ c && c ≤ 0x20) || c == 0x85 || c == 0xa0 || c == 0x1680 ||
    (0x2000 ≤ c && c ≤ 0x200a) || c == 0x2028 || c == 0x2029 || c == 0x202f ||
    c == 0x205f || c == 0x3000

/-- White space allowed around the text of a number: ASCII tab to carriage return and space,
and every blank code point beyond ASCII. -/
def isNumberBlank (c : Nat) : Bool :=
  isBlank c && !(0x1c ≤ c && c ≤ 0x1f)

/-- Drops the leading and trailing code points that satisfy `p`. -/
def trimBy (p : Nat → Bool) (t : Text) : Text :=
  ⟨((t.points.dropWhile p).reverse.dropWhile p).reverse⟩

def strip (t : Text) : Text := trimBy isBlank t

theorem isBlank_of_isWhitespace (c : Char) (h : c.isWhitespace = true) : isBlank c.toNat = true := by
  simp only [Char.isWhitespace, Bool.or_eq_true, decide_eq_true_eq] at h
  rcases h with ((h | h) | h) | h <;> simp [isBlank, h]

end Text

end CacheHitRate
