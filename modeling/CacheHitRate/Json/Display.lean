import CacheHitRate.Json.Basic
import CacheHitRate.Number.Shortest
import CacheHitRate.Text.Printable
/-!
The display text of a value, as messages and text fields show it. `null` is `None`, truth
values are `True` and `False`, binary64 values have their shortest text (`nan`, `inf`), lists
and objects are bracketed with `, ` and `: ` separators, and strings inside them are quoted:
single quotes unless the text holds a single quote and no double quote, with unprintable code
points escaped as `\xNN`, `\uNNNN` or `\UNNNNNNNN`. `display` leaves a top-level string bare.
-/
namespace CacheHitRate.Json

def hexDigits (width n : Nat) : List Nat :=
  (List.range width).reverse.map fun i =>
    let d := n / Nat.pow 16 i % 16
    if d < 10 then 48 + d else 87 + d

/-- The quoted form of one code point, given the quote in use. -/
def quotedPoint (q c : Nat) : List Nat :=
  if c = q ∨ c = 92 then [92, c]
  else if c = 9 then [92, 116]
  else if c = 10 then [92, 110]
  else if c = 13 then [92, 114]
  else if c < 32 ∨ c = 127 then 92 :: 120 :: hexDigits 2 c
  else if c < 127 then [c]
  else if Text.isPrintable c then [c]
  else if c ≤ 0xff then 92 :: 120 :: hexDigits 2 c
  else if c ≤ 0xffff then 92 :: 117 :: hexDigits 4 c
  else 92 :: 85 :: hexDigits 8 c

/-- A text in quotes, escaped. -/
def quoted (t : Text) : List Nat :=
  let q := if t.points.contains 39 && !t.points.contains 34 then 34 else 39
  q :: t.points.flatMap (quotedPoint q) ++ [q]

mutual
/-- The display text of a value with strings quoted. -/
def literal : Json → List Nat
  | .null => (Text.ofString "None").points
  | .bool b => (Text.ofString (if b then "True" else "False")).points
  | .int n => (Text.ofString (toString n)).points
  | .float x => (Text.ofString (Shortest.render Shortest.plain x)).points
  | .str s => quoted s
  | .arr items => 91 :: literalItems items ++ [93]
  | .obj fields => 123 :: literalFields fields ++ [125]

def literalItems : List Json → List Nat
  | [] => []
  | [v] => literal v
  | v :: rest => literal v ++ [44, 32] ++ literalItems rest

def literalFields : List (Text × Json) → List Nat
  | [] => []
  | [(k, v)] => quoted k ++ [58, 32] ++ literal v
  | (k, v) :: rest => quoted k ++ [58, 32] ++ literal v ++ [44, 32] ++ literalFields rest
end

/-- The display text of a value: a string as it is, anything else as its literal. -/
def display : Json → Text
  | .str s => s
  | v => ⟨literal v⟩

end CacheHitRate.Json
