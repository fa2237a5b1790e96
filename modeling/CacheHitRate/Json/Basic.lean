import CacheHitRate.Number.Binary64
import CacheHitRate.Text.Basic
/-!
JSON documents, the form in which gateway events and the stored flag arrive. Integers are
exact and kept apart from binary64 values; an object lists its members in order, each name
once. `truthy` is the truth value that optional fields are tested with.
-/
namespace CacheHitRate

inductive Json where
  | null
  | bool (b : Bool)
  | int (n : Int)
  | float (x : Float)
  | str (s : Text)
  | arr (items : List Json)
  | obj (fields : List (Text × Json))
  deriving Inhabited

namespace Json

def get? (v : Json) (k : Text) : Option Json :=
  match v with
  | .obj fs => fs.lookup k
  | _ => none

def field (v : Json) (k : String) : Json := (v.get? (Text.ofString k)).getD .null

def isObject : Json → Bool
  | .obj _ => true
  | _ => false

/-- Sets member `k` to `v`: an existing member keeps its place and takes the new value, a new
one goes last. -/
def setMember (k : Text) (v : Json) : List (Text × Json) → List (Text × Json)
  | [] => [(k, v)]
  | (k', v') :: rest => if k' = k then (k, v) :: rest else (k', v') :: setMember k v rest

/-- Truth value: null, false, zero, and the empty text, list and object are false. -/
def truthy : Json → Bool
  | .null => false
  | .bool b => b
  | .int n => n != 0
  | .float x =>
    match Binary64.parts x with
    | .finite _ 0 _ => false
    | _ => true
  | .str s => !s.isEmpty
  | .arr items => !items.isEmpty
  | .obj fields => !fields.isEmpty

/-- Whether the value equals the truth value `b` as a number: `true` equals `1` and `1.0`,
`false` equals `0`, `0.0` and `-0.0`; no text, list or object equals either. -/
def equalsBool (v : Json) (b : Bool) : Bool :=
  let one : Int := if b then 1 else 0
  match v with
  | .bool c => c == b
  | .int n => n == one
  | .float x =>
    match Binary64.parts x with
    | .finite _ 0 _ => !b
    | .finite false m e => b && (m : Int) * Int.pow 2 e.toNat == Int.pow 2 (-e).toNat
    | _ => false
  | _ => false

theorem lookup_setMember_self (k : Text) (v : Json) (fs : List (Text × Json)) :
    (setMember k v fs).lookup k = some v := by
  induction fs with
  | nil => simp [setMember]
  | cons p rest ih =>
    obtain ⟨k', v'⟩ := p
    by_cases h : k' = k
    · subst h; simp [setMember]
    · have hb : (k == k') = false := beq_false_of_ne (Ne.symm h)
      simp [setMember, h, List.lookup_cons, hb, ih]

end Json

end CacheHitRate
