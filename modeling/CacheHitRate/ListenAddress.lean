import CacheHitRate.Json.Display
import CacheHitRate.Number.Decimal
/-!
The metrics listen address: `:port` listens on all interfaces, `host:port` on the host, split
at the last colon. The port is read by the integer grammar, so signs, blanks, underscores and
digits of any script are allowed and no range is checked.
-/
namespace CacheHitRate.ListenAddress

inductive AddressError where
  | missingPort
  | badPort (text : Text)
  | portTooLong (digits : Nat)

def AddressError.message : AddressError → Text
  | .missingPort => Text.ofString "not enough values to unpack (expected 2, got 1)"
  | .badPort t =>
    Text.ofString "invalid literal for int() with base 10: " ++ (⟨Json.quoted t⟩ : Text).take 200
  | .portTooLong n =>
    Text.ofString ("Exceeds the limit (4300 digits) for integer string conversion: value has " ++
      toString n ++ " digits; use sys.set_int_max_str_digits() to increase the limit")

def anyHost : Text := Text.ofString "0.0.0.0"

def port (t : Text) : Except AddressError Int :=
  match Decimal.readInt t with
  | .ok n => .ok n
  | .error .invalid => .error (.badPort t)
  | .error (.tooManyDigits n) => .error (.portTooLong n)

def parse (addr : Text) : Except AddressError (Text × Int) :=
  match addr.points with
  | 58 :: rest => (anyHost, ·) <$> port ⟨rest⟩
  | ps =>
    match ps.reverse.idxOf? 58 with
    | none => .error .missingPort
    | some i =>
      let cut := ps.length - 1 - i
      (⟨ps.take cut⟩, ·) <$> port ⟨ps.drop (cut + 1)⟩

end CacheHitRate.ListenAddress
