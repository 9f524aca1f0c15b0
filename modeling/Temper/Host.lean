import Mathlib
import Temper.Json

/-!
# The host of the runtime

What the modelled crates take from outside the repository: the Unicode case tables, SHA-256,
timestamps, the text of `serde` errors and one deployment setting. Everything else is stated over
an arbitrary `Host`. The 64-bit integers of the source are natural numbers here, with its
arithmetic written out.
-/

namespace Temper

open Json

/-- The largest `u64`. -/
def u64Max : Nat := 2 ^ 64 - 1

/-- `saturating_add` on 64-bit integers. -/
def saturatingAdd (a b : Nat) : Nat := min (a + b) u64Max

/-- Wrapping `+=` on `usize`. -/
def wrapAdd (a b : Nat) : Nat := (a + b) % 2 ^ 64

/-- A `chrono::DateTime<Utc>`, known by its RFC 3339 text. -/
structure Timestamp where
  rfc3339 : String
  deriving DecidableEq, Repr

class Host where
  isUppercase : Char → Bool
  isLowercase : Char → Bool
  -- the first character of `char::to_lowercase`
  toLowercase : Char → Char
  toUppercase : Char → String
  strToLowercase : String → String
  -- lower-case hexadecimal SHA-256 of the UTF-8 bytes of a text
  sha256Hex : String → String
  -- RFC 3339 parsing, as `chrono` reads a serialized timestamp back
  parseTimestamp : String → Option Timestamp
  parseTimestamp_rfc3339 : ∀ t : Timestamp, parseTimestamp t.rfc3339 = some t
  -- `NaiveDateTime::parse_from_str` with `%Y-%m-%dT%H:%M:%S`, taken as UTC
  parseNaiveUtc : String → Option Timestamp
  -- whole seconds from the second timestamp to the first
  numSeconds : Timestamp → Timestamp → Int
  -- the error `serde_json` reports for a payload it cannot decode
  decodeError : Value → String
  -- `TEMPER_RECENT_EVENTS_BUDGET`
  recentEventsBudget : Nat
  recentEventsBudget_pos : 0 < recentEventsBudget

/-- A host whose case tables cover ASCII, with the default settings. Digests are left readable
and timestamps are compared by nothing. -/
@[reducible] def Host.ascii : Host where
  isUppercase := Char.isUpper
  isLowercase := Char.isLower
  toLowercase := Char.toLower
  toUppercase c := String.singleton c.toUpper
  strToLowercase s := String.ofList (s.toList.map Char.toLower)
  sha256Hex text := text
  parseTimestamp text := some ⟨text⟩
  parseTimestamp_rfc3339 _ := rfl
  parseNaiveUtc _ := none
  numSeconds _ _ := 0
  decodeError _ := "invalid type"
  recentEventsBudget := 50
  recentEventsBudget_pos := by decide

end Temper
