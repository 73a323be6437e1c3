/-
The Python built-ins the service's text building and date arithmetic
rest on: `str.strip`, `str.join`, formatting of `None`, truthiness of
optional values, slices with any bound, and the range checks of
`datetime` and `timedelta`.
-/
import Mathlib.Data.List.Basic

namespace ResumeScreening.Py

-- =============================================================== strings

/-- The characters `str.isspace` holds of. -/
def isSpace (c : Char) : Bool :=
  let n := c.toNat
  (9 ≤ n && n ≤ 13) || (28 ≤ n && n ≤ 32) || n == 0x85 || n == 0xa0
    || n == 0x1680 || (0x2000 ≤ n && n ≤ 0x200a) || n == 0x2028
    || n == 0x2029 || n == 0x202f || n == 0x205f || n == 0x3000

/-- `str.strip()`. -/
def strip (s : String) : String :=
  String.ofList
    ((s.toList.dropWhile isSpace).reverse.dropWhile isSpace).reverse

/-- `sep.join(parts)`. -/
def join (sep : String) (parts : List String) : String :=
  sep.intercalate parts

/-- An optional string inside an f-string: `None` prints as `None`. -/
def format : Option String → String
  | none => "None"
  | some s => s

/-- `s or default`: the empty string is falsy. -/
def orStr (s default : String) : String := if s = "" then default else s

/-- `value or default` at an optional string. -/
def optOr : Option String → String → String
  | none, default => default
  | some s, default => orStr s default

/-- `value or None` at an optional string. -/
def optTruthy : Option String → Option String
  | some s => if s = "" then none else some s
  | none => none

/-- What is truthy is the value. -/
theorem optTruthy_some {o : Option String} {text : String}
    (h : optTruthy o = some text) : o = some text := by
  cases o with
  | none => cases h
  | some s =>
      unfold optTruthy at h
      by_cases hs : s = ""
      · simp [hs] at h
      · simpa [hs] using h

-- ========================================================= dicts and slices

/-- A `dict` with string keys and values that are strings or `None`. -/
abbrev Dict : Type := List (String × Option String)

/-- `d.get(key, default)`: the default replaces a missing key, not a
`None` under a key that is present. -/
def Dict.get (d : Dict) (key : String) (default : Option String) :
    Option String :=
  match List.lookup key d with
  | some v => v
  | none => default

/-- `value or default` at an optional integer: zero is falsy. -/
def orInt : Option Int → Int → Int
  | none, default => default
  | some n, default => if n = 0 then default else n

/-- `xs[:n]`: a negative bound counts from the end. -/
def takeTo {α : Type} (xs : List α) (n : Int) : List α :=
  if 0 ≤ n then xs.take n.toNat else xs.take (xs.length - (-n).toNat)

-- ============================================================== datetimes

/-- The first instant `datetime` can represent, in microseconds from
the epoch: the start of year 1. -/
def minMicros : Int := -62135596800000000

/-- The last instant `datetime` can represent: the end of year 9999. -/
def maxMicros : Int := 253402300799999999

/-- An aware UTC `datetime`, as microseconds from the epoch. -/
structure DateTime where
  micros : Int
  lower : minMicros ≤ micros
  upper : micros ≤ maxMicros
deriving DecidableEq

/-- The `datetime` at an instant, where there is one. -/
def DateTime.ofMicros (n : Int) : Option DateTime :=
  if h : minMicros ≤ n ∧ n ≤ maxMicros then some ⟨n, h.1, h.2⟩ else none

/-- `datetime.fromtimestamp(seconds, tz=utc)`; `none` where it raises. -/
def DateTime.fromTimestamp (seconds : Int) : Option DateTime :=
  DateTime.ofMicros (seconds * 1000000)

/-- `timedelta(days=n)`, in microseconds; `none` where it overflows. -/
def timedeltaDays (n : Int) : Option Int :=
  if n.natAbs ≤ 999999999 then some (n * 86400000000) else none

/-- `t - delta`; `none` where it overflows. -/
def DateTime.sub (t : DateTime) (delta : Int) : Option DateTime :=
  DateTime.ofMicros (t.micros - delta)

/-- The epoch. -/
def DateTime.epoch : DateTime := ⟨0, by decide, by decide⟩

end ResumeScreening.Py
