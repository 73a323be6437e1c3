/-
Python's `json.loads` on bytes.

A decoded text is a list of code points, and so is a JSON string: Python
keeps the lone surrogates an escape can name, which no `String` holds. A
number with a fraction or an exponent keeps its literal, since what it
means is a matter of floating point. `loads` is `none` where Python
raises; every such exception is a `ValueError`.

The second half is the way back for texts of strings and objects, which
is all a caller needs to send: `reads_quoted` and `reads_object` say what
the parser makes of them, whatever follows.
-/
import Mathlib.Data.List.Basic

namespace ResumeScreening.Py

/-- A JSON value. Keys may repeat. -/
inductive Json
  | null
  | bool (b : Bool)
  | int (n : Int)
  | float (literal : List Nat)
  | str (s : List Nat)
  | arr (items : List Json)
  | obj (fields : List (List Nat × Json))

/-- The code points of a string. -/
def codes (s : String) : List Nat := s.toList.map Char.toNat

/-- The character of a code point; `none` for a surrogate. -/
def char? (n : Nat) : Option Char :=
  if n.isValidChar then some (Char.ofNat n) else none

/-- The string of some code points, where there is one. -/
def text? (cs : List Nat) : Option String := (cs.mapM char?).map String.ofList

-- =============================================================== encodings

def isHigh (n : Nat) : Bool := decide (0xd800 ≤ n ∧ n ≤ 0xdbff)

def isLow (n : Nat) : Bool := decide (0xdc00 ≤ n ∧ n ≤ 0xdfff)

/-- Surrogate pairs, joined. -/
def joinPairs : List Nat → List Nat
  | hi :: lo :: cs =>
      if isHigh hi && isLow lo then
        (0x10000 + (hi - 0xd800) * 0x400 + (lo - 0xdc00)) :: joinPairs cs
      else hi :: joinPairs (lo :: cs)
  | cs => cs

/-- UTF-16 code units, in the given byte order. -/
def units16 (bigEndian : Bool) : List UInt8 → Option (List Nat)
  | [] => some []
  | a :: b :: rest =>
      let n := if bigEndian then a.toNat * 0x100 + b.toNat
        else b.toNat * 0x100 + a.toNat
      (units16 bigEndian rest).map (n :: ·)
  | [_] => none

/-- UTF-32 code points, in the given byte order. -/
def units32 (bigEndian : Bool) : List UInt8 → Option (List Nat)
  | [] => some []
  | a :: b :: c :: d :: rest =>
      let n := if bigEndian then
          ((a.toNat * 0x100 + b.toNat) * 0x100 + c.toNat) * 0x100 + d.toNat
        else ((d.toNat * 0x100 + c.toNat) * 0x100 + b.toNat) * 0x100 + a.toNat
      if n ≤ 0x10ffff then (units32 bigEndian rest).map (n :: ·) else none
  | _ => none

/-- `text.encode("utf-8")`. -/
def utf8 (text : String) : List UInt8 := text.toUTF8.data.toList

/-- `bytes.decode("utf-8")`. -/
def decodeUtf8 (bytes : List UInt8) : Option String :=
  String.fromUTF8? ⟨bytes.toArray⟩

/-- Decode in the encoding `json.detect_encoding` finds, from the zero
bytes in front. Byte order marks of UTF-16 and UTF-32 are left out: no
UTF-8 text starts with one. -/
def decode (bytes : List UInt8) : Option (List Nat) :=
  match bytes with
  | 0xef :: 0xbb :: 0xbf :: rest => (decodeUtf8 rest).map codes
  | [a, b] =>
      if a = 0 then (units16 true bytes).map joinPairs
      else if b = 0 then (units16 false bytes).map joinPairs
      else (decodeUtf8 bytes).map codes
  | a :: b :: c :: d :: _ =>
      if a = 0 then
        if b = 0 then units32 true bytes
        else (units16 true bytes).map joinPairs
      else if b = 0 then
        if c = 0 ∧ d = 0 then units32 false bytes
        else (units16 false bytes).map joinPairs
      else (decodeUtf8 bytes).map codes
  | _ => (decodeUtf8 bytes).map codes

-- ================================================================= scanning

/-- JSON white space. -/
def isBlank (c : Nat) : Bool :=
  c == ' '.toNat || c == '\t'.toNat || c == '\n'.toNat || c == '\r'.toNat

def skip (cs : List Nat) : List Nat := cs.dropWhile isBlank

/-- The text behind a character that must come next. -/
def expect (c : Char) : List Nat → Option (List Nat)
  | x :: cs => if x = c.toNat then some cs else none
  | [] => none

def isDigit (c : Nat) : Bool := decide ('0'.toNat ≤ c ∧ c ≤ '9'.toNat)

def hexDigit (c : Nat) : Option Nat :=
  if isDigit c then some (c - '0'.toNat)
  else if 'a'.toNat ≤ c ∧ c ≤ 'f'.toNat then some (c - 'a'.toNat + 10)
  else if 'A'.toNat ≤ c ∧ c ≤ 'F'.toNat then some (c - 'A'.toNat + 10)
  else none

/-- The code unit of a `\uXXXX` escape. -/
def codeUnit (a b c d : Nat) : Option Nat := do
  let a ← hexDigit a
  let b ← hexDigit b
  let c ← hexDigit c
  let d ← hexDigit d
  return ((a * 16 + b) * 16 + c) * 16 + d

/-- What a one-character escape stands for. -/
def escaped (c : Nat) : Option Nat :=
  if c = '"'.toNat ∨ c = '\\'.toNat ∨ c = '/'.toNat then some c
  else if c = 'b'.toNat then some 8
  else if c = 'f'.toNat then some 12
  else if c = 'n'.toNat then some 10
  else if c = 'r'.toNat then some 13
  else if c = 't'.toNat then some 9
  else none

/-- A string, from behind its opening quote to behind its closing one.
Control characters are refused. -/
def string : List Nat → Option (List Nat × List Nat)
  | [] => none
  | c :: cs =>
      if c = '"'.toNat then some ([], cs)
      else if c = '\\'.toNat then
        match cs with
        | [] => none
        | e :: cs =>
            if e = 'u'.toNat then
              match cs with
              | h₁ :: h₂ :: h₃ :: h₄ :: cs =>
                  (codeUnit h₁ h₂ h₃ h₄).bind fun n =>
                    (string cs).map fun p => (n :: p.1, p.2)
              | _ => none
            else (escaped e).bind fun n =>
              (string cs).map fun p => (n :: p.1, p.2)
      else if c < 32 then none
      else (string cs).map fun p => (c :: p.1, p.2)

/-- `0|[1-9]\d*`. -/
def whole : List Nat → Option (List Nat × List Nat)
  | [] => none
  | c :: cs =>
      if c = '0'.toNat then some ([c], cs)
      else if isDigit c then some (c :: cs.takeWhile isDigit, cs.dropWhile isDigit)
      else none

/-- `(\.\d+)?`. -/
def fraction (cs : List Nat) : List Nat × List Nat :=
  match expect '.' cs with
  | some rest =>
      let ds := rest.takeWhile isDigit
      if ds = [] then ([], cs) else ('.'.toNat :: ds, rest.dropWhile isDigit)
  | none => ([], cs)

/-- `([eE][-+]?\d+)?`. -/
def exponent (cs : List Nat) : List Nat × List Nat :=
  match cs with
  | e :: rest =>
      if e = 'e'.toNat ∨ e = 'E'.toNat then
        let sign := rest.take 1 |>.filter fun c =>
          c == '+'.toNat || c == '-'.toNat
        let ds := (rest.drop sign.length).takeWhile isDigit
        if ds = [] then ([], cs)
        else (e :: sign ++ ds, (rest.drop sign.length).dropWhile isDigit)
      else ([], cs)
  | [] => ([], cs)

/-- The integer of a run of digits. -/
def decimal (ds : List Nat) : Nat :=
  ds.foldl (fun n d => n * 10 + (d - '0'.toNat)) 0

/-- A number; `int()` refuses more than 4300 digits. -/
def number (cs : List Nat) : Option (Json × List Nat) := do
  let negative := (expect '-' cs).isSome
  let (digits, rest) ← whole (if negative then cs.drop 1 else cs)
  let (frac, rest) := fraction rest
  let (exp, rest) := exponent rest
  if frac = [] ∧ exp = [] then
    if digits.length ≤ 4300 then
      let n : Int := decimal digits
      some (.int (if negative then -n else n), rest)
    else none
  else
    some (.float ((if negative then ['-'.toNat] else []) ++ digits ++ frac ++ exp),
      rest)

/-- The constants, among them the three that are not JSON. -/
def constants : List (String × Json) :=
  [("null", .null), ("true", .bool true), ("false", .bool false),
    ("NaN", .float (codes "NaN")), ("Infinity", .float (codes "Infinity")),
    ("-Infinity", .float (codes "-Infinity"))]

/-- A constant or a number. -/
def scalar (cs : List Nat) : Option (Json × List Nat) :=
  match constants.find? fun k => (codes k.1).isPrefixOf cs with
  | some k => some (k.2, cs.drop k.1.length)
  | none => number cs

mutual

/-- A value. The fuel bounds the calls below it; each reads a character. -/
def value : Nat → List Nat → Option (Json × List Nat)
  | 0, _ => none
  | n + 1, cs =>
      match cs with
      | [] => none
      | c :: rest =>
          if c = '"'.toNat then
            (string rest).map fun p => (.str (joinPairs p.1), p.2)
          else if c = '{'.toNat then
            match expect '}' (skip rest) with
            | some rest => some (.obj [], rest)
            | none => (members n (skip rest)).map fun p => (.obj p.1, p.2)
          else if c = '['.toNat then
            match expect ']' (skip rest) with
            | some rest => some (.arr [], rest)
            | none => (elements n (skip rest)).map fun p => (.arr p.1, p.2)
          else scalar cs

/-- The members of an object, to behind its closing brace. -/
def members : Nat → List Nat → Option (List (List Nat × Json) × List Nat)
  | 0, _ => none
  | n + 1, cs => do
      let cs ← expect '"' cs
      let (key, cs) ← string cs
      let cs ← expect ':' (skip cs)
      let (v, cs) ← value n (skip cs)
      match expect '}' (skip cs) with
      | some cs => some ([(joinPairs key, v)], cs)
      | none =>
          let cs ← expect ',' (skip cs)
          let (more, cs) ← members n (skip cs)
          some ((joinPairs key, v) :: more, cs)

/-- The items of an array, to behind its closing bracket. -/
def elements : Nat → List Nat → Option (List Json × List Nat)
  | 0, _ => none
  | n + 1, cs => do
      let (v, cs) ← value n cs
      match expect ']' (skip cs) with
      | some cs => some ([v], cs)
      | none =>
          let cs ← expect ',' (skip cs)
          let (more, cs) ← elements n (skip cs)
          some (v :: more, cs)

end

/-- `json.loads(bytes)`. -/
def loads (bytes : List UInt8) : Option Json := do
  let cs ← decode bytes
  let (v, rest) ← value (cs.length + 1) (skip cs)
  if skip rest = [] then some v else none

-- ================================================================= printing

/-- A character inside a string. -/
def escape (c : Char) : List Char :=
  if c = '"' then ['\\', '"']
  else if c = '\\' then ['\\', '\\']
  else if c.toNat < 32 then
    ['\\', 'u', '0', '0', Nat.digitChar (c.toNat / 16),
      Nat.digitChar (c.toNat % 16)]
  else [c]

/-- A string, between its quotes. -/
def quoted (s : String) : List Char :=
  '"' :: (s.toList.flatMap escape ++ ['"'])

/-- The members of an object, from the texts of their values. -/
def printMembers : List (String × List Char) → List Char
  | [] => []
  | [(k, text)] => quoted k ++ ':' :: text
  | (k, text) :: more => quoted k ++ ':' :: (text ++ ',' :: printMembers more)

/-- An object with a member at least. -/
def printObject (fields : List (String × List Char)) : List Char :=
  '{' :: (printMembers fields ++ ['}'])

-- ============================================================== reading back

section

variable {c e : Nat} {cs : List Nat}

theorem string_close : string ('"'.toNat :: cs) = some ([], cs) := by
  rw [string.eq_def]
  rfl

theorem string_short (h : e ≠ 'u'.toNat) :
    string ('\\'.toNat :: e :: cs)
      = (escaped e).bind fun n => (string cs).map fun p => (n :: p.1, p.2) := by
  rw [string.eq_def]
  simp only [if_neg h]
  rfl

theorem string_unit {h₁ h₂ h₃ h₄ n : Nat}
    (h : codeUnit h₁ h₂ h₃ h₄ = some n) :
    string ('\\'.toNat :: 'u'.toNat :: h₁ :: h₂ :: h₃ :: h₄ :: cs)
      = (string cs).map fun p => (n :: p.1, p.2) := by
  rw [string.eq_def]
  simp only [if_true, h, Option.bind_some]
  rfl

theorem string_plain (hquote : c ≠ '"'.toNat) (hback : c ≠ '\\'.toNat)
    (hcontrol : ¬ c < 32) :
    string (c :: cs) = (string cs).map fun p => (c :: p.1, p.2) := by
  rw [string.eq_def]
  simp only [if_neg hquote, if_neg hback, if_neg hcontrol]

end

theorem string_escape (c : Char) (rest : List Nat) :
    string ((escape c).map Char.toNat ++ rest)
      = (string rest).map fun p => (c.toNat :: p.1, p.2) := by
  unfold escape
  by_cases hquote : c = '"'
  · subst hquote
    exact string_short (by decide)
  by_cases hback : c = '\\'
  · subst hback
    exact string_short (by decide)
  by_cases hcontrol : c.toNat < 32
  · have hunit : ∀ n < 32, codeUnit '0'.toNat '0'.toNat
        (Nat.digitChar (n / 16)).toNat (Nat.digitChar (n % 16)).toNat
          = some n := by decide
    simp only [if_neg hquote, if_neg hback, if_pos hcontrol]
    exact string_unit (hunit c.toNat hcontrol)
  · have hne : ∀ d : Char, c ≠ d → c.toNat ≠ d.toNat :=
      fun d h heq => h (Char.toNat_inj.mp heq)
    simp only [if_neg hquote, if_neg hback, if_neg hcontrol]
    exact string_plain (hne _ hquote) (hne _ hback) hcontrol

theorem string_quoted (cs : List Char) (rest : List Nat) :
    string ((cs.flatMap escape).map Char.toNat ++ '"'.toNat :: rest)
      = some (cs.map Char.toNat, rest) := by
  induction cs with
  | nil => exact string_close
  | cons c cs ih =>
      rw [List.flatMap_cons, List.map_append, List.append_assoc, string_escape,
        ih]
      rfl

/-- A character is no surrogate. -/
theorem not_isHigh (c : Char) : isHigh c.toNat = false := by
  have hvalid := c.valid
  unfold UInt32.isValidChar Nat.isValidChar at hvalid
  unfold isHigh Char.toNat
  simp only [decide_eq_false_iff_not]
  omega

theorem text?_codes (s : String) : text? (codes s) = some s := by
  have hchars : ∀ cs : List Char, (cs.map Char.toNat).mapM char? = some cs := by
    intro cs
    induction cs with
    | nil => rfl
    | cons c cs ih =>
        have hchar : char? c.toNat = some c := by
          have hvalid : c.toNat.isValidChar := c.valid
          simp [char?, hvalid]
        simp [List.mapM_cons, hchar, ih]
  unfold text? codes
  rw [hchars]
  simp

theorem joinPairs_codes (cs : List Char) :
    joinPairs (cs.map Char.toNat) = cs.map Char.toNat := by
  induction cs with
  | nil => rfl
  | cons c cs ih =>
      cases cs with
      | nil => rfl
      | cons d cs =>
          rw [List.map_cons, List.map_cons, joinPairs, not_isHigh,
            ← List.map_cons, ih]
          rfl

/-- With that much fuel or more, the parser reads the text as the value,
and leaves what follows. The text does not start with white space. -/
structure Reads (n : Nat) (text : List Char) (v : Json) : Prop where
  starts : ∃ c cs, text = c :: cs ∧ isBlank c.toNat = false
  value : ∀ m, n ≤ m → ∀ rest,
    value m (text.map Char.toNat ++ rest) = some (v, rest)

theorem reads_quoted (s : String) : Reads 1 (quoted s) (.str (codes s)) where
  starts := ⟨'"', _, rfl, rfl⟩
  value m hm rest := by
    obtain ⟨m, rfl⟩ : ∃ k, m = k + 1 := ⟨m - 1, by omega⟩
    unfold quoted
    simp only [List.map_cons, List.map_append, List.map_nil, List.cons_append,
      List.append_assoc, List.nil_append]
    rw [Py.value]
    simp only [if_true]
    rw [string_quoted]
    simp [joinPairs_codes, codes]

theorem expect_self (c : Char) (cs : List Nat) :
    expect c (c.toNat :: cs) = some cs := by
  simp [expect]

theorem expect_ne {c : Char} {x : Nat} (h : x ≠ c.toNat) (cs : List Nat) :
    expect c (x :: cs) = none := by
  simp [expect, h]

theorem skip_of_not_blank {x : Nat} (h : isBlank x = false) (cs : List Nat) :
    skip (x :: cs) = x :: cs := by
  simp [skip, h]

theorem Reads.skip_eq {n : Nat} {text : List Char} {v : Json}
    (h : Reads n text v) (rest : List Nat) :
    skip (text.map Char.toNat ++ rest) = text.map Char.toNat ++ rest := by
  obtain ⟨c, cs, rfl, hblank⟩ := h.starts
  exact skip_of_not_blank hblank _

/-- One member: what is left decides whether it was the last. -/
theorem members_read {n m : Nat} {text : List Char} {v : Json}
    (h : Reads n text v) (hm : n ≤ m) (k : String) (cs : List Nat) :
    members (m + 1) ((quoted k ++ ':' :: text).map Char.toNat ++ cs)
      = match expect '}' (skip cs) with
        | some cs => some ([(codes k, v)], cs)
        | none => (expect ',' (skip cs)).bind fun cs =>
            (members m (skip cs)).bind fun p =>
              some ((codes k, v) :: p.1, p.2) := by
  have htext : (quoted k ++ ':' :: text).map Char.toNat ++ cs
      = '"'.toNat :: ((k.toList.flatMap escape).map Char.toNat
        ++ '"'.toNat :: ':'.toNat :: (text.map Char.toNat ++ cs)) := by
    simp [quoted]
  have hcolon : isBlank ':'.toNat = false := by decide
  rw [htext, members]
  simp only [Option.bind_eq_bind, expect_self, Option.bind_some, string_quoted,
    skip_of_not_blank hcolon, h.skip_eq, h.value m hm, joinPairs_codes]
  rfl

theorem members_print {n : Nat} {fields : List (String × List Char)}
    {vs : List (List Nat × Json)} (hne : fields ≠ [])
    (h : List.Forall₂ (fun f v => v.1 = codes f.1 ∧ Reads n f.2 v.2) fields vs)
    {m : Nat} (hm : n + fields.length ≤ m) (rest : List Nat) :
    members m ((printMembers fields).map Char.toNat ++ '}'.toNat :: rest)
      = some (vs, rest) := by
  have hbrace : isBlank '}'.toNat = false := by decide
  have hcomma : isBlank ','.toNat = false := by decide
  induction h generalizing m with
  | nil => exact absurd rfl hne
  | @cons f v fields vs hf hrest ih =>
      obtain ⟨k, text⟩ := f
      obtain ⟨key, v⟩ := v
      obtain ⟨rfl, hread⟩ := hf
      rw [List.length_cons] at hm
      obtain ⟨m, rfl⟩ : ∃ l, m = l + 1 := ⟨m - 1, by omega⟩
      cases fields with
      | nil =>
          cases hrest
          show members (m + 1) ((quoted k ++ ':' :: text).map Char.toNat ++ _)
            = _
          rw [members_read hread (by omega), skip_of_not_blank hbrace,
            expect_self]
      | cons f fields =>
          have hshape : (printMembers ((k, text) :: f :: fields)).map Char.toNat
              ++ '}'.toNat :: rest
              = (quoted k ++ ':' :: text).map Char.toNat ++ ','.toNat ::
                ((printMembers (f :: fields)).map Char.toNat
                  ++ '}'.toNat :: rest) := by
            simp [printMembers]
          have hstart : skip ((printMembers (f :: fields)).map Char.toNat
              ++ '}'.toNat :: rest) = (printMembers (f :: fields)).map Char.toNat
              ++ '}'.toNat :: rest := by
            cases fields <;> exact skip_of_not_blank (by decide) _
          rw [hshape, members_read hread (by omega), skip_of_not_blank hcomma,
            expect_ne (by decide), expect_self]
          simp only [Option.bind_some, hstart]
          rw [ih (by simp) (by omega)]
          rfl

theorem reads_object {n : Nat} {fields : List (String × List Char)}
    {vs : List (List Nat × Json)} (hne : fields ≠ [])
    (h : List.Forall₂ (fun f v => v.1 = codes f.1 ∧ Reads n f.2 v.2) fields vs) :
    Reads (n + fields.length + 1) (printObject fields) (.obj vs) where
  starts := ⟨'{', _, rfl, by decide⟩
  value m hm rest := by
    obtain ⟨m, rfl⟩ : ∃ l, m = l + 1 := ⟨m - 1, by omega⟩
    have hstart : ∃ cs, (printMembers fields).map Char.toNat ++ '}'.toNat :: rest
        = '"'.toNat :: cs := by
      cases fields with
      | nil => exact absurd rfl hne
      | cons f fields => cases fields <;> exact ⟨_, rfl⟩
    obtain ⟨cs, hcs⟩ := hstart
    have hmembers := members_print hne h (m := m) (by omega) rest
    have htext : (printObject fields).map Char.toNat ++ rest
        = '{'.toNat :: ((printMembers fields).map Char.toNat
          ++ '}'.toNat :: rest) := by
      simp [printObject]
    rw [htext, Py.value]
    rw [hcs] at hmembers ⊢
    have hquote : isBlank '"'.toNat = false := by decide
    have h₁ : '{'.toNat ≠ '"'.toNat := by decide
    have h₂ : '"'.toNat ≠ '}'.toNat := by decide
    simp only [if_neg h₁, if_true, skip_of_not_blank hquote, expect_ne h₂,
      hmembers, Option.map_some]

/-- An object of one member. -/
theorem reads_member {n : Nat} {text : List Char} {v : Json}
    (h : Reads n text v) (k : String) :
    Reads (n + 2) (printObject [(k, text)]) (.obj [(codes k, v)]) := by
  have hall : List.Forall₂ (fun f v => v.1 = codes f.1 ∧ Reads n f.2 v.2)
      [(k, text)] [(codes k, v)] := .cons ⟨rfl, h⟩ .nil
  exact reads_object (by simp) hall

theorem Reads.mono {n n' : Nat} {text : List Char} {v : Json}
    (h : Reads n text v) (hn : n ≤ n') : Reads n' text v where
  starts := h.starts
  value m hm rest := h.value m (by omega) rest

-- =================================================================== bytes

theorem decodeUtf8_utf8 (text : String) : decodeUtf8 (utf8 text) = some text := by
  have harr : (⟨(utf8 text).toArray⟩ : ByteArray) = text.toByteArray := by
    simp [utf8]
  unfold decodeUtf8
  rw [harr, String.fromUTF8?, dif_pos text.isValidUTF8]
  rfl

theorem utf8_cons {c : Char} (h : c.toNat < 128) (cs : List Char) :
    utf8 (String.ofList (c :: cs))
      = UInt8.ofNat c.toNat :: utf8 (String.ofList cs) := by
  have hone : String.utf8EncodeChar c = [UInt8.ofNat c.toNat] := by
    have hle : c.val.toNat ≤ 0x7f := Nat.le_of_lt_succ h
    unfold String.utf8EncodeChar
    rw [if_pos hle]
    rfl
  unfold utf8
  simp only [String.toUTF8_eq_toByteArray, String.toByteArray_ofList]
  rw [List.utf8Encode_cons, List.utf8Encode_singleton, hone]
  simp

/-- Text that starts as an object does, with a brace and a quote, is
UTF-8. -/
theorem decode_brace (rest : List UInt8) :
    decode (UInt8.ofNat '{'.toNat :: UInt8.ofNat '"'.toNat :: rest)
      = (decodeUtf8 (UInt8.ofNat '{'.toNat :: UInt8.ofNat '"'.toNat
        :: rest)).map codes := by
  rcases rest with _ | ⟨c, _ | ⟨d, rest⟩⟩
  · rfl
  · rfl
  · rfl

/-- An object's text, sent as UTF-8, loads as the object. -/
theorem loads_object {n : Nat} {fields : List (String × List Char)}
    {vs : List (List Nat × Json)} (hne : fields ≠ [])
    (h : List.Forall₂ (fun f v => v.1 = codes f.1 ∧ Reads n f.2 v.2) fields vs)
    (hn : n + fields.length ≤ (printObject fields).length) :
    loads (utf8 (String.ofList (printObject fields))) = some (.obj vs) := by
  have hread := reads_object hne h
  have hstart : ∃ cs, printObject fields = '{' :: '"' :: cs := by
    cases fields with
    | nil => exact absurd rfl hne
    | cons f fields => cases fields <;> exact ⟨_, rfl⟩
  have hdecode : decode (utf8 (String.ofList (printObject fields)))
      = some ((printObject fields).map Char.toNat) := by
    obtain ⟨cs, hcs⟩ := hstart
    have hall := decodeUtf8_utf8 (String.ofList (printObject fields))
    rw [hcs, utf8_cons (by decide), utf8_cons (by decide)] at hall ⊢
    rw [decode_brace, hall]
    simp [codes]
  have hvalue := hread.value ((printObject fields).length + 1) (by omega) []
  have hskip := hread.skip_eq []
  rw [List.append_nil] at hvalue hskip
  unfold loads
  simp only [hdecode, Option.bind_eq_bind, Option.bind_some, List.length_map,
    hskip, hvalue]
  rfl

end ResumeScreening.Py
