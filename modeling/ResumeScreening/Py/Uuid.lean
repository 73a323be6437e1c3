/-
Python's `uuid.UUID`, as far as the service uses it: 32 hexadecimal
digits, `str` in the 8-4-4-4-12 form, and the constructor that reads
the text back.

Identifiers cross every store of this service as text — the Pinecone
namespace and vector id, the S3 key, the message body, the DynamoDB key
— so that two identifiers with one text would merge two tenants.
`UUID.parse_str` rules it out.
-/
import Mathlib.Data.List.Basic

namespace ResumeScreening

/-- A UUID: 32 hexadecimal digits, most significant first. -/
structure UUID where
  digits : List (Fin 16)
  size : digits.length = 32
deriving DecidableEq

namespace UUID

/-- The lower-case character of a digit. -/
def hexChar (d : Fin 16) : Char := Nat.digitChar d.val

/-- The digit of a character, either case. -/
def hexVal (c : Char) : Option (Fin 16) :=
  if '0' ≤ c ∧ c ≤ '9' then some (Fin.ofNat 16 (c.toNat - '0'.toNat))
  else if 'a' ≤ c ∧ c ≤ 'f' then some (Fin.ofNat 16 (c.toNat - 'a'.toNat + 10))
  else if 'A' ≤ c ∧ c ≤ 'F' then some (Fin.ofNat 16 (c.toNat - 'A'.toNat + 10))
  else none

/-- `str(uuid)`, as characters: hyphens after digits 8, 12, 16, 20. -/
def chars (u : UUID) : List Char :=
  let h := u.digits.map hexChar
  h.take 8 ++ '-' :: ((h.drop 8).take 4 ++ '-' :: ((h.drop 12).take 4
    ++ '-' :: ((h.drop 16).take 4 ++ '-' :: h.drop 20)))

/-- `str(uuid)`. -/
def str (u : UUID) : String := String.ofList u.chars

/-- Drop a prefix if it is there. -/
def dropPrefix (p cs : List Char) : List Char :=
  if p.isPrefixOf cs then cs.drop p.length else cs

/-- The characters `UUID` strips. -/
def isBrace (c : Char) : Bool := c == '{' || c == '}'

/-- `str.strip` of the two braces. -/
def stripBraces (cs : List Char) : List Char :=
  ((cs.dropWhile isBrace).reverse.dropWhile isBrace).reverse

/-- `UUID(text)`: the prefixes `urn:` and `uuid:` are dropped, braces
stripped and hyphens ignored; 32 hexadecimal digits must remain. -/
def parse (text : String) : Option UUID :=
  let cs := dropPrefix "uuid:".toList (dropPrefix "urn:".toList text.toList)
  match ((stripBraces cs).filter (· != '-')).mapM hexVal with
  | some ds => if h : ds.length = 32 then some ⟨ds, h⟩ else none
  | none => none

-- ============================================================ round trip

theorem hexVal_hexChar (d : Fin 16) : hexVal (hexChar d) = some d := by
  revert d
  decide

theorem hexChar_plain (d : Fin 16) :
    hexChar d ≠ '-' ∧ hexChar d ≠ '{' ∧ hexChar d ≠ '}'
      ∧ hexChar d ≠ 'u' := by
  revert d
  decide

theorem mapM_hexVal (ds : List (Fin 16)) :
    (ds.map hexChar).mapM hexVal = some ds := by
  induction ds with
  | nil => rfl
  | cons d ds ih =>
      rw [List.map_cons, List.mapM_cons, hexVal_hexChar]
      simp [ih]

/-- A group of the text is cut from the digits' characters. -/
private theorem mem_group {ds : List Char} {i n : Nat} {c : Char}
    (h : c ∈ (ds.drop i).take n) : c ∈ ds :=
  List.mem_of_mem_drop (List.mem_of_mem_take h)

/-- The text holds hyphens and digits' characters only. -/
private theorem mem_chars {u : UUID} {c : Char} (h : c ∈ u.chars) :
    c = '-' ∨ c ∈ u.digits.map hexChar := by
  simp only [chars, List.mem_append, List.mem_cons] at h
  rcases h with h | h | h | h | h | h | h | h | h
  · exact .inr (List.mem_of_mem_take h)
  · exact .inl h
  · exact .inr (mem_group h)
  · exact .inl h
  · exact .inr (mem_group h)
  · exact .inl h
  · exact .inr (mem_group h)
  · exact .inl h
  · exact .inr (List.mem_of_mem_drop h)

/-- Neither a brace nor a prefix's first letter occurs in the text. -/
private theorem chars_plain {u : UUID} {c : Char} (h : c ∈ u.chars) :
    c ≠ '{' ∧ c ≠ '}' ∧ c ≠ 'u' := by
  rcases mem_chars h with rfl | h
  · decide
  · obtain ⟨d, -, rfl⟩ := List.mem_map.mp h
    exact (hexChar_plain d).2

/-- The text has 36 characters. -/
theorem str_length (u : UUID) : u.str.length = 36 := by
  unfold str
  rw [String.length_ofList]
  simp only [chars, List.length_append, List.length_cons, List.length_take,
    List.length_drop, List.length_map, u.size]
  rfl

/-- NUL is not one of them. -/
theorem nul_not_mem (u : UUID) : Char.ofNat 0 ∉ u.str.toList := by
  intro h
  unfold str at h
  rw [String.toList_ofList] at h
  rcases mem_chars h with hdash | hdigit
  · exact absurd hdash (by decide)
  · obtain ⟨d, -, hd⟩ := List.mem_map.mp hdigit
    revert d
    decide

/-- Dropping the hyphens of the text leaves the digits. -/
private theorem filter_chars (u : UUID) :
    u.chars.filter (· != '-') = u.digits.map hexChar := by
  have hall : ∀ l : List Char, (∀ c ∈ l, c ∈ u.digits.map hexChar) →
      l.filter (· != '-') = l := by
    intro l hl
    refine List.filter_eq_self.mpr fun c hc => ?_
    obtain ⟨d, -, rfl⟩ := List.mem_map.mp (hl c hc)
    simp [(hexChar_plain d).1]
  have hdash : ('-' != '-') = false := by decide
  simp only [chars, List.filter_append, List.filter_cons, hdash]
  rw [hall _ fun c hc => List.mem_of_mem_take hc,
    hall _ fun _ => mem_group,
    hall _ fun _ => mem_group,
    hall _ fun _ => mem_group,
    hall _ fun c hc => List.mem_of_mem_drop hc]
  generalize u.digits.map hexChar = h
  have hcut : ∀ n, h.drop n = (h.drop n).take 4 ++ h.drop (n + 4) := by
    intro n
    rw [← List.drop_drop, List.take_append_drop]
  calc h.take 8 ++ ((h.drop 8).take 4 ++ ((h.drop 12).take 4
        ++ ((h.drop 16).take 4 ++ h.drop 20)))
      = h.take 8 ++ ((h.drop 8).take 4 ++ ((h.drop 12).take 4
          ++ h.drop 16)) := by rw [← hcut 16]
    _ = h.take 8 ++ ((h.drop 8).take 4 ++ h.drop 12) := by rw [← hcut 12]
    _ = h.take 8 ++ h.drop 8 := by rw [← hcut 8]
    _ = h := List.take_append_drop 8 h

/-- A prefix whose first letter does not occur is not dropped. -/
private theorem dropPrefix_of_not_mem {x : Char} {p cs : List Char}
    (h : x ∉ cs) : dropPrefix (x :: p) cs = cs := by
  rw [dropPrefix, if_neg]
  cases cs with
  | nil => simp
  | cons c cs =>
      have hne : (x == c) = false := by
        simp only [beq_eq_false_iff_ne, ne_eq]
        rintro rfl
        exact h (List.mem_cons_self ..)
      simp [List.isPrefixOf, hne]

/-- A list without what is dropped keeps its head. -/
private theorem dropWhile_of_forall {p : Char → Bool} {cs : List Char}
    (h : ∀ c ∈ cs, p c = false) : cs.dropWhile p = cs := by
  cases cs with
  | nil => rfl
  | cons c cs =>
      rw [List.dropWhile_cons, if_neg]
      simp [h c (List.mem_cons_self ..)]

/-- Reading back the text of an identifier gives the identifier. -/
theorem parse_str (u : UUID) : parse u.str = some u := by
  have hu : 'u' ∉ u.chars := fun h => (chars_plain h).2.2 rfl
  have hbrace : ∀ c ∈ u.chars, isBrace c = false := by
    intro c hc
    obtain ⟨hopen, hclose, -⟩ := chars_plain hc
    simp [isBrace, hopen, hclose]
  have hstrip : stripBraces u.chars = u.chars := by
    unfold stripBraces
    rw [dropWhile_of_forall hbrace, dropWhile_of_forall fun c hc =>
      hbrace c (List.mem_reverse.mp hc), List.reverse_reverse]
  have htext : u.str.toList = u.chars := String.toList_ofList
  have hurn : dropPrefix "urn:".toList u.chars = u.chars :=
    dropPrefix_of_not_mem hu
  have huuid : dropPrefix "uuid:".toList u.chars = u.chars :=
    dropPrefix_of_not_mem hu
  simp only [parse, htext, hurn, huuid, hstrip, filter_chars, mapM_hexVal,
    u.size, dif_pos]

/-- Distinct identifiers have distinct texts. -/
theorem str_injective {u v : UUID} (h : u.str = v.str) : u = v := by
  have := parse_str u
  rw [h, parse_str v] at this
  exact (Option.some.inj this).symm

/-- The identifier with the low digits of `n`: concrete identifiers for
runs on fixed inputs. -/
def ofNat (n : Nat) : UUID :=
  ⟨List.replicate 30 0 ++ [Fin.ofNat 16 (n / 16), Fin.ofNat 16 n], rfl⟩

end UUID

end ResumeScreening
