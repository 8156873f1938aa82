import Mathlib.Tactic.IntervalCases
import RfpPlatform.CanonicalText

namespace RfpPlatform.JsonText

open CanonicalText

def isFloatChar (c : Char) : Bool :=
  c.isDigit || decide (c ∈ ['+', '-', '.', 'e', 'N', 'a', 'I', 'n', 'f', 'i', 't', 'y'])

/-- A float has a fraction, an exponent or a name. -/
def isFloatMark (c : Char) : Bool := decide (c ∈ ['.', 'e', 'N', 'I'])

/-- What `float.__repr__` writes, with the names that `json.dumps` has for the other floats. -/
def isFloatText (t : List Char) : Bool := t.all isFloatChar && t.any isFloatMark

/-- A float, by the text that it is written as. -/
structure FloatText where
  text : List Char
  form : isFloatText text = true

inductive Scalar
  | null
  | bool (b : Bool)
  | int (n : Int)
  | float (x : FloatText)

abbrev JsonValue := Value Scalar

def intText : Int → List Char
  | .ofNat n => Nat.toDigits 10 n
  | .negSucc n => '-' :: Nat.toDigits 10 (n + 1)

def Scalar.word : Scalar → List Char
  | .null => ['n', 'u', 'l', 'l']
  | .bool true => ['t', 'r', 'u', 'e']
  | .bool false => ['f', 'a', 'l', 's', 'e']
  | .int n => intText n
  | .float x => x.text

/-- `\u` and four hexadecimal digits. -/
def unicodeEscape (n : Nat) : List Char :=
  ['\\', 'u', (n / 4096 % 16).digitChar, (n / 256 % 16).digitChar, (n / 16 % 16).digitChar,
    (n % 16).digitChar]

def shortEscape (c : Char) : Option (List Char) :=
  match c with
  | '"' => some ['\\', '"']
  | '\\' => some ['\\', '\\']
  | '\n' => some ['\\', 'n']
  | '\r' => some ['\\', 'r']
  | '\t' => some ['\\', 't']
  | '\x08' => some ['\\', 'b']
  | '\x0c' => some ['\\', 'f']
  | _ => none

/-- `py_encode_basestring` -/
def escape (c : Char) : List Char :=
  (shortEscape c).getD (if c.toNat < 32 then unicodeEscape c.toNat else [c])

/-- `py_encode_basestring_ascii`, with a surrogate pair for what lies beyond four digits. -/
def escapeAscii (c : Char) : List Char :=
  (shortEscape c).getD
    (if 32 ≤ c.toNat ∧ c.toNat ≤ 126 then [c]
    else if c.toNat < 65536 then unicodeEscape c.toNat
    else unicodeEscape (55296 + (c.toNat - 65536) / 1024) ++
      unicodeEscape (56320 + (c.toNat - 65536) % 1024))

def format (ensureAscii : Bool) : Format Scalar :=
  ⟨Scalar.word, if ensureAscii then escapeAscii else escape⟩

/-- `json.dumps(v, sort_keys=True, ensure_ascii=ensureAscii)` -/
def dumps (ensureAscii : Bool) (v : JsonValue) : String := canonical (format ensureAscii) v

section Escapes

def hexValue (c : Char) : Nat := if c.isDigit then c.toNat - 48 else c.toNat - 87

/-- The character whose escape follows a backslash. -/
def readShort : List Char → Option (Char × List Char)
  | 'u' :: _ :: _ :: h :: l :: rest => some (Char.ofNat (16 * hexValue h + hexValue l), rest)
  | 'n' :: rest => some ('\n', rest)
  | 'r' :: rest => some ('\r', rest)
  | 't' :: rest => some ('\t', rest)
  | 'b' :: rest => some ('\x08', rest)
  | 'f' :: rest => some ('\x0c', rest)
  | c :: rest => some (c, rest)
  | [] => none

/-- The character that an escaped text starts with. -/
def readEscape : List Char → Option (Char × List Char)
  | c :: rest => if c = '\\' then readShort rest else some (c, rest)
  | [] => none

theorem readEscape_control (x : List Char) :
    ∀ n < 32, readEscape (escape (Char.ofNat n) ++ x) = some (Char.ofNat n, x) := by
  intro n hn
  interval_cases n <;> rfl

theorem escape_of_plain {c : Char} (hquote : c ≠ '"') (hslash : c ≠ '\\') (hc : 32 ≤ c.toNat) :
    escape c = [c] := by
  have hshort : shortEscape c = none := by
    unfold shortEscape
    split
    · exact absurd rfl hquote
    · exact absurd rfl hslash
    all_goals first | rfl | exact absurd hc (by decide)
  rw [escape, hshort, Option.getD_none, if_neg (Nat.not_lt.mpr hc)]

theorem readEscape_escape (c : Char) (x : List Char) : readEscape (escape c ++ x) = some (c, x) := by
  by_cases hquote : c = '"'
  · subst hquote
    rfl
  by_cases hslash : c = '\\'
  · subst hslash
    rfl
  by_cases hcontrol : c.toNat < 32
  · have h := readEscape_control x c.toNat hcontrol
    rwa [Char.ofNat_toNat] at h
  · rw [escape_of_plain hquote hslash (Nat.le_of_not_lt hcontrol), List.singleton_append, readEscape,
      if_neg hslash]

theorem escape_append_inj {c d : Char} {x y : List Char} (h : escape c ++ x = escape d ++ y) :
    c = d ∧ x = y := by
  have hread := readEscape_escape c x
  rw [h, readEscape_escape d y] at hread
  exact (Prod.mk.inj (Option.some.inj hread)).imp Eq.symm Eq.symm

theorem escape_ne_quote (c : Char) (x y : List Char) : escape c ++ x ≠ '"' :: y := by
  intro h
  have hread := readEscape_escape c x
  rw [h] at hread
  obtain ⟨rfl, -⟩ := Prod.mk.inj (Option.some.inj hread)
  exact absurd (List.head_eq_of_cons_eq h) (by decide)

end Escapes

section Words

theorem intText_injective : Function.Injective intText := by
  have hneg : ∀ n : Nat, '-' ∉ Nat.toDigits 10 n := fun n h =>
    absurd (Nat.isDigit_of_mem_toDigits (by decide) (by decide) h) (by decide)
  have hdigits : ∀ {m n : Nat}, Nat.toDigits 10 m = Nat.toDigits 10 n → m = n := by
    intro m n h
    rw [← Nat.ofDigitChars_ten_toDigits (n := m), h, Nat.ofDigitChars_ten_toDigits]
  intro m n h
  cases m with
  | ofNat m =>
      cases n with
      | ofNat n => rw [hdigits h]
      | negSucc n =>
          have hmem : '-' ∈ intText (.negSucc n) := List.mem_cons_self
          rw [← h] at hmem
          exact absurd hmem (hneg m)
  | negSucc m =>
      cases n with
      | ofNat n =>
          have hmem : '-' ∈ intText (.negSucc m) := List.mem_cons_self
          rw [h] at hmem
          exact absurd hmem (hneg n)
      | negSucc n => rw [Nat.succ.inj (hdigits (List.tail_eq_of_cons_eq h))]

def digitOrSign (c : Char) : Bool := c.isDigit || c = '-'

theorem intText_digits (n : Int) : (intText n).all digitOrSign = true := by
  have hdigits : ∀ m : Nat, (Nat.toDigits 10 m).all digitOrSign = true := by
    intro m
    refine List.all_eq_true.mpr fun c hc => ?_
    rw [digitOrSign, Nat.isDigit_of_mem_toDigits (by decide) (by decide) hc, Bool.true_or]
  cases n with
  | ofNat n => exact hdigits n
  | negSucc n =>
      rw [intText, List.all_cons, hdigits]
      rfl

theorem intText_ne_nil (n : Int) : intText n ≠ [] := by
  cases n with
  | ofNat n => exact Nat.toDigits_ne_nil
  | negSucc n => exact List.cons_ne_nil _ _

theorem not_isFloatText_intText (n : Int) : isFloatText (intText n) = false := by
  have hmarks : (intText n).any isFloatMark = false := by
    refine List.any_eq_false.mpr fun c hc => ?_
    have hdigit := List.all_eq_true.mp (intText_digits n) c hc
    intro hmark
    simp only [isFloatMark, decide_eq_true_eq, List.mem_cons, List.not_mem_nil, or_false] at hmark
    rcases hmark with rfl | rfl | rfl | rfl <;> exact absurd hdigit (by decide)
  rw [isFloatText, hmarks, Bool.and_false]

def Scalar.kind : Scalar → Nat
  | .null => 0
  | .bool b => if b then 1 else 2
  | .int _ => 3
  | .float _ => 4

/-- A scalar's kind can be told from its text. -/
def kindOfWord (t : List Char) : Nat :=
  if isFloatText t then 4
  else if t.all digitOrSign then 3
  else if t.head? = some 'n' then 0
  else if t.head? = some 't' then 1
  else 2

theorem kindOfWord_word (a : Scalar) : kindOfWord a.word = a.kind := by
  cases a with
  | null => rfl
  | bool b => cases b <;> rfl
  | int n =>
      rw [kindOfWord, Scalar.word, not_isFloatText_intText, if_neg Bool.false_ne_true,
        if_pos (intText_digits n), Scalar.kind]
  | float x => rw [kindOfWord, Scalar.word, if_pos x.form, Scalar.kind]

theorem word_injective : Function.Injective Scalar.word := by
  intro a b h
  have hkind : a.kind = b.kind := by rw [← kindOfWord_word, h, kindOfWord_word]
  cases a with
  | null =>
      cases b with
      | null => rfl
      | bool b => cases b <;> exact absurd hkind (by decide)
      | int | float => exact absurd hkind (by simp [Scalar.kind])
  | bool a =>
      cases b with
      | bool b =>
          cases a <;> cases b <;> first | rfl | exact absurd hkind (by decide)
      | null | int | float => cases a <;> exact absurd hkind (by simp [Scalar.kind])
  | int m =>
      cases b with
      | int n => rw [intText_injective h]
      | bool b => cases b <;> exact absurd hkind (by simp [Scalar.kind])
      | null | float => exact absurd hkind (by simp [Scalar.kind])
  | float x =>
      cases b with
      | float y =>
          obtain ⟨t, ht⟩ := x
          obtain ⟨u, hu⟩ := y
          have htext : t = u := h
          subst htext
          rfl
      | bool b => cases b <;> exact absurd hkind (by simp [Scalar.kind])
      | null | int => exact absurd hkind (by simp [Scalar.kind])

theorem word_ne_nil (a : Scalar) : a.word ≠ [] := by
  cases a with
  | null => exact List.cons_ne_nil _ _
  | bool b => cases b <;> exact List.cons_ne_nil _ _
  | int n => exact intText_ne_nil n
  | float x =>
      intro h
      have hform := x.form
      rw [show x.text = [] from h] at hform
      exact absurd hform (by decide)

def isWordChar (c : Char) : Bool := isFloatChar c || decide (c ∈ ['u', 'l', 'r', 's'])

theorem word_chars (a : Scalar) : a.word.all isWordChar = true := by
  cases a with
  | null => rfl
  | bool b => cases b <;> rfl
  | int n =>
      refine List.all_eq_true.mpr fun c hc => ?_
      have hdigit := List.all_eq_true.mp (intText_digits n) c hc
      rw [digitOrSign, Bool.or_eq_true, decide_eq_true_eq] at hdigit
      rcases hdigit with hdigit | rfl
      · rw [isWordChar, isFloatChar, hdigit, Bool.true_or, Bool.true_or]
      · rfl
  | float x =>
      refine List.all_eq_true.mpr fun c hc => ?_
      have hform := x.form
      rw [isFloatText, Bool.and_eq_true, List.all_eq_true] at hform
      rw [isWordChar, hform.1 c hc, Bool.true_or]

theorem word_plain (a : Scalar) : ∀ c ∈ a.word, c ∉ '"' :: '[' :: '{' :: delimiters := by
  intro c hc hd
  have hword := List.all_eq_true.mp (word_chars a) c hc
  have hspecial : ('"' :: '[' :: '{' :: delimiters).all (fun d => !isWordChar d) = true := rfl
  have hplain := List.all_eq_true.mp hspecial c hd
  rw [hword] at hplain
  exact Bool.false_ne_true hplain

theorem unambiguous : (format false).Unambiguous where
  word_injective := word_injective
  word_ne_nil := word_ne_nil
  word_plain := word_plain
  escape_append := escape_append_inj
  escape_ne_quote := escape_ne_quote

end Words

/-- Values with the same text are the same. -/
theorem dumps_eq_iff {u v : JsonValue} : dumps false u = dumps false v ↔ u.Same v :=
  canonical_eq_iff unambiguous

example : dumps false (.dict [("b", .list [.scalar (.int (-12)), .scalar .null]), ("a", .str "x\n")]) =
    "\x7b\"a\": \"x\\n\", \"b\": [-12, null]\x7d" := by decide

end RfpPlatform.JsonText
