import Mathlib.Data.List.Infix
import Mathlib.Data.Rat.Floor

namespace RfpPlatform.PyText

/-- The characters for which `str.isspace` holds, which are also those that `\s` matches. -/
def isSpace (c : Char) : Bool :=
  (9 ≤ c.toNat && c.toNat ≤ 13) || (28 ≤ c.toNat && c.toNat ≤ 32) || c.toNat = 0x85 ||
    c.toNat = 0xa0 || c.toNat = 0x1680 || (0x2000 ≤ c.toNat && c.toNat ≤ 0x200a) ||
    c.toNat = 0x2028 || c.toNat = 0x2029 || c.toNat = 0x202f || c.toNat = 0x205f ||
    c.toNat = 0x3000

def stripChars (cs : List Char) : List Char :=
  ((cs.dropWhile isSpace).reverse.dropWhile isSpace).reverse

def strip (s : String) : String := String.ofList (stripChars s.toList)

/-- `len(s.strip())` -/
def strippedLength (s : String) : Nat := (stripChars s.toList).length

/-- `re.sub(r"\s+", " ", s)`, with a flag telling whether a space was just written. -/
def squeeze : Bool → List Char → List Char
  | _, [] => []
  | seen, c :: cs =>
      if isSpace c then (if seen then squeeze true cs else ' ' :: squeeze true cs)
      else c :: squeeze false cs

/-- The `_ws` helper of the critics: whitespace runs become one space, ends are cut. -/
def ws (s : String) : List Char := stripChars (squeeze false s.toList)

/-- `needle in hay` on strings. -/
def occurs (needle hay : List Char) : Bool := decide (needle <:+: hay)

def lower (s : String) : List Char := s.toList.map Char.toLower

/-- `s.split()` -/
def words (cs : List Char) : List (List Char) := (cs.splitOnP isSpace).filter (· ≠ [])

/-- `s.endswith(suffix)` -/
def endsWith (s suffix : List Char) : Bool := decide (suffix <:+ s)

/-- `s[:n]`. -/
def prefixOf (n : Nat) (s : String) : String := String.ofList (s.toList.take n)

def join (sep : String) (ss : List String) : String := sep.intercalate ss

def plural (n : Nat) : String := if n = 1 then "" else "s"

/-- `s.split(sep, 1)` when the separator occurs, at its first occurrence. -/
def splitFirst (sep : List Char) : List Char → Option (List Char × List Char)
  | [] => if sep = [] then some ([], []) else none
  | c :: cs =>
      if sep.isPrefixOf (c :: cs) then some ([], (c :: cs).drop sep.length)
      else (splitFirst sep cs).map (fun p => (c :: p.1, p.2))

def digits : List Char → Option Nat
  | [] => none
  | cs => cs.foldl (fun acc c =>
      acc.bind (fun n => if c.isDigit then some (10 * n + (c.toNat - '0'.toNat)) else none)) (some 0)

/-- Underscores stand between two digits. -/
def dropUnderscores : List Char → Option (List Char)
  | [] => some []
  | [c] => if c = '_' then none else some [c]
  | c :: d :: cs =>
      if c = '_' then none
      else if d = '_' then
        match cs with
        | [] => none
        | e :: _ => if c.isDigit && e.isDigit then (dropUnderscores cs).map (c :: ·) else none
      else (dropUnderscores (d :: cs)).map (c :: ·)

def natLiteral (cs : List Char) : Option Nat := (dropUnderscores cs).bind digits

/-- `int(s)` on a string. -/
def intOf (s : String) : Option Int :=
  match stripChars s.toList with
  | '-' :: cs => (natLiteral cs).map (fun n => -(n : Int))
  | '+' :: cs => (natLiteral cs).map (fun n => (n : Int))
  | cs => (natLiteral cs).map (fun n => (n : Int))

/-- Rounding to the nearest integer, ties to even. -/
def roundHalfEven (q : ℚ) : ℤ :=
  let n := ⌊q⌋
  let r := q - n
  if r < 1 / 2 then n else if 1 / 2 < r then n + 1 else if n % 2 = 0 then n else n + 1

/-- `round(q, k)` -/
def round (q : ℚ) (k : Nat) : ℚ := roundHalfEven (q * 10 ^ k) / 10 ^ k

def padLeft (k : Nat) (cs : List Char) : List Char := List.replicate (k - cs.length) '0' ++ cs

/-- `f"{q:.{k}f}"` -/
def fixed (k : Nat) (q : ℚ) : String :=
  let n := roundHalfEven (q * 10 ^ k)
  let cs := padLeft (k + 1) (Nat.toDigits 10 n.natAbs)
  let body := if k = 0 then cs else cs.take (cs.length - k) ++ '.' :: cs.drop (cs.length - k)
  (if n < 0 then "-" else "") ++ String.ofList body

/-- `f"{q:.0%}"` -/
def percent (q : ℚ) : String := fixed 0 (q * 100) ++ "%"

/-- `str(q)`, for a value with at most sixteen decimal places. -/
def reprRat (q : ℚ) : String :=
  let places := (List.range 17).find? (fun k => decide ((q * 10 ^ k).den = 1))
  fixed (max 1 (places.getD 16)) q

def escape (delim c : Char) : List Char :=
  if c = '\\' then ['\\', '\\']
  else if c = delim then ['\\', delim]
  else if c = '\n' then ['\\', 'n']
  else if c = '\r' then ['\\', 'r']
  else if c = '\t' then ['\\', 't']
  else [c]

/-- The `repr` of a string of printable characters, tabs and line ends. -/
def quote (s : String) : String :=
  let delim := if s.toList.contains '\'' && !s.toList.contains '"' then '"' else '\''
  String.ofList (delim :: s.toList.flatMap (escape delim) ++ [delim])

def listRepr (ss : List String) : String := "[" ++ join ", " (ss.map quote) ++ "]"

example : ws " a \n\t b " = "a b".toList := by decide
example : splitFirst "@attempt".toList "v@attempt2".toList = some (['v'], ['2']) := by decide
example : fixed 2 (7 / 8) = "0.88" := by decide +kernel
example : reprRat (3 / 8) = "0.375" := by decide +kernel

end RfpPlatform.PyText
