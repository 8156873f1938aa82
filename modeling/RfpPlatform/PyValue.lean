import RfpPlatform.PyText

namespace RfpPlatform

/-- A Python float, with rational finite values. -/
inductive PyFloat
  | fin (q : ℚ)
  | posInf
  | negInf
  | nan
  deriving DecidableEq

namespace PyFloat

instance : Coe ℚ PyFloat := ⟨fin⟩

instance (n : Nat) : OfNat PyFloat n := ⟨fin n⟩

/-- `x < y`, which is false as soon as one side is not a number. -/
def lt : PyFloat → PyFloat → Bool
  | fin a, fin b => decide (a < b)
  | fin _, posInf | negInf, fin _ | negInf, posInf => true
  | _, _ => false

def le : PyFloat → PyFloat → Bool
  | fin a, fin b => decide (a ≤ b)
  | fin _, posInf | negInf, fin _ | negInf, posInf | posInf, posInf | negInf, negInf => true
  | _, _ => false

def add : PyFloat → PyFloat → PyFloat
  | fin a, fin b => fin (a + b)
  | nan, _ | _, nan | posInf, negInf | negInf, posInf => nan
  | posInf, _ | _, posInf => posInf
  | negInf, _ | _, negInf => negInf

def sum (xs : List PyFloat) : PyFloat := xs.foldl add 0

/-- Division by a positive length. -/
def divLength (x : PyFloat) (n : Nat) : PyFloat :=
  match x with
  | fin a => fin (a / n)
  | x => x

def round (x : PyFloat) (k : Nat) : PyFloat :=
  match x with
  | fin a => fin (PyText.round a k)
  | x => x

/-- `str(x)` and `f"{x:.2f}"` -/
def repr : PyFloat → String
  | fin q => PyText.reprRat q
  | posInf => "inf"
  | negInf => "-inf"
  | nan => "nan"

def fixed (k : Nat) : PyFloat → String
  | fin q => PyText.fixed k q
  | posInf => "inf"
  | negInf => "-inf"
  | nan => "nan"

def isZero (x : PyFloat) : Bool := x = fin 0

end PyFloat

/-- What a running function can raise. -/
inductive ExnKind
  | attributeError
  | typeError
  | valueError
  | overflowError
  | zeroDivisionError
  | keyError
  | indexError
  | jsonDecodeError
  | validationError
  | runtimeError
  | integrityError
  | badZipFile
  | httpException (statusCode : Nat)
  | external
  deriving DecidableEq

structure Exn where
  kind : ExnKind
  message : String
  deriving DecidableEq

/-- A value decoded by `json.loads`. An object keeps all of its members; the last
member of a name is the one that counts. -/
inductive Json
  | null
  | bool (b : Bool)
  | num (x : PyFloat)
  | str (s : String)
  | arr (xs : List Json)
  | obj (members : List (String × Json))

namespace Json

def typeName : Json → String
  | null => "NoneType"
  | bool _ => "bool"
  | num _ => "float"
  | str _ => "str"
  | arr _ => "list"
  | obj _ => "dict"

def truthy : Json → Bool
  | null => false
  | bool b => b
  | num x => !x.isZero
  | str s => s ≠ ""
  | arr xs => !xs.isEmpty
  | obj ms => !ms.isEmpty

def member (name : String) (ms : List (String × Json)) : Option Json :=
  (ms.reverse.find? (fun p => p.1 = name)).map Prod.snd

/-- `value.get(name, default)` on a dictionary. -/
def get (ms : List (String × Json)) (name : String) (dflt : Json) : Json :=
  (member name ms).getD dflt

/-- `a or b` -/
def orElse (a b : Json) : Json := if a.truthy then a else b

end Json

namespace PyText

/-- An unsigned decimal numeral with an optional fraction. -/
def mantissa (cs : List Char) : Option ℚ :=
  match splitFirst ['.'] cs with
  | none => (natLiteral cs).map (fun n => (n : ℚ))
  | some ([], []) => none
  | some ([], fs) => (natLiteral fs).map (fun n => (n : ℚ) / 10 ^ (fs.filter Char.isDigit).length)
  | some (is, []) => (natLiteral is).map (fun n => (n : ℚ))
  | some (is, fs) =>
      (natLiteral is).bind (fun n => (natLiteral fs).map (fun m =>
        (n : ℚ) + (m : ℚ) / 10 ^ (fs.filter Char.isDigit).length))

def exponent : List Char → Option Int
  | '-' :: cs => (natLiteral cs).map (fun n => -(n : Int))
  | '+' :: cs => (natLiteral cs).map (fun n => (n : Int))
  | cs => (natLiteral cs).map (fun n => (n : Int))

def magnitude (cs : List Char) : Option PyFloat :=
  if cs = "inf".toList ∨ cs = "infinity".toList then some .posInf
  else if cs = "nan".toList then some .nan
  else match splitFirst ['e'] cs with
    | none => (mantissa cs).map .fin
    | some (ms, es) =>
        (mantissa ms).bind (fun m => (exponent es).map (fun k => .fin (m * 10 ^ k)))

def negate : PyFloat → PyFloat
  | .fin q => .fin (-q)
  | .posInf => .negInf
  | .negInf => .posInf
  | .nan => .nan

/-- `float(s)` on a string. -/
def floatOf (s : String) : Option PyFloat :=
  match (stripChars s.toList).map Char.toLower with
  | '-' :: cs => (magnitude cs).map negate
  | '+' :: cs => magnitude cs
  | cs => magnitude cs

end PyText

namespace Json

/-- The least magnitude of an integer that rounds to no finite float. -/
def floatLimit : ℚ := 2 ^ 1024 - 2 ^ 970

/-- `float(value)` -/
def toFloat : Json → Except Exn PyFloat
  | num (.fin q) =>
      if q ≤ -floatLimit ∨ floatLimit ≤ q then
        .error ⟨.overflowError, "int too large to convert to float"⟩
      else .ok (.fin q)
  | num x => .ok x
  | bool b => .ok (if b then 1 else 0)
  | str s =>
      match PyText.floatOf s with
      | some x => .ok x
      | none => .error ⟨.valueError, s!"could not convert string to float: {PyText.quote s}"⟩
  | v => .error ⟨.typeError,
      s!"float() argument must be a string or a real number, not '{v.typeName}'"⟩

/-- The members of a value that has a `get` method. -/
def asObject : Json → Except Exn (List (String × Json))
  | obj ms => .ok ms
  | v => .error ⟨.attributeError, s!"'{v.typeName}' object has no attribute 'get'"⟩

theorem asObject_eq_ok {v : Json} {ms : List (String × Json)} :
    v.asObject = .ok ms ↔ v = obj ms := by
  cases v <;> simp [asObject]

def asString : Json → Option String
  | str s => some s
  | _ => none

/-- A field of type `List[str]`: a list all of whose items are strings. -/
def asStrings : Json → Option (List String)
  | arr xs => xs.mapM asString
  | _ => none

theorem member_append {name n : String} {v : Json} {ms : List (String × Json)} :
    member name (ms ++ [(n, v)]) = if n = name then some v else member name ms := by
  rw [member, List.reverse_append, List.reverse_singleton, List.singleton_append, List.find?_cons]
  by_cases h : n = name
  · simp [h]
  · simp [h, member]

end Json

/-- The reply of a model call: it raises, or it returns a text, which is or is not JSON. -/
inductive LlmReply
  | raised (e : Exn)
  | invalidJson (text : String)
  | json (v : Json)

end RfpPlatform
