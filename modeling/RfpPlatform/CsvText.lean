import Mathlib.Data.List.Basic

namespace RfpPlatform.CsvText

section Writer

/-- The characters for which a field stands in quotes. -/
def special (c : Char) : Bool := c = ',' || c = '"' || c = '\r' || c = '\n'

def doubled (c : Char) : List Char := if c = '"' then ['"', '"'] else [c]

/-- A field of a row. An empty field that is alone in its row is quoted, as an empty line
would be a row without fields. -/
def writeField (alone : Bool) (f : List Char) : List Char :=
  if f.any special || (alone && f.isEmpty) then '"' :: (f.flatMap doubled ++ ['"']) else f

def writeFields (alone : Bool) : List (List Char) → List Char
  | [] => []
  | [f] => writeField alone f
  | f :: g :: fs => writeField alone f ++ ',' :: writeFields alone (g :: fs)

/-- `writer.writerow(row)` -/
def writeRow (row : List (List Char)) : List Char :=
  writeFields (row.length = 1) row ++ ['\r', '\n']

def writeRows (rows : List (List (List Char))) : List Char := rows.flatMap writeRow

end Writer

section Reader

inductive Mode
  | startRecord | startField | inField | inQuotedField | quoteInQuotedField | eatCrnl
  deriving DecidableEq

structure Reader where
  mode : Mode
  field : List Char
  fields : List (List Char)

namespace Reader

def empty : Reader := ⟨.startRecord, [], []⟩

def save (r : Reader) (mode : Mode) : Reader := ⟨mode, [], r.fields ++ [r.field]⟩

def add (r : Reader) (c : Char) (mode : Mode) : Reader := ⟨mode, r.field ++ [c], r.fields⟩

def lineEnd (c : Char) : Bool := c = '\r' || c = '\n'

def startField (r : Reader) (c : Char) : Reader :=
  if lineEnd c then r.save .eatCrnl
  else if c = '"' then { r with mode := .inQuotedField }
  else if c = ',' then r.save .startField
  else r.add c .inField

/-- One character of a line. There is no next state when a line goes on after its end. -/
def char (r : Reader) (c : Char) : Option Reader :=
  match r.mode with
  | .startRecord => if lineEnd c then some { r with mode := .eatCrnl } else some (r.startField c)
  | .startField => some (r.startField c)
  | .inField =>
      if lineEnd c then some (r.save .eatCrnl)
      else if c = ',' then some (r.save .startField)
      else some (r.add c .inField)
  | .inQuotedField =>
      if c = '"' then some { r with mode := .quoteInQuotedField }
      else some (r.add c .inQuotedField)
  | .quoteInQuotedField =>
      if c = '"' then some (r.add c .inQuotedField)
      else if c = ',' then some (r.save .startField)
      else if lineEnd c then some (r.save .eatCrnl)
      else some (r.add c .inField)
  | .eatCrnl => if lineEnd c then some r else none

def endLine (r : Reader) : Reader :=
  match r.mode with
  | .startRecord | .inQuotedField => r
  | .startField | .inField | .quoteInQuotedField => r.save .startRecord
  | .eatCrnl => { r with mode := .startRecord }

/-- A line ends with a line feed, a carriage return, the two of them, or with the text. -/
def endsLine (c : Char) (rest : List Char) : Bool :=
  c = '\n' || (c = '\r' && rest.head? ≠ some '\n') || rest.isEmpty

def readFrom (r : Reader) : List Char → Option (List (List (List Char)))
  | [] => some (if r.field ≠ [] ∨ r.mode = .inQuotedField then [r.fields ++ [r.field]] else [])
  | c :: cs =>
      (r.char c).bind fun r' =>
        if endsLine c cs then
          if r'.endLine.mode = .startRecord then
            (readFrom empty cs).map (r'.endLine.fields :: ·)
          else readFrom r'.endLine cs
        else readFrom r' cs

end Reader

/-- The rows of a text, as `csv.reader` has them. -/
def readRows (text : List Char) : Option (List (List (List Char))) := Reader.empty.readFrom text

end Reader

section RoundTrip

open Reader

variable {fs : List (List Char)} {acc rest : List Char}

theorem endsLine_of_ne {c : Char} (hc : lineEnd c = false) (hrest : rest ≠ []) :
    endsLine c rest = false := by
  simp only [lineEnd, Bool.or_eq_false_iff, decide_eq_false_iff_not] at hc
  simp [endsLine, hc, hrest]

theorem readFrom_within {r : Reader} (r' : Reader) {c : Char} (hr : r.char c = some r')
    (hc : lineEnd c = false) (hrest : rest ≠ []) : r.readFrom (c :: rest) = r'.readFrom rest := by
  simp [readFrom, hr, endsLine_of_ne hc hrest]

theorem readFrom_inQuotedField {c : Char} (hc : c ≠ '"') :
    readFrom ⟨.inQuotedField, acc, fs⟩ (c :: rest) =
      readFrom ⟨.inQuotedField, acc ++ [c], fs⟩ rest := by
  simp [readFrom, char, hc, add, endLine]

theorem readFrom_doubled (f : List Char) (hrest : rest ≠ []) :
    readFrom ⟨.inQuotedField, acc, fs⟩ (f.flatMap doubled ++ '"' :: rest) =
      readFrom ⟨.quoteInQuotedField, acc ++ f, fs⟩ rest := by
  induction f generalizing acc with
  | nil =>
      rw [List.flatMap_nil, List.nil_append, List.append_nil]
      exact readFrom_within _ rfl rfl hrest
  | cons c f ih =>
      by_cases hc : c = '"'
      · subst hc
        have hne : f.flatMap doubled ++ '"' :: rest ≠ [] := by simp
        rw [List.flatMap_cons, show doubled '"' ++ f.flatMap doubled ++ '"' :: rest =
            '"' :: '"' :: (f.flatMap doubled ++ '"' :: rest) from rfl,
          readFrom_within ⟨.quoteInQuotedField, acc, fs⟩ rfl rfl (by simp),
          readFrom_within ⟨.inQuotedField, acc ++ ['"'], fs⟩ rfl rfl hne, ih,
          List.append_assoc, List.singleton_append]
      · rw [List.flatMap_cons, show doubled c = [c] from if_neg hc, List.singleton_append,
          List.cons_append, readFrom_inQuotedField hc, ih, List.append_assoc, List.singleton_append]

theorem readFrom_inField (f : List Char) (hf : f.any special = false) (hrest : rest ≠ []) :
    readFrom ⟨.inField, acc, fs⟩ (f ++ rest) = readFrom ⟨.inField, acc ++ f, fs⟩ rest := by
  induction f generalizing acc with
  | nil => rw [List.nil_append, List.append_nil]
  | cons c f ih =>
      rw [List.any_cons, Bool.or_eq_false_iff] at hf
      obtain ⟨hc, hf⟩ := hf
      simp only [special, Bool.or_eq_false_iff, decide_eq_false_iff_not] at hc
      have hend : lineEnd c = false := by simp [lineEnd, hc]
      rw [List.cons_append, readFrom_within ⟨.inField, acc ++ [c], fs⟩ (by
        simp [char, hend, hc, add]) hend (by simp [hrest]), ih hf, List.append_assoc,
        List.singleton_append]

/-- The reader has read a whole field, and what comes next ends it. -/
def Complete (r : Reader) (f : List Char) (fs : List (List Char)) : Prop :=
  r.field = f ∧ r.fields = fs ∧ (r.mode = .startField ∨ r.mode = .inField ∨
    r.mode = .quoteInQuotedField)

theorem readFrom_writeField (fs : List (List Char)) (alone : Bool) (f : List Char)
    (hrest : rest ≠ []) : ∃ r, Complete r f fs ∧
      readFrom ⟨.startField, [], fs⟩ (writeField alone f ++ rest) = r.readFrom rest := by
  by_cases hq : (f.any special || (alone && f.isEmpty)) = true
  · refine ⟨⟨.quoteInQuotedField, f, fs⟩, ⟨rfl, rfl, .inr (.inr rfl)⟩, ?_⟩
    rw [writeField, if_pos hq, List.cons_append, List.append_assoc, List.singleton_append,
      readFrom_within ⟨.inQuotedField, [], fs⟩ rfl rfl (by simp),
      readFrom_doubled f hrest, List.nil_append]
  · rw [writeField, if_neg hq]
    cases f with
    | nil => exact ⟨⟨.startField, [], fs⟩, ⟨rfl, rfl, .inl rfl⟩, rfl⟩
    | cons c f =>
        have hany : (c :: f).any special = false := by
          simp only [Bool.or_eq_true, not_or, Bool.not_eq_true] at hq
          exact hq.1
        rw [List.any_cons, Bool.or_eq_false_iff] at hany
        have hc := hany.1
        simp only [special, Bool.or_eq_false_iff, decide_eq_false_iff_not] at hc
        have hend : lineEnd c = false := by simp [lineEnd, hc]
        refine ⟨⟨.inField, c :: f, fs⟩, ⟨rfl, rfl, .inr (.inl rfl)⟩, ?_⟩
        rw [List.cons_append, readFrom_within ⟨.inField, [c], fs⟩ (by
          simp [char, startField, hend, hc, add]) hend (by simp [hrest]),
          readFrom_inField f hany.2 hrest, List.singleton_append]

theorem Complete.comma {r : Reader} {f : List Char} (h : Complete r f fs) (hrest : rest ≠ []) :
    r.readFrom (',' :: rest) = readFrom ⟨.startField, [], fs ++ [f]⟩ rest := by
  obtain ⟨rfl, rfl, hmode⟩ := h
  refine readFrom_within _ ?_ rfl hrest
  rcases hmode with h | h | h <;> simp [char, h, startField, lineEnd, save]

theorem Complete.lineEnd {r : Reader} {f : List Char} (h : Complete r f fs) :
    r.readFrom ('\r' :: '\n' :: rest) = (readFrom .empty rest).map ((fs ++ [f]) :: ·) := by
  obtain ⟨rfl, rfl, hmode⟩ := h
  have hchar : r.char '\r' = some (r.save .eatCrnl) := by
    rcases hmode with h | h | h <;> simp [char, h, startField, Reader.lineEnd]
  rw [readFrom, hchar, Option.bind_some, show endsLine '\r' ('\n' :: rest) = false from rfl]
  simp [readFrom, char, save, Reader.lineEnd, endsLine, endLine]

theorem readFrom_writeFields (alone : Bool) (f : List Char) (row : List (List Char)) :
    readFrom ⟨.startField, [], fs⟩ (writeFields alone (f :: row) ++ '\r' :: '\n' :: rest) =
      (readFrom .empty rest).map ((fs ++ f :: row) :: ·) := by
  induction row generalizing f fs with
  | nil =>
      have hne : '\r' :: '\n' :: rest ≠ [] := List.cons_ne_nil _ _
      obtain ⟨r, hr, hread⟩ := readFrom_writeField fs alone f hne
      rw [writeFields, hread, hr.lineEnd]
  | cons g row ih =>
      have hne : writeFields alone (g :: row) ++ '\r' :: '\n' :: rest ≠ [] := by simp
      obtain ⟨r, hr, hread⟩ := readFrom_writeField fs alone f (List.cons_ne_nil ',' _)
      rw [writeFields, List.append_assoc, List.cons_append, hread, hr.comma hne, ih,
        List.append_assoc, List.singleton_append]

theorem writeField_head (alone : Bool) (f : List Char) :
    (writeField alone f = [] ∧ alone = false) ∨
      ∃ c cs, writeField alone f = c :: cs ∧ lineEnd c = false := by
  by_cases hq : (f.any special || (alone && f.isEmpty)) = true
  · exact .inr ⟨'"', _, by rw [writeField, if_pos hq], rfl⟩
  · rw [writeField, if_neg hq]
    cases f with
    | nil => exact .inl ⟨rfl, by simpa using hq⟩
    | cons c f =>
        simp only [List.any_cons, Bool.or_eq_true, not_or, special, decide_eq_true_eq] at hq
        exact .inr ⟨c, f, rfl, by simp [lineEnd, hq]⟩

theorem writeFields_head (rest f : List Char) (row : List (List Char)) :
    ∃ c cs, writeFields ((f :: row).length = 1) (f :: row) ++ '\r' :: '\n' :: rest = c :: cs ∧
      lineEnd c = false := by
  cases row with
  | nil =>
      obtain ⟨-, h⟩ | ⟨c, cs, h, hc⟩ := writeField_head (decide ([f].length = 1)) f
      · simp at h
      · exact ⟨c, _, by rw [writeFields, h, List.cons_append], hc⟩
  | cons g row =>
      obtain ⟨h, -⟩ | ⟨c, cs, h, hc⟩ := writeField_head (decide ((f :: g :: row).length = 1)) f
      · exact ⟨',', _, by rw [writeFields, h, List.nil_append, List.cons_append], rfl⟩
      · exact ⟨c, _, by rw [writeFields, h, List.cons_append, List.cons_append], hc⟩

theorem readFrom_startRecord {c : Char} (hc : lineEnd c = false) :
    readFrom .empty (c :: rest) = readFrom ⟨.startField, [], []⟩ (c :: rest) := by
  have hchar : Reader.empty.char c = char ⟨.startField, [], []⟩ c := by
    rw [Reader.empty, char, hc]
    rfl
  rw [readFrom, hchar, readFrom]

theorem readFrom_writeRow (row : List (List Char)) :
    readFrom .empty (writeRow row ++ rest) = (readFrom .empty rest).map (row :: ·) := by
  cases row with
  | nil => rfl
  | cons f row =>
      obtain ⟨c, cs, htext, hc⟩ := writeFields_head rest f row
      rw [writeRow, List.append_assoc, List.cons_append, List.singleton_append, htext,
        readFrom_startRecord hc, ← htext, readFrom_writeFields, List.nil_append]

/-- Reading what was written gives the rows back, whatever characters their fields have. -/
theorem readRows_writeRows (rows : List (List (List Char))) :
    readRows (writeRows rows) = some rows := by
  induction rows with
  | nil => rfl
  | cons row rows ih =>
      rw [readRows, writeRows, List.flatMap_cons, readFrom_writeRow]
      exact congrArg (Option.map (row :: ·)) ih

end RoundTrip

end RfpPlatform.CsvText
