import Mathlib.Algebra.Order.Floor.Ring
import Mathlib.Data.List.Nodup
import RfpPlatform.ExceptRules
import RfpPlatform.SettingsCache

namespace RfpPlatform.SettingsUpsert

open ExceptRules
open SettingsCache (Field)

/-- A Python value as a caller or a preset gives it. An integer and a float of one number are equal
and print differently. -/
inductive Value
  | none
  | bool (b : Bool)
  | int (i : Int)
  | float (x : PyFloat)
  | str (s : String)
  | list (xs : List Json)
  | dict (ms : List (String × Json))

/-- The value up to `==`. -/
def Value.json : Value → Json
  | none => .null
  | bool b => .bool b
  | int i => .num (.fin i)
  | float x => .num x
  | str s => .str s
  | list xs => .arr xs
  | dict ms => .obj ms

def Value.number : Value → Option ℚ
  | int i => some i
  | float (.fin q) => some q
  | _ => Option.none

abbrev Values := Field → Value

/-- The `config` of a preset has a value for some of the fields. -/
abbrev Preset := Field → Option Value

structure UpsertCall where
  applyPreset : Bool
  fields : Field → Option Value

/-- `_ALL_FIELDS` -/
def allFields : List Field :=
  [.qualityTier, .useHyde, .useReranking, .useQueryRewriting, .useHybridSearch, .rerankerProvider,
    .retrievalTopK, .rerankTopN, .mandatoryCheckUseLlmVerify, .confidenceRetryThreshold,
    .scoreVarianceThreshold, .rankMarginThreshold, .llmTemperature, .outputTone, .outputLanguage,
    .citationStyle, .includeConfidenceScore, .includeEvidenceQuotes, .maxEvidenceQuoteChars,
    .parallelVendors]

theorem mem_allFields (k : Field) : k ∈ allFields := by cases k <;> decide

theorem nodup_allFields : allFields.Nodup := by decide

section Columns

/-- The columns of the table, all of them `NOT NULL`, with their `CHECK` constraints. A numeric column
has three digits, two of them behind the point. -/
inductive Column
  | boolean
  | text (allowed : Option (List String))
  | integer (bounds : Option (Int × Int))
  | numeric (upper : ℚ)

def column : Field → Column
  | .useHyde | .useReranking | .useQueryRewriting | .useHybridSearch | .mandatoryCheckUseLlmVerify
  | .includeConfidenceScore | .includeEvidenceQuotes | .parallelVendors => .boolean
  | .qualityTier | .outputLanguage => .text none
  | .rerankerProvider => .text (some ["cohere", "bge", "colbert", "modal", "none"])
  | .outputTone => .text (some ["formal", "conversational", "technical"])
  | .citationStyle => .text (some ["inline", "footnote", "appendix"])
  | .retrievalTopK | .rerankTopN => .integer none
  | .rankMarginThreshold => .integer (some (0, 100))
  | .maxEvidenceQuoteChars => .integer (some (50, 2000))
  | .confidenceRetryThreshold | .scoreVarianceThreshold => .numeric 1
  | .llmTemperature => .numeric 2

/-- What a column can have as its content, as a read of it gives it. -/
def Column.contains : Column → Value → Bool
  | boolean, .bool _ => true
  | text allowed, .str s => allowed.all (fun ss => decide (s ∈ ss))
  | integer bounds, .int i =>
      decide (-2 ^ 31 ≤ i ∧ i < 2 ^ 31) && bounds.all (fun b => decide (b.1 ≤ i ∧ i ≤ b.2))
  | numeric upper, .float (.fin q) => decide (0 ≤ q ∧ q ≤ upper)
  | _, _ => false

/-- The nearest integer, and of two the one farther from zero. -/
def roundAway (q : ℚ) : Int := if 0 ≤ q then ⌊q + 1 / 2⌋ else -⌊-q + 1 / 2⌋

/-- What a column makes of a value of its own type before its constraints are checked. -/
def Column.converted : Column → Value → Option Value
  | boolean, .bool b => some (.bool b)
  | text _, .str s => some (.str s)
  | integer _, v => v.number.map (fun q => .int (roundAway q))
  | numeric _, v => v.number.map (fun q => .float (.fin (roundAway (q * 100) / 100)))
  | _, _ => none

/-- What Python and the database do with values that the settings do not have: the text of a list or
a dictionary, and what a column makes of a value of another type, where it takes it at all. -/
structure Host where
  containerText : Value → String
  cast : Column → Value → Option Value

/-- What is in the column after a value has been written to it, unless it is refused. -/
def stored (host : Host) (k : Field) (v : Value) : Option Value :=
  (((column k).converted v).or (host.cast (column k) v)).filter (column k).contains

theorem roundAway_intCast (n : Int) : roundAway n = n := by
  have hfloor : ∀ m : Int, ⌊(m : ℚ) + 1 / 2⌋ = m := by
    intro m
    rw [Int.floor_intCast_add]
    norm_num
  rw [roundAway]
  split
  · exact hfloor n
  · rw [← Int.cast_neg, hfloor, neg_neg]

variable {host : Host} {k : Field}

theorem stored_integer {bounds : Option (Int × Int)} {i : Int} (hcolumn : column k = .integer bounds)
    (h : (Column.integer bounds).contains (.int i) = true) : stored host k (.int i) = some (.int i) := by
  rw [stored, hcolumn, Column.converted, Value.number, Option.map_some, roundAway_intCast, Option.some_or,
    Option.filter_some, if_pos h]

/-- A numeric column keeps hundredths within its bounds. -/
theorem stored_hundredths {upper q : ℚ} (hcolumn : column k = .numeric upper) (n : Int) (hn : n = q * 100)
    (hnonneg : 0 ≤ q) (hupper : q ≤ upper) :
    stored host k (.float (.fin q)) = some (.float (.fin q)) := by
  have hq : (n : ℚ) / 100 = q := by
    rw [hn, mul_div_cancel_right₀ q (by norm_num)]
  have hcontains : (Column.numeric upper).contains (.float (.fin q)) = true :=
    decide_eq_true ⟨hnonneg, hupper⟩
  rw [stored, hcolumn, Column.converted, Value.number, Option.map_some, ← hn, roundAway_intCast, hq,
    Option.some_or, Option.filter_some, if_pos hcontains]

end Columns

section Model

/-- The declared type of a field with its bounds. -/
inductive FieldType
  | bool
  | str
  | int (bounds : Option (Int × Int))
  | float (ge le : ℚ)

/-- The annotations of `OrgSettings`. -/
def fieldType : Field → FieldType
  | .qualityTier => .str
  | .useHyde => .bool
  | .useReranking => .bool
  | .useQueryRewriting => .bool
  | .useHybridSearch => .bool
  | .rerankerProvider => .str
  | .retrievalTopK => .int none
  | .rerankTopN => .int none
  | .mandatoryCheckUseLlmVerify => .bool
  | .confidenceRetryThreshold => .float 0 1
  | .scoreVarianceThreshold => .float 0 1
  | .rankMarginThreshold => .int (some (0, 100))
  | .llmTemperature => .float 0 2
  | .outputTone => .str
  | .outputLanguage => .str
  | .citationStyle => .str
  | .includeConfidenceScore => .bool
  | .includeEvidenceQuotes => .bool
  | .maxEvidenceQuoteChars => .int (some (50, 2000))
  | .parallelVendors => .bool

/-- The values of its own type that a field accepts. -/
def FieldType.accepts : FieldType → Value → Bool
  | bool, .bool _ => true
  | str, .str _ => true
  | int bounds, .int i => bounds.all (fun b => decide (b.1 ≤ i ∧ i ≤ b.2))
  | float ge le, .float (.fin q) => decide (ge ≤ q ∧ q ≤ le)
  | _, _ => false

/-- What a column can have is accepted by the field that it is read into. -/
theorem accepts_of_contains {k : Field} {v : Value} (h : (column k).contains v = true) :
    (fieldType k).accepts v = true := by
  cases v with
  | none | list | dict => cases k <;> simp [column, Column.contains] at h
  | bool b => cases k <;> simp_all [column, Column.contains, fieldType, FieldType.accepts]
  | int i => cases k <;> simp_all [column, Column.contains, fieldType, FieldType.accepts]
  | str s => cases k <;> simp_all [column, Column.contains, fieldType, FieldType.accepts]
  | float x =>
      cases x with
      | fin q => cases k <;> simp_all [column, Column.contains, fieldType, FieldType.accepts]
      | posInf | negInf | nan => cases k <;> simp [column, Column.contains] at h

end Model

section Upsert

/-- `cfg.product.presets` -/
abbrev Presets := String → Option Preset

def UpsertCall.tier (req : UpsertCall) (current : Values) : Value :=
  (req.fields .qualityTier).getD (current .qualityTier)

/-- `tier in cfg.product.presets`, and the preset. A list or a dictionary cannot be looked up. -/
def presetOf (presets : Presets) : Value → Except Exn (Option Preset)
  | .str tier => .ok (presets tier)
  | .list _ => .error ⟨.typeError, "unhashable type: 'list'"⟩
  | .dict _ => .error ⟨.typeError, "unhashable type: 'dict'"⟩
  | _ => .ok none

/-- The fields that the call writes. Those of the preset take the place of those passed. -/
def overlaid (presets : Presets) (current : Values) (req : UpsertCall) :
    Except Exn (Field → Option Value) :=
  if req.applyPreset then do
    let preset ← presetOf presets (req.tier current)
    match preset with
    | none => return req.fields
    | some preset =>
        return fun k => if k = .qualityTier then some (req.tier current) else (preset k).or (req.fields k)
  else .ok req.fields

/-- `current.model_copy(update=...)`, which validates nothing. -/
def modelCopy (current : Values) (update : Field → Option Value) : Values :=
  fun k => (update k).getD (current k)

/-- `str(value)` -/
def Value.text (host : Host) : Value → String
  | none => "None"
  | bool true => "True"
  | bool false => "False"
  | int i => toString i
  | float x => x.repr
  | str s => s
  | list xs => host.containerText (.list xs)
  | dict ms => host.containerText (.dict ms)

structure AuditRow where
  fieldName : Field
  oldValue : String
  newValue : String

def auditRows (host : Host) (current newState : Values) : List AuditRow :=
  (allFields.filter (fun k => decide ((current k).text host ≠ (newState k).text host))).map
    (fun k => ⟨k, (current k).text host, (newState k).text host⟩)

/-- The `INSERT ... ON CONFLICT`: all columns, or none. -/
def insertRow (host : Host) (newState : Values) : Except Exn Values :=
  if allFields.all (fun k => (stored host k (newState k)).isSome) then
    .ok (fun k => (stored host k (newState k)).getD .none)
  else .error ⟨.integrityError, "new row violates a constraint"⟩

/-- The row and the audit rows that an upsert commits. -/
def upsertOrgSettings (host : Host) (presets : Presets) (current : Values) (req : UpsertCall) :
    Except Exn (Values × List AuditRow) := do
  let update ← overlaid presets current req
  let newState := modelCopy current update
  let row ← insertRow host newState
  return (row, auditRows host current newState)

end Upsert

/-- `==` on values of one type. -/
def Same (v w : Value) : Prop := v.json = w.json

def presetNamed (presets : Presets) : Value → Option Preset
  | .str tier => presets tier
  | _ => none

/-- The value that the preset of the tier has for a field other than the tier itself. -/
def presetField (presets : Presets) (current : Values) (req : UpsertCall) (k : Field) : Option Value :=
  if req.applyPreset = true ∧ k ≠ .qualityTier then
    (presetNamed presets (req.tier current)).bind (fun preset => preset k)
  else none

/-- What a field has in the new state: the preset's value, the passed one, or the current one. -/
def laid (presets : Presets) (current : Values) (req : UpsertCall) (k : Field) : Value :=
  ((presetField presets current req k).or (req.fields k)).getD (current k)

/-- What the docstring says of the row and of the audit rows, where `before` is what the row had. -/
structure Persisted (presets : Presets) (before current : Values) (req : UpsertCall) (row : Values)
    (audit : List AuditRow) : Prop where
  passed : ∀ k v, req.fields k = some v → Same (row k) v
  filled : ∀ k p, req.fields k = none → presetField presets current req k = some p → Same (row k) p
  kept : ∀ k, req.fields k = none → presetField presets current req k = none → Same (row k) (before k)
  unaudited : ∀ k, Same (row k) (before k) → audit.countP (fun r => decide (r.fieldName = k)) = 0
  audited : ∀ k, ¬ Same (row k) (before k) → audit.countP (fun r => decide (r.fieldName = k)) = 1
  valid : ∀ k, (fieldType k).accepts (row k) = true

/-- The column has `v` after `u` is written to it. -/
def Stores (host : Host) (k : Field) (u v : Value) : Prop := ∃ w, stored host k u = some w ∧ Same w v

/-- When the upsert does what its docstring says. A passed field that the preset has too must be the
preset's own value, as the column has it. -/
structure LaidOver (host : Host) (presets : Presets) (before current : Values) (req : UpsertCall) : Prop where
  hashable : req.applyPreset = true → SettingsCache.hashable (req.tier current).json = true
  overlap : ∀ k v p, req.fields k = some v → presetField presets current req k = some p →
    Stores host k p v
  passed : ∀ k v, req.fields k = some v → presetField presets current req k = none → Stores host k v v
  filled : ∀ k p, req.fields k = none → presetField presets current req k = some p → Stores host k p p
  kept : ∀ k, req.fields k = none → presetField presets current req k = none →
    Stores host k (current k) (before k)
  printed : ∀ k u v, (presetField presets current req k).or (req.fields k) = some u →
    (req.fields k).or (presetField presets current req k) = some v →
    ((current k).text host = u.text host ↔ Same v (before k))

section Rules

variable {host : Host} {presets : Presets} {before current row newState : Values} {req : UpsertCall}
  {audit : List AuditRow} {k : Field}

theorem presetOf_eq_ok {tier : Value} {preset : Option Preset} (h : presetOf presets tier = .ok preset) :
    SettingsCache.hashable tier.json = true ∧ preset = presetNamed presets tier := by
  cases tier with
  | list | dict => cases h
  | none | bool | int | float | str =>
      cases h
      exact ⟨rfl, rfl⟩

theorem exists_presetOf (presets : Presets) {tier : Value} (h : SettingsCache.hashable tier.json = true) :
    ∃ preset, presetOf presets tier = .ok preset := by
  cases tier with
  | list | dict => cases h
  | none | bool | int | float | str => exact ⟨_, rfl⟩

/-- The new state has the preset's values over the passed ones. -/
theorem overlaid_eq_ok {update : Field → Option Value} (h : overlaid presets current req = .ok update) :
    (req.applyPreset = true → SettingsCache.hashable (req.tier current).json = true) ∧
      modelCopy current update = laid presets current req := by
  rw [overlaid] at h
  cases happly : req.applyPreset with
  | false =>
      rw [happly, if_neg Bool.false_ne_true] at h
      cases h
      refine ⟨fun h => absurd h Bool.false_ne_true, funext fun k => ?_⟩
      simp only [laid, presetField, happly, Bool.false_eq_true, false_and, if_false, Option.none_or]
      rfl
  | true =>
      rw [happly, if_pos rfl] at h
      obtain ⟨preset, hpreset, h⟩ := bind_eq_ok.mp h
      obtain ⟨hhash, hnamed⟩ := presetOf_eq_ok hpreset
      refine ⟨fun _ => hhash, funext fun k => ?_⟩
      rw [laid, presetField, happly, ← hnamed]
      cases preset with
      | none =>
          cases pure_eq_ok.mp h
          simp only [Option.bind_none, ite_self, Option.none_or]
          rfl
      | some preset =>
          cases pure_eq_ok.mp h
          by_cases hk : k = .qualityTier
          · subst hk
            simp only [modelCopy, if_true, ne_eq, not_true_eq_false, and_false, if_false, Option.none_or]
            rfl
          · simp only [modelCopy, ne_eq, hk, not_false_eq_true, and_self, if_true, if_false,
              Option.bind_some]

/-- The presets as the model of the cache has them. -/
def Presets.product (presets : Presets) (defaults : SettingsCache.Settings) (cacheTtl : ℚ) :
    SettingsCache.Product where
  presets tier :=
    match tier with
    | .str tier => (presets tier).map (fun preset k => (preset k).map Value.json)
    | _ => none
  defaults := defaults
  cacheTtl := cacheTtl

theorem product_presets (defaults : SettingsCache.Settings) (cacheTtl : ℚ) (tier : Value) :
    (presets.product defaults cacheTtl).presets tier.json =
      (presetNamed presets tier).map (fun preset k => (preset k).map Value.json) := by
  cases tier <;> rfl

/-- Up to `==` the new state is the one that the model of the cache commits. -/
theorem json_laid (defaults : SettingsCache.Settings) (cacheTtl : ℚ) :
    (laid presets current req k).json =
      SettingsCache.newState (presets.product defaults cacheTtl) (fun k => (current k).json)
        ⟨req.applyPreset, fun k => (req.fields k).map Value.json⟩ k := by
  have htier : SettingsCache.UpsertCall.tier ⟨req.applyPreset, fun k => (req.fields k).map Value.json⟩
      (fun k => (current k).json) = (req.tier current).json := by
    rw [SettingsCache.UpsertCall.tier, UpsertCall.tier, Option.getD_map]
  rw [SettingsCache.newState, htier, SettingsCache.UpsertCall.writes, product_presets, laid, presetField,
    ← Option.getD_map Value.json]
  cases req.applyPreset with
  | false => simp
  | true =>
      cases presetNamed presets (req.tier current) with
      | none => simp
      | some preset =>
          by_cases hk : k = .qualityTier
          · subst hk
            simp [UpsertCall.tier]
          · simp [hk, Option.map_or]

theorem exists_overlaid (h : req.applyPreset = true → SettingsCache.hashable (req.tier current).json = true) :
    ∃ update, overlaid presets current req = .ok update := by
  rw [overlaid]
  cases happly : req.applyPreset with
  | false => exact ⟨_, rfl⟩
  | true =>
      obtain ⟨preset, hpreset⟩ := exists_presetOf presets (h happly)
      rw [if_pos rfl, hpreset]
      cases preset with
      | none => exact ⟨_, rfl⟩
      | some preset => exact ⟨_, rfl⟩

theorem insertRow_eq_ok : insertRow host newState = .ok row ↔
    ∀ k, stored host k (newState k) = some (row k) := by
  rw [insertRow]
  constructor
  · intro h k
    split at h
    · rename_i hall
      cases h
      obtain ⟨w, hw⟩ := Option.isSome_iff_exists.mp (List.all_eq_true.mp hall k (mem_allFields k))
      simp only [hw, Option.getD_some]
    · cases h
  · intro h
    rw [if_pos]
    · refine congrArg Except.ok (funext fun k => ?_)
      rw [h k, Option.getD_some]
    · rw [List.all_eq_true]
      intro k _
      rw [h k, Option.isSome_some]

/-- A field has one audit row where its texts differ, and none elsewhere. -/
theorem countP_auditRows : (auditRows host current newState).countP (fun r => decide (r.fieldName = k)) =
    if (current k).text host = (newState k).text host then 0 else 1 := by
  rw [auditRows, List.countP_map, List.countP_filter]
  split
  · rename_i hsame
    rw [List.countP_eq_zero]
    intro j _
    by_cases hj : j = k
    · subst hj
      simp [hsame]
    · simp [hj]
  · rename_i hdiffer
    have hcount : allFields.countP (fun j => decide (j = k)) = 1 :=
      List.count_eq_one_of_mem nodup_allFields (mem_allFields k)
    rw [← hcount]
    refine List.countP_congr fun j _ => ?_
    by_cases hj : j = k
    · subst hj
      simp [hdiffer]
    · simp [hj]

theorem upsert_eq_ok : upsertOrgSettings host presets current req = .ok (row, audit) ↔
    (req.applyPreset = true → SettingsCache.hashable (req.tier current).json = true) ∧
      (∀ k, stored host k (laid presets current req k) = some (row k)) ∧
        audit = auditRows host current (laid presets current req) := by
  simp only [upsertOrgSettings, bind_eq_ok]
  constructor
  · rintro ⟨update, hupdate, row', hrow, h⟩
    obtain ⟨hhash, hlaid⟩ := overlaid_eq_ok hupdate
    rw [hlaid] at hrow h
    cases pure_eq_ok.mp h
    exact ⟨hhash, insertRow_eq_ok.mp hrow, rfl⟩
  · rintro ⟨hhash, hstored, rfl⟩
    obtain ⟨update, hupdate⟩ := exists_overlaid hhash
    obtain ⟨_, hlaid⟩ := overlaid_eq_ok hupdate
    refine ⟨update, hupdate, row, ?_, ?_⟩
    · rw [hlaid]
      exact insertRow_eq_ok.mpr hstored
    · rw [hlaid]
      rfl

end Rules

section Documented

variable {host : Host} {presets : Presets} {before current row : Values} {req : UpsertCall}
  {audit : List AuditRow} {k : Field}

/-- The upsert commits what its docstring says. -/
def Documented (host : Host) (presets : Presets) (before current : Values) (req : UpsertCall) : Prop :=
  ∃ row audit, upsertOrgSettings host presets current req = .ok (row, audit) ∧
    Persisted presets before current req row audit

/-- A field in the order of the docstring: the passed value, the preset's, or what was there. -/
def wanted (presets : Presets) (before current : Values) (req : UpsertCall) (k : Field) : Value :=
  ((req.fields k).or (presetField presets current req k)).getD (before k)

theorem Persisted.same (h : Persisted presets before current req row audit) (k : Field) :
    Same (row k) (wanted presets before current req k) := by
  rw [wanted]
  cases hfield : req.fields k with
  | some v => exact h.passed k v hfield
  | none =>
      cases hpreset : presetField presets current req k with
      | some p => exact h.filled k p hfield hpreset
      | none => exact h.kept k hfield hpreset

theorem laidOver_of_persisted (hok : upsertOrgSettings host presets current req = .ok (row, audit))
    (h : Persisted presets before current req row audit) : LaidOver host presets before current req := by
  obtain ⟨hhash, hstored, rfl⟩ := upsert_eq_ok.mp hok
  have hstores : ∀ k v, Same (row k) v → Stores host k (laid presets current req k) v :=
    fun k v hv => ⟨row k, hstored k, hv⟩
  have hlaid : ∀ k u, (presetField presets current req k).or (req.fields k) = some u →
      laid presets current req k = u := by
    intro k u hu
    rw [laid, hu, Option.getD_some]
  refine ⟨hhash, ?_, ?_, ?_, ?_, ?_⟩
  · intro k v p hv hp
    rw [← hlaid k p (by rw [hp, Option.some_or])]
    exact hstores k v (h.passed k v hv)
  · intro k v hv hp
    have hstore := hstores k v (h.passed k v hv)
    rwa [hlaid k v (by rw [hp, Option.none_or, hv])] at hstore
  · intro k p hv hp
    have hstore := hstores k p (h.filled k p hv hp)
    rwa [hlaid k p (by rw [hp, Option.some_or])] at hstore
  · intro k hv hp
    have hstore := hstores k (before k) (h.kept k hv hp)
    rwa [laid, hp, hv, Option.none_or, Option.getD_none] at hstore
  · intro k u v hu hv
    have hsame := h.same k
    rw [wanted, hv, Option.getD_some] at hsame
    have hcount := @countP_auditRows host current (laid presets current req) k
    rw [hlaid k u hu] at hcount
    constructor
    · intro htext
      by_contra hchanged
      have hone := h.audited k fun hrow => hchanged (hsame.symm.trans hrow)
      rw [hcount, if_pos htext] at hone
      cases hone
    · intro hunchanged
      by_contra htext
      have hnone := h.unaudited k (hsame.trans hunchanged)
      rw [hcount, if_neg htext] at hnone
      cases hnone

/-- A column has after the upsert what the docstring says. -/
theorem LaidOver.stores (h : LaidOver host presets before current req) (k : Field) :
    Stores host k (laid presets current req k) (wanted presets before current req k) := by
  rw [laid, wanted]
  cases hv : req.fields k with
  | some v =>
      cases hp : presetField presets current req k with
      | some p => exact h.overlap k v p hv hp
      | none => exact h.passed k v hv hp
  | none =>
      cases hp : presetField presets current req k with
      | some p => exact h.filled k p hv hp
      | none => exact h.kept k hv hp

/-- The texts of the current and of the new value differ exactly where the value has changed. -/
theorem LaidOver.text_iff (h : LaidOver host presets before current req) (k : Field) :
    (current k).text host = (laid presets current req k).text host ↔
      Same (wanted presets before current req k) (before k) := by
  rw [laid, wanted]
  cases hv : req.fields k with
  | some v =>
      cases hp : presetField presets current req k with
      | some p => exact h.printed k p v (by rw [hp, Option.some_or]) (by rw [hv, Option.some_or])
      | none => exact h.printed k v v (by rw [hp, Option.none_or, hv]) (by rw [hv, Option.some_or])
  | none =>
      cases hp : presetField presets current req k with
      | some p => exact h.printed k p p (by rw [hp, Option.some_or]) (by rw [hv, Option.none_or, hp])
      | none => exact iff_of_true rfl rfl

theorem persisted_of_laidOver (h : LaidOver host presets before current req) :
    Documented host presets before current req := by
  obtain ⟨row, hrow⟩ : ∃ row : Values, ∀ k, stored host k (laid presets current req k) = some (row k) ∧
      Same (row k) (wanted presets before current req k) :=
    Classical.skolem.mp h.stores
  refine ⟨row, _, upsert_eq_ok.mpr ⟨h.hashable, fun k => (hrow k).1, rfl⟩, ?_⟩
  constructor
  · intro k v hv
    have hsame := (hrow k).2
    rwa [wanted, hv, Option.some_or, Option.getD_some] at hsame
  · intro k p hv hp
    have hsame := (hrow k).2
    rwa [wanted, hv, hp, Option.none_or, Option.getD_some] at hsame
  · intro k hv hp
    have hsame := (hrow k).2
    rwa [wanted, hv, hp, Option.none_or, Option.getD_none] at hsame
  · intro k hunchanged
    rw [countP_auditRows, if_pos]
    exact (h.text_iff k).mpr ((hrow k).2.symm.trans hunchanged)
  · intro k hchanged
    rw [countP_auditRows, if_neg]
    exact fun htext => hchanged ((hrow k).2.trans ((h.text_iff k).mp htext))
  · intro k
    exact accepts_of_contains (Option.filter_eq_some_iff.mp (hrow k).1).2

theorem laidOver_of_documented (h : Documented host presets before current req) :
    LaidOver host presets before current req := by
  obtain ⟨row, audit, hok, h⟩ := h
  exact laidOver_of_persisted hok h

/-- The upsert does what its docstring says exactly where the preset has no other value for a field
that is passed, the columns keep what is written, nothing stale is written back, and the texts of
the values tell them apart. -/
theorem documented_iff (host : Host) (presets : Presets) (before current : Values) (req : UpsertCall) :
    Documented host presets before current req ↔ LaidOver host presets before current req :=
  ⟨laidOver_of_documented, persisted_of_laidOver⟩

/-- A value that a field has, is passed, or has in the preset. -/
def Candidate (presets : Presets) (current : Values) (req : UpsertCall) (k : Field) (v : Value) : Prop :=
  current k = v ∨ req.fields k = some v ∨ presetField presets current req k = some v

/-- The columns keep all values as they are, and the texts of the values tell them apart. -/
structure Plain (host : Host) (presets : Presets) (current : Values) (req : UpsertCall) : Prop where
  hashable : req.applyPreset = true → SettingsCache.hashable (req.tier current).json = true
  kept : ∀ k v, Candidate presets current req k v → stored host k v = some v
  printed : ∀ k v w, Candidate presets current req k v → Candidate presets current req k w →
    (v.text host = w.text host ↔ Same v w)

theorem Plain.stores (h : Plain host presets current req) {u v : Value}
    (hu : Candidate presets current req k u) : Stores host k u v ↔ Same u v := by
  rw [Stores, h.kept k u hu]
  constructor
  · rintro ⟨w, hw, hsame⟩
    rwa [Option.some.inj hw]
  · exact fun hsame => ⟨u, rfl, hsame⟩

theorem candidate_of_or {u : Value} (h : (presetField presets current req k).or (req.fields k) = some u) :
    Candidate presets current req k u := by
  rcases Option.or_eq_some_iff.mp h with hp | ⟨_, hv⟩
  · exact Or.inr (Or.inr hp)
  · exact Or.inr (Or.inl hv)

/-- Of two values that are the same where both are there, either may be put first. -/
theorem same_of_or {x y : Option Value} {u v : Value} (hsame : ∀ v p, y = some v → x = some p → Same p v)
    (hu : x.or y = some u) (hv : y.or x = some v) : Same u v := by
  cases hx : x with
  | none =>
      rw [hx, Option.none_or] at hu
      rw [hu, Option.some_or] at hv
      exact congrArg Value.json (Option.some.inj hv)
  | some p =>
      rw [hx, Option.some_or] at hu
      rw [← Option.some.inj hu]
      cases hy : y with
      | none =>
          rw [hx, hy, Option.none_or] at hv
          exact congrArg Value.json (Option.some.inj hv)
      | some w =>
          rw [hy, Option.some_or] at hv
          rw [← Option.some.inj hv]
          exact hsame w p hy hx

/-- On such values, read from the row itself, the precedence is all that can go wrong. -/
theorem Plain.documented_iff_same (h : Plain host presets current req) :
    Documented host presets current current req ↔
      ∀ k v p, req.fields k = some v → presetField presets current req k = some p → Same p v := by
  constructor
  · intro hdocumented k v p hv hp
    exact (h.stores (Or.inr (Or.inr hp))).mp ((laidOver_of_documented hdocumented).overlap k v p hv hp)
  · intro hsame
    refine persisted_of_laidOver ⟨h.hashable, ?_, ?_, ?_, ?_, ?_⟩
    · exact fun k v p hv hp => (h.stores (Or.inr (Or.inr hp))).mpr (hsame k v p hv hp)
    · exact fun k v hv _ => (h.stores (Or.inr (Or.inl hv))).mpr rfl
    · exact fun k p _ hp => (h.stores (Or.inr (Or.inr hp))).mpr rfl
    · exact fun k _ _ => (h.stores (Or.inl rfl)).mpr rfl
    · intro k u v hu hv
      have huv : Same u v := same_of_or (hsame k) hu hv
      rw [h.printed k _ u (Or.inl rfl) (candidate_of_or hu)]
      exact ⟨fun hcurrent => huv.symm.trans hcurrent.symm, fun hcurrent => (huv.trans hcurrent).symm⟩

end Documented

section Sample

/-- The one `config` that the shipped tiers share. -/
def unifiedConfig : Preset
  | .useHyde | .useReranking | .useQueryRewriting | .useHybridSearch
  | .mandatoryCheckUseLlmVerify => some (.bool true)
  | .retrievalTopK => some (.int 10)
  | .rerankTopN => some (.int 5)
  | .confidenceRetryThreshold => some (.float (.fin (3 / 4)))
  | .llmTemperature => some (.float (.fin (1 / 10)))
  | _ => none

def shippedPresets : Presets := fun tier =>
  if tier ∈ ["fast", "balanced", "accurate"] then some unifiedConfig else none

/-- `new_org_defaults` under its preset. -/
def newOrg : Values
  | .qualityTier => .str "balanced"
  | .useHyde | .useReranking | .useQueryRewriting | .useHybridSearch
  | .mandatoryCheckUseLlmVerify => .bool true
  | .rerankerProvider => .str "bge"
  | .retrievalTopK => .int 10
  | .rerankTopN => .int 5
  | .confidenceRetryThreshold => .float (.fin (3 / 4))
  | .scoreVarianceThreshold => .float (.fin (3 / 20))
  | .rankMarginThreshold => .int 3
  | .llmTemperature => .float (.fin (1 / 10))
  | .outputTone => .str "formal"
  | .outputLanguage => .str "en-GB"
  | .citationStyle => .str "inline"
  | .includeConfidenceScore | .includeEvidenceQuotes | .parallelVendors => .bool true
  | .maxEvidenceQuoteChars => .int 300

/-- A host that is asked nothing here. -/
def plainHost : Host := ⟨fun _ => "", fun _ _ => none⟩

/-- `{"llm_temperature": 0.5}` -/
def warmer : UpsertCall := ⟨true, fun k => if k = .llmTemperature then some (.float (.fin (1 / 2))) else none⟩

theorem laid_warmer : laid shippedPresets newOrg warmer = newOrg := by
  funext k
  cases k <;> rfl

/-- The columns keep the settings of a new organisation as they are. -/
theorem stored_newOrg (k : Field) : stored plainHost k (newOrg k) = some (newOrg k) := by
  cases k with
  | confidenceRetryThreshold => exact stored_hundredths rfl 75 (by norm_num) (by norm_num) (by norm_num)
  | scoreVarianceThreshold => exact stored_hundredths rfl 15 (by norm_num) (by norm_num) (by norm_num)
  | llmTemperature => exact stored_hundredths rfl 10 (by norm_num) (by norm_num) (by norm_num)
  | retrievalTopK | rerankTopN | rankMarginThreshold | maxEvidenceQuoteChars =>
      exact stored_integer rfl (by decide)
  | _ => rfl

/-- The preset's temperature takes the place of the passed one, and nothing is changed at all. -/
theorem warmer_lost : upsertOrgSettings plainHost shippedPresets newOrg warmer = .ok (newOrg, []) ∧
    ¬ Documented plainHost shippedPresets newOrg newOrg warmer := by
  constructor
  · refine upsert_eq_ok.mpr ⟨fun _ => rfl, fun k => ?_, ?_⟩
    · rw [laid_warmer]
      exact stored_newOrg k
    · rw [laid_warmer, auditRows, List.filter_eq_nil_iff.mpr (by simp)]
      rfl
  · rintro ⟨row, audit, hok, h⟩
    have hrow := (upsert_eq_ok.mp hok).2.1 .llmTemperature
    rw [laid_warmer, stored_newOrg] at hrow
    have hpassed := h.passed .llmTemperature _ rfl
    rw [← Option.some.inj hrow] at hpassed
    simp only [Same, newOrg, Value.json, Json.num.injEq, PyFloat.fin.injEq] at hpassed
    norm_num at hpassed

end Sample

end RfpPlatform.SettingsUpsert
