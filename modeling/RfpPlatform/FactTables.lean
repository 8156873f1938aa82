import Mathlib.Data.List.Sort
import RfpPlatform.BackgroundIngestion

namespace RfpPlatform.FactTables

open BackgroundIngestion (safeUuid)

inductive DocumentStatus
  | current | pending | expired | notMentioned
  deriving DecidableEq

/-- The columns that the six kinds of facts have in common. -/
structure Evidence where
  confidence : Confidence
  groundingQuote : String
  sourceChunkId : ChunkId
  deriving DecidableEq

structure Certification extends Evidence where
  standardName : String
  version : Option String
  certNumber : Option String
  issuingBody : Option String
  scope : Option String
  validUntil : Option Nat
  status : DocumentStatus
  deriving DecidableEq

structure Insurance extends Evidence where
  insuranceType : Option String
  amountGbp : Option PyFloat
  provider : Option String
  deriving DecidableEq

structure Sla extends Evidence where
  priorityLevel : Option String
  responseMinutes : Option Int
  resolutionHours : Option Int
  uptimePercentage : Option PyFloat
  deriving DecidableEq

structure Project extends Evidence where
  clientName : Option String
  clientSector : Option String
  userCount : Option Int
  outcomes : Option String
  referenceAvailable : Option Bool
  deriving DecidableEq

structure Pricing extends Evidence where
  year : Option Int
  amountGbp : Option PyFloat
  totalGbp : Option PyFloat
  includes : List String
  deriving DecidableEq

structure CustomFact extends Evidence where
  targetId : String
  factType : String
  factName : String
  textValue : String
  numericValue : Option PyFloat
  booleanValue : Option Bool
  unit : Option String
  deriving DecidableEq

inductive FactTable
  | certifications | insurance | slas | projects | pricing | extractedFacts
  deriving DecidableEq

abbrev Columns : FactTable → Type
  | .certifications => Certification
  | .insurance => Insurance
  | .slas => Sla
  | .projects => Project
  | .pricing => Pricing
  | .extractedFacts => CustomFact

structure Extraction where
  orgId : String
  vendorId : VendorId
  setupId : Option String
  facts : (k : FactTable) → List (Columns k)

structure Entry (k : FactTable) where
  docId : Option String
  orgId : String
  vendorId : VendorId
  setupId : Option String
  columns : Columns k

structure StoredRow (k : FactTable) where
  id : Nat
  entry : Entry k

abbrev Table (k : FactTable) := KeyedTable (StoredRow.id : StoredRow k → Nat)

abbrev Store := (k : FactTable) → Table k

def Store.empty : Store := fun _ => ∅

/-- `gen_random_uuid()`: an id that no row has. -/
def genRandomUuid {k : FactTable} (t : Table k) : Nat :=
  (t.rows.map StoredRow.id).foldr max 0 + 1

/-- `INSERT ... ON CONFLICT DO NOTHING` -/
def insertRow {k : FactTable} (t : Table k) (e : Entry k) : Table k :=
  (t.insert? ⟨genRandomUuid t, e⟩).getD t

def insertRows {k : FactTable} (t : Table k) (es : List (Entry k)) : Table k := es.foldl insertRow t

/-- Only `extracted_facts` has a column for the setup. -/
def setupColumn (output : Extraction) : FactTable → Option String
  | .extractedFacts => output.setupId
  | _ => none

def entriesOf (output : Extraction) (docId : String) (k : FactTable) : List (Entry k) :=
  (output.facts k).map (fun columns =>
    ⟨safeUuid docId, output.orgId, output.vendorId, setupColumn output k, columns⟩)

structure Parents where
  vendorDocuments : List String
  evaluationSetups : List String

def referenced {k : FactTable} (parents : Parents) (e : Entry k) : Bool :=
  (e.docId.map (fun d => decide (d ∈ parents.vendorDocuments))).getD true &&
    (e.setupId.map (fun s => decide (s ∈ parents.evaluationSetups))).getD true

structure Save where
  output : Extraction
  docId : String
  parents : Parents

def FactTable.all : List FactTable :=
  [.certifications, .insurance, .slas, .projects, .pricing, .extractedFacts]

def accepted (call : Save) : Bool :=
  FactTable.all.all (fun k => (entriesOf call.output call.docId k).all (referenced call.parents))

/-- One transaction over the six tables, which a foreign key violation rolls back. -/
def saveExtractionOutput (call : Save) (store : Store) : Except Exn Store :=
  if accepted call then .ok (fun k => insertRows (store k) (entriesOf call.output call.docId k))
  else .error ⟨.integrityError, "insert or update violates foreign key constraint"⟩

def saved (store : Store) (call : Save) : Store :=
  match saveExtractionOutput call store with
  | .ok store => store
  | .error _ => store

def saveAll (calls : List Save) : Store := calls.foldl saved Store.empty

/-- The order of a float column, in which not a number is the greatest. -/
def floatLe : PyFloat → PyFloat → Bool
  | _, .nan => true
  | .nan, _ => false
  | x, y => x.le y

def confidenceDesc (a b : Evidence) : Bool := floatLe b.confidence.value a.confidence.value

/-- Ascending, with the rows that have no year last. -/
def yearAsc : Option Int → Option Int → Bool
  | _, none => true
  | none, some _ => false
  | some x, some y => x ≤ y

def targetThenConfidence (a b : CustomFact) : Bool :=
  a.targetId < b.targetId || (a.targetId = b.targetId && confidenceDesc a.toEvidence b.toEvidence)

/-- The `ORDER BY` of the query on each table. -/
def orderBy : (k : FactTable) → Columns k → Columns k → Bool
  | .certifications, a, b => confidenceDesc a.toEvidence b.toEvidence
  | .insurance, a, b => confidenceDesc a.toEvidence b.toEvidence
  | .slas, a, b => confidenceDesc a.toEvidence b.toEvidence
  | .projects, a, b => confidenceDesc a.toEvidence b.toEvidence
  | .pricing, a, b => yearAsc a.year b.year
  | .extractedFacts, a, b => targetThenConfidence a b

/-- Only the custom facts are asked for by setup, where one is given. -/
def ofSetup (setupId : String) (k : FactTable) (rowSetup : Option String) : Bool :=
  match k with
  | .extractedFacts => setupId = "" || rowSetup = some setupId
  | _ => true

def selects {k : FactTable} (orgId : String) (vendorId : VendorId) (setupId : String) (e : Entry k) :
    Bool :=
  e.orgId = orgId && e.vendorId = vendorId && ofSetup setupId k e.setupId

def getVendorFacts (store : Store) (orgId : String) (vendorId : VendorId) (setupId : String)
    (k : FactTable) : List (StoredRow k) :=
  ((store k).rows.filter (fun r => selects orgId vendorId setupId r.entry)).insertionSort
    (fun a b => orderBy k a.entry.columns b.entry.columns)

section Rows

variable {k : FactTable} {t : Table k} {orgId : String} {vendorId : VendorId} {setupId : String}

def entries (t : Table k) : List (Entry k) := t.rows.map StoredRow.entry

theorem lt_genRandomUuid {id : Nat} (h : id ∈ t.rows.map StoredRow.id) : id < genRandomUuid t := by
  unfold genRandomUuid
  generalize t.rows.map StoredRow.id = ids at h ⊢
  induction ids with
  | nil => cases h
  | cons n ids ih =>
      rw [List.foldr_cons]
      rcases List.mem_cons.mp h with rfl | h
      · omega
      · have := ih h
        omega

/-- A row with a generated id conflicts with no row, so that nothing is ever left out. -/
theorem entries_insertRow (e : Entry k) : entries (insertRow t e) = entries t ++ [e] := by
  have hfresh : genRandomUuid t ∉ t.rows.map StoredRow.id := fun h =>
    Nat.lt_irrefl _ (lt_genRandomUuid h)
  have hinsert : (insertRow t e).rows = t.rows ++ [⟨genRandomUuid t, e⟩] := by
    rw [insertRow, KeyedTable.insert?, dif_neg hfresh]
    rfl
  rw [entries, hinsert, List.map_append]
  rfl

theorem entries_insertRows (es : List (Entry k)) : entries (insertRows t es) = entries t ++ es := by
  induction es generalizing t with
  | nil => simp [insertRows]
  | cons e es ih =>
      change entries (insertRows (insertRow t e) es) = _
      rw [ih, entries_insertRow, List.append_assoc]
      rfl

/-- Every accepted call leaves its rows behind those of the calls before it. -/
theorem entries_saveAll (calls : List Save) :
    entries (saveAll calls k) = (calls.filter accepted).flatMap (fun call =>
      entriesOf call.output call.docId k) := by
  induction calls using List.reverseRecOn with
  | nil => rfl
  | append_singleton calls call ih =>
      have hlast : saveAll (calls ++ [call]) = saved (saveAll calls) call := by
        simp [saveAll]
      rw [hlast, saved, saveExtractionOutput, List.filter_append, List.flatMap_append]
      cases hcall : accepted call with
      | true => simp [entries_insertRows, ih, hcall]
      | false => simp [ih, hcall]

end Rows

section Exactness

def concerns (orgId : String) (vendorId : VendorId) (setupId : String) (call : Save) : Bool :=
  call.output.orgId = orgId && call.output.vendorId = vendorId && call.output.setupId = some setupId

def history (calls : List Save) : List Save := (calls.filter accepted).reverse

def latest (calls : List Save) (orgId : String) (vendorId : VendorId) (setupId : String) :
    Option Save :=
  (history calls).find? (concerns orgId vendorId setupId)

def others (calls : List Save) (orgId : String) (vendorId : VendorId) (setupId : String) : List Save :=
  (history calls).eraseP (concerns orgId vendorId setupId)

def contribution (orgId : String) (vendorId : VendorId) (setupId : String) (k : FactTable)
    (call : Save) : List (Columns k) :=
  if call.output.orgId = orgId && call.output.vendorId = vendorId &&
      ofSetup setupId k (setupColumn call.output k) then call.output.facts k else []

/-- The reader gives back the facts of the latest extraction for the setup, and no others. -/
def Exact (calls : List Save) (orgId : String) (vendorId : VendorId) (setupId : String) : Prop :=
  ∀ k, ((getVendorFacts (saveAll calls) orgId vendorId setupId k).map
    (fun r => r.entry.columns)).Perm
      (((latest calls orgId vendorId setupId).map (fun call => call.output.facts k)).getD [])

variable {calls : List Save} {orgId : String} {vendorId : VendorId} {setupId : String}
  {k : FactTable}

theorem filter_entriesOf (call : Save) :
    ((entriesOf call.output call.docId k).filter (selects orgId vendorId setupId)).map
      Entry.columns = contribution orgId vendorId setupId k call := by
  have hselects : ∀ e ∈ entriesOf call.output call.docId k, selects orgId vendorId setupId e =
      (call.output.orgId = orgId && call.output.vendorId = vendorId &&
        ofSetup setupId k (setupColumn call.output k)) := by
    intro e he
    obtain ⟨columns, _, rfl⟩ := List.mem_map.mp he
    rfl
  rw [List.filter_congr hselects, contribution]
  cases (call.output.orgId = orgId && call.output.vendorId = vendorId &&
    ofSetup setupId k (setupColumn call.output k)) with
  | true => simp [entriesOf, Function.comp_def]
  | false => simp

theorem getVendorFacts_perm :
    ((getVendorFacts (saveAll calls) orgId vendorId setupId k).map (fun r => r.entry.columns)).Perm
      ((history calls).flatMap (contribution orgId vendorId setupId k)) := by
  have hrows : ((saveAll calls k).rows.filter (fun r => selects orgId vendorId setupId r.entry)).map
      (fun r => r.entry.columns) =
        ((entries (saveAll calls k)).filter (selects orgId vendorId setupId)).map Entry.columns := by
    rw [entries, List.filter_map, List.map_map]
    rfl
  have hflat : ((entries (saveAll calls k)).filter (selects orgId vendorId setupId)).map
      Entry.columns = (calls.filter accepted).flatMap (contribution orgId vendorId setupId k) := by
    rw [entries_saveAll, List.filter_flatMap, List.map_flatMap]
    simp only [filter_entriesOf]
  refine ((List.perm_insertionSort _ _).map _).trans ?_
  rw [hrows, hflat, history]
  exact (List.reverse_perm _).symm.flatMap_right _

theorem contribution_of_concerns {call : Save} (h : concerns orgId vendorId setupId call = true) :
    contribution orgId vendorId setupId k call = call.output.facts k := by
  simp only [concerns, Bool.and_eq_true, decide_eq_true_eq] at h
  obtain ⟨⟨horg, hvendor⟩, hsetup⟩ := h
  refine if_pos ?_
  cases k <;> simp [horg, hvendor, hsetup, ofSetup, setupColumn]

theorem perm_find_cons_eraseP {α : Type*} {p : α → Bool} {xs : List α} {x : α}
    (h : xs.find? p = some x) : xs.Perm (x :: xs.eraseP p) := by
  obtain ⟨hx, before, after, rfl, hbefore⟩ := List.find?_eq_some_iff_append.mp h
  have hnone : ∀ a ∈ before, ¬ p a = true := by simpa using hbefore
  rw [List.eraseP_append_right _ hnone, List.eraseP_cons_of_pos hx]
  exact List.perm_middle

theorem perm_latest_others :
    ((history calls).flatMap (contribution orgId vendorId setupId k)).Perm
      ((((latest calls orgId vendorId setupId).map (fun call => call.output.facts k)).getD []) ++
        (others calls orgId vendorId setupId).flatMap (contribution orgId vendorId setupId k)) := by
  cases hlatest : latest calls orgId vendorId setupId with
  | none =>
      have hnone : ∀ call ∈ history calls, ¬ concerns orgId vendorId setupId call = true :=
        List.find?_eq_none.mp hlatest
      rw [others, List.eraseP_of_forall_not hnone]
      exact List.Perm.refl _
  | some call =>
      have hcall : contribution orgId vendorId setupId k call = call.output.facts k :=
        contribution_of_concerns (List.find?_some hlatest)
      have hperm := (perm_find_cons_eraseP hlatest).flatMap_right
        (contribution orgId vendorId setupId k)
      rw [List.flatMap_cons, hcall] at hperm
      exact hperm

/-- The reader is exact for a setup exactly when no other accepted call for the vendor has left
a fact that it gives back: a fact of the five typed tables, or a custom fact of that setup. -/
theorem exact_iff (calls : List Save) (orgId : String) (vendorId : VendorId) (setupId : String) :
    Exact calls orgId vendorId setupId ↔ ∀ call ∈ others calls orgId vendorId setupId, ∀ k,
      contribution orgId vendorId setupId k call = [] := by
  have hperm : ∀ k, ((getVendorFacts (saveAll calls) orgId vendorId setupId k).map
      (fun r => r.entry.columns)).Perm
        ((((latest calls orgId vendorId setupId).map (fun call => call.output.facts k)).getD []) ++
          (others calls orgId vendorId setupId).flatMap (contribution orgId vendorId setupId k)) :=
    fun k => getVendorFacts_perm.trans perm_latest_others
  constructor
  · intro h call hcall k
    have hlength := ((hperm k).symm.trans (h k)).length_eq
    rw [List.length_append] at hlength
    have hnil : (others calls orgId vendorId setupId).flatMap
        (contribution orgId vendorId setupId k) = [] := List.eq_nil_of_length_eq_zero (by omega)
    exact List.flatMap_eq_nil_iff.mp hnil call hcall
  · intro h k
    have hnil : (others calls orgId vendorId setupId).flatMap
        (contribution orgId vendorId setupId k) = [] :=
      List.flatMap_eq_nil_iff.mpr (fun call hcall => h call hcall k)
    have hall := hperm k
    rwa [hnil, List.append_nil] at hall

def isoCertification : Certification where
  confidence := ⟨1, not_one_lt_zero, not_one_lt_one⟩
  groundingQuote := "Certified to ISO 27001."
  sourceChunkId := "c1"
  standardName := "ISO 27001"
  version := none
  certNumber := none
  issuingBody := none
  scope := none
  validUntil := none
  status := .current

def isoFacts : (k : FactTable) → List (Columns k)
  | .certifications => [isoCertification]
  | .insurance => []
  | .slas => []
  | .projects => []
  | .pricing => []
  | .extractedFacts => []

def isoSave : Save where
  output := ⟨"org-1", "v1", some "setup-1", isoFacts⟩
  docId := "rfp-1-v1"
  parents := ⟨[], ["setup-1"]⟩

/-- An extraction that is saved twice is read back twice. -/
theorem saved_twice_read_twice : ¬ ∀ calls orgId vendorId setupId,
    Exact calls orgId vendorId setupId := by
  intro hexact
  have hread : (getVendorFacts (saveAll [isoSave, isoSave]) "org-1" "v1" "setup-1"
      .certifications).length = 2 := by decide +kernel
  have hlatest : (((latest [isoSave, isoSave] "org-1" "v1" "setup-1").map
      (fun call => call.output.facts .certifications)).getD []).length = 1 := by decide +kernel
  have hlength := (hexact [isoSave, isoSave] "org-1" "v1" "setup-1" .certifications).length_eq
  rw [List.length_map, hread, hlatest] at hlength
  omega

end Exactness

end RfpPlatform.FactTables
