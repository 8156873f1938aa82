import RfpPlatform.RunDeletion
import RfpPlatform.TransitionRuns
import RfpPlatform.VectorStore

namespace RfpPlatform.CleanupConsistency

open RunDeletion (foreignKeyViolation)
open TransitionRuns VectorStore

section Database

structure SetupRow where
  setupId : String
  orgId : String
  createdAt : Option Int
  deriving DecidableEq

/-- The setups, and the `setup_id` columns of the tables that refer to them. -/
structure Rows where
  evaluationSetups : KeyedTable SetupRow.setupId
  evaluationRuns : List (Option String)
  vendorDocuments : List (Option String)
  extractedFacts : List (Option String)

def Rows.references (t : Rows) : List String :=
  (t.evaluationRuns ++ t.vendorDocuments ++ t.extractedFacts).reduceOption

/-- A state in which the foreign keys to `evaluation_setups` hold. -/
structure Db extends Rows where
  foreign_keys : toRows.references ⊆ evaluationSetups.rows.map SetupRow.setupId

/-- None of the foreign keys cascades, so a row that is referred to cannot be deleted. -/
def Db.deleteSetup (setupId : String) (db : Db) : Except Exn Db :=
  if h : setupId ∈ db.references then .error foreignKeyViolation
  else .ok { db with
    evaluationSetups := db.evaluationSetups.deleteWhere (fun s => s.setupId = setupId)
    foreign_keys := by
      intro id hid
      obtain ⟨s, hs, rfl⟩ := List.mem_map.mp (db.foreign_keys hid)
      refine List.mem_map.mpr ⟨s, KeyedTable.mem_deleteWhere.mpr ⟨hs, ?_⟩, rfl⟩
      exact decide_eq_false (fun heq => h (heq ▸ hid)) }

end Database

section Service

/-- How the vector service answers a request. A lost answer is one that the service has acted
on. -/
inductive Answer
  | done
  | refused (e : Exn)
  | lost (e : Exn)
  deriving DecidableEq

inductive Request
  | getCollections | countMatched | delete | countAll | deleteCollection
  deriving DecidableEq

abbrev Outage := Request → Answer

abbrev Service (α : Type) := ExceptT Exn (StateM Store) α

def Service.exec {α : Type} (x : Service α) (store : Store) : Except Exn α × Store :=
  x.run.run store

def request (answer : Answer) (effect : Store → Store) : Service Unit :=
  ExceptT.mk (fun store =>
    match answer with
    | .done => (.ok (), effect store)
    | .refused e => (.error e, store)
    | .lost e => (.error e, effect store))

def deleteByFilterAndMaybeDrop (outage : Outage) (orgId : String) (must : List FieldCondition) :
    Service (Nat × Bool) := do
  let name := orgCollectionName orgId
  request (outage .getCollections) id
  let store ← get
  match store.get? name with
  | none => return (0, false)
  | some c =>
      request (outage .countMatched) id
      let matched := (c.rows.filter (matchesAll must)).length
      request (outage .delete) (deleteByFilter false name must)
      request (outage .countAll) id
      let left ← get
      if (points left name).rows.isEmpty then
        request (outage .deleteCollection) (fun s => s.deleteWhere (fun e => e.1 = name))
        return (matched, true)
      else return (matched, false)

def deleteSetupData (outage : Outage) (orgId setupId : String) : Service (Nat × Bool) :=
  deleteByFilterAndMaybeDrop outage orgId [⟨.orgId, orgId⟩, ⟨.setupId, setupId⟩]

end Service

section Cleanup

structure Summary where
  cutoffDate : Int
  deletedCollections : List String
  purgedSetups : Nat
  deletedPoints : Nat
  deletedPgRows : Nat
  failedSetups : Nat

/-- The transaction, the vector service and the counters of a cleanup. What the database raises
ends the loop. -/
structure Progress where
  db : Db
  store : Store
  summary : Summary
  raised : Option Exn

def Progress.start (cutoff : Int) (db : Db) (store : Store) : Progress :=
  ⟨db, store, ⟨cutoff, [], 0, 0, 0, 0⟩, none⟩

def deleteRow (row : SetupRow) (s : Progress) : Progress :=
  match s.db.deleteSetup row.setupId with
  | .error e => { s with raised := some e }
  | .ok db =>
      { s with
        db := db
        summary := { s.summary with
          deletedPgRows := s.summary.deletedPgRows +
            (s.db.evaluationSetups.rows.filter (fun r => r.setupId = row.setupId)).length } }

def Progress.failed (s : Progress) (store : Store) : Progress :=
  { s with
    store := store
    summary := { s.summary with failedSetups := s.summary.failedSetups + 1 } }

def Progress.purged (s : Progress) (row : SetupRow) (matched : Nat) (dropped : Bool)
    (store : Store) : Progress :=
  { s with
    store := store
    summary := { s.summary with
      purgedSetups := s.summary.purgedSetups + 1
      deletedPoints := s.summary.deletedPoints + matched
      deletedCollections := s.summary.deletedCollections ++ (if dropped then [row.orgId] else []) } }

variable (outage : String → Outage)

def cleanupSetup (s : Progress) (row : SetupRow) : Progress :=
  match s.raised with
  | some _ => s
  | none =>
    match (deleteSetupData (outage row.setupId) row.orgId row.setupId).exec s.store with
    | (.error _, store) => s.failed store
    | (.ok (matched, dropped), store) => deleteRow row (s.purged row matched dropped store)

def expired (cutoff : Int) (db : Db) : List SetupRow :=
  db.evaluationSetups.rows.filter (fun row => row.createdAt.any (fun t => t < cutoff))

def cleanupLoop (cutoff : Int) (db : Db) (store : Store) (rows : List SetupRow) : Progress :=
  rows.foldl (cleanupSetup outage) (.start cutoff db store)

structure Outcome where
  answer : Except Exn Summary
  db : Db
  store : Store

def defaultRetentionDays : Int := 90

def cutoffOf (now retentionDays : Int) : Int := now - retentionDays * 86400

/-- One transaction for all the setups. An exception leaves it without the commit. -/
def runCleanup (now retentionDays : Int) (db : Db) (store : Store) : Outcome :=
  let cutoff := cutoffOf now retentionDays
  let s := cleanupLoop outage cutoff db store (expired cutoff db)
  match s.raised with
  | some e => ⟨.error e, db, s.store⟩
  | none => ⟨.ok s.summary, s.db, s.store⟩

end Cleanup

section Answers

def Stamped (row : SetupRow) (p : Point) : Prop := p.orgId = row.orgId ∧ p.setupId = row.setupId

/-- The vectors that the setup has in the collection of its organisation. -/
def Vector (row : SetupRow) (store : Store) (p : Point) : Prop :=
  p ∈ points store (orgCollectionName row.orgId) ∧ Stamped row p

@[simp] def Answer.effective : Answer → Bool
  | .refused _ => false
  | _ => true

/-- The service acts on the requests up to the filter. -/
def filters (outage : Outage) : Bool :=
  outage .getCollections = .done && outage .countMatched = .done && (outage .delete).effective

/-- The service answers all the requests that the deletion makes. -/
def Answered (outage : Outage) (row : SetupRow) (store : Store) : Prop :=
  outage .getCollections = .done ∧
    ((store.get? (orgCollectionName row.orgId)).isSome → outage .countMatched = .done ∧
      outage .delete = .done ∧ outage .countAll = .done ∧
      ((∀ p ∈ points store (orgCollectionName row.orgId), Stamped row p) →
        outage .deleteCollection = .done))

variable {outage : Outage} {row : SetupRow} {store : Store} {α : Type}

theorem matches_stamp {p : Point} :
    matchesAll [⟨.orgId, row.orgId⟩, ⟨.setupId, row.setupId⟩] p = true ↔ Stamped row p := by
  simp [matchesAll_iff, Point.field, Stamped]

theorem exec_request (answer : Answer) (effect : Store → Store) (k : Unit → Service α) :
    (request answer effect >>= k).exec store =
      match answer with
      | .done => (k ()).exec (effect store)
      | .refused e => (.error e, store)
      | .lost e => (.error e, effect store) := by
  cases answer <;> rfl

theorem exec_get (k : Store → Service α) :
    ((get : Service Store) >>= k).exec store = (k store).exec store := rfl

theorem exec_pure (a : α) : (pure a : Service α).exec store = (.ok a, store) := rfl

theorem points_drop_empty {name : String} (h : (points store name).rows.isEmpty = true)
    (other : String) : points (store.deleteWhere (fun e => e.1 = name)) other =
      points store other := by
  rw [points_drop]
  split
  · rename_i hother
    rw [hother]
    exact (KeyedTable.ext (List.isEmpty_iff.mp h)).symm
  · rfl

theorem filtered_isEmpty_iff :
    (points (deleteByFilter false (orgCollectionName row.orgId)
      [⟨.orgId, row.orgId⟩, ⟨.setupId, row.setupId⟩] store)
      (orgCollectionName row.orgId)).rows.isEmpty = true ↔
      ∀ p ∈ points store (orgCollectionName row.orgId), Stamped row p := by
  rw [points_deleteByFilter, if_pos rfl, List.isEmpty_iff, KeyedTable.deleteWhere,
    List.filter_eq_nil_iff]
  refine forall₂_congr (fun p _ => ?_)
  rw [Bool.not_eq_true, Bool.not_eq_false', matches_stamp]

/-- What a deletion answers and what it leaves, whatever the vector service does. -/
theorem deleteSetupData_spec (outage : Outage) (row : SetupRow) (store : Store) :
    ((∃ v, ((deleteSetupData outage row.orgId row.setupId).exec store).1 = .ok v) ↔
      Answered outage row store) ∧
    ∀ name, points ((deleteSetupData outage row.orgId row.setupId).exec store).2 name =
      if filters outage then points (VectorStore.deleteSetupData row.orgId row.setupId store) name
      else points store name := by
  have hleft : ∀ name, points (VectorStore.deleteSetupData row.orgId row.setupId store) name =
      points (deleteByFilter false (orgCollectionName row.orgId)
        [⟨.orgId, row.orgId⟩, ⟨.setupId, row.setupId⟩] store) name := by
    intro name
    rw [VectorStore.deleteSetupData, points_deleteByFilter, points_deleteByFilter]
  simp only [hleft]
  unfold deleteSetupData deleteByFilterAndMaybeDrop Answered filters
  simp only [exec_request, exec_get]
  cases outage .getCollections with
  | refused e => simp
  | lost e => simp
  | done =>
      cases hget : store.get? (orgCollectionName row.orgId) with
      | none => 
          simp [hget, deleteByFilter, exec_pure]
      | some c =>
          simp only [exec_request, exec_get, Option.isSome_some, true_imp_iff, true_and, id_eq, hget]
          cases outage .countMatched with
          | refused e => simp
          | lost e => simp
          | done =>
              cases outage .delete with
              | refused e => simp
              | lost e => simp
              | done =>
                  cases outage .countAll with
                  | refused e => simp
                  | lost e => simp
                  | done =>
                      simp only [true_and]
                      rw [← filtered_isEmpty_iff]
                      split
                      · rename_i hempty
                        simp only [exec_request]
                        cases outage .deleteCollection with
                        | refused e => simp [hempty]
                        | lost e => simp [hempty, points_drop_empty hempty]
                        | done => simp [hempty, exec_pure, points_drop_empty hempty]
                      · rename_i hempty
                        simp [hempty, exec_pure]

end Answers

section Steps

variable {outage : String → Outage} {s : Progress} {row other : SetupRow} {p : Point}
  {rows : List SetupRow}

theorem deleteRow_cases (row : SetupRow) (s : Progress) :
    (row.setupId ∈ s.db.references ∧ (deleteRow row s).raised = some foreignKeyViolation ∧
      (deleteRow row s).db = s.db) ∨
    (row.setupId ∉ s.db.references ∧ (deleteRow row s).raised = s.raised ∧
      (deleteRow row s).db.references = s.db.references ∧
      ∀ r, r ∈ (deleteRow row s).db.evaluationSetups ↔
        r ∈ s.db.evaluationSetups ∧ r.setupId ≠ row.setupId) := by
  unfold deleteRow Db.deleteSetup
  by_cases hheld : row.setupId ∈ s.db.references
  · rw [dif_pos hheld]
    exact Or.inl ⟨hheld, rfl, rfl⟩
  · rw [dif_neg hheld]
    refine Or.inr ⟨hheld, rfl, rfl, fun r => ?_⟩
    exact KeyedTable.mem_deleteWhere.trans (and_congr_right' decide_eq_false_iff_not)

theorem deleteRow_store (row : SetupRow) (s : Progress) : (deleteRow row s).store = s.store := by
  unfold deleteRow
  split <;> rfl

theorem cleanupSetup_raised (h : s.raised ≠ none) : cleanupSetup outage s row = s := by
  obtain ⟨e, he⟩ := Option.ne_none_iff_exists'.mp h
  rw [cleanupSetup, he]

variable (outage) in
/-- What the cleanup of one setup does. -/
theorem cleanupSetup_cases (row : SetupRow) (h : s.raised = none) :
    (∀ name, points (cleanupSetup outage s row).store name =
      if filters (outage row.setupId) then
        points (VectorStore.deleteSetupData row.orgId row.setupId s.store) name
      else points s.store name) ∧
    ((¬ Answered (outage row.setupId) row s.store ∧ (cleanupSetup outage s row).raised = none ∧
        (cleanupSetup outage s row).db = s.db) ∨
      (Answered (outage row.setupId) row s.store ∧ row.setupId ∈ s.db.references ∧
        (cleanupSetup outage s row).raised ≠ none ∧ (cleanupSetup outage s row).db = s.db) ∨
      (Answered (outage row.setupId) row s.store ∧ row.setupId ∉ s.db.references ∧
        (cleanupSetup outage s row).raised = none ∧
        (cleanupSetup outage s row).db.references = s.db.references ∧
        ∀ r, r ∈ (cleanupSetup outage s row).db.evaluationSetups ↔
          r ∈ s.db.evaluationSetups ∧ r.setupId ≠ row.setupId)) := by
  obtain ⟨hreturns, hpoints⟩ := deleteSetupData_spec (outage row.setupId) row s.store
  have hstep : cleanupSetup outage s row =
      match (deleteSetupData (outage row.setupId) row.orgId row.setupId).exec s.store with
      | (.error _, store) => s.failed store
      | (.ok (matched, dropped), store) => deleteRow row (s.purged row matched dropped store) := by
    rw [cleanupSetup, h]
  rw [hstep]
  revert hreturns hpoints
  generalize (deleteSetupData (outage row.setupId) row.orgId row.setupId).exec s.store = r
  obtain ⟨answer, store⟩ := r
  intro hreturns hpoints
  cases answer with
  | error e =>
      refine ⟨hpoints, Or.inl ⟨fun hanswered => ?_, h, rfl⟩⟩
      obtain ⟨v, hv⟩ := hreturns.mpr hanswered
      cases hv
  | ok v =>
      obtain ⟨matched, dropped⟩ := v
      have hanswered := hreturns.mp ⟨_, rfl⟩
      refine ⟨fun name => by rw [deleteRow_store]; exact hpoints name, Or.inr ?_⟩
      rcases deleteRow_cases row (s.purged row matched dropped store) with ⟨hheld, hraised, hdb⟩ | ⟨hfree, hraised, href, hmem⟩
      · exact Or.inl ⟨hanswered, hheld, by rw [hraised]; exact Option.some_ne_none _, hdb⟩
      · exact Or.inr ⟨hanswered, hfree, hraised.trans h, href, hmem⟩

theorem vector_deleted {store : Store} :
    (p ∈ points (VectorStore.deleteSetupData row.orgId row.setupId store)
        (orgCollectionName other.orgId) ∧ Stamped other p) ↔
      Vector other store p ∧ ¬ Stamped row p := by
  rw [VectorStore.deleteSetupData, points_deleteByFilter]
  split
  · rename_i hname
    rw [KeyedTable.mem_deleteWhere, ← Bool.not_eq_true, matches_stamp, Vector, hname]
    tauto
  · rename_i hname
    constructor
    · rintro ⟨hp, hother⟩
      exact ⟨⟨hp, hother⟩, fun hrow => hname (by rw [← hother.1, ← hrow.1])⟩
    · rintro ⟨⟨hp, hother⟩, _⟩
      exact ⟨hp, hother⟩

/-- The cleanup of a setup leaves the vectors of the others. -/
theorem cleanupSetup_vector (hne : row.setupId ≠ other.setupId) :
    Vector other (cleanupSetup outage s row).store p ↔ Vector other s.store p := by
  by_cases h : s.raised = none
  · have hpoints := (cleanupSetup_cases outage row h).1
    rw [Vector, hpoints]
    split
    · rw [vector_deleted]
      refine and_iff_left_of_imp (fun hother hrow => hne (hrow.2.symm.trans hother.2.2))
    · rfl
  · rw [cleanupSetup_raised h]

theorem not_vector_of_filters (h : s.raised = none) (hfilters : filters (outage row.setupId) = true) :
    ¬ Vector row (cleanupSetup outage s row).store p := by
  rw [Vector, (cleanupSetup_cases outage row h).1, if_pos hfilters, vector_deleted]
  exact fun hp => hp.2 hp.1.2

theorem vector_of_not_filters (h : s.raised = none)
    (hfilters : ¬ filters (outage row.setupId) = true) :
    Vector row (cleanupSetup outage s row).store p ↔ Vector row s.store p := by
  rw [Vector, (cleanupSetup_cases outage row h).1, if_neg hfilters, Vector]

/-- An answered deletion has left no vector of the setup. -/
theorem not_vector_of_answered (h : s.raised = none)
    (hanswered : Answered (outage row.setupId) row s.store) :
    ¬ Vector row (cleanupSetup outage s row).store p := by
  by_cases hfilters : filters (outage row.setupId) = true
  · exact not_vector_of_filters h hfilters
  · rw [vector_of_not_filters h hfilters]
    rintro ⟨hp, _⟩
    have hcollection : (s.store.get? (orgCollectionName row.orgId)).isSome = true := by
      unfold points at hp
      cases hget : s.store.get? (orgCollectionName row.orgId) with
      | none =>
          rw [hget] at hp
          exact absurd hp (KeyedTable.not_mem_empty p)
      | some c => rfl
    obtain ⟨hlist, hrest⟩ := hanswered
    obtain ⟨hcount, hdelete, _⟩ := hrest hcollection
    exact hfilters (by simp [filters, hlist, hcount, hdelete])

theorem cleanupSetup_subset {r : SetupRow}
    (h : r ∈ (cleanupSetup outage s row).db.evaluationSetups) : r ∈ s.db.evaluationSetups := by
  by_cases hraised : s.raised = none
  · rcases (cleanupSetup_cases outage row hraised).2 with
      ⟨_, _, hdb⟩ | ⟨_, _, _, hdb⟩ | ⟨_, _, _, _, hmem⟩
    · exact hdb ▸ h
    · exact hdb ▸ h
    · exact ((hmem r).mp h).1
  · rwa [cleanupSetup_raised hraised] at h

theorem cleanupSetup_keeps {r : SetupRow} (hne : row.setupId ≠ r.setupId)
    (h : r ∈ s.db.evaluationSetups) : r ∈ (cleanupSetup outage s row).db.evaluationSetups := by
  by_cases hraised : s.raised = none
  · rcases (cleanupSetup_cases outage row hraised).2 with
      ⟨_, _, hdb⟩ | ⟨_, _, _, hdb⟩ | ⟨_, _, _, _, hmem⟩
    · exact hdb ▸ h
    · exact hdb ▸ h
    · exact (hmem r).mpr ⟨h, hne.symm⟩
  · rwa [cleanupSetup_raised hraised]

end Steps

section Loop

variable {outage : String → Outage} {s : Progress} {row : SetupRow} {p : Point}
  {rows : List SetupRow}

theorem foldl_raised (h : s.raised ≠ none) : rows.foldl (cleanupSetup outage) s = s := by
  induction rows with
  | nil => rfl
  | cons r rows ih => rw [List.foldl_cons, cleanupSetup_raised h, ih]

theorem foldl_vector (h : ∀ r ∈ rows, r.setupId ≠ row.setupId) :
    Vector row (rows.foldl (cleanupSetup outage) s).store p ↔ Vector row s.store p := by
  induction rows generalizing s with
  | nil => rfl
  | cons r rows ih =>
      obtain ⟨hr, hrows⟩ := List.forall_mem_cons.mp h
      rw [List.foldl_cons, ih hrows, cleanupSetup_vector hr]

theorem foldl_subset (h : row ∈ (rows.foldl (cleanupSetup outage) s).db.evaluationSetups) :
    row ∈ s.db.evaluationSetups := by
  induction rows generalizing s with
  | nil => exact h
  | cons r rows ih => exact cleanupSetup_subset (ih h)

theorem foldl_keeps (h : ∀ r ∈ rows, r.setupId ≠ row.setupId) (hrow : row ∈ s.db.evaluationSetups) :
    row ∈ (rows.foldl (cleanupSetup outage) s).db.evaluationSetups := by
  induction rows generalizing s with
  | nil => exact hrow
  | cons r rows ih =>
      obtain ⟨hr, hrows⟩ := List.forall_mem_cons.mp h
      exact ih hrows (cleanupSetup_keeps hr hrow)

/-- A loop that raises does so at one setup, and what comes after changes nothing. -/
theorem exists_raising (hs : s.raised = none)
    (h : (rows.foldl (cleanupSetup outage) s).raised ≠ none) :
    ∃ pre row post, rows = pre ++ row :: post ∧
      (pre.foldl (cleanupSetup outage) s).raised = none ∧
      (cleanupSetup outage (pre.foldl (cleanupSetup outage) s) row).raised ≠ none := by
  induction rows generalizing s with
  | nil => exact absurd hs h
  | cons r rows ih =>
      by_cases hr : (cleanupSetup outage s r).raised = none
      · obtain ⟨pre, row, post, rfl, hpre, hrow⟩ := ih hr h
        exact ⟨r :: pre, row, post, rfl, hpre, hrow⟩
      · exact ⟨[], r, rows, rfl, hs, hr⟩

end Loop

section Consistency

variable (outage : String → Outage) (cutoff now retentionDays : Int) (db : Db) (store : Store)

/-- A setup whose row is gone has no vector left, one whose row stays has them all, and what the
transaction has deleted stays deleted. -/
structure Consistent : Prop where
  deleted : ∀ row ∈ expired (cutoffOf now retentionDays) db,
    row ∉ (runCleanup outage now retentionDays db store).db.evaluationSetups →
      ∀ p, ¬ Vector row (runCleanup outage now retentionDays db store).store p
  kept : ∀ row ∈ expired (cutoffOf now retentionDays) db,
    row ∈ (runCleanup outage now retentionDays db store).db.evaluationSetups →
      ∀ p, Vector row store p → Vector row (runCleanup outage now retentionDays db store).store p
  lasting : ∀ pre, pre <+: expired (cutoffOf now retentionDays) db →
    ∀ row ∈ db.evaluationSetups,
      row ∉ (cleanupLoop outage (cutoffOf now retentionDays) db store pre).db.evaluationSetups →
        row ∉ (runCleanup outage now retentionDays db store).db.evaluationSetups

/-- The deletion of a setup that has vectors is answered and its row free if the filter is acted
on, and a row that is referred to comes before all that are deleted. -/
def Admits (s : Progress) (row : SetupRow) : Prop :=
  s.raised = none →
    (filters (outage row.setupId) = true → (∃ p, Vector row s.store p) →
      Answered (outage row.setupId) row s.store ∧ row.setupId ∉ s.db.references) ∧
    (Answered (outage row.setupId) row s.store → row.setupId ∈ s.db.references →
      ∀ r ∈ db.evaluationSetups, r ∈ s.db.evaluationSetups)

variable {outage cutoff now retentionDays db store} {pre post : List SetupRow} {row : SetupRow}

theorem ne_of_split (h : expired cutoff db = pre ++ row :: post) :
    (∀ r ∈ pre, r.setupId ≠ row.setupId) ∧ ∀ r ∈ post, r.setupId ≠ row.setupId := by
  have hnodup : ((expired cutoff db).map SetupRow.setupId).Nodup :=
    db.evaluationSetups.keys_nodup.sublist (List.Sublist.map _ List.filter_sublist)
  rw [h, List.map_append, List.map_cons, List.nodup_middle, List.nodup_cons, List.mem_append,
    not_or] at hnodup
  obtain ⟨⟨hpre, hpost⟩, _⟩ := hnodup
  exact ⟨fun r hr heq => hpre (heq ▸ List.mem_map_of_mem hr),
    fun r hr heq => hpost (heq ▸ List.mem_map_of_mem hr)⟩

theorem runCleanup_of_raised
    (h : (cleanupLoop outage (cutoffOf now retentionDays) db store
      (expired (cutoffOf now retentionDays) db)).raised ≠ none) :
    (runCleanup outage now retentionDays db store).db = db := by
  obtain ⟨e, he⟩ := Option.ne_none_iff_exists'.mp h
  rw [runCleanup, he]

theorem runCleanup_of_none
    (h : (cleanupLoop outage (cutoffOf now retentionDays) db store
      (expired (cutoffOf now retentionDays) db)).raised = none) :
    (runCleanup outage now retentionDays db store).db =
      (cleanupLoop outage (cutoffOf now retentionDays) db store
        (expired (cutoffOf now retentionDays) db)).db := by
  rw [runCleanup, h]

theorem runCleanup_store : (runCleanup outage now retentionDays db store).store =
    (cleanupLoop outage (cutoffOf now retentionDays) db store
      (expired (cutoffOf now retentionDays) db)).store := by
  unfold runCleanup
  simp only []
  split <;> rfl

variable (outage store) in
theorem loop_split (h : expired cutoff db = pre ++ row :: post) :
    cleanupLoop outage cutoff db store (expired cutoff db) =
      post.foldl (cleanupSetup outage)
        (cleanupSetup outage (cleanupLoop outage cutoff db store pre) row) := by
  rw [cleanupLoop, h, List.foldl_append, List.foldl_cons, cleanupLoop]

/-- A setup that has not expired keeps its row and its vectors. -/
theorem live_untouched (hrow : row ∈ db.evaluationSetups)
    (hlive : row ∉ expired (cutoffOf now retentionDays) db) :
    row ∈ (runCleanup outage now retentionDays db store).db.evaluationSetups ∧
      ∀ p, Vector row (runCleanup outage now retentionDays db store).store p ↔
        Vector row store p := by
  have hne : ∀ r ∈ expired (cutoffOf now retentionDays) db, r.setupId ≠ row.setupId := by
    intro r hr heq
    have hsame := KeyedTable.eq_of_key_eq (List.mem_of_mem_filter hr) hrow heq
    exact hlive (hsame ▸ hr)
  refine ⟨?_, fun p => ?_⟩
  · by_cases hraised : (cleanupLoop outage (cutoffOf now retentionDays) db store
        (expired (cutoffOf now retentionDays) db)).raised = none
    · rw [runCleanup_of_none hraised]
      exact foldl_keeps hne hrow
    · rwa [runCleanup_of_raised hraised]
  · rw [runCleanup_store]
    exact foldl_vector hne

theorem admits_of_consistent (h : Consistent outage now retentionDays db store)
    (hsplit : expired (cutoffOf now retentionDays) db = pre ++ row :: post) :
    Admits outage db (cleanupLoop outage (cutoffOf now retentionDays) db store pre) row := by
  obtain ⟨hpre, hpost⟩ := ne_of_split hsplit
  have hexpired : row ∈ expired (cutoffOf now retentionDays) db := by simp [hsplit]
  have hrow : row ∈ db.evaluationSetups := List.mem_of_mem_filter hexpired
  have hloop := loop_split outage store hsplit
  intro hnone
  have hcases := (cleanupSetup_cases outage row hnone).2
  constructor
  · rintro hfilters ⟨p, hp⟩
    have hgone : row ∉ (runCleanup outage now retentionDays db store).db.evaluationSetups := by
      intro hstays
      have hvector := h.kept row hexpired hstays p ((foldl_vector hpre).mp hp)
      rw [runCleanup_store, hloop, foldl_vector hpost] at hvector
      exact not_vector_of_filters hnone hfilters hvector
    have hfinal : (cleanupLoop outage (cutoffOf now retentionDays) db store
        (expired (cutoffOf now retentionDays) db)).raised = none := by
      by_contra hraised
      exact hgone ((runCleanup_of_raised hraised).symm ▸ hrow)
    rw [runCleanup_of_none hfinal, hloop] at hgone
    rw [hloop] at hfinal
    rcases hcases with ⟨_, _, hdb⟩ | ⟨_, _, hraised, _⟩ | ⟨hanswered, hfree, _⟩
    · exact absurd (foldl_keeps hpost (hdb ▸ foldl_keeps hpre hrow)) hgone
    · exact absurd (foldl_raised hraised ▸ hfinal) hraised
    · exact ⟨hanswered, hfree⟩
  · intro hanswered hheld r hr
    have hraised : (cleanupSetup outage (cleanupLoop outage (cutoffOf now retentionDays) db store
        pre) row).raised ≠ none := by
      rcases hcases with ⟨hunanswered, _⟩ | ⟨_, _, hraised, _⟩ | ⟨_, hfree, _⟩
      · exact absurd hanswered hunanswered
      · exact hraised
      · exact absurd hheld hfree
    have hfailed : (cleanupLoop outage (cutoffOf now retentionDays) db store
        (expired (cutoffOf now retentionDays) db)).raised ≠ none := by
      rw [hloop, foldl_raised hraised]
      exact hraised
    have hdb := runCleanup_of_raised hfailed
    by_contra hdeleted
    exact h.lasting pre ⟨_, hsplit.symm⟩ r hr hdeleted (hdb.symm ▸ hr)

theorem loop_keeps_of_raised
    (h : ∀ pre row post, expired cutoff db = pre ++ row :: post →
      Admits outage db (cleanupLoop outage cutoff db store pre) row)
    (hraised : (cleanupLoop outage cutoff db store (expired cutoff db)).raised ≠ none) :
    ∀ r ∈ db.evaluationSetups,
      r ∈ (cleanupLoop outage cutoff db store (expired cutoff db)).db.evaluationSetups := by
  obtain ⟨pre, row, post, hsplit, hpre, hrow⟩ := exists_raising rfl hraised
  change (cleanupLoop outage cutoff db store pre).raised = none at hpre
  change (cleanupSetup outage (cleanupLoop outage cutoff db store pre) row).raised ≠ none at hrow
  rw [loop_split _ _ hsplit, foldl_raised hrow]
  rcases (cleanupSetup_cases outage row hpre).2 with
    ⟨_, hnone, _⟩ | ⟨hanswered, hheld, _, hdb⟩ | ⟨_, _, hnone, _⟩
  · exact absurd hnone hrow
  · intro r hr
    exact hdb ▸ (h pre row post hsplit hpre).2 hanswered hheld r hr
  · exact absurd hnone hrow

theorem consistent_of_admits
    (h : ∀ pre row post, expired (cutoffOf now retentionDays) db = pre ++ row :: post →
      Admits outage db (cleanupLoop outage (cutoffOf now retentionDays) db store pre) row) :
    Consistent outage now retentionDays db store := by
  have hkeeps := loop_keeps_of_raised h
  have hsubset : ∀ r, r ∉ (runCleanup outage now retentionDays db store).db.evaluationSetups →
      r ∈ db.evaluationSetups → (cleanupLoop outage (cutoffOf now retentionDays) db store
        (expired (cutoffOf now retentionDays) db)).raised = none := by
    intro r hgone hr
    by_contra hraised
    exact hgone ((runCleanup_of_raised hraised).symm ▸ hr)
  refine ⟨fun row hexpired hgone p => ?_, fun row hexpired hstays p hp => ?_,
    fun pre hpre row hrow hdeleted => ?_⟩
  · obtain ⟨pre, post, hsplit⟩ := List.append_of_mem hexpired
    obtain ⟨hpre, hpost⟩ := ne_of_split hsplit
    have hrow : row ∈ db.evaluationSetups := List.mem_of_mem_filter hexpired
    have hfinal := hsubset row hgone hrow
    have hloop := loop_split outage store hsplit
    rw [runCleanup_of_none hfinal, hloop] at hgone
    rw [runCleanup_store, hloop, foldl_vector hpost]
    rw [hloop] at hfinal
    have hnone : (cleanupLoop outage (cutoffOf now retentionDays) db store pre).raised = none := by
      by_contra hraised
      rw [cleanupSetup_raised hraised, foldl_raised hraised] at hfinal
      exact hraised hfinal
    rcases (cleanupSetup_cases outage row hnone).2 with
      ⟨_, _, hdb⟩ | ⟨_, _, hraised, _⟩ | ⟨hanswered, _⟩
    · exact absurd (foldl_keeps hpost (hdb ▸ foldl_keeps hpre hrow)) hgone
    · exact absurd (foldl_raised hraised ▸ hfinal) hraised
    · exact not_vector_of_answered hnone hanswered
  · obtain ⟨pre, post, hsplit⟩ := List.append_of_mem hexpired
    obtain ⟨hpre, hpost⟩ := ne_of_split hsplit
    have hrow : row ∈ db.evaluationSetups := List.mem_of_mem_filter hexpired
    have hloop := loop_split outage store hsplit
    have hinloop : row ∈ (cleanupLoop outage (cutoffOf now retentionDays) db store
        (expired (cutoffOf now retentionDays) db)).db.evaluationSetups := by
      by_cases hraised : (cleanupLoop outage (cutoffOf now retentionDays) db store
          (expired (cutoffOf now retentionDays) db)).raised = none
      · rwa [runCleanup_of_none hraised] at hstays
      · exact hkeeps hraised row hrow
    rw [hloop] at hinloop
    rw [runCleanup_store, hloop, foldl_vector hpost]
    have hbefore : Vector row (cleanupLoop outage (cutoffOf now retentionDays) db store pre).store
        p := (foldl_vector hpre).mpr hp
    by_cases hnone : (cleanupLoop outage (cutoffOf now retentionDays) db store pre).raised = none
    · by_cases hfilters : filters (outage row.setupId) = true
      · -- an answered deletion of a free row would have deleted it
        obtain ⟨hanswered, hfree⟩ := (h pre row post hsplit hnone).1 hfilters ⟨p, hbefore⟩
        rcases (cleanupSetup_cases outage row hnone).2 with
          ⟨hunanswered, _⟩ | ⟨_, hheld, _⟩ | ⟨_, _, _, _, hmem⟩
        · exact absurd hanswered hunanswered
        · exact absurd hheld hfree
        · exact absurd rfl ((hmem row).mp (foldl_subset hinloop)).2
      · exact (vector_of_not_filters hnone hfilters).mpr hbefore
    · rwa [cleanupSetup_raised hnone]
  · obtain ⟨post, hsplit⟩ := hpre
    have hgone : row ∉ (cleanupLoop outage (cutoffOf now retentionDays) db store
        (expired (cutoffOf now retentionDays) db)).db.evaluationSetups := by
      intro hin
      rw [cleanupLoop, ← hsplit, List.foldl_append] at hin
      exact hdeleted (foldl_subset hin)
    have hfinal : (cleanupLoop outage (cutoffOf now retentionDays) db store
        (expired (cutoffOf now retentionDays) db)).raised = none := by
      by_contra hraised
      exact hgone (hkeeps hraised row hrow)
    rwa [runCleanup_of_none hfinal]

/-- A cleanup is consistent, if and only if the cleanup of each of its setups is admitted. -/
theorem cleanup_consistent_iff : Consistent outage now retentionDays db store ↔
    AllAdmitted (cleanupSetup outage) (Admits outage db)
      (.start (cutoffOf now retentionDays) db store) (expired (cutoffOf now retentionDays) db) := by
  rw [allAdmitted_iff_split]
  exact ⟨fun h _ _ _ hsplit => admits_of_consistent h hsplit, consistent_of_admits⟩

def oldSetup : SetupRow := ⟨"setup", "o", some 0⟩

def oldVector : Point :=
  ⟨"c", none, [], [], "text", "general", "offer.pdf", "acme", "o", "rfp", "d", "setup"⟩

/-- The setup of an evaluation that was run. -/
def evaluated : Db where
  evaluationSetups := ⟨[oldSetup], List.nodup_singleton _⟩
  evaluationRuns := [some "setup"]
  vendorDocuments := []
  extractedFacts := []
  foreign_keys := by decide

def indexed : Store := upsertChunk (orgCollectionName "o") oldVector ∅

/-- The run refers to its setup, so the row stays, and the vectors are gone. -/
theorem evaluated_setup_torn : ¬ Consistent (fun _ _ => .done) 7776001 defaultRetentionDays
    evaluated indexed := by
  intro h
  have hexpired : expired (cutoffOf 7776001 defaultRetentionDays) evaluated = [oldSetup] := by
    decide
  have hraised : (cleanupLoop (fun _ _ => .done) (cutoffOf 7776001 defaultRetentionDays) evaluated
      indexed (expired (cutoffOf 7776001 defaultRetentionDays) evaluated)).raised ≠ none := by
    decide +kernel
  have hstored : Vector oldSetup indexed oldVector :=
    ⟨(points_upsertChunk _).symm ▸ KeyedTable.mem_upsert.mpr (Or.inl rfl), rfl, rfl⟩
  have hkept := h.kept oldSetup (hexpired ▸ List.mem_singleton_self _)
    ((runCleanup_of_raised hraised).symm ▸ List.mem_singleton_self oldSetup) oldVector hstored
  rw [runCleanup_store, hexpired, cleanupLoop, List.foldl_cons, List.foldl_nil] at hkept
  exact not_vector_of_filters rfl rfl hkept

end Consistency

end RfpPlatform.CleanupConsistency
