import RfpPlatform.OrgPurge
import RfpPlatform.Quarantine

namespace RfpPlatform.ErasureCompleteness

open ExceptRules ForeignKeys Ingestion OrgPurge Quarantine TransitionRuns VectorStore

section Folders

abbrev Path := List String

/-- `Path.resolve()`, for paths without symbolic links. -/
def resolve (parts : Path) : Path :=
  parts.foldl (fun done part =>
    if part = "" ∨ part = "." then done
    else if part = ".." then done.dropLast
    else done ++ [part]) []

/-- `drops_root / rfp_id`, resolved. -/
def dropFolder (dropsRoot : Path) (rfpId : String) : Path :=
  let parts := (rfpId.toList.splitOn '/').map String.ofList
  resolve (if parts.head? = some "" then parts else dropsRoot ++ parts)

/-- `target != drops_root and drops_root in target.parents` -/
def isInside (dropsRoot : Path) (rfpId : String) : Bool :=
  let target := dropFolder dropsRoot rfpId
  target ≠ dropsRoot && dropsRoot.isPrefixOf target

def under (dropsRoot : Path) (rfpId : String) (file : Path) : Bool :=
  (dropFolder dropsRoot rfpId).isPrefixOf file

/-- The files that `rmtree` leaves, which ignores what it cannot remove. A folder outside of the
root is skipped. -/
def deleteDropFolder (dropsRoot : Path) (rfpId : String) (stuck : List Path) (files : List Path) :
    List Path :=
  if isInside dropsRoot rfpId then
    files.filter (fun f => !under dropsRoot rfpId f || f ∈ stuck)
  else files

end Folders

section Erasures

structure ErasureSettings where
  dropsRoot : Path
  keepErasureReceipt : Bool
  blockIfRunsInFlight : Bool

structure ErasureReceipt where
  orgId : String
  postgresDeleted : List (Table × Nat)
  qdrantPointsDeleted : Nat
  qdrantCollectionDropped : Bool
  dropFoldersDeleted : Nat
  receiptPersisted : Bool

/-- Where an erasure stands: before it reads the ids, before the calls of the vector service,
before the purge, among the folders, and after it has returned its receipt. -/
inductive Phase
  | reading | listing | filtering | counting | dropping | purging | removing | returned
  deriving DecidableEq

def Phase.filtered : Phase → Bool
  | .reading => false
  | .listing => false
  | .filtering => false
  | _ => true

def Phase.purged : Phase → Bool
  | .removing => true
  | .returned => true
  | _ => false

/-- An execution of `erase_org`, with the receipt so far and the requests for proposals that it has
read, of which it has gone over the folders of some and has still to go over the others. -/
structure Erasure where
  phase : Phase
  rfpIds : List String
  cleared : List String
  pending : List String
  receipt : ErasureReceipt

def Erasure.start (orgId : String) : Erasure := ⟨.reading, [], [], [], ⟨orgId, [], 0, false, 0, false⟩⟩

def Erasure.orgId (e : Erasure) : String := e.receipt.orgId

/-- A pipeline or an ingestion job of the organisation, with the points that it has still to
store. -/
structure Task where
  orgId : String
  points : List Point

inductive Actor
  | task (task : Task)
  | erasure (e : Erasure)

/-- The table `user_criteria` has the e-mail addresses and the organisations of its rows. Files
and directories are paths. -/
structure World where
  rows : Rows
  userCriteria : List (String × String)
  store : Store
  files : List Path
  actors : List Actor

inductive Effect
  | none
  | create (orgId : String)
  | upsert (p : Point)
  | insert (t : Table) (r : Row Column String)
  | filter (orgId : String)
  | drop (orgId : String)
  | purge (orgId : String) (left : Rows)
  | remove (rfpId : String) (stuck : List Path)
  | receipt (orgId : String)

def insertRow (t : Table) (r : Row Column String) (rows : Rows) : Rows :=
  Function.update rows t (rows t ++ [r])

def receiptRow (orgId : String) : Row Column String
  | .orgId => some orgId
  | .other name => if name = "event_type" then some "org.erased" else none
  | _ => none

def isReceipt (t : Table) (r : Row Column String) : Bool :=
  t = .auditLog && r (.other "event_type") = some "org.erased"

variable (cfg : ErasureSettings)

def World.apply (w : World) : Effect → World
  | .none => w
  | .create orgId => { w with store := createCollection (orgCollectionName orgId) w.store }
  | .upsert p => { w with store := upsertChunk (orgCollectionName p.orgId) p w.store }
  | .insert t r => { w with rows := insertRow t r w.rows }
  | .filter orgId =>
      { w with store := deleteByFilter false (orgCollectionName orgId) [⟨.orgId, orgId⟩] w.store }
  | .drop orgId =>
      { w with store := w.store.deleteWhere (fun e => e.1 = orgCollectionName orgId) }
  | .purge _ left => { w with rows := left }
  | .remove rfpId stuck =>
      { w with files := deleteDropFolder cfg.dropsRoot rfpId stuck w.files }
  | .receipt orgId => { w with rows := insertRow .auditLog (receiptRow orgId) w.rows }

/-- The tables that pipelines and ingestion jobs insert into. -/
def taskTables : List Table :=
  [.vendorDocuments, .extractedCertifications, .extractedInsurance, .extractedSlas,
    .extractedProjects, .extractedPricing, .extractedFacts, .auditLog, .retrievalLog, .eventLog,
    .evaluationSetups]

def World.has (w : World) (orgId : String) : Prop :=
  (w.store.get? (orgCollectionName orgId)).isSome = true

def matched (store : Store) (orgId : String) : Nat :=
  ((points store (orgCollectionName orgId)).rows.filter (matchesAll [⟨.orgId, orgId⟩])).length

def idsToClean (rows : Rows) (orgId : String) : List String :=
  ((rows .rfps).filter (fun r => r .orgId = some orgId)).filterMap (fun r => r .rfpId)

def hasRunning (rows : Rows) (orgId : String) : Prop :=
  ∃ r ∈ rows .evaluationRuns, r .orgId = some orgId ∧ r (.other "status") = some "running"

def folderExists (dropsRoot : Path) (rfpId : String) (files : List Path) : Bool :=
  files.any (under dropsRoot rfpId)

variable (svc : DocumentServices)

/-- One statement, call or file operation a step. -/
inductive ActorStep (w : World) : Option Actor → Effect → Option Actor → Prop
  -- a run or a job of the organisation is launched from its row
  | launched {orgId : String} {t : Table} {r : Row Column String}
      (ht : t = .evaluationRuns ∨ t = .ingestionJobs) (hr : r ∈ w.rows t)
      (horg : r .orgId = some orgId) : ActorStep w none .none (some (.task ⟨orgId, []⟩))
  | ingested {task : Task} {call : IngestionCall} {file : SourceFile} {draw : FileDraw}
      {chunks : List Chunk} (horg : call.orgId = task.orgId) (hpoints : task.points = [])
      (hchunks : chunksOf svc call file = .ok chunks) :
      ActorStep w (some (.task task)) (.create task.orgId)
        (some (.task ⟨task.orgId, chunks.map (pointOf call draw.docId file.filename)⟩))
  | stored {orgId : String} {p : Point} {ps : List Point} (hcollection : w.has p.orgId) :
      ActorStep w (some (.task ⟨orgId, p :: ps⟩)) (.upsert p) (some (.task ⟨orgId, ps⟩))
  | inserted {task : Task} {t : Table} {r : Row Column String} (ht : t ∈ taskTables)
      (horg : r .orgId = some task.orgId) (hreceipt : isReceipt t r = false)
      (hkeys : Holds foreignKeys (insertRow t r w.rows)) :
      ActorStep w (some (.task task)) (.insert t r) (some (.task task))
  -- the checks of `erase_org_data`
  | requested {orgId : String} (horg : ∃ r ∈ w.rows .organisations, r .orgId = some orgId)
      (hrunning : cfg.blockIfRunsInFlight = true → ¬ hasRunning w.rows orgId) :
      ActorStep w none .none (some (.erasure (.start orgId)))
  | read {e : Erasure} (hphase : e.phase = .reading) :
      ActorStep w (some (.erasure e)) .none
        (some (.erasure { e with
          phase := .listing
          rfpIds := idsToClean w.rows e.orgId
          pending := idsToClean w.rows e.orgId }))
  | absent {e : Erasure} (hphase : e.phase = .listing) (hcollection : ¬ w.has e.orgId) :
      ActorStep w (some (.erasure e)) .none (some (.erasure { e with phase := .purging }))
  | counted {e : Erasure} (hphase : e.phase = .listing) (hcollection : w.has e.orgId) :
      ActorStep w (some (.erasure e)) .none (some (.erasure { e with
        phase := .filtering
        receipt := { e.receipt with qdrantPointsDeleted := matched w.store e.orgId } }))
  | filtered {e : Erasure} (hphase : e.phase = .filtering) (hcollection : w.has e.orgId) :
      ActorStep w (some (.erasure e)) (.filter e.orgId)
        (some (.erasure { e with phase := .counting }))
  | emptied {e : Erasure} (hphase : e.phase = .counting) (hcollection : w.has e.orgId) :
      ActorStep w (some (.erasure e)) .none (some (.erasure { e with
        phase := if (points w.store (orgCollectionName e.orgId)).rows = [] then .dropping
          else .purging }))
  | dropped {e : Erasure} (hphase : e.phase = .dropping) :
      ActorStep w (some (.erasure e)) (.drop e.orgId) (some (.erasure { e with
        phase := .purging
        receipt := { e.receipt with qdrantCollectionDropped := true } }))
  | purged {e : Erasure} {counts : List (Table × Nat)} {left : Rows} (hphase : e.phase = .purging)
      (hpurge : purgeOrgPostgres e.orgId w.rows = .ok (counts, left)) :
      ActorStep w (some (.erasure e)) (.purge e.orgId left) (some (.erasure { e with
        phase := .removing
        receipt := { e.receipt with postgresDeleted := counts } }))
  | removed {e : Erasure} {rfpId : String} {rest : List String} {stuck : List Path}
      (hphase : e.phase = .removing) (hpending : e.pending = rfpId :: rest) :
      ActorStep w (some (.erasure e)) (.remove rfpId stuck) (some (.erasure { e with
        cleared := e.cleared ++ [rfpId]
        pending := rest
        receipt := { e.receipt with
          dropFoldersDeleted := e.receipt.dropFoldersDeleted +
            (if isInside cfg.dropsRoot rfpId && folderExists cfg.dropsRoot rfpId w.files
              then 1 else 0) } }))
  | persisted {e : Erasure} (hphase : e.phase = .removing) (hpending : e.pending = [])
      (hkeep : cfg.keepErasureReceipt = true) :
      ActorStep w (some (.erasure e)) (.receipt e.orgId) (some (.erasure { e with
        phase := .returned
        receipt := { e.receipt with receiptPersisted := true } }))
  -- the receipt is not to be kept, or its row could not be written
  | unpersisted {e : Erasure} (hphase : e.phase = .removing) (hpending : e.pending = []) :
      ActorStep w (some (.erasure e)) .none (some (.erasure { e with phase := .returned }))
  | finished (task : Task) : ActorStep w (some (.task task)) .none none
  -- an exception of the vector service or of the database, or a crash
  | raised {e : Erasure} (hphase : e.phase ≠ .returned) :
      ActorStep w (some (.erasure e)) .none none

/-- A state that the schema allows, in which tasks may be executing. -/
structure Start where
  db : Db
  userCriteria : List (String × String)
  store : Store
  files : List Path
  tasks : List Task

def Start.world (s : Start) : World :=
  ⟨s.db.rows, s.userCriteria, s.store, s.files, s.tasks.map .task⟩

structure Label where
  actor : Option Actor
  effect : Effect
  next : Option Actor

inductive Step : World → Label → World → Prop
  | mk {w : World} {before after : List Actor} {actor next : Option Actor} {effect : Effect}
      (hactors : w.actors = before ++ actor.toList ++ after)
      (hstep : ActorStep cfg svc w actor effect next) :
      Step w ⟨actor, effect, next⟩
        { w.apply cfg effect with actors := before ++ next.toList ++ after }

end Erasures

section Completeness

def Vector (w : World) (orgId : String) (p : Point) : Prop :=
  p ∈ points w.store (orgCollectionName orgId) ∧ p.orgId = orgId

/-- No row of the organisation is left in its tables, but for receipts. -/
def NoRows (w : World) (orgId : String) : Prop :=
  (∀ t, ∀ r ∈ w.rows t, Belongs w.rows orgId t r → isReceipt t r = true) ∧
    ∀ u ∈ w.userCriteria, u.2 ≠ orgId

/-- What an erasure has gone over is gone. -/
structure Done (cfg : ErasureSettings) (w : World) (e : Erasure) : Prop where
  vectors : e.phase.filtered = true → ∀ p, ¬ Vector w e.orgId p
  rows : e.phase.purged = true → NoRows w e.orgId
  files : ∀ rfpId ∈ e.cleared, ∀ f ∈ w.files, under cfg.dropsRoot rfpId f = false

/-- In particular nothing is left of an organisation whose erasure has returned. -/
def Complete (cfg : ErasureSettings) (w : World) : Prop :=
  ∀ e, .erasure e ∈ w.actors → Done cfg w e

/-- A task stores no vector and inserts no row of an organisation after an erasure of it has gone
over the vectors and the rows, nothing in `user_criteria` is the organisation's, and the folders
lie inside of the root and are removed with all that is in them. -/
def Admits (cfg : ErasureSettings) (w : World) (l : Label) : Prop :=
  match l.effect with
  | .upsert p => ∀ e, .erasure e ∈ w.actors → e.orgId = p.orgId → e.phase.filtered = false
  | .insert _ r => ∀ e, .erasure e ∈ w.actors → r .orgId = some e.orgId → e.phase.purged = false
  | .purge orgId _ => ∀ u ∈ w.userCriteria, u.2 ≠ orgId
  | .remove rfpId stuck => ∀ f ∈ w.files, under cfg.dropsRoot rfpId f = true →
      isInside cfg.dropsRoot rfpId = true ∧ f ∉ stuck
  | _ => True

variable {cfg : ErasureSettings} {svc : DocumentServices} {w w' : World} {e : Erasure}
  {orgId other rfpId : String} {p : Point} {t : Table} {r : Row Column String}

theorem Done.congr {w' : World} (hrows : w'.rows = w.rows)
    (hcriteria : w'.userCriteria = w.userCriteria) (hstore : w'.store = w.store)
    (hfiles : w'.files = w.files) : Done cfg w' e ↔ Done cfg w e := by
  constructor
  · rintro ⟨hv, hr, hf⟩
    simp only [Vector, NoRows, hrows, hcriteria, hstore, hfiles] at hv hr hf
    exact ⟨hv, hr, hf⟩
  · rintro ⟨hv, hr, hf⟩
    refine ⟨?_, ?_, ?_⟩
    · simpa only [Vector, hstore] using hv
    · simpa only [NoRows, hrows, hcriteria] using hr
    · simpa only [hfiles] using hf

section Vectors

theorem vector_create : Vector (w.apply cfg (.create other)) orgId p ↔ Vector w orgId p := by
  unfold Vector
  change p ∈ points (createCollection _ w.store) _ ∧ _ ↔ _
  rw [points_createCollection]

theorem vector_upsert {q : Point} (h : Vector (w.apply cfg (.upsert q)) orgId p) :
    Vector w orgId p ∨ q.orgId = orgId := by
  obtain ⟨hp, horg⟩ := h
  change p ∈ points (upsertChunk _ q w.store) _ at hp
  rw [points_upsertChunk] at hp
  split at hp
  · rename_i hname
    rcases KeyedTable.mem_upsert.mp hp with rfl | ⟨hp, _⟩
    · exact Or.inr horg
    · exact Or.inl ⟨hname ▸ hp, horg⟩
  · exact Or.inl ⟨hp, horg⟩

theorem vector_upsert_self : Vector (w.apply cfg (.upsert p)) p.orgId p := by
  refine ⟨?_, rfl⟩
  change p ∈ points (upsertChunk _ p w.store) _
  rw [points_upsertChunk, if_pos rfl]
  exact KeyedTable.mem_upsert.mpr (Or.inl rfl)

theorem vector_filter : Vector (w.apply cfg (.filter other)) orgId p ↔
    Vector w orgId p ∧ orgId ≠ other := by
  unfold Vector
  change p ∈ points (deleteByFilter false _ _ w.store) _ ∧ _ ↔ _
  rw [points_deleteByFilter]
  have hmatch : matchesAll [⟨.orgId, other⟩] p = false ↔ p.orgId ≠ other := by
    rw [← Bool.not_eq_true, matchesAll_iff]
    simp [Point.field]
  split
  · rename_i hname
    rw [KeyedTable.mem_deleteWhere, hmatch, hname]
    constructor
    · rintro ⟨⟨hp, hne⟩, rfl⟩
      exact ⟨⟨hp, rfl⟩, hne⟩
    · rintro ⟨⟨hp, rfl⟩, hne⟩
      exact ⟨⟨hp, hne⟩, rfl⟩
  · rename_i hname
    exact ⟨fun hp => ⟨hp, fun heq => hname (heq ▸ rfl)⟩, fun hp => hp.1⟩

theorem vector_drop (h : Vector (w.apply cfg (.drop other)) orgId p) : Vector w orgId p := by
  obtain ⟨hp, horg⟩ := h
  change p ∈ points (w.store.deleteWhere _) _ at hp
  rw [points_drop] at hp
  split at hp
  · exact absurd hp (KeyedTable.not_mem_empty p)
  · exact ⟨hp, horg⟩

theorem not_vector_of_absent (h : ¬ w.has orgId) : ¬ Vector w orgId p := by
  rintro ⟨hp, _⟩
  unfold points at hp
  rw [Option.not_isSome_iff_eq_none.mp h, Option.getD_none] at hp
  exact KeyedTable.not_mem_empty p hp

end Vectors

section Rows

def reads : Scope → Option Table
  | .direct => none
  | .through _ p _ => some p

theorem event_type_kept : ∀ fk ∈ foreignKeys, fk.onDelete = .setNull →
    fk.column ≠ .other "event_type" := by decide

theorem task_owned : ∀ t ∈ taskTables, ownership t = [.direct] := by decide

theorem task_not_read (u : Table) : ∀ l ∈ ownership u, ∀ t ∈ taskTables,
    reads l ≠ some t := by
  cases u <;> decide

theorem mem_insertRow {rows : Rows} {u : Table} {s : Row Column String} :
    s ∈ insertRow t r rows u ↔ s ∈ rows u ∨ (u = t ∧ s = r) := by
  unfold insertRow
  by_cases hu : u = t
  · subst hu
    rw [Function.update_self, List.mem_append, List.mem_singleton]
    exact or_congr_right ⟨fun h => ⟨rfl, h⟩, fun h => h.2⟩
  · rw [Function.update_of_ne hu]
    exact (or_iff_left (fun h => hu h.1)).symm

theorem belongs_insertRow {rows : Rows} {u : Table} {s : Row Column String} (ht : t ∈ taskTables) :
    Belongs (insertRow t r rows) orgId u s ↔ Belongs rows orgId u s := by
  refine exists_congr (fun l => and_congr_right (fun hl => ?_))
  have hreads := task_not_read u l hl t ht
  cases l with
  | direct => exact Iff.rfl
  | through c p k =>
      have hp : p ≠ t := fun heq => hreads (congrArg some heq)
      simp only [Scope.selects, insertRow, Function.update_of_ne hp]

theorem noRows_insert (ht : t ∈ taskTables) (h : NoRows w orgId) :
    NoRows (w.apply cfg (.insert t r)) orgId ↔ (r .orgId = some orgId → isReceipt t r = true) := by
  have hbelongs : Belongs (insertRow t r w.rows) orgId t r ↔ r .orgId = some orgId := by
    rw [belongs_insertRow ht]
    have hdirect := task_owned t ht
    exact ⟨org_of_belongs hdirect, belongs_direct (hdirect ▸ List.mem_singleton_self _)⟩
  constructor
  · rintro ⟨hrows, _⟩ horg
    exact hrows t r (mem_insertRow.mpr (Or.inr ⟨rfl, rfl⟩)) (hbelongs.mpr horg)
  · refine fun hr => ⟨fun u s hs hown => ?_, h.2⟩
    rcases mem_insertRow.mp hs with hs | ⟨rfl, rfl⟩
    · exact h.1 u s hs ((belongs_insertRow ht).mp hown)
    · exact hr (hbelongs.mp hown)

theorem noRows_receipt (h : NoRows w orgId) : NoRows (w.apply cfg (.receipt other)) orgId :=
  (@noRows_insert cfg w orgId .auditLog (receiptRow other) (by decide) h).mpr
    (fun _ => by simp [isReceipt, receiptRow])

theorem noRows_purge {counts : List (Table × Nat)} {left : Rows}
    (hpurge : purgeOrgPostgres other w.rows = .ok (counts, left)) (h : NoRows w orgId) :
    NoRows (w.apply cfg (.purge other left)) orgId := by
  refine ⟨fun t r hr hbelongs => ?_, h.2⟩
  obtain ⟨r₀, hr₀, hweak, _⟩ := purgeAll_weakens hpurge hr
  have hreceipt := h.1 t r₀ hr₀ (belongs_of_left hpurge hweak hbelongs)
  rwa [isReceipt, ← hweak.column (fun fk hfk hnull _ => event_type_kept fk hfk hnull)] at hreceipt

variable (cfg) in
theorem noRows_purged {counts : List (Table × Nat)} {left : Rows}
    (hpurge : purgeOrgPostgres orgId w.rows = .ok (counts, left)) :
    NoRows (w.apply cfg (.purge orgId left)) orgId ↔ ∀ u ∈ w.userCriteria, u.2 ≠ orgId :=
  ⟨fun h => h.2, fun h => ⟨fun _ _ hr hbelongs =>
    absurd hbelongs (not_belongs_of_left hpurge hr), h⟩⟩

end Rows

section Files

theorem mem_deleteDropFolder {root : Path} {f : Path} {stuck files : List Path} :
    f ∈ deleteDropFolder root rfpId stuck files ↔
      f ∈ files ∧ (isInside root rfpId = true → under root rfpId f = true → f ∈ stuck) := by
  unfold deleteDropFolder
  split
  · rename_i hinside
    rw [List.mem_filter]
    refine and_congr_right (fun _ => ?_)
    cases under root rfpId f <;> simp [hinside]
  · rename_i hinside
    simp [hinside]

end Files

section Steps

/-- An old erasure stays done, unless the step is one that is not admitted. -/
theorem done_apply {actor next : Option Actor} {effect : Effect}
    (hstep : ActorStep cfg svc w actor effect next) (h : Done cfg w e) :
    Done cfg (w.apply cfg effect) e ↔ match effect with
      | .upsert p => e.orgId = p.orgId → e.phase.filtered = false
      | .insert _ r => r .orgId = some e.orgId → e.phase.purged = false
      | _ => True := by
  obtain ⟨hv, hr, hf⟩ := h
  cases hstep with
  | ingested =>
      exact iff_of_true ⟨fun hp p hvec => hv hp p (vector_create.mp hvec), hr, hf⟩ trivial
  | @stored orgId p ps =>
      constructor
      · rintro ⟨hv', _, _⟩ heq
        rw [Bool.eq_false_iff]
        intro hp
        exact hv' hp p (heq ▸ vector_upsert_self)
      · refine fun hne => ⟨fun hp q hvec => ?_, hr, hf⟩
        rcases vector_upsert hvec with hold | heq
        · exact hv hp q hold
        · rw [hne heq.symm] at hp
          cases hp
  | @inserted task t r ht horg hreceipt hkeys =>
      constructor
      · rintro ⟨_, hr', _⟩ heq
        rw [Bool.eq_false_iff]
        intro hp
        have hrec := (noRows_insert ht (hr hp)).mp (hr' hp) heq
        rw [hreceipt] at hrec
        cases hrec
      · refine fun hne => ⟨hv, fun hp => (noRows_insert ht (hr hp)).mpr fun heq => ?_, hf⟩
        rw [hne heq] at hp
        cases hp
  | filtered =>
      exact iff_of_true ⟨fun hp p hvec => hv hp p (vector_filter.mp hvec).1, hr, hf⟩ trivial
  | dropped => exact iff_of_true ⟨fun hp p hvec => hv hp p (vector_drop hvec), hr, hf⟩ trivial
  | purged _ hpurge =>
      exact iff_of_true ⟨hv, fun hp => noRows_purge hpurge (hr hp), hf⟩ trivial
  | removed =>
      exact iff_of_true ⟨hv, hr, fun id hid f hfile => hf id hid f (mem_deleteDropFolder.mp hfile).1⟩
        trivial
  | persisted => exact iff_of_true ⟨hv, fun hp => noRows_receipt (hr hp), hf⟩ trivial
  | launched | requested | read | absent | counted | emptied | unpersisted | finished | raised =>
      exact iff_of_true ⟨hv, hr, hf⟩ trivial

/-- The erasure that takes the step has gone over what it says, or the step is not admitted. -/
theorem done_next {actor : Option Actor} {effect : Effect} {e' : Erasure}
    (hstep : ActorStep cfg svc w actor effect (some (.erasure e')))
    (h : ∀ e, actor = some (.erasure e) → Done cfg w e) :
    Done cfg (w.apply cfg effect) e' ↔ match effect with
      | .purge orgId _ => ∀ u ∈ w.userCriteria, u.2 ≠ orgId
      | .remove rfpId stuck => ∀ f ∈ w.files, under cfg.dropsRoot rfpId f = true →
          isInside cfg.dropsRoot rfpId = true ∧ f ∉ stuck
      | _ => True := by
  cases hstep with
  | requested =>
      exact iff_of_true ⟨fun hp => (nomatch hp), fun hp => (nomatch hp), fun _ hid => (nomatch hid)⟩
        trivial
  | read => exact iff_of_true ⟨fun hp => (nomatch hp), fun hp => (nomatch hp), (h _ rfl).files⟩ trivial
  | counted =>
      exact iff_of_true ⟨fun hp => (nomatch hp), fun hp => (nomatch hp), (h _ rfl).files⟩ trivial
  | absent _ hcollection =>
      exact iff_of_true ⟨fun _ _ => not_vector_of_absent hcollection, fun hp => (nomatch hp),
        (h _ rfl).files⟩ trivial
  | filtered =>
      exact iff_of_true ⟨fun _ _ hvec => (vector_filter.mp hvec).2 rfl, fun hp => (nomatch hp),
        (h _ rfl).files⟩ trivial
  | @emptied e hphase =>
      have hvectors := (h e rfl).vectors (by rw [hphase]; rfl)
      refine iff_of_true ⟨fun _ => hvectors, fun hp => ?_, (h e rfl).files⟩ trivial
      change (if _ then Phase.dropping else .purging).purged = true at hp
      split at hp <;> cases hp
  | @dropped e hphase =>
      have hvectors := (h e rfl).vectors (by rw [hphase]; rfl)
      exact iff_of_true ⟨fun _ p hvec => hvectors p (vector_drop hvec), fun hp => (nomatch hp),
        (h e rfl).files⟩ trivial
  | @purged e counts left hphase hpurge =>
      have hvectors := (h e rfl).vectors (by rw [hphase]; rfl)
      exact ⟨fun hdone => (noRows_purged cfg hpurge).mp (hdone.rows rfl),
        fun hcriteria => ⟨fun _ => hvectors, fun _ => (noRows_purged cfg hpurge).mpr hcriteria,
          (h e rfl).files⟩⟩
  | @removed e rfpId rest stuck hphase hpending =>
      have hold := h e rfl
      have hfiles : ∀ id ∈ e.cleared, ∀ f ∈ deleteDropFolder cfg.dropsRoot rfpId stuck w.files,
          under cfg.dropsRoot id f = false := fun id hid f hf =>
        hold.files id hid f (mem_deleteDropFolder.mp hf).1
      constructor
      · intro hdone f hf hunder
        by_contra hleft
        have hkept : f ∈ deleteDropFolder cfg.dropsRoot rfpId stuck w.files := by
          refine mem_deleteDropFolder.mpr ⟨hf, fun hinside _ => ?_⟩
          by_contra hstuck
          exact hleft ⟨hinside, hstuck⟩
        have hclear := hdone.files rfpId (by simp) f hkept
        rw [hunder] at hclear
        cases hclear
      · refine fun hclear => ⟨fun _ => hold.vectors (by rw [hphase]; rfl),
          fun _ => hold.rows (by rw [hphase]; rfl), fun id hid f hf => ?_⟩
        rcases List.mem_append.mp hid with hid | hid
        · exact hfiles id hid f hf
        · obtain rfl := List.mem_singleton.mp hid
          obtain ⟨hf, hstuck⟩ := mem_deleteDropFolder.mp hf
          rw [Bool.eq_false_iff]
          intro hunder
          obtain ⟨hinside, hnot⟩ := hclear f hf hunder
          exact hnot (hstuck hinside hunder)
  | @persisted e hphase =>
      have hold := h e rfl
      exact iff_of_true ⟨fun _ => hold.vectors (by rw [hphase]; rfl),
        fun _ => noRows_receipt (hold.rows (by rw [hphase]; rfl)), hold.files⟩ trivial
  | @unpersisted e hphase =>
      have hold := h e rfl
      exact iff_of_true ⟨fun _ => hold.vectors (by rw [hphase]; rfl),
        fun _ => hold.rows (by rw [hphase]; rfl), hold.files⟩ trivial

/-- One step: it leads from a complete state to a complete one exactly if it is admitted. -/
theorem step_complete_iff {l : Label} (h : Complete cfg w) (hstep : Step cfg svc w l w') :
    Complete cfg w' ↔ Admits cfg w l := by
  cases hstep with
  | @mk before after actor next effect hactors hactor =>
      have hactor₀ : ∀ e, actor = some (.erasure e) → Done cfg w e := by
        rintro e rfl
        exact h e (by rw [hactors]; simp)
      have hother : ∀ e, .erasure e ∈ before ++ after → Done cfg w e := by
        intro e he
        refine h e ?_
        rw [hactors]
        simp only [List.mem_append] at he ⊢
        tauto
      have hcomplete : Complete cfg
          { w.apply cfg effect with actors := before ++ next.toList ++ after } ↔
          (∀ e, .erasure e ∈ before ++ after → Done cfg (w.apply cfg effect) e) ∧
            ∀ e, next = some (.erasure e) → Done cfg (w.apply cfg effect) e := by
        have hdone : ∀ e, Done cfg
            { w.apply cfg effect with actors := before ++ next.toList ++ after } e ↔
            Done cfg (w.apply cfg effect) e := fun e => Done.congr rfl rfl rfl rfl
        constructor
        · intro hw
          refine ⟨fun e he => (hdone e).mp (hw e ?_), fun e he => (hdone e).mp (hw e ?_)⟩
          · change _ ∈ before ++ next.toList ++ after
            simp only [List.mem_append] at he ⊢
            tauto
          · subst he
            change _ ∈ before ++ [.erasure e] ++ after
            simp
        · rintro ⟨hold, hnew⟩ e he
          change _ ∈ before ++ next.toList ++ after at he
          refine (hdone e).mpr ?_
          simp only [List.mem_append, Option.mem_toList] at he
          rcases he with (he | he) | he
          · exact hold e (List.mem_append_left _ he)
          · exact hnew e he
          · exact hold e (List.mem_append_right _ he)
      rw [hcomplete, forall₂_congr (fun e he => done_apply hactor (hother e he)),
        forall₂_congr (fun e he => done_next (he ▸ hactor) hactor₀)]
      cases hactor with
      | stored | inserted =>
          simp only [Admits, hactors, List.mem_append, Option.toList_some, List.mem_singleton,
            Option.some.injEq, reduceCtorEq, or_false, implies_true, and_true]
      | purged | removed => simp [Admits]
      | _ => simp [Admits]

theorem complete_start (start : Start) : Complete cfg start.world := by
  intro e he
  obtain ⟨_, _, heq⟩ := List.mem_map.mp he
  cases heq

/-- The runs whose steps are all admitted are those in which every erasure, once it has gone over
a store, has emptied it for good. -/
theorem guarded_iff_complete {start : Start} {ls : List Label} :
    Run (Guarded (Admits cfg) (Step cfg svc)) start.world ls w ↔
      Run (Into (Complete cfg) (Step cfg svc)) start.world ls w :=
  guarded_iff_into (fun _ _ _ h hstep => step_complete_iff h hstep) (complete_start start)

/-- An erasure has gone over the folders that are not pending, and none are when it returns. -/
def Accounted (w : World) : Prop :=
  ∀ e, .erasure e ∈ w.actors → (e.phase = .reading → e.cleared = []) ∧
    e.rfpIds = e.cleared ++ e.pending ∧ (e.phase = .returned → e.pending = [])

end Steps

end Completeness

section Runs

def settings : ErasureSettings := ⟨["drops"], true, true⟩

def runOf (status : String) : Row Column String
  | .orgId => some "o"
  | .runId => some "run"
  | .other name => if name = "status" then some status else none
  | _ => none

def leavingRows : Rows
  | .organisations => [organisation "o"]
  | .evaluationRuns => [runOf "cancelled"]
  | _ => []

def leaving : Db where
  rows := leavingRows
  references := by decide
  not_null := by
    intro t
    cases t <;> decide
  keys_unique := by decide

/-- An organisation with a cancelled run, whose pipeline is still executing. -/
def cancelled : Start := ⟨leaving, [], ∅, [], [⟨"o", []⟩]⟩

def world (rows : Rows) (e : Erasure) : World :=
  ⟨rows, [], ∅, [], [.task ⟨"o", []⟩, .erasure e]⟩

end Runs

end RfpPlatform.ErasureCompleteness
