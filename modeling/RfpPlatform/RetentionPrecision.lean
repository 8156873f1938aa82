import RfpPlatform.Quarantine

namespace RfpPlatform.RetentionPrecision

open Ingestion Quarantine TransitionRuns VectorStore

section Calls

/-- The calls of the vector service that change what is stored. -/
inductive Write
  | create (orgId : String)
  | upsert (p : Point)
  | filter (orgId setupId : String)
  | drop (orgId : String)

/-- A call in progress: an ingestion with the points it has still to store, and a deletion
before its filter, before its count, and before it drops the collection. -/
inductive Call
  | storing (ps : List Point)
  | deleting (orgId setupId : String)
  | counting (orgId : String)
  | dropping (orgId : String)

/-- `ingested` and `purged` record the points that were ever stored and the deletion whose filter
was the last step. -/
structure World where
  store : Store
  calls : List Call
  expired : List (String × String)
  ingested : List Point
  purged : Option (String × String)

def World.empty : World := ⟨∅, [], [], [], none⟩

def World.write (w : World) : Option Write → World
  | none => { w with purged := none }
  | some (.create orgId) =>
      { w with store := createCollection (orgCollectionName orgId) w.store, purged := none }
  | some (.upsert p) =>
      { w with
        store := upsertChunk (orgCollectionName p.orgId) p w.store
        ingested := w.ingested ++ [p]
        purged := none }
  | some (.filter orgId setupId) =>
      { w with
        store := deleteByFilter false (orgCollectionName orgId)
          [⟨.orgId, orgId⟩, ⟨.setupId, setupId⟩] w.store
        purged := some (orgId, setupId) }
  | some (.drop orgId) =>
      { w with
        store := w.store.deleteWhere (fun e => e.1 = orgCollectionName orgId)
        purged := none }

def afterPoint (ps : List Point) : Option Call := if ps = [] then none else some (.storing ps)

def World.has (w : World) (orgId : String) : Prop :=
  (w.store.get? (orgCollectionName orgId)).isSome = true

variable (svc : DocumentServices)

/-- One call of the vector service a step. What raises ends its call. -/
inductive CallStep (w : World) : Option Call → Option Write → Option Call → Prop
  | started {call : IngestionCall} {file : SourceFile} {draw : FileDraw} {chunks : List Chunk}
      (hchunks : chunksOf svc call file = .ok chunks) (hne : chunks ≠ []) :
      CallStep w none (some (.create call.orgId))
        (some (.storing (chunks.map (pointOf call draw.docId file.filename))))
  | stored {p : Point} {ps : List Point} (hcollection : w.has p.orgId) :
      CallStep w (some (.storing (p :: ps))) (some (.upsert p)) (afterPoint ps)
  | listed {orgId setupId : String} (hexpired : (orgId, setupId) ∈ w.expired)
      (hcollection : w.has orgId) : CallStep w none none (some (.deleting orgId setupId))
  | filtered {orgId setupId : String} (hcollection : w.has orgId) :
      CallStep w (some (.deleting orgId setupId)) (some (.filter orgId setupId))
        (some (.counting orgId))
  | emptied {orgId : String} (hcollection : w.has orgId)
      (hempty : points w.store (orgCollectionName orgId) = ∅) :
      CallStep w (some (.counting orgId)) none (some (.dropping orgId))
  | dropped (orgId : String) : CallStep w (some (.dropping orgId)) (some (.drop orgId)) none
  -- an exception, a crash, or a count that leaves the collection
  | ended (call : Call) : CallStep w (some call) none none

inductive Label
  | expire (orgId setupId : String)
  | call (before : Option Call) (write : Option Write) (after : Option Call)

inductive Step : World → Label → World → Prop
  | expire (w : World) (orgId setupId : String) :
      Step w (.expire orgId setupId)
        { w with expired := (orgId, setupId) :: w.expired, purged := none }
  | call {w : World} {before after : List Call} {call next : Option Call} {write : Option Write}
      (hcalls : w.calls = before ++ call.toList ++ after)
      (hstep : CallStep svc w call write next) :
      Step w (.call call write next) { w.write write with calls := before ++ next.toList ++ after }

end Calls

section Precision

/-- The chunk was ingested under the setup. -/
def Under (w : World) (orgId setupId : String) (chunkId : ChunkId) : Prop :=
  ∃ p ∈ w.ingested, p.orgId = orgId ∧ p.setupId = setupId ∧ p.chunkId = chunkId

/-- The chunk was ingested into the collection under a setup that has not expired. -/
def UnderLive (w : World) (name : String) (chunkId : ChunkId) : Prop :=
  ∃ p ∈ w.ingested, orgCollectionName p.orgId = name ∧ p.chunkId = chunkId ∧
    (p.orgId, p.setupId) ∉ w.expired

def Stored (w : World) (name : String) (chunkId : ChunkId) : Prop :=
  ∃ q ∈ points w.store name, q.chunkId = chunkId

/-- What is left after a deletion was not ingested under its setup, or was under a live one. -/
def Removed (w : World) (orgId setupId : String) : Prop :=
  ∀ q ∈ points w.store (orgCollectionName orgId), Under w orgId setupId q.chunkId →
    UnderLive w (orgCollectionName orgId) q.chunkId

/-- Every chunk of a live setup is there, and the last deletion removed what it had to. -/
structure Precise (w : World) : Prop where
  retained : ∀ name chunkId, UnderLive w name chunkId → Stored w name chunkId
  removed : ∀ orgId setupId, w.purged = some (orgId, setupId) → Removed w orgId setupId

def Stamped (orgId setupId : String) (p : Point) : Prop := p.orgId = orgId ∧ p.setupId = setupId

/-- A deletion's filter finds the chunks of its setup stamped with it exactly when no live setup
has them, and a collection is dropped while it has no chunk of a live setup. -/
def Admits (w : World) : Label → Prop
  | .call _ (some (.filter orgId setupId)) _ =>
      ∀ q ∈ points w.store (orgCollectionName orgId),
        (Stamped orgId setupId q → ¬ UnderLive w (orgCollectionName orgId) q.chunkId) ∧
          (¬ Stamped orgId setupId q → Under w orgId setupId q.chunkId →
            UnderLive w (orgCollectionName orgId) q.chunkId)
  | .call _ (some (.drop orgId)) _ =>
      ∀ q ∈ points w.store (orgCollectionName orgId),
        ¬ UnderLive w (orgCollectionName orgId) q.chunkId
  | _ => True

variable {svc : DocumentServices} {w w' : World} {l : Label} {ls : List Label}
  {name orgId setupId : String} {chunkId : ChunkId}

theorem matches_stamp {p : Point} :
    matchesAll [⟨.orgId, orgId⟩, ⟨.setupId, setupId⟩] p = true ↔ Stamped orgId setupId p := by
  simp [matchesAll_iff, Point.field, Stamped]

theorem mem_filtered {q : Point} :
    q ∈ points (w.write (some (.filter orgId setupId))).store name ↔
      q ∈ points w.store name ∧ (name = orgCollectionName orgId → ¬ Stamped orgId setupId q) := by
  change q ∈ points (deleteByFilter false _ _ w.store) name ↔ _
  rw [points_deleteByFilter]
  split
  · rename_i hname
    subst hname
    rw [KeyedTable.mem_deleteWhere, ← matches_stamp, Bool.not_eq_true]
    simp
  · rename_i hname
    simp [hname]

theorem filter_precise_iff (h : Precise w) :
    Precise (w.write (some (.filter orgId setupId))) ↔
      Admits w (.call none (some (.filter orgId setupId)) none) := by
  constructor
  · rintro ⟨hretained, hremoved⟩ q hq
    refine ⟨fun hstamped hlive => ?_, fun hstamped hunder => ?_⟩
    · obtain ⟨r, hr, hid⟩ := hretained _ _ hlive
      obtain ⟨hr, hkept⟩ := mem_filtered.mp hr
      rw [KeyedTable.eq_of_key_eq hr hq hid] at hkept
      exact hkept rfl hstamped
    · exact hremoved orgId setupId rfl q (mem_filtered.mpr ⟨hq, fun _ => hstamped⟩) hunder
  · intro hadmits
    refine ⟨fun name chunkId hlive => ?_, ?_⟩
    · obtain ⟨q, hq, rfl⟩ := h.retained name chunkId hlive
      refine ⟨q, mem_filtered.mpr ⟨hq, ?_⟩, rfl⟩
      rintro rfl hstamped
      exact (hadmits q hq).1 hstamped hlive
    · rintro _ _ heq q hq hunder
      cases heq
      obtain ⟨hq, hkept⟩ := mem_filtered.mp hq
      exact (hadmits q hq).2 (hkept rfl) hunder

theorem points_dropped : points (w.write (some (.drop orgId))).store name =
    if name = orgCollectionName orgId then ∅ else points w.store name :=
  points_drop name

theorem drop_precise_iff (h : Precise w) : Precise (w.write (some (.drop orgId))) ↔
    Admits w (.call none (some (.drop orgId)) none) := by
  constructor
  · rintro ⟨hretained, _⟩ q hq hlive
    obtain ⟨r, hr, _⟩ := hretained _ _ hlive
    rw [points_dropped, if_pos rfl] at hr
    exact KeyedTable.not_mem_empty r hr
  · intro hadmits
    refine ⟨fun name chunkId hlive => ?_, fun _ _ heq => nomatch heq⟩
    obtain ⟨q, hq, rfl⟩ := h.retained name chunkId hlive
    refine ⟨q, ?_, rfl⟩
    rw [points_dropped, if_neg]
    · exact hq
    · rintro rfl
      exact hadmits q hq hlive

theorem create_precise (h : Precise w) : Precise (w.write (some (.create orgId))) := by
  refine ⟨fun name chunkId hlive => ?_, fun _ _ heq => nomatch heq⟩
  obtain ⟨q, hq, hid⟩ := h.retained name chunkId hlive
  refine ⟨q, ?_, hid⟩
  change q ∈ points (createCollection _ w.store) name
  rwa [points_createCollection]

theorem stored_upsert {p : Point} (h : Stored w name chunkId) :
    Stored (w.write (some (.upsert p))) name chunkId := by
  obtain ⟨q, hq, rfl⟩ := h
  by_cases hsame : name = orgCollectionName p.orgId ∧ q.chunkId = p.chunkId
  · refine ⟨p, ?_, hsame.2.symm⟩
    change p ∈ points (upsertChunk _ p w.store) name
    rw [points_upsertChunk, if_pos hsame.1]
    exact KeyedTable.mem_upsert.mpr (Or.inl rfl)
  · refine ⟨q, ?_, rfl⟩
    change q ∈ points (upsertChunk _ p w.store) name
    rw [points_upsertChunk]
    split
    · rename_i hname
      subst hname
      exact KeyedTable.mem_upsert.mpr (Or.inr ⟨hq, fun hid => hsame ⟨rfl, hid⟩⟩)
    · exact hq

theorem upsert_precise {p : Point} (h : Precise w) : Precise (w.write (some (.upsert p))) := by
  refine ⟨?_, fun _ _ heq => nomatch heq⟩
  rintro name chunkId ⟨q, hq, hname, hid, hlive⟩
  rcases List.mem_append.mp hq with hq | hq
  · exact stored_upsert (h.retained name chunkId ⟨q, hq, hname, hid, hlive⟩)
  · obtain rfl := List.mem_singleton.mp hq
    refine ⟨q, ?_, hid⟩
    change q ∈ points (upsertChunk _ q w.store) name
    rw [points_upsertChunk, if_pos hname.symm]
    exact KeyedTable.mem_upsert.mpr (Or.inl rfl)

theorem expire_precise (h : Precise w) :
    Precise { w with expired := (orgId, setupId) :: w.expired, purged := none } := by
  refine ⟨?_, fun _ _ heq => nomatch heq⟩
  rintro name chunkId ⟨p, hp, hname, hid, hlive⟩
  exact h.retained name chunkId
    ⟨p, hp, hname, hid, fun hexpired => hlive (List.mem_cons_of_mem _ hexpired)⟩

/-- One step: it leads from a precise state to a precise one exactly if it is admitted. -/
theorem step_precise_iff (h : Precise w) (hstep : Step svc w l w') : Precise w' ↔ Admits w l := by
  cases hstep with
  | expire => exact iff_of_true (expire_precise h) trivial
  | @call before after call next write hcalls hstep =>
      have hcall : Precise { w.write write with calls := before ++ next.toList ++ after } ↔
          Precise (w.write write) := ⟨fun hw => ⟨hw.1, hw.2⟩, fun hw => ⟨hw.1, hw.2⟩⟩
      rw [hcall]
      cases write with
      | none => exact iff_of_true ⟨h.retained, fun _ _ heq => nomatch heq⟩ trivial
      | some write =>
          cases write with
          | create orgId => exact iff_of_true (create_precise h) trivial
          | upsert p => exact iff_of_true (upsert_precise h) trivial
          | filter orgId setupId => exact filter_precise_iff h
          | drop orgId => exact drop_precise_iff h

theorem precise_empty : Precise World.empty :=
  ⟨fun _ _ ⟨_, hp, _⟩ => (nomatch hp), fun _ _ heq => nomatch heq⟩

/-- The runs in which every deletion is precise are those in which every filter finds the right
stamps and every drop an empty collection. -/
theorem retention_precise_iff :
    Run (Guarded Admits (Step svc)) World.empty ls w ↔
      Run (Into Precise (Step svc)) World.empty ls w :=
  guarded_iff_into (fun _ _ _ h hstep => step_precise_iff h hstep) precise_empty

end Precision

section Sequential

variable {svc : DocumentServices} {w : World} {orgId setupId : String}

variable (svc w) in
theorem Step.first (call : Option Call) {next : Option Call} {write : Option Write}
    {calls : List Call} (hcalls : w.calls = call.toList ++ calls)
    (hstep : CallStep svc w call write next) :
    Step svc w (.call call write next) { w.write write with calls := next.toList ++ calls } :=
  @Step.call svc w [] calls call next write hcalls hstep

/-- A deletion that nothing comes between stores what `delete_setup_data` stores. -/
theorem deleteSetupData_run (hexpired : (orgId, setupId) ∈ w.expired) :
    ∃ ls w', Run (Step svc) w ls w' ∧ w'.store = deleteSetupData orgId setupId w.store := by
  cases hget : w.store.get? (orgCollectionName orgId) with
  | none => exact ⟨[], w, .nil w, by rw [deleteSetupData, deleteByFilter, hget]⟩
  | some c =>
      have hhas : w.has orgId := by rw [World.has, hget, Option.isSome_some]
      have hlisted := Step.first svc w none rfl (.listed hexpired hhas)
      have hfiltered := Step.first svc
        { w.write none with calls := .deleting orgId setupId :: w.calls }
        (some (.deleting orgId setupId)) rfl (.filtered hhas)
      have hstore : (w.write (some (.filter orgId setupId))).store =
          w.store.set (orgCollectionName orgId)
            (c.deleteWhere (matchesAll [⟨.orgId, orgId⟩, ⟨.setupId, setupId⟩])) := by
        simp only [World.write, deleteByFilter, hget, Bool.false_and, Bool.false_eq_true, if_false]
      by_cases hempty : (c.deleteWhere (matchesAll
          [⟨.orgId, orgId⟩, ⟨.setupId, setupId⟩])).rows.isEmpty = true
      · have hhas' : { w.write (some (.filter orgId setupId)) with
            calls := .counting orgId :: w.calls }.has orgId := by
          simp only [World.has, hstore, Dict.get?_set_self, Option.isSome_some]
        have hpoints : points (w.write (some (.filter orgId setupId))).store
            (orgCollectionName orgId) = ∅ := by
          rw [hstore, points_set, if_pos rfl, KeyedTable.deleteWhere_empty c _ hempty]
        have hemptied := Step.first svc
          { w.write (some (.filter orgId setupId)) with calls := .counting orgId :: w.calls }
          (some (.counting orgId)) rfl (.emptied hhas' hpoints)
        have hdropped := Step.first svc
          { w.write (some (.filter orgId setupId)) with
            calls := .dropping orgId :: w.calls, purged := none }
          (some (.dropping orgId)) rfl (.dropped orgId)
        refine ⟨_, _, .cons hlisted (.cons hfiltered (.cons hemptied (.single hdropped))), ?_⟩
        change (w.write (some (.filter orgId setupId))).store.deleteWhere _ = _
        rw [hstore]
        simp only [deleteSetupData, deleteByFilter, hget, hempty, Bool.and_self, if_pos]
        exact KeyedTable.deleteWhere_upsert (fun s hs => by simpa using hs)
      · have hended := Step.first svc
          { w.write (some (.filter orgId setupId)) with calls := .counting orgId :: w.calls }
          (some (.counting orgId)) rfl (.ended _)
        refine ⟨_, _, .cons hlisted (.cons hfiltered (.single hended)), hstore.trans ?_⟩
        simp only [deleteSetupData, deleteByFilter, hget, hempty, Bool.true_and, if_false,
          Bool.false_eq_true]

end Sequential

section Restamping

variable {svc : DocumentServices} {live old : IngestionCall} {file : SourceFile}
  {draw : FileDraw} {c d : Chunk} {cs ds : List Chunk}

theorem has_create (w : World) (orgId : String) : (w.write (some (.create orgId))).has orgId := by
  change (Dict.get? (createCollection _ w.store) _).isSome = true
  unfold createCollection
  split
  · rename_i h
    exact h
  · rw [Dict.get?_set_self, Option.isSome_some]

theorem has_upsert (w : World) (p : Point) : (w.write (some (.upsert p))).has p.orgId := by
  change (Dict.get? (upsertChunk _ p w.store) _).isSome = true
  rw [upsertChunk, Dict.get?_set_self, Option.isSome_some]

/-- The first chunk of a file is stored, whatever becomes of the rest. -/
theorem first_chunk_run (w : World) (hchunks : chunksOf svc live file = .ok (c :: cs))
    (docId : String) : ∃ ls w', Run (Step svc) w ls w' ∧
      w'.store = upsertChunk (orgCollectionName live.orgId) (pointOf live docId file.filename c)
        (createCollection (orgCollectionName live.orgId) w.store) ∧
      w'.ingested = w.ingested ++ [pointOf live docId file.filename c] ∧
      w'.expired = w.expired ∧ w'.has live.orgId := by
  have hstarted := Step.first svc w none rfl
    (@CallStep.started svc w live file ⟨docId, fun _ => none⟩ _ hchunks (List.cons_ne_nil c cs))
  have hstored := Step.first svc
    { w.write (some (.create live.orgId)) with
      calls := .storing ((c :: cs).map (pointOf live docId file.filename)) :: w.calls }
    (some (.storing (pointOf live docId file.filename c ::
      cs.map (pointOf live docId file.filename)))) rfl (.stored (has_create w live.orgId))
  exact ⟨_, _, .cons hstarted (.single hstored), rfl, rfl, rfl, has_upsert _ _⟩

/-- A chunk of a live setup that is ingested again under another one goes with that one. -/
theorem restamped_chunk_lost (hlive : chunksOf svc live file = .ok (c :: cs))
    (hold : chunksOf svc old file = .ok (d :: ds)) (hid : c.chunkId = d.chunkId)
    (horg : live.orgId = old.orgId) (hsetup : live.setup.setupId ≠ old.setup.setupId) :
    ∃ ls w, Run (Step svc) World.empty ls w ∧ w.expired = [(old.orgId, old.setup.setupId)] ∧
      UnderLive w (orgCollectionName old.orgId) c.chunkId ∧
      ¬ Stored w (orgCollectionName old.orgId) c.chunkId := by
  obtain ⟨ls₁, w₁, hrun₁, hstore₁, hingested₁, hexpired₁, _⟩ :=
    first_chunk_run World.empty hlive "d1"
  obtain ⟨ls₂, w₂, hrun₂, hstore₂, hingested₂, hexpired₂, hhas⟩ := first_chunk_run w₁ hold "d2"
  have hexpire := @Step.expire svc w₂ old.orgId old.setup.setupId
  have hlisted := Step.first svc
    { w₂ with expired := (old.orgId, old.setup.setupId) :: w₂.expired, purged := none }
    none rfl (.listed List.mem_cons_self hhas)
  have hfiltered := Step.first svc
    { w₂ with
      expired := (old.orgId, old.setup.setupId) :: w₂.expired
      calls := .deleting old.orgId old.setup.setupId :: w₂.calls
      purged := none }
    (some (.deleting old.orgId old.setup.setupId)) rfl (.filtered hhas)
  have hexpired : (old.orgId, old.setup.setupId) :: w₂.expired =
      [(old.orgId, old.setup.setupId)] := by
    rw [hexpired₂, hexpired₁]
    rfl
  refine ⟨_, _, (hrun₁.append hrun₂).append
    (.cons hexpire (.cons hlisted (.single hfiltered))), hexpired,
    ⟨pointOf live "d1" file.filename c, ?_, congrArg orgCollectionName horg, rfl, ?_⟩, ?_⟩
  · change _ ∈ w₂.ingested
    rw [hingested₂, hingested₁]
    simp
  · change (live.orgId, live.setup.setupId) ∉ (old.orgId, old.setup.setupId) :: w₂.expired
    rw [hexpired, List.mem_singleton]
    exact fun h => hsetup (congrArg Prod.snd h)
  · rintro ⟨r, hr, hrid⟩
    obtain ⟨hr, hkept⟩ := (mem_filtered (w := w₂)).mp hr
    rw [hstore₂, points_upsertChunk, if_pos rfl] at hr
    rcases KeyedTable.mem_upsert.mp hr with rfl | ⟨_, hother⟩
    · exact hkept rfl ⟨rfl, rfl⟩
    · exact hother (hrid.trans hid)

def setupCall (setupId : String) : IngestionCall :=
  { acmeCall with setup := RunRequests.defaultSetup setupId "o" "rfp" }

def firstId (chunks : Except Exn (List Chunk)) : Option ChunkId :=
  (chunks.toOption.bind List.head?).map Chunk.chunkId

theorem exists_first {chunks : Except Exn (List Chunk)} {chunkId : ChunkId}
    (h : firstId chunks = some chunkId) : ∃ c cs, chunks = .ok (c :: cs) ∧ c.chunkId = chunkId := by
  obtain ⟨c, hhead, hid⟩ := Option.map_eq_some_iff.mp h
  obtain ⟨cs, hok, hcs⟩ := Option.bind_eq_some_iff.mp hhead
  obtain ⟨rest, rfl⟩ := List.head?_eq_some_iff.mp hcs
  exact ⟨c, rest, ExceptRules.toOption_eq_some.mp hok, hid⟩

/-- The vendor's text is ingested under one setup and then under a second one, which expires. -/
theorem live_chunk_deleted : ∃ ls w, Run (Step clean) World.empty ls w ∧
    w.expired = [("o", "setup-2")] ∧ ∃ chunkId, UnderLive w (orgCollectionName "o") chunkId ∧
      ¬ Stored w (orgCollectionName "o") chunkId := by
  obtain ⟨hsome, hsame⟩ : (firstId (chunksOf clean (setupCall "setup-1") acmeFile)).isSome = true ∧
      firstId (chunksOf clean (setupCall "setup-1") acmeFile) =
        firstId (chunksOf clean (setupCall "setup-2") acmeFile) := by decide +kernel
  obtain ⟨chunkId, hfirst⟩ := Option.isSome_iff_exists.mp hsome
  obtain ⟨c, _, hlive, hc⟩ := exists_first hfirst
  obtain ⟨d, _, hold, hd⟩ := exists_first (hsame ▸ hfirst)
  obtain ⟨ls, w, hrun, hexpired, hlost⟩ :=
    restamped_chunk_lost hlive hold (hc.trans hd.symm) rfl (by decide)
  exact ⟨ls, w, hrun, hexpired, _, hlost⟩

end Restamping

end RfpPlatform.RetentionPrecision
