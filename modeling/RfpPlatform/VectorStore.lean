import RfpPlatform.ExceptRules
import RfpPlatform.KeyedTable
import RfpPlatform.PyValue
import RfpPlatform.Schemas

namespace RfpPlatform.VectorStore

open ExceptRules

/-- A stored vector with the part of its payload that filters and answers are made from. -/
structure Point where
  chunkId : ChunkId
  denseVector : Option (List PyFloat)
  sparseIndices : List Nat
  sparseValues : List PyFloat
  text : String
  sectionType : String
  filename : String
  vendorId : VendorId
  orgId : String
  rfpId : String
  docId : String
  setupId : String

abbrev Collection := KeyedTable Point.chunkId

abbrev Store := Dict String Collection

def collectionPrefix : String := "platform"

def orgCollectionName (orgId : String) : String :=
  String.ofList ((s!"{collectionPrefix}_{orgId}".toList.map (fun c => if c = '-' then '_' else c)).map
    Char.toLower)

inductive PayloadKey
  | orgId | vendorId | sectionType | setupId
  deriving DecidableEq

structure FieldCondition where
  key : PayloadKey
  value : String

def Point.field (p : Point) : PayloadKey → String
  | .orgId => p.orgId
  | .vendorId => p.vendorId
  | .sectionType => p.sectionType
  | .setupId => p.setupId

/-- `Filter(must=...)` -/
def matchesAll (must : List FieldCondition) (p : Point) : Bool :=
  must.all (fun c => p.field c.key = c.value)

def tenantMust (orgId : String) (vendorId : VendorId) : List FieldCondition :=
  [⟨.orgId, orgId⟩, ⟨.vendorId, vendorId⟩]

def searchMust (orgId : String) (vendorId : VendorId) (sectionTypeFilter : Option String) :
    List FieldCondition :=
  tenantMust orgId vendorId ++
    (sectionTypeFilter.filter (· ≠ "")).toList.map (fun v => ⟨.sectionType, v⟩)

theorem matchesAll_iff {must : List FieldCondition} {p : Point} :
    matchesAll must p = true ↔ ∀ c ∈ must, p.field c.key = c.value := by
  rw [matchesAll, List.all_eq_true]
  exact forall₂_congr (fun c _ => decide_eq_true_iff)

theorem matchesAll_append {a b : List FieldCondition} {p : Point} :
    matchesAll (a ++ b) p = true ↔ matchesAll a p = true ∧ matchesAll b p = true := by
  simp only [matchesAll_iff, List.forall_mem_append]

theorem matchesAll_tenantMust {orgId : String} {vendorId : VendorId} {p : Point} :
    matchesAll (tenantMust orgId vendorId) p = true ↔ p.orgId = orgId ∧ p.vendorId = vendorId := by
  simp [matchesAll_iff, tenantMust, Point.field]

theorem tenant_of_searchMust {orgId : String} {vendorId : VendorId} {section? : Option String}
    {p : Point} (h : matchesAll (searchMust orgId vendorId section?) p = true) :
    p.orgId = orgId ∧ p.vendorId = vendorId :=
  matchesAll_tenantMust.mp (matchesAll_append.mp h).1

structure Prefetch where
  query : List PyFloat ⊕ (List Nat × List PyFloat)
  limit : Nat
  filter : List FieldCondition

inductive VectorQuery
  | dense (vector : List PyFloat) (queryFilter : List FieldCondition)
  | fusion (prefetch : List Prefetch)

/-- What a query may return: a filtered query the points that pass its filter, and a
fusion the points that one of its prefetches may return. -/
def VectorQuery.Selects (p : Point) : VectorQuery → Prop
  | .dense _ must => matchesAll must p = true
  | .fusion prefetch => ∃ f ∈ prefetch, matchesAll f.filter p = true

instance (p : Point) (q : VectorQuery) : Decidable (q.Selects p) :=
  match q with
  | .dense _ _ => inferInstanceAs (Decidable (_ = _))
  | .fusion prefetch => inferInstanceAs (Decidable (∃ f ∈ prefetch, _ = _))

structure ScoredPoint where
  point : Point
  score : ℚ

/-- `client.query_points` of the vector service: the ranking is its own, and what it
returns are stored points that the query selects. -/
structure SearchEngine where
  queryPoints : Collection → VectorQuery → Nat → Except Exn (List ScoredPoint)
  stored : ∀ c q n rs, queryPoints c q n = .ok rs → ∀ r ∈ rs, r.point ∈ c
  selected : ∀ c q n rs, queryPoints c q n = .ok rs → ∀ r ∈ rs, q.Selects r.point

def SearchEngine.exhaustive : SearchEngine where
  queryPoints c q limit := .ok (((c.rows.filter (fun p => q.Selects p)).take limit).map (⟨·, 1⟩))
  stored := by
    intro c q n rs h r hr
    cases h
    obtain ⟨p, hp, rfl⟩ := List.mem_map.mp hr
    exact (List.mem_filter.mp (List.mem_of_mem_take hp)).1
  selected := by
    intro c q n rs h r hr
    cases h
    obtain ⟨p, hp, rfl⟩ := List.mem_map.mp hr
    simpa using (List.mem_filter.mp (List.mem_of_mem_take hp)).2

structure SearchHit where
  chunkId : ChunkId
  text : String
  score : ℚ
  payload : Point

def SearchHit.ofScored (r : ScoredPoint) : SearchHit :=
  ⟨r.point.chunkId, r.point.text, r.score, r.point⟩

def getCollection (store : Store) (name : String) : Except Exn Collection :=
  orRaise (store.get? name) ⟨.external, s!"Collection `{name}` doesn't exist!"⟩

def searchDense (engine : SearchEngine) (store : Store) (collection : String)
    (queryVector : List PyFloat) (orgId : String) (vendorId : VendorId) (limit : Nat)
    (sectionTypeFilter : Option String) : Except Exn (List SearchHit) := do
  let c ← getCollection store collection
  let rs ← engine.queryPoints c (.dense queryVector (searchMust orgId vendorId sectionTypeFilter))
    limit
  return rs.map SearchHit.ofScored

/-- The sparse half is left out for a query that has no sparse terms. -/
def searchHybrid (engine : SearchEngine) (sparse : List Nat × List PyFloat) (store : Store)
    (collection : String) (denseVector : List PyFloat) (orgId : String) (vendorId : VendorId)
    (limit : Nat) (sectionTypeFilter : Option String) : Except Exn (List SearchHit) := do
  let must := searchMust orgId vendorId sectionTypeFilter
  let c ← getCollection store collection
  let rs ← engine.queryPoints c (.fusion (⟨.inl denseVector, limit * 2, must⟩ ::
    (if sparse.1 = [] then [] else [⟨.inr sparse, limit * 2, must⟩]))) limit
  return rs.map SearchHit.ofScored

def Hit (store : Store) (collection : String) (orgId : String) (vendorId : VendorId)
    (p : Point) : Prop :=
  ∃ c, store.get? collection = some c ∧ p ∈ c ∧ p.orgId = orgId ∧ p.vendorId = vendorId

section Search

variable {engine : SearchEngine} {store : Store} {collection orgId : String} {vendorId : VendorId}
  {limit : Nat} {section? : Option String} {vector : List PyFloat}
  {sparse : List Nat × List PyFloat} {hits : List SearchHit}

theorem searchDense_sound
    (h : searchDense engine store collection vector orgId vendorId limit section? = .ok hits) :
    ∀ r ∈ hits, r.text = r.payload.text ∧ Hit store collection orgId vendorId r.payload := by
  simp only [searchDense, getCollection, bind_eq_ok, orRaise_eq_ok, pure_eq_ok] at h
  obtain ⟨c, hc, rs, hrs, rfl⟩ := h
  intro r hr
  obtain ⟨q, hq, rfl⟩ := List.mem_map.mp hr
  have hsel := engine.selected _ _ _ _ hrs q hq
  exact ⟨rfl, c, hc, engine.stored _ _ _ _ hrs q hq, tenant_of_searchMust hsel⟩

theorem searchHybrid_sound
    (h : searchHybrid engine sparse store collection vector orgId vendorId limit section? =
      .ok hits) :
    ∀ r ∈ hits, r.text = r.payload.text ∧ Hit store collection orgId vendorId r.payload := by
  simp only [searchHybrid, getCollection, bind_eq_ok, orRaise_eq_ok, pure_eq_ok] at h
  obtain ⟨c, hc, rs, hrs, rfl⟩ := h
  intro r hr
  obtain ⟨q, hq, rfl⟩ := List.mem_map.mp hr
  obtain ⟨f, hf, hsel⟩ := engine.selected _ _ _ _ hrs q hq
  have hfilter : f.filter = searchMust orgId vendorId section? := by
    -- both prefetches carry the tenant filter; the fusion itself has none
    rcases List.mem_cons.mp hf with rfl | hf
    · rfl
    · split at hf
      · cases hf
      · rw [List.mem_singleton.mp hf]
  rw [hfilter] at hsel
  exact ⟨rfl, c, hc, engine.stored _ _ _ _ hrs q hq, tenant_of_searchMust hsel⟩

end Search

def createCollection (name : String) (store : Store) : Store :=
  if (store.get? name).isSome then store else store.set name ∅

def upsertChunk (collection : String) (p : Point) (store : Store) : Store :=
  store.set collection (((store.get? collection).getD ∅).upsert p)

/-- The points that a deletion leaves; an emptied collection is dropped if asked for. -/
def deleteByFilter (drop : Bool) (name : String) (must : List FieldCondition) (store : Store) :
    Store :=
  match store.get? name with
  | none => store
  | some c =>
      let rest := c.deleteWhere (matchesAll must)
      if drop && rest.rows.isEmpty then store.deleteWhere (fun e => e.1 = name)
      else store.set name rest

def deleteVendorData (orgId : String) (vendorId : VendorId) (store : Store) : Store :=
  deleteByFilter false (orgCollectionName orgId) (tenantMust orgId vendorId) store

def deleteSetupData (orgId setupId : String) (store : Store) : Store :=
  deleteByFilter true (orgCollectionName orgId) [⟨.orgId, orgId⟩, ⟨.setupId, setupId⟩] store

def deleteOrgData (orgId : String) (store : Store) : Store :=
  deleteByFilter true (orgCollectionName orgId) [⟨.orgId, orgId⟩] store

def Holds (store : Store) (p : Point) : Prop := ∃ name c, store.get? name = some c ∧ p ∈ c

section Frames

variable {store : Store} {name : String} {p q : Point} {must : List FieldCondition}

theorem Hit.holds {orgId : String} {vendorId : VendorId} (h : Hit store name orgId vendorId p) :
    Holds store p := by
  obtain ⟨c, hc, hp, _⟩ := h
  exact ⟨name, c, hc, hp⟩

theorem not_holds_empty : ¬ Holds ∅ p := by
  rintro ⟨name, c, hc, _⟩
  simp at hc

/-- What a search in the collection goes through, which is nothing when there is none. -/
def points (store : Store) (name : String) : Collection := (store.get? name).getD ∅

theorem hit_iff {orgId : String} {vendorId : VendorId} : Hit store name orgId vendorId p ↔
    p ∈ points store name ∧ p.orgId = orgId ∧ p.vendorId = vendorId := by
  unfold Hit points
  cases store.get? name with
  | none => simp
  | some c => simp

theorem points_set (c : Collection) (other : String) :
    points (store.set name c) other = if other = name then c else points store other := by
  by_cases hother : other = name
  · subst hother
    rw [points, Dict.get?_set_self, if_pos rfl, Option.getD_some]
  · rw [points, Dict.get?_set_ne hother, if_neg hother, points]

@[simp] theorem points_createCollection (other : String) :
    points (createCollection name store) other = points store other := by
  unfold createCollection
  split
  · rfl
  · rename_i hnone
    rw [points_set]
    split
    · rename_i hother
      subst hother
      rw [points, Option.not_isSome_iff_eq_none.mp hnone, Option.getD_none]
    · rfl

theorem points_upsertChunk (other : String) : points (upsertChunk name p store) other =
    if other = name then (points store name).upsert p else points store other :=
  points_set _ other

theorem points_drop (other : String) : points (store.deleteWhere (fun e => e.1 = name)) other =
    if other = name then ∅ else points store other := by
  have hget : Dict.get? (store.deleteWhere (fun e => e.1 = name)) other =
      (store.get? other).filter (fun _ => !decide (other = name)) :=
    Dict.get?_deleteWhere
  rw [points, hget]
  by_cases hother : other = name
  · simp [hother]
  · simp only [hother, if_false, decide_false, Bool.not_false, points]
    cases store.get? other <;> rfl

theorem KeyedTable.deleteWhere_empty (c : Collection) (q : Point → Bool)
    (h : (c.deleteWhere q).rows.isEmpty = true) : c.deleteWhere q = ∅ :=
  KeyedTable.ext (List.isEmpty_iff.mp h)

/-- Dropping an emptied collection does not change what a search goes through. -/
theorem points_deleteByFilter (drop : Bool) (other : String) :
    points (deleteByFilter drop name must store) other =
      if other = name then (points store name).deleteWhere (matchesAll must)
      else points store other := by
  unfold deleteByFilter
  cases hc : store.get? name with
  | none =>
      have hnone : points store name = ∅ := by rw [points, hc, Option.getD_none]
      by_cases hother : other = name
      · rw [if_pos hother, hnone, hother]
        exact hnone
      · exact (if_neg hother).symm
  | some c =>
      have hsome : points store name = c := by rw [points, hc, Option.getD_some]
      simp only []
      split
      · rename_i hempty
        rw [Bool.and_eq_true] at hempty
        rw [points_drop, hsome]
        split
        · exact (KeyedTable.deleteWhere_empty c _ hempty.2).symm
        · rfl
      · rw [points_set, hsome]

theorem holds_upsertChunk_self : Holds (upsertChunk name q store) q :=
  ⟨name, _, Dict.get?_set_self, KeyedTable.mem_upsert.mpr (Or.inl rfl)⟩

end Frames

end RfpPlatform.VectorStore
