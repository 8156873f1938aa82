import Mathlib.Logic.Function.Basic
import RfpPlatform.PyValue
import RfpPlatform.TransitionRuns

namespace RfpPlatform.SettingsCache

open TransitionRuns

inductive Field
  | qualityTier
  | useHyde
  | useReranking
  | useQueryRewriting
  | useHybridSearch
  | rerankerProvider
  | retrievalTopK
  | rerankTopN
  | mandatoryCheckUseLlmVerify
  | confidenceRetryThreshold
  | scoreVarianceThreshold
  | rankMarginThreshold
  | llmTemperature
  | outputTone
  | outputLanguage
  | citationStyle
  | includeConfidenceScore
  | includeEvidenceQuotes
  | maxEvidenceQuoteChars
  | parallelVendors
  deriving DecidableEq

abbrev Settings := Field → Json

/-- The presets by tier, and what an organisation without a row has. -/
structure Product where
  presets : Json → Option (Field → Option Json)
  defaults : Settings
  cacheTtl : ℚ

structure UpsertCall where
  applyPreset : Bool
  fields : Field → Option Json

/-- `fields.get("quality_tier", current.quality_tier)` -/
def UpsertCall.tier (req : UpsertCall) (current : Settings) : Json :=
  (req.fields .qualityTier).getD (current .qualityTier)

/-- A list or an object is no key of a dictionary: looking its preset up raises. -/
def hashable : Json → Bool
  | .arr _ | .obj _ => false
  | _ => true

/-- The fields that an upsert writes: those it is given, or the preset of the tier with those laid
beneath. -/
def UpsertCall.writes (product : Product) (req : UpsertCall) (tier : Json) (k : Field) : Option Json :=
  match req.applyPreset, product.presets tier with
  | true, some preset =>
      if k = .qualityTier then some tier else (preset k).or (req.fields k)
  | _, _ => req.fields k

def newState (product : Product) (current : Settings) (req : UpsertCall) : Settings :=
  fun k => (req.writes product (req.tier current) k).getD (current k)

/-- The settings that a read of the row gave, and how many upserts had been committed by then. -/
structure Snapshot where
  settings : Settings
  version : Nat

/-- What a `get_org_settings` is made for: a caller, the start of an upsert, or its end. -/
inductive Purpose
  | read
  | resolve (req : UpsertCall)
  | confirm (version : Nat)

/-- Where a task stands. A get past its cache check keeps how many upserts had been committed by
those that had returned when it started. -/
inductive Phase
  | idle
  | missed (purpose : Purpose) (floor : Nat) (now : ℚ)
  | fetched (purpose : Purpose) (floor : Nat) (now : ℚ) (found : Snapshot)
  | resolved (req : UpsertCall) (current : Snapshot)
  | committed (version : Nat)
  | invalidated (version : Nat)

/-- The phase in which a get of a purpose starts. -/
def Purpose.StartsFrom : Purpose → Phase → Prop
  | .read, p => p = .idle
  | .resolve _, p => p = .idle
  | .confirm version, p => p = .invalidated version

/-- The phase that a get leads to with its answer. -/
def Purpose.next : Purpose → Snapshot → Phase
  | .read, _ => .idle
  | .resolve req, s => .resolved req s
  | .confirm _, _ => .idle

variable {ι : Type} [DecidableEq ι]

/-- The cache entry and the row of an organisation, with the tasks of the process. The last number
of commits among the upserts that have returned, the committed calls with the last one first, and
the answers of all gets with the floor they started from are recorded beside. -/
structure World (ι : Type) where
  cache : Option (ℚ × Snapshot)
  row : Option Settings
  version : Nat
  phase : ι → Phase
  returned : Nat
  commits : List UpsertCall
  answers : List (Nat × Nat)

def World.fresh : World ι := ⟨none, none, 0, fun _ => .idle, 0, [], []⟩

/-- The row, or the defaults of an organisation that has none. -/
def World.resolvedRow (product : Product) (w : World ι) : Settings := w.row.getD product.defaults

/-- A get ends with an answer. The last get of an upsert is also its return. -/
def World.answered (w : World ι) (c : ι) (p : Purpose) (floor : Nat) (s : Snapshot) : World ι :=
  { w with
    phase := Function.update w.phase c (p.next s)
    returned := match p with
      | .confirm version => max w.returned version
      | _ => w.returned
    answers := (floor, s.version) :: w.answers }

def World.setPhase (w : World ι) (c : ι) (p : Phase) : World ι :=
  { w with phase := Function.update w.phase c p }

def World.committed (product : Product) (w : World ι) (c : ι) (req : UpsertCall) (current : Snapshot) :
    World ι :=
  { w with
    row := some (newState product current.settings req)
    version := w.version + 1
    phase := Function.update w.phase c (.committed (w.version + 1))
    commits := req :: w.commits }

inductive Event (ι : Type)
  | hit (c : ι) (p : Purpose) (now : ℚ)
  | missed (c : ι) (p : Purpose) (now : ℚ)
  | fetched (c : ι)
  | stored (c : ι)
  | committed (c : ι)
  | invalidated (c : ι)
  | raised (c : ι)

/-- The cache check, the read of the row and the write of the cache entry are steps of their own,
and so are the commit of an upsert and its invalidation. -/
inductive Step (product : Product) : World ι → Event ι → World ι → Prop
  | hit {w : World ι} {c : ι} {p : Purpose} {now ts : ℚ} {s : Snapshot}
      (hstart : p.StartsFrom (w.phase c)) (hcache : w.cache = some (ts, s))
      (hfresh : now - ts < product.cacheTtl) :
      Step product w (.hit c p now) (w.answered c p w.returned s)
  | missed {w : World ι} {c : ι} {p : Purpose} {now : ℚ} (hstart : p.StartsFrom (w.phase c))
      (hmiss : ∀ ts s, w.cache = some (ts, s) → product.cacheTtl ≤ now - ts) :
      Step product w (.missed c p now) (w.setPhase c (.missed p w.returned now))
  | fetched {w : World ι} {c : ι} {p : Purpose} {floor : Nat} {now : ℚ}
      (hphase : w.phase c = .missed p floor now) :
      Step product w (.fetched c)
        (w.setPhase c (.fetched p floor now ⟨w.resolvedRow product, w.version⟩))
  | stored {w : World ι} {c : ι} {p : Purpose} {floor : Nat} {now : ℚ} {s : Snapshot}
      (hphase : w.phase c = .fetched p floor now s) :
      Step product w (.stored c) { w.answered c p floor s with cache := some (now, s) }
  | committed {w : World ι} {c : ι} {req : UpsertCall} {current : Snapshot}
      (hphase : w.phase c = .resolved req current)
      (htier : req.applyPreset = true → hashable (req.tier current.settings) = true) :
      Step product w (.committed c) (w.committed product c req current)
  | invalidated {w : World ι} {c : ι} {version : Nat} (hphase : w.phase c = .committed version) :
      Step product w (.invalidated c) { w.setPhase c (.invalidated version) with cache := none }
  | raised {w : World ι} {c : ι} : Step product w (.raised c) (w.setPhase c .idle)

/-- No get has answered with settings older than an upsert that had returned when it started, nor
would the cache do so now, and the row is what the committed upserts make of the defaults one after
another. -/
structure Coherent (product : Product) (w : World ι) : Prop where
  answers : ∀ a ∈ w.answers, a.1 ≤ a.2
  cache : ∀ ts s, w.cache = some (ts, s) → w.returned ≤ s.version
  serial : w.resolvedRow product =
    w.commits.foldr (fun req s => newState product s req) product.defaults

/-- At its commit an upsert finds in the row what it has read of the fields that it leaves alone,
and of the tier where it overlays the preset of a tier that it does not name. -/
def Agrees (product : Product) (row current : Settings) (req : UpsertCall) : Prop :=
  req.tier current = req.tier row ∧
    ∀ k, req.writes product (req.tier row) k = none → current k = row k

/-- The steps after which the process is still coherent: a get puts nothing into the cache that it
has read before the commit of an upsert that has returned by now, the last get of an upsert hits
nothing older than its own commit, and an upsert commits on the values it has read. -/
def Admits (product : Product) (w : World ι) : Event ι → Prop
  | .hit _ (.confirm version) _ => ∀ ts s, w.cache = some (ts, s) → version ≤ s.version
  | .stored c => ∀ p floor now s, w.phase c = .fetched p floor now s → w.returned ≤ s.version
  | .committed c => ∀ req current, w.phase c = .resolved req current →
      Agrees product (w.resolvedRow product) current.settings req
  | _ => True

/-- Versions seen so far are not ahead of the row, and a read is not behind what its get started
from. -/
def Phase.Within (version : Nat) : Phase → Prop
  | .idle => True
  | .missed p floor _ => floor ≤ version ∧ ∀ v, p = .confirm v → v ≤ version
  | .fetched p floor _ s => floor ≤ s.version ∧ s.version ≤ version ∧
      ∀ v, p = .confirm v → v ≤ s.version
  | .resolved _ _ => True
  | .committed v => v ≤ version
  | .invalidated v => v ≤ version

structure Sound (w : World ι) : Prop where
  returned : w.returned ≤ w.version
  phases : ∀ c, (w.phase c).Within w.version

section Updates

variable {product : Product} {current row : Settings} {req : UpsertCall}

theorem newState_tier (product : Product) (current : Settings) (req : UpsertCall) :
    newState product current req .qualityTier = req.tier current := by
  rw [newState, UpsertCall.writes]
  cases req.applyPreset with
  | false => rfl
  | true =>
      cases product.presets (req.tier current) with
      | none => rfl
      | some preset => rfl

/-- An upsert makes of what it has read what it would have made of the row exactly when they agree. -/
theorem newState_eq_iff : newState product current req = newState product row req ↔
    Agrees product row current req := by
  constructor
  · intro h
    have htier : req.tier current = req.tier row := by
      rw [← newState_tier product current req, ← newState_tier product row req, h]
    refine ⟨htier, fun k hk => ?_⟩
    have hfield := congrFun h k
    rwa [newState, newState, htier, hk, Option.getD_none, Option.getD_none] at hfield
  · rintro ⟨htier, hfields⟩
    funext k
    rw [newState, newState, htier]
    cases hk : req.writes product (req.tier row) k with
    | none => exact hfields k hk
    | some v => rfl

end Updates

section Steps

variable {product : Product} {w w' : World ι} {e : Event ι} {c : ι} {p : Purpose} {v v' : Nat}

omit [DecidableEq ι] in
theorem sound_fresh : Sound (World.fresh : World ι) := ⟨le_rfl, fun _ => trivial⟩

omit [DecidableEq ι] in
theorem coherent_fresh (product : Product) : Coherent product (World.fresh : World ι) where
  answers := fun _ h => absurd h List.not_mem_nil
  cache := fun _ _ h => absurd h (Option.some_ne_none _).symm
  serial := rfl

theorem Phase.Within.mono {phase : Phase} (h : phase.Within v) (hle : v ≤ v') : phase.Within v' := by
  cases phase with
  | idle | resolved => trivial
  | missed p floor now => exact ⟨le_trans h.1 hle, fun u hu => le_trans (h.2 u hu) hle⟩
  | fetched p floor now s => exact ⟨h.1, le_trans h.2.1 hle, h.2.2⟩
  | committed u | invalidated u => exact le_trans h hle

theorem Purpose.next_within (p : Purpose) (s : Snapshot) (v : Nat) : (p.next s).Within v := by
  cases p <;> trivial

theorem Sound.update (hs : Sound w) (hle : w.version ≤ v) {phase : Phase} (hphase : phase.Within v) :
    ∀ d, (Function.update w.phase c phase d).Within v := by
  rw [Function.forall_update_iff w.phase fun _ p => p.Within v]
  exact ⟨hphase, fun d _ => (hs.phases d).mono hle⟩

omit [DecidableEq ι] in
/-- The last get of an upsert starts after its commit. -/
theorem Sound.confirm_le (hs : Sound w) (hstart : p.StartsFrom (w.phase c)) :
    ∀ u, p = .confirm u → u ≤ w.version := by
  rintro u rfl
  have hphase := hs.phases c
  rwa [show w.phase c = .invalidated u from hstart] at hphase

theorem Sound.answered (hs : Sound w) {floor : Nat} {s : Snapshot}
    (hconfirm : ∀ u, p = .confirm u → u ≤ w.version) : Sound (w.answered c p floor s) := by
  refine ⟨?_, hs.update le_rfl (p.next_within s _)⟩
  cases p with
  | read | resolve req => exact hs.returned
  | confirm u => exact max_le hs.returned (hconfirm u rfl)

theorem preserved_sound (product : Product) : Preserved (Step product) (Sound (ι := ι)) := by
  intro w e w' hs hstep
  cases hstep with
  | hit hstart => exact hs.answered (hs.confirm_le hstart)
  | missed hstart => exact ⟨hs.returned, hs.update le_rfl ⟨hs.returned, hs.confirm_le hstart⟩⟩
  | @fetched c p floor now hphase =>
      have hwithin := hs.phases c
      rw [hphase] at hwithin
      exact ⟨hs.returned, hs.update le_rfl ⟨hwithin.1, le_rfl, hwithin.2⟩⟩
  | @stored c p floor now s hphase =>
      have hwithin := hs.phases c
      rw [hphase] at hwithin
      have hanswered : Sound (w.answered c p floor s) :=
        hs.answered fun u hu => le_trans (hwithin.2.2 u hu) hwithin.2.1
      exact ⟨hanswered.returned, hanswered.phases⟩
  | committed =>
      exact ⟨le_trans hs.returned (Nat.le_succ _), hs.update (Nat.le_succ _) le_rfl⟩
  | @invalidated c version hphase =>
      have hwithin := hs.phases c
      rw [hphase] at hwithin
      exact ⟨hs.returned, hs.update le_rfl hwithin⟩
  | raised => exact ⟨hs.returned, hs.update le_rfl trivial⟩

/-- A get that has read the row is not behind its floor, nor behind the upsert that it ends. -/
theorem stored_coherent_iff (hs : Sound w) (hc : Coherent product w) {floor : Nat} {now : ℚ}
    {s : Snapshot} (hphase : w.phase c = .fetched p floor now s) :
    Coherent product { w.answered c p floor s with cache := some (now, s) } ↔
      w.returned ≤ s.version := by
  have hwithin := hs.phases c
  rw [hphase] at hwithin
  obtain ⟨hfloor, _, hconfirm⟩ := hwithin
  constructor
  · intro h
    have hcached := h.cache now s rfl
    cases p with
    | read | resolve req => exact hcached
    | confirm u => exact le_trans (le_max_left _ _) hcached
  · intro h
    refine ⟨List.forall_mem_cons.mpr ⟨hfloor, hc.answers⟩, ?_, hc.serial⟩
    intro ts s' hs'
    obtain ⟨rfl, rfl⟩ := Prod.mk.inj (Option.some.inj hs')
    cases p with
    | read | resolve req => exact h
    | confirm u => exact max_le h (hconfirm u rfl)

theorem hit_coherent_iff (hc : Coherent product w) {now ts : ℚ} {s : Snapshot}
    (hcache : w.cache = some (ts, s)) :
    Coherent product (w.answered c p w.returned s) ↔ Admits product w (.hit c p now) := by
  have hanswers : ∀ a ∈ (w.answered c p w.returned s).answers, a.1 ≤ a.2 :=
    List.forall_mem_cons.mpr ⟨hc.cache ts s hcache, hc.answers⟩
  cases p with
  | read | resolve req => exact iff_of_true ⟨hanswers, hc.cache, hc.serial⟩ trivial
  | confirm u =>
      constructor
      · intro h ts' s' hs'
        exact le_trans (le_max_right _ _) (h.cache ts' s' hs')
      · intro h
        exact ⟨hanswers, fun ts' s' hs' => max_le (hc.cache ts' s' hs') (h ts' s' hs'), hc.serial⟩

theorem coherent_step_iff (hs : Sound w) (hc : Coherent product w) (hstep : Step product w e w') :
    Coherent product w' ↔ Admits product w e := by
  cases hstep with
  | hit _ hcache _ => exact hit_coherent_iff hc hcache
  | missed => exact iff_of_true ⟨hc.answers, hc.cache, hc.serial⟩ trivial
  | fetched => exact iff_of_true ⟨hc.answers, hc.cache, hc.serial⟩ trivial
  | @stored c p floor now s hphase =>
      rw [stored_coherent_iff hs hc hphase]
      constructor
      · intro h p' floor' now' s' hphase'
        cases hphase.symm.trans hphase'
        exact h
      · exact fun h => h _ _ _ _ hphase
  | @committed c req current hphase _ =>
      have hserial : Coherent product (w.committed product c req current) ↔
          newState product current.settings req = newState product (w.resolvedRow product) req := by
        constructor
        · intro h
          rw [hc.serial]
          exact h.serial
        · intro h
          rw [hc.serial] at h
          exact ⟨hc.answers, hc.cache, h⟩
      rw [hserial, newState_eq_iff]
      constructor
      · intro h req' current' hphase'
        cases hphase.symm.trans hphase'
        exact h
      · exact fun h => h _ _ hphase
  | invalidated =>
      exact iff_of_true ⟨hc.answers, fun _ _ h => absurd h (Option.some_ne_none _).symm, hc.serial⟩
        trivial
  | raised => exact iff_of_true ⟨hc.answers, hc.cache, hc.serial⟩ trivial

end Steps

/-- The runs of gets and upserts that stay coherent are those whose steps are all admitted. -/
theorem coherent_runs_iff (product : Product) (es : List (Event ι)) (w : World ι) :
    Run (Guarded (Admits product) (Step product)) World.fresh es w ↔
      Run (Into (Coherent product) (Step product)) World.fresh es w :=
  guarded_iff_into_of_preserved (preserved_sound product)
    (fun _ _ _ hs hc hstep => coherent_step_iff hs hc hstep) sound_fresh (coherent_fresh product)

omit [DecidableEq ι] in
/-- In a coherent process a field has what the last upsert that writes it has written. -/
theorem Coherent.takes_effect {product : Product} {w : World ι} (h : Coherent product w)
    {later earlier : List UpsertCall} {req : UpsertCall} {k : Field}
    (hcommits : w.commits = later ++ req :: earlier)
    (hlater : ∀ r ∈ later, ∀ s, r.writes product (r.tier s) k = none) :
    w.resolvedRow product k =
      newState product (earlier.foldr (fun r s => newState product s r) product.defaults) req k := by
  rw [h.serial, hcommits, List.foldr_append]
  clear hcommits
  induction later with
  | nil => rfl
  | cons r later ih =>
      obtain ⟨hr, hrest⟩ := List.forall_mem_cons.mp hlater
      rw [List.foldr_cons, newState, hr, Option.getD_none]
      exact ih hrest

section Sample

def plainProduct : Product := ⟨fun _ => none, fun _ => .null, 300⟩

def setting (field : Field) (v : Json) : UpsertCall := ⟨false, fun k => if k = field then some v else none⟩

theorem no_entry {w : World Nat} (h : w.cache = none) (now : ℚ) :
    ∀ ts s, w.cache = some (ts, s) → plainProduct.cacheTtl ≤ now - ts := by
  intro ts s hs
  rw [h] at hs
  cases hs

theorem plain_tier {field : Field} {v tier : Json} :
    (setting field v).applyPreset = true → hashable tier = true :=
  fun h => absurd h Bool.false_ne_true

/-- Two upserts read the row before either has written it. -/
theorem lost_update : ∃ es w, Run (Step plainProduct) (World.fresh : World Nat) es w ∧
    w.commits = [setting .outputTone (.str "formal"), setting .llmTemperature (.num 1)] ∧
    w.resolvedRow plainProduct .llmTemperature = .null :=
  ⟨_, _,
    .cons (.missed (c := 0) (p := .resolve (setting .llmTemperature (.num 1))) rfl (no_entry rfl 0))
      (.cons (.missed (c := 1) (p := .resolve (setting .outputTone (.str "formal"))) rfl
        (no_entry rfl 0))
      (.cons (.fetched (c := 0) rfl) (.cons (.fetched (c := 1) rfl)
      (.cons (.stored (c := 0) rfl) (.cons (.stored (c := 1) rfl)
      (.cons (.committed (c := 0) rfl plain_tier) (.single (.committed (c := 1) rfl plain_tier)))))))),
    rfl, rfl⟩

/-- A reader stores what it has read before an upsert after the upsert has returned. -/
theorem stale_answer : ∃ es w, Run (Step plainProduct) (World.fresh : World Nat) es w ∧
    (1, 0) ∈ w.answers :=
  ⟨_, _,
    .cons (.missed (c := 0) (p := .read) rfl (no_entry rfl 0)) (.cons (.fetched (c := 0) rfl)
      (.cons (.missed (c := 1) (p := .resolve (setting .llmTemperature (.num 1))) rfl
        (no_entry rfl 0))
      (.cons (.fetched (c := 1) rfl) (.cons (.stored (c := 1) rfl)
      (.cons (.committed (c := 1) rfl plain_tier) (.cons (.invalidated (c := 1) rfl)
      (.cons (.missed (c := 1) (p := .confirm 1) rfl (no_entry rfl 0))
      (.cons (.fetched (c := 1) rfl) (.cons (.stored (c := 1) rfl) (.cons (.stored (c := 0) rfl)
      (.single (.hit (c := 2) (p := .read) rfl rfl (by decide +kernel : (1 : ℚ) - 0 < 300))))))))))))),
    List.mem_cons_self⟩

/-- Neither half of the coherence holds of every run. -/
theorem incoherent : (¬ ∀ (product : Product) (es : List (Event Nat)) (w : World Nat),
      Run (Step product) World.fresh es w → ∀ a ∈ w.answers, a.1 ≤ a.2) ∧
    ¬ ∀ (product : Product) (es : List (Event Nat)) (w : World Nat),
      Run (Step product) World.fresh es w → w.resolvedRow product =
        w.commits.foldr (fun req s => newState product s req) product.defaults := by
  constructor
  · intro h
    obtain ⟨es, w, hrun, hanswer⟩ := stale_answer
    exact absurd (h _ es w hrun _ hanswer) (by decide)
  · intro h
    obtain ⟨es, w, hrun, hcommits, hrow⟩ := lost_update
    have hserial := congrFun (h _ es w hrun) .llmTemperature
    rw [hrow, hcommits] at hserial
    cases hserial

end Sample

end RfpPlatform.SettingsCache
