import RfpPlatform.JsonText
import RfpPlatform.PyText
import RfpPlatform.TransitionRuns

namespace RfpPlatform.LlmCache

open CanonicalText JsonText TransitionRuns

/-- The settings and the environment that a call of `call_llm` finds. -/
structure Context where
  llmProvider : String
  openaiModel : String
  anthropicModel : String
  openrouterModel : String
  ollamaModel : String
  azureOpenaiDeployment : String
  modalLlmModel : String
  llmCacheEnabled : String
  cacheDisabledForRequest : Bool

def Context.provider (ctx : Context) : String := String.ofList (PyText.lower ctx.llmProvider)

def Context.getModelName (ctx : Context) : String :=
  match ctx.provider with
  | "openai" => ctx.openaiModel
  | "anthropic" => ctx.anthropicModel
  | "openrouter" => ctx.openrouterModel
  | "ollama" => ctx.ollamaModel
  | "azure" => ctx.azureOpenaiDeployment
  | "modal" => ctx.modalLlmModel
  | _ => ctx.openaiModel

def Context.enabled (ctx : Context) : Bool :=
  !ctx.cacheDisabledForRequest &&
    decide (String.ofList (PyText.lower ctx.llmCacheEnabled) ∈ ["1", "true", "yes", "on"])

/-- The providers that `get_llm_client` has a client for. -/
def llmProviders : List String := ["openai", "anthropic", "openrouter", "ollama", "modal", "azure"]

/-- The float `0.0`. -/
def zero : FloatText := ⟨['0', '.', '0'], rfl⟩

/-- The arguments of `call_llm`. -/
structure Call where
  messages : List JsonValue
  temperature : Scalar := .float zero
  maxTokens : Int := 4096
  responseFormat : Option (List (String × JsonValue)) := none
  seed : Option Int := none
  useCache : Bool := true
  cacheBust : Option String := none

/-- What the provider is asked for. -/
structure Request where
  provider : String
  model : String
  messages : List JsonValue
  temperature : Scalar
  seed : Int
  responseFormat : Option (List (String × JsonValue))
  maxTokens : Int

section Keys

variable (hexdigest : String → String)

/-- `int(sha256("|".join(parts)).hexdigest()[:8], 16)` -/
def stableSeed (parts : List String) : Int :=
  ((hexdigest ("|".intercalate parts)).toList.take 8).foldl (fun n c => 16 * n + hexValue c) 0

def Call.request (ctx : Context) (call : Call) : Request where
  provider := ctx.provider
  model := ctx.getModelName
  messages := call.messages
  temperature := call.temperature
  seed := call.seed.getD (stableSeed hexdigest [dumps true (.list call.messages)])
  responseFormat := call.responseFormat
  maxTokens := call.maxTokens

def optionalDict : Option (List (String × JsonValue)) → JsonValue
  | some members => .dict members
  | none => .scalar .null

def optionalStr : Option String → JsonValue
  | some s => .str s
  | none => .scalar .null

def Request.payload (r : Request) (cacheBust : Option String) : List (String × JsonValue) :=
  [("provider", .str r.provider), ("model", .str r.model), ("temperature", .scalar r.temperature),
    ("seed", .scalar (.int r.seed)), ("response_format", optionalDict r.responseFormat),
    ("messages", .list r.messages), ("cache_bust", optionalStr cacheBust)]

def buildCacheKey (r : Request) (cacheBust : Option String) : String :=
  hexdigest (dumps false (.dict (r.payload cacheBust)))

/-- The key of a call that uses the cache. -/
def Call.cacheKey (ctx : Context) (call : Call) : Option String :=
  if call.useCache && ctx.enabled then
    some (buildCacheKey hexdigest (call.request hexdigest ctx) call.cacheBust)
  else none

end Keys

/-- Requests that agree in all that the key is made of. -/
structure Request.Agree (r r' : Request) : Prop where
  provider : r.provider = r'.provider
  model : r.model = r'.model
  messages : Value.Same (.list r.messages) (.list r'.messages)
  temperature : r.temperature = r'.temperature
  seed : r.seed = r'.seed
  responseFormat : (optionalDict r.responseFormat).Same (optionalDict r'.responseFormat)

/-- The same request, up to the order of the members of dictionaries. -/
structure Request.Identical (r r' : Request) : Prop extends r.Agree r' where
  maxTokens : r.maxTokens = r'.maxTokens

/-- A request that the provider has answered. -/
structure ProviderCall where
  request : Request
  response : String
  promptTokens : Option Nat
  completionTokens : Option Nat

/-- A row of `llm_response_cache`, with the provider call that its response is from. -/
structure Row where
  response : String
  provider : String
  model : String
  promptTokens : Option Nat
  completionTokens : Option Nat
  producer : ProviderCall

def ProviderCall.row (answer : ProviderCall) : Row where
  response := answer.response
  provider := answer.request.provider
  model := answer.request.model
  promptTokens := answer.promptTokens
  completionTokens := answer.completionTokens
  producer := answer

/-- A call past its lookup, and one that has the provider's answer, with the key to store it
under. -/
inductive Phase
  | idle
  | missed (request : Request) (cacheKey : Option String)
  | answered (answer : ProviderCall) (cacheKey : Option String)

variable {ι : Type} [DecidableEq ι]

/-- The cache and the tasks that call the provider. All answers of the provider and all that was
served from the cache are recorded beside. -/
structure World (ι : Type) where
  rows : String → Option Row
  phase : ι → Phase
  log : List ProviderCall
  served : List (Request × Row)

def World.fresh : World ι := ⟨fun _ => none, fun _ => .idle, [], []⟩

def World.setPhase (w : World ι) (c : ι) (p : Phase) : World ι :=
  { w with phase := Function.update w.phase c p }

/-- `INSERT ... ON CONFLICT (cache_key) DO NOTHING` -/
def World.store (w : World ι) (key : String) (row : Row) : World ι :=
  { w with rows := Function.update w.rows key (some ((w.rows key).getD row)) }

inductive Event (ι : Type)
  | hit (c : ι) (ctx : Context) (call : Call)
  | missed (c : ι) (ctx : Context) (call : Call)
  | answered (c : ι) (answer : ProviderCall)
  | stored (c : ι)
  | returned (c : ι)
  | raised (c : ι)
  | purged (gone : String → Row → Bool)

/-- The lookup, the provider's answer and the store of a call are steps of their own. An
administrator may delete rows between them. -/
inductive Step (hexdigest : String → String) : World ι → Event ι → World ι → Prop
  | hit {w : World ι} {c : ι} {ctx : Context} {call : Call} {key : String} {row : Row}
      (hphase : w.phase c = .idle) (hkey : call.cacheKey hexdigest ctx = some key)
      (hrow : w.rows key = some row) :
      Step hexdigest w (.hit c ctx call)
        { w with served := (call.request hexdigest ctx, row) :: w.served }
  | missed {w : World ι} {c : ι} {ctx : Context} {call : Call} (hphase : w.phase c = .idle)
      (hmiss : ∀ key, call.cacheKey hexdigest ctx = some key → w.rows key = none) :
      Step hexdigest w (.missed c ctx call)
        (w.setPhase c (.missed (call.request hexdigest ctx) (call.cacheKey hexdigest ctx)))
  | answered {w : World ι} {c : ι} {answer : ProviderCall} {cacheKey : Option String}
      (hphase : w.phase c = .missed answer.request cacheKey)
      (hclient : answer.request.provider ∈ llmProviders) :
      Step hexdigest w (.answered c answer)
        { w.setPhase c (.answered answer cacheKey) with log := answer :: w.log }
  | stored {w : World ι} {c : ι} {answer : ProviderCall} {key : String}
      (hphase : w.phase c = .answered answer (some key)) :
      Step hexdigest w (.stored c) ((w.store key answer.row).setPhase c .idle)
  | returned {w : World ι} {c : ι} {answer : ProviderCall}
      (hphase : w.phase c = .answered answer none) :
      Step hexdigest w (.returned c) (w.setPhase c .idle)
  | raised {w : World ι} {c : ι} : Step hexdigest w (.raised c) (w.setPhase c .idle)
  | purged {w : World ι} {gone : String → Row → Bool} :
      Step hexdigest w (.purged gone)
        { w with rows := fun key => (w.rows key).filter fun row => !gone key row }

/-- All that was served from the cache is a response that the provider has given to an identical
request. -/
def Sound (w : World ι) : Prop :=
  ∀ s ∈ w.served, s.2.producer ∈ w.log ∧ s.2.response = s.2.producer.response ∧
    s.2.producer.request.Identical s.1

/-- A row is served only to a call with the output limit that its response was made with. -/
def Admits (hexdigest : String → String) (w : World ι) : Event ι → Prop
  | .hit _ ctx call => ∀ key row, call.cacheKey hexdigest ctx = some key → w.rows key = some row →
      row.producer.request.maxTokens = call.maxTokens
  | _ => True

def KeyOf (hexdigest : String → String) (r : Request) (key : String) : Prop :=
  ∃ cacheBust, key = buildCacheKey hexdigest r cacheBust

def Phase.Keyed (hexdigest : String → String) (log : List ProviderCall) : Phase → Prop
  | .idle => True
  | .missed request cacheKey => ∀ key, cacheKey = some key → KeyOf hexdigest request key
  | .answered answer cacheKey => answer ∈ log ∧
      ∀ key, cacheKey = some key → KeyOf hexdigest answer.request key

/-- Rows and calls on their way hold what the provider has answered, under its own key. -/
structure Keyed (hexdigest : String → String) (w : World ι) : Prop where
  rows : ∀ key row, w.rows key = some row → row.producer ∈ w.log ∧
    row.response = row.producer.response ∧ KeyOf hexdigest row.producer.request key
  phases : ∀ c, (w.phase c).Keyed hexdigest w.log

section Payloads

variable {hexdigest : String → String} {r r' : Request} {cacheBust cacheBust' : Option String}

theorem same_str {s t : String} (h : Value.Same (.str s : JsonValue) (.str t)) : s = t := by
  injection h

theorem same_scalar {a b : Scalar} (h : Value.Same (.scalar a) (.scalar b)) : a = b := by
  injection h

theorem same_field (h : Value.Same (.dict (r.payload cacheBust)) (.dict (r'.payload cacheBust')))
    (k : String) {v v' : JsonValue} (hv : (k, v) ∈ r.payload cacheBust)
    (hv' : ∀ u, (k, u) ∈ r'.payload cacheBust' → u = v') : v.Same v' := by
  obtain ⟨u, hu, hsame⟩ := h.member hv
  rwa [hv' u hu] at hsame

/-- A payload determines its request, its output limit aside. -/
theorem agree_of_same (h : Value.Same (.dict (r.payload cacheBust)) (.dict (r'.payload cacheBust'))) :
    r.Agree r' where
  provider := same_str (same_field h "provider" (by simp [Request.payload]) (by simp [Request.payload]))
  model := same_str (same_field h "model" (by simp [Request.payload]) (by simp [Request.payload]))
  messages := same_field h "messages" (by simp [Request.payload]) (by simp [Request.payload])
  temperature :=
    same_scalar (same_field h "temperature" (by simp [Request.payload]) (by simp [Request.payload]))
  seed := by
    have hsame : Value.Same (.scalar (Scalar.int r.seed)) (.scalar (Scalar.int r'.seed)) :=
      same_field h "seed" (by simp [Request.payload]) (by simp [Request.payload])
    injection same_scalar hsame
  responseFormat :=
    same_field h "response_format" (by simp [Request.payload]) (by simp [Request.payload])

/-- Requests with the same key agree, as long as no two texts have the same digest. -/
theorem agree_of_key (hdigest : Function.Injective hexdigest)
    (h : buildCacheKey hexdigest r cacheBust = buildCacheKey hexdigest r' cacheBust') : r.Agree r' :=
  agree_of_same (dumps_eq_iff.mp (hdigest h))

/-- The key of a call is the key of its request. -/
theorem keyOf_cacheKey {ctx : Context} {call : Call} {key : String}
    (h : call.cacheKey hexdigest ctx = some key) :
    KeyOf hexdigest (call.request hexdigest ctx) key := by
  rw [Call.cacheKey] at h
  split at h
  · exact ⟨call.cacheBust, (Option.some.inj h).symm⟩
  · cases h

end Payloads

section Steps

variable {hexdigest : String → String} {w w' : World ι} {e : Event ι} {c : ι}

omit [DecidableEq ι] in
theorem keyed_fresh (hexdigest : String → String) : Keyed hexdigest (World.fresh : World ι) where
  rows := fun _ _ h => absurd h (Option.some_ne_none _).symm
  phases := fun _ => trivial

omit [DecidableEq ι] in
theorem sound_fresh : Sound (World.fresh : World ι) := fun _ h => absurd h List.not_mem_nil

theorem Phase.Keyed.mono {log log' : List ProviderCall} {p : Phase} (h : p.Keyed hexdigest log)
    (hlog : ∀ a ∈ log, a ∈ log') : p.Keyed hexdigest log' := by
  cases p with
  | idle => trivial
  | missed request cacheKey => exact h
  | answered answer cacheKey => exact ⟨hlog _ h.1, h.2⟩

theorem Keyed.update (hk : Keyed hexdigest w) {log : List ProviderCall} {p : Phase}
    (hlog : ∀ a ∈ w.log, a ∈ log) (hp : p.Keyed hexdigest log) :
    ∀ d, (Function.update w.phase c p d).Keyed hexdigest log := by
  rw [Function.forall_update_iff w.phase fun _ q => q.Keyed hexdigest log]
  exact ⟨hp, fun d _ => (hk.phases d).mono hlog⟩

omit [DecidableEq ι] in
theorem Keyed.store (hk : Keyed hexdigest w) {answer : ProviderCall} {key : String}
    (hlog : answer ∈ w.log) (hkey : KeyOf hexdigest answer.request key) :
    ∀ k row, (w.store key answer.row).rows k = some row → row.producer ∈ w.log ∧
      row.response = row.producer.response ∧ KeyOf hexdigest row.producer.request k := by
  intro k row hrow
  change Function.update w.rows key (some ((w.rows key).getD answer.row)) k = some row at hrow
  by_cases hd : k = key
  · subst hd
    rw [Function.update_self] at hrow
    cases hold : w.rows k with
    | none =>
        rw [hold, Option.getD_none] at hrow
        obtain rfl := Option.some.inj hrow
        exact ⟨hlog, rfl, hkey⟩
    | some old =>
        rw [hold, Option.getD_some] at hrow
        obtain rfl := Option.some.inj hrow
        exact hk.rows k old hold
  · rw [Function.update_of_ne hd] at hrow
    exact hk.rows k row hrow

theorem preserved_keyed (hexdigest : String → String) :
    Preserved (Step hexdigest) (Keyed (ι := ι) hexdigest) := by
  intro w e w' hk hstep
  cases hstep with
  | hit => exact ⟨hk.rows, hk.phases⟩
  | missed => exact ⟨hk.rows, hk.update (fun _ h => h) fun key hkey => keyOf_cacheKey hkey⟩
  | @answered c answer cacheKey hphase _ =>
      have hmissed := hk.phases c
      rw [hphase] at hmissed
      refine ⟨fun key row hrow => ?_, hk.update (fun _ h => List.mem_cons_of_mem _ h)
        ⟨List.mem_cons_self, hmissed⟩⟩
      exact (hk.rows key row hrow).imp_left (List.mem_cons_of_mem _)
  | @stored c answer key hphase =>
      have hanswered := hk.phases c
      rw [hphase] at hanswered
      exact ⟨hk.store hanswered.1 (hanswered.2 key rfl), hk.update (fun _ h => h) trivial⟩
  | returned => exact ⟨hk.rows, hk.update (fun _ h => h) trivial⟩
  | raised => exact ⟨hk.rows, hk.update (fun _ h => h) trivial⟩
  | purged =>
      refine ⟨fun key row hrow => ?_, hk.phases⟩
      exact hk.rows key row (Option.filter_eq_some_iff.mp hrow).1

theorem sound_step_iff (hdigest : Function.Injective hexdigest) (hk : Keyed hexdigest w)
    (hs : Sound w) (hstep : Step hexdigest w e w') : Sound w' ↔ Admits hexdigest w e := by
  cases hstep with
  | @hit c ctx call key row _ hkey hrow =>
      obtain ⟨hlog, hresponse, cacheBust, hproducer⟩ := hk.rows key row hrow
      obtain ⟨cacheBust', hcall⟩ := keyOf_cacheKey hkey
      have hagree := agree_of_key hdigest (hproducer.symm.trans hcall)
      constructor
      · intro h key' row' hkey' hrow'
        cases hkey.symm.trans hkey'
        cases hrow.symm.trans hrow'
        exact (h _ List.mem_cons_self).2.2.maxTokens
      · intro h
        exact List.forall_mem_cons.mpr ⟨⟨hlog, hresponse, hagree, h key row hkey hrow⟩, hs⟩
  | answered =>
      refine iff_of_true (fun s hmem => ?_) trivial
      exact (hs s hmem).imp_left (List.mem_cons_of_mem _)
  | missed | stored | returned | raised | purged => exact iff_of_true hs trivial

end Steps

/-- The runs in which all that is served is sound are those in which rows are served only to calls
with the output limit they were made with. -/
theorem sound_runs_iff {hexdigest : String → String} (hdigest : Function.Injective hexdigest)
    (es : List (Event ι)) (w : World ι) :
    Run (Guarded (Admits hexdigest) (Step hexdigest)) World.fresh es w ↔
      Run (Into Sound (Step hexdigest)) World.fresh es w :=
  guarded_iff_into_of_preserved (preserved_keyed hexdigest)
    (fun _ _ _ hk hs hstep => sound_step_iff hdigest hk hs hstep) (keyed_fresh hexdigest) sound_fresh

section Sample

def context : Context :=
  ⟨"openai", "gpt-4o", "claude-sonnet-4-20250514", "openai/gpt-4o", "qwen2.5:72b", "gpt-4o",
    "qwen2.5-72b", "true", false⟩

def question : Call where
  messages := [.dict [("role", .str "user"), ("content", .str "Say yes.")]]
  seed := some 7

def shortQuestion : Call := { question with maxTokens := 10 }

def questionText : String :=
  "\x7b\"cache_bust\": null, \"messages\": [\x7b\"content\": \"Say yes.\", \"role\": \"user\"\x7d], " ++
    "\"model\": \"gpt-4o\", \"provider\": \"openai\", \"response_format\": null, \"seed\": 7, " ++
    "\"temperature\": 0.0\x7d"

/-- The SHA-256 of the question's text, and a text of its own for each other one. -/
def sampleDigest (text : String) : String :=
  if text = questionText then "186d8b624f110cb31261349154746a4c3d2a298fd64bb423dc1b4d452718beac"
  else "x" ++ text

example : buildCacheKey sampleDigest (question.request sampleDigest context) none =
    "186d8b624f110cb31261349154746a4c3d2a298fd64bb423dc1b4d452718beac" := by decide +kernel

theorem sampleDigest_injective : Function.Injective sampleDigest := by
  have hx : ∀ t, "186d8b624f110cb31261349154746a4c3d2a298fd64bb423dc1b4d452718beac" ≠ "x" ++ t := by
    intro t h
    have hhead := congrArg (fun s => s.toList.head?) h
    simp only [String.toList_append] at hhead
    exact absurd hhead (by simp)
  intro s t h
  rw [sampleDigest, sampleDigest] at h
  split at h <;> split at h
  · next hs ht => rw [hs, ht]
  · exact absurd h (hx t)
  · exact absurd h.symm (hx s)
  · exact String.append_right_inj _ |>.mp h

variable {hexdigest : String → String}

theorem cacheKey_eq {call : Call} (h : call.useCache = true) : call.cacheKey hexdigest context =
    some (buildCacheKey hexdigest (call.request hexdigest context) call.cacheBust) := by
  have henabled : context.enabled = true := by decide
  rw [Call.cacheKey, h, henabled]
  rfl

def answerTo (hexdigest : String → String) (call : Call) : ProviderCall :=
  ⟨call.request hexdigest context, "Yes", some 12, some 1⟩

/-- The answer to a first call is stored under its key. -/
theorem run_answered {call : Call} (h : call.useCache = true) :
    ∃ w : World Nat, Run (Guarded (Admits hexdigest) (Step hexdigest)) World.fresh
        [.missed 0 context call, .answered 0 (answerTo hexdigest call), .stored 0] w ∧ w.phase 1 = .idle ∧
      w.rows (buildCacheKey hexdigest (call.request hexdigest context) call.cacheBust) =
        some (answerTo hexdigest call).row := by
  have hmissed : Step hexdigest World.fresh (.missed 0 context call)
      (World.fresh.setPhase 0
        (.missed (call.request hexdigest context) (call.cacheKey hexdigest context))) :=
    .missed rfl fun _ _ => rfl
  rw [cacheKey_eq h] at hmissed
  refine ⟨_, .cons ⟨trivial, hmissed⟩ (.cons ⟨trivial, .answered (c := 0) rfl ?_⟩
    (.single ⟨trivial, .stored (c := 0) rfl⟩)), rfl, ?_⟩
  · exact (by decide : "openai" ∈ llmProviders)
  · exact Function.update_self ..

/-- The same question asked again is served the answer to the first one. -/
theorem repeated_question_served : ∃ (es : List (Event Nat)) (w : World Nat) (row : Row),
    Run (Into Sound (Step sampleDigest)) World.fresh es w ∧
      (question.request sampleDigest context, row) ∈ w.served := by
  obtain ⟨w, hrun, hidle, hrow⟩ := run_answered (rfl : question.useCache = true)
  have hhit : Step sampleDigest w (.hit 1 context question) _ := .hit hidle (cacheKey_eq rfl) hrow
  have hadmits : Admits sampleDigest w (.hit 1 context question) := by
    intro key row hkey hrow'
    rw [cacheKey_eq rfl] at hkey
    obtain rfl := Option.some.inj hkey
    obtain rfl := Option.some.inj (hrow.symm.trans hrow')
    rfl
  exact ⟨_, _, _, (sound_runs_iff sampleDigest_injective _ _).mp (hrun.snoc ⟨hadmits, hhit⟩),
    List.mem_cons_self⟩

/-- A question is served the answer to a shorter one. -/
theorem short_answer_served : ¬ ∀ hexdigest : String → String, Function.Injective hexdigest →
    ∀ (es : List (Event Nat)) (w : World Nat), Run (Step hexdigest) World.fresh es w → Sound w := by
  intro h
  obtain ⟨w, hrun, hidle, hrow⟩ := run_answered (rfl : shortQuestion.useCache = true)
  have hhit : Step sampleDigest w (.hit 1 context question) _ := .hit hidle (cacheKey_eq rfl) hrow
  have hsound := h _ sampleDigest_injective _ _ (hrun.forget.snoc hhit)
  have hlimit := (hsound _ List.mem_cons_self).2.2.maxTokens
  exact absurd hlimit (by decide)

end Sample

end RfpPlatform.LlmCache
