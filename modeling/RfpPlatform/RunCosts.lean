import RfpPlatform.GroupTotals
import RfpPlatform.PyText
import RfpPlatform.Rounding
import RfpPlatform.SpawnedTasks

namespace RfpPlatform.RunCosts

open GroupTotals SpawnedTasks TransitionRuns

section Pricing

/-- US dollars for a million tokens read and written, by a part of the name of the model. The
first name that occurs counts. -/
def pricing : List (String × ℚ × ℚ) :=
  [("gpt-4o-mini", 15 / 100, 60 / 100), ("gpt-4o", 250 / 100, 10), ("gpt-4-turbo", 10, 30),
    ("gpt-4", 30, 60), ("gpt-3.5", 50 / 100, 150 / 100), ("o1-mini", 3, 12), ("o1", 15, 60),
    ("o3-mini", 110 / 100, 440 / 100), ("claude-haiku", 25 / 100, 125 / 100),
    ("claude-3-5-haiku", 80 / 100, 4), ("claude-sonnet", 3, 15), ("claude-3-5-sonnet", 3, 15),
    ("claude-opus", 15, 75), ("llama-3", 59 / 100, 79 / 100), ("llama-3.1", 59 / 100, 79 / 100),
    ("qwen", 0, 0), ("mistral", 2, 6), ("ollama", 0, 0)]

def defaultRates : ℚ × ℚ := (5, 15)

def ratesOf (model : String) : ℚ × ℚ :=
  ((pricing.find? fun p => PyText.occurs p.1.toList (PyText.lower model)).map Prod.snd).getD
    defaultRates

def estimateCost (model : String) (promptTokens completionTokens : Nat) : ℚ :=
  (promptTokens * (ratesOf model).1 + completionTokens * (ratesOf model).2) / 1000000

end Pricing

section Accumulator

structure LLMCall where
  agent : String
  model : String
  promptTokens : Nat
  completionTokens : Nat
  latencyMs : Nat
  costUsd : ℚ

def LLMCall.tokens (c : LLMCall) : Nat := c.promptTokens + c.completionTokens

structure RunCostAccumulator where
  runId : String
  calls : List LLMCall
  cacheHits : Nat
  cacheMisses : Nat
  cacheSavingsUsd : ℚ

structure AgentCosts where
  calls : Nat
  tokens : Nat
  costUsd : ℚ
  latencyMs : Nat

def AgentCosts.zero : AgentCosts := ⟨0, 0, 0, 0⟩

def AgentCosts.add (a : AgentCosts) (c : LLMCall) : AgentCosts :=
  ⟨a.calls + 1, a.tokens + c.tokens, a.costUsd + c.costUsd, a.latencyMs + c.latencyMs⟩

def AgentCosts.rounded (a : AgentCosts) : AgentCosts :=
  { a with costUsd := PyText.round a.costUsd 6 }

structure Summary where
  runId : String
  totalCalls : Nat
  totalTokens : Nat
  totalPromptTokens : Nat
  totalCompletionTokens : Nat
  totalCostUsd : ℚ
  totalLatencyMs : Nat
  cacheHits : Nat
  cacheMisses : Nat
  cacheHitRate : ℚ
  cacheSavingsUsd : ℚ
  byAgent : Dict String AgentCosts

namespace RunCostAccumulator

def fresh (runId : String) : RunCostAccumulator := ⟨runId, [], 0, 0, 0⟩

variable (acc : RunCostAccumulator)

def totalPromptTokens : Nat := (acc.calls.map LLMCall.promptTokens).sum

def totalCompletionTokens : Nat := (acc.calls.map LLMCall.completionTokens).sum

def totalTokens : Nat := acc.totalPromptTokens + acc.totalCompletionTokens

def totalCostUsd : ℚ := (acc.calls.map LLMCall.costUsd).sum

def totalLatencyMs : Nat := (acc.calls.map LLMCall.latencyMs).sum

def cacheHitRate : ℚ :=
  if acc.cacheHits + acc.cacheMisses = 0 then 0
  else acc.cacheHits / ((acc.cacheHits + acc.cacheMisses : Nat) : ℚ)

def byAgent : Dict String AgentCosts := groupBy LLMCall.agent .zero .add acc.calls

def summary : Summary where
  runId := acc.runId
  totalCalls := acc.calls.length
  totalTokens := acc.totalTokens
  totalPromptTokens := acc.totalPromptTokens
  totalCompletionTokens := acc.totalCompletionTokens
  totalCostUsd := PyText.round acc.totalCostUsd 6
  totalLatencyMs := acc.totalLatencyMs
  cacheHits := acc.cacheHits
  cacheMisses := acc.cacheMisses
  cacheHitRate := PyText.round acc.cacheHitRate 4
  cacheSavingsUsd := PyText.round acc.cacheSavingsUsd 6
  byAgent := acc.byAgent.updateWhere (fun _ => true) (fun p => (p.1, p.2.rounded)) fun _ => rfl

end RunCostAccumulator

end Accumulator

section Contexts

/-- What a context manager has to put back. -/
inductive Frame
  | run (runId : Option String) (agent : String)
  | agent (agent : String)

/-- The context variables of a task, with the context managers that it is in. -/
structure Context where
  runId : Option String
  agent : String
  frames : List Frame

def Context.default : Context := ⟨none, "unknown", []⟩

/-- A new task starts with a copy of the variables, outside of the context managers. -/
def Context.copy (c : Context) : Context := { c with frames := [] }

inductive Op
  | setRunContext (runId agent : String)
  | setCurrentAgent (agent : String)
  | leave
  | markAgent (agent : String)
  | recordLlmCall (model : String) (promptTokens completionTokens latencyMs : Nat)
  | recordCacheEvent (hit : Bool) (model : String) (promptTokens completionTokens : Option Nat)

def Context.after (c : Context) : Op → Context
  | .setRunContext runId agent => ⟨some runId, agent, .run c.runId c.agent :: c.frames⟩
  | .setCurrentAgent agent => ⟨c.runId, agent, .agent c.agent :: c.frames⟩
  | .leave =>
      match c.frames with
      | [] => c
      | .run runId agent :: frames => ⟨runId, agent, frames⟩
      | .agent agent :: frames => ⟨c.runId, agent, frames⟩
  | .markAgent agent => { c with agent := agent }
  | .recordLlmCall .. | .recordCacheEvent .. => c

abbrev Registry := Dict String RunCostAccumulator

/-- What a hit saves, when the cached row has its token counts. -/
def savings (model : String) : Option Nat → Option Nat → ℚ
  | some p, some q => estimateCost model p q
  | _, _ => 0

/-- What an operation of a task makes of the accumulators. -/
def Registry.perform (reg : Registry) (c : Context) : Op → Registry
  | .setRunContext runId _ =>
      if runId ∈ reg.keys then reg else reg.set runId (.fresh runId)
  | .recordLlmCall model p q latency =>
      match c.runId with
      | none => reg
      | some runId =>
          match reg.get? runId with
          | none => reg
          | some acc => reg.set runId { acc with
              calls := acc.calls ++ [⟨c.agent, model, p, q, latency, estimateCost model p q⟩] }
  | .recordCacheEvent hit model p q =>
      match c.runId with
      | none => reg
      | some runId =>
          match reg.get? runId with
          | none => reg
          | some acc =>
              if hit then reg.set runId { acc with
                cacheHits := acc.cacheHits + 1
                cacheSavingsUsd := acc.cacheSavingsUsd + savings model p q }
              else reg.set runId { acc with cacheMisses := acc.cacheMisses + 1 }
  | _ => reg

structure World where
  tasks : List (Context × Prog Op)
  accumulators : Registry

def World.step (w : World) (i : Nat) : Option World :=
  w.tasks[i]?.bind fun t =>
    match t.2 with
    | .done => none
    | .op o rest => some ⟨w.tasks.set i (t.1.after o, rest), w.accumulators.perform t.1 o⟩
    | .spawn child rest => some ⟨w.tasks.set i (t.1, rest) ++ [(t.1.copy, child)], w.accumulators⟩

def World.start (p : Prog Op) : World := ⟨[(.default, p)], ∅⟩

def World.Finished (w : World) : Prop := ∀ t ∈ w.tasks, t.2 = .done

end Contexts

section Events

/-- What an operation leaves behind on a run. -/
inductive Recorded
  | opened
  | call (c : LLMCall)
  | hit (saved : ℚ)
  | miss

def Recorded.call? : Recorded → Option LLMCall
  | call c => some c
  | _ => none

def Recorded.hits : Recorded → Nat
  | hit _ => 1
  | _ => 0

def Recorded.misses : Recorded → Nat
  | miss => 1
  | _ => 0

def Recorded.saved : Recorded → ℚ
  | hit q => q
  | _ => 0

def Context.recorded (c : Context) : Op → List (String × Recorded)
  | .setRunContext runId _ => [(runId, .opened)]
  | .recordLlmCall model p q latency =>
      (c.runId.map fun r =>
        (r, .call ⟨c.agent, model, p, q, latency, estimateCost model p q⟩)).toList
  | .recordCacheEvent hit model p q =>
      (c.runId.map fun r => (r, if hit then .hit (savings model p q) else .miss)).toList
  | _ => []

def costTasks : Tasks Op Context (String × Recorded) :=
  ⟨Context.after, Context.recorded, Context.copy⟩

def RunCostAccumulator.record (acc : RunCostAccumulator) (x : Recorded) : RunCostAccumulator :=
  ⟨acc.runId, acc.calls ++ x.call?.toList, acc.cacheHits + x.hits, acc.cacheMisses + x.misses,
    acc.cacheSavingsUsd + x.saved⟩

def eventsOf (runId : String) (log : List (String × Recorded)) : List Recorded :=
  log.filterMap fun p => if p.1 = runId then some p.2 else none

def built (runId : String) (xs : List Recorded) : RunCostAccumulator :=
  ⟨runId, xs.filterMap Recorded.call?, (xs.map Recorded.hits).sum, (xs.map Recorded.misses).sum,
    (xs.map Recorded.saved).sum⟩

def accOf (runId : String) (log : List (String × Recorded)) : Option RunCostAccumulator :=
  if eventsOf runId log = [] then none else some (built runId (eventsOf runId log))

variable {r k : String} {log : List (String × Recorded)} {x : Recorded} {reg : Registry}
  {c : Context}

theorem built_append (xs : List Recorded) :
    built r (xs ++ [x]) = (built r xs).record x := by
  simp only [built, RunCostAccumulator.record, List.filterMap_append, List.map_append,
    List.sum_append, List.map_singleton, List.sum_singleton]
  cases hx : x.call? with
  | none => simp [hx]
  | some c => simp [hx]

theorem accOf_append : accOf r (log ++ [(k, x)]) =
    if k = r then some (((accOf r log).getD (.fresh r)).record x) else accOf r log := by
  by_cases hk : k = r
  · subst hk
    have hevents : eventsOf k (log ++ [(k, x)]) = eventsOf k log ++ [x] := by
      simp [eventsOf]
    rw [if_pos rfl, accOf, hevents, if_neg (by simp), built_append, accOf]
    by_cases hnil : eventsOf k log = []
    · rw [if_pos hnil, hnil]
      rfl
    · rw [if_neg hnil, Option.getD_some]
  · have hevents : eventsOf r (log ++ [(k, x)]) = eventsOf r log := by
      simp [eventsOf, hk]
    rw [if_neg hk, accOf, hevents, accOf]

/-- Every run that a task is on, or goes back to, has its accumulator. -/
def Opened (log : List (String × Recorded)) (c : Context) : Prop :=
  (∀ r, c.runId = some r → r ∈ log.map Prod.fst) ∧
    ∀ r a, Frame.run (some r) a ∈ c.frames → r ∈ log.map Prod.fst

theorem accOf_ne_none : accOf r log ≠ none ↔ r ∈ log.map Prod.fst := by
  have hnil : eventsOf r log = [] ↔ r ∉ log.map Prod.fst := by
    rw [eventsOf, List.filterMap_eq_nil_iff]
    constructor
    · intro h hr
      obtain ⟨p, hp, rfl⟩ := List.mem_map.mp hr
      simpa using h p hp
    · intro h p hp
      refine if_neg fun hk => h ?_
      rw [← hk]
      exact List.mem_map_of_mem hp
  rw [accOf]
  split_ifs with h
  · simp [hnil.mp h]
  · simp [not_not.mp (mt hnil.mpr h)]

theorem Opened.mono (h : Opened log c) (more : List (String × Recorded)) :
    Opened (log ++ more) c := by
  have hsub : ∀ r, r ∈ log.map Prod.fst → r ∈ (log ++ more).map Prod.fst := fun r hr => by
    rw [List.map_append]
    exact List.mem_append_left _ hr
  exact ⟨fun r hr => hsub r (h.1 r hr), fun r a hf => hsub r (h.2 r a hf)⟩

theorem Opened.copy (h : Opened log c) : Opened log c.copy :=
  ⟨h.1, fun _ _ hf => by cases hf⟩

theorem Opened.after (h : Opened log c) (o : Op) :
    Opened (log ++ c.recorded o) (c.after o) := by
  cases o with
  | setRunContext runId agent =>
      have hmono := h.mono [(runId, .opened)]
      refine ⟨fun r hr => ?_, fun r a hf => ?_⟩
      · obtain rfl := Option.some.inj hr
        simp [Context.recorded]
      · rcases List.mem_cons.mp hf with hf | hf
        · obtain ⟨hr, -⟩ := Frame.run.inj hf
          exact hmono.1 r hr.symm
        · exact hmono.2 r a hf
  | setCurrentAgent agent =>
      have hmono := h.mono []
      refine ⟨hmono.1, fun r a hf => ?_⟩
      rcases List.mem_cons.mp hf with hf | hf
      · cases hf
      · exact hmono.2 r a hf
  | leave =>
      have hmono := h.mono []
      rw [Context.after]
      cases hframes : c.frames with
      | nil => exact hmono
      | cons f frames =>
          have htail : ∀ r a, Frame.run (some r) a ∈ frames →
              r ∈ (log ++ ([] : List (String × Recorded))).map Prod.fst := fun r a hf =>
            hmono.2 r a (hframes ▸ List.mem_cons_of_mem _ hf)
          cases f with
          | run runId agent =>
              refine ⟨fun r hr => ?_, htail⟩
              obtain rfl : runId = some r := hr
              exact hmono.2 r agent (hframes ▸ List.mem_cons_self)
          | agent agent => exact ⟨hmono.1, htail⟩
  | markAgent agent => exact h.mono []
  | recordLlmCall model p q latency => exact h.mono _
  | recordCacheEvent hit model p q => exact h.mono _

/-- A run that a task is on has its accumulator, which takes up what is recorded. -/
theorem get?_set_record (hreg : ∀ r, reg.get? r = accOf r log) (hopen : Opened log c)
    (hk : c.runId = some k) (x : Recorded) : ∃ acc, reg.get? k = some acc ∧
      ∀ r, (reg.set k (acc.record x)).get? r = accOf r (log ++ [(k, x)]) := by
  obtain ⟨acc, hacc⟩ := Option.ne_none_iff_exists'.mp (accOf_ne_none.mpr (hopen.1 k hk))
  refine ⟨acc, (hreg k).trans hacc, fun r => ?_⟩
  rw [accOf_append]
  by_cases hr : k = r
  · subst hr
    rw [if_pos rfl, Dict.get?_set_self, hacc, Option.getD_some]
  · rw [if_neg hr, Dict.get?_set_ne (Ne.symm hr), hreg]

theorem accOf_opened (hacc : accOf k log ≠ none) (r : String) :
    accOf r (log ++ [(k, .opened)]) = accOf r log := by
  obtain ⟨acc, hacc⟩ := Option.ne_none_iff_exists'.mp hacc
  rw [accOf_append]
  split_ifs with hr
  · subst hr
    rw [hacc]
    simp [RunCostAccumulator.record, Recorded.call?, Recorded.hits, Recorded.misses,
      Recorded.saved]
  · rfl

/-- An operation writes on the accumulator of its run what the events of the operation say. -/
theorem get?_perform (hreg : ∀ r, reg.get? r = accOf r log) (hopen : Opened log c) (o : Op)
    (r : String) : (reg.perform c o).get? r = accOf r (log ++ c.recorded o) := by
  have hnothing : reg.get? r = accOf r (log ++ []) := by rw [List.append_nil, hreg]
  cases o with
  | setRunContext runId agent =>
      change (if runId ∈ reg.keys then reg else reg.set runId (.fresh runId)).get? r =
        accOf r (log ++ [(runId, .opened)])
      by_cases hmem : runId ∈ reg.keys
      · obtain ⟨acc, hacc⟩ := Dict.mem_keys.mp hmem
        rw [hreg] at hacc
        rw [if_pos hmem, hreg, accOf_opened (by rw [hacc]; exact Option.some_ne_none _)]
      · have hnone : accOf runId log = none := (hreg runId).symm.trans (Dict.get?_eq_none.mpr hmem)
        rw [if_neg hmem, accOf_append]
        split_ifs with hr
        · subst hr
          rw [Dict.get?_set_self, hnone]
          simp [RunCostAccumulator.record, RunCostAccumulator.fresh, Recorded.call?,
            Recorded.hits, Recorded.misses, Recorded.saved]
        · rw [Dict.get?_set_ne (Ne.symm hr), hreg]
  | setCurrentAgent agent => exact hnothing
  | leave => exact hnothing
  | markAgent agent => exact hnothing
  | recordLlmCall model p q latency =>
      cases hk : c.runId with
      | none => simpa [Registry.perform, Context.recorded, hk] using hnothing
      | some k =>
          obtain ⟨acc, hacc, hset⟩ := get?_set_record hreg hopen hk
            (.call ⟨c.agent, model, p, q, latency, estimateCost model p q⟩)
          simp only [Registry.perform, Context.recorded, hk, hacc, Option.map_some,
            Option.toList_some]
          rw [← hset r]
          simp [RunCostAccumulator.record, Recorded.call?, Recorded.hits, Recorded.misses,
            Recorded.saved]
  | recordCacheEvent hit model p q =>
      cases hk : c.runId with
      | none => simpa [Registry.perform, Context.recorded, hk] using hnothing
      | some k =>
          obtain ⟨acc, hacc, hset⟩ := get?_set_record hreg hopen hk
            (if hit then .hit (savings model p q) else .miss)
          simp only [Registry.perform, Context.recorded, hk, hacc, Option.map_some,
            Option.toList_some]
          rw [← hset r]
          cases hit <;> simp [RunCostAccumulator.record, Recorded.call?, Recorded.hits,
            Recorded.misses, Recorded.saved]

/-- The accumulators beside the tasks, and the log of what the tasks left behind. -/
structure Logged (w : World) (s : Config Op Context (String × Recorded)) : Prop where
  tasks : s.tasks = w.tasks
  accumulators : ∀ r, w.accumulators.get? r = accOf r s.log
  opened : ∀ t ∈ w.tasks, Opened s.log t.1

theorem Logged.start (p : Prog Op) : Logged (.start p) (.start .default p) := by
  refine ⟨rfl, fun r => rfl, fun t ht => ?_⟩
  rw [List.mem_singleton.mp ht]
  exact ⟨fun r hr => (by cases hr), fun r a hf => (by cases hf)⟩

theorem Logged.step {w w' : World} {s : Config Op Context (String × Recorded)} {i : Nat}
    (h : Logged w s) (hw : w.step i = some w') :
    ∃ s', Config.step costTasks s i = some s' ∧ Logged w' s' := by
  obtain ⟨⟨c, p⟩, hi, hstep⟩ := Option.bind_eq_some_iff.mp hw
  have hs : s.tasks[i]? = some (c, p) := by rw [h.tasks, hi]
  have hc : Opened s.log c := h.opened _ (List.mem_of_getElem? hi)
  cases p with
  | done => cases hstep
  | op o rest =>
      obtain rfl := Option.some.inj hstep
      refine ⟨⟨s.tasks.set i (c.after o, rest), s.log ++ c.recorded o⟩, ?_, ?_⟩
      · rw [Config.step, hs]
        rfl
      · refine ⟨by rw [h.tasks], get?_perform h.accumulators hc o, fun t ht => ?_⟩
        rcases List.mem_or_eq_of_mem_set ht with ht | rfl
        · exact (h.opened t ht).mono _
        · exact hc.after o
  | spawn child rest =>
      obtain rfl := Option.some.inj hstep
      refine ⟨⟨s.tasks.set i (c, rest) ++ [(c.copy, child)], s.log⟩, ?_, ?_⟩
      · rw [Config.step, hs]
        rfl
      · refine ⟨by rw [h.tasks], h.accumulators, fun t ht => ?_⟩
        rcases List.mem_append.mp ht with ht | ht
        · rcases List.mem_or_eq_of_mem_set ht with ht | rfl
          · exact h.opened t ht
          · exact hc
        · rw [List.mem_singleton.mp ht]
          exact hc.copy

end Events

section Schedules

/-- Two summaries agree when they differ at most in the order of the agents. -/
structure Summary.Agrees (a b : Summary) : Prop where
  runId : a.runId = b.runId
  totalCalls : a.totalCalls = b.totalCalls
  totalTokens : a.totalTokens = b.totalTokens
  totalPromptTokens : a.totalPromptTokens = b.totalPromptTokens
  totalCompletionTokens : a.totalCompletionTokens = b.totalCompletionTokens
  totalCostUsd : a.totalCostUsd = b.totalCostUsd
  totalLatencyMs : a.totalLatencyMs = b.totalLatencyMs
  cacheHits : a.cacheHits = b.cacheHits
  cacheMisses : a.cacheMisses = b.cacheMisses
  cacheHitRate : a.cacheHitRate = b.cacheHitRate
  cacheSavingsUsd : a.cacheSavingsUsd = b.cacheSavingsUsd
  byAgent : ∀ agent, a.byAgent.get? agent = b.byAgent.get? agent

variable {acc acc' : RunCostAccumulator} {log log' : List (String × Recorded)} {r : String}

instance : RightCommutative AgentCosts.add where
  right_comm a c d := by
    simp only [AgentCosts.add, AgentCosts.mk.injEq, true_and]
    refine ⟨Nat.add_right_comm .., add_right_comm .., Nat.add_right_comm ..⟩

theorem rows_summary_byAgent (acc : RunCostAccumulator) :
    acc.summary.byAgent.rows = acc.byAgent.rows.map fun p => (p.1, p.2.rounded) := rfl

variable (acc : RunCostAccumulator)

theorem values_summary_byAgent :
    acc.summary.byAgent.values = acc.byAgent.values.map AgentCosts.rounded := by
  rw [Dict.values, rows_summary_byAgent, List.map_map, Dict.values, List.map_map]
  rfl

theorem sum_summary_byAgent {M : Type} [AddCancelCommMonoid M] {g : AgentCosts → M}
    {h : LLMCall → M} (hround : ∀ a : AgentCosts, g a.rounded = g a) (hzero : g .zero = 0)
    (hadd : ∀ a c, g (a.add c) = g a + h c) :
    (acc.summary.byAgent.values.map g).sum = (acc.calls.map h).sum := by
  have hgroups : (acc.byAgent.values.map g).sum = (acc.calls.map h).sum :=
    sum_groupBy hzero hadd acc.calls
  rw [values_summary_byAgent, List.map_map, ← hgroups]
  exact congrArg List.sum (List.map_congr_left fun a _ => hround a)

/-- The breakdown by agent splits the totals of the run: the counts exactly, and the costs up to
the rounding of each of them. -/
theorem byAgent_splits_totals (acc : RunCostAccumulator) :
    (acc.summary.byAgent.values.map AgentCosts.calls).sum = acc.summary.totalCalls ∧
    (acc.summary.byAgent.values.map AgentCosts.tokens).sum = acc.summary.totalTokens ∧
    (acc.summary.byAgent.values.map AgentCosts.latencyMs).sum = acc.summary.totalLatencyMs ∧
    |(acc.summary.byAgent.values.map AgentCosts.costUsd).sum - acc.summary.totalCostUsd| ≤
      (acc.summary.byAgent.keys.length + 1) * (1 / (2 * 10 ^ 6)) := by
  refine ⟨?_, ?_, ?_, ?_⟩
  · rw [sum_summary_byAgent (h := fun _ => 1) acc (fun _ => rfl) rfl fun _ _ => rfl]
    simp [RunCostAccumulator.summary]
  · rw [sum_summary_byAgent (h := LLMCall.tokens) acc (fun _ => rfl) rfl fun _ _ => rfl]
    exact List.sum_map_add
  · exact sum_summary_byAgent acc (fun _ => rfl) rfl fun _ _ => rfl
  · have hexact : (acc.byAgent.values.map AgentCosts.costUsd).sum = acc.totalCostUsd :=
      sum_groupBy (g := AgentCosts.costUsd) (h := LLMCall.costUsd) rfl (fun _ _ => rfl) acc.calls
    have hlen : acc.summary.byAgent.keys.length =
        (acc.byAgent.values.map AgentCosts.costUsd).length := by
      simp [Dict.keys, Dict.values, rows_summary_byAgent]
    have hagents := PyText.abs_sum_round_sub_le (k := 6) (acc.byAgent.values.map AgentCosts.costUsd)
    have htotal := PyText.abs_round_sub_le (k := 6) (q := acc.totalCostUsd)
    have hsum : (acc.summary.byAgent.values.map AgentCosts.costUsd).sum =
        ((acc.byAgent.values.map AgentCosts.costUsd).map fun q => PyText.round q 6).sum := by
      rw [values_summary_byAgent, List.map_map, List.map_map]
      rfl
    rw [hsum, PyText.sum_map_round, hexact, hlen]
    calc |((acc.byAgent.values.map AgentCosts.costUsd).map fun q => PyText.round q 6 - q).sum +
          acc.totalCostUsd - PyText.round acc.totalCostUsd 6|
        = |((acc.byAgent.values.map AgentCosts.costUsd).map fun q => PyText.round q 6 - q).sum -
          (PyText.round acc.totalCostUsd 6 - acc.totalCostUsd)| := by ring_nf
      _ ≤ _ := abs_sub _ _
      _ ≤ _ := add_le_add hagents htotal
      _ = _ := by ring

end Schedules

end RfpPlatform.RunCosts
