import RfpPlatform.BoundedMailbox
import RfpPlatform.KeyedTable
import RfpPlatform.PyValue
import RfpPlatform.TransitionRuns

namespace RfpPlatform.LogFanout

open BoundedMailbox TransitionRuns

section Entries

inductive DevLevel
  | debug | info | warn | error | success | agent | rag | llm | critic
  deriving DecidableEq

inductive AgentLevel
  | progress | success | warning | error
  deriving DecidableEq

structure DevEntry where
  ts : String
  level : DevLevel
  agent : String
  message : String
  data : List (String × Json)
  runId : Option String
  orgId : Option String
  elapsedMs : Option ℤ

structure AgentEntry where
  ts : String
  level : AgentLevel
  agent : String
  message : String
  step : Nat
  total : Nat
  percent : Nat
  runId : Option String
  orgId : Option String

inductive Entry
  | dev (e : DevEntry)
  | agent (e : AgentEntry)

namespace Entry

def orgId : Entry → Option String
  | dev e => e.orgId
  | agent e => e.orgId

def runId : Entry → Option String
  | dev e => e.runId
  | agent e => e.runId

def isDev : Entry → Bool
  | dev _ => true
  | agent _ => false

end Entry

def steps : List (String × Nat) :=
  [("planner", 1), ("ingestion", 2), ("retrieval", 3), ("extraction", 4), ("evaluation", 5),
    ("comparator", 6), ("decision", 7), ("explanation", 8), ("critic", 9)]

def agentEntry (ts : String) (level : AgentLevel) (agent message : String)
    (runId orgId : Option String) : AgentEntry :=
  let step := (steps.lookup (String.ofList (PyText.lower agent))).getD 0
  ⟨ts, level, agent, message, step, 9, step * 100 / 9, runId, orgId⟩

end Entries

section History

variable {α : Type*}

/-- What a `deque(maxlen=k)` has of all that was appended to it. -/
def recent (k : Nat) (xs : List α) : List α := xs.drop (xs.length - k)

/-- `append` on a `deque(maxlen=k)` -/
def pushBounded (k : Nat) (xs : List α) (a : α) : List α := recent k (xs ++ [a])

/-- `entries[-limit:]` -/
def lastOf (limit : ℤ) (xs : List α) : List α :=
  if 0 < limit then xs.drop (xs.length - limit.toNat) else xs.drop (-limit).toNat

/-- What counts as given, where `None` and the empty string do not. -/
def given (s : Option String) : Option String := s.filter (fun s => s ≠ "")

/-- `if wanted:` and then `value == wanted` -/
def asked (wanted value : Option String) : Bool :=
  match given wanted with
  | none => true
  | some s => value = some s

/-- `get_dev_history` and `get_agent_history` on their queue. -/
def history (entries : List Entry) (runId orgId : Option String) (limit : ℤ) : List Entry :=
  lastOf limit ((entries.filter fun e => asked runId e.runId).filter fun e => asked orgId e.orgId)

end History

section Logger

/-- The state of `RFPLogger`, and the entries it has published. -/
structure RFPLogger where
  enabled : Bool
  devQueue : List Entry
  agentQueue : List Entry
  runStarts : Dict String ℚ
  published : List Entry

def sseCapacity : Nat := 500

/-- `if value and value != scope: continue`, read the other way round. -/
def admits (scope : String) (value : Option String) : Bool :=
  match given value with
  | none => true
  | some s => s = scope

inductive Phase
  | opened | devReplayed | live | closed
  deriving DecidableEq

/-- A request to `stream_logs` with the queue it has subscribed. It has sent what it replayed and
then what it sent live; `before` is what was published when it subscribed. -/
structure Stream where
  orgId : String
  runId : Option String
  phase : Phase
  box : Mailbox Entry
  replayed : List Entry
  sentLive : List Entry
  before : List Entry

def Stream.scoped (s : Stream) (e : Entry) : Bool :=
  admits s.orgId e.orgId &&
    match given s.runId with
    | none => true
    | some run => admits run e.runId

def Stream.sent (s : Stream) : List Entry := s.replayed ++ s.sentLive

structure World where
  logger : RFPLogger
  streams : List Stream

def World.start (enabled : Bool) : World := ⟨⟨enabled, [], [], ∅, []⟩, []⟩

def World.publish (w : World) (e : Entry) : World :=
  ⟨{ w.logger with
      devQueue := if e.isDev then pushBounded 2000 w.logger.devQueue e else w.logger.devQueue
      agentQueue := if e.isDev then w.logger.agentQueue else pushBounded 500 w.logger.agentQueue e
      published := w.logger.published ++ [e] },
    w.streams.map fun s => { s with box := s.box.offer sseCapacity e }⟩

def elapsedMs (starts : Dict String ℚ) (runId : Option String) (clock : ℚ) : Option ℤ :=
  match given runId with
  | none => none
  | some run => (starts.get? run).map fun began => PyText.roundHalfEven ((clock - began) * 1000)

def World.dev (w : World) (ts : String) (clock : ℚ) (level : DevLevel) (agent message : String)
    (data : List (String × Json)) (runId orgId : Option String) : World :=
  if w.logger.enabled then
    w.publish (.dev ⟨ts, level, agent, message, data, runId, orgId,
      elapsedMs w.logger.runStarts runId clock⟩)
  else w

def World.agent (w : World) (ts : String) (level : AgentLevel) (agent message : String)
    (runId orgId : Option String) : World :=
  if w.logger.enabled then w.publish (.agent (agentEntry ts level agent message runId orgId)) else w

def World.startRun (w : World) (ts : String) (clock : ℚ) (runId orgId rfpId : String)
    (vendorCount : Nat) (model : String) : World :=
  if w.logger.enabled then
    let began := { w with
      logger := { w.logger with runStarts := w.logger.runStarts.set runId clock } }
    began.dev ts clock .agent "Pipeline" "Evaluation started"
      [("rfp_id", .str rfpId), ("vendors", .num (.fin vendorCount)), ("model", .str model)]
      (some runId) (some orgId)
  else w

def World.endRun (w : World) (ts : String) (clock : ℚ) (runId orgId status : String)
    (recommended : Option String) : World :=
  if w.logger.enabled then
    let elapsed := PyText.round (clock - (w.logger.runStarts.get? runId).getD clock) 2
    let level := if status ∈ ["complete", "completed"] then DevLevel.success else .error
    let ended := { w with
      logger := { w.logger with
        runStarts := w.logger.runStarts.deleteWhere (fun p => p.1 = runId) } }
    ended.dev ts clock level "Pipeline" s!"Evaluation {status} in {PyText.reprRat elapsed}s"
      [("elapsed_s", .num (.fin elapsed)), ("status", .str status),
        ("recommended", (recommended.map .str).getD .null)]
      (some runId) (some orgId)
  else w

end Logger

section Steps

/-- Where the generator of a stream goes on: it replays the two histories, then takes entries off
its queue, and unsubscribes when the client has gone. A client that goes during the replay leaves
its queue behind. -/
inductive Move
  | replayDev | replayAgent | next | disconnect | abandon

def Stream.move (logger : RFPLogger) (s : Stream) : Move → Option Stream
  | .replayDev =>
      if s.phase = .opened then
        some { s with
          phase := .devReplayed
          replayed := history logger.devQueue s.runId (some s.orgId) 200 }
      else none
  | .replayAgent =>
      if s.phase = .devReplayed then
        some { s with
          phase := .live
          replayed := s.replayed ++ history logger.agentQueue s.runId (some s.orgId) 100 }
      else none
  | .next =>
      if s.phase = .live then
        s.box.take.map fun p => { s with
          box := p.2
          sentLive := if s.scoped p.1 then s.sentLive ++ [p.1] else s.sentLive }
      else none
  | .disconnect =>
      if s.phase = .live then some { s with phase := .closed, box := s.box.leave } else none
  | .abandon =>
      if s.phase = .opened ∨ s.phase = .devReplayed then some { s with phase := .closed } else none

inductive Label
  | dev (ts : String) (clock : ℚ) (level : DevLevel) (agent message : String)
      (data : List (String × Json)) (runId orgId : Option String)
  | agent (ts : String) (level : AgentLevel) (agent message : String) (runId orgId : Option String)
  | startRun (ts : String) (clock : ℚ) (runId orgId rfpId : String) (vendorCount : Nat)
      (model : String)
  | endRun (ts : String) (clock : ℚ) (runId orgId status : String) (recommended : Option String)
  | subscribe (orgId : String) (runId : Option String)
  | stream (i : Nat) (m : Move)

def World.apply (w : World) : Label → Option World
  | .dev ts clock level agent message data runId orgId =>
      some (w.dev ts clock level agent message data runId orgId)
  | .agent ts level agent message runId orgId => some (w.agent ts level agent message runId orgId)
  | .startRun ts clock runId orgId rfpId vendorCount model =>
      some (w.startRun ts clock runId orgId rfpId vendorCount model)
  | .endRun ts clock runId orgId status recommended =>
      some (w.endRun ts clock runId orgId status recommended)
  | .subscribe orgId runId =>
      some { w with
        streams := w.streams ++ [⟨orgId, runId, .opened, .opened, [], [], w.logger.published⟩] }
  | .stream i m =>
      w.streams[i]?.bind fun s =>
        (s.move w.logger m).map fun s' => { w with streams := w.streams.set i s' }

def Step (w : World) (a : Label) (w' : World) : Prop := w.apply a = some w'

end Steps

section Histories

variable {α : Type*}

theorem pushBounded_recent (k : Nat) (xs : List α) (a : α) :
    pushBounded k (recent k xs) a = recent k (xs ++ [a]) := by
  by_cases h : xs.length ≤ k
  · have hxs : recent k xs = xs := by rw [recent, Nat.sub_eq_zero_of_le h, List.drop_zero]
    rw [hxs, pushBounded]
  · have hdrop : recent k xs ++ [a] = (xs ++ [a]).drop (xs.length - k) :=
      (List.drop_append_of_le_length (Nat.sub_le _ _)).symm
    rw [pushBounded, recent, hdrop, List.drop_drop, List.length_drop, List.length_append, recent,
      List.length_append]
    congr 1
    omega

theorem mem_lastOf {limit : ℤ} {xs : List α} {a : α} (h : a ∈ lastOf limit xs) : a ∈ xs := by
  rw [lastOf] at h
  split at h <;> exact List.mem_of_mem_drop h

theorem given_eq_some {s : Option String} {t : String} :
    given s = some t ↔ s = some t ∧ t ≠ "" := by
  simp only [given, Option.filter_eq_some_iff, decide_eq_true_eq]

theorem asked_iff {wanted value : Option String} :
    asked wanted value = true ↔ ∀ s, given wanted = some s → value = some s := by
  rw [asked]
  cases given wanted with
  | none => simp
  | some s => simp

theorem admits_iff {scope : String} {value : Option String} :
    admits scope value = true ↔ ∀ s, given value = some s → s = scope := by
  rw [admits]
  cases given value with
  | none => simp
  | some s => simp

theorem mem_history {entries : List Entry} {runId orgId : Option String} {limit : ℤ} {e : Entry}
    (h : e ∈ history entries runId orgId limit) :
    e ∈ entries ∧ asked runId e.runId = true ∧ asked orgId e.orgId = true := by
  have hmem := mem_lastOf h
  rw [List.mem_filter, List.mem_filter] at hmem
  exact ⟨hmem.1.1, hmem.1.2, hmem.2⟩

theorem mem_of_mem_recent {k : Nat} {xs : List α} {a : α} (h : a ∈ recent k xs) : a ∈ xs :=
  List.mem_of_mem_drop h

end Histories

section Invariant

/-- The developer entries that a stream replays when the given entries have been published. -/
def devReplay (s : Stream) (published : List Entry) : List Entry :=
  history (recent 2000 (published.filter Entry.isDev)) s.runId (some s.orgId) 200

def agentReplay (s : Stream) (published : List Entry) : List Entry :=
  history (recent 500 (published.filter fun e => !e.isDev)) s.runId (some s.orgId) 100

/-- The replay is of two moments after the subscription. -/
def ReplayedAt (published : List Entry) (s : Stream) : Prop :=
  match s.phase with
  | .opened => s.replayed = []
  | .devReplayed => ∃ p, s.before <+: p ∧ p <+: published ∧ s.replayed = devReplay s p
  | .live => ∃ p q, s.before <+: p ∧ p <+: q ∧ q <+: published ∧
      s.replayed = devReplay s p ++ agentReplay s q
  | .closed => ∃ p q, s.before <+: p ∧ p <+: q ∧ q <+: published ∧
      s.replayed <+: devReplay s p ++ agentReplay s q

structure StreamInv (published : List Entry) (s : Stream) : Prop where
  delivered : ∃ since, published = s.before ++ since ∧ s.box.Holds sseCapacity since
  given_up : s.phase ≠ .closed → s.box.subscribed = false → sseCapacity ≤ s.box.volume
  filtered : s.sentLive = s.box.taken.filter s.scoped
  replay : ReplayedAt published s

structure Inv (w : World) : Prop where
  dev : w.logger.devQueue = recent 2000 (w.logger.published.filter Entry.isDev)
  agent : w.logger.agentQueue = recent 500 (w.logger.published.filter fun e => !e.isDev)
  streams : ∀ s ∈ w.streams, StreamInv w.logger.published s

variable {w w' : World} {s s' : Stream} {published : List Entry} {e : Entry}

theorem ReplayedAt.publish (h : ReplayedAt published s) (box : Mailbox Entry) :
    ReplayedAt (published ++ [e]) { s with box := box } := by
  simp only [ReplayedAt] at h ⊢
  cases hp : s.phase with
  | opened =>
      rw [hp] at h
      exact h
  | devReplayed =>
      rw [hp] at h
      obtain ⟨p, hb, hpub, hr⟩ := h
      exact ⟨p, hb, hpub.trans (List.prefix_append _ _), hr⟩
  | live =>
      rw [hp] at h
      obtain ⟨p, q, hb, hpq, hpub, hr⟩ := h
      exact ⟨p, q, hb, hpq, hpub.trans (List.prefix_append _ _), hr⟩
  | closed =>
      rw [hp] at h
      obtain ⟨p, q, hb, hpq, hpub, hr⟩ := h
      exact ⟨p, q, hb, hpq, hpub.trans (List.prefix_append _ _), hr⟩

theorem StreamInv.publish (h : StreamInv published s) (e : Entry) :
    StreamInv (published ++ [e]) { s with box := s.box.offer sseCapacity e } := by
  obtain ⟨since, hsince, hbox⟩ := h.delivered
  refine ⟨⟨since ++ [e], ?_, hbox.offer e⟩, fun hp => Mailbox.volume_offer (h.given_up hp) e, ?_,
    h.replay.publish _⟩
  · rw [hsince, List.append_assoc]
  · have htaken : (s.box.offer sseCapacity e).taken = s.box.taken := by
      rw [Mailbox.offer]
      split_ifs <;> rfl
    exact h.filtered.trans (by rw [← htaken]; rfl)

theorem Inv.publish (h : Inv w) (e : Entry) : Inv (w.publish e) := by
  refine ⟨?_, ?_, ?_⟩
  · change (if e.isDev then _ else _) = recent 2000 ((w.logger.published ++ [e]).filter _)
    rw [List.filter_append, h.dev]
    cases he : e.isDev with
    | false => simp [he]
    | true => simp [he, pushBounded_recent]
  · change (if e.isDev then _ else _) = recent 500 ((w.logger.published ++ [e]).filter _)
    rw [List.filter_append, h.agent]
    cases he : e.isDev with
    | false => simp [he, pushBounded_recent]
    | true => simp [he]
  · intro s hs
    obtain ⟨s₀, hs₀, rfl⟩ := List.mem_map.mp hs
    exact (h.streams s₀ hs₀).publish e

theorem StreamInv.opened (orgId : String) (runId : Option String) :
    StreamInv published ⟨orgId, runId, .opened, .opened, [], [], published⟩ :=
  ⟨⟨[], (List.append_nil _).symm, .opened⟩, fun _ hf => (by cases hf), rfl, rfl⟩

theorem ReplayedAt.abandon (h : ReplayedAt published s) (hbefore : s.before <+: published)
    (hp : s.phase = .opened ∨ s.phase = .devReplayed) :
    ReplayedAt published { s with phase := .closed } := by
  rw [ReplayedAt] at h
  rcases hp with hp | hp
  · rw [hp] at h
    change s.replayed = [] at h
    refine ⟨published, published, hbefore, List.prefix_rfl, List.prefix_rfl, ?_⟩
    change s.replayed <+: _
    rw [h]
    exact List.nil_prefix
  · rw [hp] at h
    obtain ⟨p, hb, hpub, hr⟩ := h
    refine ⟨p, published, hb, hpub, List.prefix_rfl, ?_⟩
    change s.replayed <+: _
    rw [hr]
    exact List.prefix_append _ _

theorem ReplayedAt.close (h : ReplayedAt published s) (hp : s.phase = .live)
    (box : Mailbox Entry) : ReplayedAt published { s with phase := .closed, box := box } := by
  rw [ReplayedAt, hp] at h
  obtain ⟨p, q, hb, hpq, hpub, hr⟩ := h
  refine ⟨p, q, hb, hpq, hpub, ?_⟩
  change s.replayed <+: _
  rw [hr]
  exact List.prefix_rfl

theorem StreamInv.move {logger : RFPLogger} {m : Move}
    (hdev : logger.devQueue = recent 2000 (logger.published.filter Entry.isDev))
    (hagent : logger.agentQueue = recent 500 (logger.published.filter fun e => !e.isDev))
    (h : StreamInv logger.published s) (hm : s.move logger m = some s') :
    StreamInv logger.published s' := by
  have hbefore : s.before <+: logger.published := by
    obtain ⟨since, hsince, -⟩ := h.delivered
    exact ⟨since, hsince.symm⟩
  cases m with
  | replayDev =>
      obtain ⟨hp, hm⟩ := Option.ite_none_right_eq_some.mp hm
      obtain rfl := Option.some.inj hm
      refine ⟨h.delivered, fun _ => h.given_up (by simp [hp]), h.filtered, ?_⟩
      exact ⟨logger.published, hbefore, List.prefix_rfl, by rw [devReplay, ← hdev]⟩
  | replayAgent =>
      obtain ⟨hp, hm⟩ := Option.ite_none_right_eq_some.mp hm
      obtain rfl := Option.some.inj hm
      refine ⟨h.delivered, fun _ => h.given_up (by simp [hp]), h.filtered, ?_⟩
      have hreplay := h.replay
      rw [ReplayedAt, hp] at hreplay
      obtain ⟨p, hb, hpub, hr⟩ := hreplay
      refine ⟨p, logger.published, hb, hpub, List.prefix_rfl, ?_⟩
      change s.replayed ++ history logger.agentQueue s.runId (some s.orgId) 100 = _
      rw [hr, hagent]
      rfl
  | next =>
      obtain ⟨hp, hm⟩ := Option.ite_none_right_eq_some.mp hm
      obtain ⟨⟨e, box⟩, htake, rfl⟩ := Option.map_eq_some_iff.mp hm
      obtain ⟨since, hsince, hbox⟩ := h.delivered
      refine ⟨⟨since, hsince, hbox.take htake⟩, fun hc hf => ?_, ?_, ?_⟩
      · rw [Mailbox.volume_take htake]
        obtain ⟨rest, -, rfl⟩ := Mailbox.take_eq_some.mp htake
        exact h.given_up hc hf
      · obtain ⟨rest, -, rfl⟩ := Mailbox.take_eq_some.mp htake
        change (if s.scoped e then s.sentLive ++ [e] else s.sentLive) =
          (s.box.taken ++ [e]).filter s.scoped
        rw [List.filter_append, ← h.filtered]
        by_cases he : s.scoped e = true <;> simp [he]
      · have hreplay := h.replay
        rw [ReplayedAt, hp] at hreplay
        rw [ReplayedAt, hp]
        exact hreplay
  | disconnect =>
      obtain ⟨hp, hm⟩ := Option.ite_none_right_eq_some.mp hm
      obtain rfl := Option.some.inj hm
      obtain ⟨since, hsince, hbox⟩ := h.delivered
      exact ⟨⟨since, hsince, hbox.leave⟩, fun hc => absurd rfl hc, h.filtered,
        h.replay.close hp _⟩
  | abandon =>
      obtain ⟨hp, hm⟩ := Option.ite_none_right_eq_some.mp hm
      obtain rfl := Option.some.inj hm
      exact ⟨h.delivered, fun hc => absurd rfl hc, h.filtered, h.replay.abandon hbefore hp⟩

theorem Inv.dev' (h : Inv w) (ts : String) (clock : ℚ) (level : DevLevel)
    (agent message : String) (data : List (String × Json)) (runId orgId : Option String) :
    Inv (w.dev ts clock level agent message data runId orgId) := by
  rw [World.dev]
  split_ifs
  · exact h.publish _
  · exact h

theorem Inv.withStarts (h : Inv w) (starts : Dict String ℚ) :
    Inv { w with logger := { w.logger with runStarts := starts } } := ⟨h.dev, h.agent, h.streams⟩

theorem Inv.agent' (h : Inv w) (ts : String) (level : AgentLevel) (agent message : String)
    (runId orgId : Option String) : Inv (w.agent ts level agent message runId orgId) := by
  rw [World.agent]
  split_ifs
  · exact h.publish _
  · exact h

theorem Inv.startRun (h : Inv w) (ts : String) (clock : ℚ) (runId orgId rfpId : String)
    (vendorCount : Nat) (model : String) :
    Inv (w.startRun ts clock runId orgId rfpId vendorCount model) := by
  rw [World.startRun]
  split_ifs
  · exact (h.withStarts (w.logger.runStarts.set runId clock)).dev' ..
  · exact h

theorem Inv.endRun (h : Inv w) (ts : String) (clock : ℚ) (runId orgId status : String)
    (recommended : Option String) : Inv (w.endRun ts clock runId orgId status recommended) := by
  by_cases hen : w.logger.enabled = true
  · rw [World.endRun, if_pos hen]
    exact (h.withStarts (w.logger.runStarts.deleteWhere fun p => p.1 = runId)).dev' ..
  · rw [World.endRun, if_neg hen]
    exact h

theorem Inv.step {a : Label} (h : Inv w) (hs : Step w a w') : Inv w' := by
  cases a with
  | dev ts clock level agent message data runId orgId =>
      obtain rfl := Option.some.inj hs
      exact h.dev' ..
  | agent ts level agent message runId orgId =>
      obtain rfl := Option.some.inj hs
      exact h.agent' ..
  | startRun ts clock runId orgId rfpId vendorCount model =>
      obtain rfl := Option.some.inj hs
      exact h.startRun ..
  | endRun ts clock runId orgId status recommended =>
      obtain rfl := Option.some.inj hs
      exact h.endRun ..
  | subscribe orgId runId =>
      obtain rfl := Option.some.inj hs
      refine ⟨h.dev, h.agent, fun s hmem => ?_⟩
      rcases List.mem_append.mp hmem with hmem | hmem
      · exact h.streams s hmem
      · rw [List.mem_singleton.mp hmem]
        exact .opened orgId runId
  | stream i m =>
      obtain ⟨s, hi, hm⟩ := Option.bind_eq_some_iff.mp hs
      obtain ⟨s', hmove, rfl⟩ := Option.map_eq_some_iff.mp hm
      refine ⟨h.dev, h.agent, fun t hmem => ?_⟩
      rcases List.mem_or_eq_of_mem_set hmem with hmem | rfl
      · exact h.streams t hmem
      · exact (h.streams s (List.mem_of_getElem? hi)).move h.dev h.agent hmove

theorem Inv.start (enabled : Bool) : Inv (.start enabled) :=
  ⟨List.drop_nil.symm, List.drop_nil.symm, fun _ hs => by cases hs⟩

theorem inv_of_run {enabled : Bool} {as : List Label} (h : Run Step (.start enabled) as w) :
    Inv w :=
  h.invariant (fun _ _ _ hs hst => hs.step hst) (.start enabled)

/-- Whatever is logged, subscribed, read and left in any order, a stream has taken off its queue
what was published since it subscribed, in order and without gaps; what it sends of that is what
its scope lets through, after a replay of the histories as of moments after the subscription. It
misses an entry only after it was given up, with five hundred entries behind it. -/
theorem stream_delivers {enabled : Bool} {as : List Label} (h : Run Step (.start enabled) as w)
    (hs : s ∈ w.streams) :
    (∃ missed, w.logger.published = s.before ++ (s.box.taken ++ s.box.queue ++ missed) ∧
      (s.box.subscribed = true → missed = []) ∧
      (missed ≠ [] → s.phase ≠ .closed → 500 ≤ s.box.taken.length + s.box.queue.length)) ∧
    s.box.queue.length ≤ 500 ∧
    s.sentLive = s.box.taken.filter s.scoped ∧
    (s.phase = .live → ∃ p q, s.before <+: p ∧ p <+: q ∧ q <+: w.logger.published ∧
      s.sent = devReplay s p ++ agentReplay s q ++ s.sentLive) := by
  have hinv := (inv_of_run h).streams s hs
  obtain ⟨since, hsince, hbox⟩ := hinv.delivered
  obtain ⟨missed, hsplit, hmissed⟩ := hbox.split
  refine ⟨⟨missed, by rw [hsince, hsplit], hmissed, fun hne hp => ?_⟩, hbox.bounded,
    hinv.filtered, fun hp => ?_⟩
  · apply hinv.given_up hp
    by_contra hsub
    exact hne (hmissed (by simpa using hsub))
  · have hreplay := hinv.replay
    rw [ReplayedAt, hp] at hreplay
    obtain ⟨p, q, hb, hpq, hpub, hr⟩ := hreplay
    exact ⟨p, q, hb, hpq, hpub, by rw [Stream.sent, hr]⟩

/-- An entry that is logged between the subscription and the replay. -/
def earlyEntry : List Label :=
  [.subscribe "org" none, .agent "t" .progress "planner" "Planning" (some "run") (some "org"),
    .stream 0 .replayDev, .stream 0 .replayAgent, .stream 0 .next]

theorem earlyEntry_run : ∃ w e, Run Step (.start true) earlyEntry w ∧
    w.streams = [⟨"org", none, .live, ⟨true, [], [e]⟩, [e], [e], []⟩] := by
  refine ⟨_, .agent (agentEntry "t" .progress "planner" "Planning" (some "run") (some "org")),
    .cons rfl (.cons rfl (.cons rfl (.cons rfl (.cons rfl (.nil _))))), ?_⟩
  rfl

/-- The entry is sent twice: it is in the history and in the queue. -/
theorem early_entry_delivered : ∃ w, Run Step (.start true) earlyEntry w ∧ ∃ s ∈ w.streams,
    s.sent.length = 2 ∧ s.sentLive = s.box.taken.filter s.scoped := by
  obtain ⟨w, e, hrun, hstreams⟩ := earlyEntry_run
  have hs : ⟨"org", none, .live, ⟨true, [], [e]⟩, [e], [e], []⟩ ∈ w.streams := by
    rw [hstreams]
    exact List.mem_singleton_self _
  exact ⟨w, hrun, _, hs, rfl, (stream_delivers hrun hs).2.2.1⟩

theorem mem_devReplay {p : List Entry} (h : e ∈ devReplay s p) :
    e ∈ p ∧ asked s.runId e.runId = true ∧ asked (some s.orgId) e.orgId = true := by
  obtain ⟨hmem, hasked⟩ := mem_history h
  exact ⟨List.mem_of_mem_filter (mem_of_mem_recent hmem), hasked⟩

theorem mem_agentReplay {p : List Entry} (h : e ∈ agentReplay s p) :
    e ∈ p ∧ asked s.runId e.runId = true ∧ asked (some s.orgId) e.orgId = true := by
  obtain ⟨hmem, hasked⟩ := mem_history h
  exact ⟨List.mem_of_mem_filter (mem_of_mem_recent hmem), hasked⟩

theorem mem_replayed (h : ReplayedAt published s) (he : e ∈ s.replayed) :
    e ∈ published ∧ asked s.runId e.runId = true ∧ asked (some s.orgId) e.orgId = true := by
  have hboth : ∀ {p q : List Entry}, p <+: q → q <+: published →
      e ∈ devReplay s p ++ agentReplay s q →
      e ∈ published ∧ asked s.runId e.runId = true ∧ asked (some s.orgId) e.orgId = true := by
    intro p q hpq hq hmem
    rcases List.mem_append.mp hmem with hmem | hmem
    · obtain ⟨hp, hasked⟩ := mem_devReplay hmem
      exact ⟨hq.subset (hpq.subset hp), hasked⟩
    · obtain ⟨hp, hasked⟩ := mem_agentReplay hmem
      exact ⟨hq.subset hp, hasked⟩
  rw [ReplayedAt] at h
  cases hp : s.phase with
  | opened =>
      rw [hp] at h
      rw [show s.replayed = [] from h] at he
      cases he
  | devReplayed =>
      rw [hp] at h
      obtain ⟨p, -, hpub, hr⟩ := h
      rw [hr] at he
      exact hboth hpub List.prefix_rfl (List.mem_append_left _ he)
  | live =>
      rw [hp] at h
      obtain ⟨p, q, -, hpq, hpub, hr⟩ := h
      rw [hr] at he
      exact hboth hpq hpub he
  | closed =>
      rw [hp] at h
      obtain ⟨p, q, -, hpq, hpub, hr⟩ := h
      exact hboth hpq hpub (hr.subset he)

theorem scoped_iff : s.scoped e = true ↔
    (∀ org, given e.orgId = some org → org = s.orgId) ∧
    ∀ run, given s.runId = some run → ∀ r, given e.runId = some r → r = run := by
  rw [Stream.scoped, Bool.and_eq_true, admits_iff]
  cases given s.runId with
  | none => simp
  | some run => simp [admits_iff]

/-- No entry that names another organisation, or another run than the one that was asked for, is
ever sent to a stream, and nothing is sent that was not logged. -/
theorem stream_isolated {enabled : Bool} {as : List Label} (h : Run Step (.start enabled) as w)
    (hs : s ∈ w.streams) (horg : s.orgId ≠ "") (he : e ∈ s.sent) :
    e ∈ w.logger.published ∧ (∀ org, given e.orgId = some org → org = s.orgId) ∧
      ∀ run, given s.runId = some run → ∀ r, given e.runId = some r → r = run := by
  have hinv := (inv_of_run h).streams s hs
  rcases List.mem_append.mp he with he | he
  · obtain ⟨hpub, hrun, hown⟩ := mem_replayed hinv.replay he
    have hvalue := asked_iff.mp hown s.orgId (given_eq_some.mpr ⟨rfl, horg⟩)
    refine ⟨hpub, fun org hg => ?_, fun run hg r hr => ?_⟩
    · have hsome := (given_eq_some.mp hg).1
      rw [hvalue] at hsome
      exact (Option.some.inj hsome).symm
    · have hsome := (given_eq_some.mp hr).1
      rw [asked_iff.mp hrun run hg] at hsome
      exact (Option.some.inj hsome).symm
  · rw [hinv.filtered, List.mem_filter] at he
    obtain ⟨htaken, hscoped⟩ := he
    obtain ⟨since, hsince, hbox⟩ := hinv.delivered
    obtain ⟨missed, hsplit, -⟩ := hbox.split
    refine ⟨?_, scoped_iff.mp hscoped⟩
    rw [hsince, hsplit]
    simp [htaken]

theorem early_entry_isolated : ∃ w, Run Step (.start true) earlyEntry w ∧ ∃ s ∈ w.streams,
    ∃ e ∈ s.sent, e ∈ w.logger.published ∧ ∀ org, given e.orgId = some org → org = "org" := by
  obtain ⟨w, e, hrun, hstreams⟩ := earlyEntry_run
  have hs : ⟨"org", none, .live, ⟨true, [], [e]⟩, [e], [e], []⟩ ∈ w.streams := by
    rw [hstreams]
    exact List.mem_singleton_self _
  have he : e ∈ Stream.sent ⟨"org", none, .live, ⟨true, [], [e]⟩, [e], [e], []⟩ :=
    List.mem_cons_self
  obtain ⟨hpub, horg, -⟩ := stream_isolated hrun hs (by simp) he
  exact ⟨w, hrun, _, hs, e, he, hpub, horg⟩

end Invariant

end RfpPlatform.LogFanout
