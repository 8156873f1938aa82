import Mathlib.Logic.Function.Basic
import RfpPlatform.ReportPairing

namespace RfpPlatform.EventStream

open RunRequests RunTasks TransitionRuns

/-- What the stream sends. Entries and the end are marked with the execution of the run that they
belong to. -/
inductive Message
  | event (execution : Nat) (entry : String)
  | heartbeat
  | error
  | done (execution : Nat) (status : RunStatus)

/-- The entry of a message of the given execution. -/
def Message.entry (k : Nat) : Message → Option String
  | .event execution entry => if execution = k then some entry else none
  | _ => none

def Message.isDone : Message → Bool
  | .done .. => true
  | _ => false

/-- The execution that a message is of. -/
def Message.execution : Message → Nat
  | .event execution _ => execution
  | .done execution _ => execution
  | _ => 0

/-- The statuses on which the stream ends. -/
def RunStatus.ends (status : RunStatus) : Bool :=
  status ∈ [RunStatus.complete, .blocked, .failed, .interrupted]

/-- The consumer of `_event_stream`. -/
structure Stream where
  seen : Nat
  closed : Bool
  output : List Message

def Stream.opened : Stream := ⟨0, false, []⟩

def Stream.send (s : Stream) (m : Message) : Stream := { s with output := s.output ++ [m] }

/-- The round of the loop that has read the given row. -/
def Stream.poll (s : Stream) (execution : Nat) (run : RunRow) : Stream :=
  let fresh := run.agentEvents.drop s.seen
  let read : Stream :=
    ⟨s.seen + fresh.length, s.closed, s.output ++ fresh.map (.event execution)⟩
  if RunStatus.ends run.status then { read.send (.done execution run.status) with closed := true }
  else read.send .heartbeat

/-- The run with its requests and tasks, and the stream. The executions are counted by the resets
of the row, and beside it stand all that was appended during each of them, and the position of the
stream when the current one began. -/
structure World where
  system : RunTasks.World
  stream : Stream
  execution : Nat
  base : Nat
  history : Nat → List String

def World.start (runId : String) (system : RunTasks.World) : World :=
  ⟨system, .opened, 0, 0, fun _ => ((rowOf system.db runId).map RunRow.agentEvents).getD []⟩

/-- An event that was appended during the current execution. -/
def World.append (w : World) (entry : String) : World :=
  { w with
    history := Function.update w.history w.execution (w.history w.execution ++ [entry]) }

def World.restart (w : World) : World :=
  { w with
    execution := w.execution + 1
    base := w.stream.seen
    history := Function.update w.history (w.execution + 1) [] }

def World.observe (w : World) : RunTasks.Label → World
  | .write _ .reEvaluate _ => w.restart
  | .task _ _ (some (.event entry)) => w.append entry
  | _ => w

inductive Event
  | system (l : RunTasks.Label)
  | emitted (id : Nat) (entry : String)
  | polled
  | unreachable
  | missing
  | disconnected

def readable (runId orgId : String) (w : World) : Option RunRow :=
  (rowOf w.system.db runId).filter fun run => run.orgId = orgId

/-- The requests and tasks of the run take their steps, the nodes of a task append their events,
and the stream polls, in any order. -/
inductive Step (c : Codec) (runId orgId : String) : World → Event → World → Prop
  | system {w : World} {l : RunTasks.Label} {system : RunTasks.World}
      (hstep : RunTasks.Step c runId w.system l system) :
      Step c runId orgId w (.system l) { w.observe l with system := system }
  | emitted {w : World} {task : Task} {n : PipelineGraph.Node} {s : RunState.PipelineState}
      {entry : String} (htask : task ∈ w.system.tasks) (hphase : task.phase = .at n s) :
      Step c runId orgId w (.emitted task.id entry)
        { w.append entry with
          system := { w.system with db := dbAppendEvent w.system.db runId entry } }
  | polled {w : World} {run : RunRow} (hopen : w.stream.closed = false)
      (hrow : readable runId orgId w = some run) :
      Step c runId orgId w .polled { w with stream := w.stream.poll w.execution run }
  | unreachable {w : World} (hopen : w.stream.closed = false) :
      Step c runId orgId w .unreachable { w with stream := w.stream.send .heartbeat }
  | missing {w : World} (hopen : w.stream.closed = false) (hrow : readable runId orgId w = none) :
      Step c runId orgId w .missing { w with stream := { w.stream.send .error with closed := true } }
  | disconnected {w : World} (hopen : w.stream.closed = false) :
      Step c runId orgId w .disconnected { w with stream := { w.stream with closed := true } }

/-- A stream that has ended on an execution has sent all that was appended during it, once and in
order, before its only end. -/
def Delivered (w : World) : Prop :=
  ∀ k status, .done k status ∈ w.stream.output →
    ∃ before, w.stream.output = before ++ [.done k status] ∧ (∀ m ∈ before, m.isDone = false) ∧
      before.filterMap (Message.entry k) = w.history k

/-- The stream has not ended on the current execution. -/
def Unended (w : World) : Prop := ∀ k status, .done k status ∈ w.stream.output → k ≠ w.execution

/-- A poll that ends the stream does so on an execution that began before it had sent anything, or
that has appended nothing, and no event is appended during an execution that the stream has ended
on. -/
def Admits (runId orgId : String) (w : World) : Event → Prop
  | .polled => ∀ run, readable runId orgId w = some run → RunStatus.ends run.status = true →
      w.base = 0 ∨ run.agentEvents = []
  | .emitted .. => Unended w
  | .system (.task _ _ (some (.event _))) => Unended w
  | _ => True

/-- The row holds all that was appended during the current execution. -/
def Stored (runId : String) (w : World) : Prop :=
  ∀ run, rowOf w.system.db runId = some run → run.agentEvents = w.history w.execution

/-- Where a stream stands in the events of the current execution. -/
structure Position (w : World) : Prop where
  base : w.base ≤ w.stream.seen
  stale : w.stream.seen = w.base ∨ w.stream.seen ≤ (w.history w.execution).length
  sent : w.stream.closed = false → w.stream.output.filterMap (Message.entry w.execution) =
    ((w.history w.execution).take w.stream.seen).drop w.base
  executions : ∀ m ∈ w.stream.output, m.execution ≤ w.execution
  unended : w.stream.closed = false → ∀ m ∈ w.stream.output, m.isDone = false
  last : ∀ k status, .done k status ∈ w.stream.output →
    ∃ before, w.stream.output = before ++ [.done k status] ∧ ∀ m ∈ before, m.isDone = false

section Entries

variable {k : Nat} {out : List Message} {entries : List String}

theorem filterMap_events (k : Nat) (out : List Message) (entries : List String) :
    (out ++ entries.map (Message.event k)).filterMap (Message.entry k) =
      out.filterMap (Message.entry k) ++ entries := by
  rw [List.filterMap_append]
  congr 1
  induction entries with
  | nil => rfl
  | cons entry entries ih =>
      have hentry : Message.entry k (.event k entry) = some entry := if_pos rfl
      rw [List.map_cons, List.filterMap_cons_some hentry, ih]

theorem filterMap_later (h : ∀ m ∈ out, m.execution ≤ k) :
    out.filterMap (Message.entry (k + 1)) = [] := by
  refine List.filterMap_eq_nil_iff.mpr fun m hm => ?_
  cases m with
  | event execution entry =>
      have hle : execution ≤ k := h _ hm
      exact if_neg (by omega)
  | heartbeat | error | done => rfl

theorem drop_take_append {b n : Nat} (hb : b ≤ n) (entries : List String) :
    (entries.take n).drop b ++ entries.drop n = entries.drop b := by
  induction entries generalizing b n with
  | nil => simp
  | cons entry entries ih =>
      cases n with
      | zero =>
          obtain rfl : b = 0 := Nat.le_zero.mp hb
          rfl
      | succ n =>
          cases b with
          | zero => exact List.take_append_drop _ _
          | succ b => exact ih (Nat.le_of_succ_le_succ hb)

theorem drop_eq_self_iff {b : Nat} : entries.drop b = entries ↔ b = 0 ∨ entries = [] := by
  constructor
  · intro h
    have hlength := congrArg List.length h
    rw [List.length_drop] at hlength
    by_cases hb : b = 0
    · exact .inl hb
    · exact .inr (List.eq_nil_of_length_eq_zero (by omega))
  · rintro (rfl | rfl)
    · rfl
    · exact List.drop_nil

end Entries

section Ghost

variable {w : World} {entry : String}

theorem history_append (w : World) (entry : String) :
    (w.append entry).history w.execution = w.history w.execution ++ [entry] :=
  Function.update_self ..

theorem Position.append (hp : Position w) (entry : String) : Position (w.append entry) := by
  refine ⟨hp.base, ?_, fun hopen => ?_, hp.executions, hp.unended, hp.last⟩
  · change w.stream.seen = w.base ∨ w.stream.seen ≤ ((w.append entry).history w.execution).length
    rw [history_append, List.length_append]
    exact hp.stale.imp_right (Nat.le_add_right_of_le)
  · change _ = List.drop w.base (((w.append entry).history w.execution).take w.stream.seen)
    rw [history_append]
    refine (hp.sent hopen).trans ?_
    rcases hp.stale with hseen | hseen
    · rw [hseen, List.drop_take_self, List.drop_take_self]
    · rw [List.take_append_of_le_length hseen]

theorem Position.restart (hp : Position w) : Position w.restart := by
  refine ⟨le_rfl, .inl rfl, fun _ => ?_, fun m hm => Nat.le_succ_of_le (hp.executions m hm),
    hp.unended, hp.last⟩
  change w.stream.output.filterMap (Message.entry (w.execution + 1)) =
    (List.take w.stream.seen _).drop w.stream.seen
  rw [filterMap_later hp.executions, List.drop_take_self]

theorem delivered_append_iff (hd : Delivered w) : Delivered (w.append entry) ↔ Unended w := by
  constructor
  · rintro h k status hdone rfl
    obtain ⟨before, hout, _, hsent⟩ := hd _ _ hdone
    obtain ⟨before', hout', _, hsent'⟩ := h _ _ hdone
    obtain rfl : before = before' :=
      (List.append_inj' (hout.symm.trans hout') rfl).1
    have hgrown := hsent.symm.trans (hsent'.trans (history_append w entry))
    exact List.cons_ne_nil _ _ (List.self_eq_append_right.mp hgrown)
  · intro h k status hdone
    obtain ⟨before, hout, hlast, hsent⟩ := hd k status hdone
    refine ⟨before, hout, hlast, hsent.trans ?_⟩
    exact (Function.update_of_ne (h k status hdone) ..).symm

theorem delivered_restart (hp : Position w) (hd : Delivered w) : Delivered w.restart := by
  intro k status hdone
  obtain ⟨before, hout, hlast, hsent⟩ := hd k status hdone
  have hk : k ≤ w.execution := hp.executions _ hdone
  refine ⟨before, hout, hlast, hsent.trans ?_⟩
  exact (Function.update_of_ne (by omega) ..).symm

end Ghost

section Polls

variable {runId orgId : String} {w : World} {run : RunRow}

theorem not_isDone_events (k : Nat) (entries : List String) :
    ∀ m ∈ entries.map (Message.event k), m.isDone = false ∧ m.execution ≤ k := by
  intro m hm
  obtain ⟨entry, _, rfl⟩ := List.mem_map.mp hm
  exact ⟨rfl, le_rfl⟩

/-- After a poll the stream has sent what the execution has appended since it began. -/
theorem Position.sent_poll (hp : Position w) (hopen : w.stream.closed = false)
    (hrun : run.agentEvents = w.history w.execution) {m : Message}
    (hm : m.entry w.execution = none) :
    (w.stream.output ++ (run.agentEvents.drop w.stream.seen).map (Message.event w.execution) ++
        [m]).filterMap (Message.entry w.execution) = (w.history w.execution).drop w.base := by
  rw [List.filterMap_append, List.filterMap_cons_none hm, List.filterMap_nil, List.append_nil,
    filterMap_events, hp.sent hopen, hrun, drop_take_append hp.base]

/-- Sending messages that do not end the stream. -/
theorem Position.send (hp : Position w) (hopen : w.stream.closed = false) {seen : Nat}
    {closed : Bool} {sent : List Message}
    (hsent : ∀ m ∈ sent, m.isDone = false ∧ m.execution ≤ w.execution) (hbase : w.base ≤ seen)
    (hstale : seen = w.base ∨ seen ≤ (w.history w.execution).length)
    (hentries : closed = false → (w.stream.output ++ sent).filterMap (Message.entry w.execution) =
      ((w.history w.execution).take seen).drop w.base) :
    Position { w with stream := ⟨seen, closed, w.stream.output ++ sent⟩ } := by
  have hunended : ∀ m ∈ w.stream.output ++ sent, m.isDone = false :=
    List.forall_mem_append.mpr ⟨hp.unended hopen, fun m hm => (hsent m hm).1⟩
  refine ⟨hbase, hstale, hentries, ?_, fun _ => hunended, ?_⟩
  · exact List.forall_mem_append.mpr ⟨hp.executions, fun m hm => (hsent m hm).2⟩
  · intro k status hdone
    cases hunended _ hdone

/-- The position after a poll of a row that holds the events of the current execution. -/
theorem seen_poll (hp : Position w) (hrun : run.agentEvents = w.history w.execution) :
    w.base ≤ w.stream.seen + (run.agentEvents.drop w.stream.seen).length ∧
      (w.stream.seen + (run.agentEvents.drop w.stream.seen).length = w.base ∨
        w.stream.seen + (run.agentEvents.drop w.stream.seen).length ≤
          (w.history w.execution).length) ∧
      (w.history w.execution).length ≤
        w.stream.seen + (run.agentEvents.drop w.stream.seen).length := by
  rw [List.length_drop, hrun]
  have hbase := hp.base
  have hstale := hp.stale
  omega

theorem eq_of_done_mem {before : List Message} {k l : Nat} {status status' : RunStatus}
    (hbefore : ∀ m ∈ before, m.isDone = false)
    (h : .done k status ∈ before ++ [Message.done l status']) : k = l ∧ status = status' := by
  rcases List.mem_append.mp h with h | h
  · cases hbefore _ h
  · exact Message.done.inj (List.mem_singleton.mp h)

/-- What an open stream has sent, and the entries that it finds in a row. -/
theorem Position.unended_poll (hp : Position w) (hopen : w.stream.closed = false)
    (entries : List String) : ∀ m ∈ w.stream.output ++ entries.map (Message.event w.execution),
      m.isDone = false ∧ m.execution ≤ w.execution :=
  List.forall_mem_append.mpr
    ⟨fun m hm => ⟨hp.unended hopen m hm, hp.executions m hm⟩, not_isDone_events _ _⟩

theorem Position.poll (hp : Position w) (hopen : w.stream.closed = false)
    (hrun : run.agentEvents = w.history w.execution) :
    Position { w with stream := w.stream.poll w.execution run } := by
  obtain ⟨hbase, hstale, hread⟩ := seen_poll hp hrun
  have hunended := hp.unended_poll hopen (run.agentEvents.drop w.stream.seen)
  rw [Stream.poll]
  split
  · refine ⟨hbase, hstale, fun h => absurd h Bool.true_eq_false.mp, ?_,
      fun h => absurd h Bool.true_eq_false.mp, ?_⟩
    · exact List.forall_mem_append.mpr
        ⟨fun m hm => (hunended m hm).2, List.forall_mem_singleton.mpr le_rfl⟩
    · intro k status hdone
      obtain ⟨rfl, rfl⟩ := eq_of_done_mem (fun m hm => (hunended m hm).1) hdone
      exact ⟨_, rfl, fun m hm => (hunended m hm).1⟩
  · have hentries := hp.sent_poll hopen hrun (rfl : Message.heartbeat.entry w.execution = none)
    rw [List.append_assoc] at hentries
    simp only [Stream.send, List.append_assoc]
    refine hp.send hopen ?_ hbase hstale fun _ => ?_
    · exact List.forall_mem_append.mpr
        ⟨not_isDone_events _ _, List.forall_mem_singleton.mpr ⟨rfl, Nat.zero_le _⟩⟩
    · rw [hentries, List.take_of_length_le hread]

theorem delivered_of_unended (h : ∀ m ∈ w.stream.output, m.isDone = false) : Delivered w := by
  intro k status hdone
  cases h _ hdone

theorem delivered_poll_iff (hp : Position w) (hopen : w.stream.closed = false)
    (hrun : run.agentEvents = w.history w.execution) :
    Delivered { w with stream := w.stream.poll w.execution run } ↔
      (RunStatus.ends run.status = true → w.base = 0 ∨ run.agentEvents = []) := by
  have hunended := hp.unended_poll hopen (run.agentEvents.drop w.stream.seen)
  have hentries := hp.sent_poll hopen hrun
    (rfl : (Message.done w.execution run.status).entry w.execution = none)
  rw [List.filterMap_append, List.filterMap_cons_none rfl, List.filterMap_nil,
    List.append_nil] at hentries
  rw [hrun] at hentries hunended
  cases hends : RunStatus.ends run.status with
  | false =>
      have hclosed : (w.stream.poll w.execution run).closed = false := by
        rw [Stream.poll, hends, if_neg Bool.false_ne_true]
        exact hopen
      exact iff_of_true (delivered_of_unended ((hp.poll hopen hrun).unended hclosed))
        fun h => absurd h Bool.false_ne_true
  | true =>
      rw [Stream.poll, hends, if_pos rfl, hrun, ← drop_eq_self_iff]
      constructor
      · intro h _
        obtain ⟨before, hout, -, hsent⟩ := h w.execution run.status
          (List.mem_append_right _ List.mem_cons_self)
        obtain rfl := (List.append_inj' hout rfl).1
        exact hentries.symm.trans hsent
      · intro h k status hdone
        obtain ⟨rfl, rfl⟩ := eq_of_done_mem (fun m hm => (hunended m hm).1) hdone
        exact ⟨_, rfl, fun m hm => (hunended m hm).1, hentries.trans (h rfl)⟩

end Polls

section Steps

variable {c : Codec} {runId orgId : String} {w w' : World} {l : RunTasks.Label}
  {system : RunTasks.World} {e : Event}

theorem Position.observe (hp : Position w) (l : RunTasks.Label) : Position (w.observe l) := by
  unfold World.observe
  split
  · exact hp.restart
  · exact hp.append _
  · exact hp

theorem Position.withSystem (hp : Position w) (system : RunTasks.World) :
    Position { w with system := system } :=
  ⟨hp.base, hp.stale, hp.sent, hp.executions, hp.unended, hp.last⟩

/-- The requests and tasks leave in the row what the observer has noted. -/
theorem stored_system (hs : Stored runId w) (hstep : RunTasks.Step c runId w.system l system) :
    Stored runId { w.observe l with system := system } := by
  intro run hrun
  cases hstep with
  | read => exact hs run hrun
  | @write draw op execution hop =>
      have hrow : rowOf (writeOp draw runId w.system.db op) runId = some run := by
        cases op <;> exact hrun
      rw [rowOf_writeOp] at hrow
      obtain ⟨old, hold, rfl⟩ := Option.map_eq_some_iff.mp hrow
      cases op with
      | confirm | cancel => exact hs old hold
      | reEvaluate =>
          change [] = Function.update w.history (w.execution + 1) [] (w.execution + 1)
          rw [Function.update_self]
  | @task draw before after task write phase htask hstep =>
      cases write with
      | none => exact hs run hrun
      | some write =>
          have hrow : rowOf (write.apply draw runId w.system.db) runId = some run := hrun
          rw [rowOf_apply] at hrow
          obtain ⟨old, hold, rfl⟩ := Option.map_eq_some_iff.mp hrow
          cases write with
          | status | decision | explanation => exact hs old hold
          | event entry =>
              exact (congrArg (· ++ [entry]) (hs old hold)).trans (history_append w entry).symm

theorem stored_emitted (hs : Stored runId w) (entry : String) : Stored runId { w.append entry with
    system := { w.system with db := dbAppendEvent w.system.db runId entry } } := by
  intro run hrun
  have hrow : rowOf (dbAppendEvent w.system.db runId entry) runId = some run := hrun
  rw [dbAppendEvent, rowOf_updateRun] at hrow
  obtain ⟨old, hold, rfl⟩ := Option.map_eq_some_iff.mp hrow
  exact (congrArg (· ++ [entry]) (hs old hold)).trans (history_append w entry).symm

theorem readable_stored (hs : Stored runId w) {run : RunRow} (h : readable runId orgId w = some run) :
    run.agentEvents = w.history w.execution :=
  hs run (Option.filter_eq_some_iff.mp h).1

theorem preserved_tracked (c : Codec) (runId orgId : String) :
    Preserved (Step c runId orgId) (fun w => Stored runId w ∧ Position w) := by
  rintro w e w' ⟨hs, hp⟩ hstep
  cases hstep with
  | system hstep => exact ⟨stored_system hs hstep, (hp.observe _).withSystem _⟩
  | emitted => exact ⟨stored_emitted hs _, (hp.append _).withSystem _⟩
  | polled hopen hrow => exact ⟨hs, hp.poll hopen (readable_stored hs hrow)⟩
  | unreachable hopen =>
      refine ⟨hs, hp.send hopen ?_ hp.base hp.stale fun _ => ?_⟩
      · exact List.forall_mem_singleton.mpr ⟨rfl, Nat.zero_le _⟩
      · rw [List.filterMap_append, hp.sent hopen]
        exact List.append_nil _
  | missing hopen =>
      refine ⟨hs, hp.send hopen ?_ hp.base hp.stale fun h => absurd h Bool.true_eq_false.mp⟩
      exact List.forall_mem_singleton.mpr ⟨rfl, Nat.zero_le _⟩
  | disconnected =>
      exact ⟨hs, hp.base, hp.stale, fun h => absurd h Bool.true_eq_false.mp, hp.executions,
        fun h => absurd h Bool.true_eq_false.mp, hp.last⟩

theorem tracked_start (runId : String) (system : RunTasks.World) :
    Stored runId (World.start runId system) ∧ Position (World.start runId system) := by
  refine ⟨?_, le_rfl, .inl rfl, fun _ => rfl, ?_, ?_, ?_⟩
  · intro run hrun
    have hrow : rowOf system.db runId = some run := hrun
    change run.agentEvents = ((rowOf system.db runId).map RunRow.agentEvents).getD []
    rw [hrow]
    rfl
  · exact fun _ h => absurd h List.not_mem_nil
  · exact fun _ _ h => absurd h List.not_mem_nil
  · exact fun _ _ h => absurd h List.not_mem_nil

theorem delivered_send (hp : Position w) (hopen : w.stream.closed = false) {m : Message}
    (hm : m.isDone = false) {closed : Bool} :
    Delivered { w with stream := { w.stream.send m with closed := closed } } := by
  refine delivered_of_unended (List.forall_mem_append.mpr ⟨hp.unended hopen, ?_⟩)
  exact List.forall_mem_singleton.mpr hm

theorem delivered_step_iff (hs : Stored runId w) (hp : Position w) (hd : Delivered w)
    (hstep : Step c runId orgId w e w') : Delivered w' ↔ Admits runId orgId w e := by
  cases hstep with
  | @system l system hstep =>
      cases l with
      | read => exact iff_of_true hd trivial
      | write draw op execution =>
          cases op with
          | reEvaluate => exact iff_of_true (delivered_restart hp hd) trivial
          | confirm | cancel => exact iff_of_true hd trivial
      | task draw id write =>
          cases write with
          | none => exact iff_of_true hd trivial
          | some write =>
              cases write with
              | event entry => exact delivered_append_iff hd
              | status | decision | explanation => exact iff_of_true hd trivial
  | emitted => exact delivered_append_iff hd
  | polled hopen hrow =>
      refine (delivered_poll_iff hp hopen (readable_stored hs hrow)).trans ?_
      constructor
      · intro h run' hrow'
        obtain rfl := Option.some.inj (hrow.symm.trans hrow')
        exact h
      · exact fun h => h _ hrow
  | unreachable hopen => exact iff_of_true (delivered_send hp hopen rfl) trivial
  | missing hopen => exact iff_of_true (delivered_send hp hopen rfl) trivial
  | disconnected => exact iff_of_true hd trivial

end Steps

/-- The runs in which the stream delivers are those whose steps are all admitted. -/
theorem delivered_runs_iff (c : Codec) (runId orgId : String) (system : RunTasks.World)
    (es : List Event) (w : World) :
    Run (Guarded (Admits runId orgId) (Step c runId orgId)) (World.start runId system) es w ↔
      Run (Into Delivered (Step c runId orgId)) (World.start runId system) es w :=
  guarded_iff_into_of_preserved (preserved_tracked c runId orgId)
    (fun _ _ _ h hd hstep => delivered_step_iff h.1 h.2 hd hstep) (tracked_start runId system)
    fun _ _ h => absurd h List.not_mem_nil

section Sample

open EmptyRanking (retrievalDown)
open PipelineGraph (Config drive_run runningRow)
open ReportPairing (firstEnd firstEnd_reported)
open TaskRefinement

variable {c : Codec} {runId orgId : String}

/-- What the requests and tasks do, they do beside a stream that waits. -/
theorem run_system {system system' : RunTasks.World} {ls : List RunTasks.Label}
    (h : Run (RunTasks.Step c runId) system ls system') {w : World} (hw : w.system = system) :
    ∃ w', Run (Step c runId orgId) w (ls.map .system) w' ∧ w'.system = system' ∧
      w'.stream = w.stream := by
  induction h generalizing w with
  | nil => exact ⟨w, .nil w, hw, rfl⟩
  | @cons system middle system' l ls hstep _ ih =>
      subst hw
      have hstream : (w.observe l).stream = w.stream := by
        unfold World.observe
        split <;> rfl
      obtain ⟨w', hrun, hsystem, hwaits⟩ := ih (w := { w.observe l with system := middle }) rfl
      exact ⟨w', .cons (.system hstep) hrun, hsystem, hwaits.trans hstream⟩

/-- A task that has saved its decision and has its summary yet to append. -/
theorem decided_run : ∃ ls system s settled run,
    Run (RunTasks.Step plainCodec "run-1") waitingWorld ls system ∧
      system.tasks = [⟨0, retrievalDown, .explaining s, settled⟩] ∧
        rowOf system.db "run-1" = some run ∧ run.status = .complete := by
  obtain ⟨hended, hopen, hdecided, -⟩ := firstEnd_reported
  have hlaunch : Follows plainCodec "run-1" 0 retrievalDown (Config.start runningRow)
      (RunTasks.World.launch ⟨runningDb, [], [], 0⟩ retrievalDown .confirm) :=
    ⟨⟨false, rfl⟩, Op.confirm.onRow adminDraw (waitingRun "run-1"), rfl, rfl, rfl, rfl⟩
  have hread : RunTasks.Step plainCodec "run-1" waitingWorld (.read adminDraw companyAdmin .confirm)
      ⟨waitingDb, [.confirm], [], 0⟩ := .read adminDraw companyAdmin rfl
  have hwrite : RunTasks.Step plainCodec "run-1" ⟨waitingDb, [.confirm], [], 0⟩
      (.write adminDraw .confirm retrievalDown)
        (RunTasks.World.launch ⟨runningDb, [], [], 0⟩ retrievalDown .confirm) :=
    .write adminDraw retrievalDown List.mem_cons_self
  obtain ⟨gs, hgraph⟩ := drive_run retrievalDown 17 (Config.start runningRow)
  have hend : PipelineGraph.drive retrievalDown 17 (Config.start runningRow) = firstEnd := by
    unfold firstEnd
    rfl
  rw [hend] at hgraph
  obtain ⟨ls, w, hrun, -, ⟨⟨settled, htasks⟩, run, hrow, -⟩, -⟩ :=
    task_quiet_in_graph hgraph (by rw [hended]; decide) hlaunch
  rw [hended] at htasks
  obtain ⟨decision, hdecision⟩ := Option.isSome_iff_exists.mp hdecided
  have hstep := step_single plainCodec "run-1" adminDraw htasks (.decided hopen hdecision)
  refine ⟨_, _, _, _, (RowWrite.decision (plainCodec.decision decision)).onRow adminDraw run,
    .cons hread (.cons hwrite (hrun.snoc hstep)), rfl, ?_, rfl⟩
  change rowOf (RowWrite.apply adminDraw "run-1" w.db _) "run-1" = _
  rw [rowOf_apply, hrow]
  rfl

/-- The summary is lost to a stream that has ended before it. -/
theorem summary_lost {w : World} {id : Nat} {execution : PipelineNodes.Execution} {settled : Bool}
    (htasks : w.system.tasks = [⟨id, execution, .closing, settled⟩]) (hs : Stored runId w)
    (hp : Position w) (hd : Delivered w) (hended : ¬ Unended w) :
    ∃ e w', Step c runId orgId w e w' ∧ ¬ Delivered w' := by
  have hstep : Step c runId orgId w _ _ :=
    .system (step_single c runId adminDraw htasks (.summarised "All agent outputs validated by Critic"))
  exact ⟨_, _, hstep, fun h => hended ((delivered_step_iff hs hp hd hstep).mp h)⟩

/-- A poll between the saved decision and the summary ends the stream without the summary. -/
theorem summary_not_sent : ¬ ∀ (c : Codec) (runId orgId : String) (es : List Event) (w : World),
    Run (Step c runId orgId) (World.start runId waitingWorld) es w → Delivered w := by
  intro h
  obtain ⟨ls, system, s, settled, run, hsystem, htasks, hrow, hstatus⟩ := decided_run
  obtain ⟨w, hrun, rfl, hstream⟩ := run_system hsystem
    (rfl : (World.start "run-1" waitingWorld).system = waitingWorld)
  have hopen : w.stream.closed = false := by rw [hstream]; rfl
  have hreadable : readable "run-1" run.orgId w = some run := by
    rw [readable, hrow]
    exact Option.filter_eq_some_iff.mpr ⟨rfl, decide_eq_true rfl⟩
  have hpolled := hrun.snoc (Step.polled hopen hreadable)
  have hclosing := hpolled.snoc
    (.system (step_single plainCodec "run-1" adminDraw htasks .unexplained))
  obtain ⟨hstored, hposition⟩ :=
    hclosing.invariant (preserved_tracked plainCodec "run-1" run.orgId) (tracked_start _ _)
  have hdone : Message.done w.execution run.status ∈ (w.stream.poll w.execution run).output := by
    rw [Stream.poll, hstatus]
    exact List.mem_append_right _ List.mem_cons_self
  obtain ⟨e, w', hsummary, hlost⟩ := summary_lost rfl hstored hposition
    (h _ _ _ _ _ hclosing) fun hunended => hunended _ _ hdone rfl
  exact hlost (h _ _ _ _ _ (hclosing.snoc hsummary))

end Sample

end RfpPlatform.EventStream
