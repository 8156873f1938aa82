import Mathlib.Algebra.Order.BigOperators.Group.List
import RfpPlatform.OrphanedJob

namespace RfpPlatform.CompletionEvents

open Ingestion (Content)
open OrphanedJob (claimedWorld claimedWorld_run)
open Submissions SubmissionSteps TransitionRuns

variable {sha256OfFile : Content → String} {w w' : World} {l : Label} {ls : List Label}
  {rfpId : String} {now : Nat} {tables : Tables} {call next : Option Call} {write : Option Write}

section Accounts

/-- The call is still to emit the completion event of the request for proposals. -/
def Call.emits (rfpId : String) : Call → Bool
  | .winner rfp => rfp.rfpId = rfpId
  | _ => false

def emitted (rfpId : String) (tables : Tables) : Nat :=
  tables.eventLog.countP (fun event => event.rfpId = rfpId)

def pending (rfpId : String) (calls : List Call) : Nat := calls.countP (Call.emits rfpId)

def isReady (rfpId : String) (rfp : Rfp) : Bool :=
  rfp.rfpId = rfpId && rfp.submissionStatus = .factsReady

def ready (rfpId : String) (tables : Tables) : Nat :=
  if tables.rfps.rows.any (isReady rfpId) then 1 else 0

/-- The events that a step gives up: a crash, or an exception of `emit_event`, comes between the
flip and the event. -/
def dropped (rfpId : String) : Label → Nat
  | .call (some call) none none => if Call.emits rfpId call then 1 else 0
  | _ => 0

def Write.emitting (rfpId : String) : Option Write → Nat
  | some (.emit rfp) => if rfp.rfpId = rfpId then 1 else 0
  | _ => 0

def Write.flipping (rfpId : String) (tables : Tables) : Option Write → Nat
  | some (.flip id) => pending rfpId (afterFlip id tables).toList
  | _ => 0

theorem emitted_applyWrite :
    emitted rfpId (applyWrite now tables write) =
      emitted rfpId tables + Write.emitting rfpId write := by
  cases write with
  | none => rfl
  | some write =>
      cases write with
      | emit rfp =>
          have hevent : (lifecycleEvent rfp).rfpId = rfp.rfpId := by
            unfold lifecycleEvent
            split <;> rfl
          simp [applyWrite, Write.apply, emitted, Write.emitting, List.countP_append,
            List.countP_singleton, hevent]
      | create rfp =>
          change emitted rfpId ((createRfp rfp tables).getD tables) = _
          unfold createRfp
          cases tables.rfps.insert? { rfp with submissionStatus := .opened } <;> rfl
      | invite id vendorId =>
          change emitted rfpId (inviteVendor id vendorId tables) = _
          unfold inviteVendor
          split <;> rfl
      | _ => rfl

theorem isReady_iff {rfp : Rfp} :
    isReady rfpId rfp = true ↔ rfp.rfpId = rfpId ∧ rfp.submissionStatus = .factsReady := by
  simp [isReady]

theorem ready_congr {tables' : Tables}
    (h : (∃ rfp ∈ tables'.rfps, isReady rfpId rfp = true) ↔
      ∃ rfp ∈ tables.rfps, isReady rfpId rfp = true) : ready rfpId tables' = ready rfpId tables := by
  have hany : tables'.rfps.rows.any (isReady rfpId) = tables.rfps.rows.any (isReady rfpId) := by
    rw [Bool.eq_iff_iff, List.any_eq_true, List.any_eq_true]
    exact h
  rw [ready, ready, hany]

/-- Only a flip makes a request for proposals ready, and none ceases to be. -/
theorem ready_of_no_flip {write : Write} (hflip : write ≠ .flip rfpId) :
    ready rfpId (write.apply now tables) = ready rfpId tables := by
  refine ready_congr ⟨?_, ?_⟩
  · rintro ⟨new, hnew, hready⟩
    obtain ⟨hid, hstatus⟩ := isReady_iff.mp hready
    rcases write.rfp_cases hnew with ⟨old, hold, hsame, hkept | hadvances⟩ | ⟨hopened, _⟩
    · exact ⟨old, hold, isReady_iff.mpr ⟨hsame.symm.trans hid, hkept.symm.trans hstatus⟩⟩
    · cases write with
      | close => cases hstatus.symm.trans hadvances.2
      | queue => cases hstatus.symm.trans hadvances.2.2
      | flip id => exact absurd (by rw [← hid, hsame, hadvances.1]) hflip
      | _ => exact hadvances.elim
    · cases hstatus.symm.trans hopened
  · rintro ⟨old, hold, hready⟩
    obtain ⟨hid, hstatus⟩ := isReady_iff.mp hready
    obtain ⟨new, hnew, hsame⟩ := Write.rfp_persists now write hold
    rcases write.rfp_cases hnew with ⟨old', hold', hsame', hkept | hadvances⟩ | ⟨_, hfresh⟩
    · obtain rfl : old' = old := KeyedTable.eq_of_key_eq hold' hold (hsame'.symm.trans hsame)
      exact ⟨new, hnew, isReady_iff.mpr ⟨hsame.trans hid, hkept.trans hstatus⟩⟩
    · obtain rfl : old' = old := KeyedTable.eq_of_key_eq hold' hold (hsame'.symm.trans hsame)
      cases write with
      | close => cases hstatus.symm.trans hadvances.1
      | queue => cases hstatus.symm.trans hadvances.2.1
      | flip => cases hstatus.symm.trans hadvances.2.1
      | _ => exact hadvances.elim
    · exact absurd hsame.symm (hfresh old hold)

theorem ready_flip :
    ready rfpId (flipFactsReady rfpId tables) =
      ready rfpId tables + pending rfpId (afterFlip rfpId tables).toList := by
  cases hflip : afterFlip rfpId tables with
  | none =>
      refine ready_congr ⟨?_, ?_⟩
      · rintro ⟨new, hnew, hready⟩
        obtain ⟨old, hold, _, rfl | ⟨hp, _⟩⟩ := mem_updateRfps_cases hnew
        · exact ⟨new, hold, hready⟩
        · simp only [Bool.and_eq_true, decide_eq_true_eq] at hp
          have hlookup := KeyedTable.lookup_eq_some.mpr ⟨hold, hp.1⟩
          simp [afterFlip, hlookup, hp.2] at hflip
      · rintro ⟨old, hold, hready⟩
        obtain ⟨_, hstatus⟩ := isReady_iff.mp hready
        exact ⟨old, List.mem_map.mpr ⟨old, hold, if_neg (by simp [hstatus])⟩, hready⟩
  | some call =>
      obtain ⟨rfp, hrfp, rfl⟩ := Option.map_eq_some_iff.mp hflip
      obtain ⟨hlookup, hprocessing⟩ := Option.filter_eq_some_iff.mp hrfp
      obtain ⟨hmem, hid⟩ := KeyedTable.lookup_eq_some.mp hlookup
      rw [decide_eq_true_eq] at hprocessing
      have hbefore : ready rfpId tables = 0 := by
        refine if_neg (fun h => ?_)
        obtain ⟨other, hother, hready⟩ := List.any_eq_true.mp h
        obtain ⟨hoid, hstatus⟩ := isReady_iff.mp hready
        obtain rfl : other = rfp := KeyedTable.eq_of_key_eq hother hmem (hoid.trans hid.symm)
        cases hstatus.symm.trans hprocessing
      have hafter : ready rfpId (flipFactsReady rfpId tables) = 1 := by
        refine if_pos (List.any_eq_true.mpr ⟨{ rfp with submissionStatus := .factsReady }, ?_, ?_⟩)
        · exact List.mem_map.mpr ⟨rfp, hmem, if_pos (by simp [hid, hprocessing])⟩
        · exact isReady_iff.mpr ⟨hid, rfl⟩
      simp [hbefore, hafter, pending, Call.emits, hid]

theorem flipping_of_ne {id : String} (hne : id ≠ rfpId) :
    pending rfpId (afterFlip id tables).toList = 0 := by
  cases hflip : afterFlip id tables with
  | none => rfl
  | some call =>
      obtain ⟨rfp, hrfp, rfl⟩ := Option.map_eq_some_iff.mp hflip
      have hid := (KeyedTable.lookup_eq_some.mp (Option.filter_eq_some_iff.mp hrfp).1).2
      simp [pending, Call.emits, hid, hne]

theorem ready_applyWrite :
    ready rfpId (applyWrite now tables write) =
      ready rfpId tables + Write.flipping rfpId tables write := by
  cases write with
  | none => rfl
  | some write =>
      by_cases hflip : write = .flip rfpId
      · subst hflip
        exact ready_flip
      · change ready rfpId (write.apply now tables) = _
        rw [ready_of_no_flip hflip]
        cases write with
        | flip id =>
            have hne : id ≠ rfpId := fun h => hflip (h ▸ rfl)
            rw [Write.flipping, flipping_of_ne hne]
            rfl
        | _ => rfl

variable (rfpId) in
/-- An emission is entered by a won flip, and left by the event or by being given up. -/
theorem pending_step (h : CallStep sha256OfFile now tables call write next) :
    pending rfpId next.toList + Write.emitting rfpId write +
        dropped rfpId (.call call write next) =
      pending rfpId call.toList + Write.flipping rfpId tables write := by
  cases h with
  | inserted job =>
      have hnone : pending rfpId (afterInsert job (enqueueIngestionJob job tables.jobs).1).toList =
          0 := by
        cases hcall : afterInsert job (enqueueIngestionJob job tables.jobs).1 with
        | none => rfl
        | some call =>
            obtain ⟨_, _, _, rfl⟩ := afterInsert_cases hcall
            rfl
      rw [hnone]
      rfl
  | flipped id => simp [Write.emitting, Write.flipping, dropped, pending, Call.emits]
  | emitted rfp =>
      by_cases hid : rfp.rfpId = rfpId <;>
        simp [Write.emitting, Write.flipping, dropped, pending, Call.emits, hid]
  | @failed owner jobId reason howns =>
      cases owner with
      | working => rfl
      | raised => rfl
      | _ => exact howns.elim
  | aborted call =>
      by_cases hemits : Call.emits rfpId call = true <;>
        simp [Write.emitting, Write.flipping, dropped, pending, hemits]
  | _ => rfl

variable (rfpId) in
theorem step_accounts (h : Step sha256OfFile w l w') :
    emitted rfpId w'.tables + pending rfpId w'.calls + dropped rfpId l + ready rfpId w.tables =
      emitted rfpId w.tables + pending rfpId w.calls + ready rfpId w'.tables := by
  cases h with
  | wait => rfl
  | @call before after call next write hcalls hstep =>
      have hpending := pending_step rfpId hstep
      rw [ready_applyWrite, emitted_applyWrite, hcalls]
      simp only [pending, List.countP_append] at hpending ⊢
      omega

variable (rfpId) in
/-- Along a run, what becomes ready is emitted, is still to be emitted, or is given up. -/
theorem run_accounts (h : Run (Step sha256OfFile) w ls w') :
    emitted rfpId w'.tables + pending rfpId w'.calls + (ls.map (dropped rfpId)).sum +
        ready rfpId w.tables =
      emitted rfpId w.tables + pending rfpId w.calls + ready rfpId w'.tables := by
  induction h with
  | nil => simp
  | cons hstep _ ih =>
      have haccounts := step_accounts rfpId hstep
      rw [List.map_cons, List.sum_cons]
      omega

end Accounts

section Runs

/-- No request for proposals has two completion events, and one that is ready has one, unless
the tick that flipped it is still to emit it. -/
def ExactlyOnce (w : World) : Prop :=
  ∀ rfpId, emitted rfpId w.tables ≤ 1 ∧ ∀ rfp ∈ w.tables.rfps, rfp.rfpId = rfpId →
    rfp.submissionStatus = .factsReady → pending rfpId w.calls = 0 → emitted rfpId w.tables = 1

/-- A tick ends between its flip and the event: it crashes, or `emit_event` raises. -/
def Label.losesEvent : Label → Prop
  | .call (some (.winner _)) none none => True
  | _ => False

theorem ready_le (rfpId : String) (tables : Tables) : ready rfpId tables ≤ 1 := by
  unfold ready
  split <;> omega

theorem ready_eq_one {rfp : Rfp} (hrfp : rfp ∈ tables.rfps)
    (hready : rfp.submissionStatus = .factsReady) : ready rfp.rfpId tables = 1 :=
  if_pos (List.any_eq_true.mpr ⟨rfp, hrfp, isReady_iff.mpr ⟨rfl, hready⟩⟩)

theorem dropped_eq_zero (h : ∀ l ∈ ls, ¬ Label.losesEvent l) :
    (ls.map (dropped rfpId)).sum = 0 := by
  refine List.sum_eq_zero (fun n hn => ?_)
  obtain ⟨l, hl, rfl⟩ := List.mem_map.mp hn
  unfold dropped
  split
  · rename_i call
    cases call with
    | winner rfp => exact absurd trivial (h _ hl)
    | _ => rfl
  · rfl

theorem exists_dropped (h : l ∈ ls) (hloses : Label.losesEvent l) :
    ∃ rfpId, 1 ≤ (ls.map (dropped rfpId)).sum := by
  unfold Label.losesEvent at hloses
  split at hloses
  · rename_i rfp
    refine ⟨rfp.rfpId, ?_⟩
    calc 1 = dropped rfp.rfpId (.call (some (.winner rfp)) none none) := by
          simp [dropped, Call.emits]
      _ ≤ _ := List.single_le_sum (by simp) _ (List.mem_map.mpr ⟨_, h, rfl⟩)
  · exact hloses.elim

variable (rfpId) in
/-- The accounts of a run from the empty database. -/
theorem initial_accounts (h : Run (Step sha256OfFile) World.empty ls w) :
    emitted rfpId w.tables + pending rfpId w.calls + (ls.map (dropped rfpId)).sum =
      ready rfpId w.tables := by
  have hrun := run_accounts rfpId h
  have hempty : ready rfpId World.empty.tables = 0 ∧ emitted rfpId World.empty.tables = 0 ∧
      pending rfpId World.empty.calls = 0 := ⟨rfl, rfl, rfl⟩
  omega

/-- In every run each completion event is emitted exactly once, if and only if no tick ends
between a flip that it has won and the event. -/
theorem completion_events_exactly_once_iff (h : Run (Step sha256OfFile) World.empty ls w) :
    ExactlyOnce w ↔ ∀ l ∈ ls, ¬ Label.losesEvent l := by
  constructor
  · intro honce l hl hloses
    obtain ⟨rfpId, hdropped⟩ := exists_dropped hl hloses
    have haccounts := initial_accounts rfpId h
    have hle := ready_le rfpId w.tables
    have hready : ready rfpId w.tables ≠ 0 := by omega
    obtain ⟨rfp, hrfp, hisReady⟩ := List.any_eq_true.mp (ite_ne_right_iff.mp hready).1
    obtain ⟨hid, hstatus⟩ := isReady_iff.mp hisReady
    have hemitted := (honce rfpId).2 rfp hrfp hid hstatus (by omega)
    omega
  · intro hkeeps rfpId
    have haccounts := initial_accounts rfpId h
    rw [dropped_eq_zero hkeeps] at haccounts
    have hle := ready_le rfpId w.tables
    refine ⟨by omega, ?_⟩
    rintro rfp hrfp rfl hstatus hpending
    have hready := ready_eq_one hrfp hstatus
    omega

def readyTables : Tables := flipFactsReady "rfp-1" ((Write.ready "u" "d1").apply 1 claimedWorld.tables)

def readyTender : Rfp := { tender with submissionStatus := .processing }

theorem flipped_run : Run (Step plainHash) claimedWorld
    [.call (some (.working "u")) (some (.ready "u" "d1")) none,
      .call none none (some (.counted "rfp-1")),
      .call (some (.counted "rfp-1")) (some (.flip "rfp-1")) (some (.winner readyTender))]
    ⟨1, readyTables, [.winner readyTender]⟩ := by
  exact .cons (Step.first (some _) rfl (.completed "u" "d1"))
    (.cons (Step.first none rfl
        (@CallStep.counted _ _ _ readyTender (List.mem_singleton_self _) rfl rfl))
      (.cons (Step.first (some _) rfl (.flipped "rfp-1")) (.nil _)))

theorem emitted_once : ∃ ls w, Run (Step plainHash) World.empty ls w ∧ ExactlyOnce w ∧
    emitted "rfp-1" w.tables = 1 := by
  obtain ⟨ls, hrun, hquiet⟩ := claimedWorld_run
  have hemitted := (hrun.append flipped_run).snoc
    (Step.first (some _) rfl (.emitted readyTender))
  refine ⟨_, _, hemitted, (completion_events_exactly_once_iff hemitted).mpr (fun l hl hloses => ?_),
    rfl⟩
  have hcutOff : l.cutOff := by
    unfold Label.losesEvent at hloses
    split at hloses
    · trivial
    · exact hloses.elim
  rcases List.mem_append.mp hl with hl | hl
  · rcases List.mem_append.mp hl with hl | hl
    · exact hquiet l hl hcutOff
    · simp only [List.mem_cons, List.not_mem_nil, or_false] at hl
      rcases hl with rfl | rfl | rfl <;> exact hcutOff
  · rw [List.mem_singleton.mp hl] at hcutOff
    exact hcutOff

/-- One exception of `emit_event` leaves the ready request for proposals without an event, and
no later tick makes up for it. -/
theorem lost_event_never_emitted :
    ∃ ls w, Run (Step plainHash) World.empty ls w ∧ w.calls = [] ∧
      (∃ rfp ∈ w.tables.rfps, rfp.rfpId = "rfp-1" ∧ rfp.submissionStatus = .factsReady) ∧
      ∀ later, Reachable (Step plainHash) w later → emitted "rfp-1" later.tables = 0 := by
  obtain ⟨ls, hrun, _⟩ := claimedWorld_run
  have hlost := (hrun.append flipped_run).snoc
    (Step.first (some _) rfl (.aborted (.winner readyTender)))
  have hrfps : readyTables.rfps.rows = [{ tender with submissionStatus := .factsReady }] := by rfl
  refine ⟨_, _, hlost, rfl, ⟨{ tender with submissionStatus := .factsReady }, ?_, rfl, rfl⟩, ?_⟩
  · change _ ∈ readyTables.rfps.rows
    rw [hrfps]
    exact List.mem_singleton_self _
  · rintro later ⟨ls', hlater⟩
    have haccounts := initial_accounts "rfp-1" (hlost.append hlater)
    have hle := ready_le "rfp-1" later.tables
    have hdropped : dropped "rfp-1" (.call (some (.winner readyTender)) none none) = 1 := by rfl
    simp only [List.map_append, List.sum_append, List.map_singleton, List.sum_singleton,
      hdropped] at haccounts
    omega

end Runs

end RfpPlatform.CompletionEvents
