import Mathlib.Algebra.BigOperators.Group.Finset.Piecewise
import Mathlib.Data.Fintype.Fin
import RfpPlatform.FairSemaphore
import RfpPlatform.TransitionRuns

namespace RfpPlatform.VendorSlots

open FairSemaphore TransitionRuns
open FairSemaphore.Semaphore (Balanced queued)

section Slots

/-- `_read_concurrency_limit`, by what `int` makes of a text. -/
def readConcurrencyLimit (pyInt : String → Option Int) (raw : Option String) : Nat :=
  (max 1 ((pyInt (raw.getD "5")).getD 5)).toNat

/-- Where the branch of a vendor stands: before an attempt, in the queue for it, at work on it, or
at its end. -/
inductive Phase
  | outside (attempt : Nat)
  | waiting (attempt : Nat)
  | working (attempt : Nat)
  | finished
  deriving DecidableEq

variable {ι : Type*} [DecidableEq ι]

/-- The slots of a process and the branches that share them. -/
structure World (ι : Type*) where
  vendorSemaphore : Semaphore ι
  phase : ι → Phase

def World.start (limit : Nat) : World ι := ⟨⟨limit, []⟩, fun _ => .outside 0⟩

def World.move (w : World ι) (c : ι) (sem : Semaphore ι) (p : Phase) : World ι :=
  ⟨sem, Function.update w.phase c p⟩

inductive Move
  | claim | resume | retry | leave | cancel
  deriving DecidableEq

/-- A branch takes a slot for each attempt and gives it back behind it. A verdict that blocks leads
to the next attempt while there is one; all else ends the branch. -/
inductive Step (maxRetries : ι → Nat) : World ι → ι × Move → World ι → Prop
  | granted {w : World ι} {c : ι} {k : Nat} (hphase : w.phase c = .outside k)
      (hgranted : (w.vendorSemaphore.acquire c).2 = true) :
      Step maxRetries w (c, .claim) (w.move c (w.vendorSemaphore.acquire c).1 (.working k))
  | queued {w : World ι} {c : ι} {k : Nat} (hphase : w.phase c = .outside k)
      (hqueued : (w.vendorSemaphore.acquire c).2 = false) :
      Step maxRetries w (c, .claim) (w.move c (w.vendorSemaphore.acquire c).1 (.waiting k))
  | resume {w : World ι} {c : ι} {k : Nat} (hphase : w.phase c = .waiting k)
      (hwoken : (c, true) ∈ w.vendorSemaphore.waiters) :
      Step maxRetries w (c, .resume) (w.move c (w.vendorSemaphore.resume c) (.working k))
  | retry {w : World ι} {c : ι} {k : Nat} (hphase : w.phase c = .working k)
      (hleft : k < maxRetries c) :
      Step maxRetries w (c, .retry) (w.move c w.vendorSemaphore.release (.outside (k + 1)))
  | leave {w : World ι} {c : ι} {k : Nat} (hphase : w.phase c = .working k) :
      Step maxRetries w (c, .leave) (w.move c w.vendorSemaphore.release .finished)
  | cancelOutside {w : World ι} {c : ι} {k : Nat} (hphase : w.phase c = .outside k) :
      Step maxRetries w (c, .cancel) (w.move c w.vendorSemaphore .finished)
  | cancelWaiting {w : World ι} {c : ι} {k : Nat} (hphase : w.phase c = .waiting k) :
      Step maxRetries w (c, .cancel) (w.move c (w.vendorSemaphore.abandon c) .finished)

end Slots

section Weights

variable {ι : Type*} [DecidableEq ι] {w : World ι} {c : ι} {p : Phase} {sem : Semaphore ι}

@[simp] theorem move_phase_self : (w.move c sem p).phase c = p := Function.update_self ..

theorem move_phase_of_ne {d : ι} (h : d ≠ c) : (w.move c sem p).phase d = w.phase d :=
  Function.update_of_ne h ..

variable [Fintype ι]

def Phase.load : Phase → Nat
  | .working _ => 1
  | _ => 0

def World.held (w : World ι) : Nat := ∑ c, (w.phase c).load

/-- The steps that a branch can still take. -/
def Phase.ahead (maxRetries : Nat) : Phase → Nat
  | .outside k => 3 * (maxRetries - k) + 3
  | .waiting k => 3 * (maxRetries - k) + 2
  | .working k => 3 * (maxRetries - k) + 1
  | .finished => 0

def World.ahead (maxRetries : ι → Nat) (w : World ι) : Nat := ∑ c, (w.phase c).ahead (maxRetries c)

theorem sum_move (weight : ι → Phase → Nat) :
    ∑ d, weight d ((w.move c sem p).phase d) + weight c (w.phase c) =
      ∑ d, weight d (w.phase d) + weight c p := by
  have hupdate : (fun d => weight d ((w.move c sem p).phase d)) =
      Function.update (fun d => weight d (w.phase d)) c (weight c p) := by
    funext d
    exact Function.apply_update weight w.phase c p d
  have hself : ∑ d, weight d (w.phase d) =
      weight c (w.phase c) + ∑ d ∈ Finset.univ \ {c}, weight d (w.phase d) := by
    rw [← Finset.sum_update_of_mem (Finset.mem_univ c), Function.update_eq_self]
  rw [hupdate, Finset.sum_update_of_mem (Finset.mem_univ c), hself]
  omega

theorem held_move (w : World ι) (c : ι) (sem : Semaphore ι) (p : Phase) :
    (w.move c sem p).held + (w.phase c).load = w.held + p.load :=
  sum_move fun _ => Phase.load

theorem ahead_move (w : World ι) (c : ι) (sem : Semaphore ι) (p : Phase) (maxRetries : ι → Nat) :
    (w.move c sem p).ahead maxRetries + (w.phase c).ahead (maxRetries c) =
      w.ahead maxRetries + p.ahead (maxRetries c) :=
  sum_move fun d => Phase.ahead (maxRetries d)

theorem ahead_move_lt {maxRetries : ι → Nat}
    (h : p.ahead (maxRetries c) < (w.phase c).ahead (maxRetries c)) :
    1 + (w.move c sem p).ahead maxRetries ≤ w.ahead maxRetries := by
  have hsum := ahead_move w c sem p maxRetries
  omega

theorem ahead_lt {maxRetries : ι → Nat} {w' : World ι} {a : ι × Move}
    (h : Step maxRetries w a w') : 1 + w'.ahead maxRetries ≤ w.ahead maxRetries := by
  cases h with
  | granted hphase _ | queued hphase _ | resume hphase _ | leave hphase | cancelOutside hphase
  | cancelWaiting hphase =>
      refine ahead_move_lt ?_
      rw [hphase]
      simp only [Phase.ahead]
      omega
  | retry hphase hleft =>
      refine ahead_move_lt ?_
      rw [hphase]
      simp only [Phase.ahead]
      omega

/-- A run is no longer than the attempts of all branches allow, with three steps for each. -/
theorem length_le {maxRetries : ι → Nat} {limit : Nat} {w' : World ι} {as : List (ι × Move)}
    (h : Run (Step maxRetries) (World.start limit) as w') :
    as.length ≤ ∑ c, 3 * (maxRetries c + 1) := by
  have hcost : (as.map fun _ => 1).sum + w'.ahead maxRetries ≤
      (World.start limit : World ι).ahead maxRetries :=
    h.cost_le fun _ _ _ hstep => ahead_lt hstep
  have hlen : (as.map fun _ => 1).sum = as.length := by simp
  have hstart : (World.start limit : World ι).ahead maxRetries = ∑ c, 3 * (maxRetries c + 1) :=
    Finset.sum_congr rfl fun c _ => by simp only [World.start, Phase.ahead]; omega
  omega

end Weights

section Balance

variable {ι : Type*} [Fintype ι] {limit : Nat} {maxRetries : ι → Nat} {w w' : World ι} {c d : ι}
  {woken asleep : List ι}

/-- The branches in the queue are those that wait, and the slots add up. -/
structure Sound (limit : Nat) (w : World ι) (woken asleep : List ι) : Prop where
  balanced : w.vendorSemaphore.Balanced limit w.held woken asleep
  waits : ∀ c, c ∈ woken ++ asleep ↔ ∃ k, w.phase c = .waiting k

theorem sound_start : Sound limit (World.start limit : World ι) [] [] := by
  have hheld : (World.start limit : World ι).held = 0 := Finset.sum_const_zero
  refine ⟨⟨rfl, ?_, fun _ h => absurd rfl h, List.nodup_nil⟩, fun c => ?_⟩
  · rw [hheld]
    rfl
  · simp [World.start]

theorem not_mem_of_phase (h : Sound limit w woken asleep) {p : Phase} (hp : w.phase c = p)
    (hne : ∀ k, p ≠ .waiting k) : c ∉ woken ++ asleep := by
  intro hc
  obtain ⟨k, hk⟩ := (h.waits c).mp hc
  exact hne k (hp.symm.trans hk)

variable [DecidableEq ι]

def Follows (c : ι) (before after : List ι) : Prop :=
  after = before ∨ after = before ++ [c] ∨ after = before.erase c

omit [Fintype ι] in
theorem waits_move {queue queue' : List ι} {p : Phase} {sem : Semaphore ι}
    (h : ∀ d, d ∈ queue ↔ ∃ k, w.phase d = .waiting k)
    (hself : c ∈ queue' ↔ ∃ k, p = .waiting k) (hother : ∀ d, d ≠ c → (d ∈ queue' ↔ d ∈ queue)) :
    ∀ d, d ∈ queue' ↔ ∃ k, (w.move c sem p).phase d = .waiting k := by
  intro d
  by_cases hd : d = c
  · rw [hd, move_phase_self]
    exact hself
  · rw [move_phase_of_ne hd, hother d hd, h d]

theorem sound_claim (h : Sound limit w woken asleep) {k : Nat} (hphase : w.phase c = .outside k) :
    (w.vendorSemaphore.acquire c).2 = true ∧
        Sound limit (w.move c (w.vendorSemaphore.acquire c).1 (.working k)) woken asleep ∨
      (w.vendorSemaphore.acquire c).2 = false ∧
        Sound limit (w.move c (w.vendorSemaphore.acquire c).1 (.waiting k)) woken
          (asleep ++ [c]) := by
  have hnot := not_mem_of_phase h hphase (by simp)
  rcases Semaphore.balanced_acquire h.balanced hnot with ⟨hg, hempty, hb⟩ | ⟨hq, hb⟩
  · have hheld := held_move w c (w.vendorSemaphore.acquire c).1 (.working k)
    rw [hphase] at hheld
    refine Or.inl ⟨hg, ⟨?_, waits_move h.waits (by simp [hempty]) fun d _ => Iff.rfl⟩⟩
    rwa [show (w.move c (w.vendorSemaphore.acquire c).1 (.working k)).held = w.held + 1 from hheld]
  · have hheld := held_move w c (w.vendorSemaphore.acquire c).1 (.waiting k)
    rw [hphase] at hheld
    refine Or.inr ⟨hq, ⟨?_, waits_move h.waits (by simp) fun d hd => by simp [hd]⟩⟩
    rwa [show (w.move c (w.vendorSemaphore.acquire c).1 (.waiting k)).held = w.held from hheld]

theorem sound_release (h : Sound limit w woken asleep) {k : Nat} {p : Phase}
    (hphase : w.phase c = .working k) (hp : p.load = 0) (hne : ∀ k, p ≠ .waiting k) :
    ∃ woken' asleep', Sound limit (w.move c w.vendorSemaphore.release p) woken' asleep' ∧
      woken' ++ asleep' = woken ++ asleep := by
  have hheld := held_move w c w.vendorSemaphore.release p
  rw [hphase, hp] at hheld
  have hbal : w.vendorSemaphore.Balanced limit
      ((w.move c w.vendorSemaphore.release p).held + 1) woken asleep := by
    rw [show (w.move c w.vendorSemaphore.release p).held + 1 = w.held from hheld]
    exact h.balanced
  obtain ⟨woken', asleep', hb, horder⟩ := Semaphore.balanced_release hbal
  refine ⟨woken', asleep', ⟨hb, waits_move h.waits ?_ fun d _ => by rw [horder]⟩, horder⟩
  rw [horder]
  exact iff_of_false (not_mem_of_phase h hphase (by simp)) fun ⟨j, hj⟩ => hne j hj

theorem sound_resume (h : Sound limit w woken asleep) {k : Nat} (hwoken : c ∈ woken) :
    ∃ woken' asleep', Sound limit (w.move c (w.vendorSemaphore.resume c) (.working k)) woken'
      asleep' ∧ woken' ++ asleep' = (woken ++ asleep).erase c := by
  obtain ⟨j, hj⟩ := (h.waits c).mp (List.mem_append_left asleep hwoken)
  have hheld := held_move w c (w.vendorSemaphore.resume c) (.working k)
  rw [hj] at hheld
  obtain ⟨woken', asleep', hb, horder⟩ := Semaphore.balanced_resume h.balanced hwoken
  refine ⟨woken', asleep', ⟨?_, waits_move h.waits ?_ fun d hd => ?_⟩, horder⟩
  · rwa [show (w.move c (w.vendorSemaphore.resume c) (.working k)).held = w.held + 1 from hheld]
  · simp [horder, h.balanced.nodup.mem_erase_iff]
  · rw [horder, List.mem_erase_of_ne hd]

theorem sound_cancel (h : Sound limit w woken asleep) {k : Nat}
    (hphase : w.phase c = .waiting k) :
    ∃ woken' asleep', Sound limit (w.move c (w.vendorSemaphore.abandon c) .finished) woken'
      asleep' ∧ woken' ++ asleep' = (woken ++ asleep).erase c := by
  have hheld := held_move w c (w.vendorSemaphore.abandon c) .finished
  rw [hphase] at hheld
  obtain ⟨woken', asleep', hb, horder⟩ :=
    Semaphore.balanced_abandon h.balanced ((h.waits c).mpr ⟨k, hphase⟩)
  refine ⟨woken', asleep', ⟨?_, waits_move h.waits ?_ fun d hd => ?_⟩, horder⟩
  · rwa [show (w.move c (w.vendorSemaphore.abandon c) .finished).held = w.held from hheld]
  · simp [horder, h.balanced.nodup.mem_erase_iff]
  · rw [horder, List.mem_erase_of_ne hd]

theorem sound_step (h : Sound limit w woken asleep) {a : ι × Move}
    (hstep : Step maxRetries w a w') :
    ∃ woken' asleep', Sound limit w' woken' asleep' ∧
      Follows a.1 (woken ++ asleep) (woken' ++ asleep') := by
  cases hstep with
  | granted hphase hgranted =>
      rcases sound_claim h hphase with ⟨_, hs⟩ | ⟨hq, _⟩
      · exact ⟨woken, asleep, hs, Or.inl rfl⟩
      · rw [hgranted] at hq
        cases hq
  | @queued c _ hphase hqueued =>
      rcases sound_claim h hphase with ⟨hg, _⟩ | ⟨_, hs⟩
      · rw [hqueued] at hg
        cases hg
      · exact ⟨woken, asleep ++ [c], hs, Or.inr (Or.inl (List.append_assoc _ _ _).symm)⟩
  | resume hphase hwoken =>
      obtain ⟨woken', asleep', hs, horder⟩ :=
        sound_resume h ((Semaphore.mem_waiters_woken h.balanced).mp hwoken)
      exact ⟨woken', asleep', hs, Or.inr (Or.inr horder)⟩
  | @retry _ k hphase _ =>
      obtain ⟨woken', asleep', hs, horder⟩ :=
        sound_release h (p := .outside (k + 1)) hphase rfl (by simp)
      exact ⟨woken', asleep', hs, Or.inl horder⟩
  | leave hphase =>
      obtain ⟨woken', asleep', hs, horder⟩ :=
        sound_release h (p := .finished) hphase rfl (by simp)
      exact ⟨woken', asleep', hs, Or.inl horder⟩
  | @cancelOutside c _ hphase =>
      have hheld := held_move w c w.vendorSemaphore .finished
      rw [hphase] at hheld
      refine ⟨woken, asleep, ⟨?_, waits_move h.waits ?_ fun d _ => Iff.rfl⟩, Or.inl rfl⟩
      · rw [show (w.move c w.vendorSemaphore .finished).held = w.held from hheld]
        exact h.balanced
      · exact iff_of_false (not_mem_of_phase h hphase (by simp)) (by simp)
  | cancelWaiting hphase =>
      obtain ⟨woken', asleep', hs, horder⟩ := sound_cancel h hphase
      exact ⟨woken', asleep', hs, Or.inr (Or.inr horder)⟩

theorem sound_run {as : List (ι × Move)} (hrun : Run (Step maxRetries) w as w')
    (h : Sound limit w woken asleep) : ∃ woken' asleep', Sound limit w' woken' asleep' := by
  induction hrun generalizing woken asleep with
  | nil => exact ⟨woken, asleep, h⟩
  | cons hstep _ ih =>
      obtain ⟨woken', asleep', hs, _⟩ := sound_step h hstep
      exact ih hs

/-- The queue is first in, first out: while neither of two waiting branches moves, the one that
came first stays ahead, and is woken when the other is. -/
theorem queue_order {as : List (ι × Move)} (hrun : Run (Step maxRetries) w as w')
    (h : Sound limit w woken asleep) (horder : [c, d].Sublist (woken ++ asleep))
    (hstill : ∀ a ∈ as, a.1 ≠ c ∧ a.1 ≠ d) :
    ∃ woken' asleep', Sound limit w' woken' asleep' ∧ [c, d].Sublist (woken' ++ asleep') := by
  induction hrun generalizing woken asleep with
  | nil => exact ⟨woken, asleep, h, horder⟩
  | @cons _ _ _ a _ hstep _ ih =>
      obtain ⟨woken', asleep', hs, hfollows⟩ := sound_step h hstep
      obtain ⟨hc, hd⟩ := hstill a List.mem_cons_self
      refine ih hs ?_ fun b hb => hstill b (List.mem_cons_of_mem a hb)
      rcases hfollows with heq | heq | heq
      · rwa [heq]
      · rw [heq]
        exact horder.trans (List.sublist_append_left _ _)
      · rw [heq]
        have herase := horder.erase a.1
        rwa [List.erase_of_not_mem (by simp [hc, hd])] at herase

omit [DecidableEq ι] in
theorem woken_of_ahead (h : Sound limit w woken asleep) (horder : [c, d].Sublist (woken ++ asleep))
    (hd : (d, true) ∈ w.vendorSemaphore.waiters) : (c, true) ∈ w.vendorSemaphore.waiters := by
  have hdw := (Semaphore.mem_waiters_woken h.balanced).mp hd
  refine (Semaphore.mem_waiters_woken h.balanced).mpr ?_
  obtain ⟨before, after, hsplit, hbefore, hafter⟩ := List.sublist_append_iff.mp horder
  cases before with
  | nil =>
      rw [List.nil_append] at hsplit
      have hda : d ∈ asleep := hafter.subset (hsplit ▸ List.mem_cons_of_mem c List.mem_cons_self)
      exact absurd rfl ((List.nodup_append.mp h.balanced.nodup).2.2 d hdw d hda)
  | cons x before =>
      obtain rfl : c = x := List.head_eq_of_cons_eq hsplit
      exact hbefore.subset List.mem_cons_self

end Balance

section Results

variable {ι : Type*} [Fintype ι] [DecidableEq ι] {maxRetries : ι → Nat} {w : World ι}

theorem one_le_readConcurrencyLimit (pyInt : String → Option Int) (raw : Option String) :
    1 ≤ readConcurrencyLimit pyInt raw := by
  rw [readConcurrencyLimit]
  omega

theorem exists_step {limit : Nat} {woken asleep : List ι} (hlimit : 0 < limit)
    (h : Sound limit w woken asleep) (hopen : ∃ c, w.phase c ≠ .finished) :
    ∃ a w', Step maxRetries w a w' ∧ a.2 ≠ .cancel := by
  by_cases hwork : ∃ c k, w.phase c = .working k
  · obtain ⟨c, k, hphase⟩ := hwork
    exact ⟨(c, .leave), _, .leave hphase, by simp⟩
  by_cases hout : ∃ c k, w.phase c = .outside k
  · obtain ⟨c, k, hphase⟩ := hout
    rcases sound_claim h hphase with ⟨hg, _⟩ | ⟨hq, _⟩
    · exact ⟨(c, .claim), _, .granted hphase hg, by simp⟩
    · exact ⟨(c, .claim), _, .queued hphase hq, by simp⟩
  obtain ⟨c, hc⟩ := hopen
  have hheld : w.held = 0 := Finset.sum_eq_zero fun d _ => by
    cases hd : w.phase d with
    | working k => exact absurd ⟨d, k, hd⟩ hwork
    | _ => rfl
  have hwaits : c ∈ woken ++ asleep := by
    refine (h.waits c).mpr ?_
    cases hphase : w.phase c with
    | waiting k => exact ⟨k, rfl⟩
    | outside k => exact absurd ⟨c, k, hphase⟩ hout
    | working k => exact absurd ⟨c, k, hphase⟩ hwork
    | finished => exact absurd hphase hc
  have hwoken : woken ≠ [] := by
    rcases List.mem_append.mp hwaits with hmem | hmem
    · exact List.ne_nil_of_mem hmem
    · exact (Semaphore.busy_of_asleep h.balanced (List.ne_nil_of_mem hmem)).resolve_right
        (by omega)
  obtain ⟨d, woken', rfl⟩ := List.exists_cons_of_ne_nil hwoken
  obtain ⟨k, hk⟩ := (h.waits d).mp (by simp)
  exact ⟨(d, .resume), _, .resume hk
    ((Semaphore.mem_waiters_woken h.balanced).mpr List.mem_cons_self), by simp⟩

variable {as : List (ι × Move)} {pyInt : String → Option Int} {raw : Option String}

/-- Whatever the limit is set to and however the branches of all runs interleave: those at work and
those that were handed a slot are no more than the limit, no branch sleeps unless every slot is
taken or a woken branch is about to run, and the slots go out in the order of the requests. -/
theorem slots_fair
    (hrun : Run (Step maxRetries) (World.start (readConcurrencyLimit pyInt raw)) as w) :
    ∃ woken asleep, w.vendorSemaphore.waiters = queued woken asleep ∧
      (∀ c, c ∈ woken ++ asleep ↔ ∃ k, w.phase c = .waiting k) ∧
      w.held + woken.length ≤ readConcurrencyLimit pyInt raw ∧
      (asleep ≠ [] → woken ≠ [] ∨ w.held = readConcurrencyLimit pyInt raw) ∧
      ∀ c d, [c, d].Sublist (woken ++ asleep) → ∀ bs w', Run (Step maxRetries) w bs w' →
        (∀ a ∈ bs, a.1 ≠ c ∧ a.1 ≠ d) → (d, true) ∈ w'.vendorSemaphore.waiters →
          (c, true) ∈ w'.vendorSemaphore.waiters := by
  obtain ⟨woken, asleep, hs⟩ := sound_run hrun sound_start
  refine ⟨woken, asleep, hs.balanced.queue, hs.waits, ?_,
    Semaphore.busy_of_asleep hs.balanced, fun c d horder bs w' hrun' hstill hd => ?_⟩
  · have hbalance := hs.balanced.balance
    omega
  · obtain ⟨woken', asleep', hs', horder'⟩ := queue_order hrun' hs horder hstill
    exact woken_of_ahead hs' horder' hd

/-- No run of the branches is longer than their attempts allow, and none is stuck: until every
branch has ended, one of them can go on without a cancellation. -/
theorem slots_finish
    (hrun : Run (Step maxRetries) (World.start (readConcurrencyLimit pyInt raw)) as w) :
    as.length ≤ ∑ c, 3 * (maxRetries c + 1) ∧
      ((∀ c, w.phase c = .finished) ∨ ∃ a w', Step maxRetries w a w' ∧ a.2 ≠ .cancel) := by
  refine ⟨length_le hrun, ?_⟩
  obtain ⟨woken, asleep, hs⟩ := sound_run hrun sound_start
  by_cases hend : ∀ c, w.phase c = .finished
  · exact Or.inl hend
  · exact Or.inr (exists_step (one_le_readConcurrencyLimit pyInt raw) hs
      (not_forall.mp hend))

/-- Of two branches and a limit that is set to zero, one works and one waits. -/
def twoBranches : World (Fin 2) :=
  ⟨⟨0, [(1, false)]⟩, Function.update (Function.update (fun _ => .outside 0) 0 (.working 0)) 1
    (.waiting 0)⟩

theorem run_twoBranches :
    Run (Step fun _ => 2) (World.start (readConcurrencyLimit (fun _ => some 0) (some "0")))
      [((0 : Fin 2), .claim), (1, .claim)] twoBranches :=
  .cons (.granted (k := 0) rfl rfl) (.cons (.queued (k := 0) rfl rfl) (.nil _))

theorem twoBranches_fair :
    twoBranches.held ≤ 1 ∧ (1, false) ∈ twoBranches.vendorSemaphore.waiters := by
  obtain ⟨_, _, _, _, hheld, _⟩ := slots_fair run_twoBranches
  exact ⟨(Nat.le_add_right _ _).trans hheld, by simp [twoBranches]⟩

theorem twoBranches_go_on :
    ∃ a w', Step (fun _ => 2) twoBranches a w' ∧ a.2 ≠ .cancel :=
  (slots_finish run_twoBranches).2.resolve_left fun h => absurd (h 0) (by decide)

end Results

end RfpPlatform.VendorSlots
