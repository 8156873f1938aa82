import Mathlib.Algebra.Order.Ring.Rat
import Mathlib.Data.List.Nodup
import Mathlib.Logic.Function.Basic
import Mathlib.Tactic.Linarith
import RfpPlatform.PyValue
import RfpPlatform.RateWindow
import RfpPlatform.TransitionRuns

namespace RfpPlatform.ProviderRate

open RateWindow TransitionRuns

structure Settings where
  rpm : Nat
  maxAttempts : Nat

/-- `self.window`, in seconds. -/
def window : ℚ := 60

/-- `wait_exponential(multiplier=1, min=2, max=60)` after an attempt. -/
def waitExponential (attempt : Nat) : ℚ := max 2 (min (2 ^ (attempt - 1)) 60)

/-- Where a `call_with_backoff` stands. A slot is the instant that `acquire` has written down. -/
inductive Phase
  | unborn
  | sleeping
  | slotted (slot : ℚ)
  | attempting (attempt : Nat)
  | backingOff (attempt : Nat) (wake : ℚ)
  | ended
  deriving DecidableEq

variable {ι : Type} [DecidableEq ι]

/-- The limiter and the calls of a process. The lock of the limiter is kept over a sleep only. All
slots and all requests that were ever given out or started are recorded beside, with their call. -/
structure World (ι : Type) where
  clock : ℚ
  timestamps : List ℚ
  lock : Option (ι × ℚ)
  phase : ι → Phase
  slots : List (ι × ℚ)
  requests : List (ι × ℚ)

def World.fresh (start : ℚ) : World ι := ⟨start, [], none, fun _ => .unborn, [], []⟩

namespace World

def setPhase (w : World ι) (c : ι) (p : Phase) : World ι :=
  { w with phase := Function.update w.phase c p }

def expired (w : World ι) (now : ℚ) : List ℚ := expire window now w.timestamps

/-- `acquire` finds room at `now` and writes its own reading of the clock down. -/
def granted (w : World ι) (c : ι) (now stamp : ℚ) : World ι :=
  { w with
    clock := stamp
    timestamps := w.expired now ++ [stamp]
    lock := none
    phase := Function.update w.phase c (.slotted stamp)
    slots := w.slots ++ [(c, stamp)] }

/-- `acquire` sleeps until the oldest slot is expired, and a tenth of a second longer. -/
def asleep (w : World ι) (c : ι) (now oldest : ℚ) : World ι :=
  { w with
    clock := now
    timestamps := w.expired now
    lock := some (c, now + (window - (now - oldest) + 1 / 10))
    phase := Function.update w.phase c .sleeping }

def requested (w : World ι) (c : ι) (now : ℚ) (attempt : Nat) : World ι :=
  { w with
    clock := now
    phase := Function.update w.phase c (.attempting attempt)
    requests := w.requests ++ [(c, now)] }

def moved (w : World ι) (c : ι) (now : ℚ) (p : Phase) : World ι :=
  { w with clock := now, phase := Function.update w.phase c p }

end World

inductive Event (ι : Type)
  | acquired (c : ι) (now stamp : ℚ)
  | slept (c : ι) (now : ℚ)
  | crashed (c : ι) (now : ℚ)
  | woken (c : ι) (now stamp : ℚ)
  | requested (c : ι) (now : ℚ)
  | retried (c : ι) (now : ℚ)
  | failed (c : ι) (now : ℚ)
  | ended (c : ι) (now : ℚ)

/-- The steps of the calls of a process, at readings of one clock that never goes back. A limit of
zero has no oldest slot to wait for, and `acquire` raises. -/
inductive Step (cfg : Settings) : World ι → Event ι → World ι → Prop
  | acquired {w : World ι} {c : ι} {now stamp : ℚ} (hborn : w.phase c = .unborn)
      (hfree : w.lock = none) (hclock : w.clock ≤ now) (hstamp : now ≤ stamp)
      (hroom : (w.expired now).length < cfg.rpm) :
      Step cfg w (.acquired c now stamp) (w.granted c now stamp)
  | slept {w : World ι} {c : ι} {now oldest : ℚ} {rest : List ℚ} (hborn : w.phase c = .unborn)
      (hfree : w.lock = none) (hclock : w.clock ≤ now)
      (hfull : cfg.rpm ≤ (w.expired now).length) (holdest : w.expired now = oldest :: rest) :
      Step cfg w (.slept c now) (w.asleep c now oldest)
  | crashed {w : World ι} {c : ι} {now : ℚ} (hborn : w.phase c = .unborn) (hfree : w.lock = none)
      (hclock : w.clock ≤ now) (hfull : cfg.rpm ≤ (w.expired now).length)
      (hnone : w.expired now = []) :
      Step cfg w (.crashed c now) { w.moved c now .ended with timestamps := [] }
  | woken {w : World ι} {c : ι} {now stamp wake : ℚ} (hheld : w.lock = some (c, wake))
      (hclock : w.clock ≤ now) (hwake : wake ≤ now) (hstamp : now ≤ stamp) :
      Step cfg w (.woken c now stamp) (w.granted c now stamp)
  | requested {w : World ι} {c : ι} {now slot : ℚ} (hslot : w.phase c = .slotted slot)
      (hclock : w.clock ≤ now) : Step cfg w (.requested c now) (w.requested c now 1)
  | retried {w : World ι} {c : ι} {now wake : ℚ} {attempt : Nat}
      (hback : w.phase c = .backingOff attempt wake) (hclock : w.clock ≤ now) (hwake : wake ≤ now) :
      Step cfg w (.retried c now) (w.requested c now (attempt + 1))
  | failed {w : World ι} {c : ι} {now : ℚ} {attempt : Nat} (hattempt : w.phase c = .attempting attempt)
      (hclock : w.clock ≤ now) :
      Step cfg w (.failed c now) (w.moved c now
        (if attempt < cfg.maxAttempts then .backingOff attempt (now + waitExponential attempt)
         else .ended))
  | ended {w : World ι} {c : ι} {now : ℚ} (hrunning : w.phase c ≠ .unborn) (hclock : w.clock ≤ now) :
      Step cfg w (.ended c now)
        { w.moved c now .ended with lock := w.lock.filter (fun holder => decide (holder.1 ≠ c)) }

/-- The slots are what the cap is kept for, and a sleeper waits for the oldest of them. -/
structure Limited (cfg : Settings) (w : World ι) : Prop where
  tracks : Tracks window w.clock (w.slots.map Prod.snd) w.timestamps
  spaced : Spaced window cfg.rpm (w.slots.map Prod.snd)
  room : w.timestamps.length ≤ cfg.rpm
  waits : ∀ c wake, w.lock = some (c, wake) →
    ∃ oldest rest, w.timestamps = oldest :: rest ∧ wake = oldest + (window + 1 / 10)

section Limiter

variable {cfg : Settings} {w w' : World ι} {c : ι} {now stamp : ℚ}

omit [DecidableEq ι] in
theorem limited_fresh (cfg : Settings) (start : ℚ) : Limited cfg (World.fresh start : World ι) where
  tracks := tracks_nil window start
  spaced := spaced_nil window cfg.rpm
  room := Nat.zero_le cfg.rpm
  waits := fun _ _ h => absurd h (Option.some_ne_none _).symm

theorem granted_limited (hl : Limited cfg w) (hclock : w.clock ≤ now) (hstamp : now ≤ stamp)
    (hroom : (w.expired now).length < cfg.rpm) : Limited cfg (w.granted c now stamp) := by
  have htracks := hl.tracks.expire hclock
  have hslots : (w.granted c now stamp).slots.map Prod.snd = w.slots.map Prod.snd ++ [stamp] :=
    List.map_append
  constructor
  · rw [hslots]
    exact (htracks.later hstamp).snoc
  · rw [hslots]
    exact htracks.spaced_snoc hl.spaced hstamp hroom
  · rw [World.granted, List.length_append]
    exact hroom
  · exact fun _ _ h => absurd h (Option.some_ne_none _).symm

omit [DecidableEq ι] in
/-- A step that leaves the queue and the slots alone, and takes the lock from nobody but its call. -/
theorem Limited.keep (hl : Limited cfg w) (hclock : w.clock ≤ w'.clock) (hslots : w'.slots = w.slots)
    (hqueue : w'.timestamps = w.timestamps) (hlock : ∀ holder, w'.lock = some holder → w.lock = some holder) :
    Limited cfg w' := by
  refine ⟨?_, ?_, ?_, ?_⟩
  · rw [hslots, hqueue]
    exact hl.tracks.later hclock
  · rw [hslots]
    exact hl.spaced
  · rw [hqueue]
    exact hl.room
  · intro c wake h
    rw [hqueue]
    exact hl.waits c wake (hlock _ h)

theorem preserved_limited (cfg : Settings) : Preserved (Step cfg) (Limited cfg (ι := ι)) := by
  intro w e w' hl hstep
  cases hstep with
  | acquired _ _ hclock hstamp hroom => exact granted_limited hl hclock hstamp hroom
  | @slept c now oldest rest _ _ hclock _ holdest =>
      refine ⟨hl.tracks.expire hclock, hl.spaced, le_trans (length_expire_le _ _ _) hl.room, ?_⟩
      intro d wake h
      cases h
      exact ⟨oldest, rest, holdest, by ring⟩
  | @crashed c now _ hfree hclock _ hnone =>
      refine ⟨?_, hl.spaced, Nat.zero_le _, fun d wake h => ?_⟩
      · have htracks := hl.tracks.expire hclock
        rwa [← World.expired, hnone] at htracks
      · rw [World.moved, hfree] at h
        cases h
  | @woken c now stamp wake hheld hclock hwake hstamp =>
      obtain ⟨oldest, rest, hqueue, rfl⟩ := hl.waits _ _ hheld
      have hexpired : window ≤ now - oldest := by linarith
      have hlength := length_expire_cons hexpired rest
      have hroom := hl.room
      rw [hqueue, List.length_cons] at hroom
      apply granted_limited hl hclock hstamp
      rw [World.expired, hqueue]
      omega
  | requested _ hclock => exact hl.keep hclock rfl rfl (fun _ h => h)
  | retried _ hclock _ => exact hl.keep hclock rfl rfl (fun _ h => h)
  | failed _ hclock => exact hl.keep hclock rfl rfl (fun _ h => h)
  | ended _ hclock => exact hl.keep hclock rfl rfl (fun _ h => (Option.filter_eq_some_iff.mp h).1)

theorem granted_ascending (ha : Ascending w.clock w.timestamps) (hclock : w.clock ≤ now)
    (hstamp : now ≤ stamp) :
    Ascending (w.granted c now stamp).clock (w.granted c now stamp).timestamps :=
  ((ha.expire hclock).later hstamp).snoc

theorem preserved_ascending (cfg : Settings) :
    Preserved (Step cfg) (fun w : World ι => Ascending w.clock w.timestamps) := by
  intro w e w' ha hstep
  cases hstep with
  | acquired _ _ hclock hstamp _ => exact granted_ascending ha hclock hstamp
  | slept _ _ hclock _ _ => exact ha.expire hclock
  | crashed => exact ascending_nil _
  | woken _ hclock _ hstamp => exact granted_ascending ha hclock hstamp
  | requested _ hclock => exact ha.later hclock
  | retried _ hclock _ => exact ha.later hclock
  | failed _ hclock => exact ha.later hclock
  | ended _ hclock => exact ha.later hclock

end Limiter

/-- What `acquire` promises: no window has more slots than the limit, and the queue is in order and
no longer than the limit. -/
structure Windowed (cfg : Settings) (w : World ι) : Prop where
  spaced : Spaced window cfg.rpm (w.slots.map Prod.snd)
  sorted : w.timestamps.Pairwise (· ≤ ·)
  room : w.timestamps.length ≤ cfg.rpm

/-- One wait for the oldest slot always makes room, whatever the calls of a process do. -/
theorem acquire_windowed (cfg : Settings) (start : ℚ) (es : List (Event ι)) (w : World ι)
    (h : Run (Step cfg) (World.fresh start) es w) : Windowed cfg w := by
  have hlimited := h.invariant (preserved_limited cfg) (limited_fresh cfg start)
  have hascending := h.invariant (preserved_ascending cfg) (ascending_nil start)
  exact ⟨hlimited.spaced, hascending.sorted, hlimited.room⟩

section Prompted

variable {cfg : Settings} {w : World ι} {c : ι} {now stamp : ℚ}

end Prompted

section Sample

/-- One request a minute. -/
def single : Settings := ⟨1, 5⟩

def granted : World Nat := (World.fresh 0).granted 0 0 0

def asked : World Nat := granted.requested 0 0 1

def backingOff : World Nat := asked.moved 0 0 (.backingOff 1 2)

theorem granted_step : Step single (World.fresh 0) (.acquired 0 0 0) granted :=
  .acquired rfl rfl le_rfl le_rfl Nat.zero_lt_one

/-- A second call at ten seconds finds the one slot taken, and wakes when the minute is over. -/
theorem woken_windowed : Windowed single
    ((granted.asleep 1 10 0).granted 1 (601 / 10) (601 / 10)) := by
  have hwindow : granted.expired 10 = [0] := by decide +kernel
  have hfull : single.rpm ≤ (granted.expired 10).length := by decide +kernel
  have hslept : Step single granted (.slept 1 10) (granted.asleep 1 10 0) :=
    .slept rfl rfl (by decide +kernel) hfull hwindow
  have hheld : (granted.asleep 1 10 0).lock = some (1, 601 / 10) := by decide +kernel
  exact acquire_windowed single 0 _ _ (.cons granted_step (.cons hslept
    (.single (.woken hheld (by decide +kernel) le_rfl le_rfl))))

end Sample

end RfpPlatform.ProviderRate
