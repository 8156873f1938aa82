import RfpPlatform.PyValue
import RfpPlatform.TransitionRuns

namespace RfpPlatform.CircuitBreaker

open TransitionRuns

inductive State
  | closed
  | opened
  | halfOpen
  deriving DecidableEq

structure Limits where
  failureThreshold : Int
  recoveryTimeout : ℚ

structure Breaker where
  failureCount : Nat
  lastFailureTime : Option ℚ
  state : State
  halfOpenInFlight : Bool
  deriving DecidableEq

def Breaker.fresh : Breaker := ⟨0, none, .closed, false⟩

def elapsedOk (cfg : Limits) (b : Breaker) (now : ℚ) : Bool :=
  b.lastFailureTime.any (fun t => decide (cfg.recoveryTimeout < now - t))

/-- The first locked section of `call`, which lets the caller in or raises. -/
def admission (cfg : Limits) (b : Breaker) (now : ℚ) : Except Exn Breaker :=
  match b.state with
  | .opened =>
      if elapsedOk cfg b now then .ok { b with state := .halfOpen, halfOpenInFlight := true }
      else .error ⟨.runtimeError, "Circuit breaker is OPEN — service unavailable"⟩
  | .halfOpen =>
      if b.halfOpenInFlight then
        .error ⟨.runtimeError, "Circuit breaker is HALF_OPEN — probing recovery"⟩
      else .ok { b with halfOpenInFlight := true }
  | .closed => .ok b

def succeed (b : Breaker) : Breaker :=
  { b with failureCount := 0, state := .closed, halfOpenInFlight := false }

def fail (cfg : Limits) (b : Breaker) (now : ℚ) : Breaker where
  failureCount := b.failureCount + 1
  lastFailureTime := some now
  state := if cfg.failureThreshold ≤ (b.failureCount + 1 : Nat) then .opened else b.state
  halfOpenInFlight := false

/-- A call whose function is running: whether it was let in to probe, and how often the breaker had
opened by then. -/
structure Call where
  probe : Bool
  openings : Nat
  deriving DecidableEq

/-- The breaker with its running calls. How often it has opened, and which calls have closed it
after how many openings, is recorded beside. -/
structure World where
  breaker : Breaker
  executing : List Call
  openings : Nat
  closings : List (Call × Nat)

def World.fresh : World := ⟨.fresh, [], 0, []⟩

namespace World

def admitted (w : World) (b : Breaker) : World :=
  { w with
    breaker := b
    executing := ⟨decide (w.breaker.state ≠ .closed), w.openings⟩ :: w.executing }

def succeeded (w : World) (c : Call) : World where
  breaker := succeed w.breaker
  executing := w.executing.erase c
  openings := w.openings
  closings := if w.breaker.state = .closed then w.closings else (c, w.openings) :: w.closings

def failed (cfg : Limits) (w : World) (c : Call) (now : ℚ) : World where
  breaker := fail cfg w.breaker now
  executing := w.executing.erase c
  openings :=
    if (fail cfg w.breaker now).state = .opened ∧ w.breaker.state ≠ .opened then w.openings + 1
    else w.openings
  closings := w.closings

/-- An exception that is no `Exception` passes both locked sections by. -/
def escaped (w : World) (c : Call) : World := { w with executing := w.executing.erase c }

end World

inductive Event
  | admitted (now : ℚ)
  | refused (now : ℚ)
  | succeeded (c : Call)
  | failed (c : Call) (now : ℚ)
  | escaped (c : Call)

inductive Step (cfg : Limits) : World → Event → World → Prop
  | admitted {w : World} {now : ℚ} {b : Breaker} (h : admission cfg w.breaker now = .ok b) :
      Step cfg w (.admitted now) (w.admitted b)
  | refused {w : World} {now : ℚ} {exc : Exn} (h : admission cfg w.breaker now = .error exc) :
      Step cfg w (.refused now) w
  | succeeded {w : World} {c : Call} (h : c ∈ w.executing) : Step cfg w (.succeeded c) (w.succeeded c)
  | failed {w : World} {c : Call} {now : ℚ} (h : c ∈ w.executing) :
      Step cfg w (.failed c now) (w.failed cfg c now)
  | escaped {w : World} {c : Call} (h : c ∈ w.executing) : Step cfg w (.escaped c) (w.escaped c)

def World.probes (w : World) : List Call := w.executing.filter Call.probe

/-- One probe at most runs while the breaker is half open, the flag is down when nothing runs, and
no call has closed the breaker that was let in before it last opened. -/
structure Lawful (w : World) : Prop where
  one_probe : w.breaker.state = .halfOpen → w.probes.length ≤ 1
  recovers : w.executing = [] → w.breaker.halfOpenInFlight = false
  current : ∀ p ∈ w.closings, p.2 ≤ p.1.openings

/-- The flag is up exactly in the half open state, which only a breaker past its threshold is in. -/
structure Sound (cfg : Limits) (w : World) : Prop where
  flag_iff : w.breaker.halfOpenInFlight = true ↔ w.breaker.state = .halfOpen
  reached : w.breaker.state ≠ .closed → cfg.failureThreshold ≤ w.breaker.failureCount

/-- The steps after which the laws still hold: no probe is let in while another one runs, no call
from before the last opening succeeds on a breaker that is not closed, and the last running call
does not escape with the flag up. -/
def Admits (w : World) : Event → Prop
  | .admitted _ => w.breaker.state ≠ .closed → w.probes = []
  | .refused _ => True
  | .succeeded c => w.breaker.state ≠ .closed → w.openings ≤ c.openings
  | .failed _ _ => True
  | .escaped c => w.breaker.halfOpenInFlight = true → w.executing.erase c ≠ []

variable {cfg : Limits} {w w' : World} {e : Event} {b : Breaker} {c : Call} {now : ℚ}

theorem closed_ne_halfOpen : State.closed ≠ .halfOpen := by decide

theorem sound_fresh (cfg : Limits) : Sound cfg .fresh where
  flag_iff := by decide
  reached := fun h => absurd rfl h

/-- A call is let in by a closed breaker as it is, and by an open one as its probe. The flag is
never down in the half open state. -/
theorem admission_cases (hs : Sound cfg w) (h : admission cfg w.breaker now = .ok b) :
    (w.breaker.state = .closed ∧ b = w.breaker) ∨
      (w.breaker.state = .opened ∧ b.state = .halfOpen ∧ b.halfOpenInFlight = true ∧
        b.failureCount = w.breaker.failureCount) := by
  rw [admission] at h
  cases hstate : w.breaker.state with
  | closed =>
      simp only [hstate] at h
      exact Or.inl ⟨rfl, (Except.ok.inj h).symm⟩
  | opened =>
      simp only [hstate] at h
      split at h
      · cases h
        exact Or.inr ⟨rfl, rfl, rfl, rfl⟩
      · cases h
  | halfOpen =>
      simp only [hstate, hs.flag_iff.mpr hstate, if_true] at h
      cases h

theorem fail_state (hs : Sound cfg w) (now : ℚ) : (fail cfg w.breaker now).state = .opened ∨
    (w.breaker.state = .closed ∧ (fail cfg w.breaker now).state = .closed) := by
  by_cases hle : cfg.failureThreshold ≤ (w.breaker.failureCount + 1 : Nat)
  · exact Or.inl (if_pos hle)
  · by_cases hstate : w.breaker.state = .closed
    · exact Or.inr ⟨hstate, (if_neg hle).trans hstate⟩
    · have hreached := hs.reached hstate
      omega

theorem preserved_sound (cfg : Limits) : Preserved (Step cfg) (Sound cfg) := by
  intro w e w' hs hstep
  cases hstep with
  | admitted h =>
      rcases admission_cases hs h with ⟨_, rfl⟩ | ⟨hopen, hstate, hflag, hcount⟩
      · exact ⟨hs.flag_iff, hs.reached⟩
      · refine ⟨iff_of_true hflag hstate, fun _ => ?_⟩
        rw [World.admitted, hcount]
        exact hs.reached (by rw [hopen]; decide)
  | refused => exact hs
  | succeeded h => exact ⟨iff_of_false Bool.false_ne_true closed_ne_halfOpen, fun hne => absurd rfl hne⟩
  | @failed c now h =>
      rcases fail_state hs now with hstate | ⟨hclosed, hstate⟩
      · refine ⟨iff_of_false Bool.false_ne_true (ne_of_eq_of_ne hstate (by decide)), fun _ => ?_⟩
        by_cases hle : cfg.failureThreshold ≤ (w.breaker.failureCount + 1 : Nat)
        · exact hle
        · simp only [fail, if_neg hle] at hstate
          have hreached := hs.reached (by rw [hstate]; decide)
          omega
      · exact ⟨iff_of_false Bool.false_ne_true (ne_of_eq_of_ne hstate (by decide)),
          fun hne => absurd hstate hne⟩
  | escaped => exact ⟨hs.flag_iff, hs.reached⟩

/-- With the flag up and nothing running, no caller is let in any more. -/
theorem stuck_forever (hs : Sound cfg w) (hnil : w.executing = [])
    (hflag : w.breaker.halfOpenInFlight = true) {es : List Event} (h : Run (Step cfg) w es w') :
    w' = w ∧ ∀ e ∈ es, ∃ now, e = .refused now := by
  have hrefused : ∀ {e v}, Step cfg w e v → v = w ∧ ∃ now, e = .refused now := by
    intro e v hstep
    cases hstep with
    | admitted h =>
        have hhalf := hs.flag_iff.mp hflag
        rcases admission_cases hs h with ⟨hclosed, _⟩ | ⟨hopen, _⟩
        · rw [hhalf] at hclosed
          cases hclosed
        · rw [hhalf] at hopen
          cases hopen
    | refused => exact ⟨rfl, _, rfl⟩
    | succeeded h | failed h | escaped h =>
        rw [hnil] at h
        cases h
  clear hs hnil hflag
  induction h with
  | nil => exact ⟨rfl, fun e he => absurd he List.not_mem_nil⟩
  | cons hstep _ ih =>
      obtain ⟨rfl, now, rfl⟩ := hrefused hstep
      obtain ⟨heq, hall⟩ := ih hrefused
      exact ⟨heq, List.forall_mem_cons.mpr ⟨⟨now, rfl⟩, hall⟩⟩

section Sample

end Sample

end RfpPlatform.CircuitBreaker
