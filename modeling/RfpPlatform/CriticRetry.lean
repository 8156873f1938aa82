import RfpPlatform.Critics

namespace RfpPlatform.CriticRetry

open PyText

variable {α : Type*}

def hardDescriptions (flags : List CriticFlag) : List String :=
  (flags.filter CriticFlag.isHard).map CriticFlag.description

def hardBlockIf (critic : CriticOutput) (context : String) : Except Exn Unit :=
  if critic.overallVerdict = .blocked then
    .error ⟨.runtimeError,
      s!"[CRITIC BLOCK] {context}: " ++ join "; " (hardDescriptions critic.flags)⟩
  else .ok ()

def flagLine (f : CriticFlag) : String :=
  s!"- {f.description}" ++ (if f.recommendation = "" then "" else s!" → {f.recommendation}")

/-- The guidance for the next attempt, with the registry's `critic/retry_feedback` text. -/
def criticFeedback (critic : CriticOutput) : String :=
  "YOUR PREVIOUS ATTEMPT FAILED THE AUTOMATED QUALITY CHECK. " ++
    "Correct the following issues and produce the output again:\n" ++
    join "\n" ((critic.flags.filter CriticFlag.isHard).map flagLine) ++ "\n"

structure FailedVendor where
  vendorId : VendorId
  stage : String
  error : String
  deriving DecidableEq

structure Metric where
  blocks : Nat
  retries : Nat
  retrySuccess : Bool
  exhausted : Bool
  deriving DecidableEq

structure Event where
  status : String
  message : String
  deriving DecidableEq

structure RetryUpdate (α : Type*) where
  result : FailedVendor ⊕ α
  metric : Metric
  events : List Event

abbrev AttemptFn (α : Type*) := Nat → String → Except Exn (α × CriticOutput)

def crashed (agent : String) (vendorId : VendorId) (exc : Exn) (blocks : Nat) : RetryUpdate α :=
  ⟨.inl ⟨vendorId, agent, exc.message⟩, ⟨blocks, blocks, false, true⟩,
    [⟨"blocked", s!"{agent} for {vendorId} errored: {exc.message}"⟩]⟩

def accepted (agent : String) (vendorId : VendorId) (output : α) (blocks : Nat) : RetryUpdate α :=
  ⟨.inr output, ⟨blocks, blocks, decide (0 < blocks), false⟩,
    if 0 < blocks then
      [⟨"recovered", s!"{agent} for {vendorId} self-corrected after " ++
        s!"{blocks} retr" ++ (if blocks = 1 then "y" else "ies")⟩]
    else []⟩

def exhausted (agent : String) (vendorId : VendorId) (maxRetries blocks : Nat)
    (last : CriticOutput) : RetryUpdate α :=
  ⟨.inl ⟨vendorId, agent, s!"critic_hard_block after {blocks} attempts: " ++
      prefixOf 240 (join "; " (hardDescriptions last.flags))⟩,
    ⟨blocks, maxRetries, false, true⟩,
    [⟨"blocked", s!"{agent} for {vendorId} could not be corrected after " ++
      s!"{blocks} attempts — flagged as failed"⟩]⟩

def retryEvent (agent : String) (vendorId : VendorId) (attempt : Nat) : Event :=
  ⟨"retry", s!"{agent} for {vendorId} blocked (attempt {attempt + 1}) — " ++
    "retrying with critic feedback"⟩

/-- The loop of `run_with_critic_retry` from the attempt numbered `blocks` on, with
`remaining` further attempts after it. Every earlier attempt was blocked. -/
def attemptFrom (agent : String) (vendorId : VendorId) (attemptFn : AttemptFn α)
    (maxRetries : Nat) : Nat → Nat → String → RetryUpdate α
  | remaining, blocks, feedback =>
      match attemptFn blocks feedback with
      | .error exc => crashed agent vendorId exc blocks
      | .ok (output, critic) =>
          if critic.overallVerdict ≠ .blocked then accepted agent vendorId output blocks
          else
            match remaining with
            | 0 => exhausted agent vendorId maxRetries (blocks + 1) critic
            | remaining + 1 =>
                let rest := attemptFrom agent vendorId attemptFn maxRetries remaining (blocks + 1)
                  (criticFeedback critic)
                { rest with events := retryEvent agent vendorId blocks :: rest.events }

def runWithCriticRetry (agent : String) (vendorId : VendorId) (attemptFn : AttemptFn α)
    (maxRetries : Nat) : RetryUpdate α :=
  attemptFrom agent vendorId attemptFn maxRetries maxRetries 0 ""

variable {agent : String} {vendorId : VendorId} {attemptFn : AttemptFn α} {maxRetries : Nat}

theorem hardBlockIf_eq_ok {critic : CriticOutput} {context : String} :
    hardBlockIf critic context = .ok () ↔ critic.overallVerdict ≠ .blocked := by
  unfold hardBlockIf
  split <;> simp_all

/-- An output of the loop is that of its next attempt, or of the loop behind it. -/
theorem attemptFrom_step {remaining blocks : Nat} {feedback : String} {output : α}
    (h : (attemptFrom agent vendorId attemptFn maxRetries remaining blocks feedback).result
      = .inr output) :
    (∃ critic, attemptFn blocks feedback = .ok (output, critic) ∧
      critic.overallVerdict ≠ .blocked) ∨
    ∃ rest fb, remaining = rest + 1 ∧
      (attemptFrom agent vendorId attemptFn maxRetries rest (blocks + 1) fb).result
        = .inr output := by
  rw [attemptFrom.eq_def] at h
  cases hf : attemptFn blocks feedback with
  | error exc => simp [hf, crashed] at h
  | ok p =>
      obtain ⟨out, critic⟩ := p
      by_cases hv : critic.overallVerdict = .blocked
      · right
        cases remaining with
        | zero => simp [hf, hv, exhausted] at h
        | succ rest =>
            simp only [hf, hv, ne_eq, not_true_eq_false, if_false] at h
            exact ⟨rest, criticFeedback critic, rfl, h⟩
      · left
        simp only [hf, hv, ne_eq, not_false_eq_true, if_true, accepted, Sum.inr.injEq] at h
        subst h
        exact ⟨critic, rfl, hv⟩

/-- The output that leaves the loop is the output of some attempt, and the critic of
that attempt did not block it. -/
theorem attemptFrom_accepts {remaining blocks : Nat} {feedback : String} {output : α}
    (h : (attemptFrom agent vendorId attemptFn maxRetries remaining blocks feedback).result
      = .inr output) :
    ∃ n fb critic, attemptFn n fb = .ok (output, critic) ∧ critic.overallVerdict ≠ .blocked := by
  induction remaining generalizing blocks feedback with
  | zero =>
      rcases attemptFrom_step h with ⟨critic, hf, hv⟩ | ⟨rest, fb, hrest, _⟩
      · exact ⟨blocks, feedback, critic, hf, hv⟩
      · omega
  | succ remaining ih =>
      rcases attemptFrom_step h with ⟨critic, hf, hv⟩ | ⟨rest, fb, hrest, hr⟩
      · exact ⟨blocks, feedback, critic, hf, hv⟩
      · obtain rfl : remaining = rest := by omega
        exact ih hr

theorem runWithCriticRetry_accepts {output : α}
    (h : (runWithCriticRetry agent vendorId attemptFn maxRetries).result = .inr output) :
    ∃ n fb critic, attemptFn n fb = .ok (output, critic) ∧ critic.overallVerdict ≠ .blocked :=
  attemptFrom_accepts h

/-- A first attempt that its critic does not block is accepted as it is. -/
theorem runWithCriticRetry_first {output : α} {critic : CriticOutput}
    (hf : attemptFn 0 "" = .ok (output, critic)) (hv : critic.overallVerdict ≠ .blocked) :
    (runWithCriticRetry agent vendorId attemptFn maxRetries).result = .inr output := by
  rw [runWithCriticRetry, attemptFrom, hf]
  simp only [hv, ne_eq, not_false_eq_true, if_true, accepted]

/-- A failure that leaves the loop is recorded for its vendor under the agent's stage. -/
theorem attemptFrom_failed {remaining blocks : Nat} {feedback : String} {entry : FailedVendor}
    (h : (attemptFrom agent vendorId attemptFn maxRetries remaining blocks feedback).result
      = .inl entry) : entry.vendorId = vendorId ∧ entry.stage = agent := by
  induction remaining generalizing blocks feedback with
  | zero =>
      rw [attemptFrom] at h
      split at h
      · cases h
        exact ⟨rfl, rfl⟩
      · split at h
        · cases h
        · cases h
          exact ⟨rfl, rfl⟩
  | succ remaining ih =>
      rw [attemptFrom] at h
      split at h
      · cases h
        exact ⟨rfl, rfl⟩
      · split at h
        · cases h
        · exact ih h

theorem attemptFrom_all_blocked {remaining blocks : Nat} {feedback : String}
    (hall : ∀ n fb, ∃ output critic, attemptFn n fb = .ok (output, critic) ∧
      critic.overallVerdict = .blocked) :
    ∃ entry,
      (attemptFrom agent vendorId attemptFn maxRetries remaining blocks feedback).result
        = .inl entry := by
  induction remaining generalizing blocks feedback with
  | zero =>
      obtain ⟨output, critic, hf, hv⟩ := hall blocks feedback
      rw [attemptFrom, hf]
      simp [hv, exhausted]
  | succ remaining ih =>
      obtain ⟨output, critic, hf, hv⟩ := hall blocks feedback
      rw [attemptFrom, hf]
      simpa [hv] using ih

end RfpPlatform.CriticRetry
