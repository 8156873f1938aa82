import Mathlib.Logic.Relation
import RfpPlatform.CriticRetry

namespace RfpPlatform.RetryContract

open CriticRetry Relation

variable {α β : Type*}

/-- What a callback raises. Only an `Exception` is caught by `except Exception`. -/
inductive Raised
  | exception (exc : Exn)
  | cancelled

/-- The callbacks, each of which is called at most once in an attempt. They may behave differently
in every attempt. -/
structure Callbacks (α β : Type*) where
  attemptFn : Nat → String → Except Raised (α × CriticOutput)
  buildFeedback : Nat → CriticOutput → α → Except Raised String
  onSuccess : Nat → α → Except Raised β
  emit : Option (Nat → Event → Except Raised Unit)

/-- A run, with the feedback that each of its attempts is given. The update has the events that are
due, also where nobody listens. -/
structure Trace (β : Type*) where
  feedbacks : List String
  outcome : Except Raised (RetryUpdate β)

section Loop

variable (agent : String) (vendorId : VendorId) (c : Callbacks α β) (maxRetries : Nat)

def Callbacks.notify (n : Nat) (event : Event) : Except Raised Unit :=
  match c.emit with
  | none => .ok ()
  | some emit => emit n event

def Callbacks.notifyAll (n : Nat) (events : List Event) : Except Raised Unit :=
  events.forM (c.notify n)

def finish (n : Nat) (feedback : String) (update : RetryUpdate β) : Trace β :=
  ⟨[feedback], (c.notifyAll n update.events).map (fun _ => update)⟩

def raised (feedback : String) (e : Raised) : Trace β := ⟨[feedback], .error e⟩

def Trace.after (rest : Trace β) (feedback : String) (event : Event) : Trace β :=
  ⟨feedback :: rest.feedbacks,
    rest.outcome.map (fun update => { update with events := event :: update.events })⟩

/-- The loop from attempt `n` on, with `remaining` further attempts after it. -/
def attemptFrom : Nat → Nat → String → Trace β
  | remaining, n, feedback =>
      match c.attemptFn n feedback with
      | .error .cancelled => raised feedback .cancelled
      | .error (.exception exc) => finish c n feedback (crashed agent vendorId exc n)
      | .ok (output, critic) =>
          if critic.overallVerdict ≠ .blocked then
            match c.onSuccess n output with
            | .error e => raised feedback e
            | .ok update => finish c n feedback (accepted agent vendorId update n)
          else
            match c.buildFeedback n critic output with
            | .error e => raised feedback e
            | .ok next =>
                match remaining with
                | 0 =>
                    finish c n feedback (exhausted agent vendorId maxRetries (n + 1) critic)
                | remaining + 1 =>
                    match c.notify n (retryEvent agent vendorId n) with
                    | .error e => raised feedback e
                    | .ok () =>
                        (attemptFrom remaining (n + 1) next).after feedback
                          (retryEvent agent vendorId n)

def runWithCriticRetry : Trace β := attemptFrom agent vendorId c maxRetries maxRetries 0 ""

end Loop

section Contract

variable {agent : String} {vendorId : VendorId} {c : Callbacks α β} {maxRetries : Nat}
  {n remaining : Nat} {feedback next : String}

/-- The attempt is blocked, and leads to the feedback for the next one. -/
def BlockedWith (c : Callbacks α β) (n : Nat) (feedback next : String) : Prop :=
  ∃ output critic, c.attemptFn n feedback = .ok (output, critic) ∧
    critic.overallVerdict = .blocked ∧ c.buildFeedback n critic output = .ok next

/-- What a run that starts with some attempt keeps to, by the feedback of its attempts. -/
structure Honours (agent : String) (vendorId : VendorId) (c : Callbacks α β) (maxRetries start : Nat)
    (feedbacks : List String) (update : RetryUpdate β) : Prop where
  bounded : start + feedbacks.length ≤ maxRetries + 1
  chained : ∀ n next, feedbacks[n + 1]? = some next →
    ∃ feedback, feedbacks[n]? = some feedback ∧ BlockedWith c (start + n) feedback next
  outcome :
    (∃ n feedback output critic success, feedbacks.length = n + 1 ∧
      feedbacks[n]? = some feedback ∧ c.attemptFn (start + n) feedback = .ok (output, critic) ∧
      critic.overallVerdict ≠ .blocked ∧ c.onSuccess (start + n) output = .ok success ∧
      update.result = .inr success) ∨
    ((∃ error, update.result = .inl ⟨vendorId, agent, error⟩) ∧
      ∀ n feedback output critic, feedbacks[n]? = some feedback →
        c.attemptFn (start + n) feedback = .ok (output, critic) → critic.overallVerdict = .blocked)
  retries : update.metric.retries + 1 = start + feedbacks.length

/-- The contract: a run returns, and keeps to its rules from the first attempt, without feedback,
on. -/
def Contract (agent : String) (vendorId : VendorId) (c : Callbacks α β) (maxRetries : Nat)
    (trace : Trace β) : Prop :=
  trace.feedbacks.head? = some "" ∧ ∃ update, trace.outcome = .ok update ∧
    Honours agent vendorId c maxRetries 0 trace.feedbacks update

/-- A blocked attempt is followed by the next one, once the retry has been announced. -/
def Follows (agent : String) (vendorId : VendorId) (c : Callbacks α β) (maxRetries : Nat)
    (now later : Nat × String) : Prop :=
  later.1 = now.1 + 1 ∧ now.1 < maxRetries ∧ BlockedWith c now.1 now.2 later.2 ∧
    c.notify now.1 (retryEvent agent vendorId now.1) = .ok ()

def Reached (agent : String) (vendorId : VendorId) (c : Callbacks α β) (maxRetries n : Nat)
    (feedback : String) : Prop :=
  ReflTransGen (Follows agent vendorId c maxRetries) (0, "") (n, feedback)

/-- The callbacks that an attempt leads to return. -/
def CallbacksReturn (agent : String) (vendorId : VendorId) (c : Callbacks α β)
    (maxRetries n : Nat) (feedback : String) : Prop :=
  match c.attemptFn n feedback with
  | .error .cancelled => False
  | .error (.exception exc) =>
      c.notifyAll n (crashed (α := β) agent vendorId exc n).events = .ok ()
  | .ok (output, critic) =>
      if critic.overallVerdict ≠ .blocked then
        ∃ update, c.onSuccess n output = .ok update ∧
          c.notifyAll n (accepted agent vendorId update n).events = .ok ()
      else
        (∃ next, c.buildFeedback n critic output = .ok next) ∧
          c.notifyAll n (if n < maxRetries then [retryEvent agent vendorId n]
            else (exhausted (α := β) agent vendorId maxRetries (n + 1) critic).events) = .ok ()

/-- What one attempt does to the run: something escapes, the run ends, or the next attempt follows. -/
inductive Turn (agent : String) (vendorId : VendorId) (c : Callbacks α β)
    (maxRetries remaining n : Nat) (feedback : String) (trace : Trace β) : Prop
  | escapes (e : Raised) (heq : trace = raised feedback e)
      (hstuck : ¬ CallbacksReturn agent vendorId c maxRetries n feedback)
  | ends (update : RetryUpdate β) (heq : trace = ⟨[feedback], .ok update⟩)
      (hreturn : CallbacksReturn agent vendorId c maxRetries n feedback)
      (hlast : ∀ later, ¬ Follows agent vendorId c maxRetries (n, feedback) later)
      (hhonours : Honours agent vendorId c maxRetries n [feedback] update)
  | retries (rest : Nat) (next : String) (hremaining : remaining = rest + 1)
      (heq : trace = (attemptFrom agent vendorId c maxRetries rest (n + 1) next).after feedback
        (retryEvent agent vendorId n))
      (hreturn : CallbacksReturn agent vendorId c maxRetries n feedback)
      (hfollows : Follows agent vendorId c maxRetries (n, feedback) (n + 1, next))

theorem finish_cases (update : RetryUpdate β) :
    (c.notifyAll n update.events = .ok () ∧ finish c n feedback update = ⟨[feedback], .ok update⟩) ∨
      ∃ e, c.notifyAll n update.events = .error e ∧
        finish c n feedback update = raised feedback e := by
  cases h : c.notifyAll n update.events with
  | error e => exact .inr ⟨e, rfl, by rw [finish, h]; rfl⟩
  | ok done => exact .inl ⟨rfl, by rw [finish, h]; rfl⟩

theorem notifyAll_one (event : Event) : c.notifyAll n [event] = c.notify n event := by
  simp [Callbacks.notifyAll]

/-- What follows an attempt was blocked in it. -/
theorem Follows.blocked {later : Nat × String}
    (h : Follows agent vendorId c maxRetries (n, feedback) later) :
    ∃ output critic, c.attemptFn n feedback = .ok (output, critic) ∧
      critic.overallVerdict = .blocked := by
  obtain ⟨_, _, ⟨output, critic, hattempt, hblocked, _⟩, _⟩ := h
  exact ⟨output, critic, hattempt, hblocked⟩

theorem Follows.eq {later other : Nat × String}
    (h : Follows agent vendorId c maxRetries (n, feedback) later)
    (h' : Follows agent vendorId c maxRetries (n, feedback) other) : later = other := by
  obtain ⟨hnext, _, ⟨output, critic, hattempt, _, hbuild⟩, _⟩ := h
  obtain ⟨hnext', _, ⟨output', critic', hattempt', _, hbuild'⟩, _⟩ := h'
  have hsame := Except.ok.inj (hattempt.symm.trans hattempt')
  obtain ⟨rfl, rfl⟩ := Prod.mk.inj hsame
  exact Prod.ext (hnext.trans hnext'.symm) (Except.ok.inj (hbuild.symm.trans hbuild'))

/-- A run of a single attempt that fails its vendor. -/
theorem honours_failed {error : String} {metric : Metric} {events : List Event}
    (hn : n ≤ maxRetries) (hretries : metric.retries = n)
    (hblocked : ∀ output critic, c.attemptFn n feedback = .ok (output, critic) →
      critic.overallVerdict = .blocked) :
    Honours agent vendorId c maxRetries n [feedback]
      ⟨.inl ⟨vendorId, agent, error⟩, metric, events⟩ where
  bounded := Nat.succ_le_succ hn
  chained := fun _ _ h => absurd h (by simp)
  outcome := by
    refine .inr ⟨⟨error, rfl⟩, fun k first output critic hk hattempt => ?_⟩
    cases k with
    | zero =>
        obtain rfl := Option.some.inj hk
        exact hblocked output critic hattempt
    | succ k => cases hk
  retries := congrArg (· + 1) hretries

theorem honours_accepted {output : α} {critic : CriticOutput} {success : β} (hn : n ≤ maxRetries)
    (hattempt : c.attemptFn n feedback = .ok (output, critic))
    (hverdict : critic.overallVerdict ≠ .blocked) (hsuccess : c.onSuccess n output = .ok success) :
    Honours agent vendorId c maxRetries n [feedback] (accepted agent vendorId success n) where
  bounded := Nat.succ_le_succ hn
  chained := fun _ _ h => absurd h (by simp)
  outcome := .inl ⟨0, feedback, output, critic, success, rfl, rfl, hattempt, hverdict, hsuccess, rfl⟩
  retries := rfl

theorem turn_of_error {e : Raised} (hle : n ≤ maxRetries)
    (hattempt : c.attemptFn n feedback = .error e) :
    Turn agent vendorId c maxRetries remaining n feedback
      (attemptFrom agent vendorId c maxRetries remaining n feedback) := by
  have hlast : ∀ later, ¬ Follows agent vendorId c maxRetries (n, feedback) later := by
    intro later h
    obtain ⟨_, _, hok, _⟩ := h.blocked
    rw [hattempt] at hok
    cases hok
  rw [attemptFrom.eq_def]
  simp only [hattempt]
  cases e with
  | cancelled =>
      refine .escapes .cancelled rfl ?_
      simp only [CallbacksReturn, hattempt, not_false_eq_true]
  | exception exc =>
      rcases @finish_cases α β c n feedback (crashed agent vendorId exc n) with
        ⟨hnotify, heq⟩ | ⟨e, hnotify, heq⟩
      · refine .ends _ heq ?_ hlast (honours_failed hle rfl fun output critic hok => ?_)
        · simpa only [CallbacksReturn, hattempt] using hnotify
        · rw [hattempt] at hok
          cases hok
      · refine .escapes e heq ?_
        simp [CallbacksReturn, hattempt, hnotify]

theorem turn_of_blocked {output : α} {critic : CriticOutput} (hn : n + remaining = maxRetries)
    (hattempt : c.attemptFn n feedback = .ok (output, critic))
    (hverdict : critic.overallVerdict = .blocked) :
    Turn agent vendorId c maxRetries remaining n feedback
      (attemptFrom agent vendorId c maxRetries remaining n feedback) := by
  have hle : n ≤ maxRetries := by omega
  rw [attemptFrom.eq_def]
  simp only [hattempt, hverdict, ne_eq, not_true_eq_false, if_false]
  cases hbuild : c.buildFeedback n critic output with
  | error e =>
      refine .escapes e rfl ?_
      simp [CallbacksReturn, hattempt, hverdict, hbuild]
  | ok next =>
      cases remaining with
      | zero =>
          have hmax : ¬ n < maxRetries := by omega
          rcases @finish_cases α β c n feedback
            (exhausted agent vendorId maxRetries (n + 1) critic) with
            ⟨hnotify, heq⟩ | ⟨e, hnotify, heq⟩
          · have hlast : maxRetries = n := hn.symm
            refine .ends _ heq ?_ (fun later h => hmax h.2.1)
              (honours_failed hle hlast fun output' critic' hok => ?_)
            · simp only [CallbacksReturn, hattempt, hverdict, hbuild, hmax, if_false]
              exact ⟨⟨next, rfl⟩, hnotify⟩
            · obtain ⟨rfl, rfl⟩ := Prod.mk.inj (Except.ok.inj (hattempt.symm.trans hok))
              exact hverdict
          · refine .escapes e heq ?_
            simp [CallbacksReturn, hattempt, hverdict, hbuild, hmax, hnotify]
      | succ rest =>
          have hmax : n < maxRetries := by omega
          cases hnotify : c.notify n (retryEvent agent vendorId n) with
          | error e =>
              refine .escapes e rfl ?_
              simp [CallbacksReturn, hattempt, hverdict, hbuild, hmax, notifyAll_one, hnotify]
          | ok done =>
              refine .retries rest next rfl rfl ?_
                ⟨rfl, hmax, ⟨output, critic, hattempt, hverdict, hbuild⟩, hnotify⟩
              simp [CallbacksReturn, hattempt, hverdict, hbuild, hmax, notifyAll_one, hnotify]

theorem turn_of_accepted {output : α} {critic : CriticOutput} (hle : n ≤ maxRetries)
    (hattempt : c.attemptFn n feedback = .ok (output, critic))
    (hverdict : critic.overallVerdict ≠ .blocked) :
    Turn agent vendorId c maxRetries remaining n feedback
      (attemptFrom agent vendorId c maxRetries remaining n feedback) := by
  have hlast : ∀ later, ¬ Follows agent vendorId c maxRetries (n, feedback) later := by
    intro later h
    obtain ⟨_, _, hok, hblocked⟩ := h.blocked
    obtain ⟨_, rfl⟩ := Prod.mk.inj (Except.ok.inj (hattempt.symm.trans hok))
    exact hverdict hblocked
  rw [attemptFrom.eq_def]
  simp only [hattempt, hverdict, ne_eq, not_false_eq_true, if_true]
  cases hsuccess : c.onSuccess n output with
  | error e =>
      refine .escapes e rfl ?_
      simp [CallbacksReturn, hattempt, hverdict, hsuccess]
  | ok success =>
      rcases @finish_cases α β c n feedback (accepted agent vendorId success n) with
        ⟨hnotify, heq⟩ | ⟨e, hnotify, heq⟩
      · refine .ends _ heq ?_ hlast (honours_accepted hle hattempt hverdict hsuccess)
        simp [CallbacksReturn, hattempt, hverdict, hsuccess, hnotify]
      · refine .escapes e heq ?_
        simp [CallbacksReturn, hattempt, hverdict, hsuccess, hnotify]

/-- Every attempt takes one of the turns. -/
theorem attemptFrom_turn (hn : n + remaining = maxRetries) :
    Turn agent vendorId c maxRetries remaining n feedback
      (attemptFrom agent vendorId c maxRetries remaining n feedback) := by
  have hle : n ≤ maxRetries := by omega
  cases hattempt : c.attemptFn n feedback with
  | error e => exact turn_of_error hle hattempt
  | ok result =>
      obtain ⟨output, critic⟩ := result
      by_cases hverdict : critic.overallVerdict = .blocked
      · exact turn_of_blocked hn hattempt hverdict
      · exact turn_of_accepted hle hattempt hverdict

theorem feedbacks_head (hn : n + remaining = maxRetries) :
    (attemptFrom agent vendorId c maxRetries remaining n feedback).feedbacks.head? =
      some feedback := by
  cases @attemptFrom_turn α β agent vendorId c maxRetries n remaining feedback hn with
  | escapes e heq _ => rw [heq, raised, List.head?_cons]
  | ends update heq _ _ _ => rw [heq, List.head?_cons]
  | retries rest next _ heq _ _ => rw [heq, Trace.after, List.head?_cons]

/-- A blocked attempt before a run that keeps to the rules. -/
theorem Honours.after {feedbacks : List String} {update : RetryUpdate β}
    (h : Honours agent vendorId c maxRetries (n + 1) feedbacks update)
    (hhead : feedbacks.head? = some next)
    (hfollows : Follows agent vendorId c maxRetries (n, feedback) (n + 1, next))
    (events : List Event) :
    Honours agent vendorId c maxRetries n (feedback :: feedbacks)
      { update with events := events } where
  bounded := by
    have hbound := h.bounded
    rw [List.length_cons]
    omega
  chained := by
    intro k following hk
    cases k with
    | zero =>
        have hfirst : feedbacks[0]? = some following := hk
        rw [← List.head?_eq_getElem?, hhead] at hfirst
        obtain rfl := Option.some.inj hfirst
        exact ⟨feedback, rfl, hfollows.2.2.1⟩
    | succ k =>
        obtain ⟨given, hgiven, hblocked⟩ := h.chained k following hk
        rw [Nat.add_right_comm] at hblocked
        exact ⟨given, hgiven, hblocked⟩
  outcome := by
    rcases h.outcome with ⟨k, last, output, critic, success, hlength, hlast, hattempt, hrest⟩ |
        ⟨herror, hall⟩
    · rw [Nat.add_right_comm] at hattempt hrest
      exact .inl ⟨k + 1, last, output, critic, success, congrArg (· + 1) hlength, hlast, hattempt,
        hrest⟩
    · refine .inr ⟨herror, fun k given output critic hk hattempt => ?_⟩
      cases k with
      | zero =>
          obtain rfl := Option.some.inj hk
          obtain ⟨_, _, hok, hblocked⟩ := hfollows.blocked
          obtain ⟨_, rfl⟩ := Prod.mk.inj (Except.ok.inj (hok.symm.trans hattempt))
          exact hblocked
      | succ k =>
          refine hall k given output critic hk ?_
          rw [Nat.add_right_comm]
          exact hattempt
  retries := by
    have hretries := h.retries
    rw [List.length_cons]
    dsimp only
    omega

/-- A run that returns keeps to the rules. -/
theorem attemptFrom_honours (hn : n + remaining = maxRetries) {update : RetryUpdate β}
    (h : (attemptFrom agent vendorId c maxRetries remaining n feedback).outcome = .ok update) :
    Honours agent vendorId c maxRetries n
      (attemptFrom agent vendorId c maxRetries remaining n feedback).feedbacks update := by
  induction remaining generalizing n feedback update with
  | zero =>
      cases @attemptFrom_turn α β agent vendorId c maxRetries n 0 feedback hn with
      | escapes e heq _ =>
          rw [heq] at h
          cases h
      | ends final heq _ _ hhonours =>
          rw [heq] at h ⊢
          obtain rfl := Except.ok.inj h
          exact hhonours
      | retries rest next hrest _ _ _ => cases hrest
  | succ remaining ih =>
      cases @attemptFrom_turn α β agent vendorId c maxRetries n (remaining + 1) feedback hn with
      | escapes e heq _ =>
          rw [heq] at h
          cases h
      | ends final heq _ _ hhonours =>
          rw [heq] at h ⊢
          obtain rfl := Except.ok.inj h
          exact hhonours
      | retries rest next hrest heq _ hfollows =>
          obtain rfl := Nat.succ.inj hrest
          have hn' : n + 1 + remaining = maxRetries := by omega
          rw [heq] at h ⊢
          cases hlater : (attemptFrom agent vendorId c maxRetries remaining (n + 1) next).outcome with
          | error e =>
              rw [Trace.after, hlater] at h
              cases h
          | ok later =>
              rw [Trace.after, hlater] at h
              obtain rfl := Except.ok.inj h
              exact (ih hn' hlater).after (feedbacks_head hn') hfollows _

theorem returns_iff_of_escapes {trace : Trace β} {e : Raised} (heq : trace = raised feedback e)
    (hstuck : ¬ CallbacksReturn agent vendorId c maxRetries n feedback) :
    (∃ update, trace.outcome = .ok update) ↔
      ∀ m given, ReflTransGen (Follows agent vendorId c maxRetries) (n, feedback) (m, given) →
        CallbacksReturn agent vendorId c maxRetries m given := by
  constructor
  · rintro ⟨update, h⟩
    rw [heq] at h
    cases h
  · exact fun hall => absurd (hall n feedback .refl) hstuck

theorem returns_iff_of_ends {trace : Trace β} {update : RetryUpdate β}
    (heq : trace = ⟨[feedback], .ok update⟩)
    (hreturn : CallbacksReturn agent vendorId c maxRetries n feedback)
    (hlast : ∀ later, ¬ Follows agent vendorId c maxRetries (n, feedback) later) :
    (∃ update, trace.outcome = .ok update) ↔
      ∀ m given, ReflTransGen (Follows agent vendorId c maxRetries) (n, feedback) (m, given) →
        CallbacksReturn agent vendorId c maxRetries m given := by
  refine iff_of_true ⟨update, by rw [heq]⟩ ?_
  intro m given hreached
  rcases ReflTransGen.cases_head hreached with hsame | ⟨later, hfirst, _⟩
  · obtain ⟨rfl, rfl⟩ := Prod.mk.inj hsame
    exact hreturn
  · exact absurd hfirst (hlast later)

theorem after_returns_iff {rest : Trace β} {event : Event} :
    (∃ update, (rest.after feedback event).outcome = .ok update) ↔
      ∃ update, rest.outcome = .ok update := by
  rw [Trace.after]
  cases rest.outcome with
  | error e =>
      constructor
      · rintro ⟨_, h⟩
        cases h
      · rintro ⟨_, h⟩
        cases h
  | ok update => exact iff_of_true ⟨_, rfl⟩ ⟨_, rfl⟩

/-- A run returns exactly when the callbacks of every attempt that it reaches return. -/
theorem attemptFrom_returns_iff (hn : n + remaining = maxRetries) :
    (∃ update,
      (attemptFrom agent vendorId c maxRetries remaining n feedback).outcome = .ok update) ↔
    ∀ m given, ReflTransGen (Follows agent vendorId c maxRetries) (n, feedback) (m, given) →
      CallbacksReturn agent vendorId c maxRetries m given := by
  induction remaining generalizing n feedback with
  | zero =>
      cases @attemptFrom_turn α β agent vendorId c maxRetries n 0 feedback hn with
      | escapes e heq hstuck => exact returns_iff_of_escapes heq hstuck
      | ends final heq hreturn hlast _ => exact returns_iff_of_ends heq hreturn hlast
      | retries rest next hrest _ _ _ => cases hrest
  | succ remaining ih =>
      cases @attemptFrom_turn α β agent vendorId c maxRetries n (remaining + 1) feedback hn with
      | escapes e heq hstuck => exact returns_iff_of_escapes heq hstuck
      | ends final heq hreturn hlast _ => exact returns_iff_of_ends heq hreturn hlast
      | retries rest next hrest heq hreturn hfollows =>
          obtain rfl := Nat.succ.inj hrest
          have hn' : n + 1 + remaining = maxRetries := by omega
          rw [heq, after_returns_iff, ih hn']
          constructor
          · intro hall m given hreached
            rcases ReflTransGen.cases_head hreached with hsame | ⟨later, hfirst, hrest⟩
            · obtain ⟨rfl, rfl⟩ := Prod.mk.inj hsame
              exact hreturn
            · rw [hfirst.eq hfollows] at hrest
              exact hall m given hrest
          · exact fun hall m given hreached => hall m given (ReflTransGen.head hfollows hreached)

/-- The contract is kept exactly when, in every attempt that is reached, the callbacks that it leads
to return. -/
theorem contract_iff : Contract agent vendorId c maxRetries
      (runWithCriticRetry agent vendorId c maxRetries) ↔
    ∀ n feedback, Reached agent vendorId c maxRetries n feedback →
      CallbacksReturn agent vendorId c maxRetries n feedback := by
  have hn : 0 + maxRetries = maxRetries := Nat.zero_add maxRetries
  constructor
  · rintro ⟨_, update, hreturn, _⟩
    exact (attemptFrom_returns_iff hn).mp ⟨update, hreturn⟩
  · intro hall
    obtain ⟨update, hreturn⟩ := (attemptFrom_returns_iff hn).mpr hall
    exact ⟨feedbacks_head hn, update, hreturn, attemptFrom_honours hn hreturn⟩

/-- The prompt of the feedback cannot be read, after a blocked attempt. -/
def promptless : Callbacks Unit Unit where
  attemptFn _ _ := .ok ((), criticOutput "extraction" [⟨.hard, "extraction", "c", "no quote", "e", "", false⟩])
  buildFeedback _ _ _ := .error (.exception ⟨.external, "critic_retry_feedback.yaml"⟩)
  onSuccess _ _ := .ok ()
  emit := none

theorem promptless_raises :
    ¬ Contract "extraction" "v" promptless 2 (runWithCriticRetry "extraction" "v" promptless 2) := by
  rintro ⟨_, update, hreturn, _⟩
  cases hreturn

end Contract

section Quiet

/-- Callbacks that return, with an attempt that raises exceptions only. -/
def quiet (attemptFn : AttemptFn α) : Callbacks α α where
  attemptFn n feedback := (attemptFn n feedback).mapError Raised.exception
  buildFeedback _ critic _ := .ok (criticFeedback critic)
  onSuccess _ output := .ok output
  emit := some (fun _ _ => .ok ())

variable {agent : String} {vendorId : VendorId} {attemptFn : AttemptFn α} {maxRetries : Nat}

theorem quiet_attemptFn_error {n : Nat} {feedback : String} {exc : Exn}
    (h : attemptFn n feedback = .error exc) :
    (quiet attemptFn).attemptFn n feedback = .error (.exception exc) :=
  congrArg (Except.mapError Raised.exception) h

theorem quiet_attemptFn_ok {n : Nat} {feedback : String} {result : α × CriticOutput}
    (h : attemptFn n feedback = .ok result) :
    (quiet attemptFn).attemptFn n feedback = .ok result :=
  congrArg (Except.mapError Raised.exception) h

theorem quiet_finish (n : Nat) (feedback : String) (update : RetryUpdate α) :
    (finish (quiet attemptFn) n feedback update).outcome = .ok update := by
  have hnotify : (quiet attemptFn).notifyAll n update.events = .ok () := by
    induction update.events with
    | nil => rfl
    | cons event events ih => exact ih
  rw [finish, hnotify]
  rfl

theorem quiet_attemptFrom (remaining n : Nat) (feedback : String) :
    (attemptFrom agent vendorId (quiet attemptFn) maxRetries remaining n feedback).outcome =
      .ok (CriticRetry.attemptFrom agent vendorId attemptFn maxRetries remaining n feedback) := by
  induction remaining generalizing n feedback with
  | zero =>
      rw [attemptFrom.eq_def, CriticRetry.attemptFrom.eq_def]
      dsimp only
      cases hattempt : attemptFn n feedback with
      | error exc =>
          rw [quiet_attemptFn_error hattempt]
          exact quiet_finish n feedback _
      | ok result =>
          obtain ⟨output, critic⟩ := result
          rw [quiet_attemptFn_ok hattempt]
          by_cases hverdict : critic.overallVerdict = .blocked
          · simp only [hverdict, ne_eq, not_true_eq_false, if_false]
            exact quiet_finish n feedback _
          · simp only [hverdict, ne_eq, not_false_eq_true, if_true]
            exact quiet_finish n feedback _
  | succ remaining ih =>
      rw [attemptFrom.eq_def, CriticRetry.attemptFrom.eq_def]
      dsimp only
      cases hattempt : attemptFn n feedback with
      | error exc =>
          rw [quiet_attemptFn_error hattempt]
          exact quiet_finish n feedback _
      | ok result =>
          obtain ⟨output, critic⟩ := result
          rw [quiet_attemptFn_ok hattempt]
          by_cases hverdict : critic.overallVerdict = .blocked
          · simp only [hverdict, ne_eq, not_true_eq_false, if_false]
            exact congrArg (Except.map _) (ih (n + 1) (criticFeedback critic))
          · simp only [hverdict, ne_eq, not_false_eq_true, if_true]
            exact quiet_finish n feedback _

/-- With callbacks that return, the loop is the one of the pipeline's model. -/
theorem quiet_run : (runWithCriticRetry agent vendorId (quiet attemptFn) maxRetries).outcome =
    .ok (CriticRetry.runWithCriticRetry agent vendorId attemptFn maxRetries) :=
  quiet_attemptFrom maxRetries 0 ""

end Quiet

end RfpPlatform.RetryContract
