import Mathlib.Data.List.Infix
import Mathlib.Data.List.Nodup

namespace RfpPlatform.FairSemaphore

variable {ι : Type*}

/-- A counting semaphore with a queue of waiters. A waiter that has been woken has its slot, but
stays in the queue until it runs. -/
structure Semaphore (ι : Type*) where
  value : Nat
  waiters : List (ι × Bool)

namespace Semaphore

def wake : List (ι × Bool) → Option (List (ι × Bool))
  | [] => none
  | (c, true) :: ws => (wake ws).map ((c, true) :: ·)
  | (c, false) :: ws => some ((c, true) :: ws)

def wakeUpNext (s : Semaphore ι) : Semaphore ι :=
  match wake s.waiters with
  | some ws => ⟨s.value - 1, ws⟩
  | none => s

def locked (s : Semaphore ι) : Prop := s.value = 0 ∨ s.waiters ≠ []

instance (s : Semaphore ι) : Decidable s.locked := inferInstanceAs (Decidable (_ ∨ _))

/-- The semaphore after a task asks for a slot, and whether it has one at once. -/
def acquire (s : Semaphore ι) (c : ι) : Semaphore ι × Bool :=
  if s.locked then (⟨s.value, s.waiters ++ [(c, false)]⟩, false)
  else (⟨s.value - 1, s.waiters⟩, true)

/-- A waiter that was woken runs. -/
def resume [DecidableEq ι] (s : Semaphore ι) (c : ι) : Semaphore ι :=
  let t : Semaphore ι := { s with waiters := s.waiters.erase (c, true) }
  if 0 < t.value then t.wakeUpNext else t

def release (s : Semaphore ι) : Semaphore ι := wakeUpNext { s with value := s.value + 1 }

/-- A waiter is cancelled, and gives back the slot that it may have. -/
def abandon [DecidableEq ι] (s : Semaphore ι) (c : ι) : Semaphore ι :=
  if (c, true) ∈ s.waiters then
    wakeUpNext ⟨s.value + 1, s.waiters.erase (c, true)⟩
  else { s with waiters := s.waiters.erase (c, false) }

/-- The waiters in the order in which they came, the ones that were woken first. -/
def queued (woken asleep : List ι) : List (ι × Bool) :=
  woken.map (·, true) ++ asleep.map (·, false)

/-- Every slot is free, handed to a waiter or held. No waiter sleeps beside a free slot, unless one
is about to run, and no waiter is woken before one that came earlier. -/
structure Balanced (s : Semaphore ι) (limit held : Nat) (woken asleep : List ι) : Prop where
  queue : s.waiters = queued woken asleep
  balance : s.value + woken.length + held = limit
  awake : 0 < s.value → asleep ≠ [] → woken ≠ []
  nodup : (woken ++ asleep).Nodup

variable {s : Semaphore ι} {limit held : Nat} {woken asleep : List ι} {c : ι}

theorem wake_queued_cons (c : ι) :
    wake (queued woken (c :: asleep)) = some (queued (woken ++ [c]) asleep) := by
  induction woken with
  | nil => rfl
  | cons d woken ih =>
      calc wake (queued (d :: woken) (c :: asleep))
          = (wake (queued woken (c :: asleep))).map ((d, true) :: ·) := rfl
        _ = some (queued (d :: woken ++ [c]) asleep) := by rw [ih]; rfl

theorem wake_queued_nil : wake (queued woken ([] : List ι)) = none := by
  induction woken with
  | nil => rfl
  | cons d woken ih =>
      calc wake (queued (d :: woken) [])
          = (wake (queued woken [])).map ((d, true) :: ·) := rfl
        _ = none := by rw [ih]; rfl

/-- Where the queue stands as it should, waking one waiter keeps the balance. -/
theorem balanced_wakeUpNext (hqueue : s.waiters = queued woken asleep)
    (hbalance : s.value + woken.length + held = limit) (hfree : 0 < s.value)
    (hnodup : (woken ++ asleep).Nodup) :
    ∃ woken' asleep', s.wakeUpNext.Balanced limit held woken' asleep' ∧
      woken' ++ asleep' = woken ++ asleep := by
  cases asleep with
  | nil =>
      rw [wakeUpNext, hqueue, wake_queued_nil]
      exact ⟨woken, [], ⟨hqueue, hbalance, fun _ h => absurd rfl h, hnodup⟩, rfl⟩
  | cons c asleep =>
      have horder : (woken ++ [c]) ++ asleep = woken ++ c :: asleep := (List.append_cons _ _ _).symm
      rw [wakeUpNext, hqueue, wake_queued_cons]
      refine ⟨woken ++ [c], asleep, ⟨rfl, ?_, fun _ _ => by simp, horder ▸ hnodup⟩, horder⟩
      simp only [List.length_append, List.length_singleton]
      omega

theorem balanced_acquire (h : s.Balanced limit held woken asleep) (hc : c ∉ woken ++ asleep) :
    (s.acquire c).2 = true ∧ woken ++ asleep = [] ∧
        (s.acquire c).1.Balanced limit (held + 1) woken asleep ∨
      (s.acquire c).2 = false ∧
        (s.acquire c).1.Balanced limit held woken (asleep ++ [c]) := by
  by_cases hlocked : s.locked
  · right
    rw [acquire, if_pos hlocked]
    refine ⟨rfl, ?_, h.balance, fun hfree _ hnone => ?_, ?_⟩
    · simp only [h.queue, queued, List.map_append, List.append_assoc, List.map_cons, List.map_nil]
    · have hwait := hlocked.resolve_left (Nat.pos_iff_ne_zero.mp hfree)
      rw [h.queue, hnone] at hwait
      exact h.awake hfree (fun hnil => hwait (by rw [hnil]; rfl)) hnone
    · rw [← List.append_assoc]
      exact h.nodup.append (List.nodup_singleton c) (by simpa using hc)
  · left
    obtain ⟨hfree, hempty⟩ := not_or.mp hlocked
    have hnil : woken = [] ∧ asleep = [] := by
      simpa [h.queue, queued] using hempty
    rw [acquire, if_neg hlocked]
    refine ⟨rfl, by rw [hnil.1, hnil.2]; rfl, h.queue, ?_, fun _ hne => absurd hnil.2 hne, h.nodup⟩
    have hbalance := h.balance
    simp only
    omega

theorem mem_waiters_woken (h : s.Balanced limit held woken asleep) :
    (c, true) ∈ s.waiters ↔ c ∈ woken := by
  simp [h.queue, queued]

theorem balanced_release (h : s.Balanced limit (held + 1) woken asleep) :
    ∃ woken' asleep', s.release.Balanced limit held woken' asleep' ∧
      woken' ++ asleep' = woken ++ asleep := by
  have hbalance := h.balance
  exact balanced_wakeUpNext h.queue (by simp only; omega) (Nat.succ_pos _) h.nodup

/-- A task that sleeps has others before it that hold a slot or are about to. -/
theorem busy_of_asleep (h : s.Balanced limit held woken asleep) (hne : asleep ≠ []) :
    woken ≠ [] ∨ held = limit := by
  by_cases hfree : 0 < s.value
  · exact Or.inl (h.awake hfree hne)
  · cases woken with
    | nil =>
        have hbalance := h.balance
        simp only [List.length_nil] at hbalance
        exact Or.inr (by omega)
    | cons d woken => exact Or.inl (List.cons_ne_nil d woken)

section Leaving

variable [DecidableEq ι]

theorem queued_erase_woken (hc : c ∈ woken) :
    (queued woken asleep).erase (c, true) = queued (woken.erase c) asleep := by
  have hinj : Function.Injective fun d : ι => (d, true) := fun d e h => (Prod.mk.inj h).1
  rw [queued, queued, List.erase_append_left _ (List.mem_map_of_mem hc), List.map_erase hinj]

theorem queued_erase_asleep :
    (queued woken asleep).erase (c, false) = queued woken (asleep.erase c) := by
  have hinj : Function.Injective fun d : ι => (d, false) := fun d e h => (Prod.mk.inj h).1
  have hnot : (c, false) ∉ woken.map (fun d => (d, true)) := by simp
  rw [queued, queued, List.erase_append_right _ hnot, List.map_erase hinj]

theorem balanced_resume (h : s.Balanced limit held woken asleep) (hc : c ∈ woken) :
    ∃ woken' asleep', (s.resume c).Balanced limit (held + 1) woken' asleep' ∧
      woken' ++ asleep' = (woken ++ asleep).erase c := by
  have hqueue : s.waiters.erase (c, true) = queued (woken.erase c) asleep := by
    rw [h.queue, queued_erase_woken hc]
  have horder : woken.erase c ++ asleep = (woken ++ asleep).erase c :=
    (List.erase_append_left _ hc).symm
  have hnodup : (woken.erase c ++ asleep).Nodup := horder ▸ h.nodup.erase c
  have hlen := List.length_erase_of_mem hc
  have hpos := List.length_pos_of_mem hc
  have hbalance := h.balance
  by_cases hfree : 0 < s.value
  · rw [resume, if_pos hfree, ← horder]
    exact balanced_wakeUpNext hqueue (by simp only; omega) hfree hnodup
  · rw [resume, if_neg hfree]
    exact ⟨_, _, ⟨hqueue, by simp only; omega, fun hpos => absurd hpos hfree, hnodup⟩, horder⟩

theorem balanced_abandon (h : s.Balanced limit held woken asleep) (hc : c ∈ woken ++ asleep) :
    ∃ woken' asleep', (s.abandon c).Balanced limit held woken' asleep' ∧
      woken' ++ asleep' = (woken ++ asleep).erase c := by
  have hbalance := h.balance
  by_cases hw : c ∈ woken
  · have horder : woken.erase c ++ asleep = (woken ++ asleep).erase c :=
      (List.erase_append_left _ hw).symm
    have hlen := List.length_erase_of_mem hw
    have hpos := List.length_pos_of_mem hw
    rw [abandon, if_pos ((mem_waiters_woken h).mpr hw), ← horder]
    refine balanced_wakeUpNext ?_ (by simp only; omega) (Nat.succ_pos _)
      (horder ▸ h.nodup.erase c)
    rw [h.queue, queued_erase_woken hw]
  · have ha := (List.mem_append.mp hc).resolve_left hw
    have horder : woken ++ asleep.erase c = (woken ++ asleep).erase c :=
      (List.erase_append_right _ hw).symm
    rw [abandon, if_neg (fun hmem => hw ((mem_waiters_woken h).mp hmem))]
    refine ⟨woken, asleep.erase c, ⟨?_, hbalance, fun hfree hne => h.awake hfree ?_,
      horder ▸ h.nodup.erase c⟩, horder⟩
    · rw [h.queue, queued_erase_asleep]
    · exact fun hnil => hne (by rw [hnil]; rfl)

end Leaving

end Semaphore

end RfpPlatform.FairSemaphore
