import Mathlib.Algebra.Order.Group.Defs
import Mathlib.Data.List.Perm.Subperm
import Mathlib.Data.List.TakeWhile

namespace RfpPlatform.RateWindow

variable {T : Type*} [AddCommGroup T] [LinearOrder T]

/-- The instants of a list that lie in the window of a width from an instant on. -/
def inWindow (width start : T) (xs : List T) : List T :=
  xs.filter (fun x => decide (start ≤ x ∧ x < start + width))

/-- No window of the width holds more instants than the limit. -/
def Spaced (width : T) (limit : Nat) (xs : List T) : Prop :=
  ∀ start, (inWindow width start xs).length ≤ limit

/-- The instants that still count at `now`. -/
def recent (width now : T) (xs : List T) : List T := xs.filter (fun x => decide (now - x < width))

/-- What is left of a queue of instants after the expired ones are taken off its front. -/
def expire (width now : T) (xs : List T) : List T :=
  xs.dropWhile (fun x => decide (width ≤ now - x))

variable {width now : T} {limit : Nat} {xs ys : List T} {x : T}

theorem spaced_nil (width : T) (limit : Nat) : Spaced width limit [] := fun _ => Nat.zero_le limit

/-- The queue has every instant of the history that is not yet expired at the clock. -/
def Tracks (width clock : T) (history queue : List T) : Prop :=
  ∃ old, history = old ++ queue ∧ ∀ s ∈ old, width ≤ clock - s

theorem tracks_nil (width clock : T) : Tracks width clock [] [] := ⟨[], rfl, fun _ h => absurd h List.not_mem_nil⟩

section Tracks

variable {clock : T} {history queue : List T}

theorem Tracks.snoc (h : Tracks width clock history queue) :
    Tracks width clock (history ++ [x]) (queue ++ [x]) := by
  obtain ⟨old, rfl, hold⟩ := h
  exact ⟨old, List.append_assoc _ _ _, hold⟩

theorem Tracks.recent_le (h : Tracks width clock history queue) :
    (recent width clock history).length ≤ queue.length := by
  obtain ⟨old, rfl, hold⟩ := h
  have hnone : old.filter (fun x => decide (clock - x < width)) = [] := by
    rw [List.filter_eq_nil_iff]
    intro s hs
    rw [decide_eq_true_iff, not_lt]
    exact hold s hs
  rw [recent, List.filter_append, hnone, List.nil_append]
  exact List.length_filter_le _ _

theorem length_expire_le (width now : T) (queue : List T) :
    (RateWindow.expire width now queue).length ≤ queue.length :=
  (List.dropWhile_sublist _).length_le

theorem length_expire_cons {head : T} (h : width ≤ now - head) (rest : List T) :
    (RateWindow.expire width now (head :: rest)).length ≤ rest.length := by
  rw [RateWindow.expire, List.dropWhile_cons, if_pos (decide_eq_true h)]
  exact length_expire_le width now rest

variable [IsOrderedAddMonoid T]

/-- An instant can be added where fewer than the limit still count. -/
theorem Spaced.snoc (h : Spaced width limit xs) (hfew : (recent width x xs).length < limit) :
    Spaced width limit (xs ++ [x]) := by
  intro start
  rw [inWindow, List.filter_append, List.length_append]
  by_cases hx : start ≤ x ∧ x < start + width
  · have hsub : (xs.filter (fun y => decide (start ≤ y ∧ y < start + width))).length ≤
        (recent width x xs).length := by
      apply List.Sublist.length_le
      apply List.monotone_filter_right
      intro y hy
      rw [decide_eq_true_iff] at hy ⊢
      exact sub_lt_iff_lt_add'.mpr (lt_of_lt_of_le hx.2 (add_le_add_left hy.1 width))
    have hone : ([x].filter (fun y => decide (start ≤ y ∧ y < start + width))).length ≤ 1 :=
      List.length_filter_le _ _
    omega
  · have hnone : [x].filter (fun y => decide (start ≤ y ∧ y < start + width)) = [] :=
      List.filter_cons_of_neg (by simpa using hx)
    rw [hnone, List.length_nil, Nat.add_zero]
    exact h start

theorem Tracks.later (h : Tracks width clock history queue) (hle : clock ≤ now) :
    Tracks width now history queue := by
  obtain ⟨old, heq, hold⟩ := h
  exact ⟨old, heq, fun s hs => le_trans (hold s hs) (sub_le_sub_right hle s)⟩

theorem Tracks.expire (h : Tracks width clock history queue) (hle : clock ≤ now) :
    Tracks width now history (expire width now queue) := by
  obtain ⟨old, heq, hold⟩ := h.later hle
  refine ⟨old ++ queue.takeWhile (fun x => decide (width ≤ now - x)), ?_, fun s hs => ?_⟩
  · rw [List.append_assoc, RateWindow.expire, List.takeWhile_append_dropWhile, heq]
  · rcases List.mem_append.mp hs with hs | hs
    · exact hold s hs
    · have hexpired := List.mem_takeWhile_imp hs
      exact of_decide_eq_true hexpired

/-- A new instant keeps the history spaced where the queue has room for it. -/
theorem Tracks.spaced_snoc (h : Tracks width clock history queue) (hs : Spaced width limit history)
    (hle : clock ≤ x) (hroom : queue.length < limit) : Spaced width limit (history ++ [x]) :=
  hs.snoc (lt_of_le_of_lt (h.later hle).recent_le hroom)

end Tracks

/-- The instants of a queue ascend, and none of them is ahead of the clock. -/
structure Ascending (clock : T) (queue : List T) : Prop where
  sorted : queue.Pairwise (· ≤ ·)
  past : ∀ s ∈ queue, s ≤ clock

section Ascending

variable {clock : T} {queue : List T}

omit [AddCommGroup T]

theorem ascending_nil (clock : T) : Ascending clock [] :=
  ⟨List.Pairwise.nil, fun _ h => absurd h List.not_mem_nil⟩

theorem Ascending.later (h : Ascending clock queue) (hle : clock ≤ now) : Ascending now queue :=
  ⟨h.sorted, fun s hs => le_trans (h.past s hs) hle⟩

theorem Ascending.sublist (h : Ascending clock queue) (hsub : xs.Sublist queue) :
    Ascending clock xs :=
  ⟨h.sorted.sublist hsub, fun s hs => h.past s (hsub.subset hs)⟩

/-- The reading of the clock goes last. -/
theorem Ascending.snoc (h : Ascending clock queue) : Ascending clock (queue ++ [clock]) := by
  constructor
  · rw [List.pairwise_append]
    refine ⟨h.sorted, List.pairwise_singleton _ _, fun s hs t ht => ?_⟩
    rw [List.mem_singleton.mp ht]
    exact h.past s hs
  · intro s hs
    rcases List.mem_append.mp hs with hs | hs
    · exact h.past s hs
    · exact le_of_eq (List.mem_singleton.mp hs)

end Ascending

theorem Ascending.expire {clock : T} {queue : List T} (h : Ascending clock queue) (hle : clock ≤ now) :
    Ascending now (expire width now queue) :=
  (h.later hle).sublist (List.dropWhile_sublist _)

end RfpPlatform.RateWindow
