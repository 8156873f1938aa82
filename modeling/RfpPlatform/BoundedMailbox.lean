import Mathlib.Data.List.Basic
import Mathlib.Tactic.Cases

namespace RfpPlatform.BoundedMailbox

variable {α : Type*}

/-- A queue of bounded length that a publisher offers its entries to, with what was taken off it.
The publisher gives up on a mailbox that has no room left. -/
structure Mailbox (α : Type*) where
  subscribed : Bool
  queue : List α
  taken : List α

namespace Mailbox

def opened : Mailbox α := ⟨true, [], []⟩

def offer (capacity : Nat) (a : α) (m : Mailbox α) : Mailbox α :=
  if m.subscribed then
    if m.queue.length < capacity then { m with queue := m.queue ++ [a] }
    else { m with subscribed := false }
  else m

def take (m : Mailbox α) : Option (α × Mailbox α) :=
  match m.queue with
  | [] => none
  | a :: rest => some (a, { m with queue := rest, taken := m.taken ++ [a] })

def leave (m : Mailbox α) : Mailbox α := { m with subscribed := false }

/-- Everything published since the mailbox was opened was taken or waits, in order, up to a tail
that was missed. Nothing is missed by a mailbox that is subscribed. -/
structure Holds (capacity : Nat) (since : List α) (m : Mailbox α) : Prop where
  bounded : m.queue.length ≤ capacity
  split : ∃ missed, since = m.taken ++ m.queue ++ missed ∧ (m.subscribed = true → missed = [])

variable {capacity : Nat} {since : List α} {m m' : Mailbox α} {a : α}

theorem Holds.opened : Holds capacity [] (opened : Mailbox α) :=
  ⟨Nat.zero_le _, [], rfl, fun _ => rfl⟩

theorem Holds.offer (h : Holds capacity since m) (a : α) :
    Holds capacity (since ++ [a]) (m.offer capacity a) := by
  obtain ⟨missed, hsince, hmissed⟩ := h.split
  rw [Mailbox.offer]
  split_ifs with hs hroom
  · refine ⟨?_, [], ?_, fun _ => rfl⟩
    · rw [List.length_append]
      exact hroom
    · rw [hsince, hmissed hs, List.append_nil, List.append_nil, List.append_assoc]
  · exact ⟨h.bounded, missed ++ [a], by rw [hsince, List.append_assoc], fun hf => by cases hf⟩
  · exact ⟨h.bounded, missed ++ [a], by rw [hsince, List.append_assoc], fun ht => absurd ht hs⟩

theorem take_eq_some : m.take = some (a, m') ↔
    ∃ rest, m.queue = a :: rest ∧ m' = ⟨m.subscribed, rest, m.taken ++ [a]⟩ := by
  rw [Mailbox.take]
  cases hq : m.queue with
  | nil => simp
  | cons b rest => aesop

theorem Holds.take (h : Holds capacity since m) (ht : m.take = some (a, m')) :
    Holds capacity since m' := by
  obtain ⟨rest, hq, rfl⟩ := take_eq_some.mp ht
  obtain ⟨missed, hsince, hmissed⟩ := h.split
  refine ⟨?_, missed, ?_, hmissed⟩
  · have hb := h.bounded
    rw [hq, List.length_cons] at hb
    exact Nat.le_of_succ_le hb
  · simp [hsince, hq]

theorem Holds.leave (h : Holds capacity since m) : Holds capacity since m.leave :=
  ⟨h.bounded, h.split.imp fun _ hm => ⟨hm.1, fun hf => by cases hf⟩⟩

/-- How much the mailbox has got. -/
def volume (m : Mailbox α) : Nat := m.taken.length + m.queue.length

/-- A mailbox is given up only when it has all that its capacity allows. -/
theorem volume_offer (h : m.subscribed = false → capacity ≤ m.volume) (a : α) :
    (m.offer capacity a).subscribed = false → capacity ≤ (m.offer capacity a).volume := by
  rw [Mailbox.offer]
  split_ifs with hs hroom
  · intro hf
    exact absurd (hs.symm.trans hf) (by decide)
  · intro _
    exact Nat.le_trans (Nat.not_lt.mp hroom) (Nat.le_add_left _ _)
  · exact h

theorem volume_take (ht : m.take = some (a, m')) : m'.volume = m.volume := by
  obtain ⟨rest, hq, rfl⟩ := take_eq_some.mp ht
  simp [volume, hq]
  omega

end Mailbox

end RfpPlatform.BoundedMailbox
