import Mathlib.Data.List.Perm.Basic
import RfpPlatform.TransitionRuns

namespace RfpPlatform.SpawnedTasks

open TransitionRuns

variable {ω γ ε : Type*}

/-- What a task does: its operations in order, between which it starts other tasks. -/
inductive Prog (ω : Type*)
  | done
  | op (o : ω) (rest : Prog ω)
  | spawn (child rest : Prog ω)

/-- A task has a context of its own. A task that is started gets a copy of it, and what an
operation leaves behind depends on the context alone. -/
structure Tasks (ω γ ε : Type*) where
  after : γ → ω → γ
  emit : γ → ω → List ε
  fork : γ → γ

variable (T : Tasks ω γ ε)

/-- What a task and those it starts leave behind when each of them runs to its end at once. -/
def Tasks.denote : γ → Prog ω → List ε
  | _, .done => []
  | c, .op o rest => T.emit c o ++ denote (T.after c o) rest
  | c, .spawn child rest => denote (T.fork c) child ++ denote c rest

structure Config (ω γ ε : Type*) where
  tasks : List (γ × Prog ω)
  log : List ε

def Config.step (s : Config ω γ ε) (i : Nat) : Option (Config ω γ ε) :=
  s.tasks[i]?.bind fun t =>
    match t.2 with
    | .done => none
    | .op o rest => some ⟨s.tasks.set i (T.after t.1 o, rest), s.log ++ T.emit t.1 o⟩
    | .spawn child rest => some ⟨s.tasks.set i (t.1, rest) ++ [(T.fork t.1, child)], s.log⟩

def Config.start (c : γ) (p : Prog ω) : Config ω γ ε := ⟨[(c, p)], []⟩

def Config.Finished (s : Config ω γ ε) : Prop := ∀ t ∈ s.tasks, t.2 = .done

/-- What is there already and what is still to come. -/
def Config.total (s : Config ω γ ε) : List ε :=
  s.log ++ s.tasks.flatMap fun t => T.denote t.1 t.2

variable {T} {s s' : Config ω γ ε} {i : Nat}

theorem Config.Finished.total (h : s.Finished) : s.total T = s.log := by
  have hnil : (s.tasks.flatMap fun t => T.denote t.1 t.2) = [] := by
    refine List.flatMap_eq_nil_iff.mpr fun t ht => ?_
    rw [h t ht, Tasks.denote]
  rw [Config.total, hnil, List.append_nil]

end RfpPlatform.SpawnedTasks
