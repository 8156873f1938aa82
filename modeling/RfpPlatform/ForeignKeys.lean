import Mathlib.Data.List.Basic

namespace RfpPlatform.ForeignKeys

variable {T C V : Type} [DecidableEq T] [DecidableEq C] [DecidableEq V]

abbrev Row (C V : Type) := C → Option V

abbrev Database (T C V : Type) := T → List (Row C V)

inductive OnDelete
  | noAction | cascade | setNull
  deriving DecidableEq

structure ForeignKey (T C : Type) where
  child : T
  column : C
  parent : T
  key : C
  onDelete : OnDelete
  deriving DecidableEq

/-- A row without a value in the column refers to nothing. -/
def ForeignKey.refers (fk : ForeignKey T C) (r q : Row C V) : Bool :=
  (r fk.column).isSome && r fk.column = q fk.key

def Holds (fks : List (ForeignKey T C)) (db : Database T C V) : Prop :=
  ∀ fk ∈ fks, ∀ r ∈ db fk.child, (r fk.column).isSome = true →
    ∃ q ∈ db fk.parent, fk.refers r q = true

instance (fks : List (ForeignKey T C)) (db : Database T C V) : Decidable (Holds fks db) :=
  inferInstanceAs (Decidable (∀ fk ∈ fks, ∀ r ∈ db fk.child, (r fk.column).isSome = true →
    ∃ q ∈ db fk.parent, fk.refers r q = true))

section Deletion

variable (fks : List (ForeignKey T C)) (db : Database T C V) (doomed : T → Row C V → Bool)

/-- Whether the row refers by the key to a row that is going to be deleted. -/
def ForeignKey.reaches (fk : ForeignKey T C) (r : Row C V) : Bool :=
  (db fk.parent).any (fun q => doomed fk.parent q && fk.refers r q)

def cascadeKey (fk : ForeignKey T C) : T → Row C V → Bool := fun t r =>
  doomed t r || (fk.onDelete = .cascade && t = fk.child && fk.reaches db doomed r)

/-- What a deletion takes with it. The keys are in the order in which their tables were created,
so that a table's own deletions are known before those of the tables that refer to it. -/
def cascade : T → Row C V → Bool := fks.foldl (cascadeKey db) doomed

def nullify (t : T) (r : Row C V) : Row C V := fun c =>
  if fks.any (fun fk => fk.onDelete = .setNull && fk.child = t && fk.column = c &&
    fk.reaches db doomed r) then none else r c

def remaining : Database T C V := fun t =>
  ((db t).filter (fun r => !doomed t r)).map (nullify fks db doomed t)

/-- `DELETE FROM t WHERE p`, which is refused if a key does not hold after it. -/
def delete (t : T) (p : Row C V → Bool) : Option (Database T C V) :=
  let left := remaining fks db (cascade fks db (fun u r => u = t && p r))
  if Holds fks left then some left else none

end Deletion

section Rules

variable {fks : List (ForeignKey T C)} {db db' : Database T C V} {d : T → Row C V → Bool}
  {fk : ForeignKey T C} {t : T} {p : Row C V → Bool} {r q : Row C V}

omit [DecidableEq C] in
theorem doomed_cascade (h : d t r = true) : cascade fks db d t r = true := by
  unfold cascade
  induction fks generalizing d with
  | nil => exact h
  | cons fk fks ih => exact ih (by rw [cascadeKey, h, Bool.true_or])

/-- A row that has lost values of columns that keys of its table set to null. -/
def Weakened (fks : List (ForeignKey T C)) (t : T) (r r₀ : Row C V) : Prop :=
  ∀ c, r c = r₀ c ∨
    (r c = none ∧ ∃ fk ∈ fks, fk.onDelete = .setNull ∧ fk.child = t ∧ fk.column = c)

section Weakening

omit [DecidableEq T] [DecidableEq C] [DecidableEq V]

theorem Weakened.refl (t : T) (r : Row C V) : Weakened fks t r r := fun _ => Or.inl rfl

theorem Weakened.trans {r₁ r₂ : Row C V} (h : Weakened fks t r r₁) (h' : Weakened fks t r₁ r₂) :
    Weakened fks t r r₂ := by
  intro c
  rcases h c with heq | hnone
  · rcases h' c with heq' | ⟨hnone, hfk⟩
    · exact Or.inl (heq.trans heq')
    · exact Or.inr ⟨heq.trans hnone, hfk⟩
  · exact Or.inr hnone

theorem Weakened.value {r₀ : Row C V} {c : C} {v : V} (h : Weakened fks t r r₀)
    (hv : r c = some v) : r₀ c = some v := by
  rcases h c with heq | ⟨hnone, _⟩
  · exact heq ▸ hv
  · rw [hnone] at hv
    cases hv

theorem Weakened.column {r₀ : Row C V} {c : C} (h : Weakened fks t r r₀)
    (hc : ∀ fk ∈ fks, fk.onDelete = .setNull → fk.child = t → fk.column ≠ c) : r c = r₀ c := by
  rcases h c with heq | ⟨_, fk, hfk, hnull, hchild, hcolumn⟩
  · exact heq
  · exact absurd hcolumn (hc fk hfk hnull hchild)

end Weakening

/-- A deletion only loses rows and values. -/
theorem weakened_of_delete {u : T} (h : delete fks db t p = some db') (hr : r ∈ db' u) :
    ∃ r₀ ∈ db u, Weakened fks u r r₀ ∧ (u = t → p r₀ = false) := by
  unfold delete at h
  simp only [Option.ite_none_right_eq_some, Option.some.injEq] at h
  obtain ⟨_, rfl⟩ := h
  obtain ⟨r₀, hr₀, rfl⟩ := List.mem_map.mp hr
  obtain ⟨hr₀, hkept⟩ := List.mem_filter.mp hr₀
  refine ⟨r₀, hr₀, fun c => ?_, ?_⟩
  · unfold nullify
    split
    · rename_i hany
      obtain ⟨fk, hfk, hset⟩ := List.any_eq_true.mp hany
      simp only [Bool.and_eq_true, decide_eq_true_eq] at hset
      exact Or.inr ⟨rfl, fk, hfk, hset.1.1.1, hset.1.1.2, hset.1.2⟩
    · exact Or.inl rfl
  · rintro rfl
    rw [Bool.eq_false_iff]
    intro hp
    rw [doomed_cascade (by simp [hp])] at hkept
    cases hkept

end Rules

end RfpPlatform.ForeignKeys
