import Mathlib.Algebra.BigOperators.Group.List.Basic
import Mathlib.Algebra.GroupWithZero.Nat
import Mathlib.Data.List.Basic

namespace RfpPlatform.TransitionRuns

variable {σ τ ℓ μ : Type*}

/-- A finite run of a labelled transition relation, with its labels in order. -/
inductive Run (step : σ → ℓ → σ → Prop) : σ → List ℓ → σ → Prop
  | nil (s : σ) : Run step s [] s
  | cons {s t u : σ} {a : ℓ} {as : List ℓ} :
      step s a t → Run step t as u → Run step s (a :: as) u

/-- The steps of a relation whose label is admitted in the state it is taken from. -/
def Guarded (admits : σ → ℓ → Prop) (step : σ → ℓ → σ → Prop) (s : σ) (a : ℓ) (t : σ) : Prop :=
  admits s a ∧ step s a t

def Preserved (step : σ → ℓ → σ → Prop) (I : σ → Prop) : Prop :=
  ∀ s a t, I s → step s a t → I t

def Reachable (step : σ → ℓ → σ → Prop) (s t : σ) : Prop := ∃ as, Run step s as t

variable {step : σ → ℓ → σ → Prop} {s t u : σ} {as bs : List ℓ} {a : ℓ}

theorem Run.append (h : Run step s as t) (k : Run step t bs u) : Run step s (as ++ bs) u := by
  induction h with
  | nil => exact k
  | cons hs _ ih => exact .cons hs (ih k)

theorem Run.snoc (h : Run step s as t) (k : step t a u) : Run step s (as ++ [a]) u :=
  h.append (.cons k (.nil u))

theorem Run.single (k : step s a t) : Run step s [a] t := .cons k (.nil t)

theorem Run.split {as bs : List ℓ} (h : Run step s (as ++ bs) u) :
    ∃ t, Run step s as t ∧ Run step t bs u := by
  induction as generalizing s with
  | nil => exact ⟨s, .nil s, h⟩
  | cons a as ih =>
      cases h with
      | cons hs hr =>
          obtain ⟨t, hp, hq⟩ := ih hr
          exact ⟨t, .cons hs hp, hq⟩

theorem Run.invariant {I : σ → Prop} (hI : Preserved step I) (h : Run step s as t)
    (hs : I s) : I t := by
  induction h with
  | nil => exact hs
  | cons hstep _ ih => exact ih (hI _ _ _ hs hstep)

/-- A potential that pays for the cost of every step bounds the cost of a run. -/
theorem Run.cost_le {cost : ℓ → Nat} {potential : σ → Nat}
    (hpays : ∀ s a t, step s a t → cost a + potential t ≤ potential s) (h : Run step s as t) :
    (as.map cost).sum + potential t ≤ potential s := by
  induction h with
  | nil => exact Nat.le_of_eq (Nat.zero_add _)
  | cons hstep _ ih =>
      rw [List.map_cons, List.sum_cons]
      have hpaid := hpays _ _ _ hstep
      omega

/-- An invariant of a state together with the labels that led to it. -/
theorem Run.history {T : σ → List ℓ → Prop}
    (hT : ∀ s as a t, T s as → step s a t → T t (as ++ [a])) (h : Run step s as t) (bs : List ℓ)
    (hs : T s bs) : T t (bs ++ as) := by
  induction h generalizing bs with
  | nil => rwa [List.append_nil]
  | @cons s t u a as hstep _ ih =>
      rw [List.append_cons]
      exact ih (bs ++ [a]) (hT s bs a t hs hstep)

theorem Run.map {step' : τ → μ → τ → Prop} (f : σ → τ) (g : ℓ → μ)
    (hf : ∀ s a t, step s a t → step' (f s) (g a) (f t)) (h : Run step s as t) :
    Run step' (f s) (as.map g) (f t) := by
  induction h with
  | nil => exact .nil _
  | cons hstep _ ih => exact .cons (hf _ _ _ hstep) ih

theorem Run.of_foldl (f : σ → ℓ → σ) (s : σ) (as : List ℓ) :
    Run (fun s a t => f s a = t) s as (as.foldl f s) := by
  induction as generalizing s with
  | nil => exact .nil s
  | cons a as ih => exact .cons rfl (ih (f s a))

theorem Run.forget {admits : σ → ℓ → Prop} (h : Run (Guarded admits step) s as t) :
    Run step s as t := by
  induction h with
  | nil => exact .nil _
  | cons hs _ ih => exact .cons hs.2 ih

theorem Run.guarded {p : ℓ → Prop} (h : Run step s as t) (hp : ∀ a ∈ as, p a) :
    Run (Guarded (fun _ a => p a) step) s as t := by
  induction h with
  | nil => exact .nil _
  | cons hs _ ih =>
      obtain ⟨ha, has⟩ := List.forall_mem_cons.mp hp
      exact .cons ⟨ha, hs⟩ (ih has)

theorem Run.guarded_mono {admits admits' : σ → ℓ → Prop} (h : Run (Guarded admits step) s as t)
    (hle : ∀ s a, admits s a → admits' s a) : Run (Guarded admits' step) s as t := by
  induction h with
  | nil => exact .nil _
  | cons hs _ ih => exact .cons ⟨hle _ _ hs.1, hs.2⟩ ih

theorem Preserved.and {I J : σ → Prop} (hI : Preserved step I)
    (hJ : ∀ s a t, I s → J s → step s a t → J t) : Preserved step (fun s => I s ∧ J s) := by
  intro s a t hs hst
  exact ⟨hI s a t hs.1 hst, hJ s a t hs.1 hs.2 hst⟩

theorem Preserved.guarded {I : σ → Prop} (hI : Preserved step I) (admits : σ → ℓ → Prop) :
    Preserved (Guarded admits step) I := fun s a t hs hst => hI s a t hs hst.2

/-- Every label is admitted in the state that a computed machine has reached by then. -/
def AllAdmitted (f : σ → ℓ → σ) (admits : σ → ℓ → Prop) : σ → List ℓ → Prop
  | _, [] => True
  | s, a :: as => admits s a ∧ AllAdmitted f admits (f s a) as

theorem foldl_iff_allAdmitted {f : σ → ℓ → σ} {admits : σ → ℓ → Prop} {I : σ → Prop}
    (hI : ∀ s a, I (f s a) ↔ I s ∧ admits s a) (s : σ) (as : List ℓ) :
    I (as.foldl f s) ↔ I s ∧ AllAdmitted f admits s as := by
  induction as generalizing s with
  | nil => exact (and_iff_left trivial).symm
  | cons a as ih =>
      rw [List.foldl_cons, ih, hI, AllAdmitted, and_assoc]

/-- When a step from a state of the invariant keeps it exactly if its label is admitted, a run
stays in the invariant exactly if all its labels are. -/
theorem forall_prefix_iff_allAdmitted {f : σ → ℓ → σ} {admits : σ → ℓ → Prop} {I : σ → Prop}
    (hI : ∀ s a, I s → (I (f s a) ↔ admits s a)) (hs : I s) (as : List ℓ) :
    (∀ pre, pre <+: as → I (pre.foldl f s)) ↔ AllAdmitted f admits s as := by
  induction as generalizing s with
  | nil =>
      refine iff_of_true (fun pre hpre => ?_) trivial
      rw [List.prefix_nil.mp hpre]
      exact hs
  | cons a as ih =>
      constructor
      · intro h
        have ha : I (f s a) := h [a] ⟨as, rfl⟩
        exact ⟨(hI s a hs).mp ha,
          (ih ha).mp (fun pre hpre => h (a :: pre) ((List.prefix_cons_inj a).mpr hpre))⟩
      · rintro ⟨ha, has⟩ pre hpre
        cases pre with
        | nil => exact hs
        | cons b pre =>
            obtain ⟨rfl, htail⟩ := List.cons_prefix_cons.mp hpre
            exact (ih ((hI s b hs).mpr ha)).mpr has pre htail

/-- A list of labels is admitted, if each of them is in the state that those before it lead to. -/
theorem allAdmitted_iff_split {f : σ → ℓ → σ} {admits : σ → ℓ → Prop} {s : σ} {as : List ℓ} :
    AllAdmitted f admits s as ↔
      ∀ pre a post, as = pre ++ a :: post → admits (pre.foldl f s) a := by
  induction as generalizing s with
  | nil => simp [AllAdmitted]
  | cons b as ih =>
      rw [AllAdmitted, ih]
      constructor
      · rintro ⟨hb, has⟩ pre a post heq
        cases pre with
        | nil =>
            obtain ⟨rfl, _⟩ := List.cons.inj heq
            exact hb
        | cons c pre =>
            obtain ⟨rfl, htail⟩ := List.cons.inj heq
            exact has pre a post htail
      · intro h
        exact ⟨h [] b as rfl, fun pre a post heq => h (b :: pre) a post (by rw [heq]; rfl)⟩

/-- The steps that lead to a state of the invariant. -/
def Into (I : σ → Prop) (step : σ → ℓ → σ → Prop) (s : σ) (a : ℓ) (t : σ) : Prop :=
  step s a t ∧ I t

/-- When a step from a state of the invariant leads into it exactly if its label is admitted, the
admitted runs are the runs through states of the invariant. Another property that every step keeps
may help to show this. -/
theorem guarded_iff_into_of_preserved {admits : σ → ℓ → Prop} {I J : σ → Prop}
    (hJ : Preserved step J) (hI : ∀ s a t, J s → I s → step s a t → (I t ↔ admits s a))
    (hj : J s) (hs : I s) : Run (Guarded admits step) s as t ↔ Run (Into I step) s as t := by
  constructor
  · intro h
    induction h with
    | nil => exact .nil _
    | cons hstep _ ih =>
        have ht := (hI _ _ _ hj hs hstep.2).mpr hstep.1
        exact .cons ⟨hstep.2, ht⟩ (ih (hJ _ _ _ hj hstep.2) ht)
  · intro h
    induction h with
    | nil => exact .nil _
    | cons hstep _ ih =>
        have ha := (hI _ _ _ hj hs hstep.1).mp hstep.2
        exact .cons ⟨ha, hstep.1⟩ (ih (hJ _ _ _ hj hstep.1) hstep.2)

theorem guarded_iff_into {admits : σ → ℓ → Prop} {I : σ → Prop}
    (hI : ∀ s a t, I s → step s a t → (I t ↔ admits s a)) (hs : I s) :
    Run (Guarded admits step) s as t ↔ Run (Into I step) s as t :=
  guarded_iff_into_of_preserved (J := fun _ => True) (fun _ _ _ _ _ => trivial)
    (fun s a t _ => hI s a t) trivial hs

theorem Reachable.refl (s : σ) : Reachable step s s := ⟨[], .nil s⟩

theorem Reachable.tail (h : Reachable step s t) (k : step t a u) : Reachable step s u := by
  obtain ⟨as, hr⟩ := h
  exact ⟨as ++ [a], hr.snoc k⟩

theorem Reachable.invariant {I : σ → Prop} (hI : Preserved step I) (h : Reachable step s t)
    (hs : I s) : I t := by
  obtain ⟨as, hr⟩ := h
  exact hr.invariant hI hs

/-- A relation between states that every step of the first system can follow in the
second by finitely many steps is carried along whole runs. -/
theorem Run.simulates {step' : τ → μ → τ → Prop} {R : σ → τ → Prop}
    (hR : ∀ s a t s', R s s' → step s a t → ∃ t', R t t' ∧ Reachable step' s' t')
    (h : Run step s as t) {s' : τ} (hs : R s s') :
    ∃ t', R t t' ∧ Reachable step' s' t' := by
  induction h generalizing s' with
  | nil => exact ⟨s', hs, .refl s'⟩
  | cons hstep _ ih =>
      obtain ⟨m', hm, bs, hb⟩ := hR _ _ _ _ hs hstep
      obtain ⟨t', ht, cs, hc⟩ := ih hm
      exact ⟨t', ht, bs ++ cs, hb.append hc⟩

end RfpPlatform.TransitionRuns
