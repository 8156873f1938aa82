import Mathlib.Logic.Basic

namespace RfpPlatform.ExceptRules

universe u v

variable {ε : Type u} {α β γ : Type v} {x : Except ε α} {f : α → Except ε β} {e : ε} {a b : α}

/-- A guard of a computation that can raise. -/
def raiseIf (c : Prop) [Decidable c] (e : ε) : Except ε Unit := if c then .error e else .ok ()

def orRaise (o : Option α) (e : ε) : Except ε α := o.elim (.error e) .ok

theorem orRaise_eq_ok {o : Option α} : orRaise o e = .ok a ↔ o = some a := by
  cases o with
  | none => simp [orRaise]
  | some a => simp [orRaise]

theorem raiseIf_eq_ok {c : Prop} [Decidable c] {r : Unit} : raiseIf c e = .ok r ↔ ¬ c := by
  by_cases hc : c <;> simp [raiseIf, hc]

theorem raiseIf_congr {c d : Prop} [Decidable c] [Decidable d] (h : c ↔ d) :
    raiseIf c e = raiseIf d e := by
  by_cases hc : c
  · rw [raiseIf, raiseIf, if_pos hc, if_pos (h.mp hc)]
  · rw [raiseIf, raiseIf, if_neg hc, if_neg (fun hd => hc (h.mpr hd))]

theorem map_eq_bind {g : α → β} : x.map g = x >>= fun a => pure (g a) := by
  cases x <;> rfl

theorem bind_eq_ok {c : β} : (x >>= f) = .ok c ↔ ∃ a, x = .ok a ∧ f a = .ok c := by
  cases x with
  | error e => simp [bind, Except.bind]
  | ok a => simp [bind, Except.bind]

theorem ok_bind : (Except.ok a >>= f : Except ε β) = f a := rfl

theorem pure_eq_ok : (pure a : Except ε α) = .ok b ↔ a = b := by
  simp [pure, Except.pure]

theorem toOption_eq_some : x.toOption = some a ↔ x = .ok a := by
  cases x with
  | error e => simp [Except.toOption]
  | ok a => simp [Except.toOption]

theorem exists_ok_of_toBool (h : x.toBool = true) : ∃ a, x = .ok a := by
  cases x with
  | error e => cases h
  | ok a => exact ⟨a, rfl⟩

/-- A loop that stops at the first exception returns when no element raises. -/
theorem mapM_eq_ok {xs : List α} {ys : List β} :
    xs.mapM f = .ok ys ↔
      (∀ x ∈ xs, ∃ y, f x = .ok y) ∧ xs.filterMap (fun x => (f x).toOption) = ys := by
  induction xs generalizing ys with
  | nil => simp [pure_eq_ok]
  | cons x xs ih =>
      have hcons : ∀ {y}, f x = .ok y → (x :: xs).filterMap (fun x => (f x).toOption) =
          y :: xs.filterMap (fun x => (f x).toOption) := fun hy =>
        List.filterMap_cons_some (toOption_eq_some.mpr hy)
      rw [List.mapM_cons, bind_eq_ok]
      constructor
      · rintro ⟨y, hy, hrest⟩
        obtain ⟨zs, hzs, hpure⟩ := bind_eq_ok.mp hrest
        obtain ⟨hall, rfl⟩ := ih.mp hzs
        refine ⟨List.forall_mem_cons.mpr ⟨⟨y, hy⟩, hall⟩, ?_⟩
        rw [hcons hy]
        exact pure_eq_ok.mp hpure
      · rintro ⟨hall, rfl⟩
        obtain ⟨⟨y, hy⟩, hrest⟩ := List.forall_mem_cons.mp hall
        refine ⟨y, hy, bind_eq_ok.mpr ⟨_, ih.mpr ⟨hrest, rfl⟩, ?_⟩⟩
        rw [hcons hy]
        rfl

theorem mapM_map_eq_ok {g : γ → α} {h : γ → β} (hf : ∀ c, f (g c) = .ok (h c)) (cs : List γ) :
    (cs.map g).mapM f = .ok (cs.map h) := by
  induction cs with
  | nil => rfl
  | cons c cs ih =>
      rw [List.map_cons, List.mapM_cons, hf, ih]
      rfl

/-- Two loops, one after the other, return what one loop over both steps returns. -/
theorem mapM_mapM_eq_ok {g : β → Except ε γ} {xs : List α} {zs : List γ} :
    (∃ ys, xs.mapM f = .ok ys ∧ ys.mapM g = .ok zs) ↔ xs.mapM (fun x => f x >>= g) = .ok zs := by
  induction xs generalizing zs with
  | nil => simp [pure_eq_ok]
  | cons x xs ih =>
      simp only [List.mapM_cons, bind_eq_ok, pure_eq_ok]
      constructor
      · rintro ⟨ys, ⟨y, hy, ys', hys, rfl⟩, hzs⟩
        simp only [List.mapM_cons, bind_eq_ok, pure_eq_ok] at hzs
        obtain ⟨z, hz, zs', hzs', rfl⟩ := hzs
        exact ⟨z, ⟨y, hy, hz⟩, zs', ih.mp ⟨ys', hys, hzs'⟩, rfl⟩
      · rintro ⟨z, ⟨y, hy, hz⟩, zs', hzs, rfl⟩
        obtain ⟨ys', hys, hzs'⟩ := ih.mpr hzs
        refine ⟨y :: ys', ⟨y, hy, ys', hys, rfl⟩, ?_⟩
        simp only [List.mapM_cons, bind_eq_ok, pure_eq_ok]
        exact ⟨z, hz, zs', hzs', rfl⟩

section Lists

variable {σ τ : Type v} {xs : List α} {ys : List β}

/-- A loop that prepares each element first returns what a loop over the prepared elements does. -/
theorem foldlM_bind_eq_ok {step : σ → β → Except ε σ} {s s' : σ} :
    xs.foldlM (fun s a => f a >>= step s) s = .ok s' ↔
      ∃ ys, xs.mapM f = .ok ys ∧ ys.foldlM step s = .ok s' := by
  induction xs generalizing s with
  | nil => simp [pure_eq_ok]
  | cons x xs ih =>
      simp only [List.foldlM_cons, List.mapM_cons, bind_eq_ok, pure_eq_ok, ih]
      constructor
      · rintro ⟨t, ⟨y, hy, ht⟩, ys, hys, hs⟩
        refine ⟨y :: ys, ⟨y, hy, ys, hys, rfl⟩, ?_⟩
        rw [List.foldlM_cons, ht]
        exact hs
      · rintro ⟨_, ⟨y, hy, ys, hys, rfl⟩, hs⟩
        rw [List.foldlM_cons] at hs
        obtain ⟨t, ht, hs⟩ := bind_eq_ok.mp hs
        exact ⟨t, ⟨y, hy, ht⟩, ys, hys, hs⟩

/-- A loop each step of which works on one of two states is two loops. -/
theorem foldlM_pair_eq_ok {p : α → Bool} {left : σ → α → Except ε σ} {right : τ → α → Except ε τ}
    {s s' : σ} {t t' : τ} :
    xs.foldlM (fun (m : σ × τ) a => if p a then (left m.1 a).map (fun s => (s, m.2))
        else (right m.2 a).map (fun t => (m.1, t))) (s, t) = .ok (s', t') ↔
      (xs.filter p).foldlM left s = .ok s' ∧
        (xs.filter (fun a => !p a)).foldlM right t = .ok t' := by
  induction xs generalizing s t with
  | nil => simp [pure_eq_ok]
  | cons x xs ih =>
      rw [List.foldlM_cons]
      cases hp : p x with
      | true =>
          rw [List.filter_cons_of_pos hp, List.filter_cons_of_neg (by simp [hp]),
            List.foldlM_cons, if_pos rfl]
          cases left s x with
          | error e => simp [Except.map, bind, Except.bind]
          | ok s₁ => exact ih
      | false =>
          rw [List.filter_cons_of_neg (by simp [hp]), List.filter_cons_of_pos (by simp [hp]),
            List.foldlM_cons, if_neg (by simp)]
          cases right t x with
          | error e => simp [Except.map, bind, Except.bind]
          | ok t₁ => exact ih

theorem mapM_cons_eq_ok {x : α} : (x :: xs).mapM f = .ok ys ↔
    ∃ y zs, f x = .ok y ∧ xs.mapM f = .ok zs ∧ ys = y :: zs := by
  simp only [List.mapM_cons, bind_eq_ok, pure_eq_ok]
  constructor
  · rintro ⟨y, hy, zs, hzs, rfl⟩
    exact ⟨y, zs, hy, hzs, rfl⟩
  · rintro ⟨y, zs, hy, hzs, rfl⟩
    exact ⟨y, hy, zs, hzs, rfl⟩

theorem map_eq_of_mapM {g : β → γ} {h : α → γ} (hxs : xs.mapM f = .ok ys)
    (hf : ∀ x ∈ xs, ∀ y, f x = .ok y → g y = h x) : ys.map g = xs.map h := by
  induction xs generalizing ys with
  | nil =>
      rw [List.mapM_nil, pure_eq_ok] at hxs
      subst hxs
      rfl
  | cons x xs ih =>
      obtain ⟨y, zs, hy, hzs, rfl⟩ := mapM_cons_eq_ok.mp hxs
      rw [List.map_cons, List.map_cons, hf x List.mem_cons_self y hy,
        ih hzs (fun x hx => hf x (List.mem_cons_of_mem _ hx))]

theorem mem_of_mapM_eq_ok (h : xs.mapM f = .ok ys) {y : β} : y ∈ ys ↔ ∃ x ∈ xs, f x = .ok y := by
  obtain ⟨_, rfl⟩ := mapM_eq_ok.mp h
  simp only [List.mem_filterMap, toOption_eq_some]

theorem exists_mapM_eq_ok : (∃ ys, xs.mapM f = .ok ys) ↔ ∀ x ∈ xs, ∃ y, f x = .ok y := by
  simp only [mapM_eq_ok, exists_and_left, exists_eq', and_true]

theorem mapM_map_of_eq_ok {g : α → Except ε γ} {h : β → γ} (hxs : xs.mapM f = .ok ys)
    (hg : ∀ x y, f x = .ok y → g x = .ok (h y)) : xs.mapM g = .ok (ys.map h) := by
  induction xs generalizing ys with
  | nil =>
      rw [List.mapM_nil, pure_eq_ok] at hxs
      subst hxs
      rfl
  | cons x xs ih =>
      obtain ⟨y, zs, hy, hzs, rfl⟩ := mapM_cons_eq_ok.mp hxs
      rw [List.mapM_cons, hg x y hy, ih hzs]
      rfl

end Lists

end RfpPlatform.ExceptRules
