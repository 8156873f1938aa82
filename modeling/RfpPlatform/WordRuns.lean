import Mathlib.Data.List.Basic
import Mathlib.Data.List.DropRight

namespace RfpPlatform.WordRuns

variable {α : Type} (sep : α → Bool)

/-- The longest runs of a list without a separator. -/
def runs (xs : List α) : List (List α) := (xs.splitOnP sep).filter (fun w => !w.isEmpty)

/-- A run that stands alone. -/
structure IsRun (w : List α) : Prop where
  ne_nil : w ≠ []
  solid : ∀ c ∈ w, sep c = false

variable {sep} {xs ys w : List α} {c d : α}

@[simp] theorem runs_nil : runs sep [] = [] := rfl

theorem runs_append_sep (h : sep c = true) (xs ys : List α) :
    runs sep (xs ++ c :: ys) = runs sep xs ++ runs sep ys := by
  rw [runs, List.splitOnP_append_cons xs ys h, List.filter_append, runs, runs]

theorem runs_cons_sep (h : sep c = true) (xs : List α) : runs sep (c :: xs) = runs sep xs := by
  have hempty := runs_append_sep h [] xs
  rwa [runs_nil, List.nil_append, List.nil_append] at hempty

theorem runs_of_isRun (h : IsRun sep w) : runs sep w = [w] := by
  have hne : (!w.isEmpty) = true := by
    rw [Bool.not_eq_true', List.isEmpty_eq_false_iff]
    exact h.ne_nil
  rw [runs, List.splitOnP_eq_singleton h.solid, List.filter_singleton, hne, cond_true]

/-- A run behind a separator is the last one. -/
theorem runs_append_run (h : sep c = true) (hw : IsRun sep w) (xs : List α) :
    runs sep (xs ++ c :: w) = runs sep xs ++ [w] := by
  rw [runs_append_sep h, runs_of_isRun hw]

/-- A run before a separator is the first one. -/
theorem runs_run_append (h : sep c = true) (hw : IsRun sep w) (ys : List α) :
    runs sep (w ++ c :: ys) = w :: runs sep ys := by
  rw [runs_append_sep h, runs_of_isRun hw, List.singleton_append]

theorem runs_blank_append {blank : List α} (h : ∀ c ∈ blank, sep c = true) (xs : List α) :
    runs sep (blank ++ xs) = runs sep xs := by
  induction blank with
  | nil => rfl
  | cons c blank ih =>
      obtain ⟨hc, hblank⟩ := List.forall_mem_cons.mp h
      rw [List.cons_append, runs_cons_sep hc, ih hblank]

theorem runs_append_blank {blank : List α} (h : ∀ c ∈ blank, sep c = true) (xs : List α) :
    runs sep (xs ++ blank) = runs sep xs := by
  cases blank with
  | nil => rw [List.append_nil]
  | cons c blank =>
      obtain ⟨hc, hblank⟩ := List.forall_mem_cons.mp h
      have hnone := runs_blank_append hblank []
      rw [List.append_nil, runs_nil] at hnone
      rw [runs_append_sep hc, hnone, List.append_nil]

/-- An element that is no separator joins the first run, or starts one. -/
theorem runs_cons_solid (h : sep c = false) (xs : List α) :
    ∃ w ws, runs sep (c :: xs) = (c :: w) :: ws ∧
      ((runs sep xs = w :: ws ∧ ∃ d ∈ xs.head?, sep d = false) ∨
        (runs sep xs = ws ∧ w = [] ∧ ∀ d ∈ xs.head?, sep d = true)) := by
  cases xs with
  | nil =>
      refine ⟨[], [], ?_, .inr ⟨rfl, rfl, fun d hd => by cases hd⟩⟩
      exact runs_of_isRun ⟨List.cons_ne_nil _ _, fun d hd => List.mem_singleton.mp hd ▸ h⟩
  | cons d ys =>
      by_cases hd : sep d = true
      · have hrun : IsRun sep [c] :=
          ⟨List.cons_ne_nil _ _, fun e he => List.mem_singleton.mp he ▸ h⟩
        refine ⟨[], runs sep ys, runs_run_append hd hrun ys, .inr ⟨runs_cons_sep hd ys, rfl, ?_⟩⟩
        rintro e he
        obtain rfl := Option.some.inj he
        exact hd
      · have hd : sep d = false := Bool.eq_false_iff.mpr hd
        obtain ⟨v, vs, hsplit⟩ := List.exists_cons_of_ne_nil (List.splitOnP_ne_nil sep ys)
        have hsolid : ∀ {e : α} {zs : List α} {v : List α} {vs : List (List α)}, sep e = false →
            zs.splitOnP sep = v :: vs → (e :: zs).splitOnP sep = (e :: v) :: vs := by
          intro e zs v vs he hzs
          rw [List.splitOnP_cons_eq_if_modifyHead, he, if_neg Bool.false_ne_true, hzs]
          rfl
        have hys := hsolid hd hsplit
        have hboth := hsolid h hys
        refine ⟨d :: v, vs.filter (fun w => !w.isEmpty), ?_, .inl ⟨?_, d, rfl, hd⟩⟩
        · rw [runs, hboth]
          rfl
        · rw [runs, hys]
          rfl

/-- A run is made of elements of the list, none of them a separator. -/
theorem of_mem_runs (h : w ∈ runs sep xs) : IsRun sep w ∧ ∀ d ∈ w, d ∈ xs := by
  induction xs generalizing w with
  | nil => cases h
  | cons c xs ih =>
      by_cases hc : sep c = true
      · rw [runs_cons_sep hc] at h
        exact (ih h).imp id fun hmem d hd => List.mem_cons_of_mem _ (hmem d hd)
      · have hc : sep c = false := Bool.eq_false_iff.mpr hc
        obtain ⟨v, vs, hruns, hrest⟩ := runs_cons_solid hc xs
        have hv : ∀ d ∈ v, sep d = false ∧ d ∈ xs := by
          rcases hrest with ⟨hxs, _⟩ | ⟨_, rfl, _⟩
          · have hfirst := ih (hxs ▸ List.mem_cons_self)
            exact fun d hd => ⟨hfirst.1.solid d hd, hfirst.2 d hd⟩
          · exact fun d hd => absurd hd List.not_mem_nil
        have hvs : ∀ u ∈ vs, u ∈ runs sep xs := by
          rcases hrest with ⟨hxs, _⟩ | ⟨hxs, _⟩
          · exact fun u hu => hxs ▸ List.mem_cons_of_mem _ hu
          · exact fun u hu => hxs ▸ hu
        rw [hruns] at h
        rcases List.mem_cons.mp h with rfl | h
        · refine ⟨⟨List.cons_ne_nil _ _, List.forall_mem_cons.mpr ⟨hc, fun d hd => (hv d hd).1⟩⟩, ?_⟩
          exact List.forall_mem_cons.mpr ⟨List.mem_cons_self, fun d hd =>
            List.mem_cons_of_mem _ (hv d hd).2⟩
        · exact (ih (hvs w h)).imp id fun hmem d hd => List.mem_cons_of_mem _ (hmem d hd)

theorem isRun_of_mem (h : w ∈ runs sep xs) : IsRun sep w := (of_mem_runs h).1

theorem mem_of_mem_runs (h : w ∈ runs sep xs) : ∀ d ∈ w, d ∈ xs := (of_mem_runs h).2

theorem mem_intercalate {ws : List (List α)} (h : d ∈ [c].intercalate ws) :
    d = c ∨ ∃ w ∈ ws, d ∈ w := by
  induction ws with
  | nil => cases h
  | cons w ws ih =>
      cases ws with
      | nil =>
          rw [List.intercalate_singleton] at h
          exact .inr ⟨w, List.mem_cons_self, h⟩
      | cons v vs =>
          rw [List.intercalate_cons_cons, List.append_assoc, List.mem_append,
            List.singleton_append, List.mem_cons] at h
          rcases h with h | h | h
          · exact .inr ⟨w, List.mem_cons_self, h⟩
          · exact .inl h
          · refine (ih h).imp_right ?_
            rintro ⟨u, hu, hd⟩
            exact ⟨u, List.mem_cons_of_mem _ hu, hd⟩

theorem intercalate_concat {ws : List (List α)} (h : ws ≠ []) (w : List α) :
    [c].intercalate (ws ++ [w]) = [c].intercalate ws ++ c :: w := by
  induction ws with
  | nil => exact absurd rfl h
  | cons v vs ih =>
      cases vs with
      | nil =>
          rw [List.intercalate_singleton, List.cons_append, List.nil_append,
            List.intercalate_cons_cons, List.intercalate_singleton, List.append_assoc,
            List.singleton_append]
      | cons u us =>
          have hus := ih (List.cons_ne_nil _ _)
          rw [List.cons_append] at hus
          rw [List.cons_append, List.cons_append, List.intercalate_cons_cons, hus,
            List.intercalate_cons_cons, List.append_assoc, List.append_assoc, List.append_assoc]

/-- Runs that are joined by one separator are found again. -/
theorem runs_intercalate (h : sep c = true) {ws : List (List α)} (hws : ∀ w ∈ ws, IsRun sep w) :
    runs sep ([c].intercalate ws) = ws := by
  induction ws with
  | nil => rfl
  | cons w ws ih =>
      obtain ⟨hw, hws⟩ := List.forall_mem_cons.mp hws
      cases ws with
      | nil => rw [List.intercalate_singleton, runs_of_isRun hw]
      | cons v vs =>
          rw [List.intercalate_cons_cons, List.append_assoc, List.singleton_append,
            runs_run_append h hw, ih hws]

theorem intercalate_injective (h : sep c = true) {ws vs : List (List α)}
    (hws : ∀ w ∈ ws, IsRun sep w) (hvs : ∀ w ∈ vs, IsRun sep w)
    (heq : [c].intercalate ws = [c].intercalate vs) : ws = vs := by
  rw [← runs_intercalate h hws, heq, runs_intercalate h hvs]

theorem flatten_runs (xs : List α) : (runs sep xs).flatten = xs.filter (fun c => !sep c) := by
  induction xs with
  | nil => rfl
  | cons c xs ih =>
      by_cases hc : sep c = true
      · rw [runs_cons_sep hc, ih, List.filter_cons_of_neg (by rw [hc]; decide)]
      · obtain ⟨w, ws, hruns, hrest⟩ := runs_cons_solid (Bool.eq_false_iff.mpr hc) xs
        have hflat : w ++ ws.flatten = (runs sep xs).flatten := by
          rcases hrest with ⟨hxs, _⟩ | ⟨hxs, rfl, _⟩
          · rw [hxs, List.flatten_cons]
          · rw [hxs, List.nil_append]
        rw [hruns, List.flatten_cons, List.cons_append, hflat, ih, List.filter_cons_of_pos]
        rw [Bool.eq_false_iff.mpr hc, Bool.not_false]

/-- A map that keeps the elements between separators, and takes separators to separators, keeps the
runs. -/
theorem runs_map {sep' : α → Bool} {f : α → α}
    (h : ∀ c ∈ xs, (sep c = true ∧ sep' (f c) = true) ∨ (sep c = false ∧ f c = c ∧ sep' c = false)) :
    runs sep' (xs.map f) = runs sep xs := by
  have hsplit : (xs.map f).splitOnP sep' = xs.splitOnP sep := by
    induction xs with
    | nil => rfl
    | cons c xs ih =>
        obtain ⟨hc, hxs⟩ := List.forall_mem_cons.mp h
        rw [List.map_cons, List.splitOnP_cons_eq_if_modifyHead, List.splitOnP_cons_eq_if_modifyHead,
          ih hxs]
        rcases hc with ⟨hsep, hsep'⟩ | ⟨hsep, hsame, hsep'⟩
        · rw [hsep, hsep', if_pos rfl, if_pos rfl]
        · rw [hsame, hsep, hsep']
  rw [runs, hsplit, runs]

end RfpPlatform.WordRuns
