import Mathlib.Data.List.Basic
import Mathlib.Logic.Relation

namespace RfpPlatform.CycleSearch

open Relation

variable {α : Type*} [DecidableEq α]

/-- The first element for which a search succeeds that marks what it visits. The result is `none`
where the search runs out of fuel. -/
def firstFound (search : α → List α → Option (Bool × List α)) :
    List α → List α → Option (Option α × List α)
  | [], visited => some (none, visited)
  | v :: vs, visited =>
      match search v visited with
      | none => none
      | some (true, visited') => some (some v, visited')
      | some (false, visited') => firstFound search vs visited'

/-- The depth-first search for a cycle through what can be reached from a vertex. The path leads to
the vertex, and a vertex that is not known has no successors. -/
def hasCycle (next : α → Option (List α)) : Nat → α → List α → List α → Option (Bool × List α)
  | 0, _, _, _ => none
  | fuel + 1, v, path, visited =>
      if v ∈ path then some (true, visited)
      else if v ∈ visited then some (false, visited)
      else
        match next v with
        | none => some (false, v :: visited)
        | some vs =>
            (firstFound (fun w => hasCycle next fuel w (path ++ [v])) vs (v :: visited)).map
              (fun r => (r.1.isSome, r.2))

section Loop

variable {search : α → List α → Option (Bool × List α)} {vs visited visited' : List α}
  {found : Option α} {P : List α → Prop}

omit [DecidableEq α] in
/-- A loop that finds nothing has searched all its elements, and keeps what each search keeps. -/
theorem firstFound_none
    (hstep : ∀ v ∈ vs, ∀ visited visited', P visited → search v visited = some (false, visited') →
      P visited' ∧ visited ⊆ visited')
    (hP : P visited) (h : firstFound search vs visited = some (none, visited')) :
    P visited' ∧ visited ⊆ visited' ∧ ∀ v ∈ vs, ∃ before after,
      P before ∧ search v before = some (false, after) ∧ after ⊆ visited' := by
  induction vs generalizing visited with
  | nil =>
      cases h
      exact ⟨hP, List.Subset.refl _, fun v hv => absurd hv List.not_mem_nil⟩
  | cons v vs ih =>
      rw [firstFound] at h
      split at h
      · cases h
      · cases h
      · rename_i after hsearch
        obtain ⟨hafter, hsub⟩ := hstep v List.mem_cons_self visited after hP hsearch
        obtain ⟨hlast, hmono, hall⟩ :=
          ih (fun w hw => hstep w (List.mem_cons_of_mem v hw)) hafter h
        refine ⟨hlast, List.Subset.trans hsub hmono, ?_⟩
        intro w hw
        rcases List.mem_cons.mp hw with rfl | hw
        · exact ⟨visited, after, hP, hsearch, hmono⟩
        · exact hall w hw

omit [DecidableEq α] in
/-- What a loop finds is one of its elements, for which the search succeeds. -/
theorem firstFound_some {v : α} (h : firstFound search vs visited = some (some v, visited')) :
    v ∈ vs ∧ ∃ before after, search v before = some (true, after) := by
  induction vs generalizing visited with
  | nil => cases h
  | cons w vs ih =>
      rw [firstFound] at h
      split at h
      · cases h
      · rename_i after hsearch
        cases h
        exact ⟨List.mem_cons_self, visited, _, hsearch⟩
      · obtain ⟨hv, hfound⟩ := ih h
        exact ⟨List.mem_cons_of_mem w hv, hfound⟩

omit [DecidableEq α] in
/-- A loop gives a result where each of its searches does. -/
theorem firstFound_total
    (htotal : ∀ v ∈ vs, ∀ visited, P visited →
      ∃ r, search v visited = some r ∧ (r.1 = false → P r.2))
    (hP : P visited) : ∃ r, firstFound search vs visited = some r := by
  induction vs generalizing visited with
  | nil => exact ⟨_, rfl⟩
  | cons v vs ih =>
      obtain ⟨⟨b, after⟩, hsearch, hafter⟩ := htotal v List.mem_cons_self visited hP
      rw [firstFound, hsearch]
      cases b with
      | true => exact ⟨_, rfl⟩
      | false => exact ih (fun w hw => htotal w (List.mem_cons_of_mem v hw)) (hafter rfl)

omit [DecidableEq α] in
theorem firstFound_congr {search' : α → List α → Option (Bool × List α)}
    (heq : ∀ v visited r, search v visited = some r → search' v visited = some r)
    {r : Option α × List α} (h : firstFound search vs visited = some r) :
    firstFound search' vs visited = some r := by
  induction vs generalizing visited with
  | nil => exact h
  | cons v vs ih =>
      rw [firstFound] at h ⊢
      split at h
      · cases h
      · rename_i after hsearch
        rw [heq _ _ _ hsearch]
        exact h
      · rename_i after hsearch
        rw [heq _ _ _ hsearch]
        exact ih h

end Loop

section Search

variable {next : α → Option (List α)} {fuel : Nat} {v w : α} {path vs visited visited' : List α}

def Edge (next : α → Option (List α)) (v w : α) : Prop := ∃ vs, next v = some vs ∧ w ∈ vs

/-- What has been visited and is not on the path has been searched through: its successors are such
vertices too, and it is on no cycle. -/
def Settled (next : α → Option (List α)) (path visited : List α) : Prop :=
  ∀ v ∈ visited, v ∉ path →
    (∀ w, Edge next v w → w ∈ visited ∧ w ∉ path) ∧ ¬ TransGen (Edge next) v v

omit [DecidableEq α] in
/-- What can be reached from a settled vertex is settled. -/
theorem Settled.reaches (h : Settled next path visited) (hv : v ∈ visited ∧ v ∉ path)
    (hvw : ReflTransGen (Edge next) v w) : w ∈ visited ∧ w ∉ path := by
  induction hvw with
  | refl => exact hv
  | tail _ hedge ih => exact (h _ ih.1 ih.2).1 _ hedge

omit [DecidableEq α] in
/-- A vertex that enters the path leaves the settled vertices as they are. -/
theorem Settled.enter (h : Settled next path visited) (hv : v ∉ visited) :
    Settled next (path ++ [v]) (v :: visited) := by
  intro w hw hpath
  rw [List.mem_append, List.mem_singleton, not_or] at hpath
  have hold : w ∈ visited := (List.mem_cons.mp hw).resolve_left hpath.2
  obtain ⟨hsucc, hcycle⟩ := h w hold hpath.1
  refine ⟨fun u hu => ?_, hcycle⟩
  obtain ⟨hu, hfree⟩ := hsucc u hu
  refine ⟨List.mem_cons_of_mem v hu, ?_⟩
  rw [List.mem_append, List.mem_singleton, not_or]
  exact ⟨hfree, fun heq => hv (heq ▸ hu)⟩

/-- A vertex whose successors are settled can leave the path. -/
theorem Settled.leave (h : Settled next (path ++ [v]) visited)
    (hsucc : ∀ w, Edge next v w → w ∈ visited ∧ w ∉ path ++ [v]) : Settled next path visited := by
  intro u hu hpath
  by_cases heq : u = v
  · subst heq
    refine ⟨fun w hw => ?_, fun hcycle => ?_⟩
    · obtain ⟨hw, hfree⟩ := hsucc w hw
      exact ⟨hw, fun hin => hfree (List.mem_append_left _ hin)⟩
    · -- a cycle through the vertex would come back to the path
      obtain ⟨w, hw, hback⟩ := TransGen.head'_iff.mp hcycle
      exact (h.reaches (hsucc w hw) hback).2 (List.mem_append_right _ (List.mem_singleton_self u))
  · have hfree : u ∉ path ++ [v] := by
      rw [List.mem_append, List.mem_singleton, not_or]
      exact ⟨hpath, heq⟩
    obtain ⟨hnext, hcycle⟩ := h u hu hfree
    refine ⟨fun w hw => ?_, hcycle⟩
    obtain ⟨hw, hfree'⟩ := hnext w hw
    exact ⟨hw, fun hin => hfree' (List.mem_append_left _ hin)⟩

/-- A search that finds nothing settles its vertex. -/
theorem settled_of_hasCycle (hsettled : Settled next path visited)
    (h : hasCycle next fuel v path visited = some (false, visited')) :
    Settled next path visited' ∧ visited ⊆ visited' ∧ v ∈ visited' ∧ v ∉ path := by
  induction fuel generalizing v path visited visited' with
  | zero => cases h
  | succ fuel ih =>
      rw [hasCycle] at h
      split at h
      · cases h
      · rename_i hpath
        split at h
        · rename_i hvisited
          cases h
          exact ⟨hsettled, List.Subset.refl _, hvisited, hpath⟩
        · rename_i hfresh
          have hcons : visited ⊆ v :: visited := List.subset_cons_self v visited
          split at h
          · rename_i hnext
            cases h
            have hsucc : ∀ w, ¬ Edge next v w := by
              rintro w ⟨vs, hvs, _⟩
              rw [hnext] at hvs
              cases hvs
            refine ⟨(hsettled.enter hfresh).leave (fun w hw => absurd hw (hsucc w)), hcons,
              List.mem_cons_self, hpath⟩
          · rename_i vs hnext
            obtain ⟨⟨found, after⟩, hloop, hresult⟩ := Option.map_eq_some_iff.mp h
            cases found with
            | some w => cases hresult
            | none =>
                cases hresult
                obtain ⟨hlast, hmono, hall⟩ := firstFound_none
                  (P := Settled next (path ++ [v]))
                  (fun w _ before after hbefore hsearch =>
                    ⟨(ih hbefore hsearch).1, (ih hbefore hsearch).2.1⟩)
                  (hsettled.enter hfresh) hloop
                refine ⟨hlast.leave ?_, List.Subset.trans hcons hmono, hmono List.mem_cons_self, hpath⟩
                rintro w ⟨ws, hws, hw⟩
                rw [hnext] at hws
                cases hws
                obtain ⟨before, after, hbefore, hsearch, hsub⟩ := hall w hw
                obtain ⟨_, _, hin, hfree⟩ := ih hbefore hsearch
                exact ⟨hsub hin, hfree⟩

/-- A search that succeeds has found a cycle, where the path leads to its vertex. -/
theorem cycle_of_hasCycle (hpath : ∀ u ∈ path, TransGen (Edge next) u v)
    (h : hasCycle next fuel v path visited = some (true, visited')) :
    ∃ c, TransGen (Edge next) c c := by
  induction fuel generalizing v path visited visited' with
  | zero => cases h
  | succ fuel ih =>
      rw [hasCycle] at h
      split at h
      · rename_i hmem
        exact ⟨v, hpath v hmem⟩
      · split at h
        · cases h
        · split at h
          · cases h
          · rename_i vs hnext
            obtain ⟨⟨found, after⟩, hloop, hresult⟩ := Option.map_eq_some_iff.mp h
            cases found with
            | none => cases hresult
            | some w =>
                obtain ⟨hw, _, _, hsearch⟩ := firstFound_some hloop
                have hedge : Edge next v w := ⟨vs, hnext, hw⟩
                refine ih ?_ hsearch
                intro u hu
                rcases List.mem_append.mp hu with hu | hu
                · exact (hpath u hu).tail hedge
                · rw [List.mem_singleton.mp hu]
                  exact .single hedge

/-- The known vertices that are left to visit. -/
def unvisited (known visited : List α) : Nat := (known.filter (fun v => v ∉ visited)).length

theorem unvisited_le {known : List α} (h : visited ⊆ visited') :
    unvisited known visited' ≤ unvisited known visited := by
  refine (List.monotone_filter_right known fun v hv => ?_).length_le
  simp only [decide_eq_true_eq] at hv ⊢
  exact fun hin => hv (h hin)

theorem unvisited_lt {known : List α} (hknown : v ∈ known) (hfresh : v ∉ visited) :
    unvisited known (v :: visited) < unvisited known visited := by
  have hsub : (known.filter (fun w => w ∉ v :: visited)) =
      (known.filter (fun w => w ∉ visited)).filter (fun w => w ≠ v) := by
    rw [List.filter_filter]
    refine List.filter_congr fun w _ => ?_
    simp [not_or]
  rw [unvisited, unvisited, hsub]
  refine List.length_filter_lt_length_iff_exists.mpr ⟨v, ?_, by simp⟩
  exact List.mem_filter.mpr ⟨hknown, decide_eq_true hfresh⟩

theorem visited_mono (h : hasCycle next fuel v path visited = some (false, visited')) :
    visited ⊆ visited' := by
  induction fuel generalizing v path visited visited' with
  | zero => cases h
  | succ fuel ih =>
      rw [hasCycle] at h
      split at h
      · cases h
      · split at h
        · cases h
          exact List.Subset.refl _
        · split at h
          · cases h
            exact List.subset_cons_self _ _
          · obtain ⟨⟨found, after⟩, hloop, hresult⟩ := Option.map_eq_some_iff.mp h
            cases found with
            | some w => cases hresult
            | none =>
                cases hresult
                have hall := firstFound_none (P := fun _ => True)
                  (fun w _ before after _ hsearch => ⟨trivial, ih hsearch⟩) trivial hloop
                exact List.Subset.trans (List.subset_cons_self _ _) hall.2.1

/-- A search whose fuel exceeds the number of the vertices that are left gives a result. -/
theorem hasCycle_total {known : List α} (hknown : ∀ u, next u ≠ none → u ∈ known)
    (hfuel : unvisited known visited < fuel) :
    ∃ r, hasCycle next fuel v path visited = some r := by
  induction fuel generalizing v path visited with
  | zero => omega
  | succ fuel ih =>
      rw [hasCycle]
      by_cases hpath : v ∈ path
      · exact ⟨_, if_pos hpath⟩
      · rw [if_neg hpath]
        by_cases hfresh : v ∈ visited
        · exact ⟨_, if_pos hfresh⟩
        · rw [if_neg hfresh]
          cases hnext : next v with
          | none => exact ⟨_, rfl⟩
          | some vs =>
              have hin : v ∈ known := hknown v (by rw [hnext]; exact Option.some_ne_none vs)
              have hless := unvisited_lt hin hfresh
              have hloop : ∃ r, firstFound (fun w => hasCycle next fuel w (path ++ [v])) vs
                  (v :: visited) = some r := by
                refine firstFound_total (P := fun visited => unvisited known visited < fuel) ?_
                  (by omega)
                intro w _ before hbefore
                obtain ⟨⟨b, after⟩, hr⟩ := @ih w (path ++ [v]) before hbefore
                refine ⟨_, hr, ?_⟩
                rintro rfl
                exact Nat.lt_of_le_of_lt (unvisited_le (visited_mono hr)) hbefore
              obtain ⟨r, hr⟩ := hloop
              exact ⟨_, congrArg (Option.map fun r => (r.1.isSome, r.2)) hr⟩

/-- A result stays the same with more fuel. -/
theorem hasCycle_succ {r : Bool × List α} (h : hasCycle next fuel v path visited = some r) :
    hasCycle next (fuel + 1) v path visited = some r := by
  induction fuel generalizing v path visited r with
  | zero => cases h
  | succ fuel ih =>
      rw [hasCycle] at h ⊢
      by_cases hpath : v ∈ path
      · rwa [if_pos hpath] at h ⊢
      · rw [if_neg hpath] at h ⊢
        by_cases hfresh : v ∈ visited
        · rwa [if_pos hfresh] at h ⊢
        · rw [if_neg hfresh] at h ⊢
          cases hnext : next v with
          | none => simpa only [hnext] using h
          | some vs =>
              simp only [hnext] at h ⊢
              obtain ⟨found, hloop, hresult⟩ := Option.map_eq_some_iff.mp h
              exact Option.map_eq_some_iff.mpr
                ⟨found, firstFound_congr (fun w before r hr => ih hr) hloop, hresult⟩

/-- The vertex at which the search from all the vertices of a list meets a cycle first. -/
def findCycle (next : α → Option (List α)) (fuel : Nat) (vs : List α) : Option (Option α) :=
  (firstFound (fun v => hasCycle next fuel v []) vs []).map Prod.fst

theorem findCycle_total {known : List α} (hknown : ∀ u, next u ≠ none → u ∈ known)
    (hfuel : known.length < fuel) : ∃ found, findCycle next fuel vs = some found := by
  have hstart : unvisited known [] < fuel :=
    Nat.lt_of_le_of_lt (List.length_filter_le _ known) hfuel
  have hloop : ∃ r, firstFound (fun v => hasCycle next fuel v []) vs [] = some r := by
    refine firstFound_total (P := fun visited => unvisited known visited < fuel) ?_ hstart
    intro v _ before hbefore
    obtain ⟨⟨b, after⟩, hr⟩ : ∃ r, hasCycle next fuel v [] before = some r :=
      hasCycle_total hknown hbefore
    refine ⟨_, hr, ?_⟩
    rintro rfl
    exact Nat.lt_of_le_of_lt (unvisited_le (visited_mono hr)) hbefore
  obtain ⟨r, hr⟩ := hloop
  exact ⟨_, congrArg (Option.map Prod.fst) hr⟩

theorem findCycle_add {found : Option α} (h : findCycle next fuel vs = some found) (extra : Nat) :
    findCycle next (fuel + extra) vs = some found := by
  induction extra with
  | zero => exact h
  | succ extra ih =>
      obtain ⟨r, hloop, hr⟩ := Option.map_eq_some_iff.mp ih
      exact Option.map_eq_some_iff.mpr
        ⟨r, firstFound_congr (fun v before r hr => hasCycle_succ hr) hloop, hr⟩

/-- The search from all the known vertices meets a cycle exactly when there is one. -/
theorem findCycle_isSome_iff {found : Option α} (hknown : ∀ u, next u ≠ none → u ∈ vs)
    (h : findCycle next fuel vs = some found) :
    found.isSome ↔ ∃ c, TransGen (Edge next) c c := by
  obtain ⟨⟨first, visited⟩, hloop, rfl⟩ := Option.map_eq_some_iff.mp h
  cases first with
  | some v =>
      obtain ⟨_, _, _, hsearch⟩ := firstFound_some hloop
      exact iff_of_true rfl (cycle_of_hasCycle (fun u hu => absurd hu List.not_mem_nil) hsearch)
  | none =>
      refine iff_of_false Bool.false_ne_true ?_
      rintro ⟨c, hcycle⟩
      have hempty : Settled next [] [] := fun u hu => absurd hu List.not_mem_nil
      obtain ⟨hsettled, _, hall⟩ := firstFound_none (P := Settled next [])
        (fun v _ before after hbefore hsearch =>
          ⟨(settled_of_hasCycle hbefore hsearch).1, (settled_of_hasCycle hbefore hsearch).2.1⟩)
        hempty hloop
      obtain ⟨d, ⟨ds, hds, _⟩, _⟩ := TransGen.head'_iff.mp hcycle
      have hc : c ∈ vs := hknown c (by rw [hds]; exact Option.some_ne_none ds)
      obtain ⟨before, after, hbefore, hsearch, hsub⟩ := hall c hc
      have hvisited := hsub (settled_of_hasCycle hbefore hsearch).2.2.1
      exact (hsettled c hvisited List.not_mem_nil).2 hcycle

end Search

end RfpPlatform.CycleSearch
