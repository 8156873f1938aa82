import Mathlib.Data.List.Nodup

namespace RfpPlatform.FirstWins

universe u v

/-- What a merge has collected, and the keys of it. -/
structure Collected (β : Type u) (κ : Type v) where
  items : List β
  names : List κ

variable {ε α β κ : Type u} [DecidableEq κ]

section Steps

variable (key : α → κ) (make : α → Except ε β)

def put (acc : Collected β κ) (a : α) : Except ε (Collected β κ) := do
  let b ← make a
  return ⟨acc.items ++ [b], acc.names ++ [key a]⟩

/-- An element whose key has been collected is skipped, and nothing is made of it. -/
def add (acc : Collected β κ) (a : α) : Except ε (Collected β κ) :=
  if key a ∈ acc.names then .ok acc else put key make acc a

/-- The elements whose key is neither among those seen nor that of an earlier element. -/
def fresh (seen : List κ) : List α → List α
  | [] => []
  | a :: as => if key a ∈ seen then fresh seen as else a :: fresh (seen ++ [key a]) as

/-- What a merge keeps: the first list whole, and of the second what is new. -/
def kept (first rest : List α) : List α := first ++ fresh key (first.map key) rest

end Steps

variable {key : α → κ} {make : α → Except ε β} {seen : List κ} {a : α} {acc : Collected β κ}

omit [DecidableEq κ] in
theorem foldlM_put (as : List α) :
    as.foldlM (put key make) acc =
      (as.mapM make).map (fun bs => ⟨acc.items ++ bs, acc.names ++ as.map key⟩) := by
  induction as generalizing acc with
  | nil => simp [pure, Except.pure, Except.map]
  | cons a as ih =>
      rw [List.foldlM_cons, List.mapM_cons, put]
      cases make a with
      | error e => rfl
      | ok b =>
          change as.foldlM (put key make) ⟨acc.items ++ [b], acc.names ++ [key a]⟩ = _
          rw [ih]
          cases as.mapM make with
          | error e => rfl
          | ok bs => simp [bind, Except.bind, pure, Except.pure, Except.map]

theorem foldlM_add (as : List α) :
    as.foldlM (add key make) acc =
      ((fresh key acc.names as).mapM make).map
        (fun bs => ⟨acc.items ++ bs, acc.names ++ (fresh key acc.names as).map key⟩) := by
  induction as generalizing acc with
  | nil => simp [fresh, pure, Except.pure, Except.map]
  | cons a as ih =>
      rw [List.foldlM_cons, add, fresh]
      by_cases hkey : key a ∈ acc.names
      · rw [if_pos hkey, if_pos hkey]
        exact ih
      · rw [if_neg hkey, if_neg hkey, put, List.mapM_cons]
        cases make a with
        | error e => rfl
        | ok b =>
            change as.foldlM (add key make) ⟨acc.items ++ [b], acc.names ++ [key a]⟩ = _
            rw [ih]
            cases (fresh key (acc.names ++ [key a]) as).mapM make with
            | error e => rfl
            | ok bs => simp [bind, Except.bind, pure, Except.pure, Except.map]

/-- A merge makes exactly what is kept, and in order. -/
theorem merge_eq_ok {first rest : List α} {result : Collected β κ} :
    (first.foldlM (put key make) ⟨[], []⟩ >>= fun acc => rest.foldlM (add key make) acc) =
        .ok result ↔
      (kept key first rest).mapM make = .ok result.items ∧
        result.names = (kept key first rest).map key := by
  rw [foldlM_put, kept, List.mapM_append, List.map_append]
  simp only [List.nil_append]
  cases hfirst : first.mapM make with
  | error e => simp [Except.map, bind, Except.bind]
  | ok bs =>
      change rest.foldlM (add key make) ⟨bs, first.map key⟩ = _ ↔ _
      rw [foldlM_add]
      cases hrest : (fresh key (first.map key) rest).mapM make with
      | error e => simp [Except.map, bind, Except.bind]
      | ok cs =>
          obtain ⟨items, names⟩ := result
          simp [Except.map, bind, Except.bind, pure, Except.pure]
          exact fun _ => eq_comm

theorem mem_fresh_keys (as : List α) (k : κ) :
    k ∈ seen ++ (fresh key seen as).map key ↔ k ∈ seen ++ as.map key := by
  induction as generalizing seen with
  | nil => rfl
  | cons a as ih =>
      rw [fresh]
      by_cases hkey : key a ∈ seen
      · rw [if_pos hkey, ih, List.map_cons, List.mem_append, List.mem_append, List.mem_cons]
        constructor
        · rintro (h | h)
          exacts [Or.inl h, Or.inr (Or.inr h)]
        · rintro (h | rfl | h)
          exacts [Or.inl h, Or.inl hkey, Or.inr h]
      · have h := @ih (seen ++ [key a])
        rw [if_neg hkey, List.map_cons, List.map_cons]
        simpa only [List.append_assoc, List.singleton_append] using h

/-- The keys of what is kept are all the keys. -/
theorem mem_kept_keys {first rest : List α} {k : κ} :
    k ∈ (kept key first rest).map key ↔ k ∈ (first ++ rest).map key := by
  rw [kept, List.map_append, List.map_append]
  exact mem_fresh_keys rest k

theorem nodup_fresh (as : List α) (hseen : seen.Nodup) :
    (seen ++ (fresh key seen as).map key).Nodup := by
  induction as generalizing seen with
  | nil => simpa [fresh] using hseen
  | cons a as ih =>
      rw [fresh]
      by_cases hkey : key a ∈ seen
      · rw [if_pos hkey]
        exact ih hseen
      · have hlonger : (seen ++ [key a]).Nodup := by
          apply List.nodup_append.mpr
          refine ⟨hseen, List.nodup_singleton _, ?_⟩
          intro k hk l hl hkl
          rw [List.mem_singleton] at hl
          exact hkey (hl ▸ hkl ▸ hk)
        have h := ih hlonger
        rw [if_neg hkey, List.map_cons]
        simpa only [List.append_assoc, List.singleton_append] using h

/-- What is kept has distinct keys exactly when the list that is kept whole has. -/
theorem nodup_kept {first rest : List α} :
    ((kept key first rest).map key).Nodup ↔ (first.map key).Nodup := by
  rw [kept, List.map_append]
  exact ⟨fun h => h.of_append_left, nodup_fresh rest⟩

theorem find?_of_mem_fresh {as : List α} (h : a ∈ fresh key seen as) :
    as.find? (fun b => key b = key a) = some a ∧ key a ∉ seen := by
  induction as generalizing seen with
  | nil => cases h
  | cons b as ih =>
      rw [fresh] at h
      by_cases hkey : key b ∈ seen
      · rw [if_pos hkey] at h
        obtain ⟨hfind, hnew⟩ := ih h
        refine ⟨?_, hnew⟩
        rw [List.find?_cons_of_neg, hfind]
        simpa using fun heq : key b = key a => hnew (heq ▸ hkey)
      · rw [if_neg hkey] at h
        rcases List.mem_cons.mp h with rfl | h
        · exact ⟨List.find?_cons_of_pos (by simp), hkey⟩
        · obtain ⟨hfind, hnew⟩ := ih h
          rw [List.mem_append, List.mem_singleton, not_or] at hnew
          refine ⟨?_, hnew.1⟩
          rw [List.find?_cons_of_neg, hfind]
          simpa using fun heq : key b = key a => hnew.2 heq.symm

theorem find?_of_nodup {as : List α} (hnodup : (as.map key).Nodup) (h : a ∈ as) :
    as.find? (fun b => key b = key a) = some a := by
  induction as with
  | nil => cases h
  | cons b as ih =>
      rw [List.map_cons, List.nodup_cons] at hnodup
      rcases List.mem_cons.mp h with rfl | h
      · exact List.find?_cons_of_pos (by simp)
      · have hne : key b ≠ key a := fun heq => hnodup.1 (heq ▸ List.mem_map_of_mem h)
        rw [List.find?_cons_of_neg (by simpa using hne), ih hnodup.2 h]

/-- Each element that is kept is the first of its key. -/
theorem find?_of_mem_kept {first rest : List α} (hfirst : (first.map key).Nodup)
    (h : a ∈ kept key first rest) : (first ++ rest).find? (fun b => key b = key a) = some a := by
  rcases List.mem_append.mp h with h | h
  · rw [List.find?_append, find?_of_nodup hfirst h]
    rfl
  · obtain ⟨hfind, hnew⟩ := find?_of_mem_fresh h
    rw [List.find?_append, List.find?_eq_none.mpr, hfind]
    · rfl
    · intro b hb heq
      exact hnew (of_decide_eq_true heq ▸ List.mem_map_of_mem hb)

/-- What is fresh stands in the order in which its keys are met first. -/
theorem pairwise_fresh (as : List α) :
    (fresh key seen as).Pairwise
      (fun a b => (as.map key).idxOf (key a) < (as.map key).idxOf (key b)) := by
  induction as generalizing seen with
  | nil => exact List.Pairwise.nil
  | cons c as ih =>
      have hlater : ∀ {seen : List κ} {a b : α}, key c ∈ seen → a ∈ fresh key seen as →
          b ∈ fresh key seen as → (as.map key).idxOf (key a) < (as.map key).idxOf (key b) →
          ((c :: as).map key).idxOf (key a) < ((c :: as).map key).idxOf (key b) := by
        intro seen a b hseen ha hb hlt
        have hca : key c ≠ key a := fun heq => (find?_of_mem_fresh ha).2 (heq ▸ hseen)
        have hcb : key c ≠ key b := fun heq => (find?_of_mem_fresh hb).2 (heq ▸ hseen)
        rw [List.map_cons, List.idxOf_cons_ne _ hca, List.idxOf_cons_ne _ hcb]
        exact Nat.succ_lt_succ hlt
      rw [fresh]
      by_cases hkey : key c ∈ seen
      · rw [if_pos hkey]
        exact ih.imp_of_mem fun ha hb hlt => hlater hkey ha hb hlt
      · have hin : key c ∈ seen ++ [key c] := List.mem_append_right _ (List.mem_singleton_self _)
        rw [if_neg hkey]
        refine List.Pairwise.cons (fun b hb => ?_)
          (ih.imp_of_mem fun ha hb hlt => hlater hin ha hb hlt)
        have hcb : key c ≠ key b := fun heq => (find?_of_mem_fresh hb).2 (heq ▸ hin)
        rw [List.map_cons, List.idxOf_cons_self, List.idxOf_cons_ne _ hcb]
        exact Nat.succ_pos _

theorem nodup_fresh_keys (as : List α) : ((fresh key seen as).map key).Nodup := by
  refine List.pairwise_map.mpr ((pairwise_fresh as).imp fun {a b} hlt heq => ?_)
  rw [heq] at hlt
  exact absurd hlt (Nat.lt_irrefl _)

theorem fresh_sublist (as : List α) : (fresh key seen as).Sublist as := by
  induction as generalizing seen with
  | nil => exact List.Sublist.refl []
  | cons a as ih =>
      rw [fresh]
      by_cases hkey : key a ∈ seen
      · rw [if_pos hkey]
        exact ih.cons a
      · rw [if_neg hkey]
        exact ih.cons_cons a

theorem kept_sublist (first rest : List α) : (kept key first rest).Sublist (first ++ rest) :=
  (List.Sublist.refl first).append (fresh_sublist rest)

end RfpPlatform.FirstWins
