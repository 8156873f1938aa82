import RfpPlatform.KeyedTable
import Mathlib.Data.List.Basic

namespace RfpPlatform.KeyedLatest

variable {κ β : Type*}

section Pick

/-- A numbered entry replaces the one before it where its number is higher. None has the number
minus one. -/
def pick (acc : Option (Int × β)) (p : Int × β) : Option (Int × β) :=
  if (acc.map Prod.fst).getD (-1) < p.1 then some p else acc

theorem mem_of_foldl_pick {ps : List (Int × β)} {acc : Option (Int × β)} {p : Int × β}
    (h : ps.foldl pick acc = some p) : acc = some p ∨ p ∈ ps := by
  induction ps generalizing acc with
  | nil => exact .inl h
  | cons q ps ih =>
      rcases ih h with hq | hp
      · rw [pick] at hq
        split at hq
        · rw [Option.some.inj hq]
          exact .inr List.mem_cons_self
        · exact .inl hq
      · exact .inr (List.mem_cons_of_mem q hp)

theorem foldl_pick_of_le {ps : List (Int × β)} {p : Int × β} (h : ∀ q ∈ ps, q.1 ≤ p.1) :
    ps.foldl pick (some p) = some p := by
  induction ps with
  | nil => rfl
  | cons q ps ih =>
      have hkeep : pick (some p) q = some p := if_neg (Int.not_lt.mpr (h q List.mem_cons_self))
      rw [List.foldl_cons, hkeep]
      exact ih fun r hr => h r (List.mem_cons_of_mem q hr)

/-- Of entries of one number the first stays. -/
theorem foldl_pick_same {ps : List (Int × β)} {n : Int} (hn : -1 < n) (h : ∀ p ∈ ps, p.1 = n) :
    ps.foldl pick none = ps.head? := by
  cases ps with
  | nil => rfl
  | cons p ps =>
      have hp := h p List.mem_cons_self
      rw [List.foldl_cons, pick, if_pos (hp.symm ▸ hn), foldl_pick_of_le, List.head?_cons]
      intro q hq
      exact Int.le_of_eq ((h q (List.mem_cons_of_mem p hq)).trans hp.symm)

theorem foldl_pick_increasing {ps : List (Int × β)} {acc : Option (Int × β)}
    (hps : ps.Pairwise (fun p q => p.1 < q.1))
    (hacc : ∀ p ∈ ps, (acc.map Prod.fst).getD (-1) < p.1) :
    ps.foldl pick acc = ps.getLast?.or acc := by
  induction ps generalizing acc with
  | nil => rfl
  | cons p ps ih =>
      obtain ⟨hfirst, hrest⟩ := List.pairwise_cons.mp hps
      have hlater : ∀ q ∈ ps, ((some p).map Prod.fst).getD (-1) < q.1 := hfirst
      rw [List.foldl_cons, pick, if_pos (hacc p List.mem_cons_self), ih hrest hlater]
      cases ps with
      | nil => rfl
      | cons q ps => rw [List.getLast?_cons_cons, List.getLast?_cons, Option.some_or, Option.some_or]

end Pick

section Names

variable [DecidableEq κ]

def put (acc : Dict κ (Int × β)) (e : κ × Int × β) : Dict κ (Int × β) :=
  if ((acc.get? e.1).map Prod.fst).getD (-1) < e.2.1 then acc.set e.1 e.2 else acc

def collect (es : List (κ × Int × β)) : Dict κ (Int × β) := es.foldl put ∅

/-- The entries of a name. -/
def entriesOf (x : κ) (es : List (κ × Int × β)) : List (Int × β) :=
  (es.filter (fun e => e.1 = x)).map Prod.snd

theorem get?_put (acc : Dict κ (Int × β)) (e : κ × Int × β) (x : κ) :
    (put acc e).get? x = if e.1 = x then pick (acc.get? x) e.2 else acc.get? x := by
  by_cases hx : e.1 = x
  · subst hx
    rw [if_pos rfl, put, pick]
    split
    · exact Dict.get?_set_self
    · rfl
  · rw [if_neg hx, put]
    split
    · exact Dict.get?_set_ne (Ne.symm hx)
    · rfl

/-- What is collected under a name depends on the entries of the name only. -/
theorem get?_collect (es : List (κ × Int × β)) (x : κ) :
    (collect es).get? x = (entriesOf x es).foldl pick none := by
  have hfold : ∀ acc : Dict κ (Int × β),
      (es.foldl put acc).get? x = (entriesOf x es).foldl pick (acc.get? x) := by
    induction es with
    | nil => exact fun acc => rfl
    | cons e es ih =>
        intro acc
        rw [List.foldl_cons, ih, get?_put, entriesOf, entriesOf, List.filter_cons]
        by_cases hx : e.1 = x
        · rw [if_pos hx, if_pos (decide_eq_true hx), List.map_cons, List.foldl_cons]
        · rw [if_neg hx, if_neg (fun h => hx (of_decide_eq_true h))]
  exact hfold ∅

theorem entriesOf_append (x : κ) (es es' : List (κ × Int × β)) :
    entriesOf x (es ++ es') = entriesOf x es ++ entriesOf x es' := by
  rw [entriesOf, List.filter_append, List.map_append, entriesOf, entriesOf]

/-- The entries of a name, where one element alone has any. -/
theorem entriesOf_filterMap {α : Type*} {x : κ} {f : α → Option (κ × Int × β)} {l : List α} {a : α}
    (hnodup : l.Nodup) (ha : a ∈ l) (hname : ∀ e ∈ f a, e.1 = x)
    (hsole : ∀ b ∈ l, ∀ e ∈ f b, e.1 = x → b = a) :
    entriesOf x (l.filterMap f) = ((f a).map Prod.snd).toList := by
  have hothers : ∀ l : List α, a ∉ l → (∀ b ∈ l, ∀ e ∈ f b, e.1 = x → b = a) →
      entriesOf x (l.filterMap f) = [] := by
    intro l hnot hall
    rw [entriesOf, List.map_eq_nil_iff, List.filter_eq_nil_iff]
    intro e he hex
    obtain ⟨b, hb, hfb⟩ := List.mem_filterMap.mp he
    exact hnot (hall b hb e hfb (of_decide_eq_true hex) ▸ hb)
  obtain ⟨before, after, rfl⟩ := List.append_of_mem ha
  obtain ⟨hbefore, hafter⟩ : a ∉ before ∧ a ∉ after := by
    have hparts := List.nodup_append.mp hnodup
    exact ⟨fun h => hparts.2.2 a h a List.mem_cons_self rfl, (List.nodup_cons.mp hparts.2.1).1⟩
  rw [List.filterMap_append, entriesOf_append,
    hothers before hbefore (fun b hb => hsole b (List.mem_append_left _ hb)), List.nil_append]
  have hrest := hothers after hafter
    (fun b hb => hsole b (List.mem_append_right _ (List.mem_cons_of_mem a hb)))
  cases hfa : f a with
  | none =>
      rw [List.filterMap_cons_none hfa, hrest]
      rfl
  | some e =>
      have hex : e.1 = x := hname e hfa
      have hself : entriesOf x [e] = [e.2] := by
        rw [entriesOf, List.filter_singleton, decide_eq_true hex]
        rfl
      rw [List.filterMap_cons_some hfa, ← List.singleton_append, entriesOf_append, hself, hrest]
      rfl

end Names

section Update

variable [DecidableEq κ]

/-- New rows with keys of their own are put last, in their order. -/
theorem rows_update (d e : Dict κ β) (h : ∀ p ∈ e.rows, p.1 ∉ d.keys) :
    (d.update e).rows = d.rows ++ e.rows := by
  have hfold : ∀ (ps : List (κ × β)) (d : Dict κ β), (ps.map Prod.fst).Nodup →
      (∀ p ∈ ps, p.1 ∉ d.keys) → (d.upsertAll ps).rows = d.rows ++ ps := by
    intro ps
    induction ps with
    | nil => exact fun d _ _ => (List.append_nil d.rows).symm
    | cons p ps ih =>
        intro d hnodup hfresh
        obtain ⟨hp, hps⟩ := List.nodup_cons.mp hnodup
        have hstep : (d.upsert p).rows = d.rows ++ [p] := by
          have hp : p.1 ∉ d.rows.map Prod.fst := hfresh p List.mem_cons_self
          rw [KeyedTable.upsert, dif_neg hp]
        have hlater : ∀ q ∈ ps, q.1 ∉ Dict.keys (d.upsert p) := by
          intro q hq hin
          rw [Dict.keys, hstep, List.map_append, List.mem_append] at hin
          rcases hin with hin | hin
          · exact hfresh q (List.mem_cons_of_mem p hq) hin
          · exact hp (List.mem_singleton.mp hin ▸ List.mem_map_of_mem hq)
        have hrest := ih (d.upsert p) hps hlater
        rw [hstep, List.append_assoc, List.singleton_append] at hrest
        exact hrest
  exact hfold e.rows d e.keys_nodup h

end Update

end RfpPlatform.KeyedLatest
