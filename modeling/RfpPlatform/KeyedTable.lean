import Mathlib.Data.List.Nodup
import Mathlib.Data.List.Perm.Basic

namespace RfpPlatform

variable {ρ κ α β : Type*}

/-- Rows in insertion order, no two of them with one key. -/
@[ext] structure KeyedTable (key : ρ → κ) where
  rows : List ρ
  keys_nodup : (rows.map key).Nodup

namespace KeyedTable

variable {key : ρ → κ}

def empty : KeyedTable key := ⟨[], List.nodup_nil⟩

instance : EmptyCollection (KeyedTable key) := ⟨empty⟩

instance [DecidableEq ρ] : DecidableEq (KeyedTable key) := fun s t =>
  decidable_of_iff (s.rows = t.rows) ⟨KeyedTable.ext, congrArg rows⟩

instance : Membership ρ (KeyedTable key) := ⟨fun t r => r ∈ t.rows⟩

theorem mem_def {t : KeyedTable key} {r : ρ} : r ∈ t ↔ r ∈ t.rows := Iff.rfl

@[simp] theorem not_mem_empty (r : ρ) : r ∉ (∅ : KeyedTable key) := List.not_mem_nil

theorem eq_of_key_eq {t : KeyedTable key} {r s : ρ} (hr : r ∈ t) (hs : s ∈ t)
    (h : key r = key s) : r = s :=
  List.inj_on_of_nodup_map t.keys_nodup hr hs h

section Insertion

variable [DecidableEq κ]

/-- Insertion under a uniqueness constraint: a row whose key is taken is refused. -/
def insert? (t : KeyedTable key) (r : ρ) : Option (KeyedTable key) :=
  if h : key r ∈ t.rows.map key then none
  else some ⟨t.rows ++ [r], by
    rw [List.map_append, List.map_singleton]
    exact List.Nodup.append t.keys_nodup (List.nodup_singleton _) (by simpa using h)⟩

theorem mem_of_insert? {t t' : KeyedTable key} {r : ρ} (h : t.insert? r = some t') (s : ρ) :
    s ∈ t' ↔ s ∈ t ∨ s = r := by
  unfold insert? at h
  split at h
  · cases h
  · cases h
    simp [mem_def]

theorem key_fresh_of_insert? {t t' : KeyedTable key} {r : ρ} (h : t.insert? r = some t') :
    ∀ s ∈ t, key s ≠ key r := by
  unfold insert? at h
  split at h
  · cases h
  · rename_i hk
    intro s hs hkey
    exact hk (List.mem_map.mpr ⟨s, hs, hkey⟩)

theorem exists_insert? {t : KeyedTable key} {r : ρ} (h : ∀ s ∈ t, key s ≠ key r) :
    ∃ t', t.insert? r = some t' := by
  refine ⟨_, dif_neg fun hmem => ?_⟩
  obtain ⟨s, hs, he⟩ := List.mem_map.mp hmem
  exact h s hs he

def lookup (t : KeyedTable key) (k : κ) : Option ρ := t.rows.find? (fun r => decide (key r = k))

theorem lookup_eq_some {t : KeyedTable key} {k : κ} {r : ρ} :
    t.lookup k = some r ↔ r ∈ t ∧ key r = k := by
  constructor
  · intro h
    exact ⟨List.mem_of_find?_eq_some h, by simpa using List.find?_some h⟩
  · rintro ⟨hr, rfl⟩
    cases hf : t.lookup (key r) with
    | none => exact absurd (List.find?_eq_none.mp hf r hr) (by simp)
    | some s =>
        have hs : s ∈ t := List.mem_of_find?_eq_some hf
        have hk : key s = key r := by simpa using List.find?_some hf
        rw [eq_of_key_eq hs hr hk]

theorem lookup_eq_none {t : KeyedTable key} {k : κ} : t.lookup k = none ↔ ∀ r ∈ t, key r ≠ k := by
  simp [lookup, List.find?_eq_none, mem_def]

end Insertion

/-- An update of the rows that a predicate selects. It may not touch the key. -/
def updateWhere (t : KeyedTable key) (p : ρ → Bool) (f : ρ → ρ) (hf : ∀ r, key (f r) = key r) :
    KeyedTable key :=
  ⟨t.rows.map (fun r => if p r then f r else r), by
    have hk : (t.rows.map (fun r => if p r then f r else r)).map key = t.rows.map key := by
      rw [List.map_map]
      refine List.map_congr_left (fun r _ => ?_)
      change key (if p r then f r else r) = key r
      split
      · exact hf r
      · rfl
    rw [hk]
    exact t.keys_nodup⟩

@[simp] theorem mem_updateWhere {t : KeyedTable key} {p : ρ → Bool} {f : ρ → ρ}
    {hf : ∀ r, key (f r) = key r} {s : ρ} :
    s ∈ t.updateWhere p f hf ↔ ∃ r ∈ t, (if p r then f r else r) = s := List.mem_map

theorem lookup_updateWhere [DecidableEq κ] {t : KeyedTable key} {k : κ} {f : ρ → ρ}
    (hf : ∀ r, key (f r) = key r) :
    (t.updateWhere (fun r => decide (key r = k)) f hf).lookup k = (t.lookup k).map f := by
  refine Option.ext (fun s => ?_)
  rw [lookup_eq_some, mem_updateWhere, Option.map_eq_some_iff]
  constructor
  · rintro ⟨⟨r, hr, rfl⟩, hk⟩
    by_cases hrk : key r = k
    · exact ⟨r, lookup_eq_some.mpr ⟨hr, hrk⟩, (if_pos (decide_eq_true hrk)).symm⟩
    · rw [if_neg (by simpa using hrk)] at hk
      exact absurd hk hrk
  · rintro ⟨r, hr, rfl⟩
    obtain ⟨hmem, hrk⟩ := lookup_eq_some.mp hr
    exact ⟨⟨r, hmem, if_pos (decide_eq_true hrk)⟩, (hf r).trans hrk⟩

def deleteWhere (t : KeyedTable key) (p : ρ → Bool) : KeyedTable key :=
  ⟨t.rows.filter (fun r => !p r), t.keys_nodup.sublist (List.Sublist.map key List.filter_sublist)⟩

@[simp] theorem mem_deleteWhere {t : KeyedTable key} {p : ρ → Bool} {r : ρ} :
    r ∈ t.deleteWhere p ↔ r ∈ t ∧ p r = false := by
  simp [mem_def, deleteWhere, List.mem_filter]

section Upsert

variable [DecidableEq κ]

/-- Writing a row: the row of the same key is replaced where it stands, and a row
with a new key is put last. -/
def upsert (t : KeyedTable key) (r : ρ) : KeyedTable key :=
  if h : key r ∈ t.rows.map key then
    ⟨t.rows.map (fun s => if key s = key r then r else s), by
      have hk : (t.rows.map (fun s => if key s = key r then r else s)).map key = t.rows.map key := by
        rw [List.map_map]
        refine List.map_congr_left (fun s _ => ?_)
        change key (if key s = key r then r else s) = key s
        split
        · rename_i he
          exact he.symm
        · rfl
      rw [hk]
      exact t.keys_nodup⟩
  else ⟨t.rows ++ [r], by
    rw [List.map_append, List.map_singleton]
    exact List.Nodup.append t.keys_nodup (List.nodup_singleton _) (by simpa using h)⟩

theorem mem_upsert {t : KeyedTable key} {r s : ρ} :
    s ∈ t.upsert r ↔ s = r ∨ (s ∈ t ∧ key s ≠ key r) := by
  unfold upsert
  split
  · rename_i h
    obtain ⟨r₀, hr₀, hk₀⟩ := List.mem_map.mp h
    change s ∈ t.rows.map _ ↔ _
    rw [List.mem_map]
    constructor
    · rintro ⟨q, hq, rfl⟩
      by_cases hkq : key q = key r
      · exact Or.inl (if_pos hkq)
      · rw [if_neg hkq]
        exact Or.inr ⟨hq, hkq⟩
    · rintro (rfl | ⟨hs, hk⟩)
      · exact ⟨r₀, hr₀, if_pos hk₀⟩
      · exact ⟨s, hs, if_neg hk⟩
  · rename_i h
    have hfresh : ∀ q ∈ t, key q ≠ key r := fun q hq he => h (List.mem_map.mpr ⟨q, hq, he⟩)
    change s ∈ t.rows ++ [r] ↔ _
    rw [List.mem_append, List.mem_singleton]
    constructor
    · rintro (hs | rfl)
      · exact Or.inr ⟨hs, hfresh s hs⟩
      · exact Or.inl rfl
    · rintro (rfl | ⟨hs, _⟩)
      · exact Or.inr rfl
      · exact Or.inl hs

/-- Deleting the row of a key undoes a write of that key. -/
theorem deleteWhere_upsert {t : KeyedTable key} {r : ρ} {p : ρ → Bool}
    (hp : ∀ s, key s = key r → p s = true) : (t.upsert r).deleteWhere p = t.deleteWhere p := by
  refine KeyedTable.ext ?_
  unfold upsert
  split
  · change (t.rows.map _).filter _ = t.rows.filter _
    rw [List.filter_map]
    have hkept : ∀ s ∈ t.rows.filter (fun s => !p s), (if key s = key r then r else s) = s := by
      intro s hs
      refine if_neg (fun hk => ?_)
      simp [hp s hk] at hs
    have hsame : ∀ s ∈ t.rows, ((fun s => !p s) ∘ fun s => if key s = key r then r else s) s =
        !p s := by
      intro s _
      by_cases hk : key s = key r
      · simp [hk, hp s hk, hp r rfl]
      · simp [hk]
    rw [List.filter_congr hsame, List.map_congr_left hkept, List.map_id']
  · change (t.rows ++ [r]).filter _ = t.rows.filter _
    rw [List.filter_append, List.filter_singleton, hp r rfl]
    simp

def upsertAll (t : KeyedTable key) (rs : List ρ) : KeyedTable key := rs.foldl upsert t

theorem mem_of_mem_upsertAll {t : KeyedTable key} {rs : List ρ} {s : ρ}
    (h : s ∈ t.upsertAll rs) : s ∈ t ∨ s ∈ rs := by
  induction rs generalizing t with
  | nil => exact Or.inl h
  | cons r rs ih =>
      rcases ih h with ht | hr
      · rcases mem_upsert.mp ht with rfl | ⟨hs, _⟩
        · exact Or.inr List.mem_cons_self
        · exact Or.inl hs
      · exact Or.inr (List.mem_cons_of_mem r hr)

theorem key_mem_upsertAll {t : KeyedTable key} {rs : List ρ} {k : κ} :
    (∃ r ∈ t.upsertAll rs, key r = k) ↔ (∃ r ∈ t, key r = k) ∨ ∃ r ∈ rs, key r = k := by
  induction rs generalizing t with
  | nil => simp [upsertAll]
  | cons r rs ih =>
      have hstep : (∃ s ∈ t.upsert r, key s = k) ↔ (∃ s ∈ t, key s = k) ∨ key r = k := by
        constructor
        · rintro ⟨s, hs, rfl⟩
          rcases mem_upsert.mp hs with rfl | ⟨hs, _⟩
          · exact Or.inr rfl
          · exact Or.inl ⟨s, hs, rfl⟩
        · rintro (⟨s, hs, rfl⟩ | rfl)
          · by_cases hk : key s = key r
            · exact ⟨r, mem_upsert.mpr (Or.inl rfl), hk.symm⟩
            · exact ⟨s, mem_upsert.mpr (Or.inr ⟨hs, hk⟩), rfl⟩
          · exact ⟨r, mem_upsert.mpr (Or.inl rfl), rfl⟩
      change (∃ s ∈ (t.upsert r).upsertAll rs, key s = k) ↔ _
      rw [ih, hstep]
      simp [or_assoc]

end Upsert

end KeyedTable

/-- A dictionary that keeps the order in which its keys were first written. -/
abbrev Dict (α β : Type*) := KeyedTable (Prod.fst : α × β → α)

namespace Dict

variable [DecidableEq α] {d e : Dict α β} {a b : α} {v w : β}

def get? (d : Dict α β) (a : α) : Option β := (d.lookup a).map Prod.snd

def set (d : Dict α β) (a : α) (v : β) : Dict α β := d.upsert (a, v)

def keys (d : Dict α β) : List α := d.rows.map Prod.fst

def values (d : Dict α β) : List β := d.rows.map Prod.snd

def update (d e : Dict α β) : Dict α β := d.upsertAll e.rows

def ofPairs (ps : List (α × β)) : Dict α β := (∅ : Dict α β).upsertAll ps

theorem get?_eq_some : d.get? a = some v ↔ (a, v) ∈ d := by
  constructor
  · intro h
    obtain ⟨⟨a', v'⟩, hl, rfl⟩ := Option.map_eq_some_iff.mp h
    obtain ⟨hm, rfl⟩ := KeyedTable.lookup_eq_some.mp hl
    exact hm
  · intro h
    exact Option.map_eq_some_iff.mpr ⟨(a, v), KeyedTable.lookup_eq_some.mpr ⟨h, rfl⟩, rfl⟩

theorem mem_keys : a ∈ d.keys ↔ ∃ v, d.get? a = some v := by
  simp only [get?_eq_some]
  constructor
  · intro h
    obtain ⟨⟨a', v⟩, hm, rfl⟩ := List.mem_map.mp h
    exact ⟨v, hm⟩
  · rintro ⟨v, hm⟩
    exact List.mem_map.mpr ⟨(a, v), hm, rfl⟩

theorem get?_eq_none : d.get? a = none ↔ a ∉ d.keys := by
  rw [mem_keys, not_exists]
  constructor
  · intro h v
    rw [h]
    exact fun h => by cases h
  · intro h
    cases hd : d.get? a with
    | none => rfl
    | some v => exact absurd hd (h v)

@[simp] theorem get?_empty : (∅ : Dict α β).get? a = none := rfl

@[simp] theorem get?_set_self : (d.set a v).get? a = some v :=
  get?_eq_some.mpr (KeyedTable.mem_upsert.mpr (Or.inl rfl))

theorem get?_set_ne (h : b ≠ a) : (d.set a v).get? b = d.get? b := by
  refine Option.ext (fun w => ?_)
  rw [get?_eq_some, get?_eq_some, set, KeyedTable.mem_upsert]
  constructor
  · rintro (he | ⟨hm, _⟩)
    · exact absurd (congrArg Prod.fst he) h
    · exact hm
  · intro hm
    exact Or.inr ⟨hm, h⟩

theorem get?_deleteWhere {p : α × β → Bool} :
    get? (KeyedTable.deleteWhere d p) a = (d.get? a).filter (fun v => !p (a, v)) := by
  refine Option.ext (fun w => ?_)
  rw [get?_eq_some, KeyedTable.mem_deleteWhere, Option.filter_eq_some_iff, get?_eq_some,
    Bool.not_eq_true']

theorem mem_keys_set : b ∈ (d.set a v).keys ↔ b = a ∨ b ∈ d.keys := by
  by_cases h : b = a
  · subst h
    exact ⟨fun _ => Or.inl rfl, fun _ => mem_keys.mpr ⟨v, get?_set_self⟩⟩
  · rw [mem_keys, mem_keys, get?_set_ne h]
    exact ⟨Or.inr, fun h' => h'.resolve_left h⟩

theorem mem_of_mem_ofPairs {ps : List (α × β)} {p : α × β} (h : p ∈ ofPairs ps) : p ∈ ps :=
  (KeyedTable.mem_of_mem_upsertAll h).resolve_left (KeyedTable.not_mem_empty p)

/-- A dictionary of pairs that agree on a key has their value for it. -/
theorem get?_ofPairs {ps : List (α × β)} (h : ∀ w, (a, v) ∈ ps → (a, w) ∈ ps → w = v) :
    (ofPairs ps).get? a = some v ↔ (a, v) ∈ ps := by
  rw [get?_eq_some]
  refine ⟨mem_of_mem_ofPairs, fun hv => ?_⟩
  have hkey : ∃ p ∈ ofPairs ps, p.1 = a :=
    KeyedTable.key_mem_upsertAll.mpr (Or.inr ⟨(a, v), hv, rfl⟩)
  obtain ⟨⟨_, w⟩, hw, rfl⟩ := hkey
  rw [← h w hv (mem_of_mem_ofPairs hw)]
  exact hw

omit [DecidableEq α] in
theorem nodup_rows (d : Dict α β) : d.rows.Nodup := d.keys_nodup.of_map Prod.fst

/-- A dictionary of pairs with distinct keys has them all. -/
theorem perm_rows_ofPairs {ps : List (α × β)} (h : (ps.map Prod.fst).Nodup) :
    (ofPairs ps).rows.Perm ps := by
  rw [List.perm_ext_iff_of_nodup (nodup_rows _) (h.of_map Prod.fst)]
  rintro ⟨a, v⟩
  rw [← KeyedTable.mem_def, ← get?_eq_some]
  refine get?_ofPairs fun w hv hw => ?_
  have hsame : (a, w) = (a, v) := List.inj_on_of_nodup_map h hw hv rfl
  exact (Prod.mk.inj hsame).2

theorem mem_keys_update : a ∈ (d.update e).keys ↔ a ∈ d.keys ∨ a ∈ e.keys := by
  have h : (∃ r ∈ d.upsertAll e.rows, r.1 = a) ↔ (∃ r ∈ d, r.1 = a) ∨ ∃ r ∈ e.rows, r.1 = a :=
    KeyedTable.key_mem_upsertAll
  simpa only [keys, update, List.mem_map, KeyedTable.mem_def] using h

end Dict

end RfpPlatform
