import RfpPlatform.KeyedTable

namespace RfpPlatform.Reducers

variable {α β : Type*}

/-- A way to put a value over what there is, if there is anything, with the comparison that it
respects and the pairs of values that it takes in any order. -/
structure Reducing (put : Option β → β → β) (Same Apart : β → β → Prop) : Prop where
  equiv : Equivalence Same
  congr : ∀ {x y v w}, Option.Rel Same x y → Same v w → Same (put x v) (put y w)
  unit : ∀ v, Same (put none v) v
  assoc : ∀ x v w, Same (put (some (put x v)) w) (put x (put (some v) w))
  symm : ∀ {v w}, Apart v w → Apart w v
  comm : ∀ {v w}, Apart v w → Same (put (some v) w) (put (some w) v)

/-- The later value wins. -/
def rightWins (_ : Option β) (v : β) : β := v

theorem reducing_rightWins : Reducing (rightWins : Option β → β → β) (· = ·) (fun _ _ => False) where
  equiv := eq_equivalence
  congr := fun _ h => h
  unit := fun _ => rfl
  assoc := fun _ _ _ => rfl
  symm := fun h => h
  comm := fun h => h.elim

/-- The laws of a merge, up to the comparison `Same`. -/
structure MergeLaws (merge : β → β → β) (empty : β) (Same Apart : β → β → Prop) : Prop where
  assoc : ∀ a b c, Same (merge (merge a b) c) (merge a (merge b c))
  empty_left : ∀ a, Same (merge empty a) a
  empty_right : ∀ a, Same (merge a empty) a
  comm : ∀ a b, Apart a b → Same (merge a b) (merge b a)
  anyOrder : ∀ (us vs : List β) (a : β), us.Perm vs → us.Pairwise Apart →
    Same (us.foldl merge a) (vs.foldl merge a)

theorem MergeLaws.of_apart {merge : β → β → β} {empty : β} {Same Apart Apart' : β → β → Prop}
    (h : MergeLaws merge empty Same Apart) (hapart : ∀ a b, Apart' a b → Apart a b) :
    MergeLaws merge empty Same Apart' where
  assoc := h.assoc
  empty_left := h.empty_left
  empty_right := h.empty_right
  comm := fun a b hab => h.comm a b (hapart a b hab)
  anyOrder := fun us vs a hperm hus => h.anyOrder us vs a hperm (hus.imp (hapart _ _))

section Folds

variable {put : Option β → β → β} {Same Apart : β → β → Prop} {us vs : List β} {a b : β}

/-- The merge of two values that are there. -/
def putOnto (put : Option β → β → β) (a b : β) : β := put (some a) b

theorem Reducing.putOnto_congr (h : Reducing put Same Apart) {c d : β} (hab : Same a b) (hcd : Same c d) :
    Same (putOnto put a c) (putOnto put b d) :=
  h.congr (Option.Rel.some hab) hcd

theorem Reducing.foldl_congr (h : Reducing put Same Apart) (hab : Same a b) (us : List β) :
    Same (us.foldl (putOnto put) a) (us.foldl (putOnto put) b) := by
  induction us generalizing a b with
  | nil => exact hab
  | cons u us ih => exact ih (h.putOnto_congr hab (h.equiv.refl u))

/-- Two neighbours that are apart change places. -/
theorem Reducing.putOnto_swap (h : Reducing put Same Apart) {v w : β} (hvw : Apart v w) (a : β) :
    Same (putOnto put (putOnto put a v) w) (putOnto put (putOnto put a w) v) := by
  have hleft : Same (putOnto put (putOnto put a v) w) (putOnto put a (putOnto put v w)) := h.assoc _ v w
  have hmiddle : Same (putOnto put a (putOnto put v w)) (putOnto put a (putOnto put w v)) :=
    h.putOnto_congr (h.equiv.refl a) (h.comm hvw)
  have hright : Same (putOnto put (putOnto put a w) v) (putOnto put a (putOnto put w v)) := h.assoc _ w v
  exact h.equiv.trans (h.equiv.trans hleft hmiddle) (h.equiv.symm hright)

/-- Values that are apart can be merged in any order. -/
theorem Reducing.foldl_perm (h : Reducing put Same Apart) (hperm : us.Perm vs)
    (hapart : us.Pairwise Apart) (a : β) : Same (us.foldl (putOnto put) a) (vs.foldl (putOnto put) a) := by
  induction hperm generalizing a with
  | nil => exact h.equiv.refl a
  | cons u _ ih => exact ih hapart.of_cons _
  | swap u v us =>
      have hvu : Apart v u := (List.pairwise_cons.mp hapart).1 u List.mem_cons_self
      exact h.foldl_congr (h.putOnto_swap hvu a) us
  | trans hfirst _ ih ih' =>
      have hmiddle := hfirst.pairwise hapart h.symm
      exact h.equiv.trans (ih hapart a) (ih' hmiddle a)

/-- A reducer whose merge with an empty value changes nothing is a merge. -/
theorem Reducing.mergeLaws (h : Reducing put Same Apart) {empty : β}
    (hleft : ∀ a, Same (putOnto put empty a) a) (hright : ∀ a, Same (putOnto put a empty) a) :
    MergeLaws (putOnto put) empty Same Apart where
  assoc := fun a b c => h.assoc (some a) b c
  empty_left := hleft
  empty_right := hright
  comm := fun _ _ hab => h.comm hab
  anyOrder := fun _ _ a hperm hapart => h.foldl_perm hperm hapart a

end Folds

section Dictionaries

variable [DecidableEq α] {put : Option β → β → β} {Same Apart : β → β → Prop} {d e : Dict α β}
  {a : α}

/-- The rows of `e` one after another over what `d` has at their keys. -/
def mergeWith (put : Option β → β → β) (d e : Dict α β) : Dict α β :=
  e.rows.foldl (fun out p => out.set p.1 (put (out.get? p.1) p.2)) d

/-- The reducer of dictionaries that puts values over one another key by key. -/
def putAt (put : Option β → β → β) (d : Option (Dict α β)) (e : Dict α β) : Dict α β :=
  mergeWith put (d.getD ∅) e

/-- Equality of dictionaries, which does not see the order of their keys. -/
def SameAt (Same : β → β → Prop) (d e : Dict α β) : Prop := ∀ a, Option.Rel Same (d.get? a) (e.get? a)

/-- Where both dictionaries have a value, the two are apart. -/
def ApartAt (Apart : β → β → Prop) (d e : Dict α β) : Prop :=
  ∀ a v w, d.get? a = some v → e.get? a = some w → Apart v w

/-- What there is after a value, if there is one, is put over what there was. -/
def putOver (put : Option β → β → β) (x : Option β) : Option β → Option β
  | none => x
  | some w => some (put x w)

theorem get?_foldl_set (rows : List (α × β)) (hnodup : (rows.map Prod.fst).Nodup) (d : Dict α β) (a : α) :
    (rows.foldl (fun out p => out.set p.1 (put (out.get? p.1) p.2)) d).get? a =
      putOver put (d.get? a) ((rows.find? (fun p => decide (p.1 = a))).map Prod.snd) := by
  induction rows generalizing d with
  | nil => rfl
  | cons p rows ih =>
      obtain ⟨hfresh, hrest⟩ := List.nodup_cons.mp hnodup
      rw [List.foldl_cons, ih hrest]
      by_cases hp : p.1 = a
      · subst hp
        have hnone : rows.find? (fun q => decide (q.1 = p.1)) = none := by
          rw [List.find?_eq_none]
          intro q hq hkey
          exact hfresh (List.mem_map.mpr ⟨q, hq, of_decide_eq_true hkey⟩)
        simp [hnone, putOver]
      · rw [Dict.get?_set_ne (Ne.symm hp), List.find?_cons_of_neg (by simpa using hp)]

theorem get?_mergeWith (d e : Dict α β) (a : α) :
    (mergeWith put d e).get? a = putOver put (d.get? a) (e.get? a) :=
  get?_foldl_set e.rows e.keys_nodup d a

/-- Values compared by an equivalence are so compared where they may be missing. -/
theorem rel_equivalence (h : Equivalence Same) : Equivalence (Option.Rel Same) where
  refl := fun x => by
    cases x with
    | none => exact .none
    | some v => exact .some (h.refl v)
  symm := fun hxy => by
    cases hxy with
    | none => exact .none
    | some hvw => exact .some (h.symm hvw)
  trans := fun hxy hyz => by
    cases hxy with
    | none => exact hyz
    | some hvw =>
        cases hyz with
        | some hwu => exact .some (h.trans hvw hwu)

theorem sameAt_equivalence (h : Equivalence Same) :
    Equivalence (SameAt Same : Dict α β → Dict α β → Prop) where
  refl := fun d a => (rel_equivalence h).refl (d.get? a)
  symm := fun hde a => (rel_equivalence h).symm (hde a)
  trans := fun hde hef a => (rel_equivalence h).trans (hde a) (hef a)

section PutOver

variable {x y z : Option β}

theorem putOver_congr (h : Reducing put Same Apart) {x' y' : Option β} (hx : Option.Rel Same x x')
    (hy : Option.Rel Same y y') : Option.Rel Same (putOver put x y) (putOver put x' y') := by
  cases hy with
  | none => exact hx
  | some hvw => exact .some (h.congr hx hvw)

theorem putOver_none_left (h : Reducing put Same Apart) (y : Option β) :
    Option.Rel Same (putOver put none y) y := by
  cases y with
  | none => exact .none
  | some v => exact .some (h.unit v)

theorem putOver_assoc (h : Reducing put Same Apart) (x y z : Option β) :
    Option.Rel Same (putOver put (putOver put x y) z) (putOver put x (putOver put y z)) := by
  cases z with
  | none => exact (rel_equivalence h.equiv).refl _
  | some w =>
      cases y with
      | none => exact .some (h.congr ((rel_equivalence h.equiv).refl x) (h.equiv.symm (h.unit w)))
      | some v => exact .some (h.assoc x v w)

theorem putOver_comm (h : Reducing put Same Apart)
    (hapart : ∀ v w, x = some v → y = some w → Apart v w) :
    Option.Rel Same (putOver put x y) (putOver put y x) := by
  cases x with
  | none => exact putOver_none_left h y
  | some v =>
      cases y with
      | none => exact .some (h.equiv.symm (h.unit v))
      | some w => exact .some (h.comm (hapart v w rfl rfl))

end PutOver

/-- A reducer of values is one of dictionaries of such values. -/
theorem Reducing.at (h : Reducing put Same Apart) :
    Reducing (putAt put : Option (Dict α β) → Dict α β → Dict α β) (SameAt Same) (ApartAt Apart) where
  equiv := sameAt_equivalence h.equiv
  congr := fun {x y d e} hxy hde a => by
    rw [putAt, putAt, get?_mergeWith, get?_mergeWith]
    refine putOver_congr h ?_ (hde a)
    cases hxy with
    | none => exact .none
    | some hdd => exact hdd a
  unit := fun d a => by
    rw [putAt, get?_mergeWith]
    exact putOver_none_left h (d.get? a)
  assoc := fun x d e a => by
    simp only [putAt, get?_mergeWith, Option.getD_some]
    exact putOver_assoc h _ _ _
  symm := fun hde a v w hv hw => h.symm (hde a w v hw hv)
  comm := fun {d e} hde a => by
    simp only [putAt, get?_mergeWith, Option.getD_some]
    exact putOver_comm h (hde a)

/-- The merge of dictionaries that a reducer of their values gives. -/
theorem Reducing.mergeLaws_at (h : Reducing put Same Apart) :
    MergeLaws (mergeWith put : Dict α β → Dict α β → Dict α β) ∅ (SameAt Same) (ApartAt Apart) :=
  h.at.mergeLaws (fun d => h.at.unit d) (fun d => h.at.equiv.refl d)

theorem apartAt_iff_keys :
    ApartAt (fun _ _ => False) d e ↔ ∀ a ∈ d.keys, a ∉ e.keys := by
  simp only [ApartAt, Dict.mem_keys]
  constructor
  · rintro h a ⟨v, hv⟩ ⟨w, hw⟩
    exact h a v w hv hw
  · intro h a v w hv hw
    exact h a ⟨v, hv⟩ ⟨w, hw⟩

end Dictionaries

end RfpPlatform.Reducers
