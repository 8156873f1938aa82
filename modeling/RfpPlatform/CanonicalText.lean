import Mathlib.Data.List.Sort
import Mathlib.Data.String.Basic
import Mathlib.Logic.Function.Basic

namespace RfpPlatform.CanonicalText

/-- A value made of scalars, texts, lists and dictionaries. -/
inductive Value (A : Type)
  | scalar (a : A)
  | str (s : String)
  | list (vs : List (Value A))
  | dict (members : List (String × Value A))

/-- How scalars and the characters of texts are written. -/
structure Format (A : Type) where
  word : A → List Char
  escape : Char → List Char

/-- The characters that can follow a value within a text. -/
def delimiters : List Char := [',', ']', '}']

/-- No scalar looks like another, or like the start of anything else, and an escaped character is
read back whatever comes after it. -/
structure Format.Unambiguous {A : Type} (f : Format A) : Prop where
  word_injective : Function.Injective f.word
  word_ne_nil : ∀ a, f.word a ≠ []
  word_plain : ∀ a, ∀ c ∈ f.word a, c ∉ '"' :: '[' :: '{' :: delimiters
  escape_append : ∀ {c d x y}, f.escape c ++ x = f.escape d ++ y → c = d ∧ x = y
  escape_ne_quote : ∀ c x y, f.escape c ++ x ≠ '"' :: y

namespace Value

variable {A : Type}

mutual

/-- The value with the members of its dictionaries in the order of their keys. -/
def sorted : Value A → Value A
  | .list vs => .list (sortedAll vs)
  | .dict members => .dict ((sortedMembers members).insertionSort fun m n => m.1 ≤ n.1)
  | .scalar a => .scalar a
  | .str s => .str s

def sortedAll : List (Value A) → List (Value A)
  | [] => []
  | v :: vs => v.sorted :: sortedAll vs

def sortedMembers : List (String × Value A) → List (String × Value A)
  | [] => []
  | (k, v) :: members => (k, v.sorted) :: sortedMembers members

end

/-- Two values that differ at most in the order of the members of their dictionaries. -/
def Same (u v : Value A) : Prop := u.sorted = v.sorted

end Value

def quoted {A : Type} (f : Format A) (s : String) : List Char :=
  '"' :: (s.toList.flatMap f.escape ++ ['"'])

/-- Items with a comma and a blank between them. -/
def joined : List (List Char) → List Char
  | [] => []
  | item :: rest => item ++ rest.flatMap fun i => ',' :: ' ' :: i

mutual

def text {A : Type} (f : Format A) : Value A → List Char
  | .scalar a => f.word a
  | .str s => quoted f s
  | .list vs => '[' :: (joined (texts f vs) ++ [']'])
  | .dict members => '{' :: (joined (memberTexts f members) ++ ['}'])

def texts {A : Type} (f : Format A) : List (Value A) → List (List Char)
  | [] => []
  | v :: vs => text f v :: texts f vs

def memberTexts {A : Type} (f : Format A) : List (String × Value A) → List (List Char)
  | [] => []
  | (k, v) :: members => (quoted f k ++ ':' :: ' ' :: text f v) :: memberTexts f members

end

/-- The text of a value, with the members of dictionaries in the order of their keys. -/
def canonical {A : Type} (f : Format A) (v : Value A) : String := String.ofList (text f v.sorted)

/-- What follows a value: nothing, or a delimiter. -/
def Stops (r : List Char) : Prop := ∀ c ∈ r.head?, c ∈ delimiters

/-- An item is read back from the front of a text that stops after it. -/
def ReadBack {α : Type} (item : α → List Char) (a : α) : Prop :=
  ∀ b r s, Stops r → Stops s → item a ++ r = item b ++ s → a = b ∧ r = s

section Values

variable {A : Type}

theorem Value.induction {P : Value A → Prop} (scalar : ∀ a, P (.scalar a)) (str : ∀ s, P (.str s))
    (list : ∀ vs, (∀ v ∈ vs, P v) → P (.list vs))
    (dict : ∀ members, (∀ m ∈ members, P m.2) → P (.dict members)) (v : Value A) : P v :=
  @Value.rec A P (fun vs => ∀ v ∈ vs, P v) (fun members => ∀ m ∈ members, P m.2) (fun m => P m.2)
    scalar str list dict (fun _ h => absurd h List.not_mem_nil)
    (fun _ _ hv hvs => List.forall_mem_cons.mpr ⟨hv, hvs⟩)
    (fun _ h => absurd h List.not_mem_nil)
    (fun _ _ hm hms => List.forall_mem_cons.mpr ⟨hm, hms⟩) (fun _ _ h => h) v

theorem Value.mem_sortedMembers {members : List (String × Value A)} {k : String} {v : Value A} :
    (k, v) ∈ sortedMembers members ↔ ∃ u, (k, u) ∈ members ∧ u.sorted = v := by
  induction members with
  | nil => simp [sortedMembers]
  | cons m members ih =>
      obtain ⟨l, u⟩ := m
      rw [sortedMembers, List.mem_cons, ih]
      constructor
      · rintro (h | ⟨w, hw, rfl⟩)
        · obtain ⟨rfl, rfl⟩ := Prod.mk.inj h
          exact ⟨u, List.mem_cons_self, rfl⟩
        · exact ⟨w, List.mem_cons_of_mem _ hw, rfl⟩
      · rintro ⟨w, hw, rfl⟩
        rcases List.mem_cons.mp hw with h | h
        · obtain ⟨rfl, rfl⟩ := Prod.mk.inj h
          exact .inl rfl
        · exact .inr ⟨w, h, rfl⟩

/-- Dictionaries that are the same have the same keys, with values that are the same. -/
theorem Value.Same.member {members members' : List (String × Value A)} {k : String} {v : Value A}
    (h : Same (.dict members) (.dict members')) (hv : (k, v) ∈ members) :
    ∃ v', (k, v') ∈ members' ∧ Same v v' := by
  have hsorted : (k, v.sorted) ∈ (sortedMembers members').insertionSort fun m n => m.1 ≤ n.1 := by
    have hdict : (sortedMembers members).insertionSort (fun m n => m.1 ≤ n.1) =
        (sortedMembers members').insertionSort fun m n => m.1 ≤ n.1 := by
      injection h
    rw [← hdict, List.mem_insertionSort]
    exact mem_sortedMembers.mpr ⟨v, hv, rfl⟩
  obtain ⟨v', hv', hsame⟩ := mem_sortedMembers.mp ((List.mem_insertionSort _).mp hsorted)
  exact ⟨v', hv', hsame.symm⟩

theorem texts_eq_map (f : Format A) (vs : List (Value A)) : texts f vs = vs.map (text f) := by
  induction vs with
  | nil => rfl
  | cons v vs ih => rw [texts, ih, List.map_cons]

/-- One member of a dictionary. -/
def memberText (f : Format A) (m : String × Value A) : List Char :=
  quoted f m.1 ++ ':' :: ' ' :: text f m.2

theorem memberTexts_eq_map (f : Format A) (members : List (String × Value A)) :
    memberTexts f members = members.map (memberText f) := by
  induction members with
  | nil => rfl
  | cons m members ih =>
      obtain ⟨k, v⟩ := m
      rw [memberTexts, ih, List.map_cons, memberText]

end Values

section Reading

variable {A : Type} {f : Format A} {r s : List Char}

theorem stops_cons {c : Char} (h : c ∈ delimiters) : Stops (c :: r) := by
  intro d hd
  rw [List.head?_cons, Option.mem_some_iff] at hd
  rwa [← hd]

theorem escaped_append_inj (hf : f.Unambiguous) {cs ds : List Char}
    (h : cs.flatMap f.escape ++ '"' :: r = ds.flatMap f.escape ++ '"' :: s) : cs = ds ∧ r = s := by
  induction cs generalizing ds with
  | nil =>
      cases ds with
      | nil => exact ⟨rfl, List.tail_eq_of_cons_eq h⟩
      | cons d ds =>
          rw [List.flatMap_cons, List.append_assoc] at h
          exact absurd h.symm (hf.escape_ne_quote d _ _)
  | cons c cs ih =>
      rw [List.flatMap_cons, List.append_assoc] at h
      cases ds with
      | nil => exact absurd h (hf.escape_ne_quote c _ _)
      | cons d ds =>
          rw [List.flatMap_cons, List.append_assoc] at h
          obtain ⟨rfl, hrest⟩ := hf.escape_append h
          obtain ⟨rfl, hr⟩ := ih hrest
          exact ⟨rfl, hr⟩

theorem quoted_append_inj (hf : f.Unambiguous) {k l : String}
    (h : quoted f k ++ r = quoted f l ++ s) : k = l ∧ r = s := by
  simp only [quoted, List.cons_append, List.append_assoc, List.nil_append] at h
  obtain ⟨hkl, hr⟩ := escaped_append_inj hf (List.tail_eq_of_cons_eq h)
  exact ⟨String.toList_injective hkl, hr⟩

/-- A word ends where a delimiter starts. -/
theorem word_append_inj {xs ys : List Char} (hxs : ∀ c ∈ xs, c ∉ delimiters)
    (hys : ∀ c ∈ ys, c ∉ delimiters) (hr : Stops r) (hs : Stops s) (h : xs ++ r = ys ++ s) :
    xs = ys ∧ r = s := by
  induction xs generalizing ys with
  | nil =>
      cases ys with
      | nil => exact ⟨rfl, h⟩
      | cons y ys =>
          rw [List.nil_append] at h
          subst h
          exact absurd (hr y rfl) (hys y List.mem_cons_self)
  | cons x xs ih =>
      cases ys with
      | nil =>
          rw [List.nil_append] at h
          subst h
          exact absurd (hs x rfl) (hxs x List.mem_cons_self)
      | cons y ys =>
          obtain ⟨rfl, hrest⟩ := List.cons.inj h
          obtain ⟨rfl, hr⟩ := ih (fun c hc => hxs c (List.mem_cons_of_mem _ hc))
            (fun c hc => hys c (List.mem_cons_of_mem _ hc)) hrest
          exact ⟨rfl, hr⟩

variable {α : Type} {item : α → List Char} {close : Char} {as bs : List α}

theorem stops_rest (hclose : close ∈ delimiters) (is : List (List Char)) :
    Stops (is.flatMap (fun i => ',' :: ' ' :: i) ++ close :: r) := by
  cases is with
  | nil => exact stops_cons hclose
  | cons i is => exact stops_cons List.mem_cons_self

theorem rest_append_inj (hclose : close ∈ delimiters) (hne : close ≠ ',')
    (has : ∀ a ∈ as, ReadBack item a)
    (h : (as.map item).flatMap (fun i => ',' :: ' ' :: i) ++ close :: r =
      (bs.map item).flatMap (fun i => ',' :: ' ' :: i) ++ close :: s) : as = bs ∧ r = s := by
  induction as generalizing bs with
  | nil =>
      cases bs with
      | nil => exact ⟨rfl, List.tail_eq_of_cons_eq h⟩
      | cons b bs => exact absurd (List.head_eq_of_cons_eq h) hne
  | cons a as ih =>
      obtain ⟨ha, has⟩ := List.forall_mem_cons.mp has
      cases bs with
      | nil => exact absurd (List.head_eq_of_cons_eq h).symm hne
      | cons b bs =>
          simp only [List.map_cons, List.flatMap_cons, List.cons_append, List.append_assoc] at h
          obtain ⟨rfl, hrest⟩ := ha b _ _ (stops_rest hclose _) (stops_rest hclose _)
            (List.tail_eq_of_cons_eq (List.tail_eq_of_cons_eq h))
          obtain ⟨rfl, hr⟩ := ih has hrest
          exact ⟨rfl, hr⟩

/-- Items before a closing bracket are read back when each of them is and none starts with it. -/
theorem joined_append_inj (hclose : close ∈ delimiters) (hne : close ≠ ',')
    (hopen : ∀ (b : α) (x y : List Char), item b ++ x ≠ close :: y)
    (has : ∀ a ∈ as, ReadBack item a)
    (h : joined (as.map item) ++ close :: r = joined (bs.map item) ++ close :: s) :
    as = bs ∧ r = s := by
  cases as with
  | nil =>
      cases bs with
      | nil => exact ⟨rfl, List.tail_eq_of_cons_eq h⟩
      | cons b bs =>
          rw [List.map_cons, joined, List.append_assoc] at h
          exact absurd h.symm (hopen b _ _)
  | cons a as =>
      obtain ⟨ha, has⟩ := List.forall_mem_cons.mp has
      rw [List.map_cons, joined, List.append_assoc] at h
      cases bs with
      | nil => exact absurd h (hopen a _ _)
      | cons b bs =>
          rw [List.map_cons, joined, List.append_assoc] at h
          obtain ⟨rfl, hrest⟩ := ha b _ _ (stops_rest hclose _) (stops_rest hclose _) h
          obtain ⟨rfl, hr⟩ := rest_append_inj hclose hne has hrest
          exact ⟨rfl, hr⟩

/-- The characters that a value can start with. -/
def Opens (f : Format A) (v : Value A) (c : Char) : Prop :=
  match v with
  | .scalar a => (f.word a).head? = some c
  | .str _ => c = '"'
  | .list _ => c = '['
  | .dict _ => c = '{'

def Value.kind : Value A → Nat
  | .scalar _ => 0
  | .str _ => 1
  | .list _ => 2
  | .dict _ => 3

def kindOf (c : Char) : Nat := if c = '"' then 1 else if c = '[' then 2 else if c = '{' then 3 else 0

theorem text_opens (hf : f.Unambiguous) (v : Value A) : ∃ c x, text f v = c :: x ∧ Opens f v c := by
  cases v with
  | scalar a =>
      obtain ⟨c, x, hword⟩ := List.exists_cons_of_ne_nil (hf.word_ne_nil a)
      exact ⟨c, x, hword, by rw [Opens, hword, List.head?_cons]⟩
  | str s => exact ⟨_, _, rfl, rfl⟩
  | list vs => exact ⟨_, _, rfl, rfl⟩
  | dict members => exact ⟨_, _, rfl, rfl⟩

theorem Opens.not_delimiter (hf : f.Unambiguous) {v : Value A} {c : Char} (h : Opens f v c) :
    c ∉ delimiters := by
  cases v with
  | scalar a =>
      have hplain := hf.word_plain a c (List.mem_of_mem_head? h)
      exact fun hc => hplain (by simp [hc])
  | str s =>
      rw [show c = '"' from h]
      decide
  | list vs =>
      rw [show c = '[' from h]
      decide
  | dict members =>
      rw [show c = '{' from h]
      decide

/-- The character that a value starts with tells its kind. -/
theorem Opens.kind_eq (hf : f.Unambiguous) {v : Value A} {c : Char} (h : Opens f v c) :
    v.kind = kindOf c := by
  cases v with
  | scalar a =>
      have hplain := hf.word_plain a c (List.mem_of_mem_head? h)
      simp only [List.mem_cons, not_or] at hplain
      rw [kindOf, if_neg hplain.1, if_neg hplain.2.1, if_neg hplain.2.2.1, Value.kind]
  | str s =>
      rw [show c = '"' from h]
      rfl
  | list vs =>
      rw [show c = '[' from h]
      rfl
  | dict members =>
      rw [show c = '{' from h]
      rfl

theorem kind_eq_of_text (hf : f.Unambiguous) {u v : Value A} (h : text f u ++ r = text f v ++ s) :
    u.kind = v.kind := by
  obtain ⟨c, x, hu, hc⟩ := text_opens hf u
  obtain ⟨d, y, hv, hd⟩ := text_opens hf v
  rw [hu, hv, List.cons_append, List.cons_append] at h
  rw [hc.kind_eq hf, hd.kind_eq hf, List.head_eq_of_cons_eq h]

theorem text_ne_close (hf : f.Unambiguous) {close : Char} (hclose : close ∈ delimiters) (v : Value A)
    (x y : List Char) : text f v ++ x ≠ close :: y := by
  intro h
  obtain ⟨c, z, hv, hc⟩ := text_opens hf v
  rw [hv, List.cons_append] at h
  rw [← List.head_eq_of_cons_eq h] at hclose
  exact hc.not_delimiter hf hclose

theorem memberText_readBack (hf : f.Unambiguous) {m : String × Value A}
    (hm : ReadBack (text f) m.2) : ReadBack (memberText f) m := by
  intro n r s hr hs h
  simp only [memberText, List.append_assoc, List.cons_append] at h
  obtain ⟨hkey, hrest⟩ := quoted_append_inj hf h
  obtain ⟨hvalue, htail⟩ := hm n.2 r s hr hs (List.tail_eq_of_cons_eq (List.tail_eq_of_cons_eq hrest))
  exact ⟨Prod.ext hkey hvalue, htail⟩

theorem text_readBack (hf : f.Unambiguous) (u : Value A) : ReadBack (text f) u := by
  induction u using Value.induction with
  | scalar a =>
      intro v r s hr hs h
      cases v with
      | scalar b =>
          have hplain : ∀ a, ∀ c ∈ f.word a, c ∉ delimiters :=
            fun a c hc hd => hf.word_plain a c hc (by simp [hd])
          obtain ⟨hword, hrest⟩ := word_append_inj (hplain a) (hplain b) hr hs h
          exact ⟨by rw [hf.word_injective hword], hrest⟩
      | str | list | dict => exact absurd (kind_eq_of_text hf h) (by simp [Value.kind])
  | str k =>
      intro v r s hr hs h
      cases v with
      | str l =>
          obtain ⟨rfl, hrest⟩ := quoted_append_inj hf h
          exact ⟨rfl, hrest⟩
      | scalar | list | dict => exact absurd (kind_eq_of_text hf h) (by simp [Value.kind])
  | list vs ih =>
      intro v r s hr hs h
      cases v with
      | list ws =>
          simp only [text, texts_eq_map, List.cons_append, List.append_assoc, List.nil_append] at h
          obtain ⟨rfl, hrest⟩ := joined_append_inj (by decide) (by decide)
            (text_ne_close hf (by decide)) ih (List.tail_eq_of_cons_eq h)
          exact ⟨rfl, hrest⟩
      | scalar | str | dict => exact absurd (kind_eq_of_text hf h) (by simp [Value.kind])
  | dict members ih =>
      intro v r s hr hs h
      cases v with
      | dict members' =>
          simp only [text, memberTexts_eq_map, List.cons_append, List.append_assoc,
            List.nil_append] at h
          have hopen : ∀ (m : String × Value A) (x y : List Char), memberText f m ++ x ≠ '}' :: y :=
            fun m x y hm => absurd (List.head_eq_of_cons_eq hm) (by decide)
          obtain ⟨rfl, hrest⟩ := joined_append_inj (by decide) (by decide) hopen
            (fun m hm => memberText_readBack hf (ih m hm)) (List.tail_eq_of_cons_eq h)
          exact ⟨rfl, hrest⟩
      | scalar | str | list => exact absurd (kind_eq_of_text hf h) (by simp [Value.kind])

/-- A value is determined by its text. -/
theorem text_injective (hf : f.Unambiguous) : Function.Injective (text f) := by
  intro u v h
  have hnil : Stops [] := fun _ hc => absurd hc (Option.not_mem_none _)
  refine (text_readBack hf u v [] [] hnil hnil ?_).1
  rw [h]

theorem canonical_eq_iff (hf : f.Unambiguous) {u v : Value A} :
    canonical f u = canonical f v ↔ u.Same v := by
  constructor
  · intro h
    have htext := congrArg String.toList h
    rw [canonical, canonical, String.toList_ofList, String.toList_ofList] at htext
    exact text_injective hf htext
  · intro h
    rw [canonical, canonical, h]

end Reading

end RfpPlatform.CanonicalText
