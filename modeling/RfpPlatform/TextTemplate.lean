import Mathlib.Data.List.Infix

namespace RfpPlatform.TextTemplate

variable {pat val l t : List Char}

/-- `str.replace` for a text that is not empty: leftmost and without overlaps. The first argument
is how much of an occurrence is still to be passed over. -/
def replaceFrom (pat val : List Char) : Nat → List Char → List Char
  | _, [] => []
  | n + 1, _ :: t => replaceFrom pat val n t
  | 0, c :: t =>
      if pat.isPrefixOf (c :: t) then val ++ replaceFrom pat val (pat.length - 1) t
      else c :: replaceFrom pat val 0 t

def replaceAll (pat val t : List Char) : List Char := replaceFrom pat val 0 t

theorem replaceFrom_drop (n : Nat) (t : List Char) :
    replaceFrom pat val n t = replaceAll pat val (t.drop n) := by
  induction n generalizing t with
  | zero => rfl
  | succ n ih =>
      cases t with
      | nil => rfl
      | cons c t => exact ih t

theorem replaceAll_here (hne : pat ≠ []) :
    replaceAll pat val (pat ++ t) = val ++ replaceAll pat val t := by
  obtain ⟨c, p, rfl⟩ := List.exists_cons_of_ne_nil hne
  have hpre : (c :: p).isPrefixOf (c :: p ++ t) = true :=
    List.isPrefixOf_iff_prefix.mpr (List.prefix_append _ t)
  calc replaceAll (c :: p) val (c :: p ++ t)
      = val ++ replaceFrom (c :: p) val ((c :: p).length - 1) (p ++ t) := if_pos hpre
    _ = val ++ replaceAll (c :: p) val ((p ++ t).drop p.length) := by
        rw [replaceFrom_drop]
        rfl
    _ = val ++ replaceAll (c :: p) val t := by rw [List.drop_left]

/-- No occurrence begins in the first part of the text. -/
def Passes (pat l : List Char) : Prop := ∀ s t, s <:+ l → s ≠ [] → ¬ pat <+: s ++ t

theorem replaceAll_passes (h : Passes pat l) :
    replaceAll pat val (l ++ t) = l ++ replaceAll pat val t := by
  induction l with
  | nil => rfl
  | cons c l ih =>
      have hno : ¬ pat.isPrefixOf (c :: (l ++ t)) = true := fun hp =>
        h (c :: l) t List.suffix_rfl (List.cons_ne_nil c l) (List.isPrefixOf_iff_prefix.mp hp)
      have htail : Passes pat l := fun s t hs hne =>
        h s t (hs.trans (List.suffix_cons c l)) hne
      calc replaceAll pat val (c :: l ++ t) = c :: replaceAll pat val (l ++ t) := if_neg hno
        _ = c :: l ++ replaceAll pat val t := by rw [ih htail, List.cons_append]

section Holes

def isKeyChar (c : Char) : Bool := c.isAlphanum || c = '_'

/-- The text behind an opening brace that is the beginning of a hole, or may become one. -/
def opensHole : List Char → Bool
  | [] => true
  | c :: t => c = '}' || (isKeyChar c && opensHole t)

/-- No hole begins in the text, whatever follows it. -/
def inert : List Char → Bool
  | [] => true
  | c :: t => !(c = '{' && opensHole t) && inert t

def holeText (key : List Char) : List Char := '{' :: (key ++ ['}'])

theorem holeText_ne_nil (key : List Char) : holeText key ≠ [] := List.cons_ne_nil _ _

theorem inert_of_suffix {s : List Char} (hs : s <:+ l) (h : inert l = true) : inert s = true := by
  induction l with
  | nil => rw [List.suffix_nil.mp hs]; rfl
  | cons c l ih =>
      rcases List.suffix_cons_iff.mp hs with rfl | hs
      · exact h
      · exact ih hs (Bool.and_eq_true_iff.mp h).2

/-- A hole that lies across the end of a text opens in it. -/
theorem opensHole_of_prefix {key : List Char} (hkey : key.all isKeyChar = true)
    (h : key ++ ['}'] <+: l ++ t) : opensHole l = true := by
  induction l generalizing key with
  | nil => rfl
  | cons c l ih =>
      cases key with
      | nil =>
          obtain rfl : '}' = c := (List.cons_prefix_cons.mp h).1
          rfl
      | cons k key =>
          obtain ⟨hk, hkey⟩ := Bool.and_eq_true_iff.mp hkey
          obtain ⟨rfl, hrest⟩ := List.cons_prefix_cons.mp h
          rw [opensHole, hk, ih hkey hrest, Bool.and_self, Bool.or_true]

theorem passes_of_inert {key : List Char} (hkey : key.all isKeyChar = true)
    (h : inert l = true) : Passes (holeText key) l := by
  intro s t hs hne hpre
  obtain ⟨c, s, rfl⟩ := List.exists_cons_of_ne_nil hne
  obtain ⟨hc, hrest⟩ := List.cons_prefix_cons.mp hpre
  have hopen := opensHole_of_prefix hkey hrest
  have hin := inert_of_suffix hs h
  rw [inert, ← hc, hopen] at hin
  exact Bool.false_ne_true hin

/-- Two names of holes are not the beginning of one another. -/
theorem key_eq_of_starts {k k' : List Char} (hk : k.all isKeyChar = true)
    (hk' : k'.all isKeyChar = true) (h : k ++ ['}'] <+: k' ++ '}' :: t) : k = k' := by
  have hbrace : isKeyChar '}' = false := by decide
  induction k generalizing k' with
  | nil =>
      cases k' with
      | nil => rfl
      | cons c k' =>
          obtain rfl : '}' = c := (List.cons_prefix_cons.mp h).1
          rw [List.all_cons, hbrace] at hk'
          cases hk'
  | cons c k ih =>
      obtain ⟨hc, hk⟩ := Bool.and_eq_true_iff.mp hk
      cases k' with
      | nil =>
          obtain rfl : c = '}' := (List.cons_prefix_cons.mp h).1
          rw [hbrace] at hc
          cases hc
      | cons d k' =>
          obtain ⟨rfl, hrest⟩ := List.cons_prefix_cons.mp h
          rw [ih hk (Bool.and_eq_true_iff.mp hk').2 hrest]

theorem passes_hole {k k' : List Char} (hk : k.all isKeyChar = true)
    (hk' : k'.all isKeyChar = true) (hne : k ≠ k') : Passes (holeText k) (holeText k') := by
  have hbrace : isKeyChar '{' = false := by decide
  intro s t hs hnil hpre
  obtain ⟨c, s, rfl⟩ := List.exists_cons_of_ne_nil hnil
  obtain ⟨hc, hrest⟩ := List.cons_prefix_cons.mp hpre
  rcases List.suffix_cons_iff.mp hs with hs | hs
  · obtain ⟨_, rfl⟩ := List.cons.inj hs
    rw [List.append_eq, List.append_assoc, List.singleton_append] at hrest
    exact hne (key_eq_of_starts hk hk' hrest)
  · have hmem : '{' ∈ k' ++ ['}'] := hs.subset (hc ▸ List.mem_cons_self)
    rcases List.mem_append.mp hmem with hmem | hmem
    · rw [List.all_eq_true.mp hk' _ hmem] at hbrace
      cases hbrace
    · exact absurd (List.mem_singleton.mp hmem) (by decide)

end Holes

section Templates

/-- A piece of a template: a text, or a hole under its name. -/
inductive Piece
  | text (l : List Char)
  | hole (key : List Char)

/-- No hole begins in a text of the template, and every name is one. -/
def Piece.sound : Piece → Bool
  | .text l => inert l
  | .hole key => key.all isKeyChar

variable (env : List Char → Option (List Char))

def Piece.render : Piece → List Char
  | .text l => l
  | .hole key => (env key).getD (holeText key)

/-- The template with the holes filled that have a value. -/
def render (pieces : List Piece) : List Char := pieces.flatMap (Piece.render env)

variable {env} {pieces : List Piece} {key : List Char}

/-- One replacement fills one hole wherever it stands, when the values so far open no hole. -/
theorem replaceAll_render (hkey : key.all isKeyChar = true) (hfree : env key = none)
    (henv : ∀ k v, env k = some v → inert v = true) (hp : ∀ p ∈ pieces, p.sound = true) :
    replaceAll (holeText key) val (render env pieces) =
      render (fun k => if k = key then some val else env k) pieces := by
  induction pieces with
  | nil => rfl
  | cons p pieces ih =>
      have ih := ih fun q hq => hp q (List.mem_cons_of_mem p hq)
      have hsound := hp p List.mem_cons_self
      rw [render, render, List.flatMap_cons, List.flatMap_cons, ← render, ← render, ← ih]
      cases p with
      | text l => exact replaceAll_passes (passes_of_inert hkey hsound)
      | hole k =>
          by_cases hk : k = key
          · rw [Piece.render, Piece.render, if_pos hk, hk, hfree, Option.getD_none,
              Option.getD_some]
            exact replaceAll_here (holeText_ne_nil key)
          · rw [Piece.render, Piece.render, if_neg hk]
            cases hv : env k with
            | none => exact replaceAll_passes (passes_hole hkey hsound (Ne.symm hk))
            | some v => exact replaceAll_passes (passes_of_inert hkey (henv k v hv))

def valuesOf (vars : List (List Char × List Char)) (k : List Char) : Option (List Char) :=
  vars.lookup k

def replaceEach (vars : List (List Char × List Char)) (t : List Char) : List Char :=
  vars.foldl (fun t kv => replaceAll (holeText kv.1) kv.2 t) t

theorem valuesOf_append_singleton {vars : List (List Char × List Char)}
    (hfree : key ∉ vars.map Prod.fst) :
    valuesOf (vars ++ [(key, val)]) = fun k => if k = key then some val else valuesOf vars k := by
  funext k
  induction vars with
  | nil =>
      by_cases hk : k = key
      · simp [valuesOf, hk]
      · have hbeq : (k == key) = false := beq_eq_false_iff_ne.mpr hk
        simp [valuesOf, hk, List.lookup_cons, hbeq]
  | cons kv vars ih =>
      simp only [List.map_cons, List.mem_cons, not_or] at hfree
      have ih := ih hfree.2
      by_cases hk : k = kv.1
      · have hne : k ≠ key := fun h => hfree.1 (h ▸ hk)
        rw [if_neg hne]
        obtain ⟨name, val'⟩ := kv
        simp [valuesOf, hk]
      · have hbeq : (k == kv.1) = false := beq_eq_false_iff_ne.mpr hk
        obtain ⟨name, val'⟩ := kv
        simpa [valuesOf, List.lookup_cons, hbeq] using ih

/-- Replacing the variables one after the other fills the holes at once, when no value but the
last opens a hole. -/
theorem replaceEach_eq_render {vars : List (List Char × List Char)}
    (hp : ∀ p ∈ pieces, p.sound = true) (hkeys : (vars.map Prod.fst).Nodup)
    (hnames : ∀ kv ∈ vars, kv.1.all isKeyChar = true)
    (hvals : ∀ kv ∈ vars.dropLast, inert kv.2 = true) :
    replaceEach vars (render (fun _ => none) pieces) = render (valuesOf vars) pieces := by
  suffices hmain : ∀ later done : List (List Char × List Char), vars = done ++ later →
      replaceEach later (render (valuesOf done) pieces) = render (valuesOf vars) pieces from
    hmain vars [] rfl
  intro later
  induction later with
  | nil => intro done hsplit; rw [hsplit, List.append_nil]; rfl
  | cons kv later ih =>
      intro done hsplit
      have hfree : kv.1 ∉ done.map Prod.fst := by
        rw [hsplit, List.map_append, List.map_cons] at hkeys
        exact fun hmem => (List.nodup_append.mp hkeys).2.2 _ hmem _ List.mem_cons_self rfl
      have hnone : valuesOf done kv.1 = none :=
        List.lookup_eq_none_iff.mpr fun p hpd => by
          simpa using fun h : kv.1 = p.1 => hfree (h ▸ List.mem_map_of_mem hpd)
      have hinert : ∀ k v, valuesOf done k = some v → inert v = true := by
        intro k v hv
        refine hvals (k, v) ?_
        obtain ⟨before, after, hdone, _⟩ := List.lookup_eq_some_iff.mp hv
        rw [hsplit, List.dropLast_append_of_ne_nil (List.cons_ne_nil kv later), hdone]
        exact List.mem_append_left _ (List.mem_append_right before List.mem_cons_self)
      have hkey := hnames kv (hsplit ▸ List.mem_append_right done List.mem_cons_self)
      rw [replaceEach, List.foldl_cons, ← replaceEach,
        replaceAll_render hkey hnone hinert hp, ← valuesOf_append_singleton hfree]
      exact ih (done ++ [kv]) (by rw [hsplit, List.append_assoc, List.singleton_append])

end Templates

end RfpPlatform.TextTemplate
