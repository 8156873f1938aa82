import Mathlib.Data.Bool.AllAny
import RfpPlatform.Blanks
import RfpPlatform.CriteriaMerge

namespace RfpPlatform.NameTexts

open Blanks CriteriaMerge PyText WordRuns

section Steps

/-- A text without what the key does not keep. -/
def keyChars (cs : List Char) : List Char := cs.map (fun c => if isKeyChar c then c else ' ')

/-- The runs of letters and digits that make the key of a text. -/
def tokens (cs : List Char) : List (List Char) := runs isSpace (keyChars cs)

/-- The name before its noise suffixes are removed. -/
def core (cs : List Char) : List Char :=
  let cs := stripChars (cs.flatMap lowered)
  let cs := stripChars (removeParens false cs)
  let cs := cs.flatMap (fun c => if c = '&' then "and".toList else [c])
  stripChars (removeThresholds 0 cs)

def removeSuffixes (cs : List Char) : List Char := noiseSuffixes.foldl removeSuffix cs

variable {cs ds blank : List Char} {c : Char} {s t : String}

theorem normalizeName_eq (s : String) :
    normalizeName s = String.ofList ([' '].intercalate (tokens (removeSuffixes (core s.toList)))) := by
  rw [tokens, ← stripChars_squeeze]
  rfl

theorem isRun_of_mem_tokens {w : List Char} (h : w ∈ tokens cs) : IsRun isSpace w := isRun_of_mem h

theorem normalizeName_eq_iff :
    normalizeName s = normalizeName t ↔
      tokens (removeSuffixes (core s.toList)) = tokens (removeSuffixes (core t.toList)) := by
  rw [normalizeName_eq, normalizeName_eq]
  constructor
  · intro h
    exact intercalate_injective (show isSpace ' ' = true by decide)
      (fun w hw => isRun_of_mem_tokens hw) (fun w hw => isRun_of_mem_tokens hw)
      (String.ofList_injective h)
  · intro h
    rw [h]

theorem normalizeName_eq_empty : normalizeName s = "" ↔ tokens (removeSuffixes (core s.toList)) = [] := by
  rw [normalizeName_eq]
  constructor
  · intro h
    have hruns : ∀ w ∈ tokens (removeSuffixes (core s.toList)), IsRun isSpace w :=
      fun w hw => isRun_of_mem_tokens hw
    by_contra hne
    exact (trimmed_intercalate hruns).2 hne (String.ofList_injective h)
  · intro h
    rw [h]
    rfl

theorem keyChars_append (cs ds : List Char) : keyChars (cs ++ ds) = keyChars cs ++ keyChars ds :=
  List.map_append

theorem isKeyChar_of_isSpace (h : isSpace c = true) : isKeyChar c = true := by
  rw [isKeyChar, h, Bool.or_true]

theorem keyChars_of_forall (h : ∀ c ∈ cs, isKeyChar c = true) : keyChars cs = cs := by
  have hid : ∀ c ∈ cs, (if isKeyChar c then c else ' ') = id c := fun c hc => if_pos (h c hc)
  rw [keyChars, List.map_congr_left hid, List.map_id]

theorem blank_keyChars (h : Blank blank) : Blank (keyChars blank) := by
  rw [keyChars_of_forall fun c hc => isKeyChar_of_isSpace (h c hc)]
  exact h

theorem tokens_append_blank (h : Blank blank) (cs : List Char) :
    tokens (cs ++ blank) = tokens cs := by
  rw [tokens, keyChars_append, runs_append_blank (blank_keyChars h), tokens]

end Steps

section Suffixes

def letters : List Char := "abcdefghijklmnopqrstuvwxyz".toList

/-- A noise suffix is a space and a word. -/
structure Noise (suffix : String) (word : List Char) : Prop where
  toList : suffix.toList = ' ' :: word
  ne_nil : word ≠ []
  letters : ∀ c ∈ word, c ∈ letters

theorem noise_of_mem {suffix : String} (h : suffix ∈ noiseSuffixes) : ∃ word, Noise suffix word := by
  have hall : ∀ suffix ∈ noiseSuffixes, suffix.toList = ' ' :: suffix.toList.tail ∧
      suffix.toList.tail ≠ [] ∧ suffix.toList.tail.all (· ∈ letters) = true := by decide
  obtain ⟨hlist, hne, hletters⟩ := hall suffix h
  exact ⟨_, hlist, hne, List.all_iff_forall_prop.mp hletters⟩

theorem exists_ascii {c : Char} (h : c.toNat < 128) : ∃ n < 128, Char.ofNat n = c :=
  ⟨c.toNat, h, Char.ofNat_toNat c⟩

theorem noiseSuffixes_nodup : noiseSuffixes.Nodup := by decide

theorem not_isSpace_of_letter : ∀ c ∈ letters, isSpace c = false :=
  List.all_iff_forall_prop.mp (by decide)

theorem isKeyChar_of_letter : ∀ c ∈ letters, isKeyChar c = true :=
  List.all_iff_forall_prop.mp (by decide)

/-- The signs that the steps before the suffixes look for. -/
def signs : List Char := ['(', ')', '&', '>', '=', '£', '€', '$']

def spaceCodes : List Nat :=
  List.range' 9 5 ++ List.range' 28 5 ++ [0x85, 0xa0, 0x1680] ++ List.range' 0x2000 11 ++
    [0x2028, 0x2029, 0x202f, 0x205f, 0x3000]

theorem toNat_mem_spaceCodes {c : Char} (h : isSpace c = true) : c.toNat ∈ spaceCodes := by
  simp only [isSpace, Bool.or_eq_true, Bool.and_eq_true, decide_eq_true_eq] at h
  simp only [spaceCodes, List.mem_append, List.mem_range'_1, List.mem_cons, List.not_mem_nil]
  omega

theorem not_isDecimal_of_isSpace {c : Char} (h : isSpace c = true) : isDecimal c = false := by
  have hall : ∀ n ∈ spaceCodes, zeros.any (fun z => z ≤ n && n < z + 10) = false := by decide
  exact hall _ (toNat_mem_spaceCodes h)

/-- A text of blanks and small letters, as it stands behind a name. -/
def Plain (cs : List Char) : Prop := ∀ c ∈ cs, isSpace c = true ∨ c ∈ letters

theorem Plain.append {cs ds : List Char} (h : Plain cs) (h' : Plain ds) : Plain (cs ++ ds) :=
  List.forall_mem_append.mpr ⟨h, h'⟩

theorem Plain.sublist {cs ds : List Char} (h : Plain cs) (hsub : ds.Sublist cs) : Plain ds :=
  fun c hc => h c (hsub.subset hc)

theorem plain_of_blank {cs : List Char} (h : Blank cs) : Plain cs := fun c hc => .inl (h c hc)

theorem plain_suffix {suffix : String} (h : suffix ∈ noiseSuffixes) : Plain suffix.toList := by
  obtain ⟨word, hword⟩ := noise_of_mem h
  rw [hword.toList]
  exact List.forall_mem_cons.mpr ⟨.inl (by decide), fun c hc => .inr (hword.letters c hc)⟩

theorem Plain.not_mem_sign {cs : List Char} (h : Plain cs) : ∀ c ∈ signs, c ∉ cs := by
  have hspaces : ∀ c ∈ signs, isSpace c = false := List.all_iff_forall_prop.mp (by decide)
  have hletters : ∀ c ∈ signs, c ∉ letters := List.all_iff_forall_prop.mp (by decide)
  intro c hc hmem
  rcases h c hmem with hspace | hletter
  · rw [hspaces c hc] at hspace
    cases hspace
  · exact hletters c hc hletter

theorem Plain.not_isDecimal {cs : List Char} (h : Plain cs) : ∀ c ∈ cs, isDecimal c = false := by
  have hletters : ∀ c ∈ letters, isDecimal c = false := List.all_iff_forall_prop.mp (by decide)
  intro c hc
  rcases h c hc with hspace | hletter
  · exact not_isDecimal_of_isSpace hspace
  · exact hletters c hletter

end Suffixes

section Appending

variable {cs ds zs : List Char} {n : Nat}

/-- A text of blanks and small letters that begins with a blank and ends with a letter. -/
structure Tail (zs : List Char) : Prop where
  plain : Plain zs
  head : ∀ c ∈ zs.head?, isSpace c = true
  last : ∃ c ∈ zs.getLast?, isSpace c = false

theorem Tail.blank_append {blank : List Char} (h : Tail zs) (hblank : Blank blank) :
    Tail (blank ++ zs) where
  plain := (plain_of_blank hblank).append h.plain
  head c hc := by
    cases blank with
    | nil => exact h.head c hc
    | cons d blank => exact Option.some.inj hc ▸ hblank d List.mem_cons_self
  last := by
    obtain ⟨c, hc, hspace⟩ := h.last
    have hne : zs ≠ [] := by
      rintro rfl
      cases hc
    exact ⟨c, by rwa [List.getLast?_append_of_ne_nil _ hne], hspace⟩

theorem Tail.ne_nil (h : Tail zs) : zs ≠ [] := by
  rintro rfl
  obtain ⟨c, hc, _⟩ := h.last
  cases hc

theorem Tail.append {zs' : List Char} (h : Tail zs) (h' : Tail zs') : Tail (zs ++ zs') where
  plain := h.plain.append h'.plain
  head c hc := by
    rw [List.head?_append_of_ne_nil _ h.ne_nil] at hc
    exact h.head c hc
  last := by
    rw [List.getLast?_append_of_ne_nil _ h'.ne_nil]
    exact h'.last

/-- Stripping leaves a tail where it is, behind a text that is not blank. -/
theorem stripChars_append_tail (h : Tail zs) (hcs : stripChars cs ≠ []) :
    ∃ blank, Blank blank ∧ stripChars (cs ++ zs) = stripChars cs ++ (blank ++ zs) := by
  obtain ⟨blank, blank', hblank, hblank', hsplit, htrimmed⟩ := exists_around cs
  have hjoined : Trimmed (stripChars cs ++ (blank' ++ zs)) := by
    refine ⟨fun c hc => ?_, fun c hc => ?_⟩
    · rw [List.head?_append_of_ne_nil _ hcs] at hc
      exact htrimmed.head c hc
    · obtain ⟨d, hd, hspace⟩ := h.last
      rw [← List.append_assoc, List.getLast?_append_of_ne_nil _ h.ne_nil] at hc
      exact Option.some.inj (hd.symm.trans hc) ▸ hspace
  refine ⟨blank', hblank', ?_⟩
  have hstrip := stripChars_around hjoined hblank blank_nil
  rw [List.append_nil] at hstrip
  conv_lhs => rw [hsplit]
  rw [List.append_assoc, List.append_assoc, hstrip]

theorem removeParens_of_not_mem (h : '(' ∉ cs) : removeParens false cs = cs := by
  induction cs with
  | nil => rfl
  | cons c cs ih =>
      obtain ⟨hc, hcs⟩ := not_or.mp (fun hmem => h (List.mem_cons.mpr hmem))
      rw [removeParens, if_neg fun hopen => hc hopen.1.symm, ih hcs]

theorem removeParens_append {inside : Bool} (hopen : '(' ∉ zs) (hclose : ')' ∉ zs)
    (hinside : inside = true → ')' ∈ cs) :
    removeParens inside (cs ++ zs) = removeParens inside cs ++ zs := by
  induction cs generalizing inside with
  | nil =>
      cases inside with
      | true => exact absurd (hinside rfl) List.not_mem_nil
      | false => exact removeParens_of_not_mem hopen
  | cons c cs ih =>
      cases inside with
      | true =>
          rw [List.cons_append, removeParens, removeParens]
          refine ih fun hc => ?_
          rcases List.mem_cons.mp (hinside rfl) with hhead | htail
          · exact absurd hhead.symm (of_decide_eq_true hc)
          · exact htail
      | false =>
          have hmem : ')' ∈ cs ++ zs ↔ ')' ∈ cs := by
            rw [List.mem_append, or_iff_left hclose]
          rw [List.cons_append, removeParens, removeParens]
          by_cases hstart : c = '(' ∧ ')' ∈ cs
          · rw [if_pos hstart, if_pos ⟨hstart.1, hmem.mpr hstart.2⟩]
            exact ih fun _ => hstart.2
          · rw [if_neg hstart, if_neg fun h => hstart ⟨h.1, hmem.mp h.2⟩, ih fun h => by cases h]
            rfl

theorem dropOne_sublist (p : Char → Bool) : (dropOne cs p).Sublist cs := by
  cases cs with
  | nil => exact List.Sublist.refl []
  | cons c cs =>
      rw [dropOne]
      split
      · exact List.sublist_cons_self c cs
      · exact List.Sublist.refl _

theorem dropOne_append {p : Char → Bool} (hcs : cs ≠ []) :
    dropOne (cs ++ zs) p = dropOne cs p ++ zs := by
  cases cs with
  | nil => exact absurd rfl hcs
  | cons c cs =>
      rw [List.cons_append, dropOne, dropOne]
      split <;> rfl

/-- What a step of a match leaves of a text with a tail: what it leaves of the text, with the tail,
or a part of the tail. -/
def Leaves (zs us vs : List Char) : Prop :=
  (us = vs ++ zs ∧ vs ≠ []) ∨ (Plain us ∧ vs = [])

theorem leaves_of_sublist (hzs : Plain zs) {us vs : List Char} (h : us = vs ++ zs) :
    Leaves zs us vs := by
  by_cases hvs : vs = []
  · exact .inr ⟨by rwa [h, hvs, List.nil_append], hvs⟩
  · exact .inl ⟨h, hvs⟩

theorem Leaves.dropOne (hzs : Plain zs) {us vs : List Char} (h : Leaves zs us vs)
    (p : Char → Bool) : Leaves zs (dropOne us p) (dropOne vs p) := by
  rcases h with ⟨rfl, hvs⟩ | ⟨hus, rfl⟩
  · exact leaves_of_sublist hzs (dropOne_append hvs)
  · exact .inr ⟨hus.sublist (dropOne_sublist p), rfl⟩

theorem Leaves.dropWhile (hzs : Plain zs) {us vs : List Char} (h : Leaves zs us vs) :
    Leaves zs (us.dropWhile isSpace) (vs.dropWhile isSpace) := by
  rcases h with ⟨rfl, hvs⟩ | ⟨hus, rfl⟩
  · rw [List.dropWhile_append]
    split
    · rename_i hempty
      rw [List.isEmpty_iff] at hempty
      exact .inr ⟨hzs.sublist (List.dropWhile_sublist _), hempty⟩
    · exact leaves_of_sublist hzs rfl
  · exact .inr ⟨hus.sublist (List.dropWhile_sublist _), rfl⟩

/-- What a match looks for behind its sign. -/
def amountOf (rest : List Char) : List Char :=
  (dropOne ((dropOne rest (· = '=')).dropWhile isSpace) (· ∈ ['£', '€', '$'])).dropWhile isSpace

def behind (amount : List Char) : List Char :=
  dropOne (amount.dropWhile isDecimal) (· ∈ ['m', 'k'])

theorem thresholdLength_eq (rest : List Char) : thresholdLength ('>' :: rest) =
    if (amountOf rest).takeWhile isDecimal = [] then none
    else some (('>' :: rest).length - (behind (amountOf rest)).length) := rfl

theorem thresholdLength_of_ne {c : Char} (h : c ≠ '>') : thresholdLength (c :: cs) = none := by
  rw [thresholdLength]
  exact fun rest heq => h (List.cons.inj heq).1

theorem leaves_amountOf (hzs : Plain zs) (cs : List Char) :
    Leaves zs (amountOf (cs ++ zs)) (amountOf cs) :=
  ((((leaves_of_sublist hzs rfl).dropOne hzs _).dropWhile hzs).dropOne hzs _).dropWhile hzs

theorem takeWhile_isDecimal_of_head (h : ∀ c ∈ zs.head?, isDecimal c = false) :
    zs.takeWhile isDecimal = [] ∧ zs.dropWhile isDecimal = zs := by
  cases zs with
  | nil => exact ⟨rfl, rfl⟩
  | cons c zs =>
      have hc : ¬ isDecimal c = true := Bool.eq_false_iff.mp (h c rfl)
      exact ⟨List.takeWhile_cons_of_neg hc, List.dropWhile_cons_of_neg hc⟩

theorem Tail.head_not (h : Tail zs) {p : Char → Bool}
    (hp : ∀ c, isSpace c = true → p c = false) : ∀ c ∈ zs.head?, p c = false :=
  fun c hc => hp c (h.head c hc)

theorem behind_append (h : Tail zs) (cs : List Char) : behind (cs ++ zs) = behind cs ++ zs := by
  have hhead := h.head_not (p := isDecimal) fun c hc => not_isDecimal_of_isSpace hc
  have hdrop : (cs ++ zs).dropWhile isDecimal = cs.dropWhile isDecimal ++ zs := by
    rw [List.dropWhile_append]
    split
    · rename_i hempty
      rw [List.isEmpty_iff] at hempty
      rw [hempty, (takeWhile_isDecimal_of_head hhead).2, List.nil_append]
    · rfl
  rw [behind, behind, hdrop]
  by_cases hempty : cs.dropWhile isDecimal = []
  · rw [hempty, List.nil_append]
    obtain ⟨c, zs, rfl⟩ := List.exists_cons_of_ne_nil h.ne_nil
    have hunit : ∀ c ∈ ['m', 'k'], isSpace c = false := List.all_iff_forall_prop.mp (by decide)
    have hc : ¬ (c ∈ ['m', 'k']) := by
      intro hc
      have hspace := h.head c rfl
      rw [hunit c hc] at hspace
      cases hspace
    exact if_neg (by rwa [decide_eq_true_eq])
  · exact dropOne_append hempty

theorem takeWhile_append_tail (h : Tail zs) (cs : List Char) :
    (cs ++ zs).takeWhile isDecimal = [] ↔ cs.takeWhile isDecimal = [] := by
  have hhead := h.head_not (p := isDecimal) fun c hc => not_isDecimal_of_isSpace hc
  cases cs with
  | nil => exact iff_of_true (takeWhile_isDecimal_of_head hhead).1 rfl
  | cons c cs =>
      rw [List.cons_append, List.takeWhile_cons, List.takeWhile_cons]
      split
      · exact iff_of_false (List.cons_ne_nil _ _) (List.cons_ne_nil _ _)
      · exact Iff.rfl

/-- A tail neither makes a match nor makes one longer. -/
theorem thresholdLength_append (h : Tail zs) (c : Char) (cs : List Char) :
    thresholdLength (c :: (cs ++ zs)) = thresholdLength (c :: cs) := by
  by_cases hc : c = '>'
  · subst hc
    rw [thresholdLength_eq, thresholdLength_eq]
    rcases leaves_amountOf h.plain cs with ⟨hamount, _⟩ | ⟨hplain, hempty⟩
    · rw [hamount]
      by_cases hnone : (amountOf cs).takeWhile isDecimal = []
      · rw [if_pos hnone, if_pos ((takeWhile_append_tail h _).mpr hnone)]
      · rw [if_neg hnone, if_neg fun hnil => hnone ((takeWhile_append_tail h _).mp hnil),
          behind_append h, ← List.cons_append, List.length_append, List.length_append,
          Nat.add_sub_add_right]
    · rw [hempty, if_pos (List.takeWhile_nil), if_pos]
      refine (takeWhile_isDecimal_of_head fun c hc => ?_).1
      exact hplain.not_isDecimal c (List.mem_of_head? hc)
  · rw [thresholdLength_of_ne hc, thresholdLength_of_ne hc]

theorem removeThresholds_of_not_mem (h : '>' ∉ cs) : removeThresholds 0 cs = cs := by
  induction cs with
  | nil => rfl
  | cons c cs ih =>
      obtain ⟨hc, hcs⟩ := not_or.mp (fun hmem => h (List.mem_cons.mpr hmem))
      rw [removeThresholds, thresholdLength_of_ne (Ne.symm hc), ih hcs]

theorem thresholdLength_le {c : Char} (h : thresholdLength (c :: cs) = some n) :
    n - 1 ≤ cs.length := by
  by_cases hc : c = '>'
  · subst hc
    rw [thresholdLength_eq] at h
    split at h
    · cases h
    · obtain rfl := Option.some.inj h
      rw [List.length_cons]
      omega
  · rw [thresholdLength_of_ne hc] at h
    cases h

theorem removeThresholds_append (h : Tail zs) (hn : n ≤ cs.length) :
    removeThresholds n (cs ++ zs) = removeThresholds n cs ++ zs := by
  induction cs generalizing n with
  | nil =>
      obtain rfl := Nat.le_zero.mp hn
      exact removeThresholds_of_not_mem (h.plain.not_mem_sign _ (by decide))
  | cons c cs ih =>
      cases n with
      | succ n => exact ih (Nat.le_of_succ_le_succ hn)
      | zero =>
          rw [List.cons_append, removeThresholds, removeThresholds, thresholdLength_append h]
          split
          · rename_i n hlength
            exact ih (thresholdLength_le hlength)
          · rw [ih (Nat.zero_le _)]
            rfl

end Appending

end RfpPlatform.NameTexts
