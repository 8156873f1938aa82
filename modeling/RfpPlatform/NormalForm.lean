import RfpPlatform.ListParts
import RfpPlatform.NameTexts

namespace RfpPlatform.NormalForm

open Blanks CriteriaMerge ListParts NameTexts PyText WordRuns

section Trails

/-- A text with suffixes behind it, which are given from the last one to the first. -/
inductive Trails (base : List Char) : List String → List Char → Prop
  | nil (h : Trimmed base) : Trails base [] base
  | cons {suffixes : List String} {cs blank : List Char} {suffix : String}
      (h : Trails base suffixes cs) (hcs : cs ≠ []) (hblank : Blank blank)
      (hsuffix : suffix ∈ noiseSuffixes) :
      Trails base (suffix :: suffixes) (cs ++ blank ++ suffix.toList)

variable {base cs ds blank : List Char} {suffixes later : List String} {suffix other : String}

theorem trimmed_append_suffix (h : Trimmed cs) (hcs : cs ≠ []) (blank : List Char)
    (hsuffix : suffix ∈ noiseSuffixes) : Trimmed (cs ++ blank ++ suffix.toList) := by
  obtain ⟨word, hword⟩ := noise_of_mem hsuffix
  have hrun : IsRun isSpace word :=
    ⟨hword.ne_nil, fun c hc => not_isSpace_of_letter c (hword.letters c hc)⟩
  have hjoin := h.join hcs (trimmed_of_isRun hrun) hword.ne_nil (blank ++ [' '])
  rw [hword.toList]
  rwa [← List.append_assoc, List.append_assoc _ [' '], List.singleton_append] at hjoin

theorem Trails.trimmed (h : Trails base suffixes cs) : Trimmed cs := by
  induction h with
  | nil hbase => exact hbase
  | cons h hcs hblank hsuffix ih => exact trimmed_append_suffix ih hcs _ hsuffix

theorem Trails.trimmed_base (h : Trails base suffixes cs) : Trimmed base := by
  induction h with
  | nil hbase => exact hbase
  | cons h hcs hblank hsuffix ih => exact ih

theorem Trails.eq_base (h : Trails base [] cs) : cs = base := by
  cases h
  rfl

theorem Trails.trans (h : Trails base suffixes cs) (h' : Trails cs later ds) :
    Trails base (later ++ suffixes) ds := by
  induction h' with
  | nil hcs => exact h
  | cons h' hcs hblank hsuffix ih => exact .cons ih hcs hblank hsuffix

theorem eq_of_toList_suffix : ∀ suffix ∈ noiseSuffixes, ∀ other ∈ noiseSuffixes,
    other.toList <:+ suffix.toList → other = suffix := by
  decide

/-- No noise suffix is the end of another. -/
theorem eq_of_endsWith (hsuffix : suffix ∈ noiseSuffixes) (hother : other ∈ noiseSuffixes)
    (h : suffix.toList <:+ cs) (h' : other.toList <:+ cs) : other = suffix := by
  rcases List.suffix_or_suffix_of_suffix h' h with hle | hle
  · exact eq_of_toList_suffix suffix hsuffix other hother hle
  · exact (eq_of_toList_suffix other hother suffix hsuffix hle).symm

theorem removeSuffix_append (h : Trimmed cs) (hblank : Blank blank) (suffix : String) :
    removeSuffix (cs ++ blank ++ suffix.toList) suffix = cs := by
  have hends : endsWith (cs ++ blank ++ suffix.toList) suffix.toList = true :=
    decide_eq_true (List.suffix_append _ _)
  have hstrip := stripChars_around h blank_nil hblank
  rw [List.nil_append] at hstrip
  rw [removeSuffix, if_pos hends, List.length_append, String.length_toList, Nat.add_sub_cancel,
    List.take_left', hstrip]
  rfl

theorem removeSuffix_of_not (h : ¬ suffix.toList <:+ cs) : removeSuffix cs suffix = cs := by
  have hends : ¬ endsWith cs suffix.toList = true := fun hends => h (of_decide_eq_true hends)
  rw [removeSuffix, if_neg hends]

theorem foldl_removeSuffix_of_not {l : List String} (h : ∀ suffix ∈ l, ¬ suffix.toList <:+ cs) :
    l.foldl removeSuffix cs = cs := by
  induction l with
  | nil => rfl
  | cons suffix l ih =>
      obtain ⟨hsuffix, hl⟩ := List.forall_mem_cons.mp h
      rw [List.foldl_cons, removeSuffix_of_not hsuffix, ih hl]

/-- A text that ends with a noise suffix has it behind what the step leaves. -/
theorem exists_trails (h : Trimmed cs) (hsuffix : suffix ∈ noiseSuffixes)
    (hends : suffix.toList <:+ cs) : ∃ base, Trails base [suffix] cs ∧ base ≠ [] := by
  obtain ⟨before, rfl⟩ := hends
  obtain ⟨start, blank, hstart, hblank, hsplit, htrimmed⟩ := exists_around before
  obtain ⟨word, hword⟩ := noise_of_mem hsuffix
  have hsolid : ∀ c ∈ (before ++ suffix.toList).head?, isSpace c = false := h.head
  have hbefore : before ≠ [] := by
    rintro rfl
    rw [hword.toList] at hsolid
    exact absurd (hsolid ' ' rfl) (by decide)
  have hempty : start = [] := by
    cases start with
    | nil => rfl
    | cons c start =>
        have hc : isSpace c = false := hsolid c (by rw [hsplit]; rfl)
        rw [hstart c List.mem_cons_self] at hc
        cases hc
  have hne : stripChars before ≠ [] := by
    intro hnil
    rw [hnil, hempty, List.nil_append, List.nil_append] at hsplit
    obtain ⟨c, rest, rfl⟩ := List.exists_cons_of_ne_nil hbefore
    have hc : isSpace c = false := hsolid c rfl
    rw [hblank c (hsplit ▸ List.mem_cons_self)] at hc
    cases hc
  refine ⟨stripChars before, ?_, hne⟩
  have htrails := Trails.cons (.nil htrimmed) hne hblank hsuffix
  rw [hempty, List.nil_append] at hsplit
  rwa [← hsplit] at htrails

theorem Trails.suffix_of_cons (h : Trails base (suffix :: suffixes) cs) :
    suffix ∈ noiseSuffixes ∧ suffix.toList <:+ cs ∧
      ∃ ds, Trails base suffixes ds ∧ removeSuffix cs suffix = ds := by
  cases h with
  | cons h hcs hblank hsuffix =>
      exact ⟨hsuffix, List.suffix_append _ _, _, h, removeSuffix_append h.trimmed hblank _⟩

end Trails

section Counting

variable {base cs blank : List Char} {suffixes : List String} {suffix : String}

theorem tokens_append_suffix (hblank : Blank blank) (hsuffix : suffix ∈ noiseSuffixes) :
    tokens (cs ++ blank ++ suffix.toList) = tokens cs ++ [suffix.toList.tail] := by
  obtain ⟨word, hword⟩ := noise_of_mem hsuffix
  have hrun : IsRun isSpace word :=
    ⟨hword.ne_nil, fun c hc => not_isSpace_of_letter c (hword.letters c hc)⟩
  have hkey : keyChars (' ' :: word) = ' ' :: word := by
    refine keyChars_of_forall (List.forall_mem_cons.mpr ⟨by decide, fun c hc => ?_⟩)
    exact isKeyChar_of_letter c (hword.letters c hc)
  rw [hword.toList, List.tail_cons, tokens, keyChars_append, hkey,
    runs_append_run (show isSpace ' ' = true by decide) hrun, ← tokens, tokens_append_blank hblank]

/-- Each suffix is one run of letters. -/
theorem Trails.tokens_eq (h : Trails base suffixes cs) :
    tokens cs = tokens base ++ (suffixes.map (fun suffix => suffix.toList.tail)).reverse := by
  induction h with
  | nil hbase => rw [List.map_nil, List.reverse_nil, List.append_nil]
  | cons h hcs hblank hsuffix ih =>
      rw [tokens_append_suffix hblank hsuffix, ih, List.map_cons, List.reverse_cons,
        List.append_assoc]

theorem Trails.length_tokens (h : Trails base suffixes cs) :
    (tokens cs).length = (tokens base).length + suffixes.length := by
  rw [h.tokens_eq, List.length_append, List.length_reverse, List.length_map]

end Counting

section Passing

variable {base cs : List Char} {suffixes later l rest : List String} {suffix : String}

/-- A pass over a text with suffixes either meets all of them, and goes on with the text, or leaves
some of them. -/
theorem foldl_removeSuffix (h : Trails base suffixes cs) (hl : ∀ suffix ∈ l, suffix ∈ noiseSuffixes) :
    (∃ rest, remaining suffixes l = some rest ∧
      l.foldl removeSuffix cs = rest.foldl removeSuffix base) ∨
    (remaining suffixes l = none ∧
      ∃ left, left ≠ [] ∧ Trails base left (l.foldl removeSuffix cs)) := by
  induction l generalizing suffixes cs with
  | nil =>
      cases suffixes with
      | nil =>
          cases h
          exact .inl ⟨[], rfl, rfl⟩
      | cons suffix suffixes => exact .inr ⟨rfl, _, List.cons_ne_nil _ _, h⟩
  | cons other l ih =>
      obtain ⟨hother, hl⟩ := List.forall_mem_cons.mp hl
      cases suffixes with
      | nil =>
          cases h
          exact .inl ⟨other :: l, rfl, rfl⟩
      | cons suffix suffixes =>
          obtain ⟨hsuffix, hends, ds, htrails, hremoved⟩ := h.suffix_of_cons
          rw [remaining, List.foldl_cons]
          by_cases heq : other = suffix
          · rw [if_pos heq, heq, hremoved]
            exact ih htrails hl
          · have hnot : ¬ other.toList <:+ cs :=
              fun hends' => heq (eq_of_endsWith hsuffix hother hends hends')
            rw [if_neg heq, removeSuffix_of_not hnot]
            exact ih h hl

/-- A pass removes suffixes in the order in which it looks for them. -/
theorem trails_foldl (h : Trimmed cs) (hl : ∀ suffix ∈ l, suffix ∈ noiseSuffixes) :
    ∃ removed, removed.Sublist l ∧ Trails (l.foldl removeSuffix cs) removed cs := by
  induction l generalizing cs with
  | nil => exact ⟨[], List.Sublist.refl [], .nil h⟩
  | cons suffix l ih =>
      obtain ⟨hsuffix, hl⟩ := List.forall_mem_cons.mp hl
      by_cases hends : suffix.toList <:+ cs
      · obtain ⟨base, htrails, _⟩ := exists_trails h hsuffix hends
        obtain ⟨_, _, ds, hbase, hremoved⟩ := htrails.suffix_of_cons
        cases hbase with
        | nil hbase =>
            obtain ⟨removed, hsub, hleft⟩ := ih hbase hl
            refine ⟨suffix :: removed, hsub.cons_cons suffix, ?_⟩
            rw [List.foldl_cons, hremoved]
            exact hleft.trans htrails
      · obtain ⟨removed, hsub, hleft⟩ := ih h hl
        refine ⟨removed, hsub.cons suffix, ?_⟩
        rwa [List.foldl_cons, removeSuffix_of_not hends]

theorem length_tokens_foldl_le (h : Trimmed cs) (hl : ∀ suffix ∈ l, suffix ∈ noiseSuffixes) :
    (tokens (l.foldl removeSuffix cs)).length ≤ (tokens cs).length := by
  obtain ⟨removed, _, htrails⟩ := trails_foldl h hl
  rw [htrails.length_tokens]
  exact Nat.le_add_right _ _

end Passing

section Appended

variable {base blank cs zs : List Char} {suffixes : List String} {suffix s : String}

theorem tail_of_mem (hsuffix : suffix ∈ noiseSuffixes) : Tail suffix.toList := by
  obtain ⟨word, hword⟩ := noise_of_mem hsuffix
  refine ⟨plain_suffix hsuffix, fun c hc => ?_, ?_⟩
  · rw [hword.toList] at hc
    exact Option.some.inj hc ▸ (by decide)
  · have hlast : suffix.toList.getLast? = some (word.getLast hword.ne_nil) := by
      rw [hword.toList, List.getLast?_cons_of_ne_nil hword.ne_nil,
        List.getLast?_eq_some_getLast hword.ne_nil]
    exact ⟨_, hlast, not_isSpace_of_letter _ (hword.letters _ (List.getLast_mem _))⟩

/-- The suffixes as they stand behind a name. -/
def texts (suffixes : List String) : List Char := suffixes.flatMap String.toList

theorem tail_texts (h : ∀ suffix ∈ suffixes, suffix ∈ noiseSuffixes) (hne : suffixes ≠ []) :
    Tail (texts suffixes) := by
  induction suffixes with
  | nil => exact absurd rfl hne
  | cons suffix suffixes ih =>
      obtain ⟨hsuffix, hsuffixes⟩ := List.forall_mem_cons.mp h
      have hfirst := tail_of_mem hsuffix
      by_cases hlast : suffixes = []
      · subst hlast
        rw [texts, List.flatMap_singleton]
        exact hfirst
      · rw [texts, List.flatMap_cons]
        exact hfirst.append (ih hsuffixes hlast)

theorem lowered_texts (h : ∀ suffix ∈ suffixes, suffix ∈ noiseSuffixes) :
    (texts suffixes).flatMap lowered = texts suffixes := by
  have hall : ∀ suffix ∈ noiseSuffixes, suffix.toList.flatMap lowered = suffix.toList := by decide
  induction suffixes with
  | nil => rfl
  | cons suffix suffixes ih =>
      obtain ⟨hsuffix, hsuffixes⟩ := List.forall_mem_cons.mp h
      rw [texts, List.flatMap_cons, List.flatMap_append, hall suffix hsuffix]
      exact congrArg (suffix.toList ++ ·) (ih hsuffixes)

/-- A step that leaves a tail where it is, up to blanks before it. -/
structure Keeps (f : List Char → List Char) : Prop where
  nil : f [] = []
  append : ∀ {cs zs : List Char}, Tail zs → f cs ≠ [] →
    ∃ blank, Blank blank ∧ f (cs ++ zs) = f cs ++ (blank ++ zs)

theorem keeps_of_append {f : List Char → List Char} (hnil : f [] = [])
    (happend : ∀ {cs zs : List Char}, Tail zs → f (cs ++ zs) = f cs ++ zs) : Keeps f where
  nil := hnil
  append htail _ := ⟨[], blank_nil, happend htail⟩

theorem Keeps.comp {f g : List Char → List Char} (hf : Keeps f) (hg : Keeps g) :
    Keeps (fun cs => g (f cs)) where
  nil := by rw [hf.nil, hg.nil]
  append := by
    intro cs zs htail hne
    have hfirst : f cs ≠ [] := by
      intro hnil
      rw [hnil] at hne
      exact hne hg.nil
    obtain ⟨blank, hblank, hfcs⟩ := hf.append htail hfirst
    obtain ⟨blank', hblank', hgcs⟩ := hg.append (htail.blank_append hblank) hne
    refine ⟨blank' ++ blank, hblank'.append hblank, ?_⟩
    rw [hfcs, hgcs, List.append_assoc]

theorem keeps_stripChars : Keeps stripChars where
  nil := rfl
  append htail hne := stripChars_append_tail htail hne

theorem keeps_removeParens : Keeps (removeParens false) :=
  keeps_of_append rfl fun htail =>
    removeParens_append (htail.plain.not_mem_sign _ (by decide))
      (htail.plain.not_mem_sign _ (by decide)) (fun h => by cases h)

theorem flatMap_of_forall {f : Char → List Char} (h : ∀ c ∈ cs, f c = [c]) :
    cs.flatMap f = cs := by
  rw [List.flatMap_congr h, List.flatMap_singleton']

theorem keeps_ampersand :
    Keeps (fun cs => cs.flatMap (fun c => if c = '&' then "and".toList else [c])) :=
  keeps_of_append rfl fun {cs zs} htail => by
    have hzs : zs.flatMap (fun c => if c = '&' then "and".toList else [c]) = zs :=
      flatMap_of_forall fun c hc => if_neg fun (heq : c = '&') =>
        htail.plain.not_mem_sign '&' (by decide) (heq ▸ hc)
    rw [List.flatMap_append, hzs]

theorem keeps_removeThresholds : Keeps (removeThresholds 0) :=
  keeps_of_append rfl fun htail => removeThresholds_append htail (Nat.zero_le _)

/-- The steps before the suffixes leave a tail behind a name. -/
theorem core_append (h : Tail zs) (hlowered : zs.flatMap lowered = zs) (hcore : core cs ≠ []) :
    ∃ blank, Blank blank ∧ core (cs ++ zs) = core cs ++ (blank ++ zs) := by
  have hkeeps := ((((keeps_stripChars.comp keeps_removeParens).comp keeps_stripChars).comp
    keeps_ampersand).comp keeps_removeThresholds).comp keeps_stripChars
  obtain ⟨blank, hblank, heq⟩ := hkeeps.append h hcore
  refine ⟨blank, hblank, ?_⟩
  rw [core, List.flatMap_append, hlowered]
  exact heq

theorem trails_texts (h : Trimmed base) (hbase : base ≠ []) (hblank : Blank blank)
    (hsuffixes : ∀ suffix ∈ suffixes, suffix ∈ noiseSuffixes) (hsuffix : suffix ∈ noiseSuffixes) :
    Trails base (suffix :: suffixes).reverse (base ++ (blank ++ texts (suffix :: suffixes))) := by
  induction suffixes generalizing base blank suffix with
  | nil =>
      rw [texts, List.flatMap_singleton, ← List.append_assoc]
      exact .cons (.nil h) hbase hblank hsuffix
  | cons later suffixes ih =>
      obtain ⟨hlater, hsuffixes⟩ := List.forall_mem_cons.mp hsuffixes
      have hfirst := Trails.cons (.nil h) hbase hblank hsuffix
      have hne : base ++ blank ++ suffix.toList ≠ [] :=
        List.append_ne_nil_of_left_ne_nil (List.append_ne_nil_of_left_ne_nil hbase _) _
      have hrest := ih hfirst.trimmed hne blank_nil hsuffixes hlater
      have hassoc : base ++ (blank ++ texts (suffix :: later :: suffixes)) =
          base ++ blank ++ suffix.toList ++ ([] ++ texts (later :: suffixes)) := by
        rw [texts, List.flatMap_cons, ← texts, List.nil_append, List.append_assoc, List.append_assoc]
      rw [List.reverse_cons, hassoc]
      exact hfirst.trans hrest

theorem trimmed_core (cs : List Char) : Trimmed (core cs) := trimmed_stripChars _

/-- The suffixes that are appended to a name stand behind what the steps before leave of it. -/
theorem trails_core (h : ∀ suffix ∈ suffixes, suffix ∈ noiseSuffixes) (hcore : core s.toList ≠ []) :
    Trails (core s.toList) suffixes.reverse (core (s ++ String.join suffixes).toList) := by
  rw [String.toList_append, String.toList_join, ← texts]
  cases suffixes with
  | nil =>
      rw [texts, List.flatMap_nil, List.append_nil]
      exact .nil (trimmed_core _)
  | cons suffix suffixes =>
      obtain ⟨blank, hblank, heq⟩ := core_append (tail_texts h (List.cons_ne_nil _ _))
        (lowered_texts h) hcore
      obtain ⟨hsuffix, hsuffixes⟩ := List.forall_mem_cons.mp h
      rw [heq]
      exact trails_texts (trimmed_core _) hcore hblank hsuffixes hsuffix

end Appended

section Keys

variable {base cs : List Char} {suffixes : List String} {suffix : String} {c : Char}

/-- The runs of letters and digits of a text, with a space between two of them. -/
def keyText (cs : List Char) : List Char := [' '].intercalate (tokens cs)

def Noisy (cs : List Char) : Prop := ∃ suffix ∈ noiseSuffixes, suffix.toList <:+ cs

theorem normalizeName_eq_keyText (s : String) :
    normalizeName s = String.ofList (keyText (removeSuffixes (core s.toList))) := normalizeName_eq s

/-- A small letter, a digit or the space. -/
def Keyed (c : Char) : Prop := c = ' ' ∨ (isKeyChar c = true ∧ isSpace c = false)

theorem Keyed.isKeyChar (h : Keyed c) : isKeyChar c = true := by
  rcases h with rfl | h
  · decide
  · exact h.1

theorem keyed_of_mem_keyText (h : c ∈ keyText cs) : Keyed c := by
  refine (mem_intercalate h).imp id ?_
  rintro ⟨w, hw, hc⟩
  refine ⟨?_, (isRun_of_mem_tokens hw).solid c hc⟩
  obtain ⟨d, _, rfl⟩ := List.mem_map.mp (mem_of_mem_runs hw c hc)
  split
  · assumption
  · decide

theorem trimmed_keyText (cs : List Char) : Trimmed (keyText cs) :=
  (trimmed_intercalate fun _ hw => isRun_of_mem_tokens hw).1

@[simp] theorem tokens_keyText (cs : List Char) : tokens (keyText cs) = tokens cs := by
  rw [tokens, keyChars_of_forall fun c hc => (keyed_of_mem_keyText hc).isKeyChar, keyText]
  exact runs_intercalate (show isSpace ' ' = true by decide) fun _ hw => isRun_of_mem_tokens hw

theorem keyText_eq_iff {ds : List Char} : keyText cs = keyText ds ↔ tokens cs = tokens ds := by
  constructor
  · intro h
    rw [← tokens_keyText cs, h, tokens_keyText]
  · intro h
    rw [keyText, h, keyText]

theorem Keyed.lt (h : Keyed c) : c.toNat < 128 := by
  rcases h with rfl | ⟨hkey, hspace⟩
  · decide
  · simp only [CriteriaMerge.isKeyChar, hspace, Bool.or_false, Bool.or_eq_true, Bool.and_eq_true,
      decide_eq_true_eq, Char.le_def, UInt32.le_iff_toNat_le] at hkey
    have hz : ('z' : Char).val.toNat = 122 := rfl
    have hnine : ('9' : Char).val.toNat = 57 := rfl
    rw [Char.toNat]
    omega

theorem Keyed.lowered (h : Keyed c) : lowered c = [c] ∧ c ∉ signs := by
  have hall : ∀ n < 128, Char.ofNat n = ' ' ∨ CriteriaMerge.isKeyChar (Char.ofNat n) = true →
      CriteriaMerge.lowered (Char.ofNat n) = [Char.ofNat n] ∧ Char.ofNat n ∉ signs := by decide
  obtain ⟨n, hn, rfl⟩ := exists_ascii h.lt
  exact hall n hn (h.imp id And.left)

theorem core_keyText (cs : List Char) : core (keyText cs) = keyText cs := by
  have hkeyed : ∀ c ∈ keyText cs, Keyed c := fun c hc => keyed_of_mem_keyText hc
  have hsign : ∀ sign ∈ signs, sign ∉ keyText cs := fun sign hsign hmem =>
    (hkeyed sign hmem).lowered.2 hsign
  have hampersand : (keyText cs).flatMap (fun c => if c = '&' then "and".toList else [c]) =
      keyText cs :=
    flatMap_of_forall fun c hc => if_neg fun (heq : c = '&') => hsign '&' (by decide) (heq ▸ hc)
  have hstrip := stripChars_of_trimmed (trimmed_keyText cs)
  rw [core, flatMap_of_forall fun c hc => (hkeyed c hc).lowered.1]
  simp only [hstrip, removeParens_of_not_mem (hsign '(' (by decide)), hampersand,
    removeThresholds_of_not_mem (hsign '>' (by decide))]

theorem Trails.noisy_keyText (h : Trails base (suffix :: suffixes) cs)
    (hbase : tokens base ≠ []) : Noisy (keyText cs) := by
  cases h with
  | @cons _ ds blank _ h hcs hblank hsuffix =>
      have htokens : tokens ds ≠ [] := by
        rw [h.tokens_eq]
        exact List.append_ne_nil_of_left_ne_nil hbase _
      obtain ⟨word, hword⟩ := noise_of_mem hsuffix
      refine ⟨suffix, hsuffix, ?_⟩
      rw [keyText, tokens_append_suffix hblank hsuffix, intercalate_concat htokens, hword.toList,
        List.tail_cons]
      exact List.suffix_append _ _

theorem tokens_ne_nil_of_noisy (h : Noisy (keyText cs)) : tokens cs ≠ [] := by
  obtain ⟨suffix, hsuffix, hends⟩ := h
  obtain ⟨word, hword⟩ := noise_of_mem hsuffix
  intro hnil
  rw [keyText, hnil, List.intercalate_nil, List.suffix_nil, hword.toList] at hends
  cases hends

end Keys

section Results

variable {base cs : List Char} {suffixes : List String} {s : String}

theorem removeSuffixes_of_not_noisy (h : ¬ Noisy cs) : removeSuffixes cs = cs :=
  foldl_removeSuffix_of_not fun suffix hsuffix hends => h ⟨suffix, hsuffix, hends⟩

/-- A pass that meets the suffixes goes on with the text before them. -/
theorem removeSuffixes_of_sublist (h : Trails base suffixes cs) (hsub : suffixes.Sublist noiseSuffixes) :
    ∃ met rest, noiseSuffixes = met ++ rest ∧ remaining suffixes noiseSuffixes = some rest ∧
      removeSuffixes cs = rest.foldl removeSuffix base := by
  rcases foldl_removeSuffix h fun suffix hsuffix => hsuffix with ⟨rest, hrest, heq⟩ | ⟨hnone, _⟩
  · obtain ⟨met, hmet⟩ := exists_of_remaining hrest
    exact ⟨met, rest, hmet, hrest, heq⟩
  · have hsome := (remaining_isSome suffixes noiseSuffixes).mpr hsub
    rw [hnone] at hsome
    cases hsome

/-- A pass that does not meet all the suffixes leaves more than the text before them. -/
theorem length_lt_of_not_sublist (h : Trails base suffixes cs)
    (hsub : ¬ suffixes.Sublist noiseSuffixes) :
    (tokens base).length < (tokens (removeSuffixes cs)).length := by
  rcases foldl_removeSuffix h fun suffix hsuffix => hsuffix with ⟨rest, hrest, _⟩ | ⟨_, left, hne, hleft⟩
  · refine absurd ((remaining_isSome suffixes noiseSuffixes).mp ?_) hsub
    rw [hrest]
    rfl
  · rw [removeSuffixes, hleft.length_tokens]
    exact Nat.lt_add_of_pos_right (List.length_pos_of_ne_nil hne)

theorem length_removeSuffixes_le (h : Trails base suffixes cs)
    (hsub : suffixes.Sublist noiseSuffixes) :
    (tokens (removeSuffixes cs)).length ≤ (tokens base).length := by
  obtain ⟨met, rest, hmet, _, heq⟩ := removeSuffixes_of_sublist h hsub
  rw [heq]
  refine length_tokens_foldl_le h.trimmed_base fun suffix hsuffix => ?_
  rw [hmet]
  exact List.mem_append_right _ hsuffix

/-- A key is the key of itself when it does not end with a noise suffix. -/
theorem idempotent_iff (s : String) :
    normalizeName (normalizeName s) = normalizeName s ↔
      ¬ Noisy (keyText (removeSuffixes (core s.toList))) := by
  rw [normalizeName_eq_keyText (normalizeName s), normalizeName_eq_keyText s, String.toList_ofList,
    core_keyText, String.ofList_inj, keyText_eq_iff]
  constructor
  · rintro heq ⟨suffix, hsuffix, hends⟩
    obtain ⟨base, htrails, _⟩ := exists_trails (trimmed_keyText _) hsuffix hends
    have hle := length_removeSuffixes_le htrails (List.singleton_sublist.mpr hsuffix)
    have hlength := htrails.length_tokens
    rw [heq] at hle
    rw [tokens_keyText, List.length_singleton] at hlength
    omega
  · intro h
    rw [removeSuffixes_of_not_noisy h, tokens_keyText]

/-- Before the suffixes are looked for, the name is a text with suffixes behind it in the reverse of
the order in which they are looked for, and the key of that text does not end with a suffix. -/
def Settled (s : String) : Prop :=
  ∃ base suffixes, Trails base suffixes (core s.toList) ∧ suffixes.Sublist noiseSuffixes ∧
    ¬ Noisy (keyText base)

theorem settled_iff (s : String) : Settled s ↔ ¬ Noisy (keyText (removeSuffixes (core s.toList))) := by
  constructor
  · rintro ⟨base, suffixes, htrails, hsub, hbase⟩ hnoisy
    obtain ⟨met, rest, hmet, _, heq⟩ := removeSuffixes_of_sublist htrails hsub
    obtain ⟨removed, _, hleft⟩ := trails_foldl htrails.trimmed_base (l := rest)
      fun suffix hsuffix => hmet ▸ List.mem_append_right _ hsuffix
    rw [heq] at hnoisy
    cases removed with
    | nil =>
        rw [← hleft.eq_base] at hnoisy
        exact hbase hnoisy
    | cons suffix removed => exact hbase (hleft.noisy_keyText (tokens_ne_nil_of_noisy hnoisy))
  · intro h
    obtain ⟨removed, hsub, htrails⟩ := trails_foldl (trimmed_core s.toList) (l := noiseSuffixes)
      fun suffix hsuffix => hsuffix
    exact ⟨_, removed, htrails, hsub, h⟩

/-- The suffix at the end of the name, if there is one, and the ones that are appended stand in the
reverse of the order in which they are looked for. -/
def Reversed (s : String) (suffixes : List String) : Prop :=
  suffixes.reverse.Sublist noiseSuffixes ∧
    ∀ suffix ∈ noiseSuffixes, suffix.toList <:+ core s.toList →
      (suffix :: suffixes).reverse.Sublist noiseSuffixes

/-- Behind a text that ends with a suffix, a pass has to meet the suffixes that are appended before
it meets that one. -/
theorem tokens_removeSuffixes_iff {suffix : String} (h : Trails base [suffix] (core s.toList))
    (h' : Trails (core s.toList) suffixes cs) :
    tokens (removeSuffixes cs) = tokens (removeSuffixes (core s.toList)) ↔
      (suffixes ++ [suffix]).Sublist noiseSuffixes := by
  have hone : [suffix].Sublist noiseSuffixes := List.singleton_sublist.mpr h.suffix_of_cons.1
  have hall := h.trans h'
  constructor
  · intro heq
    by_contra hsub
    have hlt := length_lt_of_not_sublist hall hsub
    rw [heq] at hlt
    exact absurd (length_removeSuffixes_le h hone) (Nat.not_le.mpr hlt)
  · intro hsub
    obtain ⟨_, rest, _, hrest, heq⟩ := removeSuffixes_of_sublist hall hsub
    obtain ⟨_, rest', _, hrest', heq'⟩ := removeSuffixes_of_sublist h hone
    rw [remaining_append] at hrest
    obtain ⟨between, hbetween, hlast⟩ := Option.bind_eq_some_iff.mp hrest
    obtain ⟨met, hmet⟩ := exists_of_remaining hbetween
    have hmem : suffix ∈ between := by
      rw [← List.singleton_sublist, ← remaining_isSome, hlast]
      rfl
    have hnodup : (met ++ between).Nodup := hmet ▸ noiseSuffixes_nodup
    rw [hmet, remaining_of_mem_right hnodup hmem, hlast] at hrest'
    obtain rfl := Option.some.inj hrest'
    rw [heq, heq']

/-- Behind a text that does not end with a suffix, a pass has to meet the ones that are appended. -/
theorem tokens_removeSuffixes_iff_of_not_noisy (h : Trails base suffixes cs) (hbase : ¬ Noisy base) :
    tokens (removeSuffixes cs) = tokens base ↔ suffixes.Sublist noiseSuffixes := by
  constructor
  · intro heq
    by_contra hsub
    have hlt := length_lt_of_not_sublist h hsub
    rw [heq] at hlt
    exact Nat.lt_irrefl _ hlt
  · intro hsub
    obtain ⟨met, rest, hmet, _, heq⟩ := removeSuffixes_of_sublist h hsub
    rw [heq, foldl_removeSuffix_of_not]
    intro suffix hsuffix hends
    exact hbase ⟨suffix, hmet ▸ List.mem_append_right _ hsuffix, hends⟩

theorem appended_iff (h : ∀ suffix ∈ suffixes, suffix ∈ noiseSuffixes) (hs : normalizeName s ≠ "") :
    normalizeName (s ++ String.join suffixes) = normalizeName s ↔ Reversed s suffixes := by
  have hcore : core s.toList ≠ [] := by
    intro hnil
    refine hs (normalizeName_eq_empty.mpr ?_)
    rw [hnil]
    rfl
  have htrails := trails_core h hcore
  rw [normalizeName_eq_iff]
  by_cases hnoisy : Noisy (core s.toList)
  · obtain ⟨suffix, hsuffix, hends⟩ := hnoisy
    obtain ⟨base, hbase, _⟩ := exists_trails (trimmed_core _) hsuffix hends
    rw [tokens_removeSuffixes_iff hbase htrails, ← List.reverse_cons]
    constructor
    · intro hsub
      refine ⟨(List.sublist_append_left _ _).trans (List.reverse_cons ▸ hsub), ?_⟩
      intro other hother hends'
      rwa [eq_of_endsWith hsuffix hother hends hends']
    · intro hreversed
      exact hreversed.2 suffix hsuffix hends
  · rw [removeSuffixes_of_not_noisy hnoisy, tokens_removeSuffixes_iff_of_not_noisy htrails hnoisy]
    refine ⟨fun hsub => ⟨hsub, fun suffix hsuffix hends => ?_⟩, And.left⟩
    exact absurd ⟨suffix, hsuffix, hends⟩ hnoisy

/-- A name has a stable key, and the key of the name with suffixes behind it, exactly when a pass
meets the suffixes from the last one to the first. -/
theorem normalForm_iff (s : String) (suffixes : List String)
    (h : ∀ suffix ∈ suffixes, suffix ∈ noiseSuffixes) :
    (normalizeName (normalizeName s) = normalizeName s ↔ Settled s) ∧
      (normalizeName s ≠ "" →
        (normalizeName (s ++ String.join suffixes) = normalizeName s ↔ Reversed s suffixes)) :=
  ⟨(idempotent_iff s).trans (settled_iff s).symm, appended_iff h⟩

theorem normalForm_iff_reversed :
    Settled "ISO 27001" ∧ Reversed "ISO 27001" [" requirement", " certification"] := by
  obtain ⟨hsettled, hreversed⟩ := normalForm_iff "ISO 27001" [" requirement", " certification"]
    (by decide)
  exact ⟨hsettled.mp (by decide +kernel),
    (hreversed (by decide +kernel)).mp (by decide +kernel)⟩

/-- The certification is looked for before the requirement. -/
theorem suffix_left_behind :
    normalizeName "ISO 27001" = "iso 27001" ∧
      normalizeName ("ISO 27001" ++ String.join [" certification", " requirement"]) =
        "iso 27001 certification" ∧
      normalizeName "iso 27001 certification" = "iso 27001" := by
  decide +kernel

end Results

end RfpPlatform.NormalForm
