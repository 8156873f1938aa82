import RfpPlatform.ListParts
import RfpPlatform.MergePriority
import RfpPlatform.NormalForm

namespace RfpPlatform.NameAgreement

open Blanks CriteriaMerge ExceptRules ListParts MergedCriteria MergePriority NameTexts NormalForm PyText WordRuns

section Parts

variable {cs rest : List Char} {n : Nat}

def Parenthesised (p : List Char) : Prop := ∃ inside, ')' ∉ inside ∧ p = '(' :: inside ++ [')']

/-- A sign, an amount behind it and its unit. -/
def Threshold (p : List Char) : Prop :=
  ∃ equal blank currency blank' digits unit,
    p = '>' :: (equal ++ (blank ++ (currency ++ (blank' ++ (digits ++ unit))))) ∧
    equal ∈ [[], ['=']] ∧ Blank blank ∧ currency ∈ [[], ['£'], ['€'], ['$']] ∧ Blank blank' ∧
    (digits ≠ [] ∧ ∀ c ∈ digits, isDecimal c = true) ∧ unit ∈ [[], ['m'], ['k']]

theorem removeParens_cut (cs : List Char) :
    Cut Parenthesised cs (removeParens false cs) ∧
      (')' ∈ cs → ∃ inside after, ')' ∉ inside ∧ cs = inside ++ ')' :: after ∧
        Cut Parenthesised after (removeParens true cs)) := by
  induction cs with
  | nil => exact ⟨.nil, fun h => absurd h List.not_mem_nil⟩
  | cons c cs ih =>
      obtain ⟨hout, hin⟩ := ih
      constructor
      · rw [removeParens]
        split
        · rename_i hopen
          obtain ⟨rfl, hclose⟩ := hopen
          obtain ⟨inside, after, hinside, rfl, hcut⟩ := hin hclose
          have hpart : Parenthesised ('(' :: inside ++ [')']) := ⟨inside, hinside, rfl⟩
          have hwhole := Cut.cut hpart hcut
          rwa [List.append_assoc, List.singleton_append, List.cons_append] at hwhole
        · exact .keep c hout
      · intro hclose
        rw [removeParens]
        by_cases hc : c = ')'
        · subst hc
          exact ⟨[], cs, List.not_mem_nil, rfl, hout⟩
        · have hmem : ')' ∈ cs := (List.mem_cons.mp hclose).resolve_left (Ne.symm hc)
          obtain ⟨inside, after, hinside, rfl, hcut⟩ := hin hmem
          refine ⟨c :: inside, after, ?_, rfl, ?_⟩
          · rw [List.mem_cons, not_or]
            exact ⟨Ne.symm hc, hinside⟩
          · rwa [decide_eq_true hc]

theorem exists_dropOne {p : Char → Bool} {signs : List Char} (hp : ∀ c, p c = true → c ∈ signs)
    (cs : List Char) :
    ∃ one, cs = one ++ dropOne cs p ∧ one ∈ [] :: signs.map (fun c => [c]) := by
  cases cs with
  | nil => exact ⟨[], rfl, List.mem_cons_self⟩
  | cons c cs =>
      rw [dropOne]
      split
      · rename_i hc
        exact ⟨[c], rfl, List.mem_cons_of_mem _ (List.mem_map_of_mem (hp c hc))⟩
      · exact ⟨[], rfl, List.mem_cons_self⟩

theorem exists_dropWhile (cs : List Char) :
    ∃ blank, cs = blank ++ cs.dropWhile isSpace ∧ Blank blank :=
  ⟨_, List.takeWhile_append_dropWhile.symm, blank_takeWhile cs⟩

/-- What a match covers is a threshold. -/
theorem exists_threshold (h : thresholdLength cs = some n) :
    ∃ p rest, cs = p ++ rest ∧ p.length = n ∧ Threshold p := by
  cases cs with
  | nil => cases h
  | cons c cs =>
      by_cases hc : c = '>'
      · subst hc
        rw [thresholdLength_eq] at h
        split at h
        · cases h
        · rename_i hdigits
          have hsign : ∀ c, decide (c = '=') = true → c ∈ ['='] :=
            fun c hc => List.mem_singleton.mpr (of_decide_eq_true hc)
          obtain ⟨equal, hequal, hequal'⟩ := exists_dropOne hsign cs
          obtain ⟨blank, hblank, hblank'⟩ := exists_dropWhile (dropOne cs (· = '='))
          obtain ⟨currency, hcurrency, hcurrency'⟩ := exists_dropOne
            (fun c hc => of_decide_eq_true hc) ((dropOne cs (· = '=')).dropWhile isSpace)
          obtain ⟨between, hbetween, hbetween'⟩ := exists_dropWhile
            (dropOne ((dropOne cs (· = '=')).dropWhile isSpace) (· ∈ ['£', '€', '$']))
          rw [← amountOf] at hbetween
          have hamount := List.takeWhile_append_dropWhile (p := isDecimal) (l := amountOf cs)
          obtain ⟨unit, hunit, hunit'⟩ := exists_dropOne
            (fun c hc => of_decide_eq_true hc) ((amountOf cs).dropWhile isDecimal)
          rw [← behind] at hunit
          have hcs : '>' :: cs = '>' :: (equal ++ (blank ++ (currency ++ (between ++
              ((amountOf cs).takeWhile isDecimal ++ unit))))) ++ behind (amountOf cs) := by
            conv_lhs => rw [hequal, hblank, hcurrency, hbetween, ← hamount, hunit]
            simp only [List.cons_append, List.append_assoc]
          refine ⟨_, _, hcs, ?_, equal, blank, currency, between, _, unit, rfl, hequal', hblank',
            hcurrency', hbetween', ⟨hdigits, fun c hc => List.mem_takeWhile_imp hc⟩, hunit'⟩
          rw [hcs, List.length_append, Nat.add_sub_cancel] at h
          exact Option.some.inj h
      · rw [thresholdLength_of_ne hc] at h
        cases h

theorem removeThresholds_eq_drop (n : Nat) (cs : List Char) :
    removeThresholds n cs = removeThresholds 0 (cs.drop n) := by
  induction cs generalizing n with
  | nil =>
      rw [List.drop_nil]
      cases n <;> rfl
  | cons c cs ih =>
      cases n with
      | zero => rfl
      | succ n => exact ih n

theorem removeThresholds_cut (cs : List Char) : Cut Threshold cs (removeThresholds 0 cs) := by
  induction hn : cs.length using Nat.strongRecOn generalizing cs with
  | ind n ih =>
      cases cs with
      | nil => exact .nil
      | cons c cs =>
          rw [List.length_cons] at hn
          rw [removeThresholds]
          split
          · rename_i n hlength
            obtain ⟨p, rest, hsplit, hp, hthreshold⟩ := exists_threshold hlength
            obtain ⟨sign, amount, rfl⟩ : ∃ sign amount, p = sign :: amount := by
              obtain ⟨_, _, _, _, _, _, hparts, _⟩ := hthreshold
              exact ⟨_, _, hparts⟩
            have hsign : c = sign := (List.cons.inj hsplit).1
            have hrest : cs = amount ++ rest := (List.cons.inj hsplit).2
            subst hsign hrest
            have hdrop : removeThresholds (n - 1) (amount ++ rest) = removeThresholds 0 rest := by
              rw [removeThresholds_eq_drop, ← hp, List.length_cons, Nat.add_sub_cancel,
                List.drop_left]
            rw [hdrop]
            refine .cut hthreshold (ih rest.length ?_ rest rfl)
            rw [List.length_append] at hn
            omega
          · exact .keep c (ih cs.length (by omega) cs rfl)

end Parts

section Agreement

variable {beyond : Char → Bool} {name : String} {cs : List Char} {c : Char}

/-- A letter or a digit of any script; which characters beyond ASCII are is given. -/
def isAlnum (beyond : Char → Bool) (c : Char) : Bool :=
  if c.toNat < 128 then c.isAlphanum else beyond c

/-- In lower case, the letters and digits of the name are ASCII. -/
def AsciiLettered (beyond : Char → Bool) (name : String) : Prop :=
  ∀ c ∈ name.toList.flatMap lowered, 128 ≤ c.toNat → beyond c = false

def spelled (c : Char) : List Char := if c = '&' then "and".toList else [c]

/-- The words of a name in lower case, without parts in parentheses, with its ampersands spelled,
without thresholds and without suffixes at its end. A word is a run of letters and digits. -/
def Cleaned (beyond : Char → Bool) (name : String) (words : List (List Char)) : Prop :=
  ∃ opened measured base suffixes, Cut Parenthesised (name.toList.flatMap lowered) opened ∧
    Cut Threshold (opened.flatMap spelled) measured ∧
    Trails base suffixes (stripChars measured) ∧ runs (fun c => !isAlnum beyond c) base = words

def Agree (beyond : Char → Bool) (a b : String) : Prop :=
  ∃ words, Cleaned beyond a words ∧ Cleaned beyond b words

theorem not_isUpper_of_le (h : 128 ≤ c.toNat) : c.isUpper = false ∧ c.toLower = c := by
  have hle : ¬ c.val ≤ 'Z'.val := by
    intro hle
    have hnat : c.toNat ≤ 90 := UInt32.le_iff_toNat_le.mp hle
    omega
  exact ⟨decide_eq_false fun h => hle h.2, dif_neg fun h => hle h.2⟩

theorem isUpper_toLower (c : Char) : c.toLower.isUpper = false := by
  by_cases hlt : c.toNat < 128
  · have hall : ∀ n < 128, (Char.ofNat n).toLower.isUpper = false := by decide
    obtain ⟨n, hn, rfl⟩ := exists_ascii hlt
    exact hall n hn
  · obtain ⟨hupper, hlower⟩ := not_isUpper_of_le (Nat.not_lt.mp hlt)
    rwa [hlower]

theorem isUpper_of_mem_lowered {d : Char} (h : d ∈ lowered c) : d.isUpper = false := by
  rw [lowered] at h
  split at h
  · obtain rfl := List.mem_singleton.mp h
    decide
  · split at h
    · rcases List.mem_cons.mp h with rfl | h
      · decide
      · obtain rfl := List.mem_singleton.mp h
        decide
    · obtain rfl := List.mem_singleton.mp h
      exact isUpper_toLower c

/-- What the key keeps of a lower-case character is a letter or a digit of ASCII. -/
theorem isAlnum_eq (hupper : c.isUpper = false) (hbeyond : 128 ≤ c.toNat → beyond c = false) :
    isAlnum beyond c = (isKeyChar c && !isSpace c) := by
  rw [isAlnum]
  split
  · rename_i hlt
    have hall : ∀ n < 128, (Char.ofNat n).isUpper = false →
        (Char.ofNat n).isAlphanum = (isKeyChar (Char.ofNat n) && !isSpace (Char.ofNat n)) := by
      decide
    obtain ⟨n, hn, rfl⟩ := exists_ascii hlt
    exact hall n hn hupper
  · rename_i hge
    rw [hbeyond (Nat.not_lt.mp hge)]
    symm
    rw [Bool.and_eq_false_iff, Bool.not_eq_false']
    by_contra hkept
    obtain ⟨hkey, hspace⟩ := not_or.mp hkept
    exact hge (Keyed.lt (.inr ⟨Bool.eq_true_of_not_eq_false hkey, Bool.eq_false_iff.mpr hspace⟩))

theorem tokens_eq_runs (h : ∀ c ∈ cs, isAlnum beyond c = (isKeyChar c && !isSpace c)) :
    tokens cs = runs (fun c => !isAlnum beyond c) cs := by
  refine runs_map fun c hc => ?_
  rw [h c hc]
  cases hkey : isKeyChar c with
  | false => exact .inl ⟨rfl, show isSpace ' ' = true by decide⟩
  | true =>
      cases hspace : isSpace c with
      | true => exact .inl ⟨rfl, hspace⟩
      | false => exact .inr ⟨rfl, rfl, rfl⟩

theorem spelled_of_blank {blank : List Char} (h : Blank blank) : blank.flatMap spelled = blank :=
  flatMap_of_forall fun c hc => if_neg fun (heq : c = '&') =>
    absurd (heq ▸ h c hc : isSpace '&' = true) (by decide)

/-- The steps before the suffixes only leave out parts in parentheses and thresholds. -/
theorem core_cut (cs : List Char) :
    ∃ opened measured, Cut Parenthesised (cs.flatMap lowered) opened ∧
      Cut Threshold (opened.flatMap spelled) measured ∧ stripChars measured = core cs := by
  obtain ⟨b₁, b₁', hb₁, hb₁', hlower, _⟩ := exists_around (cs.flatMap lowered)
  obtain ⟨b₂, b₂', hb₂, hb₂', hopen, _⟩ :=
    exists_around (removeParens false (stripChars (cs.flatMap lowered)))
  have hparens := (removeParens_cut (stripChars (cs.flatMap lowered))).1.around b₁ b₁'
  rw [← hlower] at hparens
  have hspelled : (b₁ ++ removeParens false (stripChars (cs.flatMap lowered)) ++ b₁').flatMap spelled =
      b₁ ++ (b₂ ++ (stripChars (removeParens false (stripChars (cs.flatMap lowered)))).flatMap spelled ++
        b₂') ++ b₁' := by
    conv_lhs => rw [hopen]
    rw [List.flatMap_append, List.flatMap_append, List.flatMap_append, List.flatMap_append,
      spelled_of_blank hb₁, spelled_of_blank hb₂, spelled_of_blank hb₂', spelled_of_blank hb₁']
  have hthresholds := ((removeThresholds_cut ((stripChars (removeParens false
    (stripChars (cs.flatMap lowered)))).flatMap spelled)).around b₂ b₂').around b₁ b₁'
  rw [← hspelled] at hthresholds
  refine ⟨_, _, hparens, hthresholds, ?_⟩
  rw [stripChars_padded hb₁ hb₁', stripChars_padded hb₂ hb₂']
  rfl

theorem mem_of_mem_base {base : List Char} {suffixes : List String} (h : Trails base suffixes cs)
    (hc : c ∈ base) : c ∈ cs := by
  induction h with
  | nil _ => exact hc
  | cons _ _ _ _ ih => exact List.mem_append_left _ (List.mem_append_left _ ih)

theorem isAlnum_of_mem_spelled (h : AsciiLettered beyond name) {opened : List Char}
    (hopened : opened.Sublist (name.toList.flatMap lowered)) (hc : c ∈ opened.flatMap spelled) :
    isAlnum beyond c = (isKeyChar c && !isSpace c) := by
  obtain ⟨d, hd, hc⟩ := List.mem_flatMap.mp hc
  rw [spelled] at hc
  split at hc
  · have hupper : ∀ c ∈ ['a', 'n', 'd'], c.isUpper = false :=
      List.all_iff_forall_prop.mp (by decide)
    have hkeyed : ∀ c ∈ ['a', 'n', 'd'], isKeyChar c = true ∧ isSpace c = false :=
      List.all_iff_forall_prop.mp (by decide)
    exact isAlnum_eq (hupper c hc) fun hge =>
      absurd (Keyed.lt (.inr (hkeyed c hc))) (Nat.not_lt.mpr hge)
  · obtain rfl := List.mem_singleton.mp hc
    have hlowered := hopened.subset hd
    obtain ⟨e, _, he⟩ := List.mem_flatMap.mp hlowered
    exact isAlnum_eq (isUpper_of_mem_lowered he) (h c hlowered)

/-- The key is made of the words of the name that is cleaned. -/
theorem cleaned (h : AsciiLettered beyond name) :
    Cleaned beyond name (tokens (removeSuffixes (core name.toList))) := by
  obtain ⟨opened, measured, hopened, hmeasured, hcore⟩ := core_cut name.toList
  obtain ⟨removed, _, htrails⟩ := trails_foldl (trimmed_core name.toList) (l := noiseSuffixes)
    fun suffix hsuffix => hsuffix
  have hbehind : Trails (removeSuffixes (core name.toList)) removed (stripChars measured) := by
    rw [hcore]
    exact htrails
  refine ⟨opened, measured, _, removed, hopened, hmeasured, hbehind, ?_⟩
  refine (tokens_eq_runs fun c hc => ?_).symm
  refine isAlnum_of_mem_spelled h hopened.sublist (hmeasured.sublist.subset ?_)
  exact mem_of_mem_stripChars (mem_of_mem_base hbehind hc)

theorem agree_of_normalizeName_eq {a b : String} (ha : AsciiLettered beyond a)
    (hb : AsciiLettered beyond b) (h : normalizeName a = normalizeName b) : Agree beyond a b := by
  have hwords := cleaned hb
  rw [← normalizeName_eq_iff.mp h] at hwords
  exact ⟨_, cleaned ha, hwords⟩

end Agreement

section Numbers

variable {beyond : Char → Bool} {name : String} {cs : List Char} {c : Char}

/-- The digits of a text. -/
def digits (cs : List Char) : List Char := cs.filter Char.isDigit

/-- A name without an opening parenthesis and without the sign of a threshold. -/
def Bare (name : String) : Prop := '(' ∉ name.toList ∧ '>' ∉ name.toList

theorem digits_append (cs ds : List Char) : digits (cs ++ ds) = digits cs ++ digits ds :=
  List.filter_append ..

theorem digits_flatMap {f : Char → List Char} (h : ∀ c, digits (f c) = digits [c])
    (cs : List Char) : digits (cs.flatMap f) = digits cs := by
  induction cs with
  | nil => rfl
  | cons c cs ih =>
      rw [List.flatMap_cons, digits_append, h, ih, ← digits_append, List.singleton_append]

theorem digits_of_forall (h : ∀ c ∈ cs, c.isDigit = false) : digits cs = [] :=
  List.filter_eq_nil_iff.mpr fun c hc => Bool.eq_false_iff.mp (h c hc)

/-- The signs and digits of ASCII stand before its letters. -/
theorem lowered_cases (c : Char) : lowered c = [c] ∨ (64 ≤ c.toNat ∧ ∀ d ∈ lowered c, 64 ≤ d.toNat) := by
  by_cases hlt : c.toNat < 128
  · have hall : ∀ n < 128, lowered (Char.ofNat n) = [Char.ofNat n] ∨
        (64 ≤ (Char.ofNat n).toNat ∧ (lowered (Char.ofNat n)).all (64 ≤ ·.toNat) = true) := by decide
    obtain ⟨n, hn, rfl⟩ := exists_ascii hlt
    exact (hall n hn).imp_right (And.imp_right List.all_iff_forall_prop.mp)
  · have hge := Nat.not_lt.mp hlt
    rw [lowered]
    split
    · exact .inr ⟨Nat.le_trans (by decide) hge, List.all_iff_forall_prop.mp (by decide)⟩
    · split
      · exact .inr ⟨Nat.le_trans (by decide) hge, List.all_iff_forall_prop.mp (by decide)⟩
      · rw [(not_isUpper_of_le hge).2]
        exact .inl rfl

theorem not_isDigit_of_le (h : 64 ≤ c.toNat) : c.isDigit = false := by
  have hle : ¬ c.val ≤ '9'.val := by
    intro hle
    have hnat : c.toNat ≤ 57 := UInt32.le_iff_toNat_le.mp hle
    omega
  rw [Char.isDigit, decide_eq_false hle, Bool.and_false]

theorem digits_lowered (c : Char) : digits (lowered c) = digits [c] := by
  rcases lowered_cases c with hsame | ⟨hc, hall⟩
  · rw [hsame]
  · rw [digits_of_forall fun d hd => not_isDigit_of_le (hall d hd), digits_of_forall]
    exact List.forall_mem_singleton.mpr (not_isDigit_of_le hc)

theorem mem_of_mem_lowered (h : c ∈ cs.flatMap lowered) (hlt : c.toNat < 64) : c ∈ cs := by
  obtain ⟨d, hd, hc⟩ := List.mem_flatMap.mp h
  rcases lowered_cases d with hsame | ⟨_, hall⟩
  · rw [hsame] at hc
    exact List.mem_singleton.mp hc ▸ hd
  · exact absurd hlt (Nat.not_lt.mpr (hall c hc))

theorem digits_spelled (c : Char) : digits (spelled c) = digits [c] := by
  rw [spelled]
  split
  · rename_i hc
    subst hc
    rfl
  · rfl

theorem mem_of_mem_spelled (h : '>' ∈ cs.flatMap spelled) : '>' ∈ cs := by
  obtain ⟨d, hd, hc⟩ := List.mem_flatMap.mp h
  rw [spelled] at hc
  split at hc
  · exact absurd hc (by decide)
  · exact List.mem_singleton.mp hc ▸ hd

theorem digits_blank (h : Blank cs) : digits cs = [] := by
  have hall : ∀ n ∈ spaceCodes, (Char.ofNat n).isDigit = false := by decide
  refine digits_of_forall fun c hc => ?_
  have hdigit := hall _ (toNat_mem_spaceCodes (h c hc))
  rwa [Char.ofNat_toNat] at hdigit

theorem digits_stripChars (cs : List Char) : digits (stripChars cs) = digits cs := by
  obtain ⟨blank, blank', hblank, hblank', hsplit, _⟩ := exists_around cs
  conv_rhs => rw [hsplit]
  rw [digits_append, digits_append, digits_blank hblank, digits_blank hblank', List.nil_append,
    List.append_nil]

theorem digits_trails {base : List Char} {suffixes : List String} (h : Trails base suffixes cs) :
    digits cs = digits base := by
  have hnoise : ∀ suffix ∈ noiseSuffixes, digits suffix.toList = [] := by decide
  induction h with
  | nil _ => rfl
  | cons _ _ hblank hsuffix ih =>
      rw [digits_append, digits_append, digits_blank hblank, hnoise _ hsuffix, List.append_nil,
        List.append_nil, ih]

theorem isAlnum_of_isDigit (h : c.isDigit = true) : isAlnum beyond c = true := by
  have hlt : c.toNat < 128 := by
    by_contra hge
    rw [not_isDigit_of_le (Nat.le_trans (by decide) (Nat.not_lt.mp hge))] at h
    cases h
  rw [isAlnum, if_pos hlt, Char.isAlphanum, h, Bool.or_true]

/-- Where there is nothing to leave out, the words have the digits of the name. -/
theorem digits_words {words : List (List Char)} (h : Cleaned beyond name words) (hbare : Bare name) :
    digits words.flatten = digits name.toList := by
  obtain ⟨opened, measured, base, suffixes, hopened, hmeasured, htrails, rfl⟩ := h
  have hopened' : opened = name.toList.flatMap lowered := by
    refine hopened.eq_of_not_mem (c := '(') ?_ fun hmem =>
      hbare.1 (mem_of_mem_lowered hmem (by decide))
    rintro _ ⟨inside, _, rfl⟩
    exact List.mem_cons_self
  have hmeasured' : measured = opened.flatMap spelled := by
    refine hmeasured.eq_of_not_mem (c := '>') ?_ fun hmem => ?_
    · rintro _ ⟨_, _, _, _, _, _, rfl, _⟩
      exact List.mem_cons_self
    · have hmem' := mem_of_mem_spelled hmem
      rw [hopened'] at hmem'
      exact hbare.2 (mem_of_mem_lowered hmem' (by decide))
  have hwords : digits (runs (fun c => !isAlnum beyond c) base).flatten = digits base := by
    rw [flatten_runs, digits, List.filter_filter]
    refine List.filter_congr fun c _ => ?_
    cases hdigit : c.isDigit with
    | false => rfl
    | true => rw [isAlnum_of_isDigit hdigit]; rfl
  calc digits (runs (fun c => !isAlnum beyond c) base).flatten
      = digits base := hwords
    _ = digits measured := by rw [← digits_trails htrails, digits_stripChars]
    _ = digits opened := by rw [hmeasured', digits_flatMap digits_spelled]
    _ = digits name.toList := by rw [hopened', digits_flatMap digits_lowered]

theorem Agree.digits_eq {a b : String} (h : Agree beyond a b) (ha : Bare a) (hb : Bare b) :
    digits a.toList = digits b.toList := by
  obtain ⟨words, hwords, hwords'⟩ := h
  rw [← digits_words hwords ha, digits_words hwords' hb]

end Numbers

section Merging

variable {sha256 : String → String} {src : Sources} {merged : Merged}

def mergedNames (merged : Merged) : CheckType → List String
  | .mandatory => merged.mandatoryChecks.map CheckDict.name
  | .scoring => merged.scoringCriteria.map CriterionDict.name

theorem keys_mergedNames (h : mergeCriteria sha256 src = .ok merged) (kind : CheckType) :
    (mergedNames merged kind).map normalizeName = (candidates src kind).map Candidate.key := by
  cases kind with
  | mandatory =>
      rw [mergedNames, List.map_map, ← mandatory_names h]
      rfl
  | scoring =>
      rw [mergedNames, List.map_map, ← scoring_names h]
      rfl

theorem exists_mergedName (h : mergeCriteria sha256 src = .ok merged) {kind : CheckType}
    {c : Candidate} (hc : c ∈ prioritised src kind) :
    ∃ name ∈ mergedNames merged kind, normalizeName name = normalizeName c.name := by
  have hkey : c.key ∈ (candidates src kind).map Candidate.key :=
    FirstWins.mem_kept_keys.mpr (List.mem_map_of_mem hc)
  rw [← keys_mergedNames h] at hkey
  exact List.mem_map.mp hkey

/-- A row or an entry is left out only for a merged one of its kind that has its key, and names with
one key agree. Where they have neither parentheses nor thresholds, they have the same digits. -/
theorem merged_names_agree (beyond : Char → Bool) (h : mergeCriteria sha256 src = .ok merged)
    (kind : CheckType) {c : Candidate} (hc : c ∈ prioritised src kind)
    (hname : AsciiLettered beyond c.name) :
    (∃ name ∈ mergedNames merged kind, normalizeName name = normalizeName c.name) ∧
      ∀ name, AsciiLettered beyond name → normalizeName name = normalizeName c.name →
        Agree beyond name c.name ∧
          (Bare name → Bare c.name → digits name.toList = digits c.name.toList) := by
  refine ⟨exists_mergedName h hc, fun name hother heq => ?_⟩
  have hagree := agree_of_normalizeName_eq hother hname heq
  exact ⟨hagree, hagree.digits_eq⟩

/-- A request that asks for these checks. -/
def requested (names : List String) : Sources where
  org := []
  dept := []
  user := none
  rfp := ⟨names.map (fun name => .obj [("name", .str name)]), []⟩

theorem merged_names_agree_iso : Agree (fun _ => false) "ISO-27001 Certification" "ISO 27001" := by
  obtain ⟨merged, h⟩ := exists_ok_of_toBool
    (show (mergeCriteria id (requested ["ISO 27001"])).toBool = true by decide +kernel)
  have hagree := merged_names_agree (fun _ => false) h .mandatory
    (c := .rfp ⟨"ISO 27001", [("name", .str "ISO 27001")]⟩)
    (List.mem_singleton.mpr rfl) (fun _ _ _ => rfl)
  exact (hagree.2 "ISO-27001 Certification" (fun _ _ _ => rfl) (by decide +kernel)).1

/-- Two checks that differ in the required revenue are merged into one. -/
theorem threshold_ignored :
    (mergeCriteria id (requested ["Annual revenue >= £5M", "Annual revenue >= £10M"])).toOption.map
      (fun merged => mergedNames merged .mandatory) = some ["Annual revenue >= £5M"] := by
  decide +kernel

end Merging

end RfpPlatform.NameAgreement
