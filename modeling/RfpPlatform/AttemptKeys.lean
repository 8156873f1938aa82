import Mathlib.Data.List.TakeWhile
import RfpPlatform.Blanks
import RfpPlatform.PipelineNodes

namespace RfpPlatform.AttemptKeys

open Blanks PipelineNodes PyText

/-- What stands between a vendor's id and the number of an attempt. -/
def marker : List Char := "@attempt".toList

section Split

variable {cs ds before after sep : List Char}

theorem splitFirst_eq_some (h : splitFirst sep cs = some (before, after)) :
    cs = before ++ sep ++ after := by
  induction cs generalizing before after with
  | nil =>
      rw [splitFirst] at h
      split at h
      · rename_i hsep
        cases h
        rw [hsep]
        rfl
      · cases h
  | cons c cs ih =>
      rw [splitFirst] at h
      split at h
      · rename_i hstarts
        cases h
        obtain ⟨rest, hrest⟩ := List.isPrefixOf_iff_prefix.mp hstarts
        rw [List.nil_append, ← hrest, List.drop_left]
      · obtain ⟨⟨p, q⟩, hpq, hresult⟩ := Option.map_eq_some_iff.mp h
        cases hresult
        rw [ih hpq]
        rfl

/-- A text that has the separator is split at the same place when it is continued. -/
theorem splitFirst_append (h : splitFirst sep cs = some (before, after)) :
    splitFirst sep (cs ++ ds) = some (before, after ++ ds) := by
  induction cs generalizing before after with
  | nil =>
      rw [splitFirst] at h
      split at h
      · rename_i hsep
        cases h
        rw [hsep]
        cases ds with
        | nil => rfl
        | cons d ds => rfl
      · cases h
  | cons c cs ih =>
      rw [splitFirst] at h
      rw [List.cons_append, splitFirst]
      split at h
      · rename_i hstarts
        cases h
        have hsep := List.isPrefixOf_iff_prefix.mp hstarts
        have hlonger : sep <+: c :: (cs ++ ds) := hsep.trans (List.prefix_append (c :: cs) ds)
        rw [if_pos (List.isPrefixOf_iff_prefix.mpr hlonger), ← List.cons_append,
          List.drop_append_of_le_length hsep.length_le]
      · rename_i hstarts
        obtain ⟨⟨p, q⟩, hpq, hresult⟩ := Option.map_eq_some_iff.mp h
        cases hresult
        have hlength : sep.length ≤ (c :: cs).length := by
          rw [splitFirst_eq_some hpq, List.length_cons, List.length_append, List.length_append]
          omega
        rw [if_neg, ih hpq]
        · rfl
        · intro hlonger
          refine hstarts (List.isPrefixOf_iff_prefix.mpr ?_)
          exact List.prefix_of_prefix_length_le (List.isPrefixOf_iff_prefix.mp hlonger)
            (List.prefix_append (c :: cs) ds) hlength

/-- The marker does not overlap itself, as its first character comes once. -/
theorem not_prefix_marker {c : Char} (hfree : ¬ marker <+: c :: cs) :
    ¬ marker <+: (c :: cs) ++ (marker ++ ds) := by
  intro hstarts
  rcases List.prefix_or_prefix_of_prefix hstarts (List.prefix_append (c :: cs) (marker ++ ds)) with
    hshort | ⟨rest, hrest⟩
  · exact hfree hshort
  · have hlater : rest <+: marker ++ ds := by
      have hwhole : (c :: cs) ++ rest <+: (c :: cs) ++ (marker ++ ds) := hrest.symm ▸ hstarts
      exact (List.prefix_append_right_inj (c :: cs)).mp hwhole
    cases rest with
    | nil =>
        rw [List.append_nil] at hrest
        exact hfree (hrest ▸ List.prefix_refl _)
    | cons d rest =>
        obtain ⟨_, hcontinued⟩ := hlater
        have hd : d = '@' := (List.cons.inj hcontinued).1
        have htail : cs ++ d :: rest = "attempt".toList := (List.cons.inj hrest).2
        have hmem : '@' ∈ "attempt".toList := by
          rw [← htail, hd]
          exact List.mem_append_right _ List.mem_cons_self
        exact absurd hmem (by decide)

/-- A text without the marker is split where the marker follows it. -/
theorem splitFirst_marker (h : splitFirst marker cs = none) :
    splitFirst marker (cs ++ (marker ++ ds)) = some (cs, ds) := by
  induction cs with
  | nil => rfl
  | cons c cs ih =>
      rw [splitFirst] at h
      split at h
      · cases h
      · rename_i hstarts
        have hfree : ¬ marker <+: c :: cs := fun h => hstarts (List.isPrefixOf_iff_prefix.mpr h)
        rw [List.cons_append, splitFirst, if_neg, ih (Option.map_eq_none_iff.mp h)]
        · rfl
        · intro hlonger
          exact not_prefix_marker hfree (List.isPrefixOf_iff_prefix.mp hlonger)

end Split

section Numbers

theorem foldl_digits {cs : List Char} (h : ∀ c ∈ cs, c.isDigit = true) (n : Nat) :
    cs.foldl (fun acc c => acc.bind (fun n =>
        if c.isDigit then some (10 * n + (c.toNat - '0'.toNat)) else none)) (some n) =
      some (Nat.ofDigitChars 10 cs n) := by
  induction cs generalizing n with
  | nil => rfl
  | cons c cs ih =>
      rw [List.foldl_cons, Option.bind_some, if_pos (h c List.mem_cons_self),
        ih (fun d hd => h d (List.mem_cons_of_mem c hd))]
      rfl

theorem dropUnderscores_digits {cs : List Char} (h : ∀ c ∈ cs, c ≠ '_') :
    dropUnderscores cs = some cs := by
  induction cs with
  | nil => rfl
  | cons c cs ih =>
      have hc := h c List.mem_cons_self
      have hrest := ih fun d hd => h d (List.mem_cons_of_mem c hd)
      cases cs with
      | nil => rw [dropUnderscores, if_neg hc]
      | cons d cs =>
          have hd := h d (List.mem_cons_of_mem c List.mem_cons_self)
          rw [dropUnderscores.eq_def]
          simp only [if_neg hc, if_neg hd, hrest, Option.map_some]

theorem isDigit_toDigits {n : Nat} {c : Char} (h : c ∈ Nat.toDigits 10 n) : c.isDigit = true :=
  Nat.isDigit_of_mem_toDigits (by decide) (by decide) h

theorem natLiteral_toDigits (n : Nat) : natLiteral (Nat.toDigits 10 n) = some n := by
  have hplain : ∀ c ∈ Nat.toDigits 10 n, c ≠ '_' := by
    rintro c hc rfl
    exact absurd (isDigit_toDigits hc) (by decide)
  rw [natLiteral, dropUnderscores_digits hplain, Option.bind_some]
  have hfold := foldl_digits (fun c hc => isDigit_toDigits (n := n) hc) 0
  rw [Nat.ofDigitChars_ten_toDigits] at hfold
  cases hdigits : Nat.toDigits 10 n with
  | nil => exact absurd hdigits Nat.toDigits_ne_nil
  | cons c cs =>
      rw [digits, ← hdigits]
      · exact hfold
      · exact fun hnil => List.cons_ne_nil _ _ hnil

theorem not_isSpace_of_isDigit {c : Char} (h : c.isDigit = true) : isSpace c = false := by
  simp only [Char.isDigit, ge_iff_le, UInt32.le_iff_toNat_le, Bool.and_eq_true,
    decide_eq_true_eq] at h
  change 48 ≤ c.toNat ∧ c.toNat ≤ 57 at h
  simp only [isSpace, Bool.or_eq_false_iff, Bool.and_eq_false_iff, decide_eq_false_iff_not]
  omega

theorem stripChars_eq {cs : List Char} (h : ∀ c ∈ cs, isSpace c = false) : stripChars cs = cs :=
  stripChars_of_trimmed ⟨fun c hc => h c (List.mem_of_head? hc),
    fun c hc => h c (List.mem_of_getLast? hc)⟩

/-- A number is read from the text that it is written as. -/
theorem intOf_toDigits (n : Nat) : intOf (String.ofList (Nat.toDigits 10 n)) = some (n : Int) := by
  have hdigits : ∀ c ∈ Nat.toDigits 10 n, c.isDigit = true := fun _ => isDigit_toDigits
  rw [intOf, String.toList_ofList,
    stripChars_eq (fun c hc => not_isSpace_of_isDigit (hdigits c hc))]
  split
  · rename_i cs hcs
    rw [hcs] at hdigits
    exact absurd (hdigits '-' List.mem_cons_self) (by decide)
  · rename_i cs hcs
    rw [hcs] at hdigits
    exact absurd (hdigits '+' List.mem_cons_self) (by decide)
  · rw [natLiteral_toDigits]
    rfl

theorem digits_of_digits {cs : List Char} {n : Nat} (h : digits cs = some n) :
    ∀ c ∈ cs, c.isDigit = true := by
  have hfold : ∀ (cs : List Char) (acc : Option Nat),
      (cs.foldl (fun acc c => acc.bind (fun n =>
        if c.isDigit then some (10 * n + (c.toNat - '0'.toNat)) else none)) acc) ≠ none →
      acc ≠ none ∧ ∀ c ∈ cs, c.isDigit = true := by
    intro cs
    induction cs with
    | nil => exact fun acc h => ⟨h, fun c hc => absurd hc List.not_mem_nil⟩
    | cons c cs ih =>
        intro acc h
        obtain ⟨hacc, hcs⟩ := ih _ h
        cases acc with
        | none => exact absurd rfl hacc
        | some n =>
            refine ⟨Option.some_ne_none n, fun d hd => ?_⟩
            rcases List.mem_cons.mp hd with rfl | hd
            · by_contra hdigit
              exact hacc (if_neg hdigit)
            · exact hcs d hd
  cases cs with
  | nil => cases h
  | cons c cs =>
      refine (hfold (c :: cs) (some 0) ?_).2
      intro hnone
      rw [digits, hnone] at h
      · cases h
      · exact fun hnil => List.cons_ne_nil _ _ hnil

theorem mem_of_dropUnderscores {cs ds : List Char} (h : dropUnderscores cs = some ds) :
    ∀ c ∈ cs, c = '_' ∨ c ∈ ds := by
  fun_induction dropUnderscores cs generalizing ds with
  | case1 => exact fun c hc => absurd hc List.not_mem_nil
  | case2 => cases h
  | case3 c hc =>
      cases h
      exact fun d hd => .inr hd
  | case4 => cases h
  | case5 => cases h
  | case6 c hc e cs hdigits ih =>
      obtain ⟨es, hes, rfl⟩ := Option.map_eq_some_iff.mp h
      intro d hd
      rcases List.mem_cons.mp hd with rfl | hd
      · exact .inr List.mem_cons_self
      · rcases List.mem_cons.mp hd with rfl | hd
        · exact .inl rfl
        · exact (ih hes d hd).imp id (List.mem_cons_of_mem c)
  | case7 => cases h
  | case8 c e cs hc he ih =>
      obtain ⟨es, hes, rfl⟩ := Option.map_eq_some_iff.mp h
      intro d hd
      rcases List.mem_cons.mp hd with rfl | hd
      · exact .inr List.mem_cons_self
      · exact (ih hes d hd).imp id (List.mem_cons_of_mem c)

theorem natLiteral_eq_none {cs : List Char} (h : '@' ∈ cs) : natLiteral cs = none := by
  by_contra hsome
  obtain ⟨n, hn⟩ := Option.ne_none_iff_exists'.mp hsome
  obtain ⟨ds, hds, hdigits⟩ := Option.bind_eq_some_iff.mp hn
  rcases mem_of_dropUnderscores hds '@' h with heq | hmem
  · exact absurd heq (by decide)
  · exact absurd (digits_of_digits hdigits '@' hmem) (by decide)

theorem mem_stripChars {c : Char} {cs : List Char} (hc : isSpace c = false) (h : c ∈ cs) :
    c ∈ stripChars cs := by
  obtain ⟨blank, blank', hblank, hblank', hsplit, _⟩ := exists_around cs
  have hnot : ∀ {ds : List Char}, Blank ds → c ∉ ds := by
    intro ds hds hmem
    rw [hds c hmem] at hc
    cases hc
  rw [hsplit, List.append_assoc, List.mem_append, List.mem_append] at h
  exact (h.resolve_left (hnot hblank)).resolve_right (hnot hblank')

/-- A text with the first character of the marker is no number. -/
theorem intOf_eq_none {cs : List Char} (h : '@' ∈ cs) : intOf (String.ofList cs) = none := by
  have hstrip : '@' ∈ stripChars cs := mem_stripChars (by decide) h
  have hrest : ∀ {c : Char} {ds : List Char}, c ≠ '@' → '@' ∈ c :: ds → '@' ∈ ds :=
    fun hc hmem => (List.mem_cons.mp hmem).resolve_left (Ne.symm hc)
  rw [intOf, String.toList_ofList]
  split
  · rename_i ds hds
    rw [hds] at hstrip
    rw [natLiteral_eq_none (hrest (by decide) hstrip)]
    rfl
  · rename_i ds hds
    rw [hds] at hstrip
    rw [natLiteral_eq_none (hrest (by decide) hstrip)]
    rfl
  · rw [natLiteral_eq_none hstrip]
    rfl

end Numbers

section Keys

variable {vid : VendorId} {n : Nat}

/-- The id has the marker in it. -/
def Marked (vid : VendorId) : Prop := splitFirst marker vid.toList ≠ none

/-- The name under which the narratives of a vendor are collected. -/
def name (vid : VendorId) : VendorId :=
  match splitFirst marker vid.toList with
  | none => vid
  | some (before, _) => String.ofList before

theorem accumKey_eq (vid : VendorId) (n : Nat) :
    accumKey vid n = vid ++ "@attempt" ++ Nat.repr n := rfl

theorem accumKey_toList : (accumKey vid n).toList =
    vid.toList ++ (marker ++ Nat.toDigits 10 n) := by
  rw [accumKey_eq, String.toList_append, String.toList_append, Nat.toList_repr, List.append_assoc]
  have hmarker : marker = "@attempt".toList := rfl
  rw [hmarker]

/-- The key of an unmarked id gives the id and the attempt back. -/
theorem splitKey_unmarked (h : ¬ Marked vid) : splitKey (accumKey vid n) = (vid, (n : Int)) := by
  have hsplit : splitFirst "@attempt".toList (accumKey vid n).toList =
      some (vid.toList, Nat.toDigits 10 n) := by
    rw [accumKey_toList]
    exact splitFirst_marker (not_not.mp h)
  rw [splitKey, hsplit]
  simp only [String.ofList_toList, intOf_toDigits, Option.getD_some]

/-- The key of a marked id gives what stands before the marker, and no attempt. -/
theorem splitKey_marked (h : Marked vid) : splitKey (accumKey vid n) = (name vid, 0) := by
  obtain ⟨⟨before, after⟩, hvid⟩ := Option.ne_none_iff_exists'.mp h
  have hsplit : splitFirst "@attempt".toList (accumKey vid n).toList =
      some (before, after ++ (marker ++ Nat.toDigits 10 n)) := by
    rw [accumKey_toList]
    exact splitFirst_append hvid
  have hmarker : '@' ∈ after ++ (marker ++ Nat.toDigits 10 n) :=
    List.mem_append_right _ (List.mem_append_left _ List.mem_cons_self)
  rw [splitKey, hsplit, name, hvid]
  simp only [intOf_eq_none hmarker, Option.getD_none]

instance : Decidable (Marked vid) := inferInstanceAs (Decidable (_ ≠ _))

/-- The attempt that the key of a vendor tells. -/
def number (vid : VendorId) (n : Nat) : Int := if Marked vid then 0 else n

theorem splitKey_accumKey : splitKey (accumKey vid n) = (name vid, number vid n) := by
  by_cases h : Marked vid
  · rw [splitKey_marked h, number, if_pos h]
  · rw [splitKey_unmarked h, number, if_neg h, name, not_not.mp h]

theorem name_unmarked (h : ¬ Marked vid) : name vid = vid := by
  rw [name, not_not.mp h]

theorem at_not_mem_digits : '@' ∉ "attempt".toList ++ Nat.toDigits 10 n := by
  rw [List.mem_append, not_or]
  exact ⟨by decide, fun h => absurd (isDigit_toDigits h) (by decide)⟩

/-- The last of the characters with which the marker starts splits a key. -/
theorem append_cons_inj {α : Type*} {a : α} {xs ys s t : List α} (hs : a ∉ s) (ht : a ∉ t)
    (h : xs ++ a :: s = ys ++ a :: t) : xs = ys ∧ s = t := by
  rcases List.append_eq_append_iff.mp h with ⟨as, hys, hrest⟩ | ⟨bs, hxs, hrest⟩
  · cases as with
    | nil =>
        rw [List.append_nil] at hys
        exact ⟨hys.symm, (List.cons.inj hrest).2⟩
    | cons b as =>
        refine absurd ?_ hs
        rw [(List.cons.inj hrest).2]
        exact List.mem_append_right _ List.mem_cons_self
  · cases bs with
    | nil =>
        rw [List.append_nil] at hxs
        exact ⟨hxs, (List.cons.inj hrest).2.symm⟩
    | cons b bs =>
        refine absurd ?_ ht
        rw [(List.cons.inj hrest).2]
        exact List.mem_append_right _ List.mem_cons_self

/-- Different vendors and different attempts have different keys. -/
theorem accumKey_injective {wid : VendorId} {m : Nat} (h : accumKey vid n = accumKey wid m) :
    vid = wid ∧ n = m := by
  have hlist : vid.toList ++ '@' :: ("attempt".toList ++ Nat.toDigits 10 n) =
      wid.toList ++ '@' :: ("attempt".toList ++ Nat.toDigits 10 m) :=
    accumKey_toList.symm.trans ((congrArg String.toList h).trans accumKey_toList)
  obtain ⟨hvid, hdigits⟩ := append_cons_inj at_not_mem_digits at_not_mem_digits hlist
  refine ⟨String.toList_inj.mp hvid, ?_⟩
  have hsame := List.append_cancel_left hdigits
  rw [← Nat.ofDigitChars_ten_toDigits (n := n), hsame, Nat.ofDigitChars_ten_toDigits]

end Keys

end RfpPlatform.AttemptKeys
