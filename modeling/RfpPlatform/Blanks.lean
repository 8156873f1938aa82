import RfpPlatform.PyText
import RfpPlatform.WordRuns

namespace RfpPlatform.Blanks

open PyText WordRuns

variable {cs ds blank blank' : List Char} {c : Char}

def Blank (cs : List Char) : Prop := ∀ c ∈ cs, isSpace c = true

/-- A text without blanks at its ends. -/
structure Trimmed (cs : List Char) : Prop where
  head : ∀ c ∈ cs.head?, isSpace c = false
  last : ∀ c ∈ cs.getLast?, isSpace c = false

theorem Blank.append (h : Blank blank) (h' : Blank blank') : Blank (blank ++ blank') :=
  List.forall_mem_append.mpr ⟨h, h'⟩

theorem blank_nil : Blank [] := fun _ hc => absurd hc List.not_mem_nil

theorem dropWhile_of_head (h : ∀ c ∈ cs.head?, isSpace c = false) : cs.dropWhile isSpace = cs := by
  cases cs with
  | nil => rfl
  | cons c cs =>
      have hc := h c rfl
      rw [List.dropWhile_cons, hc, if_neg Bool.false_ne_true]

theorem head_dropWhile (cs : List Char) : ∀ c ∈ (cs.dropWhile isSpace).head?, isSpace c = false := by
  induction cs with
  | nil => exact fun c hc => by cases hc
  | cons d cs ih =>
      rw [List.dropWhile_cons]
      split
      · exact ih
      · rename_i hd
        rintro c hc
        obtain rfl := Option.some.inj hc
        exact Bool.eq_false_iff.mpr hd

theorem blank_takeWhile (cs : List Char) : Blank (cs.takeWhile isSpace) :=
  fun _ hc => List.mem_takeWhile_imp hc

/-- Stripping cuts the blanks around a trimmed text. -/
theorem stripChars_around (h : Trimmed cs) (hblank : Blank blank) (hblank' : Blank blank') :
    stripChars (blank ++ cs ++ blank') = cs := by
  rw [stripChars, List.append_assoc, List.dropWhile_append_of_pos hblank]
  have hlast : ∀ c ∈ cs.reverse.head?, isSpace c = false := by
    rw [List.head?_reverse]
    exact h.last
  cases cs with
  | nil =>
      rw [List.nil_append, List.dropWhile_eq_nil_iff.mpr hblank', List.reverse_nil,
        List.dropWhile_nil, List.reverse_nil]
  | cons c cs =>
      have hhead : (c :: cs ++ blank').dropWhile isSpace = c :: cs ++ blank' :=
        dropWhile_of_head h.head
      rw [hhead, List.reverse_append, List.dropWhile_append_of_pos, dropWhile_of_head hlast,
        List.reverse_reverse]
      exact fun d hd => hblank' d (List.mem_reverse.mp hd)

theorem stripChars_of_trimmed (h : Trimmed cs) : stripChars cs = cs := by
  have hstrip := stripChars_around h blank_nil blank_nil
  rwa [List.nil_append, List.append_nil] at hstrip

theorem exists_around (cs : List Char) : ∃ blank blank', Blank blank ∧ Blank blank' ∧
    cs = blank ++ stripChars cs ++ blank' ∧ Trimmed (stripChars cs) := by
  have hright := List.takeWhile_append_dropWhile (p := isSpace) (l := (cs.dropWhile isSpace).reverse)
  have hsplit : cs.dropWhile isSpace =
      stripChars cs ++ ((cs.dropWhile isSpace).reverse.takeWhile isSpace).reverse := by
    rw [stripChars, ← List.reverse_append, hright, List.reverse_reverse]
  refine ⟨cs.takeWhile isSpace, ((cs.dropWhile isSpace).reverse.takeWhile isSpace).reverse,
    blank_takeWhile cs, ?_, ?_, ?_⟩
  · exact fun c hc => blank_takeWhile _ c (List.mem_reverse.mp hc)
  · rw [List.append_assoc, ← hsplit, List.takeWhile_append_dropWhile]
  · refine ⟨?_, ?_⟩
    · intro c hc
      refine head_dropWhile cs c ?_
      rw [hsplit]
      cases hstrip : stripChars cs with
      | nil =>
          rw [hstrip] at hc
          cases hc
      | cons d ds =>
          rw [hstrip] at hc
          exact hc
    · intro c hc
      rw [stripChars, List.getLast?_reverse] at hc
      exact head_dropWhile _ c hc

theorem trimmed_stripChars (cs : List Char) : Trimmed (stripChars cs) :=
  (exists_around cs).choose_spec.choose_spec.2.2.2

theorem stripChars_padded (hblank : Blank blank)
    (hblank' : Blank blank') (cs : List Char) :
    stripChars (blank ++ cs ++ blank') = stripChars cs := by
  obtain ⟨start, rest, hstart, hrest, hsplit, htrimmed⟩ := exists_around cs
  have hstrip := stripChars_around htrimmed (hblank.append hstart) (hrest.append hblank')
  have hassoc : blank ++ cs ++ blank' = blank ++ start ++ stripChars cs ++ (rest ++ blank') := by
    conv_lhs => rw [hsplit]
    simp only [List.append_assoc]
  rw [hassoc, hstrip]

theorem mem_of_mem_stripChars (h : c ∈ stripChars cs) : c ∈ cs := by
  obtain ⟨blank, blank', _, _, hsplit, _⟩ := exists_around cs
  rw [hsplit]
  exact List.mem_append_left _ (List.mem_append_right _ h)

theorem Trimmed.join (h : Trimmed cs) (hcs : cs ≠ []) (h' : Trimmed ds) (hds : ds ≠ [])
    (between : List Char) : Trimmed (cs ++ between ++ ds) where
  head c hc := by
    obtain ⟨d, cs, rfl⟩ := List.exists_cons_of_ne_nil hcs
    exact h.head c hc
  last c hc := by
    rw [List.getLast?_append_of_ne_nil _ hds] at hc
    exact h'.last c hc

theorem trimmed_of_isRun {w : List Char} (h : IsRun isSpace w) : Trimmed w :=
  ⟨fun c hc => h.solid c (List.mem_of_head? hc), fun c hc => h.solid c (List.mem_of_getLast? hc)⟩

theorem trimmed_intercalate {ws : List (List Char)} (hws : ∀ w ∈ ws, IsRun isSpace w) :
    Trimmed ([' '].intercalate ws) ∧ (ws ≠ [] → [' '].intercalate ws ≠ []) := by
  induction ws with
  | nil => exact ⟨⟨fun c hc => (by cases hc), fun c hc => (by cases hc)⟩, fun h => absurd rfl h⟩
  | cons w ws ih =>
      obtain ⟨hw, hws⟩ := List.forall_mem_cons.mp hws
      cases ws with
      | nil =>
          rw [List.intercalate_singleton]
          exact ⟨trimmed_of_isRun hw, fun _ => hw.ne_nil⟩
      | cons v vs =>
          obtain ⟨htrimmed, hne⟩ := ih hws
          rw [List.intercalate_cons_cons]
          refine ⟨(trimmed_of_isRun hw).join hw.ne_nil htrimmed (hne (List.cons_ne_nil _ _)) _,
            fun _ => ?_⟩
          exact List.append_ne_nil_of_right_ne_nil _ (hne (List.cons_ne_nil _ _))

theorem squeeze_of_head (h : ∀ c ∈ cs.head?, isSpace c = false) :
    squeeze false cs = squeeze true cs := by
  cases cs with
  | nil => rfl
  | cons c cs =>
      have hc : ¬ isSpace c = true := Bool.eq_false_iff.mp (h c rfl)
      rw [squeeze, squeeze, if_neg hc, if_neg hc]

theorem squeeze_true (cs : List Char) : ∃ blank, Blank blank ∧
    squeeze true cs = [' '].intercalate (runs isSpace cs) ++ blank := by
  induction cs with
  | nil => exact ⟨[], blank_nil, rfl⟩
  | cons c cs ih =>
      obtain ⟨blank, hblank, hcs⟩ := ih
      by_cases hc : isSpace c = true
      · refine ⟨blank, hblank, ?_⟩
        rw [squeeze, if_pos hc, if_pos rfl, runs_cons_sep hc, hcs]
      · obtain ⟨w, ws, hruns, hrest⟩ := runs_cons_solid (Bool.eq_false_iff.mpr hc) cs
        rw [squeeze, if_neg hc, hruns]
        rcases hrest with ⟨hold, d, hd, hsolid⟩ | ⟨hold, rfl, hhead⟩
        · have hsame : squeeze false cs = squeeze true cs := squeeze_of_head fun e he =>
            Option.some.inj (hd.symm.trans he) ▸ hsolid
          refine ⟨blank, hblank, ?_⟩
          rw [hsame, hcs, hold, List.intercalate_cons_cons_left, List.cons_append]
        · cases cs with
          | nil =>
              rw [runs_nil] at hold
              rw [← hold]
              exact ⟨[], blank_nil, rfl⟩
          | cons d ds =>
              have hd := hhead d rfl
              rw [squeeze, if_pos hd, if_pos rfl] at hcs
              rw [squeeze, if_pos hd, if_neg Bool.false_ne_true, hcs, hold]
              cases ws with
              | nil => exact ⟨' ' :: blank, List.forall_mem_cons.mpr ⟨by decide, hblank⟩, rfl⟩
              | cons v vs =>
                  refine ⟨blank, hblank, ?_⟩
                  rw [List.intercalate_cons_cons]
                  rfl

/-- When a run of blanks becomes one space and the ends are cut, what is left is the runs without
blanks, with a space between two of them. -/
theorem stripChars_squeeze (cs : List Char) :
    stripChars (squeeze false cs) = [' '].intercalate (runs isSpace cs) := by
  obtain ⟨blank, hblank, hcs⟩ := squeeze_true cs
  have htrimmed : Trimmed ([' '].intercalate (runs isSpace cs)) :=
    (trimmed_intercalate fun w hw => isRun_of_mem hw).1
  have hfalse : ∃ start, Blank start ∧ squeeze false cs = start ++ squeeze true cs := by
    cases cs with
    | nil => exact ⟨[], blank_nil, rfl⟩
    | cons c cs =>
        by_cases hc : isSpace c = true
        · refine ⟨[' '], List.forall_mem_singleton.mpr (by decide), ?_⟩
          rw [squeeze, squeeze, if_pos hc, if_pos hc, if_neg Bool.false_ne_true, if_pos rfl]
          rfl
        · refine ⟨[], blank_nil, squeeze_of_head ?_⟩
          rintro d hd
          obtain rfl := Option.some.inj hd
          exact Bool.eq_false_iff.mpr hc
  obtain ⟨start, hstart, hfalse⟩ := hfalse
  rw [hfalse, hcs, ← List.append_assoc]
  exact stripChars_around htrimmed hstart hblank

end RfpPlatform.Blanks
