import Mathlib.Data.List.DropRight
import RfpPlatform.Extraction

namespace RfpPlatform.Quotes

open Extraction PyText

theorem stripChars_eq_nil {cs : List Char} : stripChars cs = [] ↔ ∀ c ∈ cs, isSpace c = true := by
  have hstrip : stripChars cs = (cs.dropWhile isSpace).rdropWhile isSpace := rfl
  rw [hstrip, List.rdropWhile_eq_nil_iff, ← List.dropWhile_eq_nil_iff, List.dropWhile_idempotent,
    List.dropWhile_eq_nil_iff]

/-- Writing one space for a run of them leaves a text blank, or not, as it was. -/
theorem squeeze_blank (seen : Bool) (cs : List Char) :
    (∀ c ∈ squeeze seen cs, isSpace c = true) ↔ ∀ c ∈ cs, isSpace c = true := by
  induction cs generalizing seen with
  | nil => exact Iff.rfl
  | cons c cs ih =>
      rw [List.forall_mem_cons, squeeze]
      by_cases hc : isSpace c = true
      · rw [if_pos hc, and_iff_right hc]
        cases seen with
        | true => exact ih true
        | false =>
            rw [if_neg Bool.false_ne_true, List.forall_mem_cons, ih, and_iff_right (by decide)]
      · rw [if_neg hc, List.forall_mem_cons, ih]

def Blank (s : String) : Prop := strip s = ""

instance (s : String) : Decidable (Blank s) := inferInstanceAs (Decidable (_ = _))

theorem blank_iff {s : String} : Blank s ↔ ∀ c ∈ s.toList, isSpace c = true := by
  rw [Blank, strip, ← String.toList_inj, String.toList_ofList]
  exact stripChars_eq_nil

theorem ws_eq_nil {s : String} : ws s = [] ↔ Blank s := by
  rw [blank_iff, ws, stripChars_eq_nil, squeeze_blank]

theorem blank_empty : Blank "" := rfl

/-- A quote stands in the text of the chunk it cites, up to runs of whitespace. -/
def StandsIn (chunks : Dict ChunkId String) (chunkId : ChunkId) (quote : String) : Prop :=
  (chunks.get? chunkId).any (fun text => occurs (ws quote) (ws text)) = true

instance (chunks : Dict ChunkId String) (chunkId : ChunkId) (quote : String) :
    Decidable (StandsIn chunks chunkId quote) := inferInstanceAs (Decidable (_ = _))

def Grounded (chunks : Dict ChunkId String) (chunkId : ChunkId) (quote : String) : Prop :=
  ¬ Blank quote ∧ StandsIn chunks chunkId quote

instance (chunks : Dict ChunkId String) (chunkId : ChunkId) (quote : String) :
    Decidable (Grounded chunks chunkId quote) := inferInstanceAs (Decidable (_ ∧ _))

/-- The text of a cited chunk, as the critics and the writer read it. -/
def citedText (chunks : Dict ChunkId String) (chunkId : ChunkId) : String :=
  (chunks.get? chunkId).getD ""

/-- There is no text to look the quote up in, or nothing to look up. -/
def Unverifiable (chunks : Dict ChunkId String) (chunkId : ChunkId) (quote : String) : Prop :=
  citedText chunks chunkId = "" ∨ Blank quote

instance (chunks : Dict ChunkId String) (chunkId : ChunkId) (quote : String) :
    Decidable (Unverifiable chunks chunkId quote) := inferInstanceAs (Decidable (_ ∨ _))

section

variable {chunks : Dict ChunkId String} {chunkId : ChunkId} {quote : String}

theorem standsIn_iff : StandsIn chunks chunkId quote ↔
    ∃ text, chunks.get? chunkId = some text ∧ ws quote <:+: ws text := by
  unfold StandsIn
  cases chunks.get? chunkId with
  | none => simp
  | some text => simp [occurs]

theorem occurs_of_blank (h : Blank quote) (text : List Char) : occurs (ws quote) text = true := by
  rw [ws_eq_nil.mpr h]
  exact decide_eq_true (List.nil_infix)

theorem grounded_iff : Grounded chunks chunkId quote ↔
    ¬ Blank quote ∧ occurs (ws quote) (ws (citedText chunks chunkId)) = true := by
  rw [Grounded, standsIn_iff]
  apply and_congr_right
  intro hblank
  cases hget : chunks.get? chunkId with
  | none =>
      have hempty : ws "" = [] := ws_eq_nil.mpr blank_empty
      have hquote : ws quote ≠ [] := fun h => hblank (ws_eq_nil.mp h)
      simp [citedText, hget, hempty, occurs, hquote]
  | some text => simp [citedText, hget, occurs]

theorem quoteFound_iff : quoteFound quote (citedText chunks chunkId) = true ↔
    quote ≠ "" ∧ citedText chunks chunkId ≠ "" ∧
      occurs (ws quote) (ws (citedText chunks chunkId)) = true := by
  simp [quoteFound, and_assoc]

theorem Grounded.quoteFound (h : Grounded chunks chunkId quote) :
    quoteFound quote (citedText chunks chunkId) = true := by
  obtain ⟨hblank, hoccurs⟩ := grounded_iff.mp h
  refine quoteFound_iff.mpr ⟨fun hq => hblank (hq ▸ blank_empty), fun htext => ?_, hoccurs⟩
  rw [htext, occurs, ws_eq_nil.mpr blank_empty, decide_eq_true_iff, List.infix_nil] at hoccurs
  exact hblank (ws_eq_nil.mp hoccurs)

/-- What the writer of a narrative keeps is grounded, or quotes whitespace alone. -/
theorem grounded_iff_quoteFound : Grounded chunks chunkId quote ↔
    ¬ Blank quote ∧ Extraction.quoteFound quote (citedText chunks chunkId) = true :=
  ⟨fun h => ⟨h.1, h.quoteFound⟩, fun h => grounded_iff.mpr ⟨h.1, (quoteFound_iff.mp h.2).2.2⟩⟩

theorem quoteMissing_iff : quoteMissing chunks chunkId quote = true ↔
    citedText chunks chunkId ≠ "" ∧ quote ≠ "" ∧
      occurs (ws quote) (ws (citedText chunks chunkId)) = false := by
  simp [quoteMissing, citedText, and_assoc]

theorem quoteMissing_of_unverifiable (h : Unverifiable chunks chunkId quote) :
    quoteMissing chunks chunkId quote = false := by
  by_contra hmissing
  rw [Bool.not_eq_false] at hmissing
  obtain ⟨htext, _, hoccurs⟩ := quoteMissing_iff.mp hmissing
  rcases h with h | h
  · exact htext h
  · rw [occurs_of_blank h] at hoccurs
    cases hoccurs

/-- The critics see an ungrounded quote only where it can be looked up. -/
theorem not_grounded_iff : ¬ Grounded chunks chunkId quote ↔
    Unverifiable chunks chunkId quote ∨ quoteMissing chunks chunkId quote = true := by
  constructor
  · intro h
    by_cases hunverifiable : Unverifiable chunks chunkId quote
    · exact Or.inl hunverifiable
    · obtain ⟨htext, hblank⟩ := not_or.mp hunverifiable
      refine Or.inr (quoteMissing_iff.mpr ⟨htext, fun hq => hblank (hq ▸ blank_empty), ?_⟩)
      by_contra hoccurs
      rw [Bool.not_eq_false] at hoccurs
      exact h (grounded_iff.mpr ⟨hblank, hoccurs⟩)
  · rintro (h | h) hgrounded
    · rcases h with h | h
      · exact (quoteFound_iff.mp hgrounded.quoteFound).2.1 h
      · exact hgrounded.1 h
    · have hoccurs := (grounded_iff.mp hgrounded).2
      rw [(quoteMissing_iff.mp h).2.2] at hoccurs
      cases hoccurs

/-- A quote that the writer accepts is not missing for a critic that knows the chunk. -/
theorem quoteMissing_of_quoteFound {chunks' : Dict ChunkId String}
    (hfound : Extraction.quoteFound quote (citedText chunks chunkId) = true)
    (hextends : ∀ text, chunks.get? chunkId = some text → chunks'.get? chunkId = some text) :
    quoteMissing chunks' chunkId quote = false := by
  obtain ⟨_, htext, hoccurs⟩ := quoteFound_iff.mp hfound
  cases hget : chunks.get? chunkId with
  | none => simp [citedText, hget] at htext
  | some text =>
      have hsame : citedText chunks' chunkId = citedText chunks chunkId := by
        rw [citedText, citedText, hget, hextends text hget]
      by_contra hmissing
      rw [Bool.not_eq_false, quoteMissing_iff, hsame, hoccurs] at hmissing
      cases hmissing.2.2

end

end RfpPlatform.Quotes
