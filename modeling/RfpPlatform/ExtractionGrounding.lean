import RfpPlatform.IngestionCritic
import RfpPlatform.Quotes

namespace RfpPlatform.ExtractionGrounding

open CriticVerdicts IngestionCritic Quotes

variable (output : ExtractionOutput) (chunks : Dict ChunkId String)

def ungrounded : List ExtractedItem :=
  output.allItems.filter (fun item => ¬ Grounded chunks item.sourceChunkId item.groundingQuote)

/-- The items whose citation leads to no text, or whose quote is blank. -/
def unverifiable : List ExtractedItem :=
  output.allItems.filter (fun item => Unverifiable chunks item.sourceChunkId item.groundingQuote)

/-- The items whose quote is not in the text they cite. -/
def misquoted : List ExtractedItem :=
  output.allItems.filter (fun item => quoteMissing chunks item.sourceChunkId item.groundingQuote)

/-- The critic blocks an extraction on its grounding exactly when most of it is ungrounded. -/
structure BlocksMajority : Prop where
  blocked : output.allItems.length < 2 * (ungrounded output chunks).length →
    (criticAfterExtraction output chunks).overallVerdict = .blocked
  passed : 2 * (ungrounded output chunks).length ≤ output.allItems.length →
    ¬ HasHard (criticAfterExtraction output chunks).flags

/-- The misquoted items are a majority by themselves, wherever they are one together with the
unverifiable ones. -/
def MisquotedDecide : Prop :=
  output.allItems.length < 2 * ((unverifiable output chunks).length +
      (misquoted output chunks).length) →
    output.allItems.length < 2 * (misquoted output chunks).length

theorem length_filter_or {α : Type*} {p q r : α → Bool} (xs : List α)
    (hr : ∀ x, r x = (p x || q x)) (hdisjoint : ∀ x, p x = true → q x = false) :
    (xs.filter r).length = (xs.filter p).length + (xs.filter q).length := by
  induction xs with
  | nil => rfl
  | cons x xs ih =>
      rw [List.filter_cons, List.filter_cons, List.filter_cons, hr]
      cases hp : p x with
      | true =>
          rw [hdisjoint x hp]
          simp only [Bool.true_or, if_true, Bool.false_eq_true, if_false, List.length_cons]
          omega
      | false =>
          cases q x with
          | true =>
              simp only [Bool.or_true, if_true, Bool.false_eq_true, if_false, List.length_cons]
              omega
          | false => simpa using ih

/-- Every ungrounded item is unverifiable or misquoted, and none is both. -/
theorem length_ungrounded : (ungrounded output chunks).length =
    (unverifiable output chunks).length + (misquoted output chunks).length := by
  apply length_filter_or
  · intro item
    rw [Bool.eq_iff_iff, Bool.or_eq_true, decide_eq_true_iff, decide_eq_true_iff]
    exact not_grounded_iff
  · intro item h
    exact quoteMissing_of_unverifiable (of_decide_eq_true h)

theorem mem_flags {f : CriticFlag} (hf : f ∈ (criticAfterExtraction output chunks).flags)
    (hhard : f.severity = .hard) :
    output.allItems.length < 2 * (misquoted output chunks).length ∧ f.asksEscalation = false := by
  rcases List.mem_append.mp hf with hf | hf
  · rcases List.mem_append.mp hf with hf | hf
    · obtain ⟨item, _, rfl⟩ := List.mem_map.mp hf
      cases hhard
    · obtain ⟨⟨_, hmajority⟩, rfl⟩ := mem_flagIf.mp hf
      refine ⟨?_, makeFlag_quiet (by decide +kernel)⟩
      change output.allItems.length / 2 < (misquoted output chunks).length at hmajority
      omega
  · obtain ⟨_, rfl⟩ := mem_flagIf.mp hf
    cases hhard

theorem hasHard_iff : HasHard (criticAfterExtraction output chunks).flags ↔
    output.allItems.length < 2 * (misquoted output chunks).length := by
  constructor
  · rintro ⟨f, hf, hhard⟩
    exact (mem_flags output chunks hf hhard).1
  · intro h
    have hle : (misquoted output chunks).length ≤ output.allItems.length := List.length_filter_le _ _
    have hmajority : output.allItems.length ≠ 0 ∧
        output.allItems.length / 2 < (misquoted output chunks).length := by omega
    exact ⟨_, List.mem_append_left _ (List.mem_append_right _ (mem_flagIf.mpr ⟨hmajority, rfl⟩)), rfl⟩

theorem blocked_iff : (criticAfterExtraction output chunks).overallVerdict = .blocked ↔
    output.allItems.length < 2 * (misquoted output chunks).length := by
  have hquiet : ¬ HardAsksEscalation (criticAfterExtraction output chunks).flags := by
    rintro ⟨f, hf, hhard, hasks⟩
    rw [(mem_flags output chunks hf hhard).2] at hasks
    cases hasks
  rw [← hasHard_iff]
  exact stops_iff.trans (and_iff_left hquiet)

/-- A fabricated citation, or a blank quote, counts for nothing in the critic's majority. -/
theorem blocksMajority_iff : BlocksMajority output chunks ↔ MisquotedDecide output chunks := by
  have hcount := length_ungrounded output chunks
  constructor
  · intro h hmost
    rw [← hcount] at hmost
    exact (blocked_iff output chunks).mp (h.blocked hmost)
  · intro h
    constructor
    · intro hmost
      rw [hcount] at hmost
      exact (blocked_iff output chunks).mpr (h hmost)
    · intro hfew hhard
      have hmost := (hasHard_iff output chunks).mp hhard
      omega

/-- One service level, quoted from a chunk that was never retrieved. -/
def fabricated : ExtractionOutput where
  vendorId := "acme"
  orgId := "o"
  sourceChunkIds := ["c1"]
  slas := [⟨"Guaranteed uptime of 99.99 percent", "c9", ""⟩]
  extractionCompleteness := 1
  hallucinationRisk := 1

theorem fabricated_passes : ¬ ∀ (output : ExtractionOutput) (chunks : Dict ChunkId String),
    BlocksMajority output chunks := by
  intro h
  have hblocked := (h fabricated (Dict.ofPairs [("c1", "We offer support.")])).blocked (by decide +kernel)
  exact absurd hblocked (by decide +kernel)

end RfpPlatform.ExtractionGrounding
