import RfpPlatform.NodeWrites

namespace RfpPlatform.VendorIsolation

open ExceptRules Explanation Extraction NodeWrites PipelineGraph PipelineNodes RunRequests RunState
open TransitionRuns VendorBranches

def RetrievedFor (e : Execution) (v : VendorId) (c : RetrievedChunk) : Prop :=
  ∃ b ∈ branches e.input, b.1 = v ∧ RetrievedBy (e.services.retrieve b) c

def OwnId (e : Execution) (v : VendorId) (cid : ChunkId) : Prop :=
  ∃ c, RetrievedFor e v c ∧ c.chunkId = cid

def OwnChunk (e : Execution) (v : VendorId) (q : ChunkId × String) : Prop :=
  ∃ c, RetrievedFor e v c ∧ c.chunkId = q.1 ∧ c.text = q.2

def IsolatedPrompt (e : Execution) (p : NarrativePrompt) : Prop :=
  ∀ q ∈ p.sourceChunks, OwnChunk e p.vendorId q

def IsolatedNarrative (e : Execution) (n : VendorNarrative) : Prop :=
  ∀ claim ∈ n.groundedClaims, OwnId e n.vendorId claim.sourceChunkId

/-- What the narratives of the graph were written from, and what is left in them. -/
structure Isolated (e : Execution) (c : Config) : Prop where
  prompts : ∀ p ∈ c.prompts, IsolatedPrompt e p
  narratives : ∀ p ∈ c.state.narratives, IsolatedNarrative e p.2

def Sourced (e : Execution) (s : PipelineState) (v : VendorId) : Prop :=
  (∃ extraction, s.extractionOutputs.get? v = some extraction ∧
    (ownChunks extraction s.sourceChunks).rows ≠ []) ∨ ∀ q ∈ s.sourceChunks, OwnChunk e v q

def AllSourced (e : Execution) (s : PipelineState) : Prop :=
  ∀ v ∈ s.evaluationOutputs.keys, Sourced e s v

/-- Narratives are written where every evaluated vendor has chunks of its own. -/
def Admits (e : Execution) (c : Config) : Label → Prop
  | .node .explanationPerVendor _ => AllSourced e c.state
  | _ => True

variable {e : Execution} {c c' : Config} {s : PipelineState} {order : List Branch} {r : NodeResult}
  {n : Node} {l : Label} {ls : List Label} {v : VendorId} {extraction : ExtractionOutput}

end RfpPlatform.VendorIsolation
