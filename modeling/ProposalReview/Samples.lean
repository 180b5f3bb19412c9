import ProposalReview.Filing.Filesystem
/-!
Sample proposals, for trying a run on an empty inbox. A sample is written only where nothing is.
-/

namespace ProposalReview.Samples

/-- A sample that passes every gate. -/
def passing : String :=
  "# PASS sample\napproval_id: APR-1001\napproved_by: owner_min\n" ++
  "approved_at: 2026-02-28T00:00:00Z\napproval_reason: approved_for_pipeline_pass_sample\n" ++
  "EVIDENCE: command logs attached\nEVAL: goal met\nLEARN: keep this format\n" ++
  "success_rate: 95%\ndrift: 3%\nreproducibility: 100%\nrevenue_usdc: 3.0\ntoken_cost_usdc: 0.5\n"

/-- A sample without most marks. -/
def incomplete : String :=
  "# FAIL sample\napproval_id: APR-1002\nEVIDENCE: exists\nsuccess_rate: 92%\ndrift: 4%\n" ++
  "reproducibility: 100%\n"

/-- A sample with bad figures. -/
def failing : String :=
  "# KPI fail sample\napproval_id: APR-1003\nEVIDENCE: exists\nEVAL: exists\nLEARN: exists\n" ++
  "success_rate: 70%\ndrift: 25%\nreproducibility: 60%\nrevenue_usdc: 2.0\ntoken_cost_usdc: 1.8\n"

/-- The samples with their names, in the order in which they are written. -/
def all : List (String × String) :=
  [("PRJ-PIPELINE-PASS_v1.md", passing), ("PRJ-PIPELINE-FAIL-MISSING_v1.md", incomplete),
   ("PRJ-PIPELINE-FAIL-KPI_v1.md", failing)]

variable {m : Type → Type} [Monad m] [Filesystem m]

/-- Writes the samples of a list that are missing, and counts them. -/
def seedEach (inbox : Path) : List (String × String) → ExceptT StoreError m Nat
  | [] => pure 0
  | (name, text) :: rest => do
    let path := inbox.join (.ofString name)
    if ← (Filesystem.isPresent path : m Bool) then seedEach inbox rest
    else
      Filesystem.attempt .writing path (Filesystem.write path (Text.encodeString text))
      let n ← seedEach inbox rest
      pure (n + 1)

/-- Writes the samples that are missing from the inbox, and counts them. -/
def seed (inbox : Path) : ExceptT StoreError m Nat := do
  Filesystem.attempt .creating inbox (Filesystem.makeDirectories inbox)
  seedEach inbox all

end ProposalReview.Samples
