import ProposalReview.Machine
import ProposalReview.Pattern.Reader
import ProposalReview.Program
/-!
The command line of the program on a machine.
-/

/-- Runs the program on this machine and gives its exit status. -/
def ProposalReview.Machine.runProgram (args : List String) : IO UInt32 := do
  let env : CommandLine.Environment :=
    { workspace := (← IO.getEnv "PIPELINE_WORKSPACE_ID").map Text.encodeString
      policyGateUrl := (← IO.getEnv "PIPELINE_POLICY_GATE_URL").map Text.encodeString }
  let args := args.map Text.encodeString
  let ending ← Program.run Pattern.compile (GateRequest.post exchange) (← now) env args
  IO.print ending.output
  IO.eprint ending.complaint
  pure ending.status.toUInt32

/-- The program. -/
def main (args : List String) : IO UInt32 := ProposalReview.Machine.runProgram args
