import EventSystemAudit.AuditorExtract
import EventSystemAudit.AuditorValidate

set_option autoImplicit false

/-!
# `run_audit` and `main`

The six phases in their fixed order. The printing of `run_audit` and `print_summary` writes to
standard output and reads nothing back, so the run is the composition of the phases.
-/

namespace EventSystemAudit

/-- `run_audit` on an auditor in state `a`: the auditor after the run; its `results` is what the
    call returns. -/
def runAudit (rt : Runtime) (repo : Repo) (a : Auditor) : Except PyException Auditor := do
  let a ← parseGoStruct rt repo a
  let a ← parseEventTypesEnum rt repo a
  let a ← parseBrunoFiles rt repo a
  let a := validateBrunoPayloads a
  let a ← validateGuidFields a
  validateEventCounts a

/-- `main`: the exit status of one run on a fresh auditor; an uncaught exception exits with 1. -/
def mainExitCode (rt : Runtime) (repo : Repo) : ℕ :=
  match runAudit rt repo .init with
  | .ok a => if a.results.isSuccess then 0 else 1
  | .error _ => 1

end EventSystemAudit
