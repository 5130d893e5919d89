import MonCTL.Installer.Deploy

/-!
# Deploys that Fail

The projects of a host are applied in the order of their dependencies. A project that fails is
reported, and the loop goes on to the next one.
-/

namespace MonCTL.Installer

open List

/-- A project is planned, and its digest is not in the state. -/
def Changed (s : Setup) (rendered : List RenderedFile) (run : HostRun) (project : String) : Prop :=
  filesOf project rendered ≠ [] ∧ run.priorState.get? project ≠ some (digestOf s rendered project)

/-- The uploads and the compose command of a project. -/
def applying (s : Setup) (host : Host) (rendered : List RenderedFile) (run : HostRun)
    (project : String) : Bool × World :=
  applyProject s.tools host project (filesOf project rendered) s.secretValues run.world

/-- A project is applied: its uploads and its compose command succeed. -/
def Applies (s : Setup) (dryRun : Bool) (host : Host) (rendered : List RenderedFile)
    (run : HostRun) (project : String) : Prop :=
  Changed s rendered run project ∧
    (dryRun = true ∨ (applying s host rendered run project).1 = true)

variable {s : Setup} {dryRun : Bool} {host : Host} {rendered : List RenderedFile} {w : World}
  {run : HostRun} {project : String}

end MonCTL.Installer
