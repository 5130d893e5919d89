import Mathlib.Data.List.Sort
import MonCTL.Installer.Planner
import MonCTL.Installer.Secrets

/-!
# Hosts over SSH

The installer puts the rendered files of a project on a host and brings its services up. What it
has applied is kept on the host: the digest of each project in a state file, and a line for each
event in a history.

How each operation ends is given by a series, one outcome after another. A file is replaced by
renaming; where that is not supported the old file is removed first, so that an operation that
fails may leave the old file, the new one, or none.
-/

namespace MonCTL.Installer

open List

open Secrets (Text materialiseEnv)

/-! ### Hosts -/

structure RenderedFile where
  project : String
  filename : String
  content : Text

/-- What becomes of a project. -/
inductive DeployStatus
  | applied
  | unchanged
  | failed
  deriving DecidableEq

/-- A line of the deploy history, less its times and its text. -/
structure HistoryLine where
  host : String
  project : String
  status : DeployStatus
  digest : String
  deriving DecidableEq

/-- What the installer keeps on a host. A state file that is missing or no JSON object is `none`. -/
structure Disk where
  files : String × String → Option Text
  state : Option (Dict String String)
  history : List HistoryLine

/-- How an operation ends. -/
inductive Outcome
  | done
  /-- It fails, and has changed nothing. -/
  | refused
  /-- It is carried out, but fails all the same. -/
  | lost
  /-- It fails after the old file has been removed. -/
  | torn
  deriving DecidableEq

/-- What is there after something has been replaced. -/
def Outcome.replace {α : Type} (old : Option α) (new : α) : Outcome → Option α
  | .done => some new
  | .refused => old
  | .lost => some new
  | .torn => none

/-- A host, and how the operations on it end from now on. -/
structure World where
  disk : Disk
  weather : ℕ → Outcome

namespace World

/-- How the next operation ends. -/
def next (w : World) : Outcome := w.weather 0

/-- After the next operation. -/
def after (w : World) (disk : Disk) : World := ⟨disk, fun n => w.weather (n + 1)⟩

@[simp] theorem after_disk (w : World) (disk : Disk) : (w.after disk).disk = disk := rfl

end World

variable (d : Disk)

/-- A file is put. -/
def Disk.put (path : String × String) (content : Text) (o : Outcome) : Disk :=
  { d with files := fun p => if p = path then o.replace (d.files p) content else d.files p }

def Disk.putState (state : Dict String String) (o : Outcome) : Disk :=
  { d with state := o.replace d.state state }

def Disk.record (line : HistoryLine) : Outcome → Disk
  | .done => { d with history := d.history ++ [line] }
  | .refused => d
  | .lost => { d with history := d.history ++ [line] }
  | .torn => d

@[simp] theorem Disk.record_files (line : HistoryLine) (o : Outcome) :
    (d.record line o).files = d.files := by
  cases o <;> rfl

@[simp] theorem Disk.record_state (line : HistoryLine) (o : Outcome) :
    (d.record line o).state = d.state := by
  cases o <;> rfl

/-! ### Operations -/

/-- What the installer computes with. -/
structure Tools where
  sha256 : Text → String
  /-- The token of a seed and the name of a host. -/
  peerToken : Text → String → Text
  version : String

/-- `_per_host_secret_overrides`. -/
def perHostSecretOverrides (tools : Tools) (host : Host) (secretValues : Dict Text Text) :
    Dict Text Text :=
  let own := (secretValues.get? "PEER_TOKEN_SEED".toList).getD []
  let seed := if own = [] then (secretValues.get? "PEER_TOKEN".toList).getD [] else own
  if seed = [] then secretValues
  else secretValues.set "PEER_TOKEN".toList (tools.peerToken seed host.name)

def materialise (tools : Tools) (host : Host) (secretValues : Dict Text Text) (f : RenderedFile) :
    Text :=
  if f.filename = ".env" then
    materialiseEnv (perHostSecretOverrides tools host secretValues) f.content
  else f.content

/-- Files are put one after another, until one fails. -/
def putFiles (contentOf : RenderedFile → Text) (project : String) :
    List RenderedFile → World → Bool × World
  | [], w => (true, w)
  | f :: fs, w =>
    let w' := w.after (w.disk.put (project, f.filename) (contentOf f) w.next)
    if w.next = .done then putFiles contentOf project fs w' else (false, w')

/-- `_apply_project`, and whether it succeeds: the files are put, and the services are brought up. -/
def applyProject (tools : Tools) (host : Host) (project : String) (files : List RenderedFile)
    (secretValues : Dict Text Text) (w : World) : Bool × World :=
  let r := putFiles (materialise tools host secretValues) project files w
  if r.1 then (r.2.next = .done, r.2.after r.2.disk) else r

/-- `_load_remote_state`: without an answer the state is empty. -/
def loadRemoteState (w : World) : Dict String String × World :=
  (if w.next = .done then w.disk.state.getD [] else [], w.after w.disk)

/-- `_save_remote_state`, and whether it succeeds. -/
def saveRemoteState (tools : Tools) (now : String) (state : Dict String String) (w : World) :
    Bool × World :=
  let payload := (state.set "__installer_version__" tools.version).set "__updated_at__" now
  (w.next = .done, w.after (w.disk.putState payload w.next))

/-- `_hash_project`: the files in the order of their names. The secrets are no part of it. -/
def hashProject (tools : Tools) (files : List RenderedFile) : String :=
  tools.sha256 ((files.insertionSort fun f g => f.filename ≤ g.filename).flatMap fun f =>
    f.filename.toList ++ Char.ofNat 0 :: f.content ++ [Char.ofNat 0])

/-- `PROJECT_ORDER`. -/
def projectOrder : List String :=
  ["postgres", "etcd", "redis", "clickhouse", "clickhouse-keeper", "central", "superset", "haproxy",
    "collector", "docker-stats"]

def filesOf (project : String) (rendered : List RenderedFile) : List RenderedFile :=
  rendered.filter (·.project = project)

/-! ### Applying a project -/

variable {contentOf : RenderedFile → Text} {project : String} {path : String × String}
  {fs : List RenderedFile}

theorem putFiles_ne (hne : ∀ f ∈ fs, path ≠ (project, f.filename)) (w : World) :
    (putFiles contentOf project fs w).2.disk.files path = w.disk.files path := by
  induction fs generalizing w with
  | nil => rfl
  | cons f fs ih =>
    have hput : (w.disk.put (project, f.filename) (contentOf f) w.next).files path =
        w.disk.files path := if_neg (hne f mem_cons_self)
    rw [putFiles]
    split
    · rw [ih fun g hg => hne g (mem_cons_of_mem f hg)]
      exact hput
    · exact hput

theorem putFiles_done (hnodup : (fs.map RenderedFile.filename).Nodup)
    (w : World) (hok : (putFiles contentOf project fs w).1 = true) :
    ∀ f ∈ fs, (putFiles contentOf project fs w).2.disk.files (project, f.filename) =
      some (contentOf f) := by
  induction fs generalizing w with
  | nil => exact fun f hf => absurd hf not_mem_nil
  | cons f fs ih =>
    rw [map_cons, nodup_cons] at hnodup
    rw [putFiles] at hok ⊢
    split at hok
    next hdone =>
      rw [if_pos hdone]
      intro g hg
      rcases List.mem_cons.1 hg with rfl | hg
      · have hne : ∀ h ∈ fs, (project, g.filename) ≠ (project, h.filename) := by
          intro h hh heq
          exact hnodup.1 (List.mem_map.2 ⟨h, hh, (Prod.mk.inj heq).2.symm⟩)
        rw [putFiles_ne hne, hdone]
        exact if_pos rfl
      · exact ih hnodup.2 _ hok g hg
    · cases hok

variable {tools : Tools} {host : Host} {secretValues : Dict Text Text}

theorem applyProject_disk (files : List RenderedFile) (w : World) :
    (applyProject tools host project files secretValues w).2.disk =
      (putFiles (materialise tools host secretValues) project files w).2.disk := by
  rw [applyProject]
  split <;> rfl

theorem applyProject_ne (hne : path.1 ≠ project) (files : List RenderedFile) (w : World) :
    (applyProject tools host project files secretValues w).2.disk.files path =
      w.disk.files path := by
  rw [applyProject_disk]
  refine putFiles_ne (fun f _ heq => hne ?_) w
  rw [heq]

/-- **After success, the files are as they were rendered**, with the secrets. -/
theorem applyProject_done {files : List RenderedFile}
    (hnodup : (files.map RenderedFile.filename).Nodup) (w : World)
    (hok : (applyProject tools host project files secretValues w).1 = true) : ∀ f ∈ files,
      (applyProject tools host project files secretValues w).2.disk.files (project, f.filename) =
        some (materialise tools host secretValues f) := by
  rw [applyProject_disk]
  refine putFiles_done hnodup w ?_
  by_contra hfailed
  rw [applyProject, if_neg hfailed] at hok
  exact hfailed hok

end MonCTL.Installer
