import MonCTL.Installer.Deploy
import MonCTL.Installer.Upgrade
import MonCTL.Lib.Runs

/-!
# Keys of the Collectors over Runs

Three commands put the env file of a collector: a deploy and an upgrade as it is rendered, with the
key that all collectors share, and a registration with a key of the host's own. A deploy or an
upgrade that applies the project of the collector puts the shared key back.

A run is a series of what the commands do on single hosts; hosts do not depend on each other. Beside
the hosts, the state has the key that was last written on each of them.
-/

namespace MonCTL.Installer.CollectorKeys

open List

open Secrets (Text)

/-- The hosts, and the key that was last written on each of them. -/
structure State where
  disks : String → Disk
  written : String → Option ApiKey

/-- What a command does on a host, and how its operations there end. -/
inductive Command
  | deploy (s : Setup) (dryRun : Bool) (host : Host) (rendered : Rendering) (weather : ℕ → Outcome)
  | upgrade (tools : Tools) (now : String) (host : Host) (rendered : List RenderedFile)
      (secretValues : Dict Text Text) (weather : ℕ → Outcome)
  | register (host : Host) (mint : MintAnswer) (weather : ℕ → Outcome)

variable (s : State)

/-- A host at the beginning of a command. -/
def State.world (host : Host) (weather : ℕ → Outcome) : World :=
  ⟨s.disks host.name, weather⟩

/-- A host after a command. -/
def State.update (host : Host) (disk : Disk) : State :=
  { s with disks := fun name => if name = host.name then disk else s.disks name }

def State.write (host : Host) : Option ApiKey → State
  | none => s
  | some key =>
    { s with written := fun name => if name = host.name then some key else s.written name }

/-- The system. -/
def step : Command → Option State
  | .deploy setup dryRun host rendered weather =>
    some (s.update host
      (deployHost setup dryRun host (rendered.files host) (s.world host weather)).world.disk)
  | .upgrade tools now host rendered secretValues weather =>
    some (s.update host
      (upgradeHost tools now host rendered secretValues (s.world host weather)).2.disk)
  | .register host mint weather =>
    some ((s.update host (registerHost mint (s.world host weather)).2.disk).write host
      (writtenKey mint (s.world host weather)))

/-- The project of the collector is to be applied: it is rendered, and its digest is not in the
state that could be loaded. -/
def CollectorDue (tools : Tools) (rendered : List RenderedFile) (w : World) : Prop :=
  filesOf "collector" rendered ≠ [] ∧ (loadRemoteState w).1.get? "collector" ≠
    some (hashProject tools (filesOf "collector" rendered))
  deriving Decidable

def beforeCollector : List String := projectOrder.takeWhile (· ≠ "collector")

/-- An upgrade gets to the collector: nothing before fails. -/
def ReachesCollector (tools : Tools) (host : Host) (rendered : List RenderedFile)
    (secretValues : Dict Text Text) (w : World) : Prop :=
  (upgradeProjects tools host rendered secretValues beforeCollector (loadRemoteState w).1 false
    (loadRemoteState w).2).1.isSome = true
  deriving Decidable

/-- **The steps that keep the keys**: on a host with a key, the project of the collector is not
applied, and a registration does not lose the env file. -/
def Keeps : Command → Prop
  | .deploy setup dryRun host rendered weather =>
    (s.written host.name).isSome = true → dryRun = true ∨
      ¬CollectorDue setup.tools (rendered.files host) (s.world host weather)
  | .upgrade tools _ host rendered secretValues weather =>
    (s.written host.name).isSome = true → ¬(CollectorDue tools rendered (s.world host weather) ∧
        ReachesCollector tools host rendered secretValues (s.world host weather))
  | .register host mint weather =>
    (s.written host.name).isSome = true → ¬Tears mint (s.world host weather)

instance (s : State) : ∀ c, Decidable (Keeps s c)
  | .deploy .. => inferInstanceAs (Decidable (_ → _))
  | .upgrade .. => inferInstanceAs (Decidable (_ → _))
  | .register .. => inferInstanceAs (Decidable (_ → _))

/-- **The keys are in place**: each host has the one that was last written on it. -/
def KeysInPlace : Prop :=
  ∀ name, ∀ key ∈ s.written name, ∃ env, (s.disks name).files collectorEnvPath = some env ∧
    HoldsKey env key

/-- No key has been written yet. -/
def unregistered (disks : String → Disk) : State := ⟨disks, fun _ => none⟩

/-! ### A project that is not due -/

theorem projectOrder_eq : projectOrder = beforeCollector ++ "collector" :: ["docker-stats"] := by
  decide

theorem deployProject_dry (setup : Setup) (host : Host) (rendered : List RenderedFile)
    (run : HostRun) (project : String) :
    (deployProject setup true host rendered run project).world.disk = run.world.disk := by
  rw [deployProject]
  dsimp only
  split
  · rfl
  · split
    · rfl
    · rfl

theorem foldl_dry (setup : Setup) (host : Host) (rendered : List RenderedFile)
    (projects : List String) (run : HostRun) :
    (projects.foldl (deployProject setup true host rendered) run).world.disk = run.world.disk := by
  induction projects generalizing run with
  | nil => rfl
  | cons project projects ih => rw [foldl_cons, ih, deployProject_dry]

/-- **A deploy leaves the env file alone if the collector is not due.** -/
theorem deployHost_env {setup : Setup} {dryRun : Bool} {host : Host} {rendered : Rendering}
    {w : World} (hnot : dryRun = true ∨ ¬CollectorDue setup.tools (rendered.files host) w) :
    (deployHost setup dryRun host (rendered.files host) w).world.disk.files collectorEnvPath =
      w.disk.files collectorEnvPath := by
  cases dryRun with
  | true =>
    rw [deployHost, foldl_dry]
    rfl
  | false =>
    have hnot : ¬CollectorDue setup.tools (rendered.files host) w :=
      hnot.resolve_left Bool.false_ne_true
    have hran (projects : List String) (hnodup : projects.Nodup) (run : HostRun) :
        ∃ new, Ran setup false host (rendered.files host) projects run
          (projects.foldl (deployProject setup false host (rendered.files host)) run) new :=
      ran_foldl (rendered.distinct host) hnodup run
    rw [deployHost, projectOrder_eq, foldl_append, foldl_cons]
    generalize hfirst : beforeCollector.foldl
      (deployProject setup false host (rendered.files host)) _ = run
    obtain ⟨new, hbefore⟩ := hran beforeCollector (by decide) ⟨(loadRemoteState w).2, (loadRemoteState w).1, []⟩
    rw [hfirst] at hbefore
    have hmiddle : (deployProject setup false host (rendered.files host) run
        "collector").world.disk.files = run.world.disk.files := by
      rw [deployProject]
      dsimp only
      split
      · rfl
      next hsome =>
        split
        · exact recordDeployEvent_files _ _
        next hdiffers =>
          rw [hbefore.state "collector" (by decide)] at hdiffers
          exact absurd ⟨hsome, hdiffers⟩ hnot
    obtain ⟨new', hafter⟩ := hran ["docker-stats"] (by decide)
      (deployProject setup false host (rendered.files host) run "collector")
    rw [hafter.files collectorEnvPath (by decide), hmiddle,
      hbefore.files collectorEnvPath (by decide)]
    rfl

section

variable {tools : Tools} {host : Host} {rendered : List RenderedFile}
  {secretValues : Dict Text Text}

theorem upgradeProjects_ne {projects : List String} {path : String × String}
    (hpath : path.1 ∉ projects) (state : Dict String String) (changedAny : Bool) (w : World) :
    (upgradeProjects tools host rendered secretValues projects state changedAny
        w).2.disk.files path = w.disk.files path ∧
      ∀ state' changed', (upgradeProjects tools host rendered secretValues projects state changedAny
          w).1 = some (state', changed') → state'.get? path.1 = state.get? path.1 := by
  induction projects generalizing state changedAny w with
  | nil =>
    refine ⟨rfl, fun state' changed' h => ?_⟩
    cases h
    rfl
  | cons project projects ih =>
    rw [mem_cons, not_or] at hpath
    rw [upgradeProjects]
    dsimp only
    split
    · exact ih hpath.2 state changedAny w
    · split
      · obtain ⟨hfiles, hstate⟩ := ih hpath.2
          (state.set project (hashProject tools (filesOf project rendered))) true
          (applyProject tools host project (filesOf project rendered) secretValues w).2
        rw [hfiles, applyProject_ne hpath.1]
        refine ⟨rfl, fun state' changed' h => ?_⟩
        rw [hstate state' changed' h, Dict.get?_set, if_neg hpath.1]
      · refine ⟨applyProject_ne hpath.1 _ w, fun state' changed' h => ?_⟩
        cases h

theorem upgradeProjects_append (projects projects' : List String) (state : Dict String String)
    (changedAny : Bool) (w : World) :
    upgradeProjects tools host rendered secretValues (projects ++ projects') state changedAny w =
      match upgradeProjects tools host rendered secretValues projects state changedAny w with
      | (none, w') => (none, w')
      | (some (state', changed'), w') =>
        upgradeProjects tools host rendered secretValues projects' state' changed' w' := by
  induction projects generalizing state changedAny w with
  | nil => rfl
  | cons project projects ih =>
    rw [cons_append, upgradeProjects, upgradeProjects]
    dsimp only
    split
    · exact ih state changedAny w
    · split
      · exact ih _ true _
      · rfl

/-- **An upgrade leaves the env file alone if it does not apply the collector.** -/
theorem upgradeHost_env {now : String} {w : World} (hnot : ¬(CollectorDue tools rendered w ∧
      ReachesCollector tools host rendered secretValues w)) :
    (upgradeHost tools now host rendered secretValues w).2.disk.files collectorEnvPath =
      w.disk.files collectorEnvPath := by
  have hprojects : (upgradeProjects tools host rendered secretValues projectOrder
      (loadRemoteState w).1 false (loadRemoteState w).2).2.disk.files collectorEnvPath =
        w.disk.files collectorEnvPath := by
    have hapart : collectorEnvPath.1 ∉ beforeCollector := by decide
    have hapart' : collectorEnvPath.1 ∉ ["docker-stats"] := by decide
    obtain ⟨hfiles, hstate⟩ :
        (upgradeProjects tools host rendered secretValues beforeCollector (loadRemoteState w).1 false
          (loadRemoteState w).2).2.disk.files collectorEnvPath = w.disk.files collectorEnvPath ∧ _ :=
      upgradeProjects_ne hapart (loadRemoteState w).1 false (loadRemoteState w).2
    rw [projectOrder_eq, upgradeProjects_append]
    rw [ReachesCollector] at hnot
    generalize upgradeProjects tools host rendered secretValues beforeCollector
      (loadRemoteState w).1 false (loadRemoteState w).2 = r at hfiles hstate hnot ⊢
    obtain ⟨result, w'⟩ := r
    cases result with
    | none => exact hfiles
    | some result =>
      obtain ⟨state, changedAny⟩ := result
      have hskipped : filesOf "collector" rendered = [] ∨
          state.get? "collector" = some (hashProject tools (filesOf "collector" rendered)) := by
        by_contra hdue
        rw [not_or] at hdue
        refine hnot ⟨⟨hdue.1, ?_⟩, rfl⟩
        rw [← show state.get? "collector" = (loadRemoteState w).1.get? "collector" from
          hstate state changedAny rfl]
        exact hdue.2
      dsimp only
      rw [upgradeProjects, if_pos hskipped, (upgradeProjects_ne hapart' state changedAny w').1]
      exact hfiles
  rw [upgradeHost]
  split
  next heq =>
    rw [heq] at hprojects
    exact hprojects
  next heq =>
    rw [heq] at hprojects
    exact hprojects
  next heq =>
    rw [heq] at hprojects
    exact hprojects

end

/-! ### Runs -/

theorem KeysInPlace.update {s : State} (h : KeysInPlace s) {host : Host} {disk : Disk}
    (hsame : (s.written host.name).isSome = true →
      disk.files collectorEnvPath = (s.disks host.name).files collectorEnvPath) :
    KeysInPlace (s.update host disk) := by
  intro name key hkey
  have hkey : s.written name = some key := hkey
  obtain ⟨env, henv, hholds⟩ := h name key hkey
  refine ⟨env, ?_, hholds⟩
  rw [State.update]
  dsimp only
  split
  next hname =>
    rw [hname] at hkey henv
    rw [hsame (by rw [hkey]; rfl), henv]
  · exact henv

/-- **A step that keeps the keys leaves them in place.** -/
theorem KeysInPlace.step {s s' : State} {c : Command} (h : KeysInPlace s) (hkeeps : Keeps s c)
    (hstep : step s c = some s') : KeysInPlace s' := by
  cases c with
  | deploy setup dryRun host rendered weather =>
    cases hstep
    exact h.update fun hwritten => deployHost_env (hkeeps hwritten)
  | upgrade tools now host rendered secretValues weather =>
    cases hstep
    exact h.update fun hwritten => upgradeHost_env (hkeeps hwritten)
  | register host mint weather =>
    cases hstep
    cases hkey : writtenKey mint (s.world host weather) with
    | none => exact h.update fun hwritten => registerHost_not_written hkey (hkeeps hwritten)
    | some minted =>
      intro name key hmem
      by_cases hname : name = host.name
      · have hmem : (if name = host.name then some minted else s.written name) = some key := hmem
        rw [if_pos hname] at hmem
        cases hmem
        obtain ⟨env, henv, hholds⟩ := registerHost_written hkey
        exact ⟨env, (congrFun (congrArg Disk.files (if_pos hname)) _).trans henv, hholds⟩
      · have hmem : (if name = host.name then some minted else s.written name) = some key := hmem
        rw [if_neg hname] at hmem
        obtain ⟨env, henv, hholds⟩ := h name key hmem
        exact ⟨env, (congrFun (congrArg Disk.files (if_neg hname)) _).trans henv, hholds⟩

/-- **Keys stay in place.** -/
theorem keysInPlace (disks : String → Disk) {s : State}
    (h : Run step Keeps (unregistered disks) s) : KeysInPlace s := by
  refine h.invariant (I := KeysInPlace) (fun name key hkey => ?_)
    fun hinv hkeeps hstep => hinv.step hkeeps hstep
  cases hkey

def collectorHost : Host := ⟨"a", "10.0.0.1", [.collector]⟩

def collectorFiles (tag : String) : List RenderedFile :=
  [⟨"collector", "docker-compose.yml", tag.toList⟩,
    ⟨"collector", ".env", "MONCTL_COLLECTOR_API_KEY=${MONCTL_COLLECTOR_API_KEY}\n".toList⟩]

def collectorRendering : Rendering where
  files _ := collectorFiles "latest"
  distinct _ := by decide

/-- The secrets have a key that all collectors share. -/
def sharedSetup : Setup where
  tools := ⟨String.ofList, fun seed _ => seed, "1.0.0"⟩
  now := "now"
  secretValues := [("MONCTL_COLLECTOR_API_KEY".toList, "shared".toList)]

/-- The key that central mints for the host. -/
def ownKey : ApiKey := ⟨"own".toList, List.all_eq_true.1 (by decide)⟩

/-- Nothing fails. -/
def calm : ℕ → Outcome := fun _ => .done

/-- A deploy, and the registration after it. -/
def installed : List Command :=
  [.deploy sharedSetup false collectorHost collectorRendering calm,
    .register collectorHost (.response (some ownKey)) calm]

/-- Nothing is there yet. -/
def emptyDisks : String → Disk := fun _ => ⟨fun _ => none, none, []⟩

theorem keysInPlace_redeploy : ∃ s : State, (s.written "a").isSome = true ∧ KeysInPlace s := by
  have h : ∃ s ∈ replay step Keeps (unregistered emptyDisks)
      (installed ++ [.deploy sharedSetup false collectorHost collectorRendering calm]),
        (s.written "a").isSome = true := by
    decide +kernel
  obtain ⟨s, hs, hwritten⟩ := h
  exact ⟨s, hwritten, keysInPlace emptyDisks (run_of_replay hs)⟩

/-- **The shared key is back**: an upgrade with another image tag applies the collector again. -/
theorem not_keysInPlace_upgrade : ∃ s : State,
    Run step (fun _ _ => True) (unregistered emptyDisks) s ∧ ¬KeysInPlace s := by
  have h : ∃ s ∈ replay step (fun _ _ => True) (unregistered emptyDisks)
      (installed ++ [.upgrade sharedSetup.tools "later" collectorHost (collectorFiles "v2")
        sharedSetup.secretValues calm]),
        ((s.written "a").map ApiKey.text = some "own".toList) ∧
          (s.disks "a").files collectorEnvPath =
            some "MONCTL_COLLECTOR_API_KEY=shared\n".toList := by
    decide +kernel
  obtain ⟨s, hs, hwritten, hshared⟩ := h
  refine ⟨s, run_of_replay hs, fun hkeys => ?_⟩
  obtain ⟨key, hkey, htext⟩ := Option.map_eq_some_iff.1 hwritten
  obtain ⟨env, henv, hholds⟩ := hkeys "a" key hkey
  rw [hshared] at henv
  cases henv
  rw [HoldsKey, htext] at hholds
  exact absurd hholds (by decide +kernel)

end MonCTL.Installer.CollectorKeys
