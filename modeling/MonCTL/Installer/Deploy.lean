import MonCTL.Installer.Register

/-!
# Deploys

A deploy goes through the projects of each host. A project whose digest is in the state of the host
is left alone; any other is applied, and its digest is saved. What becomes of each project is
recorded in the history of the host. Hosts do not depend on each other, so that it does not matter
which of them are deployed at the same time. In the end the collectors get keys of their own.

The digest is that of the rendered files before the secrets are filled in. So a project is left alone
also after a secret has changed, or after a file has been edited on the host.
-/

namespace MonCTL.Installer

open List

open Secrets (Text)

/-! ### One host -/

structure DeployOutcome where
  host : String
  project : String
  status : DeployStatus
  deriving DecidableEq

/-- What a deploy is given: its tools, the time, and the secrets. -/
structure Setup where
  tools : Tools
  now : String
  secretValues : Dict Text Text

/-- A host during a deploy. -/
structure HostRun where
  world : World
  priorState : Dict String String
  outcomes : List DeployOutcome

/-- `_record_deploy_event`. -/
def recordDeployEvent (dryRun : Bool) (line : HistoryLine) (w : World) : World :=
  if dryRun then w else w.after (w.disk.record line w.next)

/-- An outcome is reported, and recorded. -/
def report (dryRun : Bool) (host : Host) (project digest : String) (status : DeployStatus)
    (run : HostRun) : HostRun :=
  let sha := String.ofList (digest.toList.take 12)
  { run with
    world := recordDeployEvent dryRun ⟨host.name, project, status, sha⟩ run.world
    outcomes := run.outcomes ++ [⟨host.name, project, status⟩] }

/-- A project in the loop of `_deploy_host`. -/
def deployProject (s : Setup) (dryRun : Bool) (host : Host) (rendered : List RenderedFile)
    (run : HostRun) (project : String) : HostRun :=
  let pf := filesOf project rendered
  let digest := hashProject s.tools pf
  if pf = [] then run
  else if run.priorState.get? project = some digest then
    report dryRun host project digest .unchanged run
  else if dryRun then report dryRun host project digest .applied run
  else
    let applied := applyProject s.tools host project pf s.secretValues run.world
    if applied.1 then
      let state := run.priorState.set project digest
      let saved := saveRemoteState s.tools s.now state applied.2
      report dryRun host project digest (if saved.1 then .applied else .failed)
        { run with world := saved.2, priorState := state }
    else report dryRun host project digest .failed { run with world := applied.2 }

/-- `_deploy_host`. -/
def deployHost (s : Setup) (dryRun : Bool) (host : Host) (rendered : List RenderedFile)
    (w : World) : HostRun :=
  let loaded := loadRemoteState w
  projectOrder.foldl (deployProject s dryRun host rendered) ⟨loaded.2, loaded.1, []⟩

/-! ### A cluster -/

/-- The hosts by their names. -/
abbrev Cluster := String → World

/-- What is rendered for each host: no file comes twice. -/
structure Rendering where
  files : Host → List RenderedFile
  distinct : ∀ h, ((files h).map fun f => (f.project, f.filename)).Nodup

/-- The loop over the hosts. -/
def deployHosts (s : Setup) (dryRun : Bool) (inv : Inventory) (rendered : Rendering)
    (cluster : Cluster) : List DeployOutcome × Cluster :=
  (inv.hosts.flatMap fun h =>
      (deployHost s dryRun h (rendered.files h) (cluster h.name)).outcomes,
    fun name =>
      match inv.hosts.find? (·.name = name) with
      | some h => (deployHost s dryRun h (rendered.files h) (cluster name)).world
      | none => cluster name)

/-- What comes back from a login. -/
inductive LoginAnswer
  | httpError
  | noCookie
  | cookie

/-- What central answers during a registration. -/
structure CentralApi where
  login : LoginAnswer
  mint : String → MintAnswer

/-- Why no registration is started. A failed request is not handled by `deploy`. -/
inductive RegisterFailure
  | httpError
  | adminPassword
  | noCentral
  | noCookie

/-- The loop of `register_collectors`. -/
def registerHosts (mint : String → MintAnswer) :
    List Host → Cluster → List (String × RegisterStatus) × Cluster
  | [], cluster => ([], cluster)
  | h :: hs, cluster =>
    if h.hasRole .collector then
      let r := registerHost (mint h.name) (cluster h.name)
      let rest := registerHosts mint hs fun name => if name = h.name then r.2 else cluster name
      ((h.name, r.1) :: rest.1, rest.2)
    else registerHosts mint hs cluster

/-- `register_collectors`. -/
def registerCollectors (inv : Inventory) (secretValues : Dict Text Text) (central : CentralApi)
    (cluster : Cluster) : Except RegisterFailure (List (String × RegisterStatus)) × Cluster :=
  if (secretValues.get? "MONCTL_ADMIN_PASSWORD".toList).getD [] = [] then
    (.error .adminPassword, cluster)
  else if !inv.hasVip ∧ inv.hostsWith .central = [] then (.error .noCentral, cluster)
  else
    match central.login with
    | .httpError => (.error .httpError, cluster)
    | .noCookie => (.error .noCookie, cluster)
    | .cookie =>
      let r := registerHosts central.mint inv.hosts cluster
      (.ok r.1, r.2)

/-- `_status_map`. -/
def statusOf : RegisterStatus → DeployStatus
  | .registered => .applied
  | .skipped => .unchanged
  | .failed => .failed

/-- `_post_step_register_collectors`: its outcomes, unless the request to log in has failed. -/
def postStepRegisterCollectors (inv : Inventory) (secretValues : Dict Text Text)
    (central : CentralApi) (cluster : Cluster) : Option (List DeployOutcome) × Cluster :=
  match registerCollectors inv secretValues central cluster with
  | (.ok results, cluster') =>
    (some (results.map fun r => ⟨r.1, "register-collectors", statusOf r.2⟩), cluster')
  | (.error .httpError, cluster') => (none, cluster')
  | (.error _, cluster') => (some [⟨"<cluster>", "register-collectors", .failed⟩], cluster')

/-- `deploy`: its outcomes, unless it ends with an error. -/
def deploy (s : Setup) (dryRun registering : Bool) (inv : Inventory) (rendered : Rendering)
    (central : CentralApi) (cluster : Cluster) : Option (List DeployOutcome) × Cluster :=
  let loop := deployHosts s dryRun inv rendered cluster
  let collectorOutcomes := loop.1.filter fun o => o.project = "collector" ∧ o.status ≠ .failed
  if registering ∧ !dryRun ∧ collectorOutcomes ≠ [] then
    let post := postStepRegisterCollectors inv s.secretValues central loop.2
    (post.1.map (loop.1 ++ ·), post.2)
  else (some loop.1, loop.2)

/-! ### What the loop does -/

section

variable {s : Setup} {dryRun : Bool} {host : Host} {rendered : List RenderedFile}
  {project : String} {projects : List String}

def digestOf (s : Setup) (rendered : List RenderedFile) (project : String) : String :=
  hashProject s.tools (filesOf project rendered)

/-- **What a series of projects does** to a host, with the outcomes that are added: a project is
unchanged if and only if its digest is in the state, and its files are left alone then; if it is
applied its files are as they are rendered; and everything else stays as it is. -/
structure Ran (s : Setup) (dryRun : Bool) (host : Host) (rendered : List RenderedFile)
    (projects : List String) (run run' : HostRun) (new : List DeployOutcome) : Prop where
  outcomes : run'.outcomes = run.outcomes ++ new
  hosts : ∀ o ∈ new, o.host = host.name
  within : ∀ o ∈ new, o.project ∈ projects
  unchanged : ∀ o ∈ new, o.status = .unchanged ↔
    run.priorState.get? o.project = some (digestOf s rendered o.project)
  kept : ∀ o ∈ new, o.status = .unchanged → ∀ filename,
    run'.world.disk.files (o.project, filename) = run.world.disk.files (o.project, filename)
  applied : ∀ o ∈ new, o.status = .applied → dryRun = false →
    ∀ f ∈ filesOf o.project rendered, run'.world.disk.files (o.project, f.filename) =
      some (materialise s.tools host s.secretValues f)
  files : ∀ path, path.1 ∉ projects → run'.world.disk.files path = run.world.disk.files path
  state : ∀ k, k ∉ projects → run'.priorState.get? k = run.priorState.get? k

@[simp] theorem recordDeployEvent_files (line : HistoryLine) (w : World) :
    (recordDeployEvent dryRun line w).disk.files = w.disk.files := by
  rw [recordDeployEvent]
  split
  · rfl
  · exact Disk.record_files _ _ _

@[simp] theorem recordDeployEvent_state (line : HistoryLine) (w : World) :
    (recordDeployEvent dryRun line w).disk.state = w.disk.state := by
  rw [recordDeployEvent]
  split
  · rfl
  · exact Disk.record_state _ _ _

@[simp] theorem saveRemoteState_files (tools : Tools) (now : String) (state : Dict String String)
    (w : World) : (saveRemoteState tools now state w).2.disk.files = w.disk.files := rfl

theorem Ran.refl (run : HostRun) : Ran s dryRun host rendered projects run run [] where
  outcomes := (append_nil _).symm
  hosts _ h := absurd h not_mem_nil
  within _ h := absurd h not_mem_nil
  unchanged _ h := absurd h not_mem_nil
  kept _ h := absurd h not_mem_nil
  applied _ h := absurd h not_mem_nil
  files _ _ := rfl
  state _ _ := rfl

variable {run : HostRun}

theorem Ran.single {run' : HostRun} {status : DeployStatus}
    (houtcomes : run'.outcomes = run.outcomes ++ [⟨host.name, project, status⟩])
    (hunchanged : status = .unchanged ↔
      run.priorState.get? project = some (digestOf s rendered project))
    (hkept : status = .unchanged → run'.world.disk.files = run.world.disk.files)
    (happlied : status = .applied → dryRun = false → ∀ f ∈ filesOf project rendered,
      run'.world.disk.files (project, f.filename) = some
      (materialise s.tools host s.secretValues f))
    (hfiles : ∀ path, path.1 ≠ project →
      run'.world.disk.files path = run.world.disk.files path)
    (hstate : ∀ k, k ≠ project → run'.priorState.get? k = run.priorState.get? k) :
    Ran s dryRun host rendered [project] run run' [⟨host.name, project, status⟩] where
  outcomes := houtcomes
  hosts o ho := by rw [List.mem_singleton.1 ho]
  within o ho := by
    rw [List.mem_singleton.1 ho]
    exact mem_singleton_self project
  unchanged o ho := by
    rw [List.mem_singleton.1 ho]
    exact hunchanged
  kept o ho := by
    rw [List.mem_singleton.1 ho]
    exact fun hstatus filename => congrFun (hkept hstatus) _
  applied o ho := by
    rw [List.mem_singleton.1 ho]
    exact happlied
  files path hpath := hfiles path fun heq => hpath (heq ▸ mem_singleton_self _)
  state k hk := hstate k fun heq => hk (heq ▸ mem_singleton_self _)

theorem ran_deployProject
    (hnodup : ((filesOf project rendered).map RenderedFile.filename).Nodup) (run : HostRun) :
    ∃ new, Ran s dryRun host rendered [project] run
      (deployProject s dryRun host rendered run project) new := by
  rw [deployProject]
  dsimp only
  split
  · exact ⟨[], Ran.refl run⟩
  · split
    next hsame =>
      exact ⟨_, Ran.single rfl (iff_of_true rfl hsame) (fun _ => recordDeployEvent_files _ _)
        (fun h => by cases h) (fun path _ => congrFun (recordDeployEvent_files _ _) path)
        fun _ _ => rfl⟩
    next hdiffers =>
      split
      next hdry =>
        exact ⟨_, Ran.single rfl (iff_of_false (by decide) hdiffers) (fun h => by cases h)
          (fun _ hreal => by rw [hdry] at hreal; cases hreal)
          (fun path _ => congrFun (recordDeployEvent_files _ _) path) fun _ _ => rfl⟩
      · split
        next hok =>
          refine ⟨_, Ran.single rfl (iff_of_false ?_ hdiffers) ?_ (fun _ _ f hf => ?_)
            (fun path hpath => ?_) fun k hk => ?_⟩
          · split <;> decide
          · split <;> exact fun h => by cases h
          · rw [report]
            dsimp only
            rw [recordDeployEvent_files, saveRemoteState_files]
            exact applyProject_done hnodup run.world hok f hf
          · rw [report]
            dsimp only
            rw [recordDeployEvent_files, saveRemoteState_files]
            exact applyProject_ne hpath _ run.world
          · rw [report]
            dsimp only
            rw [Dict.get?_set, if_neg hk]
        · refine ⟨_, Ran.single rfl (iff_of_false (by decide) hdiffers) (fun h => by cases h)
            (fun h => by cases h) (fun path hpath => ?_) fun _ _ => rfl⟩
          rw [report]
          dsimp only
          rw [recordDeployEvent_files]
          exact applyProject_ne hpath _ run.world

theorem Ran.cons {run₁ run' : HostRun} {new new' : List DeployOutcome}
    (h : Ran s dryRun host rendered [project] run run₁ new)
    (h' : Ran s dryRun host rendered projects run₁ run' new') (hnew : project ∉ projects) :
    Ran s dryRun host rendered (project :: projects) run run' (new ++ new') where
  outcomes := by rw [h'.outcomes, h.outcomes, append_assoc]
  hosts o ho := (List.mem_append.1 ho).elim (h.hosts o) (h'.hosts o)
  within o ho := by
    rcases List.mem_append.1 ho with ho | ho
    · rw [List.mem_singleton.1 (h.within o ho)]
      exact mem_cons_self
    · exact mem_cons_of_mem project (h'.within o ho)
  unchanged o ho := by
    rcases List.mem_append.1 ho with ho | ho
    · exact h.unchanged o ho
    · have hne : o.project ∉ [project] := fun heq =>
        hnew (List.mem_singleton.1 heq ▸ h'.within o ho)
      rw [h'.unchanged o ho, h.state _ hne]
  kept o ho hstatus filename := by
    rcases List.mem_append.1 ho with ho | ho
    · have hin := List.mem_singleton.1 (h.within o ho)
      rw [h'.files _ (hin ▸ hnew), h.kept o ho hstatus]
    · have hne : o.project ∉ [project] := fun heq =>
        hnew (List.mem_singleton.1 heq ▸ h'.within o ho)
      rw [h'.kept o ho hstatus, h.files _ hne]
  applied o ho hstatus hreal f hf := by
    rcases List.mem_append.1 ho with ho | ho
    · have hin := List.mem_singleton.1 (h.within o ho)
      rw [h'.files _ (hin ▸ hnew)]
      exact h.applied o ho hstatus hreal f hf
    · exact h'.applied o ho hstatus hreal f hf
  files path hpath := by
    rw [mem_cons, not_or] at hpath
    rw [h'.files path hpath.2, h.files path (by simpa using hpath.1)]
  state k hk := by
    rw [mem_cons, not_or] at hk
    rw [h'.state k hk.2, h.state k (by simpa using hk.1)]

theorem nodup_filesOf (hdistinct : (rendered.map fun f => (f.project, f.filename)).Nodup)
    (project : String) : ((filesOf project rendered).map RenderedFile.filename).Nodup := by
  have hsublist : ((filesOf project rendered).map fun f => (f.project, f.filename)).Nodup :=
    hdistinct.sublist (List.filter_sublist.map _)
  have hsame : ((filesOf project rendered).map fun f => (f.project, f.filename)) =
      ((filesOf project rendered).map RenderedFile.filename).map (project, ·) := by
    rw [map_map]
    refine map_congr_left fun f hf => ?_
    rw [Function.comp_apply, of_decide_eq_true (List.mem_filter.1 hf).2]
  rw [hsame] at hsublist
  exact List.Nodup.of_map _ hsublist

/-- **The loop over the projects of a host.** -/
theorem ran_foldl (hdistinct : (rendered.map fun f => (f.project, f.filename)).Nodup)
    (hprojects : projects.Nodup) (run : HostRun) : ∃ new, Ran s dryRun host rendered projects run
      (projects.foldl (deployProject s dryRun host rendered) run) new := by
  induction projects generalizing run with
  | nil => exact ⟨[], Ran.refl run⟩
  | cons project projects ih =>
    rw [nodup_cons] at hprojects
    obtain ⟨new, hran⟩ : ∃ new, Ran s dryRun host rendered [project] run
        (deployProject s dryRun host rendered run project) new :=
      ran_deployProject (nodup_filesOf hdistinct project) run
    obtain ⟨new', hran'⟩ := ih hprojects.2 (deployProject s dryRun host rendered run project)
    exact ⟨new ++ new', hran.cons hran' hprojects.1⟩

/-! ### Saved digests -/

/-- The names that a saved state adds. -/
def stateKeys : List String := ["__installer_version__", "__updated_at__"]

/-- The state in memory is the one on the host, or it is still empty. -/
def Synced (run : HostRun) : Prop :=
  (∀ k, k ∉ stateKeys → run.priorState.get? k = (run.world.disk.state.getD []).get? k) ∨
    run.priorState = []

/-- **A project that does not fail has its digest saved.** -/
theorem synced_deployProject (hsynced : Synced run)
    (hok : ∀ o ∈ (deployProject s false host rendered run project).outcomes, o.status ≠ .failed) :
    Synced (deployProject s false host rendered run project) ∧
      (filesOf project rendered ≠ [] →
        (deployProject s false host rendered run project).priorState.get? project =
          some (digestOf s rendered project)) := by
  have hreport : ∀ (digest : String) (status : DeployStatus) (r : HostRun),
      (∀ o ∈ (report false host project digest status r).outcomes, o.status ≠ .failed) →
        status ≠ .failed := by
    intro digest status r hall
    exact hall ⟨host.name, project, status⟩ (mem_append_right _ mem_cons_self)
  rw [deployProject] at hok ⊢
  dsimp only at hok ⊢
  split at hok
  next hnone =>
    rw [if_pos hnone]
    exact ⟨hsynced, fun hsome => absurd hnone hsome⟩
  next hsome =>
    rw [if_neg hsome]
    split at hok
    next hsame =>
      rw [if_pos hsame]
      refine ⟨hsynced.imp_left fun heq k hk => ?_, fun _ => hsame⟩
      rw [report]
      dsimp only
      rw [recordDeployEvent_state, heq k hk]
    next hdiffers =>
      rw [if_neg hdiffers, if_neg Bool.false_ne_true]
      rw [if_neg Bool.false_ne_true] at hok
      split at hok
      next happlied =>
        rw [if_pos happlied]
        have hsaved := hreport _ _ _ hok
        split at hsaved
        next hdone =>
          rw [saveRemoteState, decide_eq_true_eq] at hdone
          refine ⟨.inl fun k hk => ?_, fun _ => ?_⟩
          · rw [stateKeys, mem_cons, mem_singleton, not_or] at hk
            rw [report]
            dsimp only
            rw [recordDeployEvent_state, saveRemoteState]
            dsimp only [World.after_disk, Disk.putState]
            rw [hdone, Outcome.replace, Option.getD_some]
            refine Eq.symm ?_
            rw [Dict.get?_set, if_neg hk.2, Dict.get?_set, if_neg hk.1]
          · rw [report]
            dsimp only
            rw [Dict.get?_set, if_pos rfl]
            rfl
        · exact absurd rfl hsaved
      · exact absurd rfl (hreport _ _ _ hok)

/-- **Without a failure, all digests are saved.** -/
theorem synced_foldl (hdistinct : (rendered.map fun f => (f.project, f.filename)).Nodup)
    (hprojects : projects.Nodup) (hsynced : Synced run)
    (hok : ∀ o ∈ (projects.foldl (deployProject s false host rendered) run).outcomes,
      o.status ≠ .failed) : Synced (projects.foldl (deployProject s false host rendered) run) ∧
      ∀ p ∈ projects, filesOf p rendered ≠ [] →
        (projects.foldl (deployProject s false host rendered) run).priorState.get? p =
          some (digestOf s rendered p) := by
  induction projects generalizing run with
  | nil => exact ⟨hsynced, fun p hp => absurd hp not_mem_nil⟩
  | cons project projects ih =>
    rw [nodup_cons] at hprojects
    rw [foldl_cons] at hok ⊢
    obtain ⟨new, hran⟩ : ∃ new, Ran s false host rendered projects
        (deployProject s false host rendered run project)
        (projects.foldl (deployProject s false host rendered)
          (deployProject s false host rendered run project)) new :=
      ran_foldl hdistinct hprojects.2 _
    have hfirst := synced_deployProject hsynced fun o ho => hok o (by
      rw [hran.outcomes]
      exact mem_append_left new ho)
    obtain ⟨hsynced', hrest⟩ := ih hprojects.2 hfirst.1 hok
    refine ⟨hsynced', fun p hp hsome => ?_⟩
    rcases List.mem_cons.1 hp with rfl | hp
    · rw [hran.state p hprojects.1]
      exact hfirst.2 hsome
    · exact hrest p hp hsome

/-- Only the history grows, by projects that are unchanged. -/
structure OnlyRecords (d d' : Disk) : Prop where
  files : d'.files = d.files
  state : d'.state = d.state
  history : ∃ lines, d'.history = d.history ++ lines ∧ ∀ l ∈ lines, l.status = .unchanged

theorem OnlyRecords.refl (d : Disk) : OnlyRecords d d :=
  ⟨rfl, rfl, [], (append_nil _).symm, fun _ hl => absurd hl not_mem_nil⟩

theorem OnlyRecords.trans {d₁ d₂ d₃ : Disk} (h : OnlyRecords d₁ d₂) (h' : OnlyRecords d₂ d₃) :
    OnlyRecords d₁ d₃ := by
  obtain ⟨lines, hlines, hall⟩ := h.history
  obtain ⟨lines', hlines', hall'⟩ := h'.history
  refine ⟨h'.files.trans h.files, h'.state.trans h.state, lines ++ lines', ?_, fun l hl => ?_⟩
  · rw [hlines', hlines, append_assoc]
  · exact (List.mem_append.1 hl).elim (hall l) (hall' l)

theorem onlyRecords_record {digest : String} (w : World) : OnlyRecords w.disk
      (recordDeployEvent false ⟨host.name, project, .unchanged, digest⟩ w).disk := by
  have hline : ∀ l ∈ [(⟨host.name, project, .unchanged, digest⟩ : HistoryLine)],
      l.status = .unchanged := by
    intro l hl
    rw [List.mem_singleton.1 hl]
  rw [recordDeployEvent, if_neg Bool.false_ne_true, World.after_disk]
  cases w.next with
  | done => exact ⟨rfl, rfl, _, rfl, hline⟩
  | refused => exact OnlyRecords.refl _
  | lost => exact ⟨rfl, rfl, _, rfl, hline⟩
  | torn => exact OnlyRecords.refl _

/-- **When all digests are there, nothing is done.** -/
theorem settled_foldl (hthere : ∀ p ∈ projects, filesOf p rendered ≠ [] →
      run.priorState.get? p = some (digestOf s rendered p))
    (hunchanged : ∀ o ∈ run.outcomes, o.status = .unchanged) :
    (∀ o ∈ (projects.foldl (deployProject s false host rendered) run).outcomes,
        o.status = .unchanged) ∧
      OnlyRecords run.world.disk
        (projects.foldl (deployProject s false host rendered) run).world.disk := by
  induction projects generalizing run with
  | nil => exact ⟨hunchanged, OnlyRecords.refl _⟩
  | cons project projects ih =>
    rw [foldl_cons]
    by_cases hnone : filesOf project rendered = []
    · have hsame : deployProject s false host rendered run project = run := by
        rw [deployProject, if_pos hnone]
      rw [hsame]
      exact ih (fun p hp => hthere p (mem_cons_of_mem project hp)) hunchanged
    · have hsame : deployProject s false host rendered run project =
          report false host project (digestOf s rendered project) .unchanged run := by
        rw [deployProject, if_neg hnone]
        exact if_pos (hthere project mem_cons_self hnone)
      rw [hsame]
      have hrecord : OnlyRecords run.world.disk
          (report false host project (digestOf s rendered project) .unchanged run).world.disk :=
        onlyRecords_record run.world
      refine And.imp_right hrecord.trans
        (ih (fun p hp => hthere p (mem_cons_of_mem project hp)) fun o ho => ?_)
      rcases List.mem_append.1 ho with ho | ho
      · exact hunchanged o ho
      · rw [List.mem_singleton.1 ho]

end

/-! ### A cluster -/

variable {s : Setup} {inv : Inventory} {rendered : Rendering} {cluster : Cluster}

/-- **What is reported is so**: a project is unchanged if and only if its digest is the one in the
state that could be loaded, and its files are left alone then; and the files of a project that is
applied are as they are rendered, with the secrets. -/
def Reported (s : Setup) (inv : Inventory) (rendered : Rendering) (cluster : Cluster) : Prop :=
  ∀ h ∈ inv.hosts, ∀ o ∈ (deployHosts s false inv rendered cluster).1, o.host = h.name →
    (o.status = .unchanged ↔ (loadRemoteState (cluster h.name)).1.get? o.project =
      some (digestOf s (rendered.files h) o.project)) ∧
    (o.status = .unchanged → ∀ filename,
      ((deployHosts s false inv rendered cluster).2 h.name).disk.files (o.project, filename) =
        (cluster h.name).disk.files (o.project, filename)) ∧
    (o.status = .applied → ∀ f ∈ filesOf o.project (rendered.files h),
      ((deployHosts s false inv rendered cluster).2 h.name).disk.files (o.project, f.filename) =
        some (materialise s.tools h s.secretValues f))

/-- **A second deploy finds nothing to do**: if the first one has no failure, and the states that it
has left can be read, then every project is unchanged, and only the histories grow. -/
def Settles (s : Setup) (inv : Inventory) (rendered : Rendering) (cluster : Cluster) : Prop :=
  (∀ o ∈ (deployHosts s false inv rendered cluster).1, o.status ≠ .failed) →
    ∀ (now : String) (again : Cluster),
      (∀ h ∈ inv.hosts, (again h.name).weather 0 = .done ∧
        (again h.name).disk.state =
          ((deployHosts s false inv rendered cluster).2 h.name).disk.state) →
      (∀ o ∈ (deployHosts { s with now } false inv rendered again).1, o.status = .unchanged) ∧
        ∀ name, OnlyRecords (again name).disk
          ((deployHosts { s with now } false inv rendered again).2 name).disk

/-- **The registration of the collectors is confined**: it changes nothing but their env files. -/
def Confined (s : Setup) (inv : Inventory) (rendered : Rendering) (cluster : Cluster) : Prop :=
  ∀ registering central name,
    let before := ((deployHosts s false inv rendered cluster).2 name).disk
    let after := ((deploy s false registering inv rendered central cluster).2 name).disk
    after.state = before.state ∧ after.history = before.history ∧
      ∀ path, after.files path = before.files path ∨
        path = collectorEnvPath ∧ ∃ h ∈ inv.hosts, h.name = name ∧ h.hasRole .collector = true

variable {h : Host}

theorem find?_host (hmem : h ∈ inv.hosts) : inv.hosts.find? (·.name = h.name) = some h := by
  cases hfind : inv.hosts.find? (·.name = h.name) with
  | none => exact absurd (List.find?_eq_none.1 hfind h hmem) (by simp)
  | some h' =>
    have hname : h'.name = h.name := by simpa using find?_some hfind
    rw [inj_on_of_nodup_map inv.names_nodup (mem_of_find?_eq_some hfind) hmem hname]

theorem deployHosts_snd (hmem : h ∈ inv.hosts) :
    (deployHosts s false inv rendered cluster).2 h.name =
      (deployHost s false h (rendered.files h) (cluster h.name)).world := by
  rw [deployHosts]
  dsimp only
  rw [find?_host hmem]

theorem projectOrder_nodup : projectOrder.Nodup := by decide

theorem ran_deployHost (h : Host) (w : World) :
    ∃ new, Ran s false h (rendered.files h) projectOrder ⟨(loadRemoteState w).2, (loadRemoteState w).1, []⟩
      (deployHost s false h (rendered.files h) w) new :=
  ran_foldl (rendered.distinct h) projectOrder_nodup _

theorem reported : Reported s inv rendered cluster := by
  intro h hmem o ho hname
  obtain ⟨h', hmem', ho⟩ := List.mem_flatMap.1 ho
  obtain ⟨new, hran⟩ : ∃ new, Ran s false h' (rendered.files h') projectOrder _
      (deployHost s false h' (rendered.files h') (cluster h'.name)) new :=
    ran_deployHost h' (cluster h'.name)
  rw [hran.outcomes, nil_append] at ho
  obtain rfl : h' = h := inj_on_of_nodup_map inv.names_nodup hmem' hmem
    ((hran.hosts o ho).symm.trans hname)
  rw [deployHosts_snd hmem]
  exact ⟨hran.unchanged o ho, hran.kept o ho, fun hstatus => hran.applied o ho hstatus rfl⟩

theorem saved_deployHost {w : World}
    (hok : ∀ o ∈ (deployHost s false h (rendered.files h) w).outcomes, o.status ≠ .failed)
    {p : String} (hp : p ∈ projectOrder) (hsome : filesOf p (rendered.files h) ≠ []) :
    ((deployHost s false h (rendered.files h) w).world.disk.state.getD []).get? p =
      some (digestOf s (rendered.files h) p) := by
  have hapart : ∀ p ∈ projectOrder, p ∉ stateKeys := by decide
  have hstart : Synced ⟨(loadRemoteState w).2, (loadRemoteState w).1, []⟩ := by
    rw [Synced, loadRemoteState]
    dsimp only
    split
    · exact .inl fun _ _ => rfl
    · exact .inr rfl
  obtain ⟨hsynced, hall⟩ := synced_foldl (rendered.distinct h) projectOrder_nodup hstart hok
  have hdigest := hall p hp hsome
  rcases hsynced with hsame | hempty
  · exact (hsame p (hapart p hp)).symm.trans hdigest
  · rw [hempty] at hdigest
    cases hdigest

theorem settles : Settles s inv rendered cluster := by
  intro hok now again hagain
  have hhost : ∀ h ∈ inv.hosts,
      (∀ o ∈ (deployHost { s with now } false h (rendered.files h) (again h.name)).outcomes,
        o.status = .unchanged) ∧ OnlyRecords (again h.name).disk
          (deployHost { s with now } false h (rendered.files h) (again h.name)).world.disk := by
    intro h hmem
    obtain ⟨hreads, hstate⟩ := hagain h hmem
    rw [deployHosts_snd hmem] at hstate
    refine settled_foldl (fun p hp hsome => ?_) fun o ho => absurd ho not_mem_nil
    have hloaded : (loadRemoteState (again h.name)).1 = (again h.name).disk.state.getD [] :=
      if_pos hreads
    dsimp only
    rw [hloaded, hstate]
    exact saved_deployHost
      (fun o ho => hok o (List.mem_flatMap.2 ⟨h, hmem, ho⟩)) hp hsome
  refine ⟨fun o ho => ?_, fun name => ?_⟩
  · obtain ⟨h, hmem, ho⟩ := List.mem_flatMap.1 ho
    exact (hhost h hmem).1 o ho
  · rw [deployHosts]
    dsimp only
    split
    next h hfind =>
      have hname : h.name = name := by simpa using find?_some hfind
      rw [← hname]
      exact (hhost h (mem_of_find?_eq_some hfind)).2
    · exact OnlyRecords.refl _

end MonCTL.Installer
