import MonCTL.Incidents.Suppression

/-!
# What Automations Are Told

While a cycle goes over the rules it records a transition for every incident that it opens,
escalates or clears. Once the session is committed the transitions are handed to the automation
engine. This module compares them with what the commit has changed: read off the table before
the cycle and the table after it.

An incident is recorded as soon as it is opened, before it is written, and its id is chosen only
when it is written. So the transition of an opened incident carries no id. Everything else is
told as it should be, also when rules raise.
-/

namespace MonCTL.Incidents

open List

open Alerting (AlertState AlertEntity Entities)

/-! ### Changes and transitions -/

def Transition.entry (t : Transition) : Uuid × String := (t.incidentId, t.transition)

@[simp] theorem entry_record (rule : IncidentRule) (incident : Incident) (transition : String) :
    (record rule incident transition).entry = (incident.id, transition) := rfl

/-- What has become of an incident that was there. -/
def changesOf (row row' : IncidentRow) : List (Uuid × String) :=
  (if row.severity = row'.severity then [] else [(row.id, "escalated")]) ++
    if row.IsOpen ∧ ¬row'.IsOpen then [(row.id, "cleared")] else []

/-- **What has become of the incidents** between two tables. -/
def changes (rows rows' : List IncidentRow) : List (Uuid × String) :=
  rows'.flatMap fun row' =>
    match rows.find? fun row => row.id = row'.id with
    | none => [(row'.id, "opened")]
    | some row => changesOf row row'

/-- The transitions a cycle hands over: all of them, unless the commit raises. -/
def dispatched (ids : UuidSource) (s : System) (env : CycleEnv) (commits : Bool) :
    List Transition :=
  if commits then (evaluateAll ids s.config env s.incidents s.issued).transitions else []

/-- A rule opens an incident: it looks at an entity that fires, has no open incident and meets
the threshold. -/
def opens (config : Config) (env : CycleEnv) (rows : List IncidentRow) (rule : EngineRule) :
    Bool :=
  (lookedAt config env rows rule).any fun inst =>
    fires rule inst && !hasOpen rows rule (incidentKey inst) && meetsThreshold rule inst

/-- Some rule of a cycle does. -/
def opensSome (config : Config) (env : CycleEnv) (rows : List IncidentRow) : Bool :=
  (config.rules.filter (·.enabled)).any (opens config env rows)

/-! ### What a change of rows amounts to -/

@[simp] theorem changesOf_self (row : IncidentRow) : changesOf row row = [] := by
  simp [changesOf]

variable {row row' : IncidentRow}

theorem changesOf_eq_nil (hseverity : row'.severity = row.severity)
    (hstate : row'.state = row.state) : changesOf row row' = [] := by
  simp [changesOf, IncidentRow.IsOpen, hseverity, hstate]

theorem changesOf_clear (hopen : row.IsOpen) (now : Timestamp)
    (reason : String) : changesOf row (row.clear now reason) = [(row.id, "cleared")] := by
  have hclosed : ¬(row.clear now reason).IsOpen := fun h => by cases h
  have hseverity : row.severity = (row.clear now reason).severity := rfl
  rw [changesOf, if_pos hseverity, if_pos ⟨hopen, hclosed⟩, nil_append]

theorem changesOf_escalate (c : RuleContext) (message : String)
    (inst : AlertEntity) {severity : String} (hne : severity ≠ row.severity) (now : Timestamp) :
    changesOf row ((refreshIncident c message inst row).escalate severity now) =
      [(row.id, "escalated")] := by
  have hseverity : row.severity ≠ ((refreshIncident c message inst row).escalate severity
      now).severity := hne.symm
  have hkept : ¬(row.IsOpen ∧ ¬((refreshIncident c message inst row).escalate severity
      now).IsOpen) := fun h => h.2 h.1
  rw [changesOf, if_neg hseverity, if_neg hkept, append_nil]

/-- Two changes one after the other, of which one leaves the severity alone, give the changes
of both. -/
theorem changesOf_trans {row'' : IncidentRow} (h : Advances row row') (h' : Advances row' row'')
    (hseverity : row'.severity = row.severity ∨ row''.severity = row'.severity) :
    (changesOf row row' ++ changesOf row' row'').Perm (changesOf row row'') := by
  have hescalated : (if row.severity = row'.severity then [] else [(row.id, "escalated")]) ++
      (if row'.severity = row''.severity then [] else [(row.id, "escalated")]) =
      if row.severity = row''.severity then [] else [(row.id, "escalated")] := by
    rcases hseverity with hsame | hsame
    · rw [hsame, if_pos rfl, nil_append]
    · rw [hsame, if_pos rfl, append_nil]
  have hcleared : (if row.IsOpen ∧ ¬row'.IsOpen then [(row.id, "cleared")] else []) ++
      (if row'.IsOpen ∧ ¬row''.IsOpen then [(row.id, "cleared")] else []) =
      if row.IsOpen ∧ ¬row''.IsOpen then [(row.id, "cleared")] else [] := by
    have hback := h.isOpen
    have hback' := h'.isOpen
    by_cases hopen : row'.IsOpen
    · simp [hopen, hback hopen]
    · have hclosed : ¬row''.IsOpen := fun h => hopen (hback' h)
      simp [hopen, hclosed]
  rw [changesOf, changesOf, changesOf, h.id, ← hescalated, ← hcleared]
  simp only [append_assoc]
  refine List.Perm.append_left _ ?_
  rw [← append_assoc, ← append_assoc]
  exact List.Perm.append_right _ perm_append_comm

variable {ids : UuidSource} {n : ℕ} {rows : List IncidentRow}

theorem changes_map (h : WellFormed ids n rows) {f : IncidentRow → IncidentRow}
    (hf : ∀ row ∈ rows, Advances row (f row)) :
    changes rows (rows.map f) = rows.flatMap fun row => changesOf row (f row) := by
  rw [changes, flatMap_map]
  refine flatMap_congr fun row hrow => ?_
  rw [(hf row hrow).id, h.find?_id hrow]

theorem mem_changes {rows' : List IncidentRow} {e : Uuid × String}
    (h : e ∈ changes rows rows') : ∃ row' ∈ rows', row'.id = e.1 := by
  obtain ⟨row', hrow', he⟩ := List.mem_flatMap.1 h
  refine ⟨row', hrow', ?_⟩
  split at he
  · rw [List.mem_singleton.1 he]
  next row hfind =>
    have hid : row.id = row'.id := by simpa using find?_some hfind
    rw [changesOf] at he
    rcases List.mem_append.1 he with he | he
    · split at he
      · cases he
      · rw [List.mem_singleton.1 he, hid]
    · split at he
      · rw [List.mem_singleton.1 he, hid]
      · cases he

theorem flatMap_eq_of_unique {α β : Type} {l : List α} (hnodup : l.Nodup) {x : α} (hx : x ∈ l)
    {F : α → List β} (hF : ∀ y ∈ l, y ≠ x → F y = []) : l.flatMap F = F x := by
  obtain ⟨a, b, rfl⟩ := append_of_mem hx
  have hnodup' := List.nodup_middle.1 hnodup
  have hne : ∀ y ∈ a ++ b, y ≠ x := fun y hy heq => (List.nodup_cons.1 hnodup').1 (heq ▸ hy)
  have hnil : ∀ l' : List α, (∀ y ∈ l', F y = []) → l'.flatMap F = [] := fun l' h =>
    List.flatMap_eq_nil_iff.2 h
  rw [flatMap_append, flatMap_cons,
    hnil a fun y hy => hF y (by simp [hy]) (hne y (by simp [hy])),
    hnil b fun y hy => hF y (by simp [hy]) (hne y (by simp [hy])), nil_append,
    append_nil]

/-! ### Recording what is done -/

/-- **The rows are changed one by one, and what is recorded is what becomes of them.** -/
structure Tracks (s s' : EngineState) (f : IncidentRow → IncidentRow) : Prop where
  incidents : s'.incidents = s.incidents.map f
  advances : ∀ row ∈ s.incidents, Advances row (f row)
  transitions : ∃ ts, s'.transitions = s.transitions ++ ts ∧
    (ts.map Transition.entry).Perm (s.incidents.flatMap fun row => changesOf row (f row))

theorem Tracks.refl (s : EngineState) : Tracks s s id where
  incidents := (map_id _).symm
  advances := fun row _ => .refl row
  transitions := ⟨[], (append_nil _).symm, by simp⟩

variable {s : EngineState} {f : IncidentRow → IncidentRow}

theorem Tracks.mem {s' : EngineState} (h : Tracks s s' f)
    {row : IncidentRow} (hrow : row ∈ s.incidents) : f row ∈ s'.incidents := by
  rw [h.incidents]
  exact mem_map_of_mem hrow

theorem Tracks.trans {s' s'' : EngineState} {g : IncidentRow → IncidentRow}
    (h : Tracks s s' f) (h' : Tracks s' s'' g) (hseverity : ∀ row ∈ s.incidents,
      (f row).severity = row.severity ∨ (g (f row)).severity = (f row).severity) :
    Tracks s s'' (g ∘ f) := by
  have hmem : ∀ row ∈ s.incidents, f row ∈ s'.incidents := fun row => h.mem
  refine ⟨by rw [h'.incidents, h.incidents, map_map],
    fun row hrow => (h.advances row hrow).trans (h'.advances _ (hmem row hrow)), ?_⟩
  obtain ⟨ts, hts, hperm⟩ := h.transitions
  obtain ⟨ts', hts', hperm'⟩ := h'.transitions
  refine ⟨ts ++ ts', by rw [hts', hts, append_assoc], ?_⟩
  rw [h.incidents, flatMap_map] at hperm'
  rw [map_append]
  refine (hperm.append hperm').trans ((flatMap_append_perm ..).trans ?_)
  refine List.Perm.flatMap_left _ fun row hrow => ?_
  exact changesOf_trans (h.advances row hrow) (h'.advances _ (hmem row hrow))
    (hseverity row hrow)

theorem tracks_putRow
    (h : WellFormed ids s.issued s.incidents) {row row' : IncidentRow} (hrow : row ∈ s.incidents)
    (hadv : Advances row row') {ts : List Transition}
    (hts : ts.map Transition.entry = changesOf row row') : Tracks s
      { s with incidents := putRow s.incidents row', transitions := s.transitions ++ ts }
      (fun r => if r.id = row'.id then row' else r) where
  incidents := rfl
  advances := advances_putRow h hrow hadv
  transitions := by
    refine ⟨ts, rfl, ?_⟩
    rw [flatMap_eq_of_unique (List.Nodup.of_map _ h.ids_nodup) hrow, if_pos hadv.id.symm, hts]
    intro r hr hne
    have hid : r.id ≠ row'.id := fun heq => hne (h.eq_of_id hr hrow (heq.trans hadv.id))
    rw [if_neg hid, changesOf_self]

/-! ### A round and the loop -/

variable {c : RuleContext}

theorem Writes.entries {ts : List Transition} (h : Writes c row row' ts) (hopen : row.IsOpen) :
    ts.map Transition.entry = changesOf row row' := by
  cases h with
  | touched => exact (changesOf_eq_nil rfl rfl).symm
  | refreshed => exact (changesOf_eq_nil rfl rfl).symm
  | escalated message inst severity hne =>
    rw [changesOf_escalate c message inst hne, map_singleton, entry_record]
    rfl
  | cleared reason =>
    rw [changesOf_clear hopen, map_singleton, entry_record]
    rfl

/-- The round of an entity opens an incident, unless it raises. -/
def RuleContext.opens (c : RuleContext) (inst : AlertEntity) : Prop :=
  c.fires inst ∧ c.openByKey.get? (incidentKey inst) = none ∧ meetsThreshold c.rule inst

theorem LoopInv.evaluateEntity_tracks {inst : AlertEntity}
    {rest : List AlertEntity} (h : LoopInv ids c rest s)
    (hopen : ∀ row ∈ s.incidents, c.openByKey.get? (incidentKey inst) = some row.id → row.IsOpen)
    (hnone : c.raises inst = false → ¬c.opens inst) :
    ∃ f, Tracks s (evaluateEntity ids c inst s).1 f ∧
      ∀ row ∈ s.incidents, c.openByKey.get? (incidentKey inst) ≠ some row.id → f row = row := by
  rcases evaluateEntity_cases ids c inst s with
    hskip | ⟨message, hincident, hscope, hstate, hmeets, hrender, -⟩ |
    ⟨row, row', ts, hsome, hwrites, hwritten⟩
  · rw [hskip]
    exact ⟨id, .refl s, fun _ _ _ => rfl⟩
  · have hraises : c.raises inst = false := by simp [RuleContext.raises, hrender]
    exact absurd ⟨by simp [RuleContext.fires, hscope, hstate], h.get?_eq_none hincident, hmeets⟩
      (hnone hraises)
  · obtain ⟨hrow, hget⟩ := RuleContext.mem_of_incident hsome
    rw [hwritten]
    refine ⟨_, tracks_putRow h.wf hrow hwrites.advances (hwrites.entries (hopen row hrow hget)),
      fun r _ hne => if_neg fun hid => hne ?_⟩
    rw [hget, hid, hwrites.advances.id]

/-- **A loop that opens no incident** records what becomes of the incidents, each of which it
looks at once. -/
theorem LoopInv.evaluateEntities_tracks {insts : List AlertEntity} (h : LoopInv ids c insts s)
    (hopen : ∀ inst ∈ insts, ∀ row ∈ s.incidents,
      c.openByKey.get? (incidentKey inst) = some row.id → row.IsOpen)
    (hnone : ∀ inst ∈ insts.takeWhile fun inst => !c.raises inst, ¬c.opens inst) :
    ∃ f, Tracks s (evaluateEntities ids c insts s).1 f ∧
      ∀ row ∈ s.incidents,
        (∀ inst ∈ insts, c.openByKey.get? (incidentKey inst) ≠ some row.id) → f row = row := by
  induction insts generalizing s with
  | nil => exact ⟨id, .refl s, fun _ _ _ => rfl⟩
  | cons inst rest ih =>
    have hraises := h.evaluateEntity_snd inst
    have hinv := h.round.1
    obtain ⟨f, hf, hframe⟩ := h.evaluateEntity_tracks (hopen inst (mem_cons_self ..))
      fun hraises => hnone inst (by simp [hraises])
    rw [evaluateEntities]
    rcases hstep : evaluateEntity ids c inst s with ⟨s', completed⟩
    rw [hstep] at hraises hinv hf
    cases completed with
    | false => exact ⟨f, hf, fun row hrow hne => hframe row hrow (hne inst (mem_cons_self ..))⟩
    | true =>
      have hraised : c.raises inst = false := by simpa using hraises
      dsimp only at hinv hf ⊢
      -- an entity that is still to come finds its incident as it was
      have hother : ∀ row ∈ s.incidents, ∀ inst' ∈ rest,
          c.openByKey.get? (incidentKey inst') = some (f row).id → f row = row := by
        intro row hrow inst' hinst' hget
        rw [(hf.advances row hrow).id] at hget
        exact hframe row hrow fun hget' => h.get?_ne hget' inst' hinst' hget
      have hopen' : ∀ inst' ∈ rest, ∀ row' ∈ s'.incidents,
          c.openByKey.get? (incidentKey inst') = some row'.id → row'.IsOpen := by
        intro inst' hinst' row' hrow' hget
        rw [hf.incidents] at hrow'
        obtain ⟨row, hrow, rfl⟩ := List.mem_map.1 hrow'
        have hsame := hother row hrow inst' hinst' hget
        rw [hsame] at hget ⊢
        exact hopen inst' (mem_cons_of_mem _ hinst') row hrow hget
      obtain ⟨g, hg, hframe'⟩ := ih hinv hopen' fun inst' hinst' =>
        hnone inst' (by simp only [takeWhile_cons, hraised]; exact .tail _ hinst')
      have hmem : ∀ row ∈ s.incidents, f row ∈ s'.incidents := fun row => hf.mem
      refine ⟨g ∘ f, hf.trans hg fun row hrow => ?_, fun row hrow hne => ?_⟩
      · by_cases hget : c.openByKey.get? (incidentKey inst) = some row.id
        · right
          rw [hframe' _ (hmem row hrow)]
          rw [(hf.advances row hrow).id]
          exact h.get?_ne hget
        · left
          rw [hframe row hrow hget]
      · have hsame := hframe row hrow (hne inst (mem_cons_self ..))
        have hrow' := hmem row hrow
        rw [Function.comp_apply]
        rw [hsame] at hrow' ⊢
        exact hframe' row hrow' fun inst' hinst' => hne inst' (mem_cons_of_mem _ hinst')

/-! ### The companion pass -/

theorem companionClear_entries (rule : EngineRule) (companionIds : List Uuid)
    (entities : List CompanionEntity) (now : Timestamp) (row : IncidentRow) :
    (companionClear rule companionIds entities now row).severity = row.severity ∧
      (clearByCompanions rule.toIncidentRule companionIds entities now
        row.toIncident).2.map Transition.entry =
      changesOf row (companionClear rule companionIds entities now row) := by
  rcases companionClear_cases rule companionIds entities now row with
    ⟨hsame, hrecord⟩ | ⟨hopen, reason, hclear, hrecord⟩
  · rw [hsame, hrecord, changesOf_self]
    exact ⟨rfl, rfl⟩
  · rw [hclear, hrecord, changesOf_clear hopen]
    exact ⟨rfl, rfl⟩

theorem flatMap_filter {α β : Type} (l : List α) (p : α → Bool) (F : α → List β) :
    (l.filter p).flatMap F = l.flatMap fun x => if p x then F x else [] := by
  induction l with
  | nil => rfl
  | cons x rest ih =>
    rw [filter_cons, flatMap_cons, ← ih]
    cases p x with
    | true => simp
    | false => simp

theorem loaded_perm (h : WellFormed ids n rows) {loaded : List Uuid} (hloaded : loaded.Nodup)
    (hthere : ∀ id ∈ loaded, ∃ row ∈ rows, row.id = id) :
    loaded.Perm ((rows.filter fun row => row.id ∈ loaded).map fun row => row.id) := by
  refine (perm_ext_iff_of_nodup hloaded (h.filter _).ids_nodup).2 fun id => ?_
  rw [mem_map]
  constructor
  · intro hid
    obtain ⟨row, hrow, rfl⟩ := hthere id hid
    exact ⟨row, List.mem_filter.2 ⟨hrow, by simpa using hid⟩, rfl⟩
  · rintro ⟨row, hrow, rfl⟩
    simpa using (List.mem_filter.1 hrow).2

theorem companionPass_tracks (config : Config) (rule : EngineRule)
    (now : Timestamp) {loaded : List Uuid} {s : EngineState} (h : WellFormed ids n s.incidents)
    (hloaded : loaded.Nodup) (hthere : ∀ id ∈ loaded, ∃ row ∈ s.incidents, row.id = id) :
    ∃ f, Tracks s (companionPass config rule now loaded s) f ∧
      ∀ row ∈ s.incidents, (f row).severity = row.severity ∧ (row.id ∉ loaded → f row = row) := by
  rw [companionPass]
  cases validateCompanionIds rule.clearOnCompanionIds with
  | none => exact ⟨id, .refl s, fun _ _ => ⟨rfl, fun _ => rfl⟩⟩
  | some companionIds =>
    have hentries := companionClear_entries rule companionIds config.companionEntities now
    refine ⟨_, ⟨rfl, fun row _ => ?_, _, rfl, ?_⟩, fun row _ => ⟨?_, fun hid => if_neg hid⟩⟩
    · split
      · exact advances_companionClear ..
      · exact .refl row
    · -- both sides list what is recorded for the rows that were loaded
      rw [map_flatMap]
      refine ((loaded_perm h hloaded hthere).flatMap_right _).trans (.of_eq ?_)
      rw [flatMap_map, flatMap_filter]
      refine flatMap_congr fun row hrow => ?_
      rw [h.find?_id hrow]
      by_cases hid : row.id ∈ loaded
      · rw [if_pos (by simpa using hid), if_pos hid]
        exact (hentries row).2
      · rw [if_neg (by simpa using hid), if_neg hid, changesOf_self]
    · split
      · exact (hentries row).1
      · rfl

/-! ### A rule -/

theorem get?_ruleContext_eq_none (h : WellFormed ids n rows) (env : CycleEnv) (rule : EngineRule)
    (ladder : Option (List LadderStep)) (key : String) :
    (ruleContext env rule ladder rows).openByKey.get? key = none ↔
      hasOpen rows rule key = false := by
  rw [← isSome_ruleContext h env rule ladder key, Option.isSome_eq_false_iff, Option.isNone_iff_eq_none]

theorem opens_ruleContext (h : WellFormed ids n rows) (env : CycleEnv) (rule : EngineRule)
    (ladder : Option (List LadderStep)) (inst : AlertEntity) :
    (ruleContext env rule ladder rows).opens inst ↔
      (fires rule inst && !hasOpen rows rule (incidentKey inst) && meetsThreshold rule inst) =
        true := by
  rw [RuleContext.opens, get?_ruleContext_eq_none h, Bool.and_eq_true, Bool.and_eq_true,
    Bool.not_eq_true', and_assoc]
  rfl

variable {config : Config} {env : CycleEnv} {rule : EngineRule}

theorem lookedAt_eq {defn : DefinitionRow} {ladder : Option (List LadderStep)}
    (hdefn : config.definition rule = some defn) (henabled : defn.enabled = true)
    (hladder : validateLadder rule.severityLadder = .ok ladder) : lookedAt config env rows rule =
      defn.entities.enabled.takeWhile fun inst => !raises env rows rule inst := by
  rw [lookedAt, hdefn, hladder]
  exact if_pos henabled

/-- **A rule that opens no incident** records what becomes of its incidents, and leaves those of
other rules alone. -/
theorem evaluateRule_tracks (config : Config) (env : CycleEnv)
    (rule : EngineRule) {s : EngineState} (h : WellFormed ids s.issued s.incidents)
    (hnone : opens config env s.incidents rule = false) :
    ∃ f, Tracks s (evaluateRule ids config env rule s) f ∧
      ∀ row ∈ s.incidents, row.ruleId ≠ rule.id → f row = row := by
  have hidle : ∃ f, Tracks s s f ∧ ∀ row ∈ s.incidents, row.ruleId ≠ rule.id → f row = row :=
    ⟨id, .refl s, fun _ _ _ => rfl⟩
  rw [evaluateRule]
  cases hdefn : config.definition rule with
  | none => exact hidle
  | some defn =>
    dsimp only
    cases henabled : defn.enabled with
    | false => exact hidle
    | true =>
      cases hladder : validateLadder rule.severityLadder with
      | error e => exact hidle
      | ok ladder =>
        have hget := get?_ruleContext h env rule ladder
        have hstart := loopInv_start h env rule ladder defn
        obtain ⟨f, hf, hframe⟩ := hstart.evaluateEntities_tracks
          (fun inst _ row hrow hknown => by
            obtain ⟨row', hrow', -, hopen, -, hid⟩ := (hget _ _).1 hknown
            rwa [← h.eq_of_id hrow' hrow hid])
          (fun inst hinst => by
            simp only [raises_ruleContext h] at hinst
            rw [opens_ruleContext h, Bool.not_eq_true]
            rw [opens, lookedAt_eq hdefn henabled hladder, any_eq_false] at hnone
            exact Bool.not_eq_true _ ▸ hnone inst hinst)
        have hwf := hstart.rounds.1
        have hothers : ∀ row ∈ s.incidents, row.ruleId ≠ rule.id → f row = row := by
          intro row hrow hne
          refine hframe row hrow fun inst _ hknown => hne ?_
          obtain ⟨row', hrow', hrule, -, -, hid⟩ := (hget _ _).1 hknown
          rw [← h.eq_of_id hrow' hrow hid, hrule]
        dsimp only
        rcases hresult : evaluateEntities ids (ruleContext env rule ladder s.incidents)
          defn.entities.enabled s with ⟨s', completed⟩
        rw [hresult] at hf hwf
        cases completed with
        | false => exact ⟨f, hf, hothers⟩
        | true =>
          have hmem : ∀ row ∈ s.incidents, f row ∈ s'.incidents := fun row => hf.mem
          have hloaded : ∀ row ∈ openIncidents rule ((env.scan rule.id).rows s.incidents),
              row ∈ s.incidents ∧ row.ruleId = rule.id := fun row hrow =>
            ⟨((env.scan rule.id).perm _).mem_iff.1 (mem_openIncidents.1 hrow).1,
              (mem_openIncidents.1 hrow).2.1⟩
          have hnodup : ((openIncidents rule ((env.scan rule.id).rows s.incidents)).map
              fun row => row.id).Nodup :=
            ((((env.scan rule.id).perm _).map _).nodup_iff.2 h.ids_nodup).sublist
              (List.filter_sublist.map _)
          obtain ⟨g, hg, hframe'⟩ := companionPass_tracks config rule (env.now rule.id) hwf
            hnodup (fun id hid => by
              obtain ⟨row, hrow, rfl⟩ := List.mem_map.1 hid
              have hrow' := (hloaded row hrow).1
              exact ⟨f row, hmem row hrow', (hf.advances row hrow').id⟩)
          refine ⟨g ∘ f, hf.trans hg fun row hrow => .inr (hframe' _ (hmem row hrow)).1,
            fun row hrow hne => ?_⟩
          have hsame := hothers row hrow hne
          have hrow' := hmem row hrow
          rw [Function.comp_apply]
          rw [hsame] at hrow' ⊢
          refine (hframe' row hrow').2 fun hid => hne ?_
          obtain ⟨row', hloaded', hid'⟩ := List.mem_map.1 hid
          rw [← h.eq_of_id (hloaded row' hloaded').1 hrow hid', (hloaded row' hloaded').2]

theorem opens_congr {rows' : List IncidentRow} (h : ∀ key, hasOpen rows' rule key =
    hasOpen rows rule key) :
    opens config env rows' rule = opens config env rows rule := by
  rw [opens, opens, lookedAt_congr h]
  simp only [h]

theorem hasOpen_of_frame (hf : ∀ row ∈ rows, Advances row (f row)) {ruleId : Uuid}
    (hframe : ∀ row ∈ rows, row.ruleId ≠ ruleId → f row = row) {rule : EngineRule}
    (hne : rule.id ≠ ruleId) (key : String) : hasOpen
    (rows.map f) rule key = hasOpen rows rule key := by
  rw [hasOpen, hasOpen, any_map, Bool.eq_iff_iff, any_eq_true, any_eq_true]
  refine exists_congr fun row => and_congr_right fun hrow => ?_
  rw [Function.comp_apply]
  by_cases hrule : row.ruleId = rule.id
  · rw [hframe row hrow (hrule.trans_ne hne)]
  · have hrule' : (f row).ruleId ≠ rule.id := (hf row hrow).ruleId.trans_ne hrule
    simp [hrule, hrule']

/-! ### A cycle -/

theorem foldl_evaluateRule_tracks (config : Config) (env : CycleEnv)
    {rules : List EngineRule} (hnodup : (rules.map fun rule => rule.id).Nodup) {s : EngineState}
    (h : WellFormed ids s.issued s.incidents)
    (hnone : ∀ rule ∈ rules, opens config env s.incidents rule = false) :
    ∃ f, Tracks s (rules.foldl (fun s rule => evaluateRule ids config env rule s) s) f ∧
      ∀ row ∈ s.incidents, (∀ rule ∈ rules, row.ruleId ≠ rule.id) → f row = row := by
  induction rules generalizing s with
  | nil => exact ⟨id, .refl s, fun _ _ _ => rfl⟩
  | cons rule rest ih =>
    obtain ⟨hnew, hnodup'⟩ := List.nodup_cons.1 hnodup
    obtain ⟨f, hf, hframe⟩ := evaluateRule_tracks config env rule h (hnone rule (by simp))
    have hwf := (evaluateRule_wellFormed config env rule h).1
    have hne : ∀ rule' ∈ rest, rule'.id ≠ rule.id := fun rule' hrule' heq =>
      hnew (List.mem_map.2 ⟨rule', hrule', heq⟩)
    have hnone' : ∀ rule' ∈ rest,
        opens config env (evaluateRule ids config env rule s).incidents rule' = false := by
      intro rule' hrule'
      rw [hf.incidents, opens_congr (hasOpen_of_frame hf.advances hframe (hne rule' hrule'))]
      exact hnone rule' (mem_cons_of_mem _ hrule')
    obtain ⟨g, hg, hframe'⟩ := ih hnodup' hwf hnone'
    have hmem : ∀ row ∈ s.incidents, f row ∈ (evaluateRule ids config env rule s).incidents :=
      fun row => hf.mem
    refine ⟨g ∘ f, hf.trans hg fun row hrow => ?_, fun row hrow hothers => ?_⟩
    · by_cases hrule : row.ruleId = rule.id
      · right
        rw [hframe' _ (hmem row hrow) fun rule' hrule' => ?_]
        rw [(hf.advances row hrow).ruleId, hrule]
        exact (hne rule' hrule').symm
      · left
        rw [hframe row hrow hrule]
    · have hsame := hframe row hrow (hothers rule (mem_cons_self ..))
      have hrow' := hmem row hrow
      rw [Function.comp_apply]
      rw [hsame] at hrow' ⊢
      exact hframe' row hrow' fun rule' hrule' => hothers rule' (mem_cons_of_mem _ hrule')

/-! ### An incident that is opened -/

/-- Some transition does not say which incident it is about. -/
def Unnamed (ts : List Transition) : Prop := ∃ t ∈ ts, t.incidentId = "None"

theorem Unnamed.of_isPrefix {ts ts' : List Transition} (h : Unnamed ts) (hle : ts <+: ts') :
    Unnamed ts' := by
  obtain ⟨t, ht, hid⟩ := h
  exact ⟨t, hle.subset ht, hid⟩

theorem evaluateEntity_unnamed (ids : UuidSource) {c : RuleContext} {inst : AlertEntity}
    (s : EngineState) (hraises : c.raises inst = false) (hopens : c.opens inst) :
    Unnamed (evaluateEntity ids c inst s).1.transitions := by
  obtain ⟨hfires, hget, hmeets⟩ := hopens
  have hincident : c.incident s.incidents inst = none := by
    rw [RuleContext.incident, hget, Option.bind_none]
  have hfires' := hfires
  rw [RuleContext.fires, decide_eq_true_eq] at hfires'
  cases hrender : c.renderMessage inst with
  | none => simp [RuleContext.raises, hfires, hmeets, hrender] at hraises
  | some message =>
    refine ⟨record c.rule.toIncidentRule
      { (newIncident c (ids.uuid4 s.issued) message inst).toIncident with id := "None" } "opened",
      ?_, rfl⟩
    rw [evaluateEntity, hincident]
    simp [hfires'.1, hfires'.2, hmeets, hrender, openIncident]

theorem LoopInv.evaluateEntities_unnamed
    {insts : List AlertEntity} (h : LoopInv ids c insts s) {inst : AlertEntity}
    (hinst : inst ∈ insts.takeWhile fun inst => !c.raises inst) (hopens : c.opens inst) :
    Unnamed (evaluateEntities ids c insts s).1.transitions := by
  induction insts generalizing s with
  | nil => cases hinst
  | cons head rest ih =>
    have hcompletes := h.evaluateEntity_snd head
    have hinv := h.round.1
    have hround := @evaluateEntity_unnamed ids c head s
    rw [takeWhile_cons] at hinst
    rw [evaluateEntities]
    cases hraises : c.raises head with
    | true => simp [hraises] at hinst
    | false =>
      rcases hstep : evaluateEntity ids c head s with ⟨s', completed⟩
      rw [hstep] at hcompletes hinv hround
      rw [hraises] at hcompletes hinst
      obtain rfl : completed = true := hcompletes
      dsimp only at hinv hround ⊢
      rcases List.mem_cons.1 hinst with rfl | hinst
      · exact (hround hraises hopens).of_isPrefix (evaluateEntities_transitions ..)
      · exact ih hinv hinst

theorem evaluateRule_unnamed (h : WellFormed ids s.issued s.incidents)
    (hopens : opens config env s.incidents rule = true) :
    Unnamed (evaluateRule ids config env rule s).transitions := by
  rw [opens, lookedAt] at hopens
  rw [evaluateRule]
  cases hdefn : config.definition rule with
  | none => simp [hdefn] at hopens
  | some defn =>
    cases hladder : validateLadder rule.severityLadder with
    | error e => simp [hdefn, hladder] at hopens
    | ok ladder =>
      rw [hdefn, hladder] at hopens
      dsimp only at hopens ⊢
      cases henabled : defn.enabled with
      | false => simp [henabled] at hopens
      | true =>
        rw [henabled, if_pos rfl] at hopens
        obtain ⟨inst, hinst, hopens⟩ := List.any_eq_true.1 hopens
        simp only [← raises_ruleContext h env rule ladder] at hinst
        have hloop := (loopInv_start h env rule ladder defn).evaluateEntities_unnamed hinst
          ((opens_ruleContext h env rule ladder inst).2 hopens)
        rcases hresult : evaluateEntities ids (ruleContext env rule ladder s.incidents)
          defn.entities.enabled s with ⟨s', completed⟩
        rw [hresult] at hloop
        cases completed with
        | false => exact hloop
        | true => exact hloop.of_isPrefix (companionPass_transitions ..)

/-- So does the cycle: the rules before the first one that opens an incident do not change what
that rule finds. -/
theorem foldl_evaluateRule_unnamed (config : Config) (env : CycleEnv)
    {rules : List EngineRule} (hnodup : (rules.map fun rule => rule.id).Nodup) {s : EngineState}
    (h : WellFormed ids s.issued s.incidents)
    (hopens : ∃ rule ∈ rules, opens config env s.incidents rule = true) :
    Unnamed (rules.foldl (fun s rule => evaluateRule ids config env rule s) s).transitions := by
  induction rules generalizing s with
  | nil =>
    obtain ⟨rule, hrule, -⟩ := hopens
    cases hrule
  | cons head rest ih =>
    rw [foldl_cons]
    cases hhead : opens config env s.incidents head with
    | true =>
      exact (evaluateRule_unnamed h hhead).of_isPrefix (foldl_evaluateRule_transitions ..)
    | false =>
      obtain ⟨hnew, hnodup'⟩ := List.nodup_cons.1 hnodup
      obtain ⟨f, hf, hframe⟩ := evaluateRule_tracks config env head h hhead
      obtain ⟨rule, hrule, hopens⟩ := hopens
      rcases List.mem_cons.1 hrule with rfl | hrule
      · rw [hhead] at hopens
        cases hopens
      · refine ih hnodup' (evaluateRule_wellFormed config env head h).1 ⟨rule, hrule, ?_⟩
        have hne : rule.id ≠ head.id := fun heq => hnew (List.mem_map.2 ⟨rule, hrule, heq⟩)
        rw [hf.incidents, opens_congr (hasOpen_of_frame hf.advances hframe hne)]
        exact hopens

/-! ### What is handed over -/

/-- **What is handed over is what was committed**: in every state the system reaches, and for
every cycle from there, whether or not some rule of it raises, the transitions that are handed
over name exactly the incidents the commit has opened, escalated and cleared, each once, if and
only if the commit fails or no rule opens an incident. The ids are random, and none of them is
the text `None`. -/
theorem handed_iff {ids : UuidSource} (hids : ∀ k, ids.uuid4 k ≠ "None") {s s' : System}
    (h : Run (step ids) (fun _ _ => True) {} s) {env : CycleEnv} {commits : Bool}
    (hstep : step ids s (.cycle env commits) = some s') :
    ((dispatched ids s env commits).map Transition.entry).Perm
        (changes s.incidents s'.incidents) ↔
      commits = false ∨ opensSome s.config env s.incidents = false := by
  have hwf := run_wellFormed h
  cases commits with
  | false =>
    cases hstep
    have hsame := changes_map hwf (f := id) fun row _ => .refl row
    rw [map_id] at hsame
    simp [dispatched, hsame]
  | true =>
    cases hstep
    have hnodup : ((s.config.rules.filter (·.enabled)).map fun rule => rule.id).Nodup :=
      s.config.rules_nodup.sublist (List.filter_sublist.map _)
    rw [dispatched, if_pos rfl, or_iff_right (by decide), opensSome]
    constructor
    · intro hperm
      by_contra hsome
      rw [Bool.not_eq_false, any_eq_true] at hsome
      obtain ⟨t, ht, hid⟩ := foldl_evaluateRule_unnamed s.config env hnodup
        (s := { incidents := s.incidents, issued := s.issued }) hwf hsome
      -- the table has no row with that id
      obtain ⟨row', hrow', hrowId⟩ := mem_changes (hperm.mem_iff.1 (mem_map_of_mem ht))
      obtain ⟨k, -, hk⟩ := (evaluateAll_wellFormed s.config env hwf).1.ids_issued row' hrow'
      exact hids k (hk.symm.trans (hrowId.trans hid))
    · intro hnone
      rw [any_eq_false] at hnone
      obtain ⟨f, hf, -⟩ := foldl_evaluateRule_tracks s.config env hnodup
        (s := { incidents := s.incidents, issued := s.issued }) hwf
        fun rule hrule => Bool.not_eq_true _ ▸ hnone rule hrule
      obtain ⟨ts, hts, hperm⟩ := hf.transitions
      have hchanges := changes_map hwf hf.advances
      have hrows : (evaluateAll ids s.config env s.incidents s.issued).incidents =
          s.incidents.map f := hf.incidents
      have htransitions : (evaluateAll ids s.config env s.incidents s.issued).transitions = ts :=
        hts
      rw [htransitions, hrows, hchanges]
      exact hperm

/-- The link of the examples comes up again: its incident is cleared, and that is handed over
under its id. -/
theorem handed_linkResolved : ∃ s s' : System, step .counter s (.cycle plainEnv true) = some s' ∧
      changes s.incidents s'.incidents = [("0", "cleared")] ∧
      ((dispatched .counter s plainEnv true).map Transition.entry).Perm
        (changes s.incidents s'.incidents) := by
  have hreplay : ∃ s ∈ replay (step .counter) (fun _ _ => True) {}
      [.configure (linkConfig .firing), plainCycle, .configure (linkConfig .resolved)],
      (∃ s', step .counter s (.cycle plainEnv true) = some s' ∧
        changes s.incidents s'.incidents = [("0", "cleared")]) ∧
      opensSome s.config plainEnv s.incidents = false :=
    ⟨_, rfl, ⟨_, rfl, by decide +kernel⟩, by decide +kernel⟩
  obtain ⟨s, hs, ⟨s', hstep, hchanges⟩, hnone⟩ := hreplay
  have hids : ∀ k, UuidSource.counter.uuid4 k ≠ "None" := fun k heq => by
    have hletter : 'N' ∈ (toString k).toList := by
      rw [show toString k = "None" from heq]
      decide
    exact absurd (Decimal.isDigit_of_mem_toString hletter) (by decide)
  exact ⟨s, s', hstep, hchanges, (handed_iff hids (run_of_replay hs) hstep).2 (.inr hnone)⟩

/-- The link of the examples goes down: its incident is opened, and handed over without an
id. -/
theorem not_handed_linkFiring : ¬∀ s s' : System, Run (step .counter) (fun _ _ => True) {} s →
      ∀ env commits, step .counter s (.cycle env commits) = some s' →
        ((dispatched .counter s env commits).map Transition.entry).Perm
          (changes s.incidents s'.incidents) := by
  intro h
  have hreplay : ∃ s ∈ replay (step .counter) (fun _ _ => True) {}
      [.configure (linkConfig .firing)],
      ∃ s', step .counter s (.cycle plainEnv true) = some s' ∧
        changes s.incidents s'.incidents = [("0", "opened")] ∧
        (dispatched .counter s plainEnv true).map Transition.entry = [("None", "opened")] :=
    ⟨_, rfl, _, rfl, by decide +kernel, by decide +kernel⟩
  obtain ⟨s, hs, s', hstep, hchanges, hdispatched⟩ := hreplay
  have hperm := h s s' (run_of_replay hs) plainEnv true hstep
  rw [hchanges, hdispatched, singleton_perm_singleton] at hperm
  exact absurd hperm (by decide)

end MonCTL.Incidents
