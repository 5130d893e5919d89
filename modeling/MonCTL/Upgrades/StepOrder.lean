import MonCTL.Upgrades.UpgradeJob

/-!
# The Order of Upgrade Steps

Reports may come at any moment, and for steps that the driver is still busy with, so that little of
what a job says can be relied on. What can be is the order in which its steps are taken. A place and
a flag say how far the driver has come; the invariant says what a step is like before, at and after
that place, and a report only touches steps that the driver has started.
-/

namespace MonCTL.Upgrades

open List

/-- How far the driver has come, and whether the step there is started. -/
def DriverPhase.reached : DriverPhase → Option (ℕ × Bool)
  | .notStarted => some (0, false)
  | .loop i => some (i, false)
  | .upgrading i | .handing i => some (i, true)
  | .finished => none

namespace UpgradeJob

variable {i k : ℕ} {st st' : UpgradeJobStep} {strategy : Strategy} {steps : List UpgradeJobStep}

/-- A step that is neither to come nor at hand. -/
def Left (st : UpgradeJobStep) : Prop := st.status ≠ .pending ∧ st.status ≠ .running

/-- A step that is not started. -/
def Unstarted (st : UpgradeJobStep) : Prop := st.status = .pending ∨ st.status = .skipped

/-- The driver has seen a step before a place failing. -/
def Halted (steps : List UpgradeJobStep) (k : ℕ) : Prop :=
  ∃ (n : ℕ) (st : UpgradeJobStep), n < k ∧ steps[n]? = some st ∧ st.seen = .failed

/-- **A job goes through its steps in order**: a step is touched only when those before it have been
left; at the end all steps have been, or none has been touched; and in a rolling job no step is
started behind one that the driver has seen failing. -/
structure Orderly (j : UpgradeJob) : Prop where
  inOrder : ∀ (n k : ℕ) (st st' : UpgradeJobStep), n < k → j.steps[n]? = some st →
    j.steps[k]? = some st' → st'.status ≠ .pending → Left st
  finished : j.phase = .finished → (∀ st ∈ j.steps, st.status = .pending) ∨ ∀ st ∈ j.steps, Left st
  stopped : j.strategy = .rolling → ∀ (k : ℕ) (st : UpgradeJobStep), j.steps[k]? = some st →
    Halted j.steps k → Unstarted st

/-- What a step is like at its place, whatever has been reported. -/
def Reached (reached : Option (ℕ × Bool)) (k : ℕ) (st : UpgradeJobStep) : Prop :=
  ∀ e, reached = some e → if k < e.1 then Left st
    else if k = e.1 ∧ e.2 = true then ¬Unstarted st else st.status = .pending

/-- The invariant. -/
structure Tidy (strategy : Strategy) (steps : List UpgradeJobStep) (reached : Option (ℕ × Bool))
    (failed : Bool) : Prop where
  placed : ∀ (k : ℕ) (st : UpgradeJobStep), steps[k]? = some st → Reached reached k st
  inRange : ∀ i, reached = some (i, true) → i < steps.length
  flag : ∀ (k : ℕ) (st : UpgradeJobStep), steps[k]? = some st → st.seen = .failed → failed = true
  finished : reached = none → (∀ st ∈ steps, st.status = .pending) ∨ ∀ st ∈ steps, Left st
  stopped : strategy = .rolling → ∀ (k : ℕ) (st : UpgradeJobStep), steps[k]? = some st →
    Halted steps k → Unstarted st

/-- A job is tidy. -/
def IsTidy (j : UpgradeJob) : Prop := Tidy j.strategy j.steps j.phase.reached j.failed

variable {j j' : UpgradeJob}

theorem IsTidy.orderly (h : IsTidy j) : Orderly j where
  inOrder n k st st' hlt hn hk hpending := by
    cases hreached : j.phase.reached with
    | none =>
      rcases h.finished hreached with hall | hall
      · exact absurd (hall st' (mem_of_getElem? hk)) hpending
      · exact hall st (mem_of_getElem? hn)
    | some e =>
      have hplaced := h.placed n st hn e hreached
      have hplaced' := h.placed k st' hk e hreached
      have hke : k ≤ e.1 := by
        by_contra hke
        rw [if_neg fun hlt => hke (Nat.le_of_lt hlt), if_neg fun heq => hke (Nat.le_of_eq heq.1)]
          at hplaced'
        exact hpending hplaced'
      rwa [if_pos (Nat.lt_of_lt_of_le hlt hke)] at hplaced
  finished hphase := h.finished (by rw [hphase]; rfl)
  stopped := h.stopped

variable {f : UpgradeJobStep → UpgradeJobStep} {reached reached' : Option (ℕ × Bool)}
  {failed failed' : Bool}

theorem Tidy.change (h : Tidy strategy steps reached failed) (hst : steps[i]? = some st)
    (hmono : failed = true → failed' = true)
    (hrange : ∀ n, reached' = some (n, true) → n < steps.length)
    (hhere : Reached reached' i (f st))
    (hrest : ∀ k st, k ≠ i → Reached reached k st → Reached reached' k st)
    (hfinished : reached' = none → reached = none ∧ st.status ≠ .pending ∧ Left (f st))
    (hflag : (f st).seen = .failed → failed' = true ∧ (strategy = .rolling →
      ∀ (k : ℕ) (st' : UpgradeJobStep), i < k → steps[k]? = some st' → Unstarted st'))
    (hstopped : strategy = .rolling → Halted steps i → Unstarted (f st)) :
    Tidy strategy (steps.modify i f) reached' failed' := by
  have hcases {k : ℕ} {st' : UpgradeJobStep} (hk : (steps.modify i f)[k]? = some st') :
      k = i ∧ st' = f st ∨ k ≠ i ∧ steps[k]? = some st' := by
    rw [getElem?_modify] at hk
    by_cases heq : i = k
    · subst heq
      exact .inl ⟨rfl, by simpa [hst, eq_comm] using hk⟩
    · exact .inr ⟨fun hki => heq hki.symm, by simpa [heq] using hk⟩
  constructor
  case placed =>
    intro k st' hk
    rcases hcases hk with ⟨rfl, rfl⟩ | ⟨hne, hk⟩
    · exact hhere
    · exact hrest k st' hne (h.placed k st' hk)
  case inRange => exact fun n hn => (length_modify f steps i).symm ▸ hrange n hn
  case flag =>
    intro k st' hk hseen
    rcases hcases hk with ⟨-, rfl⟩ | ⟨-, hk⟩
    · exact (hflag hseen).1
    · exact hmono (h.flag k st' hk hseen)
  case finished =>
    intro hnone
    obtain ⟨hbefore, hpending, hleft⟩ := hfinished hnone
    have hall := (h.finished hbefore).resolve_left
      fun hall => hpending (hall st (mem_of_getElem? hst))
    refine .inr fun st' hmem => ?_
    obtain ⟨k, hk⟩ := getElem?_of_mem hmem
    rcases hcases hk with ⟨-, rfl⟩ | ⟨-, hk⟩
    · exact hleft
    · exact hall st' (mem_of_getElem? hk)
  case stopped =>
    intro hrolling k st' hk ⟨n, stf, hlt, hn, hseen⟩
    rcases hcases hn with ⟨rfl, rfl⟩ | ⟨-, hn'⟩
    · have hother := (hcases hk).resolve_left fun h => Nat.ne_of_gt hlt h.1
      exact (hflag hseen).2 hrolling k st' hlt hother.2
    · rcases hcases hk with ⟨rfl, rfl⟩ | ⟨-, hk'⟩
      · exact hstopped hrolling ⟨n, stf, hlt, hn', hseen⟩
      · exact h.stopped hrolling k st' hk' ⟨n, stf, hlt, hn', hseen⟩

theorem reached_none : Reached none k st := by rintro _ ⟨⟩

theorem reached_succ {busy : Bool} (hne : k ≠ i) (h : Reached (some (i, busy)) k st) :
    Reached (some (i + 1, false)) k st := by
  rintro e ⟨⟩
  have hplaced := h _ rfl
  have hlt : k < i + 1 ↔ k < i := by omega
  simpa only [hlt, hne, false_and, if_false, Bool.false_eq_true, and_false] using hplaced

theorem Tidy.leave (h : Tidy strategy steps (some (i, true)) failed) (hleft : ∀ st, Left (f st))
    (hmono : failed = true → failed' = true)
    (hflag : ∀ st, (f st).seen = .failed → failed' = true) :
    Tidy strategy (steps.modify i f) (some (i + 1, false)) failed' := by
  have hst := getElem?_eq_getElem (h.inRange i rfl)
  refine h.change hst hmono nofun ?_ (fun k st hne => reached_succ hne) nofun
    (fun hseen => ⟨hflag _ hseen, fun _ k st' hlt hk => .inl ?_⟩) fun hrolling hhalted => ?_
  · rintro e ⟨⟩
    rw [if_pos (Nat.lt_succ_self i)]
    exact hleft _
  · have hplaced := h.placed k st' hk _ rfl
    rwa [if_neg (Nat.lt_asymm hlt), if_neg fun heq => Nat.ne_of_gt hlt heq.1] at hplaced
  · have hplaced := h.placed i _ hst _ rfl
    rw [if_neg (Nat.lt_irrefl i), if_pos ⟨rfl, rfl⟩] at hplaced
    exact absurd (h.stopped hrolling i _ hst hhalted) hplaced

theorem isTidy_noteStart (j : UpgradeJob) (i : ℕ) (phase : DriverPhase) :
    IsTidy { j.noteStart i with phase } ↔ Tidy j.strategy j.steps phase.reached j.failed := by
  unfold noteStart
  split
  · rfl
  · rfl

theorem Tidy.next (h : Tidy j.strategy j.steps (some (i, false)) j.failed) :
    IsTidy (j.next i) := by
  unfold UpgradeJob.next
  split
  next hnone =>
    have hall (st : UpgradeJobStep) (hmem : st ∈ j.steps) : Left st := by
      obtain ⟨k, hk⟩ := getElem?_of_mem hmem
      have hplaced := h.placed k st hk _ rfl
      rwa [if_pos (Nat.lt_of_lt_of_le (List.getElem?_eq_some_iff.1 hk).1
        (List.getElem?_eq_none_iff.1 hnone))] at hplaced
    unfold UpgradeJob.conclude
    split
    · exact ⟨fun _ _ _ => reached_none, nofun, h.flag, fun _ => .inr hall, h.stopped⟩
    · exact ⟨fun _ _ _ => reached_none, nofun, h.flag, fun _ => .inr hall, h.stopped⟩
  next st hst =>
    split
    next hskip =>
      refine h.change hst id nofun ?_ (fun k st hne => reached_succ hne) nofun nofun
        fun _ _ => .inr rfl
      rintro e ⟨⟩
      rw [if_pos (Nat.lt_succ_self i)]
      exact ⟨nofun, nofun⟩
    next hgo =>
      have hstarted : Tidy j.strategy (j.steps.modify i (·.write .running)) (some (i, true))
          j.failed := by
        refine h.change hst id ?_ ?_ (fun k st hne hplaced => ?_) nofun nofun ?_
        · rintro n ⟨⟩
          exact (List.getElem?_eq_some_iff.1 hst).1
        · rintro e ⟨⟩
          rw [if_neg (Nat.lt_irrefl i), if_pos ⟨rfl, rfl⟩]
          exact nofun
        · rintro e ⟨⟩
          simpa only [hne, false_and, if_false, Bool.false_eq_true, and_false] using hplaced _ rfl
        · rintro hrolling ⟨n, stf, -, hn, hseen⟩
          exact absurd ⟨h.flag n stf hn hseen, hrolling⟩ hgo
      cases st.action with
      | upgradeCentral => exact (isTidy_noteStart (j.setStep i _) i (.upgrading i)).2 hstarted
      | upgradeCollector => exact (isTidy_noteStart (j.setStep i _) i (.handing i)).2 hstarted

theorem Reached.of_started (h : Reached reached k st) (hst : ¬Unstarted st) (hleft : Left st')
    (hst' : ¬Unstarted st') : Reached reached k st' := by
  intro e he
  have hplaced := h e he
  split at hplaced
  next hlt => rwa [if_pos hlt]
  next hlt =>
    split at hplaced
    next heq => rwa [if_neg hlt, if_pos heq]
    · exact absurd (.inl hplaced) hst

theorem IsTidy.settle (h : IsTidy j) : IsTidy j.settle := by
  unfold UpgradeJob.settle
  split
  · split
    · exact h
    · exact h
  · exact h

theorem IsTidy.report (h : IsTidy j) {host : String} {completed : Bool}
    {outputLog errorMessage : Option String} :
    IsTidy (j.report host completed outputLog errorMessage) := by
  unfold UpgradeJob.report
  split
  next i hreported =>
    have hmem : i ∈ j.stepsOf host [.waiting, .running] := by
      unfold reported at hreported
      split at hreported
      · split at hreported
        next hsteps =>
          cases hreported
          rw [hsteps]
          exact .head _
        · cases hreported
      · cases hreported
    obtain ⟨st, hst, -, hstatus⟩ := mem_stepsOf.1 hmem
    have hstarted : ¬Unstarted st := by
      rintro (hnot | hnot)
      · simp [hnot] at hstatus
      · simp [hnot] at hstatus
    have hchanged (status : StepStatus) (hleft : status ≠ .pending ∧ status ≠ .running)
        (hskipped : status ≠ .skipped) :
        IsTidy (j.setStep i fun st => { st with status, outputLog, errorMessage }) :=
      h.change hst id h.inRange ((h.placed i st hst).of_started hstarted hleft
          fun hnot => hnot.elim hleft.1 hskipped) (fun _ _ _ => id)
        (fun hnone => ⟨hnone, fun hnot => hstarted (.inl hnot), hleft⟩)
        (fun hseen => ⟨h.flag i st hst hseen, fun hrolling k st' hlt hk =>
          h.stopped hrolling k st' hk ⟨i, st, hlt, hst, hseen⟩⟩)
        fun hrolling hhalted => absurd (h.stopped hrolling i st hst hhalted) hstarted
    exact (hchanged _ (by cases completed <;> decide) (by cases completed <;> decide)).settle
  · split
    · exact h
    · exact h

theorem IsTidy.step {a : UpgradeAction} (h : IsTidy j) (hs : j.step a = some j') : IsTidy j' := by
  cases a with
  | start packageFound =>
    simp only [UpgradeJob.step] at hs
    split at hs
    next hphase =>
      rw [IsTidy, hphase] at h
      split at hs
      · cases hs
        exact h
      · cases hs
        refine ⟨fun _ _ _ => reached_none, by rintro _ ⟨⟩, h.flag,
          fun _ => .inl fun st hmem => ?_, h.stopped⟩
        obtain ⟨k, hk⟩ := getElem?_of_mem hmem
        simpa using h.placed k st hk _ rfl
    · cases hs
  | next =>
    simp only [UpgradeJob.step] at hs
    split at hs
    next hphase =>
      cases hs
      rw [IsTidy, hphase] at h
      exact h.next
    · cases hs
  | centralDone result =>
    simp only [UpgradeJob.step] at hs
    split at hs
    next hphase =>
      cases hs
      rw [IsTidy, hphase] at h
      cases result with
      | ok log => exact h.leave (by simp [Left, UpgradeJobStep.write]) id (by rintro _ ⟨⟩)
      | error e =>
        exact h.leave (by simp [Left, UpgradeJobStep.write]) (fun _ => rfl) fun _ _ => rfl
    · cases hs
  | handOver =>
    simp only [UpgradeJob.step] at hs
    split at hs
    next i hphase =>
      cases hs
      rw [IsTidy, hphase] at h
      exact (isTidy_noteStart (j.setStep i _) i (.loop (i + 1))).2
        (Tidy.leave h (by simp [Left, UpgradeJobStep.write]) id (by rintro _ ⟨⟩))
    · cases hs
  | check host =>
    cases hs
    unfold UpgradeJob.check
    split
    next i _ =>
      unfold noteStart
      split
      · exact h
      · exact h
    · exact h
  | report host completed outputLog errorMessage =>
    cases hs
    exact h.report

end UpgradeJob

open UpgradeJob

/-- **Steps are taken in order** in every run of a new job, whatever is reported and when. -/
theorem orderly_of_run {strategy : Strategy} {nodes : List (String × StepAction)} {j : UpgradeJob}
    (h : Run step (fun _ _ => True) (create strategy nodes) j) : Orderly j := by
  refine (h.invariant (I := IsTidy) ?_ fun hinv _ hs => hinv.step hs).orderly
  have hnew (k : ℕ) (st : UpgradeJobStep) (hk : (create strategy nodes).steps[k]? = some st) :
      st.status = .pending ∧ st.seen = .pending := by
    rw [create, getElem?_map] at hk
    obtain ⟨node, -, rfl⟩ := Option.map_eq_some_iff.1 hk
    exact ⟨rfl, rfl⟩
  refine ⟨fun k st hk e he => ?_, by rintro _ ⟨⟩, fun k st hk hseen => ?_, by rintro ⟨⟩,
    fun _ k st hk _ => .inl (hnew k st hk).1⟩
  · cases he
    simpa using (hnew k st hk).1
  · rw [(hnew k st hk).2] at hseen
    cases hseen

/-- A central that cannot be upgraded ends a rolling job; a collector reports in between. -/
theorem orderly_of_run_failure : ∃ j : UpgradeJob,
    j.steps.map UpgradeJobStep.status = [.completed, .failed, .skipped] ∧ Orderly j := by
  have h : ∃ j ∈ replay step (fun _ _ => True) (create .rolling [("worker1", .upgradeCollector),
      ("central1", .upgradeCentral), ("central2", .upgradeCentral)])
      [.start true, .next, .handOver, .next, .report "worker1" true none none,
        .centralDone (.error "no space"), .next, .next],
      j.steps.map UpgradeJobStep.status = [.completed, .failed, .skipped] := by
    decide +kernel
  obtain ⟨j, hj, hsteps⟩ := h
  exact ⟨j, hsteps, orderly_of_run (run_of_replay hj)⟩

end MonCTL.Upgrades
