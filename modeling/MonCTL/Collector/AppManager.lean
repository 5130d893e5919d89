import MonCTL.Lib.Dict
import MonCTL.Lib.Runs

/-!
# Loading the Code a Job Asks For

A worker process loads the code of apps and connectors from a directory that it shares with
other workers, and keeps the classes in memory under their id and version. A job also says which
SHA-256 its code has. The manager compares it with the checksum in `metadata.json`, and downloads
the code again when they differ; it does not compare it with what it returns.

The calls of all processes are interleaved step by step: each step reads or writes one file, or
answers one request. Writing a file empties it first, and fills it in a second step. Python keeps
the bytecode of a module beside it and uses it as long as the second of the file's last change
and its size stay the same; both are a file's stamp.
-/

namespace MonCTL.Collector.AppManager

open List

/-! ### Code, files and classes -/

/-- What is loaded: an app or a connector. -/
inductive Kind
  | app
  | connector
  deriving DecidableEq

/-- The entry class of a version that names none. -/
def Kind.defaultEntry : Kind → String
  | .app => "Poller"
  | .connector => "Connector"

/-- Where a version is kept, on central and on disk. -/
structure Key where
  kind : Kind
  id : String
  version : String
  deriving DecidableEq

/-- A version as central has it. -/
structure Release where
  source : String
  checksum : String
  entryClass : String

/-- `module.py`, with the second of its last change. -/
structure Module where
  text : String
  changed : ℕ

/-- What tells whether bytecode is that of a file: the second of its change, and its size. -/
def Module.stamp (m : Module) : ℕ × ℕ := (m.changed, m.text.utf8ByteSize)

/-- `metadata.json`: not there, not readable while it is written, or written. -/
inductive Metadata
  | missing
  | unreadable
  | written (checksum entryClass : String)
  deriving DecidableEq

/-- The directory of a version. Bytecode is kept with its stamp; the text stands for what it was
compiled from. -/
structure Files where
  moduleFile : Option Module := none
  metadata : Metadata := .missing
  bytecode : Option ((ℕ × ℕ) × String) := none

/-- `_get_stored_checksum`: nothing when the file is not there or cannot be read. -/
def Files.storedChecksum (f : Files) : String :=
  match f.metadata with
  | .written checksum _ => checksum
  | _ => ""

/-- The text in `module.py`. -/
def Files.text (f : Files) : Option String := f.moduleFile.map Module.text

/-- The text whose bytecode runs when `module.py` is loaded. -/
def Files.executed (f : Files) : Option String :=
  f.moduleFile.map fun m =>
    match f.bytecode with
    | some (stamp, text) => if stamp = m.stamp then text else m.text
    | none => m.text

/-- A class, by the code that it was loaded from. -/
structure Class where
  source : String
  entryClass : String
  deriving DecidableEq

/-- The digest, and which texts define a class when they are run. Nothing defines no class. -/
structure Interpreter where
  sha256 : String → String
  defines : String → String → Bool
  defines_empty : ∀ entryClass, defines "" entryClass = false

/-! ### Calls -/

/-- How far a call has come. What the later phases carry is what the call has read; `relied` is
the text in `module.py` when the call compared checksums, or the one that it has written. -/
inductive Phase
  | lookup
  | check
  | fetchMetadata
  | fetchCode (entryClass checksum : String)
  | openModule (code entryClass : String)
  | fillModule (code entryClass : String)
  | openMetadata (code entryClass : String)
  | fillMetadata (code entryClass : String)
  | readMetadata (relied : Option String)
  | load (entryClass : String) (relied : Option String)
  | returned (cls : Class)
  | raised
  deriving DecidableEq

/-- A call of `ensure_app` or `ensure_connector` in a process. -/
structure Call where
  process : ℕ
  key : Key
  expected : String
  phase : Phase := .lookup

/-- Central, the shared directory, the classes in the memory of each process, and the calls. What
central has ever had as the code of a version is there to state what is right. -/
structure State where
  releases : Dict Key Release := []
  latest : Dict String String := []
  published : List (Key × String) := []
  disk : Dict Key Files := []
  loaded : Dict (ℕ × Key) Class := []
  calls : List Call := []

namespace State

/-- The directory of a version. -/
def files (s : State) (k : Key) : Files := (s.disk.lookup k).getD {}

/-- A change in the directory of a version. -/
def setFiles (s : State) (k : Key) (f : Files) : State := { s with disk := s.disk.set k f }

/-- The version that central answers a download with: for an app the latest one, whatever the
version is that is asked for. -/
def served (s : State) (k : Key) : Option Release :=
  match k.kind with
  | .app => (s.latest.lookup k.id).bind fun version => s.releases.lookup ⟨.app, k.id, version⟩
  | .connector => s.releases.lookup k

end State

variable (py : Interpreter)

/-- The code in the answer to a download, unless there is none or its checksum is not the one
that the metadata have announced. -/
def downloaded (s : State) (k : Key) (checksum : String) : Option String :=
  match s.served k with
  | none => none
  | some r =>
    if r.source = "" ∨ checksum ≠ "" ∧ py.sha256 r.source ≠ checksum then none
    else some r.source

/-- The stored checksum is another than the expected one, and so not trusted. -/
def differs (stored expected : String) : Bool :=
  expected ≠ "" && stored ≠ "" && stored ≠ expected

/-- The class in memory, unless its checksum on disk is another than the expected one. -/
def cachedClass (s : State) (c : Call) : Option Class :=
  if differs (s.files c.key).storedChecksum c.expected then none
  else s.loaded.lookup (c.process, c.key)

/-- One step of a call: the state it leaves, and how far it comes. -/
def advance (s : State) (c : Call) (second : ℕ) : State × Phase :=
  let f := s.files c.key
  match c.phase with
  | .lookup =>
    match cachedClass s c with
    | some cls => (s, .returned cls)
    | none => ({ s with loaded := s.loaded.filter fun e => e.1 ≠ (c.process, c.key) }, .check)
  | .check =>
    if f.metadata = .missing ∨ differs f.storedChecksum c.expected then (s, .fetchMetadata)
    else (s, .readMetadata f.text)
  | .fetchMetadata =>
    match s.served c.key with
    | none => (s, .raised)
    | some r =>
      (s, .fetchCode (if r.entryClass = "" then c.key.kind.defaultEntry else r.entryClass)
        r.checksum)
  | .fetchCode entryClass checksum =>
    match downloaded py s c.key checksum with
    | none => (s, .raised)
    | some code => (s, .openModule code entryClass)
  | .openModule code entryClass =>
    (s.setFiles c.key { f with moduleFile := some ⟨"", second⟩ }, .fillModule code entryClass)
  | .fillModule code entryClass =>
    (s.setFiles c.key { f with moduleFile := some ⟨code, second⟩ }, .openMetadata code entryClass)
  | .openMetadata code entryClass =>
    (s.setFiles c.key { f with metadata := .unreadable }, .fillMetadata code entryClass)
  | .fillMetadata code entryClass =>
    (s.setFiles c.key { f with metadata := .written (py.sha256 code) entryClass },
      .readMetadata (some code))
  | .readMetadata relied =>
    match f.metadata with
    | .written _ entryClass => (s, .load entryClass relied)
    | _ => (s, .raised)
  | .load entryClass _ =>
    match f.moduleFile, f.executed with
    | some m, some text =>
      let s := s.setFiles c.key { f with bytecode := some (m.stamp, text) }
      if py.defines text entryClass then
        ({ s with loaded := s.loaded.set (c.process, c.key) ⟨text, entryClass⟩ },
          .returned ⟨text, entryClass⟩)
      else (s, .raised)
    | _, _ => (s, .raised)
  | .returned cls => (s, .returned cls)
  | .raised => (s, .raised)

/-! ### Runs -/

/-- What can happen: code is published on central, or withdrawn, or made the latest; a process
makes a call, takes a step of it at some second, or the step raises; a process ends. -/
inductive Action
  | publish (k : Key) (r : Release)
  | withdraw (k : Key)
  | setLatest (id version : String)
  | call (process : ℕ) (k : Key) (expected : String)
  | advance (i second : ℕ)
  | raise (i : ℕ)
  | exit (process : ℕ)

/-- The call is over. -/
def Phase.isOver : Phase → Bool
  | .returned _ => true
  | .raised => true
  | _ => false

/-- A step of the system. -/
def step (s : State) : Action → Option State
  | .publish k r =>
    some { s with
      releases := s.releases.set k r, published := (k, r.source) :: s.published }
  | .withdraw k => some { s with releases := s.releases.filter fun e => e.1 ≠ k }
  | .setLatest id version => some { s with latest := s.latest.set id version }
  | .call process k expected => some { s with calls := s.calls ++ [⟨process, k, expected, .lookup⟩] }
  | .advance i second =>
    match s.calls[i]? with
    | none => none
    | some c =>
      if c.phase.isOver then none
      else
        let r := advance py s c second
        some { r.1 with calls := s.calls.set i { c with phase := r.2 } }
  | .raise i =>
    match s.calls[i]? with
    | none => none
    | some c =>
      if c.phase.isOver then none
      else some { s with calls := s.calls.set i { c with phase := .raised } }
  | .exit process =>
    some { s with
      loaded := s.loaded.filter fun e => e.1.1 ≠ process
      calls := s.calls.map fun c =>
        if c.process = process ∧ c.phase.isOver = false then { c with phase := .raised } else c }

/-! ### What is right, and what disturbs it -/

/-- **What a call has returned is the code it was asked for**: its SHA-256 is the expected one, if
there is one, and it has been the code of that very version. -/
structure State.Right (s : State) : Prop where
  checksum : ∀ c ∈ s.calls, ∀ cls, c.phase = .returned cls → c.expected ≠ "" →
    py.sha256 cls.source = c.expected
  version : ∀ c ∈ s.calls, ∀ cls, c.phase = .returned cls → (c.key, cls.source) ∈ s.published

/-- **Nothing comes between** a step of a call and what it relies on. With an expected checksum:
a class is taken from memory while `metadata.json` still describes it, checksums are compared
while it describes `module.py`, and what is run is the text that was there at the comparison or
that was downloaded. What is downloaded is the version and the code asked for. -/
def Undisturbed (s : State) (c : Call) : Prop :=
  let f := s.files c.key
  match c.phase with
  | .lookup => c.expected ≠ "" → ∀ cls ∈ cachedClass s c,
      f.storedChecksum ≠ "" ∧ f.storedChecksum = py.sha256 cls.source
  | .check => c.expected ≠ "" → f.metadata ≠ .missing →
      differs f.storedChecksum c.expected = false →
      f.storedChecksum ≠ "" ∧ f.text.map py.sha256 = some f.storedChecksum
  | .fetchCode _ checksum => ∀ code ∈ downloaded py s c.key checksum,
      (c.key.kind = .app → s.latest.lookup c.key.id = some c.key.version) ∧
        (c.expected ≠ "" → py.sha256 code = c.expected)
  | .load entryClass relied => c.expected ≠ "" → ∀ text ∈ f.executed,
      py.defines text entryClass = true → relied = some text
  | _ => True

instance (s : State) (c : Call) : Decidable (Undisturbed py s c) := by
  unfold Undisturbed
  dsimp only
  split <;> infer_instance

/-- The step of a call that an action takes, if it takes one, is undisturbed. -/
def Action.Undisturbed (s : State) : Action → Prop
  | .advance i _ => ∀ c ∈ s.calls[i]?, AppManager.Undisturbed py s c
  | _ => True

instance (s : State) : ∀ a, Decidable (Action.Undisturbed py s a)
  | .advance i _ => inferInstanceAs (Decidable (∀ c ∈ s.calls[i]?, _))
  | .publish .. | .withdraw .. | .setLatest .. | .call .. | .raise .. | .exit .. =>
    inferInstanceAs (Decidable True)

/-! ### What every state keeps -/

variable {py}

/-- A text that is nothing, or has been the code of a version. -/
def Known (published : List (Key × String)) (k : Key) (text : String) : Prop :=
  text = "" ∨ (k, text) ∈ published

/-- The files of a version hold no code of another. -/
structure Files.Sound (published : List (Key × String)) (k : Key) (f : Files) : Prop where
  text : ∀ text, f.text = some text → Known published k text
  bytecode : ∀ b, f.bytecode = some b → Known published k b.2

/-- What a call carries, or has returned, is its own code. -/
def Call.Sound (py : Interpreter) (published : List (Key × String)) (c : Call) : Prop :=
  match c.phase with
  | .openModule code _ | .fillModule code _ | .openMetadata code _ | .fillMetadata code _ =>
    (c.key, code) ∈ published ∧ (c.expected ≠ "" → py.sha256 code = c.expected)
  | .readMetadata relied | .load _ relied =>
    c.expected ≠ "" → relied.map py.sha256 = some c.expected
  | .returned cls =>
    (c.key, cls.source) ∈ published ∧ (c.expected ≠ "" → py.sha256 cls.source = c.expected)
  | _ => True

/-- What every state of an undisturbed run satisfies. -/
structure State.Inv (py : Interpreter) (s : State) : Prop where
  releases : ∀ e ∈ s.releases, (e.1, e.2.source) ∈ s.published
  disk : ∀ e ∈ s.disk, e.2.Sound s.published e.1
  loaded : ∀ e ∈ s.loaded, (e.1.2, e.2.source) ∈ s.published
  calls : ∀ c ∈ s.calls, c.Sound py s.published

theorem Files.Sound.executed {published : List (Key × String)} {k : Key} {f : Files}
    (h : f.Sound published k) {text : String} (htext : f.executed = some text) :
    Known published k text := by
  obtain ⟨m, hm, hrun⟩ := Option.map_eq_some_iff.1 htext
  have hown : f.text = some m.text := by rw [Files.text, hm]; rfl
  split at hrun
  next stamp t hbytecode =>
    split at hrun
    · exact hrun ▸ h.bytecode _ hbytecode
    · exact hrun ▸ h.text _ hown
  · exact hrun ▸ h.text _ hown

namespace State.Inv

variable {s : State}

theorem files (h : s.Inv py) (k : Key) : (s.files k).Sound s.published k := by
  rw [State.files]
  cases hfiles : s.disk.lookup k with
  | none => exact ⟨nofun, nofun⟩
  | some f => exact h.disk (k, f) (Dict.mem_of_lookup hfiles)

theorem served (h : s.Inv py) {k : Key} {r : Release} (hr : s.served k = some r)
    (hlatest : k.kind = .app → s.latest.lookup k.id = some k.version) :
    (k, r.source) ∈ s.published := by
  have hlookup : s.releases.lookup k = some r := by
    obtain ⟨kind, id, version⟩ := k
    cases kind with
    | app =>
      rw [State.served, hlatest rfl] at hr
      exact hr
    | connector => exact hr
  exact h.releases (k, r) (Dict.mem_of_lookup hlookup)

theorem setFiles (h : s.Inv py) {k : Key} {f : Files} (hf : f.Sound s.published k) :
    (s.setFiles k f).Inv py where
  releases := h.releases
  disk := by
    intro e he
    obtain he | rfl := Dict.mem_set he
    · exact h.disk e he
    · exact hf
  loaded := h.loaded
  calls := h.calls

end State.Inv

variable {s : State}

theorem mem_published_of_downloaded (h : s.Inv py) {k : Key} {checksum code : String}
    (hcode : downloaded py s k checksum = some code)
    (hlatest : k.kind = .app → s.latest.lookup k.id = some k.version) :
    (k, code) ∈ s.published := by
  rw [downloaded] at hcode
  split at hcode
  · cases hcode
  next r hr =>
    split at hcode
    · cases hcode
    · cases hcode
      exact h.served hr hlatest

theorem sha256_of_cachedClass {c : Call} {cls : Class}
    (hcls : cachedClass s c = some cls) (hexpected : c.expected ≠ "")
    (hstored : (s.files c.key).storedChecksum ≠ "")
    (hsame : (s.files c.key).storedChecksum = py.sha256 cls.source) :
    py.sha256 cls.source = c.expected := by
  rw [cachedClass] at hcls
  split at hcls
  · cases hcls
  next hdiffers =>
    rw [← hsame]
    by_contra hne
    exact hdiffers (by simp [differs, hexpected, hstored, hne])

/-- **What a step of a call does**: the invariant is kept, nothing happens to calls and central,
and what the call carries on is its own code. -/
theorem advance_spec (h : s.Inv py) {c : Call} (hc : c.Sound py s.published)
    (hund : Undisturbed py s c) (second : ℕ) :
    (advance py s c second).1.Inv py ∧ (advance py s c second).1.calls = s.calls ∧
      (advance py s c second).1.published = s.published ∧
      Call.Sound py s.published { c with phase := (advance py s c second).2 } := by
  obtain ⟨process, key, expected, phase⟩ := c
  have hfiles := h.files key
  cases phase with
  | lookup =>
    simp only [advance]
    split
    next cls hcls =>
      have hmem : ((process, key), cls) ∈ s.loaded := by
        simp only [cachedClass] at hcls
        split at hcls
        · cases hcls
        · exact Dict.mem_of_lookup hcls
      refine ⟨h, rfl, rfl, h.loaded _ hmem, fun hexpected => ?_⟩
      obtain ⟨hstored, hsame⟩ := hund hexpected cls hcls
      exact sha256_of_cachedClass hcls hexpected hstored hsame
    · exact ⟨⟨h.releases, h.disk, fun e he => h.loaded e (List.mem_filter.1 he).1, h.calls⟩,
        rfl, rfl, trivial⟩
  | check =>
    simp only [advance]
    split
    · exact ⟨h, rfl, rfl, trivial⟩
    next hkeep =>
      refine ⟨h, rfl, rfl, fun hexpected => ?_⟩
      obtain ⟨hthere, hsame⟩ := not_or.1 hkeep
      have hsame : differs (s.files key).storedChecksum expected = false :=
        Bool.eq_false_iff.2 hsame
      obtain ⟨hstored, htext⟩ := hund hexpected hthere hsame
      rw [htext]
      by_contra hne
      have hdiffer : (s.files key).storedChecksum ≠ expected := fun heq => hne (by rw [heq])
      simp [differs, hstored, hdiffer] at hsame
      exact hexpected hsame
  | fetchMetadata =>
    simp only [advance]
    split
    · exact ⟨h, rfl, rfl, trivial⟩
    · exact ⟨h, rfl, rfl, trivial⟩
  | fetchCode entryClass checksum =>
    simp only [advance]
    split
    · exact ⟨h, rfl, rfl, trivial⟩
    next code hcode =>
      obtain ⟨hlatest, hexpected⟩ := hund code hcode
      exact ⟨h, rfl, rfl, mem_published_of_downloaded h hcode hlatest, hexpected⟩
  | openModule code entryClass =>
    refine ⟨h.setFiles ⟨?_, hfiles.bytecode⟩, rfl, rfl, hc⟩
    rintro _ ⟨⟩
    exact .inl rfl
  | fillModule code entryClass =>
    refine ⟨h.setFiles ⟨?_, hfiles.bytecode⟩, rfl, rfl, hc⟩
    rintro _ ⟨⟩
    exact .inr hc.1
  | openMetadata code entryClass => exact ⟨h.setFiles ⟨hfiles.text, hfiles.bytecode⟩, rfl, rfl, hc⟩
  | fillMetadata code entryClass =>
    refine ⟨h.setFiles ⟨hfiles.text, hfiles.bytecode⟩, rfl, rfl, fun hexpected => ?_⟩
    exact congrArg some (hc.2 hexpected)
  | readMetadata relied =>
    simp only [advance]
    split
    · exact ⟨h, rfl, rfl, hc⟩
    · exact ⟨h, rfl, rfl, trivial⟩
  | load entryClass relied =>
    simp only [advance]
    split
    next m text hm htext =>
      have hknown : Known s.published key text := hfiles.executed htext
      have hset : (s.setFiles key { s.files key with
          bytecode := some (m.stamp, text) }).Inv py := by
        refine h.setFiles ⟨hfiles.text, ?_⟩
        rintro _ ⟨⟩
        exact hknown
      split
      next hdefines =>
        have hmem : (key, text) ∈ s.published := by
          refine hknown.resolve_left fun hempty => ?_
          rw [hempty, py.defines_empty] at hdefines
          cases hdefines
        refine ⟨⟨hset.releases, hset.disk, fun e he => ?_, hset.calls⟩, rfl, rfl, hmem,
          fun hexpected => ?_⟩
        · obtain he | rfl := Dict.mem_set he
          · exact h.loaded e he
          · exact hmem
        · have hrelied : relied = some text := hund hexpected text htext hdefines
          have hsha : relied.map py.sha256 = some expected := hc hexpected
          rw [hrelied] at hsha
          exact Option.some.inj hsha
      · exact ⟨hset, rfl, rfl, trivial⟩
    · exact ⟨h, rfl, rfl, trivial⟩
  | returned cls => exact ⟨h, rfl, rfl, hc⟩
  | raised => exact ⟨h, rfl, rfl, trivial⟩

/-! ### Runs -/

section Mono

variable {published : List (Key × String)} {entry : Key × String}

theorem Files.Sound.mono {k : Key} {f : Files} (h : f.Sound published k) :
    f.Sound (entry :: published) k :=
  ⟨fun t ht => (h.text t ht).imp_right (mem_cons_of_mem _),
    fun b hb => (h.bytecode b hb).imp_right (mem_cons_of_mem _)⟩

theorem Call.Sound.mono {c : Call} (h : c.Sound py published) :
    c.Sound py (entry :: published) := by
  obtain ⟨process, key, expected, phase⟩ := c
  cases phase with
  | openModule | fillModule | openMetadata | fillMetadata | returned =>
    exact ⟨mem_cons_of_mem _ h.1, h.2⟩
  | readMetadata | load => exact h
  | lookup | check | fetchMetadata | fetchCode | raised => trivial

end Mono

theorem State.Inv.step {s' : State} {a : Action} (h : s.Inv py) (hund : a.Undisturbed py s)
    (hs : AppManager.step py s a = some s') : s'.Inv py := by
  cases a with
  | publish k r =>
    cases hs
    refine ⟨fun e he => ?_, fun e he => (h.disk e he).mono,
      fun e he => mem_cons_of_mem _ (h.loaded e he), fun c hc => (h.calls c hc).mono⟩
    obtain he | rfl := Dict.mem_set he
    · exact mem_cons_of_mem _ (h.releases e he)
    · exact mem_cons_self
  | withdraw k =>
    cases hs
    exact ⟨fun e he => h.releases e (List.mem_filter.1 he).1, h.disk, h.loaded, h.calls⟩
  | setLatest id version =>
    cases hs
    exact ⟨h.releases, h.disk, h.loaded, h.calls⟩
  | call process k expected =>
    cases hs
    refine ⟨h.releases, h.disk, h.loaded, fun c hc => ?_⟩
    rcases List.mem_append.1 hc with hc | hc
    · exact h.calls c hc
    · obtain rfl := List.mem_singleton.1 hc
      trivial
  | advance i second =>
    rw [AppManager.step] at hs
    split at hs
    · cases hs
    next c hc =>
    split at hs
    · cases hs
    · cases hs
      obtain ⟨hinv, hcalls, hpublished, hcall⟩ :=
        advance_spec h (h.calls c (mem_of_getElem? hc)) (hund c hc) second
      refine ⟨hinv.releases, hinv.disk, hinv.loaded, fun c' hc' => ?_⟩
      dsimp only
      rw [hpublished]
      rcases mem_or_eq_of_mem_set hc' with hc' | rfl
      · exact h.calls c' hc'
      · exact hcall
  | raise i =>
    rw [AppManager.step] at hs
    split at hs
    · cases hs
    next c hc =>
    split at hs
    · cases hs
    · cases hs
      refine ⟨h.releases, h.disk, h.loaded, fun c' hc' => ?_⟩
      rcases mem_or_eq_of_mem_set hc' with hc' | rfl
      · exact h.calls c' hc'
      · trivial
  | exit process =>
    cases hs
    refine ⟨h.releases, h.disk, fun e he => h.loaded e (List.mem_filter.1 he).1, fun c hc => ?_⟩
    obtain ⟨c', hc', rfl⟩ := List.mem_map.1 hc
    split
    · trivial
    · exact h.calls c' hc'

theorem State.Inv.right (h : s.Inv py) : s.Right py where
  checksum c hc cls hreturned := by
    have hsound := h.calls c hc
    rw [Call.Sound, hreturned] at hsound
    exact hsound.2
  version c hc cls hreturned := by
    have hsound := h.calls c hc
    rw [Call.Sound, hreturned] at hsound
    exact hsound.1

/-- **What undisturbed calls return is right**: after every run in which nothing comes between the
steps of a call and what they rely on, each class returned for an expected checksum is of code with
that checksum, and every class is of code of its version. -/
theorem right_of_run {s : State} (h : Run (step py) (Action.Undisturbed py) {} s) : s.Right py :=
  (h.invariant (I := State.Inv py) ⟨nofun, nofun, nofun, nofun⟩
    fun hinv hund hs => hinv.step hund hs).right

/-! ### An update that another process has fetched -/

/-- A digest that is right for two versions of a poller, which both define its class. -/
def pollers : Interpreter where
  sha256 := fun text =>
    if text = "class Poller: rev = 1" then
      "7a85f08846cc7f158fccc526e758ada688ca24bd9306b0acb2fabe38b11309e5"
    else if text = "class Poller: rev = 2" then
      "5cbdbd7d9685d8326aac930524fa21e25895f8b1d39c7802b3181e62f44ad4b5"
    else ""
  defines := fun text entryClass => text ≠ "" && entryClass = "Poller"
  defines_empty := fun _ => rfl

/-- The first version of the code, the second, and the version number of both. -/
def firstRelease : Release where
  source := "class Poller: rev = 1"
  checksum := "7a85f08846cc7f158fccc526e758ada688ca24bd9306b0acb2fabe38b11309e5"
  entryClass := "Poller"

def secondRelease : Release where
  source := "class Poller: rev = 2"
  checksum := "5cbdbd7d9685d8326aac930524fa21e25895f8b1d39c7802b3181e62f44ad4b5"
  entryClass := "Poller"

def pingKey : Key := ⟨.app, "ping", "1.0"⟩

/-- A call that finds nothing in memory and downloads the code. -/
def download (i second : ℕ) : List Action := List.replicate 10 (.advance i second)

/-- The first version is published and loaded by a process, and then edited. -/
def edited : List Action :=
  [.publish pingKey firstRelease, .setLatest "ping" "1.0",
    .call 0 pingKey firstRelease.checksum] ++ download 0 100 ++ [.publish pingKey secondRelease]

/-- The process that has the first version in memory downloads the second when asked for it. -/
theorem pollers_reload : ∃ s : State, s.Right pollers ∧
    s.calls.map (fun c => c.phase) = [.returned ⟨"class Poller: rev = 1", "Poller"⟩,
      .returned ⟨"class Poller: rev = 2", "Poller"⟩] := by
  have hreplay : ∃ s ∈ replay (step pollers) (Action.Undisturbed pollers) {}
      (edited ++ [.call 0 pingKey secondRelease.checksum] ++ download 1 200),
      s.calls.map (fun c => c.phase) = [.returned ⟨"class Poller: rev = 1", "Poller"⟩,
        .returned ⟨"class Poller: rev = 2", "Poller"⟩] := by decide +kernel
  obtain ⟨s, hs, hphases⟩ := hreplay
  exact ⟨s, right_of_run (run_of_replay hs), hphases⟩

/-- **The code of an update that another process has fetched** is not what a process returns that
has the old class in memory: the checksum on disk is then the new one. -/
theorem not_right_of_refresh :
    ¬∀ s, Run (step pollers) (fun _ _ => True) {} s → s.Right pollers := by
  intro hall
  have hreplay : ∃ s ∈ replay (step pollers) (fun _ _ => True) {}
      (edited ++ [.call 1 pingKey secondRelease.checksum] ++ download 1 200 ++
        [.call 0 pingKey secondRelease.checksum, .advance 2 300]),
      ∃ c ∈ s.calls, c.phase = .returned ⟨"class Poller: rev = 1", "Poller"⟩ ∧
        c.expected = secondRelease.checksum := by decide +kernel
  obtain ⟨s, hs, c, hc, hreturned, hexpected⟩ := hreplay
  have hright := (hall s (run_of_replay hs)).checksum c hc _ hreturned (by rw [hexpected]; decide)
  rw [hexpected] at hright
  exact absurd hright (by decide)

/-- A download for an older version brings the code of the latest. -/
example : ∃ s ∈ replay (step pollers) (fun _ _ => True) {}
    ([.publish pingKey firstRelease, .publish ⟨.app, "ping", "2.0"⟩ secondRelease,
      .setLatest "ping" "2.0", .call 0 pingKey ""] ++ download 0 100),
    s.calls.map (fun c => c.phase) = [.returned ⟨"class Poller: rev = 2", "Poller"⟩] := by
  decide +kernel

end MonCTL.Collector.AppManager
