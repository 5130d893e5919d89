import Mathlib.Data.List.Infix
import MonCTL.Lib.Runs

/-!
# The Directory of Wheels

The registry of Python modules keeps wheels in files. The directory of a wheel is made from the name
that its archive gives, the name of the file is that of the upload or of the package index. Neither
is checked for what it means in a path.

A header that is not ASCII is not a text, and a wheel that has such a name is not accepted.
-/

namespace MonCTL.PythonModules

open List

abbrev Text := List Char

scoped instance : LawfulBEq Text := inferInstance

abbrev Bytes := List UInt8

/-- A path from the root, without dots. -/
abbrev Path := List Text

/-! ### Paths -/

def follow (base : Path) (segment : Text) : Path :=
  if segment = [] ∨ segment = ['.'] then base
  else if segment = ['.', '.'] then base.dropLast
  else base ++ [segment]

/-- The `/` of two paths, as the operating system follows it. -/
def join (base : Path) (text : Text) : Path :=
  (text.splitOn '/').foldl follow (if text.head? = some '/' then [] else base)

/-- A text is one segment of a path, and no dots. -/
def IsSegment (text : Text) : Prop :=
  (text ≠ [] ∧ text ≠ ['.'] ∧ text ≠ ['.', '.']) ∧ '/' ∉ text
  deriving Decidable

theorem IsSegment.join {text : Text} (h : IsSegment text) (base : Path) :
    join base text = base ++ [text] := by
  have hrelative : text.head? ≠ some '/' := fun hhead => h.2 (mem_of_head? hhead)
  rw [PythonModules.join, splitOn_eq_singleton h.2, if_neg hrelative, foldl_cons, foldl_nil, follow,
    if_neg (not_or.2 ⟨h.1.1, h.1.2.1⟩), if_neg h.1.2.2]

/-! ### Names -/

/-- `[-_.]`. -/
def isSeparator (c : Char) : Bool := c = '-' ∨ c = '_' ∨ c = '.'

/-- `re.sub(r"[-_.]+", "-", name)`, after a separator or not. -/
def dashes : Bool → Text → Text
  | _, [] => []
  | after, c :: cs =>
    if isSeparator c then if after then dashes true cs else '-' :: dashes true cs
    else c :: dashes false cs

/-- `normalize_package_name`. -/
def normalizePackageName (name : Text) : Text := (dashes false name).map Char.toLower

/-! ### The registry -/

/-- What is read of an archive: the headers of its METADATA. -/
structure WheelMetadata where
  name : Text
  version : Text

structure WheelFile where
  module : Text
  version : Text
  filename : Text
  sha256Hash : String

/-- The directory of the wheels, the digest, and what can be read of archives. -/
structure Env where
  wheelDir : Path
  sha256 : Bytes → String
  parseWheel : Bytes → Option WheelMetadata

/-- The tables, and the files. -/
structure Registry where
  modules : List Text := []
  wheels : List WheelFile := []
  disk : Path → Option Bytes := fun _ => none

variable {env : Env} {s : Registry}

def Env.packageDir (env : Env) (normalized : Text) : Path := join env.wheelDir normalized

def Env.path (env : Env) (normalized filename : Text) : Path :=
  join (env.packageDir normalized) filename

/-- The record of a wheel that is accepted: no other has its filename, and the file could be
written. -/
def accepted (env : Env) (s : Registry) (filename : Text) (data : Bytes) (written : Bool) :
    Option WheelFile :=
  (env.parseWheel data).bind fun metadata =>
    if written ∧ ∀ w ∈ s.wheels, w.filename ≠ filename then
      some ⟨normalizePackageName metadata.name, metadata.version, filename, env.sha256 data⟩
    else none

/-- `_find_or_create_module` and `_store_wheel_file`. Of a wheel that is not accepted, some
endpoints keep the module. -/
def store (env : Env) (s : Registry) (filename : Text) (data : Bytes) (written keeps : Bool) :
    Registry :=
  match accepted env s filename data written with
  | some w =>
    { modules := s.modules.insert w.module
      wheels := w :: s.wheels
      disk := Function.update s.disk (env.path w.module filename) (some data) }
  | none =>
    match env.parseWheel data with
    | some metadata =>
      if keeps then
        { s with modules := s.modules.insert (normalizePackageName metadata.name) }
      else s
    | none => s

/-- `delete_module`: its wheels, and all that is in its directory. -/
def deleteModule (env : Env) (s : Registry) (name : Text) : Registry :=
  if name ∈ s.modules then
    let normalized := normalizePackageName name
    { modules := s.modules.filter (· ≠ name)
      wheels := s.wheels.filter (·.module ≠ name)
      disk := fun p =>
        if env.packageDir normalized <+: p ∨
            ∃ w ∈ s.wheels, w.module = name ∧ env.path normalized w.filename = p then none
        else s.disk p }
  else s

/-- `delete_version`. -/
def deleteVersion (env : Env) (s : Registry) (name version : Text) : Registry :=
  { s with
    wheels := s.wheels.filter fun w => ¬(w.module = name ∧ w.version = version)
    disk := fun p =>
      if ∃ w ∈ s.wheels, (w.module = name ∧ w.version = version) ∧
          env.path (normalizePackageName name) w.filename = p then none
      else s.disk p }

/-- A request: an upload, an import of what the package index has, or a deletion. -/
inductive Request
  | upload (filename : Text) (data : Bytes) (written keeps : Bool)
  | importFromPypi (filename : Text) (data : Bytes) (written keeps : Bool)
  | deleteModule (name : Text)
  | deleteVersion (name version : Text)

def step (env : Env) (s : Registry) : Request → Registry
  | .upload filename data written keeps =>
    if data ≠ [] ∧ ".whl".toList <:+ filename then store env s filename data written keeps else s
  | .importFromPypi filename data written keeps => store env s filename data written keeps
  | .deleteModule name => deleteModule env s name
  | .deleteVersion name version => deleteVersion env s name version

/-! ### What is to hold -/

/-- The path to which a request writes a wheel, with the record. -/
def writes (env : Env) (s : Registry) : Request → Option WheelFile
  | .upload filename data written _ =>
    if data ≠ [] ∧ ".whl".toList <:+ filename then accepted env s filename data written else none
  | .importFromPypi filename data written _ => accepted env s filename data written
  | _ => none

def Removes (env : Env) (s : Registry) (name : Text) (p : Path) : Request → Prop
  | .deleteModule name' => name' = name ∧ name ∈ s.modules ∧
      (env.packageDir (normalizePackageName name) <+: p ∨
        ∃ w ∈ s.wheels, w.module = name ∧ env.path (normalizePackageName name) w.filename = p)
  | .deleteVersion name' version => name' = name ∧ ∃ w ∈ s.wheels,
      (w.module = name ∧ w.version = version) ∧
        env.path (normalizePackageName name) w.filename = p
  | _ => False

/-- **A request is contained**: what it writes and removes is in the directory of the module, it
overwrites no file of another wheel, and after it all wheels have their files. -/
structure Contained (env : Env) (s : Registry) (r : Request) : Prop where
  written : ∀ w ∈ writes env s r, env.wheelDir ++ [w.module] <+: env.path w.module w.filename
  removed : ∀ name p, Removes env s name p r → env.wheelDir ++ [name] <+: p
  kept : ∀ w ∈ writes env s r, ∀ w' ∈ s.wheels,
    env.path w'.module w'.filename ≠ env.path w.module w.filename
  stored : ∀ w ∈ (step env s r).wheels, ∃ data,
    (step env s r).disk (env.path w.module w.filename) = some data ∧ env.sha256 data = w.sha256Hash

/-- The condition: the filename and the normalized name of a wheel are segments. -/
def Plain (env : Env) : Request → Prop
  | .upload filename data _ _ | .importFromPypi filename data _ _ =>
    ∀ metadata ∈ env.parseWheel data,
      IsSegment filename ∧ IsSegment (normalizePackageName metadata.name)
  | _ => True

/-! ### Runs -/

theorem toLower_cases (c : Char) : c.toLower = c ∨ ∃ n : Fin 26, c = Char.ofNat (65 + n) := by
  by_cases h : 65 ≤ c.toNat ∧ c.toNat ≤ 90
  · refine .inr ⟨⟨c.toNat - 65, by omega⟩, ?_⟩
    dsimp only
    rw [Nat.add_sub_cancel' h.1, Char.ofNat_toNat]
  · exact .inl (dif_neg h)

theorem normalizePackageName_idem (name : Text) :
    normalizePackageName (normalizePackageName name) = normalizePackageName name := by
  have hlower (c : Char) : isSeparator c.toLower = isSeparator c := by
    rcases toLower_cases c with hsame | ⟨n, rfl⟩
    · rw [hsame]
    · revert n
      decide
  have hmap (after : Bool) (t : Text) :
      dashes after (t.map Char.toLower) = (dashes after t).map Char.toLower := by
    induction t generalizing after with
    | nil => cases after <;> rfl
    | cons c cs ih =>
      simp only [map_cons, dashes, hlower, ih]
      split_ifs <;> rfl
  have hdashes (after : Bool) (t : Text) : dashes after (dashes after t) = dashes after t := by
    induction t generalizing after with
    | nil => cases after <;> rfl
    | cons c cs ih =>
      by_cases hc : isSeparator c
      · cases after with
        | true => simpa only [dashes, hc, if_true] using ih true
        | false =>
          have hdash : isSeparator '-' = true := by decide
          simp only [dashes, hc, if_true, Bool.false_eq_true, if_false, hdash, ih]
      · simp only [dashes, hc, if_false, Bool.false_eq_true, ih]
  have htwice : Char.toLower ∘ Char.toLower = Char.toLower := by
    funext c
    rcases toLower_cases c with hsame | ⟨n, rfl⟩
    · exact congrArg Char.toLower hsame
    · revert n
      decide
  rw [normalizePackageName, normalizePackageName, hmap, hdashes, map_map, htwice]

/-- What holds between requests. -/
structure Inv (env : Env) (s : Registry) : Prop where
  normal : ∀ n ∈ s.modules, normalizePackageName n = n ∧ IsSegment n
  segments : ∀ w ∈ s.wheels, w.module ∈ s.modules ∧ IsSegment w.filename
  unique : ∀ w ∈ s.wheels, ∀ w' ∈ s.wheels, w.filename = w'.filename → w = w'
  stored : ∀ w ∈ s.wheels, ∃ data,
    s.disk (env.path w.module w.filename) = some data ∧ env.sha256 data = w.sha256Hash

variable {n filename : Text} {data : Bytes} {written keeps : Bool} {w : WheelFile}

theorem path_eq (hn : IsSegment n) (hf : IsSegment filename) :
    env.path n filename = env.wheelDir ++ [n, filename] := by
  rw [Env.path, Env.packageDir, hn.join, hf.join, append_assoc]
  rfl

theorem Inv.path_eq (h : Inv env s) (hw : w ∈ s.wheels) :
    env.path w.module w.filename = env.wheelDir ++ [w.module, w.filename] :=
  PythonModules.path_eq (h.normal _ (h.segments w hw).1).2 (h.segments w hw).2

theorem of_accepted (h : accepted env s filename data written = some w) :
    ∃ metadata ∈ env.parseWheel data, (∀ w' ∈ s.wheels, w'.filename ≠ filename) ∧
      w = ⟨normalizePackageName metadata.name, metadata.version, filename, env.sha256 data⟩ := by
  obtain ⟨metadata, hmeta, hif⟩ := Option.bind_eq_some_iff.1 h
  split at hif
  next hfresh => exact ⟨metadata, hmeta, hfresh.2, (Option.some.inj hif).symm⟩
  · cases hif

theorem Inv.insert (h : Inv env s) {name : Text} (hname : IsSegment (normalizePackageName name)) :
    ∀ n ∈ s.modules.insert (normalizePackageName name),
      normalizePackageName n = n ∧ IsSegment n := by
  intro n hn
  rcases mem_insert_iff.1 hn with rfl | hn
  · exact ⟨normalizePackageName_idem name, hname⟩
  · exact h.normal n hn

theorem Inv.store (h : Inv env s) (hplain : ∀ metadata ∈ env.parseWheel data,
      IsSegment filename ∧ IsSegment (normalizePackageName metadata.name)) :
    Inv env (store env s filename data written keeps) := by
  rw [PythonModules.store]
  cases haccepted : accepted env s filename data written with
  | some w =>
    obtain ⟨metadata, hmeta, hfresh, rfl⟩ := of_accepted haccepted
    obtain ⟨hf, hn⟩ := hplain metadata hmeta
    dsimp only
    refine ⟨h.insert hn, fun w hw => ?_, fun w hw w' hw' heq => ?_, fun w hw => ?_⟩
    · rcases List.mem_cons.1 hw with rfl | hw
      · exact ⟨mem_insert_self, hf⟩
      · exact ⟨mem_insert_of_mem (h.segments w hw).1, (h.segments w hw).2⟩
    · rcases List.mem_cons.1 hw with rfl | hw
      · rcases List.mem_cons.1 hw' with rfl | hw'
        · rfl
        · exact absurd heq.symm (hfresh w' hw')
      · rcases List.mem_cons.1 hw' with rfl | hw'
        · exact absurd heq (hfresh w hw)
        · exact h.unique w hw w' hw' heq
    · rcases List.mem_cons.1 hw with rfl | hw
      · exact ⟨data, Function.update_self _ _ _, rfl⟩
      · have hne : env.path w.module w.filename ≠
            env.path (normalizePackageName metadata.name) filename := by
          rw [h.path_eq hw, PythonModules.path_eq hn hf]
          simpa using fun _ => hfresh w hw
        dsimp only
        rw [Function.update_of_ne hne]
        exact h.stored w hw
  | none =>
    cases hmeta : env.parseWheel data with
    | some metadata =>
      cases keeps with
      | true =>
        exact ⟨h.insert (hplain metadata hmeta).2,
          fun w hw => ⟨mem_insert_of_mem (h.segments w hw).1, (h.segments w hw).2⟩, h.unique,
          h.stored⟩
      | false => exact h
    | none => exact h

/-- Some wheels are deleted, and files that are not those of the others. -/
theorem Inv.delete (h : Inv env s) {modules : List Text} {wheels : List WheelFile}
    {removed : Path → Prop} [DecidablePred removed] (hmodules : modules ⊆ s.modules)
    (hwheels : wheels ⊆ s.wheels) (hfiles : ∀ w ∈ wheels, w.module ∈ modules ∧
      ¬removed (env.path w.module w.filename)) :
    Inv env ⟨modules, wheels, fun p => if removed p then none else s.disk p⟩ := by
  refine ⟨fun n hn => h.normal n (hmodules hn),
    fun w hw => ⟨(hfiles w hw).1, (h.segments w (hwheels hw)).2⟩,
    fun w hw w' hw' => h.unique w (hwheels hw) w' (hwheels hw'), fun w hw => ?_⟩
  dsimp only
  rw [if_neg (hfiles w hw).2]
  exact h.stored w (hwheels hw)

theorem Inv.step (h : Inv env s) {r : Request} (hplain : Plain env r) :
    Inv env (step env s r) := by
  cases r with
  | upload filename data written keeps =>
    rw [PythonModules.step]
    split
    · exact h.store hplain
    · exact h
  | importFromPypi filename data written keeps => exact h.store hplain
  | deleteModule name =>
    rw [PythonModules.step, deleteModule]
    split
    next hname =>
      obtain ⟨hnormal, hsegment⟩ := h.normal name hname
      refine h.delete (filter_subset_self _) (filter_subset_self _) fun w hw => ?_
      obtain ⟨hw, hmodule⟩ := List.mem_filter.1 hw
      have hne : w.module ≠ name := of_decide_eq_true hmodule
      refine ⟨List.mem_filter.2 ⟨(h.segments w hw).1, decide_eq_true hne⟩, ?_⟩
      rw [h.path_eq hw, hnormal]
      rintro (hdir | ⟨w', hw', rfl, hpath⟩)
      · rw [Env.packageDir, hsegment.join, prefix_append_right_inj] at hdir
        exact hne (by simpa using hdir : name = w.module).symm
      · rw [h.path_eq hw'] at hpath
        exact hne (by simpa using congrArg (fun p => p[env.wheelDir.length]?) hpath.symm)
    · exact h
  | deleteVersion name version =>
    refine h.delete (Subset.refl _) (filter_subset_self _) fun w hw => ?_
    obtain ⟨hmem, hkept⟩ := List.mem_filter.1 hw
    refine ⟨(h.segments w hmem).1, ?_⟩
    rintro ⟨w', hw', ⟨rfl, rfl⟩, hpath⟩
    rw [(h.normal _ (h.segments w' hw').1).1, h.path_eq hw', h.path_eq hmem] at hpath
    obtain ⟨hmodule, hfilename⟩ : w'.module = w.module ∧ w'.filename = w.filename := by
      simpa using hpath
    obtain rfl := h.unique w' hw' w hmem hfilename
    exact of_decide_eq_true hkept ⟨rfl, rfl⟩

theorem Inv.contained (h : Inv env s) {r : Request} (hplain : Plain env r) :
    Contained env s r := by
  have haccepted {filename data written} (hplain : ∀ metadata ∈ env.parseWheel data,
        IsSegment filename ∧ IsSegment (normalizePackageName metadata.name)) :
      ∀ w ∈ accepted env s filename data written,
        env.path w.module w.filename = env.wheelDir ++ [w.module, w.filename] ∧
          ∀ w' ∈ s.wheels, w'.filename ≠ w.filename := by
    intro w hw
    obtain ⟨metadata, hmeta, hfresh, rfl⟩ := of_accepted hw
    exact ⟨PythonModules.path_eq (hplain metadata hmeta).2 (hplain metadata hmeta).1, hfresh⟩
  have hwrites : ∀ w ∈ writes env s r,
      env.path w.module w.filename = env.wheelDir ++ [w.module, w.filename] ∧
        ∀ w' ∈ s.wheels, w'.filename ≠ w.filename := by
    cases r with
    | upload filename data written keeps =>
      rw [writes]
      split
      · exact haccepted hplain
      · exact fun w hw => absurd hw (Option.not_mem_none w)
    | importFromPypi filename data written keeps => exact haccepted hplain
    | deleteModule name => exact fun w hw => absurd hw (Option.not_mem_none w)
    | deleteVersion name version => exact fun w hw => absurd hw (Option.not_mem_none w)
  have hfile {w : WheelFile} (hw : w ∈ s.wheels) :
      env.wheelDir ++ [w.module] <+: env.path (normalizePackageName w.module) w.filename := by
    rw [(h.normal _ (h.segments w hw).1).1, h.path_eq hw]
    exact ⟨[w.filename], by simp⟩
  refine ⟨fun w hw => ?_, fun name p hp => ?_, fun w hw w' hw' => ?_, (h.step hplain).stored⟩
  · rw [(hwrites w hw).1]
    exact ⟨[w.filename], by simp⟩
  · cases r with
    | upload => exact hp.elim
    | importFromPypi => exact hp.elim
    | deleteModule name' =>
      obtain ⟨rfl, hname, hprefix | ⟨w, hw, rfl, rfl⟩⟩ := hp
      · obtain ⟨hnormal, hsegment⟩ := h.normal name' hname
        rwa [hnormal, Env.packageDir, hsegment.join] at hprefix
      · exact hfile hw
    | deleteVersion name' version =>
      obtain ⟨rfl, w, hw, ⟨rfl, rfl⟩, rfl⟩ := hp
      exact hfile hw
  · rw [(hwrites w hw).1, h.path_eq hw']
    simpa using fun _ => (hwrites w hw).2 w' hw'

/-- **The registry stays in its directory**, in every run of plain requests. -/
theorem contained_of_plain (env : Env) (requests : List Request)
    (h : ∀ r ∈ requests, Plain env r) :
    Throughout (step env) (Contained env) {} requests :=
  throughout_of_invariant (I := Inv env)
    (fun _ _ hinv hplain => ⟨hinv.contained hplain, hinv.step hplain⟩)
    ⟨by simp, by simp, by simp, by simp⟩ h

/-- Every archive is of a package `a`. -/
def packageA : Env where
  wheelDir := ["data".toList, "wheels".toList]
  sha256 data := String.ofList (data.map fun b => Char.ofNat b.toNat)
  parseWheel _ := some ⟨"a".toList, "1".toList⟩

theorem contained_of_plain_single :
    Throughout (step packageA) (Contained packageA) {}
      [.upload "a-1-py3-none-any.whl".toList [0] true false, .deleteModule "a".toList] :=
  contained_of_plain packageA _ (by
    simp only [forall_mem_cons]
    exact ⟨fun _ h => by cases h; decide, trivial, fun _ h => absurd h not_mem_nil⟩)

/-- **Outside of its directory**: a filename that starts with two dots and a slash. -/
theorem not_contained :
    packageA.path "a".toList "../b-1.whl".toList =
        ["data".toList, "wheels".toList, "b-1.whl".toList] ∧
      ¬Throughout (step packageA) (Contained packageA) {}
        [.upload "../b-1.whl".toList [0] true false] := by
  refine ⟨by decide +kernel, fun h => ?_⟩
  have hinside := h.1.written ⟨"a".toList, "1".toList, "../b-1.whl".toList, _⟩ rfl
  exact absurd hinside (by decide +kernel)

end MonCTL.PythonModules
