import MonCTL.Installer.Remote

/-!
# Keys for the Collectors

The installer asks central for a key of its own for each collector host, and writes it into the env
file of the collector there: the first line with the variable is replaced, and if there is none the
line is added. Keys have letters, digits and underscores only.
-/

namespace MonCTL.Installer

open List Option

open Secrets (Text isSafe isSafe_ascii)

/-- A key that central has minted. -/
structure ApiKey where
  text : Text
  safe : ∀ c ∈ text, isSafe c = true

/-! ### Lines -/

def isLineBreak (c : Char) : Bool :=
  c.toNat ∈ [0x0a, 0x0b, 0x0c, 0x0d, 0x1c, 0x1d, 0x1e, 0x85, 0x2028, 0x2029]

/-- Splitting after the beginning of a line, and maybe just after a carriage return. -/
def splitFrom (afterReturn : Bool) (line : Text) : Text → List Text
  | [] => if line = [] then [] else [line]
  | c :: cs =>
    if afterReturn ∧ c = '\n' then splitFrom false line cs
    else if isLineBreak c then line :: splitFrom (c = '\r') [] cs
    else splitFrom false (line ++ [c]) cs

/-- `str.splitlines`. -/
def splitlines (text : Text) : List Text := splitFrom false [] text

/-- `"\n".join`. -/
def joinLines : List Text → Text
  | [] => []
  | [line] => line
  | line :: next :: lines => line ++ '\n' :: joinLines (next :: lines)

/-! ### The env file -/

/-- The beginning of the line with the key. -/
def keyPrefix : Text := "MONCTL_COLLECTOR_API_KEY=".toList

/-- The first line with a key is replaced. -/
def replaceKey (newKey : Text) : List Text → List Text
  | [] => [keyPrefix ++ newKey]
  | line :: lines =>
    if keyPrefix.isPrefixOf (line.dropWhile isPySpace) then (keyPrefix ++ newKey) :: lines
    else line :: replaceKey newKey lines

/-- `_substitute_api_key`. -/
def substituteApiKey (envContent newKey : Text) : Text :=
  joinLines (replaceKey newKey (splitlines envContent)) ++
    if envContent.getLast? = some '\n' then ['\n'] else []

/-- One of the lines has the key. -/
def HoldsKey (envContent : Text) (key : ApiKey) : Prop :=
    keyPrefix ++ key.text ∈ splitlines envContent
  deriving Decidable

/-- Where the key is. -/
def collectorEnvPath : String × String := ("collector", ".env")

/-! ### Registration -/

/-- What central answers: an error, or a response that may have no key. -/
inductive MintAnswer
  | httpError
  | response (apiKey : Option ApiKey)

inductive RegisterStatus
  | registered
  | skipped
  | failed

/-- The part of `_register_host` on the host: the env file is read and put back with the key, and the
collector is restarted. -/
def writeKey (key : ApiKey) (w : World) : RegisterStatus × World :=
  let cat := w.after w.disk
  if w.next = .done then
    match w.disk.files collectorEnvPath with
    | none => (.failed, cat)
    | some env =>
      let put := cat.after (cat.disk.put collectorEnvPath (substituteApiKey env key.text) cat.next)
      if cat.next = .done then
        (if put.next = .done then .registered else .failed, put.after put.disk)
      else (.failed, put)
  else (.failed, cat)

/-- `_register_host`. -/
def registerHost : MintAnswer → World → RegisterStatus × World
  | .httpError, w => (.failed, w)
  | .response none, w => (.failed, w)
  | .response (some key), w => writeKey key w

/-! ### Lines that are put together -/

def Unbroken (text : Text) : Prop := ∀ c ∈ text, isLineBreak c = false

theorem isSafe_unbroken {c : Char} (h : isSafe c = true) : isLineBreak c = false := by
  have hascii : ∀ n : Fin 128, isSafe (Char.ofNat n) = true → isLineBreak (Char.ofNat n) = false := by
    decide +kernel
  have hc := hascii ⟨c.toNat, isSafe_ascii h⟩
  rw [Char.ofNat_toNat] at hc
  exact hc h

theorem ApiKey.unbroken (key : ApiKey) : Unbroken (keyPrefix ++ key.text) := by
  have hprefix : keyPrefix.any isLineBreak = false := by decide +kernel
  intro c hc
  rcases List.mem_append.1 hc with hc | hc
  · exact Bool.not_eq_true _ ▸ List.any_eq_false.1 hprefix c hc
  · exact isSafe_unbroken (key.safe c hc)

theorem keyLine_ne_nil (key : Text) : keyPrefix ++ key ≠ [] := by
  intro hnil
  have hprefix : keyPrefix ≠ [] := by decide +kernel
  exact hprefix (List.append_eq_nil_iff.1 hnil).1

variable {line : Text}

theorem unbroken_splitFrom {afterReturn : Bool} {text : Text} (hline : Unbroken line) :
    ∀ l ∈ splitFrom afterReturn line text, Unbroken l := by
  induction text generalizing afterReturn line with
  | nil =>
    intro l hl
    rw [splitFrom] at hl
    split at hl
    · cases hl
    · rw [List.mem_singleton.1 hl]
      exact hline
  | cons c cs ih =>
    rw [splitFrom]
    split
    · exact ih hline
    · split
      · intro l hl
        rcases List.mem_cons.1 hl with rfl | hl
        · exact hline
        · exact ih (fun _ hc => absurd hc not_mem_nil) l hl
      next hnot =>
        refine ih fun d hd => ?_
        rcases List.mem_append.1 hd with hd | hd
        · exact hline d hd
        · rw [List.mem_singleton.1 hd]
          exact Bool.not_eq_true _ ▸ hnot

theorem splitFrom_append {text rest : Text} (htext : Unbroken text) :
    splitFrom false line (text ++ rest) = splitFrom false (line ++ text) rest := by
  induction text generalizing line with
  | nil => rw [append_nil, nil_append]
  | cons c cs ih =>
    rw [cons_append, splitFrom, if_neg (by simp),
      if_neg (by simp [htext c mem_cons_self]),
      ih fun d hd => htext d (mem_cons_of_mem c hd), append_assoc]
    rfl

theorem mem_splitlines_joinLines {lines : List Text} (hlines : ∀ l ∈ lines, Unbroken l)
    (hmem : line ∈ lines) (hne : line ≠ []) {ending : Text}
    (hending : ending = [] ∨ ending = ['\n']) : line ∈ splitlines (joinLines lines ++ ending) := by
  induction lines with
  | nil => cases hmem
  | cons first lines ih =>
    have hfirst := hlines first mem_cons_self
    cases lines with
    | nil =>
      obtain rfl := List.mem_singleton.1 hmem
      rw [joinLines, splitlines, splitFrom_append hfirst, nil_append]
      rcases hending with rfl | rfl
      · rw [splitFrom, if_neg hne]
        exact mem_singleton_self line
      · rw [splitFrom, if_neg (by simp), if_pos (by decide)]
        exact mem_cons_self
    | cons next lines =>
      rw [joinLines, splitlines, append_assoc, splitFrom_append hfirst, nil_append,
        cons_append, splitFrom, if_neg (by simp), if_pos (by decide)]
      rcases List.mem_cons.1 hmem with rfl | hmem
      · exact mem_cons_self
      · exact mem_cons_of_mem first
          (ih (fun l hl => hlines l (mem_cons_of_mem first hl)) hmem)

theorem mem_replaceKey (newKey : Text) (lines : List Text) :
    keyPrefix ++ newKey ∈ replaceKey newKey lines := by
  induction lines with
  | nil => exact mem_singleton_self _
  | cons line lines ih =>
    rw [replaceKey]
    split
    · exact mem_cons_self
    · exact mem_cons_of_mem line ih

theorem eq_or_mem_of_mem_replaceKey {newKey l : Text} {lines : List Text}
    (h : l ∈ replaceKey newKey lines) : l = keyPrefix ++ newKey ∨ l ∈ lines := by
  induction lines with
  | nil => exact .inl (List.mem_singleton.1 h)
  | cons line lines ih =>
    rw [replaceKey] at h
    split at h
    · rcases List.mem_cons.1 h with rfl | h
      · exact .inl rfl
      · exact .inr (mem_cons_of_mem line h)
    · rcases List.mem_cons.1 h with rfl | h
      · exact .inr mem_cons_self
      · exact (ih h).imp_right (mem_cons_of_mem line)

/-- **A substituted key is there.** -/
theorem holdsKey_substituteApiKey (env : Text) (key : ApiKey) :
    HoldsKey (substituteApiKey env key.text) key := by
  have hlines : ∀ l ∈ replaceKey key.text (splitlines env), Unbroken l := by
    intro l hl
    rcases eq_or_mem_of_mem_replaceKey hl with rfl | hl
    · exact key.unbroken
    · exact unbroken_splitFrom (fun _ hc => absurd hc not_mem_nil) l hl
  refine mem_splitlines_joinLines hlines (mem_replaceKey _ _) (keyLine_ne_nil _) ?_
  split
  · exact .inr rfl
  · exact .inl rfl

/-! ### What a registration does -/

variable (mint : MintAnswer)

/-- The key that a registration puts on the host: it is minted, the env file can be read, and the new
one gets there. -/
def writtenKey (w : World) : Option ApiKey :=
  match mint with
  | .httpError => none
  | .response none => none
  | .response (some key) =>
    if w.weather 0 = .done ∧ w.disk.files collectorEnvPath ≠ none ∧
      (w.weather 1 = .done ∨ w.weather 1 = .lost) then some key
    else none

/-- Central's answer has a key. -/
def MintAnswer.hasKey : MintAnswer → Bool
  | .httpError => false
  | .response apiKey => apiKey.isSome

/-- A registration loses the env file: it is removed, and the new one does not get there. -/
def Tears (w : World) : Prop :=
  mint.hasKey = true ∧ w.weather 0 = .done ∧ w.disk.files collectorEnvPath ≠ none ∧
    w.weather 1 = .torn
  deriving Decidable

variable {w : World}

theorem writeKey_put (key : ApiKey) (hread : w.weather 0 = .done) {env : Text}
    (henv : w.disk.files collectorEnvPath = some env) : (writeKey key w).2.disk =
      w.disk.put collectorEnvPath (substituteApiKey env key.text) (w.weather 1) := by
  have hnext : w.next = .done := hread
  rw [writeKey, if_pos hnext, henv]
  dsimp only
  split <;> rfl

theorem writeKey_unread (key : ApiKey)
    (hunread : ¬(w.weather 0 = .done ∧ w.disk.files collectorEnvPath ≠ none)) :
    (writeKey key w).2.disk = w.disk := by
  rw [writeKey]
  dsimp only
  split
  next hread =>
    split
    · rfl
    next env henv =>
      refine absurd ⟨hread, ?_⟩ hunread
      rw [henv]
      exact some_ne_none env
  · rfl

/-- **A key that is written is in the env file.** -/
theorem registerHost_written {mint : MintAnswer} {key : ApiKey} (h : writtenKey mint w = some key) :
    ∃ env, (registerHost mint w).2.disk.files collectorEnvPath = some env ∧ HoldsKey env key := by
  cases mint with
  | httpError => cases h
  | response apiKey =>
    cases apiKey with
    | none => cases h
    | some minted =>
      rw [writtenKey] at h
      split at h
      next hwrites =>
        cases h
        obtain ⟨hread, hthere, hput⟩ := hwrites
        obtain ⟨env, henv⟩ := ne_none_iff_exists'.1 hthere
        refine ⟨substituteApiKey env key.text, ?_, holdsKey_substituteApiKey env key⟩
        rw [registerHost, writeKey_put key hread henv, Disk.put]
        dsimp only
        rw [if_pos rfl]
        rcases hput with hput | hput
        · rw [hput]
          rfl
        · rw [hput]
          rfl
      · cases h

/-- **Otherwise the env file stays as it is**, unless it is lost. -/
theorem registerHost_not_written {mint : MintAnswer} (h : writtenKey mint w = none)
    (hwhole : ¬Tears mint w) :
    (registerHost mint w).2.disk.files collectorEnvPath = w.disk.files collectorEnvPath := by
  cases mint with
  | httpError => rfl
  | response apiKey =>
    cases apiKey with
    | none => rfl
    | some minted =>
      rw [registerHost]
      by_cases hread : w.weather 0 = .done ∧ w.disk.files collectorEnvPath ≠ none
      · obtain ⟨env, henv⟩ := ne_none_iff_exists'.1 hread.2
        rw [writeKey_put minted hread.1 henv, Disk.put]
        dsimp only
        rw [if_pos rfl]
        cases hput : w.weather 1 with
        | done => exact absurd h (by simp [writtenKey, hread.1, hread.2, hput])
        | refused => rfl
        | lost => exact absurd h (by simp [writtenKey, hread.1, hread.2, hput])
        | torn => exact absurd ⟨rfl, hread.1, hread.2, hput⟩ hwhole
      · rw [writeKey_unread minted hread]

end MonCTL.Installer
