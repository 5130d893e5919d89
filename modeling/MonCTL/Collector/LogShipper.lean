import Mathlib.Data.List.Infix
import Mathlib.Data.List.Nodup
import Mathlib.Data.String.Basic
import MonCTL.Lib.Dict
import MonCTL.Lib.Runs

/-!
# The Log Shipper

Every few seconds the collector asks its sidecar for the last lines of each container's log, and
posts to central what is new among them. What is new is told by a cursor, the timestamp of the last
new line of the container. A line is an object with a timestamp, or a text; texts are always new,
and leave the cursor where it is. The cursor is moved before the post, which may fail, and carries
at most some thousand lines.

A log only grows, and its lines are named by the container and their place. One action is the
answer of the sidecar for one container, one is the end of a cycle, with its post. Recorded are the
posts that have succeeded, the lines that the sidecar has shown in this cycle, and the lines that a
post has left unshipped by failing or by its cap: such a line is lost when it is shown again and a
post succeeds without it. `str.upper`, `re.search` and the text of an object are parameters. The
payload's other fields are the same in every post and left out.
-/

namespace MonCTL.Collector.LogShipper

open List

/-- `MAX_LINES_PER_BATCH`. -/
def maxLinesPerBatch : ℕ := 5000

/-- `_PER_CONTAINER_RATE_LIMIT`. -/
def perContainerRateLimit : ℕ := 500

/-- How many lines the sidecar is asked for. -/
def tail : ℕ := 200

/-- `_SECRET_PATTERNS`. -/
def secretPatterns : List String :=
  ["(?i)\\b(password|passwd|pwd)\\s*[:=]\\s*\\S+", "(?i)\\b(api[_-]?key|apikey)\\s*[:=]\\s*\\S+",
    "(?i)\\b(token|bearer|secret|jwt)\\s*[:=]\\s*\\S+", "(?i)\\bAuthorization:\\s*Bearer\\s+\\S+",
    "(?i)\\bsnmp_community\\s*[:=]\\s*\\S+"]

/-! ### Lines and entries -/

/-- A line of a log that the sidecar has split. -/
structure LogObject where
  timestamp : Option String
  message : Option String
  stream : Option String := none

/-- What the cursor is compared with. -/
def LogObject.stamp (o : LogObject) : String := o.timestamp.getD ""

inductive LogLine
  | text (s : String)
  | object (o : LogObject)

/-- `isinstance(line, str)`. -/
def LogLine.isText : LogLine → Bool
  | .text _ => true
  | .object _ => false

/-- A line is not newer than a time; a text never is. -/
def LogLine.NotAfter (ts : String) : LogLine → Prop
  | .text _ => True
  | .object o => o.stamp ≤ ts

instance (ts : String) : ∀ l : LogLine, Decidable (l.NotAfter ts)
  | .text _ => inferInstanceAs (Decidable True)
  | .object _ => inferInstanceAs (Decidable (_ ≤ _))

/-- The names of the levels. -/
inductive LogLevel
  | debug
  | info
  | warning
  | error
  | critical

/-- `level_order`. -/
def LogLevel.order : LogLevel → ℕ
  | .debug => 0
  | .info => 1
  | .warning => 2
  | .error => 3
  | .critical => 4

/-- The lowest level that a filter lets through. -/
def minLevel : String → ℕ
  | "DEBUG" => 0
  | "INFO" => 1
  | "WARNING" => 2
  | "ERROR" => 3
  | "CRITICAL" => 4
  | _ => 1

/-- A line, by its container and its place in the log. -/
abbrev LineId := String × ℕ

/-- An entry of a post; `line` says which line it is of, and is not sent. -/
structure LogEntry where
  line : LineId
  timestamp : String
  imageName : String
  level : LogLevel
  stream : String
  message : String

/-- `str.upper`, `re.search` and `str` of an object; and the level filter. -/
structure Config where
  upper : String → String
  search : String → String → Bool
  repr : LogObject → String
  logLevelFilter : String := "INFO"

section

variable (cfg : Config)

/-- `_contains_secret`. -/
def containsSecret (message : String) : Bool := secretPatterns.any fun p => cfg.search p message

/-- `_detect_level`. -/
def detectLevel (message : String) : LogLevel :=
  let upper := (cfg.upper message).toList.take 100
  let mentions (word : String) : Bool := decide (word.toList <:+: upper)
  if mentions "CRITICAL" || mentions "FATAL" then .critical
  else if mentions "ERROR" || mentions "ERR " then .error
  else if mentions "WARNING" || mentions "WARN " then .warning
  else if mentions "DEBUG" then .debug
  else .info

/-- The Docker timestamp in front of a text and what comes after it, if there is one:
`line.find('Z ', 19, 40)`, with a dash and a `T` where a date has them. -/
def splitStamp (line : String) : Option (String × String) :=
  let cs := line.toList
  let at? := (List.range' 19 20).find? fun p => cs[p]? = some 'Z' ∧ cs[p + 1]? = some ' '
  match at? with
  | some p =>
    if 20 < cs.length ∧ cs[4]? = some '-' ∧ cs[10]? = some 'T' then
      some (String.ofList (cs.take (p + 1)), String.ofList (cs.drop (p + 2)))
    else none
  | none => none

def message : LogLine → String
  | .text s => ((splitStamp s).map Prod.snd).getD s
  | .object o => o.message.getD (cfg.repr o)

def entry (name image now : String) (l : LogLine) (i : ℕ) : LogEntry where
  line := (name, i)
  timestamp := match l with
    | .text s => ((splitStamp s).map Prod.fst).getD now
    | .object o => o.timestamp.getD now
  imageName := image
  level := detectLevel cfg (message cfg l)
  stream := match l with
    | .text _ => "stdout"
    | .object o => o.stream.getD "stdout"
  message := message cfg l

/-- What has been taken of a container's new lines. -/
structure Collected where
  entries : List LogEntry := []
  droppedSecret : ℕ := 0
  droppedRate : ℕ := 0

/-- The loop over a container's new lines, after some of them have been shipped. -/
def collect (name image now : String) : ℕ → List (LogLine × ℕ) → Collected
  | _, [] => {}
  | shipped, (l, i) :: rest =>
    if perContainerRateLimit ≤ shipped then
      let c := collect name image now shipped rest
      { c with droppedRate := c.droppedRate + 1 }
    else if containsSecret cfg (message cfg l) then
      let c := collect name image now shipped rest
      { c with droppedSecret := c.droppedSecret + 1 }
    else
      let c := collect name image now (shipped + 1) rest
      { c with entries := entry cfg name image now l i :: c.entries }

end

/-- Whether a line is new: every text is. -/
def isNew (last : String) : LogLine → Bool
  | .text _ => true
  | .object o => decide (last < o.stamp)

/-- Where the last new line moves the cursor. -/
def nextCursor (new : List (LogLine × ℕ)) : Option String :=
  match new.getLast? with
  | some (.object o, _) => o.timestamp
  | _ => none

/-! ### Cycles -/

/-- The logs, the shipper with the entries of its current cycle, and what is recorded. -/
structure State where
  logs : Dict String (List LogLine) := []
  lastTimestamps : Dict String String := []
  droppedSecret : ℕ := 0
  droppedRate : ℕ := 0
  entries : List LogEntry := []
  posts : List (List LogEntry) := []
  shown : List LineId := []
  unshipped : List LineId := []
  lost : List LineId := []

/-- What happens. -/
inductive Action
  | append (container : String) (line : LogLine)
  /-- The sidecar lists a container, and answers with the last lines of its log, or does not. -/
  | fetch (name image now : String) (answered : Bool)
  /-- All containers have been listed, and what is there is posted. -/
  | finish (ok : Bool)

namespace State

/-- The log of a container. -/
def log (s : State) (name : String) : List LogLine := (s.logs.get? name).getD []

/-- The cursor of a container. -/
def cursor (s : State) (name : String) : String := (s.lastTimestamps.get? name).getD ""

/-- The line of a name. -/
def line? (s : State) (id : LineId) : Option LogLine := (s.log id.1)[id.2]?

/-- What the sidecar shows of a log. -/
def tailOf (s : State) (name : String) : List (LogLine × ℕ) :=
  (s.log name).zipIdx.drop ((s.log name).length - tail)

def newLines (s : State) (name : String) : List (LogLine × ℕ) :=
  (s.tailOf name).filter fun e => isNew (s.cursor name) e.1

/-- A container's part of `_fetch_docker_logs`. -/
def fetch (cfg : Config) (s : State) (name image now : String) : State :=
  let new := s.newLines name
  let got := collect cfg name image now 0 new
  { s with
    entries := s.entries ++ got.entries
    droppedSecret := s.droppedSecret + got.droppedSecret
    droppedRate := s.droppedRate + got.droppedRate
    lastTimestamps := match nextCursor new with
      | some ts => s.lastTimestamps.set name ts
      | none => s.lastTimestamps
    shown := s.shown ++ (s.tailOf name).map fun e => (name, e.2) }

/-- The entries that the level filter lets through. -/
def filtered (cfg : Config) (s : State) : List LogEntry :=
  s.entries.filter fun e => minLevel cfg.logLevelFilter ≤ e.level.order

/-- The rest of `_collect_and_ship`. -/
def finish (cfg : Config) (s : State) (ok : Bool) : State :=
  let filtered := s.filtered cfg
  let next := { s with entries := [], shown := [] }
  if filtered.isEmpty then next
  else if ok then
    let posts := s.posts ++ [filtered.take maxLinesPerBatch]
    { next with
      posts
      unshipped := s.unshipped ++ (filtered.drop maxLinesPerBatch).map LogEntry.line
      lost := s.lost ++ s.unshipped.filter fun id =>
        id ∈ s.shown ∧ id ∉ posts.flatten.map LogEntry.line }
  else { next with unshipped := s.unshipped ++ filtered.map LogEntry.line }

def append (s : State) (container : String) (line : LogLine) : State :=
  { s with logs := s.logs.set container (s.log container ++ [line]) }

/-- One step. A container without a name is passed over. -/
def step (cfg : Config) (s : State) : Action → Option State
  | .append container line => some (s.append container line)
  | .fetch name image now answered =>
    some (if answered = true ∧ name ≠ "" then s.fetch cfg name image now else s)
  | .finish ok => some (s.finish cfg ok)

/-- **Shipped once**: no line is in two successful posts, and none that a post has left unshipped
was shown again to a later one without being shipped. -/
structure ShippedOnce (s : State) : Prop where
  once : (s.posts.flatten.map LogEntry.line).Nodup
  noneLost : s.lost = []

/-! ### The condition -/

/-- The lines that are in a successful post or will be in the next one. -/
def taken (s : State) : List LineId := (s.posts.flatten ++ s.entries).map LogEntry.line

def textAt (s : State) (id : LineId) : Bool := ((s.line? id).map LogLine.isText).getD false

/-- **The condition**: the objects of a log come in the order of their timestamps; a text that has
been taken is not shown again, and does not hide objects from the cursor by being the last new line
after them; a post does not fail that has objects in it; and the cap cuts nothing off. -/
def Keeps (cfg : Config) (s : State) : Action → Prop
  | .append _ (.text _) => True
  | .append container (.object o) => ∀ l ∈ s.log container, l.NotAfter o.stamp
  | .fetch name _ _ answered => answered = true →
      (∀ e ∈ s.newLines name, e.1.isText = true → (name, e.2) ∉ s.taken) ∧
      ((∀ e ∈ s.newLines name, e.1.isText = true) ∨
        ∀ e ∈ (s.newLines name).getLast?, e.1.isText = false)
  | .finish ok => (s.filtered cfg).length ≤ maxLinesPerBatch ∧
      (ok = true ∨ ∀ e ∈ s.filtered cfg, s.textAt e.line = true)

instance (cfg : Config) (s : State) : ∀ a, Decidable (s.Keeps cfg a)
  | .append _ (.text _) => inferInstanceAs (Decidable True)
  | .append container (.object o) =>
    inferInstanceAs (Decidable (∀ l ∈ s.log container, l.NotAfter o.stamp))
  | .fetch _ _ _ _ => inferInstanceAs (Decidable (_ → _ ∧ _))
  | .finish _ => inferInstanceAs (Decidable (_ ∧ _))

end State

/-! ### New lines -/

variable {l : LogLine}

theorem LogLine.NotAfter.mono {ts ts' : String} (h : l.NotAfter ts) (hle : ts ≤ ts') :
    l.NotAfter ts' := by
  cases l with
  | text => trivial
  | object o => exact le_trans (show o.stamp ≤ ts from h) hle

theorem isText_of_isNew {last : String} (hnew : isNew last l = true)
    (hold : l.NotAfter last) : l.isText = true := by
  cases l with
  | text => rfl
  | object o => exact absurd (of_decide_eq_true hnew) (not_lt_of_ge hold)

theorem collect_sublist (cfg : Config) (name image now : String) (shipped : ℕ)
    (lines : List (LogLine × ℕ)) :
    ((collect cfg name image now shipped lines).entries.map LogEntry.line).Sublist
      (lines.map fun e => (name, e.2)) := by
  induction lines generalizing shipped with
  | nil => exact .slnil
  | cons e rest ih =>
    rw [collect]
    split
    · exact (ih shipped).cons _
    · split
      · exact (ih shipped).cons _
      · exact (ih (shipped + 1)).cons_cons _

variable {name image now : String} {shipped : ℕ} {lines : List (LogLine × ℕ)} {e : LogEntry}

theorem of_mem_collect {cfg : Config} (h : e ∈ (collect cfg name image now shipped lines).entries) :
    ∃ l i, (l, i) ∈ lines ∧ e = entry cfg name image now l i ∧
      containsSecret cfg (message cfg l) = false := by
  induction lines generalizing shipped with
  | nil => cases h
  | cons x rest ih =>
    have hrest {k : ℕ} (h : e ∈ (collect cfg name image now k rest).entries) :
        ∃ l i, (l, i) ∈ x :: rest ∧ e = entry cfg name image now l i ∧
          containsSecret cfg (message cfg l) = false := by
      obtain ⟨l, i, hmem, he⟩ := ih h
      exact ⟨l, i, .tail _ hmem, he⟩
    rw [collect] at h
    split at h
    · exact hrest h
    · split at h
      · exact hrest h
      next hplain =>
        rcases List.mem_cons.1 h with rfl | h
        · exact ⟨x.1, x.2, .head _, rfl, Bool.eq_false_iff.2 hplain⟩
        · exact hrest h

theorem mem_collect {cfg : Config} (hrate : shipped + lines.length ≤ perContainerRateLimit)
    {i : ℕ} (h : (l, i) ∈ lines)
    (hplain : containsSecret cfg (message cfg l) = false) :
    (name, i) ∈ (collect cfg name image now shipped lines).entries.map LogEntry.line := by
  induction lines generalizing shipped with
  | nil => cases h
  | cons x rest ih =>
    rw [length_cons] at hrate
    rw [collect, if_neg (by omega)]
    rcases List.mem_cons.1 h with rfl | h
    · rw [if_neg (Bool.eq_false_iff.1 hplain)]
      exact .head _
    · split
      · exact ih (by omega) h
      · exact .tail _ (ih (by omega) h)

namespace State

theorem log_append (s : State) (container name : String) (line : LogLine) :
    (s.append container line).log name =
      if name = container then s.log container ++ [line] else s.log name := by
  rw [log, append, Dict.get?_set]
  split
  · rfl
  · rfl

theorem line?_append {s : State} {id : LineId} (h : s.line? id = some l)
    (container : String) (line : LogLine) : (s.append container line).line? id = some l := by
  rw [line?, log_append]
  split
  next heq =>
    rw [line?, heq] at h
    exact getElem?_append_left (List.getElem?_eq_some_iff.1 h).1 ▸ h
  · exact h

theorem line?_of_mem_tailOf {s : State} {e : LogLine × ℕ} (h : e ∈ s.tailOf name) :
    s.line? (name, e.2) = some e.1 :=
  List.mem_zipIdx_iff_getElem?.1 (mem_of_mem_drop h)

theorem mem_tailOf_of_mem_newLines {s : State} {e : LogLine × ℕ}
    (h : e ∈ s.newLines name) : e ∈ s.tailOf name ∧ isNew (s.cursor name) e.1 = true :=
  List.mem_filter.1 h

theorem newLines_sublist (s : State) (name : String) : (s.newLines name).Sublist
    (s.log name).zipIdx :=
  List.filter_sublist.trans (drop_sublist _ _)

theorem length_newLines_le (s : State) (name : String) : (s.newLines name).length ≤ tail := by
  have h := length_filter_le (fun e => isNew (s.cursor name) e.1) (s.tailOf name)
  have hlen : (s.tailOf name).length = (s.log name).length - ((s.log name).length - tail) := by
    rw [tailOf, length_drop, length_zipIdx]
  rw [newLines]
  omega

theorem nodup_newLines (s : State) (name : String) :
    ((s.newLines name).map fun e => ((name, e.2) : LineId)).Nodup := by
  have hplaces : ((s.newLines name).map Prod.snd).Nodup :=
    ((s.newLines_sublist name).map Prod.snd).nodup
      (by rw [zipIdx_map_snd]; exact nodup_range')
  have hmap : (s.newLines name).map (fun e => ((name, e.2) : LineId)) =
      ((s.newLines name).map Prod.snd).map (Prod.mk name) := by
    rw [map_map]
    rfl
  rw [hmap]
  exact hplaces.map (Prod.mk_right_injective name)

theorem cursor_fetch (cfg : Config) (s : State) (name image now name' : String) :
    (s.fetch cfg name image now).cursor name' =
      if name' = name then (nextCursor (s.newLines name)).getD (s.cursor name)
      else s.cursor name' := by
  rw [cursor, fetch]
  dsimp only
  cases nextCursor (s.newLines name) with
  | none =>
    dsimp only
    split
    next heq => rw [heq]; rfl
    · rfl
  | some ts =>
    dsimp only
    rw [Dict.get?_set]
    split
    · rfl
    · rfl

/-- Objects come in the order of their timestamps. -/
def Ordered (lines : List LogLine) : Prop :=
  lines.Pairwise fun l l' => ∀ o, l' = .object o → l.NotAfter o.stamp

/-- **The cursor** passes all new lines, when objects are in order and no text comes last after
them. -/
theorem notAfter_of_mem_newLines {s : State} (hsorted : Ordered (s.log name))
    (hlast : (∀ e ∈ s.newLines name, e.1.isText = true) ∨
      ∀ e ∈ (s.newLines name).getLast?, e.1.isText = false) :
    s.cursor name ≤ (nextCursor (s.newLines name)).getD (s.cursor name) ∧
      ∀ e ∈ s.newLines name, e.1.NotAfter ((nextCursor (s.newLines name)).getD (s.cursor name)) :=
      by
  have htexts (h : ∀ e ∈ s.newLines name, e.1.isText = true) (ts : String) :
      ∀ e ∈ s.newLines name, e.1.NotAfter ts := by
    rintro ⟨l, i⟩ he
    cases l with
    | text => trivial
    | object => exact absurd (h _ he) Bool.false_ne_true
  unfold nextCursor
  cases hcase : (s.newLines name).getLast? with
  | none =>
    rw [List.getLast?_eq_none_iff.1 hcase]
    exact ⟨le_refl _, nofun⟩
  | some x =>
    obtain ⟨before, hnew⟩ := List.getLast?_eq_some_iff.1 hcase
    have hmem : x ∈ s.newLines name := by
      rw [hnew]
      exact mem_append_right _ (.head _)
    obtain ⟨l, i⟩ := x
    cases l with
    | text t =>
      rcases hlast with hlast | hlast
      · exact ⟨le_refl _, htexts hlast _⟩
      · exact absurd (hlast _ hcase) Bool.noConfusion
    | object o =>
      have hlt : s.cursor name < o.stamp := of_decide_eq_true (mem_tailOf_of_mem_newLines hmem).2
      cases hts : o.timestamp with
      | none =>
        rw [LogObject.stamp, hts] at hlt
        exact absurd (String.lt_iff_toList_lt.1 hlt) (not_lt_nil _)
      | some ts =>
        have hstamp : o.stamp = ts := by rw [LogObject.stamp, hts]; rfl
        dsimp only
        rw [hts, Option.getD_some, ← hstamp]
        refine ⟨hlt.le, fun e he => ?_⟩
        have hpairs : ((s.newLines name).map Prod.fst).Pairwise
            fun l l' => ∀ o, l' = .object o → l.NotAfter o.stamp :=
          hsorted.sublist (by
            have := (s.newLines_sublist name).map Prod.fst
            rwa [zipIdx_map_fst] at this)
        rw [hnew, map_append, pairwise_append] at hpairs
        rw [hnew] at he
        rcases List.mem_append.1 he with he | he
        · exact hpairs.2.2 _ (mem_map_of_mem he) _ (.head _) o rfl
        · obtain rfl := List.mem_singleton.1 he
          exact le_refl o.stamp

/-! ### The invariant -/

/-- A line that the filters let through. -/
def Passes (cfg : Config) (l : LogLine) : Prop :=
  containsSecret cfg (message cfg l) = false ∧
    minLevel cfg.logLevelFilter ≤ (detectLevel cfg (message cfg l)).order

/-- **The invariant**: no line has been taken twice, and the cursor has passed what was taken; the
entries say what their lines say; what was left unshipped are texts, and of the lines shown in this
cycle the texts without secrets are in it. -/
structure Inv (cfg : Config) (s : State) : Prop where
  ordered : ∀ name, Ordered (s.log name)
  once : s.taken.Nodup
  behind : ∀ id ∈ s.taken, ∃ l, s.line? id = some l ∧ l.NotAfter (s.cursor id.1)
  plain : ∀ e ∈ s.entries, ∃ l, s.line? e.line = some l ∧ e.level = detectLevel cfg (message cfg l) ∧
    containsSecret cfg (message cfg l) = false
  texts : ∀ id ∈ s.unshipped, ∃ l, s.line? id = some l ∧ l.isText = true ∧ Passes cfg l
  shown : ∀ id ∈ s.shown, ∃ l, s.line? id = some l ∧ (l.isText = true →
    containsSecret cfg (message cfg l) = false → id ∈ s.entries.map LogEntry.line)
  noneLost : s.lost = []

theorem Inv.init (cfg : Config) : Inv cfg {} where
  ordered _ := .nil
  once := .nil
  behind := nofun
  plain := nofun
  texts := nofun
  shown := nofun
  noneLost := rfl

variable {cfg : Config} {s : State}

theorem Inv.append (h : Inv cfg s) {container : String} {line : LogLine}
    (hk : s.Keeps cfg (.append container line)) : Inv cfg (s.append container line) where
  ordered name := by
    rw [log_append]
    split
    · refine List.pairwise_append.2 ⟨h.ordered container, pairwise_singleton _ _, ?_⟩
      intro l hl l' hl' o ho
      obtain rfl := List.mem_singleton.1 hl'
      subst ho
      exact hk l hl
    · exact h.ordered name
  once := h.once
  behind id hid := by
    obtain ⟨l, hline, hafter⟩ := h.behind id hid
    exact ⟨l, line?_append hline _ _, hafter⟩
  plain e he := by
    obtain ⟨l, hline, hsays⟩ := h.plain e he
    exact ⟨l, line?_append hline _ _, hsays⟩
  texts id hid := by
    obtain ⟨l, hline, htext⟩ := h.texts id hid
    exact ⟨l, line?_append hline _ _, htext⟩
  shown id hid := by
    obtain ⟨l, hline, hshown⟩ := h.shown id hid
    exact ⟨l, line?_append hline _ _, hshown⟩
  noneLost := h.noneLost

theorem taken_fetch (cfg : Config) (s : State) (name image now : String) :
    (s.fetch cfg name image now).taken = s.taken ++
      (collect cfg name image now 0 (s.newLines name)).entries.map LogEntry.line := by
  rw [taken, taken, fetch]
  simp only [map_append, append_assoc]

@[simp] theorem log_fetch (cfg : Config) (s : State) (name image now name' : String) :
    (s.fetch cfg name image now).log name' = s.log name' := by
  rw [log, fetch, log]

@[simp] theorem line?_fetch (cfg : Config) (s : State) (name image now : String) (id : LineId) :
    (s.fetch cfg name image now).line? id = s.line? id := by
  rw [line?, log_fetch, line?]

theorem Inv.fetch (h : Inv cfg s)
    (hk : s.Keeps cfg (.fetch name image now true)) : Inv cfg (s.fetch cfg name image now) := by
  obtain ⟨htext, hlast⟩ := hk rfl
  obtain ⟨hmono, hnew⟩ := notAfter_of_mem_newLines (h.ordered name) hlast
  have hsub := collect_sublist cfg name image now 0 (s.newLines name)
  have hcursor {id : LineId} {l : LogLine} (hafter : l.NotAfter (s.cursor id.1)) :
      l.NotAfter ((s.fetch cfg name image now).cursor id.1) := by
    rw [cursor_fetch]
    split
    next heq => exact (heq ▸ hafter).mono hmono
    · exact hafter
  constructor
  case ordered =>
    intro name'
    rw [log_fetch]
    exact h.ordered name'
  case once =>
    -- A line taken before is behind the cursor, so it is not taken again as an object.
    rw [taken_fetch]
    refine List.nodup_append.2 ⟨h.once, (s.nodup_newLines name).sublist hsub, ?_⟩
    rintro id hid id' hid' rfl
    obtain ⟨e, he, rfl⟩ := List.mem_map.1 (hsub.subset hid')
    obtain ⟨hshown, hisnew⟩ := mem_tailOf_of_mem_newLines he
    obtain ⟨l, hline, hafter⟩ := h.behind _ hid
    obtain rfl : e.1 = l := Option.some.inj ((line?_of_mem_tailOf hshown).symm.trans hline)
    exact htext e he (isText_of_isNew hisnew hafter) hid
  case behind =>
    intro id hid
    rw [taken_fetch] at hid
    rw [line?_fetch]
    rcases List.mem_append.1 hid with hid | hid
    · obtain ⟨l, hline, hafter⟩ := h.behind id hid
      exact ⟨l, hline, hcursor hafter⟩
    · obtain ⟨e, he, rfl⟩ := List.mem_map.1 (hsub.subset hid)
      refine ⟨e.1, line?_of_mem_tailOf (mem_tailOf_of_mem_newLines he).1, ?_⟩
      rw [cursor_fetch, if_pos rfl]
      exact hnew e he
  case plain =>
    intro e he
    rw [line?_fetch]
    rw [State.fetch] at he
    rcases List.mem_append.1 he with he | he
    · exact h.plain e he
    · obtain ⟨l, i, hmem, rfl, hplain⟩ := of_mem_collect he
      exact ⟨l, line?_of_mem_tailOf (mem_tailOf_of_mem_newLines hmem).1, rfl, hplain⟩
  case texts =>
    intro id hid
    rw [line?_fetch]
    rw [State.fetch] at hid
    exact h.texts id hid
  case shown =>
    intro id hid
    rw [line?_fetch]
    rw [State.fetch] at hid ⊢
    rw [map_append]
    rcases List.mem_append.1 hid with hid | hid
    · obtain ⟨l, hline, hshown⟩ := h.shown id hid
      exact ⟨l, hline, fun htext hplain => mem_append_left _ (hshown htext hplain)⟩
    · obtain ⟨⟨l, i⟩, he, rfl⟩ := List.mem_map.1 hid
      refine ⟨l, line?_of_mem_tailOf he, fun htext hplain => mem_append_right _ ?_⟩
      have hlen := s.length_newLines_le name
      refine mem_collect (by simp only [tail, perContainerRateLimit] at hlen ⊢; omega)
        (List.mem_filter.2 ⟨he, ?_⟩) hplain
      cases l with
      | text => rfl
      | object => cases htext
  case noneLost =>
    rw [State.fetch]
    exact h.noneLost

theorem mem_filtered : e ∈ s.filtered cfg ↔
    e ∈ s.entries ∧ minLevel cfg.logLevelFilter ≤ e.level.order := by
  rw [filtered, mem_filter, decide_eq_true_iff]

theorem Inv.passes (h : Inv cfg s) {e : LogEntry} (he : e ∈ s.filtered cfg) :
    ∃ l, s.line? e.line = some l ∧ Passes cfg l := by
  obtain ⟨hmem, hlevel⟩ := mem_filtered.1 he
  obtain ⟨l, hline, hsays, hplain⟩ := h.plain e hmem
  exact ⟨l, hline, hplain, hsays ▸ hlevel⟩

theorem Inv.mem_filtered_of_shown (h : Inv cfg s) {id : LineId}
    (hline : s.line? id = some l) (htext : l.isText = true) (hpasses : Passes cfg l)
    (hid : id ∈ s.shown) : id ∈ (s.filtered cfg).map LogEntry.line := by
  obtain ⟨l', hline', hshown⟩ := h.shown id hid
  obtain rfl := Option.some.inj (hline.symm.trans hline')
  obtain ⟨e, he, rfl⟩ := List.mem_map.1 (hshown htext hpasses.1)
  obtain ⟨l', hline', hsays, -⟩ := h.plain e he
  obtain rfl := Option.some.inj (hline.symm.trans hline')
  exact mem_map_of_mem (mem_filtered.2 ⟨he, hsays ▸ hpasses.2⟩)

theorem Inv.finish (h : Inv cfg s) {ok : Bool} (hk : s.Keeps cfg (.finish ok)) :
    Inv cfg (s.finish cfg ok) := by
  obtain ⟨hcap, hfails⟩ := hk
  have hposted : ∀ id ∈ s.posts.flatten.map LogEntry.line, id ∈ s.taken := fun id hid => by
    rw [taken, map_append]
    exact mem_append_left _ hid
  have honce : (s.posts.flatten.map LogEntry.line).Nodup := by
    have hnodup := h.once
    rw [taken, map_append] at hnodup
    exact hnodup.of_append_left
  unfold State.finish
  dsimp only
  split
  · refine ⟨h.ordered, ?_, fun id hid => h.behind id (hposted id ?_), nofun, h.texts, nofun,
      h.noneLost⟩
    · rw [taken, append_nil]
      exact honce
    · rwa [taken, append_nil] at hid
  · split
    · have htake : (s.filtered cfg).take maxLinesPerBatch = s.filtered cfg :=
        take_of_length_le hcap
      have hdrop : (s.filtered cfg).drop maxLinesPerBatch = [] := drop_eq_nil_of_le hcap
      have hsub : ((s.posts.flatten ++ s.filtered cfg).map LogEntry.line).Sublist s.taken :=
        (List.filter_sublist.append_left _).map _
      rw [htake, hdrop]
      refine ⟨h.ordered, ?_, fun id hid => h.behind id ?_, nofun, fun id hid => h.texts id ?_, nofun,
        ?_⟩
      · rw [taken, append_nil, flatten_concat]
        exact h.once.sublist hsub
      · rw [taken, append_nil, flatten_concat] at hid
        exact hsub.subset hid
      · rwa [map_nil, append_nil] at hid
      · dsimp only
        rw [h.noneLost, nil_append, filter_eq_nil_iff]
        intro id hid hlost
        obtain ⟨hshown, hmissing⟩ := of_decide_eq_true hlost
        obtain ⟨l, hline, htext, hpasses⟩ := h.texts id hid
        refine hmissing ?_
        rw [flatten_concat, map_append]
        exact mem_append_right _ (h.mem_filtered_of_shown hline htext hpasses hshown)
    next hfailed =>
      refine ⟨h.ordered, ?_, fun id hid => h.behind id (hposted id ?_), nofun, fun id hid => ?_,
        nofun, h.noneLost⟩
      · rw [taken, append_nil]
        exact honce
      · rwa [taken, append_nil] at hid
      · rcases List.mem_append.1 hid with hid | hid
        · exact h.texts id hid
        · obtain ⟨e, he, rfl⟩ := List.mem_map.1 hid
          obtain ⟨l, hline, hpasses⟩ := h.passes he
          have htext := hfails.resolve_left hfailed e he
          rw [textAt, hline] at htext
          exact ⟨l, hline, htext, hpasses⟩

theorem Inv.step {s' : State} {a : Action} (h : Inv cfg s) (hk : s.Keeps cfg a)
    (hs : s.step cfg a = some s') : Inv cfg s' := by
  cases a with
  | append container line =>
    cases hs
    exact h.append hk
  | fetch name image now answered =>
    cases hs
    split
    next hanswered =>
      rw [hanswered.1] at hk
      exact h.fetch hk
    · exact h
  | finish ok =>
    cases hs
    exact h.finish hk

theorem Inv.shippedOnce (h : Inv cfg s) : ShippedOnce s where
  once := by
    have hnodup := h.once
    rw [taken, map_append] at hnodup
    exact hnodup.of_append_left
  noneLost := h.noneLost

end State

open State

/-- **Every line is shipped once.** After every run under the condition no line is in two
successful posts, and none that was left unshipped is lost. -/
theorem shippedOnce_of_run (cfg : Config) {s : State}
    (h : Run (State.step cfg) (State.Keeps cfg) {} s) : ShippedOnce s :=
  (h.invariant (I := Inv cfg) (.init cfg) fun hinv hk hs => hinv.step hk hs).shippedOnce

/-- Texts of letters, without secrets. -/
def lettersConfig : Config where
  upper := String.toUpper
  search _ _ := false
  repr _ := ""

/-- A line of a log as the sidecar splits it. -/
def stamped (second : String) (message : String) : LogLine :=
  .object ⟨some ("2026-04-04T17:11:" ++ second ++ "Z"), some message, none⟩

/-- Two posts: of two lines with one timestamp, and of what comes later, a text among it. -/
theorem shippedOnce_of_run_twoPosts : ∃ s : State, s.posts.map List.length = [2, 3] ∧
    ShippedOnce s := by
  have h : ∃ s ∈ replay (State.step lettersConfig) (State.Keeps lettersConfig) {}
      [.append "web" (stamped "01" "starting"), .append "web" (stamped "01" "bound"),
        .fetch "web" "nginx" "now" true, .finish true, .append "web" (.text "no stamp"),
        .append "web" (stamped "02" "debug: probed"), .append "web" (stamped "03" "ready"),
        .append "web" (stamped "04" "error: gone"), .fetch "web" "nginx" "now" true,
        .fetch "db" "postgres" "now" false, .finish true],
      s.posts.map List.length = [2, 3] := by
    decide +kernel
  obtain ⟨s, hs, hposts⟩ := h
  exact ⟨s, hposts, shippedOnce_of_run lettersConfig (run_of_replay hs)⟩

theorem not_shippedOnce_of_posts {s : State} {posts : List (List LineId)}
    (h : s.posts.map (·.map LogEntry.line) = posts) (hdup : ¬posts.flatten.Nodup) :
    ¬ShippedOnce s := fun hshipped => by
  have hnodup := hshipped.once
  rw [map_flatten, h] at hnodup
  exact hdup hnodup

/-- **Duplicates and losses.** A text is shipped in every post as long as it is among the last
lines; objects that come out of order are shipped again; and what is in a failed post is lost. -/
theorem not_shippedOnce : (∃ s : State, Run (State.step lettersConfig) (fun _ _ => True) {} s ∧
      s.posts.map (·.map LogEntry.line) = [[("web", 0)], [("web", 0)]] ∧ ¬ShippedOnce s) ∧
    (∃ s : State, Run (State.step lettersConfig) (fun _ _ => True) {} s ∧
      s.posts.map (·.map LogEntry.line) = [[("web", 0), ("web", 1)], [("web", 0)]] ∧
      ¬ShippedOnce s) ∧ (∃ s : State, Run (State.step lettersConfig) (fun _ _ => True) {} s ∧
      s.posts.map (·.map LogEntry.line) = [[("web", 1)]] ∧ ¬ShippedOnce s) := by
  refine ⟨?_, ?_, ?_⟩
  · have h : ∃ s ∈ replay (State.step lettersConfig) (fun _ _ => True) {}
        [.append "web" (.text "ready"), .fetch "web" "nginx" "now" true, .finish true,
          .fetch "web" "nginx" "now" true, .finish true],
        s.posts.map (·.map LogEntry.line) = [[("web", 0)], [("web", 0)]] := by
      decide +kernel
    obtain ⟨s, hs, hposts⟩ := h
    exact ⟨s, run_of_replay hs, hposts, not_shippedOnce_of_posts hposts (by decide)⟩
  · have h : ∃ s ∈ replay (State.step lettersConfig) (fun _ _ => True) {}
        [.append "web" (stamped "02" "ready"), .append "web" (stamped "01" "starting"),
          .fetch "web" "nginx" "now" true, .finish true, .fetch "web" "nginx" "now" true,
          .finish true],
        s.posts.map (·.map LogEntry.line) = [[("web", 0), ("web", 1)], [("web", 0)]] := by
      decide +kernel
    obtain ⟨s, hs, hposts⟩ := h
    exact ⟨s, run_of_replay hs, hposts, not_shippedOnce_of_posts hposts (by decide)⟩
  · have h : ∃ s ∈ replay (State.step lettersConfig) (fun _ _ => True) {}
        [.append "web" (stamped "01" "starting"), .fetch "web" "nginx" "now" true, .finish false,
          .append "web" (stamped "02" "ready"), .fetch "web" "nginx" "now" true, .finish true],
        s.posts.map (·.map LogEntry.line) = [[("web", 1)]] ∧ s.lost = [("web", 0)] := by
      decide +kernel
    obtain ⟨s, hs, hposts, hlost⟩ := h
    refine ⟨s, run_of_replay hs, hposts, fun hshipped => ?_⟩
    rw [hshipped.noneLost] at hlost
    cases hlost

end MonCTL.Collector.LogShipper
