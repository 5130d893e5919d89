import Mathlib.Algebra.Ring.Nat
import MonCTL.Basic
import MonCTL.Lib.Json

/-!
# Command Routing

A command for a collector goes out on the collector's connection, if the central node that is asked
has an entry for it, and through Redis otherwise: every node hears the command, and those that have
an entry send it and push what they got; the first response that is pushed is returned. The listener
of a node handles one command at a time.

Times are numbers of microseconds after the call. What happens to a request on a connection is a
function of the request, and a listener that hears a command still has earlier ones to handle.
Responses that reach Redis at the same time do so in the order of the nodes. How long the client
waits for Redis at most is a setting of its.
-/

namespace MonCTL.Ws.Routing

open List Option

/-- Microseconds in a second. -/
def second : ℕ := 1000000

/-- `REQUEST_TIMEOUT_SECONDS`. -/
def requestTimeout : ℕ := 60 * second

/-- A command for a collector. -/
structure Command where
  collectorId : Uuid
  msgType : String
  payload : Json

/-- What happens to a request on a connection. -/
inductive Behaviour
  /-- A message in reply arrives. -/
  | answers (delay : ℕ) (message : JsonObject)
  /-- Sending it raises. -/
  | fails (text : String)
  /-- No reply arrives, or the socket is gone before it does. -/
  | silent

/-- A connection a node has an entry for. -/
inductive Connection
  /-- The connection the collector uses. -/
  | live (behaviour : String → Json → Behaviour)
  /-- One the collector has left: sending raises, or nothing comes back. -/
  | stale (failure : Option String)

def Connection.behaviour (cmd : Command) : Connection → Behaviour
  | .live f => f cmd.msgType cmd.payload
  | .stale (some text) => .fails text
  | .stale none => .silent

/-! ### One connection -/

/-- How `send_request` ends. -/
inductive Ended
  | message (message : JsonObject)
  | timedOut
  | failed (text : String)

/-- `send_request`. -/
def Behaviour.sendRequest (timeout : ℤ) : Behaviour → Ended
  | .answers delay message => if delay < timeout then .message message else .timedOut
  | .fails text => .failed text
  | .silent => .timedOut

/-- How long `send_request` takes with the timeout of a listener. -/
def Behaviour.takes : Behaviour → ℕ
  | .answers delay _ => min delay requestTimeout
  | .fails _ => 0
  | .silent => requestTimeout

def unwrap (message : JsonObject) : Json := (message.get? "payload").getD (.obj message)

/-- A response, by where it comes from. -/
inductive Response
  /-- The collector's. -/
  | answer (payload : Json)
  /-- That of a node without an answer. -/
  | error (text : String)
  deriving DecidableEq

/-- What the caller gets to see of a response. -/
def Response.value : Response → Json
  | .answer payload => payload
  | .error text => .obj [("success", .bool false), ("error", .str text)]

/-- The response of a node that has sent a command on its connection. -/
def Behaviour.response (b : Behaviour) : Response :=
  match b.sendRequest requestTimeout with
  | .message message => .answer (unwrap message)
  | .timedOut => .error "Collector did not respond in time"
  | .failed text => .error text

/-- What a command can raise. -/
inductive Error
  | keyError (text : String)
  | timeoutError (text : String)
  | sendFailed (text : String)
  | redisError
  deriving DecidableEq

/-- How a command ends for its caller. -/
inductive Outcome
  | returned (response : Response)
  | raised (error : Error)
  /-- It does not end. -/
  | waits
  deriving DecidableEq

/-- The outcome of a command on a connection of the node that is asked. -/
def Behaviour.outcome (timeout : ℤ) (b : Behaviour) : Outcome :=
  match b.sendRequest timeout with
  | .message message => .returned (.answer (unwrap message))
  | .timedOut => .raised (.timeoutError "")
  | .failed text => .raised (.sendFailed text)

/-! ### One node -/

/-- A central node. -/
structure Node where
  /-- `_connections`. -/
  connections : Uuid → Option Connection
  /-- How long each earlier command still takes its listener, if it is subscribed. -/
  listener : Option (List ℕ)

/-- The live connection of a collector, if it is here. -/
def Node.live? (n : Node) (collectorId : Uuid) : Option (String → Json → Behaviour) :=
  match n.connections collectorId with
  | some (.live f) => some f
  | _ => none

/-- How long a command takes the listener. -/
def Node.takes (n : Node) (cmd : Command) : ℕ :=
  match n.connections cmd.collectorId with
  | some conn => (conn.behaviour cmd).takes
  | none => 0

/-- When the listener gets to a command, if these have been published just before. -/
def Node.starts (n : Node) (published : List Command) : ℕ :=
  (n.listener.getD []).sum + (published.map n.takes).sum

def Node.finishes (n : Node) (published : List Command) (cmd : Command) : ℕ :=
  n.starts published + n.takes cmd

/-- Whether a node hears a command and has an entry for the collector. -/
def Node.Responds (n : Node) (cmd : Command) : Prop :=
  n.listener.isSome ∧ (n.connections cmd.collectorId).isSome
  deriving Decidable

/-- `_command_listener_loop` and `_handle_broadcast_command`: what a node pushes, and when. -/
def Node.handleBroadcastCommand (n : Node) (published : List Command) (cmd : Command) :
    Option (ℕ × Response) :=
  match n.listener, n.connections cmd.collectorId with
  | some _, some conn => some (n.finishes published cmd, (conn.behaviour cmd).response)
  | _, _ => none

/-! ### All nodes -/

/-- The central nodes. A collector uses one connection. -/
structure Cluster where
  nodes : List Node
  /-- Whether there is a Redis client. -/
  redis : Bool
  /-- How long the client waits for a reply of Redis at most. -/
  readLimit : Option ℕ
  live_once : nodes.Pairwise fun n m => ∀ id, n.live? id = none ∨ m.live? id = none

namespace Cluster

variable (c : Cluster)

/-- A node of the cluster. -/
abbrev Member := {n : Node // n ∈ c.nodes}

def live? (collectorId : Uuid) : Option (String → Json → Behaviour) :=
  c.nodes.findSome? fun n => n.live? collectorId

/-- When `blpop` gives up, if it does: a timeout of zero seconds is none, and a negative one is
refused. -/
def givesUp (timeout : ℤ) : Option ℤ :=
  let seconds := timeout.tdiv second
  if seconds < 0 then some 0
  else if seconds = 0 then c.readLimit.map Int.ofNat
  else some (c.readLimit.elim (seconds * second) fun limit => min (seconds * second) limit)

/-- What is raised when `blpop` gives up: without an element it is a timeout, and all else comes
from the client. -/
def gaveUp (cmd : Command) (timeout : ℤ) : Error :=
  if 0 < timeout.tdiv second ∧ ∀ limit ∈ c.readLimit, timeout.tdiv second * second ≤ limit then
    .timeoutError ("No central node could route command to collector " ++ cmd.collectorId)
  else .redisError

/-- Whether a response that is pushed then is still waited for. -/
def InTime (timeout : ℤ) (t : ℕ) : Prop := ∀ deadline ∈ c.givesUp timeout, (t : ℤ) < deadline
  deriving Decidable

end Cluster

/-- The first of the responses. -/
def earliest : List (ℕ × Response) → Option (ℕ × Response)
  | [] => none
  | p :: ps =>
    match earliest ps with
    | none => some p
    | some q => some (if p.1 ≤ q.1 then p else q)

namespace Cluster

variable (c : Cluster)

def pushes (published : List Command) (cmd : Command) : List (ℕ × Response) :=
  c.nodes.filterMap fun n => n.handleBroadcastCommand published cmd

/-- The part of `broadcast_command` that goes through Redis. -/
def viaRedis (published : List Command) (cmd : Command) (timeout : ℤ) : Outcome :=
  match earliest ((c.pushes published cmd).filter fun p => c.InTime timeout p.1) with
  | some p => .returned p.2
  | none =>
    match c.givesUp timeout with
    | some _ => .raised (c.gaveUp cmd timeout)
    | none => .waits

/-- `broadcast_command` on a node, if these commands have been published just before. -/
def broadcastCommand (here : c.Member) (published : List Command) (cmd : Command) (timeout : ℤ) :
    Outcome :=
  match here.1.connections cmd.collectorId with
  | some conn => (conn.behaviour cmd).outcome timeout
  | none =>
    if c.redis then c.viaRedis published cmd timeout
    else .raised (.keyError ("Redis unavailable, collector " ++ cmd.collectorId ++
      " not connected locally"))

/-- The outcome of a command where the live connection is. -/
def directly (cmd : Command) (timeout : ℤ) : Outcome :=
  match c.live? cmd.collectorId with
  | some f => (f cmd.msgType cmd.payload).outcome timeout
  | none => .raised (.keyError ("Collector " ++ cmd.collectorId ++ " not connected via WebSocket"))

/-- How often a command is sent on the live connection. -/
def deliveries (here : c.Member) (cmd : Command) : ℕ :=
  match here.1.connections cmd.collectorId with
  | some (.live _) => 1
  | some (.stale _) => 0
  | none =>
    if c.redis then c.nodes.countP fun n => n.listener.isSome && (n.live? cmd.collectorId).isSome
    else 0

/-! ### Reloads -/

/-- The command `config_reload`. -/
def configReload (collectorId : Uuid) : Command := ⟨collectorId, "config_reload", .obj []⟩

def publishes (here : c.Member) (cmd : Command) : List Command :=
  if (here.1.connections cmd.collectorId).isNone && c.redis then [cmd] else []

end Cluster

/-- What a collector adds to the count, once its command has ended. -/
def Outcome.ack : Outcome → Option ℕ
  | .returned _ => some 1
  | .raised _ => some 0
  | .waits => none

namespace Cluster

variable (c : Cluster)

/-- What each of the collectors adds. All commands are published at once, in this order. -/
def acks (here : c.Member) (timeout : ℤ) : List Command → List Uuid → List (Option ℕ)
  | _, [] => []
  | published, id :: ids =>
    (c.broadcastCommand here published (configReload id) timeout).ack ::
      acks here timeout (published ++ c.publishes here (configReload id)) ids

/-- `notify_config_reload`, unless it does not end. -/
def notifyConfigReload (here : c.Member) (ids : List Uuid) (timeout : ℤ) : Option ℕ :=
  ((c.acks here timeout [] ids).mapM id).map List.sum

/-! ### What is to hold -/

end Cluster

/-- The same answer, or an exception. -/
def Outcome.Same : Outcome → Outcome → Prop
  | .returned r, .returned r' => r.value = r'.value
  | .raised _, .raised _ => True
  | _, _ => False

/-- The collector answers within the timeout. -/
def Behaviour.Answers (timeout : ℤ) : Behaviour → Prop
  | .answers delay _ => delay < timeout
  | _ => False

instance (timeout : ℤ) (b : Behaviour) : Decidable (b.Answers timeout) := by
  cases b <;> unfold Behaviour.Answers <;> infer_instance

namespace Cluster

variable (c : Cluster)

/-- **Location transparency**: a command has the outcome it has where the live connection is, that
connection gets it at most once, and what is returned is its answer. -/
structure Transparent (here : c.Member) (published : List Command) (cmd : Command) (timeout : ℤ) :
    Prop where
  same : (c.broadcastCommand here published cmd timeout).Same (c.directly cmd timeout)
  once : c.deliveries here cmd ≤ 1
  fromLive : ∀ r, c.broadcastCommand here published cmd timeout = .returned r →
    ∃ f delay message, c.live? cmd.collectorId = some f ∧
      f cmd.msgType cmd.payload = .answers delay message ∧ r = .answer (unwrap message)

/-- Whether the collector gets the command and answers within the timeout. -/
def Answered (here : c.Member) (published : List Command) (cmd : Command) (timeout : ℤ) : Prop :=
  match here.1.connections cmd.collectorId with
  | some (.live f) => (f cmd.msgType cmd.payload).Answers timeout
  | some (.stale _) => False
  | none => c.redis ∧ ∃ n ∈ c.nodes, n.listener.isSome ∧ ∃ f ∈ n.live? cmd.collectorId,
      (f cmd.msgType cmd.payload).Answers (timeout - n.starts published)

instance (here : c.Member) (published : List Command) (cmd : Command) (timeout : ℤ) :
    Decidable (c.Answered here published cmd timeout) := by
  unfold Answered
  split <;> infer_instance

/-- Which of the collectors answered within the timeout. -/
def answers (here : c.Member) (timeout : ℤ) : List Command → List Uuid → List ℕ
  | _, [] => []
  | published, id :: ids =>
    (if c.Answered here published (configReload id) timeout then 1 else 0) ::
      answers here timeout (published ++ c.publishes here (configReload id)) ids

/-- **Exact counts**: the collectors that are counted are those that answered within the timeout. -/
def CountsAnswers (here : c.Member) (ids : List Uuid) (timeout : ℤ) : Prop :=
  c.acks here timeout [] ids = (c.answers here timeout [] ids).map some ∧
    c.notifyConfigReload here ids timeout = some (c.answers here timeout [] ids).sum

/-! ### When it holds -/

/-- The live connection answers within the timeout, once it has the command. -/
def LiveAnswers (cmd : Command) (timeout : ℤ) : Prop :=
  ∃ f ∈ c.live? cmd.collectorId, (f cmd.msgType cmd.payload).Answers timeout

/-- A node hears the command and has the answer of its live connection in time, and before any
other node has a response. -/
def AnswersFirst (published : List Command) (cmd : Command) (timeout : ℤ) : Prop :=
  ∃ before n after, c.nodes = before ++ n :: after ∧ n.listener.isSome ∧
    (∃ f ∈ n.live? cmd.collectorId, (f cmd.msgType cmd.payload).Answers requestTimeout) ∧
    c.InTime timeout (n.finishes published cmd) ∧
    (∀ m ∈ before, m.Responds cmd → n.finishes published cmd < m.finishes published cmd) ∧
    ∀ m ∈ after, m.Responds cmd → n.finishes published cmd ≤ m.finishes published cmd

/-- `blpop` gives up, and no node has a response before that. -/
def NoneInTime (published : List Command) (cmd : Command) (timeout : ℤ) : Prop :=
  (c.givesUp timeout).isSome ∧
    ∀ n ∈ c.nodes, n.Responds cmd → ¬c.InTime timeout (n.finishes published cmd)

/-- **When a command is routed as if the connection were local.** -/
def Routed (here : c.Member) (published : List Command) (cmd : Command) (timeout : ℤ) : Prop :=
  match here.1.connections cmd.collectorId with
  | some (.live _) => True
  | some (.stale _) => ¬c.LiveAnswers cmd timeout
  | none =>
    if c.redis then
      (c.LiveAnswers cmd timeout → c.AnswersFirst published cmd timeout) ∧
        (¬c.LiveAnswers cmd timeout → c.NoneInTime published cmd timeout)
    else ¬c.LiveAnswers cmd timeout

/-- When a collector is counted as it should: some node has a response in time if the collector has
answered within the timeout, and none has otherwise. -/
def CountedRight (here : c.Member) (published : List Command) (cmd : Command) (timeout : ℤ) :
    Prop :=
  here.1.connections cmd.collectorId = none → c.redis → (c.Answered here published cmd timeout →
      ∃ n ∈ c.nodes, n.Responds cmd ∧ c.InTime timeout (n.finishes published cmd)) ∧
    (¬c.Answered here published cmd timeout → c.NoneInTime published cmd timeout)

/-- **When all collectors are counted as they should.** -/
def Counted (here : c.Member) (timeout : ℤ) : List Command → List Uuid → Prop
  | _, [] => True
  | published, id :: ids => c.CountedRight here published (configReload id) timeout ∧
      Counted here timeout (published ++ c.publishes here (configReload id)) ids

/-! ### The first response -/

end Cluster

variable {ps : List (ℕ × Response)}

theorem earliest_eq_none_iff : earliest ps = none ↔ ps = [] := by
  cases ps with
  | nil => simp only [earliest]
  | cons p ps =>
    rw [earliest]
    cases earliest ps <;> simp only [reduceCtorEq]

variable {p : ℕ × Response}

/-- **The first response**: none comes earlier, and those before it in the list come later. -/
theorem earliest_eq_some (h : earliest ps = some p) :
    ∃ before after, ps = before ++ p :: after ∧ (∀ q ∈ before, p.1 < q.1) ∧
      ∀ q ∈ after, p.1 ≤ q.1 := by
  induction ps generalizing p with
  | nil => cases h
  | cons q ps ih =>
    rw [earliest] at h
    split at h
    next hnone =>
      cases h
      rw [earliest_eq_none_iff] at hnone
      subst hnone
      exact ⟨[], [], rfl, forall_mem_nil _, forall_mem_nil _⟩
    next r hr =>
      obtain ⟨before, after, rfl, hbefore, hafter⟩ := ih hr
      by_cases hle : q.1 ≤ r.1
      · cases (if_pos hle).symm.trans (some.inj h)
        refine ⟨[], _, rfl, forall_mem_nil _, fun q' hq' => ?_⟩
        rcases List.mem_append.1 hq' with hq' | hq'
        · exact hle.trans (hbefore q' hq').le
        · rcases List.mem_cons.1 hq' with rfl | hq'
          · exact hle
          · exact hle.trans (hafter q' hq')
      · cases (if_neg hle).symm.trans (some.inj h)
        refine ⟨q :: before, after, rfl, fun q' hq' => ?_, hafter⟩
        rcases List.mem_cons.1 hq' with rfl | hq'
        · exact not_le.1 hle
        · exact hbefore q' hq'

theorem earliest_append_cons {before after : List (ℕ × Response)}
    (hbefore : ∀ q ∈ before, p.1 < q.1) (hafter : ∀ q ∈ after, p.1 ≤ q.1) :
    earliest (before ++ p :: after) = some p := by
  induction before with
  | nil =>
    rw [nil_append, earliest]
    cases h : earliest after with
    | none => rfl
    | some q =>
      obtain ⟨_, _, rfl, -, -⟩ := earliest_eq_some h
      have hle : p.1 ≤ q.1 := hafter q (mem_append_right _ mem_cons_self)
      simp only [if_pos hle]
  | cons q before ih =>
    have hlt := hbefore q mem_cons_self
    rw [cons_append, earliest, ih fun q' hq' => hbefore q' (mem_cons_of_mem _ hq')]
    simp only [if_neg (not_le.2 hlt)]

/-! ### What a connection and a node give -/

variable {b : Behaviour} {timeout : ℤ}

theorem Behaviour.outcome_of_answers (h : b.Answers timeout) :
    ∃ delay message, b = .answers delay message ∧
      b.outcome timeout = .returned (.answer (unwrap message)) := by
  cases b with
  | answers delay message =>
    have hlt : (delay : ℤ) < timeout := h
    refine ⟨delay, message, rfl, ?_⟩
    rw [outcome, sendRequest, if_pos hlt]
  | fails text => exact h.elim
  | silent => exact h.elim

theorem Behaviour.outcome_of_not (h : ¬b.Answers timeout) :
    ∃ error, b.outcome timeout = .raised error := by
  cases b with
  | answers delay message =>
    have hle : ¬(delay : ℤ) < timeout := h
    rw [outcome, sendRequest, if_neg hle]
    exact ⟨_, rfl⟩
  | fails text => exact ⟨_, rfl⟩
  | silent => exact ⟨_, rfl⟩

theorem Behaviour.same_outcome (b : Behaviour) (timeout : ℤ) :
    (b.outcome timeout).Same (b.outcome timeout) := by
  by_cases h : b.Answers timeout
  · obtain ⟨-, message, -, houtcome⟩ := outcome_of_answers h
    rw [houtcome]
    rfl
  · obtain ⟨error, houtcome⟩ := outcome_of_not h
    rw [houtcome]
    trivial

theorem Behaviour.response_of_answers (h : b.Answers requestTimeout) :
    ∃ delay message, b = .answers delay message ∧ b.response = .answer (unwrap message) := by
  cases b with
  | answers delay message =>
    have hlt : (delay : ℤ) < requestTimeout := h
    refine ⟨delay, message, rfl, ?_⟩
    rw [response, sendRequest, if_pos hlt]
  | fails text => exact h.elim
  | silent => exact h.elim

theorem Behaviour.answers_of_response {payload : Json}
    (h : b.response = .answer payload) : b.Answers requestTimeout := by
  by_contra hnot
  cases b with
  | answers delay message =>
    have hle : ¬(delay : ℤ) < requestTimeout := hnot
    rw [response, sendRequest, if_neg hle] at h
    cases h
  | fails text => cases h
  | silent => cases h

theorem Connection.not_answers_stale (failure : Option String) (cmd : Command) (timeout : ℤ) :
    ¬((Connection.stale failure).behaviour cmd).Answers timeout := by
  cases failure <;> exact id

variable {n : Node} {f : String → Json → Behaviour}

theorem Node.connections_of_live? {id : Uuid}
    (h : n.live? id = some f) : n.connections id = some (.live f) := by
  rw [Node.live?] at h
  split at h
  next g hg =>
    cases h
    exact hg
  · cases h

variable {cmd : Command}

theorem Node.handleBroadcastCommand_of_responds (h : n.Responds cmd)
    (published : List Command) : ∃ conn, n.connections cmd.collectorId = some conn ∧
      n.handleBroadcastCommand published cmd =
        some (n.finishes published cmd, (conn.behaviour cmd).response) := by
  obtain ⟨earlier, hlistener⟩ := isSome_iff_exists.1 h.1
  obtain ⟨conn, hconn⟩ := isSome_iff_exists.1 h.2
  exact ⟨conn, hconn, by rw [handleBroadcastCommand, hlistener, hconn]⟩

variable {published : List Command}

theorem Node.responds_of_handleBroadcastCommand (h : n.handleBroadcastCommand published cmd =
    some p) :
    n.Responds cmd ∧ p.1 = n.finishes published cmd ∧
      ∃ conn, n.connections cmd.collectorId = some conn ∧ p.2 = (conn.behaviour cmd).response := by
  rw [handleBroadcastCommand] at h
  split at h
  next earlier conn hlistener hconn =>
    cases h
    exact ⟨⟨isSome_of_eq_some hlistener, isSome_of_eq_some hconn⟩, rfl, conn, hconn,
      rfl⟩
  · cases h

variable {o : Outcome}

theorem Outcome.ack_eq_one : o.ack = some 1 ↔ ∃ r, o = .returned r := by
  cases o with
  | returned r => exact iff_of_true rfl ⟨r, rfl⟩
  | raised error => simp only [ack, some.injEq, Nat.zero_ne_one, reduceCtorEq, exists_false]
  | waits => simp only [ack, reduceCtorEq, exists_false]

theorem Outcome.ack_eq_zero : o.ack = some 0 ↔ ∃ error, o = .raised error := by
  cases o with
  | returned r => simp only [ack, some.injEq, Nat.one_ne_zero, reduceCtorEq, exists_false]
  | raised error => exact iff_of_true rfl ⟨error, rfl⟩
  | waits => simp only [ack, reduceCtorEq, exists_false]

theorem mapM_id_map_some {α : Type} (l : List α) : (l.map some).mapM id = some l := by
  induction l with
  | nil => rfl
  | cons a l ih =>
    rw [map_cons, mapM_cons, ih]
    rfl

namespace Cluster

variable {c : Cluster}

/-! ### What the cluster gives -/

theorem live?_eq_some_iff {id : Uuid} : c.live? id = some f ↔ ∃ n ∈ c.nodes, n.live? id = some f :=
    by
  rw [live?]
  constructor
  · exact exists_of_findSome?_eq_some
  · rintro ⟨n, hn, hf⟩
    obtain ⟨before, after, hnodes⟩ := append_of_mem hn
    have honce := c.live_once
    rw [hnodes, pairwise_append] at honce
    have hnone : ∀ m ∈ before, m.live? id = none := by
      intro m hm
      rcases honce.2.2 m hm n mem_cons_self id with h | h
      · exact h
      · exact absurd (hf.symm.trans h) (some_ne_none f)
    rw [hnodes, findSome?_append, List.findSome?_eq_none_iff.2 hnone, Option.none_or,
      findSome?_cons, hf]

theorem directly_of_liveAnswers (h : c.LiveAnswers cmd timeout) :
    ∃ f delay message, c.live? cmd.collectorId = some f ∧
      f cmd.msgType cmd.payload = .answers delay message ∧
        c.directly cmd timeout = .returned (.answer (unwrap message)) := by
  obtain ⟨f, hf, hanswers⟩ := h
  obtain ⟨delay, message, hb, houtcome⟩ := Behaviour.outcome_of_answers hanswers
  refine ⟨f, delay, message, hf, hb, ?_⟩
  rw [directly, Option.mem_def.1 hf]
  exact houtcome

theorem directly_of_not (h : ¬c.LiveAnswers cmd timeout) :
    ∃ error, c.directly cmd timeout = .raised error := by
  rw [directly]
  cases hf : c.live? cmd.collectorId with
  | some f => exact Behaviour.outcome_of_not fun hanswers => h ⟨f, hf, hanswers⟩
  | none => exact ⟨_, rfl⟩

variable {t t' : ℕ}

theorem InTime.mono (h : c.InTime timeout t) (hle : t' ≤ t) : c.InTime timeout t' := by
  intro deadline hdeadline
  have := h deadline hdeadline
  omega

theorem deliveries_le_one (here : c.Member) (cmd : Command) : c.deliveries here cmd ≤ 1 := by
  rw [deliveries]
  split
  · exact le_rfl
  · exact Nat.zero_le 1
  · split
    · have honce := c.live_once
      generalize c.nodes = nodes at honce
      induction nodes with
      | nil => exact Nat.zero_le 1
      | cons n nodes ih =>
        rw [pairwise_cons] at honce
        rw [countP_cons]
        split
        next h =>
          have hlive := (Bool.and_eq_true_iff.1 h).2
          have hnone : ∀ m ∈ nodes, ¬(m.listener.isSome && (m.live? cmd.collectorId).isSome) := by
            intro m hm hboth
            have hm' := (Bool.and_eq_true_iff.1 hboth).2
            rcases honce.1 m hm cmd.collectorId with h | h
            · rw [h] at hlive
              cases hlive
            · rw [h] at hm'
              cases hm'
          rw [List.countP_eq_zero.2 hnone]
        · exact ih honce.2
    · exact Nat.zero_le 1

/-- The responses that are pushed in time. -/
def inTime (c : Cluster) (published : List Command) (cmd : Command) (timeout : ℤ) :
    List (ℕ × Response) :=
  (c.pushes published cmd).filter fun p => c.InTime timeout p.1

theorem lt_of_not_inTime (h : c.InTime timeout t) (h' : ¬c.InTime timeout t') : t < t' :=
  not_le.1 fun hle => h' (h.mono hle)

/-- **The first response in time** is that of a node that is done before the others. -/
theorem exists_of_earliest (h : earliest (c.inTime published cmd timeout) = some p) :
    ∃ before n after, c.nodes = before ++ n :: after ∧
      n.handleBroadcastCommand published cmd = some p ∧ c.InTime timeout p.1 ∧
      (∀ m ∈ before, m.Responds cmd → p.1 < m.finishes published cmd) ∧
      ∀ m ∈ after, m.Responds cmd → p.1 ≤ m.finishes published cmd := by
  obtain ⟨before', after', happend, hbefore, hafter⟩ := earliest_eq_some h
  obtain ⟨l₁, l₂', hpushes, rfl, hl₂'⟩ := List.filter_eq_append_iff.1 happend
  obtain ⟨l₃, l₂, rfl, hl₃, hp, rfl⟩ := List.filter_eq_cons_iff.1 hl₂'
  have hintime : c.InTime timeout p.1 := of_decide_eq_true hp
  obtain ⟨before₁, rest, hnodes, rfl, hrest⟩ := List.filterMap_eq_append_iff.1 hpushes
  obtain ⟨before₂, rest', rfl, rfl, hrest'⟩ := List.filterMap_eq_append_iff.1 hrest
  obtain ⟨before₃, n, after, rfl, hnone, hn, rfl⟩ := List.filterMap_eq_cons_iff.1 hrest'
  refine ⟨before₁ ++ before₂ ++ before₃, n, after, by simp only [hnodes, append_assoc], hn,
    hintime, fun m hm hresponds => ?_, fun m hm hresponds => ?_⟩
  · obtain ⟨conn, -, hpush⟩ := Node.handleBroadcastCommand_of_responds hresponds published
    by_cases hm' : c.InTime timeout (m.finishes published cmd)
    · rcases List.mem_append.1 hm with hm | hm
      · rcases List.mem_append.1 hm with hm | hm
        · exact hbefore _ (List.mem_filter.2 ⟨List.mem_filterMap.2 ⟨m, hm, hpush⟩,
            decide_eq_true hm'⟩)
        · exact absurd (decide_eq_true hm') (hl₃ _ (List.mem_filterMap.2 ⟨m, hm, hpush⟩))
      · exact absurd (hpush.symm.trans (hnone m hm)) (some_ne_none _)
    · exact lt_of_not_inTime hintime hm'
  · obtain ⟨conn, -, hpush⟩ := Node.handleBroadcastCommand_of_responds hresponds published
    by_cases hm' : c.InTime timeout (m.finishes published cmd)
    · exact hafter _ (List.mem_filter.2 ⟨List.mem_filterMap.2 ⟨m, hm, hpush⟩,
        decide_eq_true hm'⟩)
    · exact (lt_of_not_inTime hintime hm').le

theorem earliest_of_append {before after : List Node} (hnodes : c.nodes = before ++ n :: after)
    (hn : n.handleBroadcastCommand published cmd = some p) (hintime : c.InTime timeout p.1)
    (hbefore : ∀ m ∈ before, m.Responds cmd → p.1 < m.finishes published cmd)
    (hafter : ∀ m ∈ after, m.Responds cmd → p.1 ≤ m.finishes published cmd) :
    earliest (c.inTime published cmd timeout) = some p := by
  have hcons : (n :: after).filterMap (fun m => m.handleBroadcastCommand published cmd) =
      p :: after.filterMap fun m => m.handleBroadcastCommand published cmd :=
    filterMap_cons_some hn
  have hpos : decide (c.InTime timeout p.1) = true := decide_eq_true hintime
  rw [inTime, pushes, hnodes, filterMap_append, hcons, filter_append, filter_cons,
    if_pos hpos]
  refine earliest_append_cons (fun q hq => ?_) fun q hq => ?_
  · obtain ⟨m, hm, hpush⟩ := List.mem_filterMap.1 (List.mem_filter.1 hq).1
    obtain ⟨hresponds, hfinishes, -⟩ := Node.responds_of_handleBroadcastCommand hpush
    rw [hfinishes]
    exact hbefore m hm hresponds
  · obtain ⟨m, hm, hpush⟩ := List.mem_filterMap.1 (List.mem_filter.1 hq).1
    obtain ⟨hresponds, hfinishes, -⟩ := Node.responds_of_handleBroadcastCommand hpush
    rw [hfinishes]
    exact hafter m hm hresponds

theorem earliest_inTime_ne_none : earliest (c.inTime published cmd timeout) ≠ none ↔
      ∃ n ∈ c.nodes, n.Responds cmd ∧ c.InTime timeout (n.finishes published cmd) := by
  constructor
  · intro h
    obtain ⟨p, hp⟩ := ne_none_iff_exists'.1 h
    obtain ⟨before, n, after, hnodes, hpush, hintime, -, -⟩ := exists_of_earliest hp
    obtain ⟨hresponds, hfinishes, -⟩ := Node.responds_of_handleBroadcastCommand hpush
    rw [hfinishes] at hintime
    refine ⟨n, ?_, hresponds, hintime⟩
    rw [hnodes]
    exact mem_append_right _ mem_cons_self
  · rintro ⟨n, hn, hresponds, hintime⟩ hnone
    obtain ⟨conn, -, hpush⟩ := Node.handleBroadcastCommand_of_responds hresponds published
    have hmem : (n.finishes published cmd, (conn.behaviour cmd).response) ∈
        c.inTime published cmd timeout :=
      List.mem_filter.2 ⟨List.mem_filterMap.2 ⟨n, hn, hpush⟩, decide_eq_true hintime⟩
    rw [earliest_eq_none_iff.1 hnone] at hmem
    exact not_mem_nil hmem

/-! ### Through Redis -/

variable {r : Response}

theorem viaRedis_eq_returned : c.viaRedis published cmd timeout = .returned r ↔
      ∃ t, earliest (c.inTime published cmd timeout) = some (t, r) := by
  rw [viaRedis, ← inTime]
  constructor
  · intro h
    split at h
    next p hp =>
      cases h
      exact ⟨p.1, hp⟩
    · split at h <;> cases h
  · rintro ⟨t, ht⟩
    rw [ht]

theorem viaRedis_eq_raised : (∃ error, c.viaRedis published cmd timeout = .raised error) ↔
      c.NoneInTime published cmd timeout := by
  have hnone : earliest (c.inTime published cmd timeout) = none ↔
      ∀ n ∈ c.nodes, n.Responds cmd → ¬c.InTime timeout (n.finishes published cmd) := by
    rw [← not_iff_not, ← Ne, earliest_inTime_ne_none]
    simp only [not_forall, not_not, exists_prop]
  rw [NoneInTime, ← hnone, viaRedis, ← inTime]
  cases earliest (c.inTime published cmd timeout) with
  | some p => simp only [reduceCtorEq, exists_false, and_false]
  | none =>
    cases c.givesUp timeout with
    | some deadline => simp only [Outcome.raised.injEq, exists_eq', Option.isSome_some, and_self]
    | none => simp only [reduceCtorEq, exists_false, Option.isSome_none, false_and,
        Bool.false_eq_true]

/-! ### Location transparency -/

theorem fromLive_of_returned (hf : c.live? cmd.collectorId = some f)
    (h : (f cmd.msgType cmd.payload).outcome timeout = .returned r) :
    ∃ f delay message, c.live? cmd.collectorId = some f ∧
      f cmd.msgType cmd.payload = .answers delay message ∧ r = .answer (unwrap message) := by
  by_cases hanswers : (f cmd.msgType cmd.payload).Answers timeout
  · obtain ⟨delay, message, hb, houtcome⟩ := Behaviour.outcome_of_answers hanswers
    exact ⟨f, delay, message, hf, hb, Outcome.returned.inj (h.symm.trans houtcome)⟩
  · obtain ⟨error, houtcome⟩ := Behaviour.outcome_of_not hanswers
    cases h.symm.trans houtcome

variable {error : Error}

/-- An exception is the outcome where the live connection is exactly if that does not answer within
the timeout. -/
theorem same_raised_directly :
    (Outcome.raised error).Same (c.directly cmd timeout) ↔ ¬c.LiveAnswers cmd timeout := by
  by_cases h : c.LiveAnswers cmd timeout
  · obtain ⟨f, delay, message, -, -, hdirectly⟩ := directly_of_liveAnswers h
    rw [hdirectly]
    exact iff_of_false id (not_not_intro h)
  · obtain ⟨error', hdirectly⟩ := directly_of_not h
    rw [hdirectly]
    exact iff_of_true trivial h

variable {here : c.Member}

/-- A command that raises has the right outcome exactly if the live connection does not answer
within the timeout. -/
theorem transparent_of_raised (h : c.broadcastCommand here published cmd timeout = .raised error) :
    c.Transparent here published cmd timeout ↔ ¬c.LiveAnswers cmd timeout := by
  constructor
  · intro htransparent
    have hsame := htransparent.same
    rw [h] at hsame
    exact same_raised_directly.1 hsame
  · intro hnot
    refine ⟨?_, deliveries_le_one here cmd, fun r hr => ?_⟩
    · rw [h]
      exact same_raised_directly.2 hnot
    · cases h.symm.trans hr

theorem viaRedis_of_answersFirst (h : c.AnswersFirst published cmd timeout) :
    ∃ f delay message, c.live? cmd.collectorId = some f ∧
      f cmd.msgType cmd.payload = .answers delay message ∧
        c.viaRedis published cmd timeout = .returned (.answer (unwrap message)) := by
  obtain ⟨before, n, after, hnodes, hlistener, ⟨f, hf, hanswers⟩, hintime, hbefore, hafter⟩ := h
  have hconn := Node.connections_of_live? hf
  have hn : n ∈ c.nodes := by
    rw [hnodes]
    exact mem_append_right _ mem_cons_self
  obtain ⟨conn, hconn', hpush⟩ := Node.handleBroadcastCommand_of_responds
    ⟨hlistener, isSome_of_eq_some hconn⟩ published
  cases hconn.symm.trans hconn'
  obtain ⟨delay, message, hb, hresponse⟩ := Behaviour.response_of_answers hanswers
  refine ⟨f, delay, message, live?_eq_some_iff.2 ⟨n, hn, hf⟩, hb, ?_⟩
  have hresponse : ((Connection.live f).behaviour cmd).response = .answer (unwrap message) :=
    hresponse
  rw [hresponse] at hpush
  exact viaRedis_eq_returned.2 ⟨_, earliest_of_append hnodes hpush hintime hbefore hafter⟩

theorem answersFirst_of_viaRedis
    {payload : Json} (h : c.viaRedis published cmd timeout = .returned (.answer payload)) :
    c.AnswersFirst published cmd timeout := by
  obtain ⟨t, ht⟩ := viaRedis_eq_returned.1 h
  obtain ⟨before, n, after, hnodes, hpush, hintime, hbefore, hafter⟩ := exists_of_earliest ht
  obtain ⟨hresponds, hfinishes, conn, hconn, hresponse⟩ :=
    Node.responds_of_handleBroadcastCommand hpush
  obtain rfl : t = n.finishes published cmd := hfinishes
  have hanswers := Behaviour.answers_of_response hresponse.symm
  cases conn with
  | stale failure => exact absurd hanswers (Connection.not_answers_stale failure cmd _)
  | live f =>
    refine ⟨before, n, after, hnodes, hresponds.1, ⟨f, ?_, hanswers⟩, hintime, hbefore, hafter⟩
    rw [Node.live?, hconn]
    rfl

theorem transparent_viaRedis_iff
    (h : c.broadcastCommand here published cmd timeout = c.viaRedis published cmd timeout) :
    c.Transparent here published cmd timeout ↔
      (c.LiveAnswers cmd timeout → c.AnswersFirst published cmd timeout) ∧
        (¬c.LiveAnswers cmd timeout → c.NoneInTime published cmd timeout) := by
  constructor
  · rintro ⟨hsame, -, hfrom⟩
    rw [h] at hsame hfrom
    refine ⟨fun hlive => ?_, fun hnot => ?_⟩
    · obtain ⟨f, delay, message, -, -, hdirectly⟩ := directly_of_liveAnswers hlive
      rw [hdirectly] at hsame
      cases hvia : c.viaRedis published cmd timeout with
      | returned r =>
        obtain ⟨-, -, message', -, -, rfl⟩ := hfrom r hvia
        exact answersFirst_of_viaRedis hvia
      | raised error =>
        rw [hvia] at hsame
        exact hsame.elim
      | waits =>
        rw [hvia] at hsame
        exact hsame.elim
    · obtain ⟨error, hdirectly⟩ := directly_of_not hnot
      rw [hdirectly] at hsame
      cases hvia : c.viaRedis published cmd timeout with
      | returned r =>
        rw [hvia] at hsame
        exact hsame.elim
      | raised error => exact viaRedis_eq_raised.1 ⟨error, hvia⟩
      | waits =>
        rw [hvia] at hsame
        exact hsame.elim
  · rintro ⟨hfirst, hnone⟩
    by_cases hlive : c.LiveAnswers cmd timeout
    · obtain ⟨f, delay, message, hf, hb, hvia⟩ := viaRedis_of_answersFirst (hfirst hlive)
      obtain ⟨f', delay', message', hf', hb', hdirectly⟩ := directly_of_liveAnswers hlive
      cases hf.symm.trans hf'
      cases hb.symm.trans hb'
      refine ⟨?_, deliveries_le_one here cmd, fun r hr => ?_⟩
      · rw [h, hvia, hdirectly]
        rfl
      · rw [h, hvia] at hr
        exact ⟨f, delay, message, hf, hb, (Outcome.returned.inj hr).symm⟩
    · obtain ⟨error, hvia⟩ := viaRedis_eq_raised.2 (hnone hlive)
      exact (transparent_of_raised (h.trans hvia)).2 hlive

/-- **Routing is location-transparent** exactly under the condition. -/
theorem transparent_iff (here : c.Member) (published : List Command) (cmd : Command) (timeout : ℤ) :
    c.Transparent here published cmd timeout ↔ c.Routed here published cmd timeout := by
  rw [Routed]
  split
  next f hconn =>
    have hlive : here.1.live? cmd.collectorId = some f := by rw [Node.live?, hconn]
    have hf := live?_eq_some_iff.2 ⟨here.1, here.2, hlive⟩
    have hbroadcast : c.broadcastCommand here published cmd timeout =
        (f cmd.msgType cmd.payload).outcome timeout := by
      rw [broadcastCommand, hconn]
      rfl
    refine iff_of_true ⟨?_, deliveries_le_one here cmd, fun r hr => ?_⟩ trivial
    · have hdirectly : c.directly cmd timeout = (f cmd.msgType cmd.payload).outcome timeout := by
        rw [directly, hf]
      rw [hbroadcast, hdirectly]
      exact Behaviour.same_outcome _ timeout
    · exact fromLive_of_returned hf (hbroadcast.symm.trans hr)
  next failure hconn =>
    obtain ⟨error, houtcome⟩ :=
      Behaviour.outcome_of_not (Connection.not_answers_stale failure cmd timeout)
    have hraised : c.broadcastCommand here published cmd timeout = .raised error := by
      rw [broadcastCommand, hconn]
      exact houtcome
    exact transparent_of_raised hraised
  next hconn =>
    split
    next hredis =>
      refine transparent_viaRedis_iff ?_
      rw [broadcastCommand, hconn]
      exact if_pos hredis
    next hredis =>
      have hraised : ∃ error, c.broadcastCommand here published cmd timeout = .raised error := by
        rw [broadcastCommand, hconn]
        exact ⟨_, if_neg hredis⟩
      obtain ⟨error, herror⟩ := hraised
      exact transparent_of_raised herror

/-! ### Counting -/

theorem ack_viaRedis_iff {p : Prop} [Decidable p] :
    (c.viaRedis published cmd timeout).ack = some (if p then 1 else 0) ↔
      (p → ∃ n ∈ c.nodes, n.Responds cmd ∧ c.InTime timeout (n.finishes published cmd)) ∧
        (¬p → c.NoneInTime published cmd timeout) := by
  rw [← viaRedis_eq_raised, ← earliest_inTime_ne_none]
  have hreturned : (∃ r, c.viaRedis published cmd timeout = .returned r) ↔
      earliest (c.inTime published cmd timeout) ≠ none := by
    simp only [viaRedis_eq_returned, ne_none_iff_exists', Prod.exists]
    exact exists_comm
  rw [← hreturned]
  by_cases h : p
  · rw [if_pos h, Outcome.ack_eq_one]
    exact ⟨fun hr => ⟨fun _ => hr, fun hnot => absurd h hnot⟩, fun hboth => hboth.1 h⟩
  · rw [if_neg h, Outcome.ack_eq_zero]
    exact ⟨fun hr => ⟨fun hyes => absurd hyes h, fun _ => hr⟩, fun hboth => hboth.2 h⟩

/-- **A collector is counted if it has answered within the timeout**, exactly under the
condition. -/
theorem ack_iff (here : c.Member) (published : List Command) (cmd : Command) (timeout : ℤ) :
    (c.broadcastCommand here published cmd timeout).ack =
        some (if c.Answered here published cmd timeout then 1 else 0) ↔
      c.CountedRight here published cmd timeout := by
  rw [CountedRight]
  cases hconn : here.1.connections cmd.collectorId with
  | some conn =>
    have hright : (c.broadcastCommand here published cmd timeout).ack =
        some (if c.Answered here published cmd timeout then 1 else 0) := by
      have houtcome : c.broadcastCommand here published cmd timeout =
          (conn.behaviour cmd).outcome timeout := by
        rw [broadcastCommand, hconn]
      have hanswered : c.Answered here published cmd timeout ↔
          (conn.behaviour cmd).Answers timeout := by
        rw [Answered, hconn]
        cases conn with
        | live f => exact Iff.rfl
        | stale failure => exact iff_of_false id (Connection.not_answers_stale failure cmd timeout)
      rw [houtcome]
      by_cases h : (conn.behaviour cmd).Answers timeout
      · obtain ⟨-, message, -, hreturned⟩ := Behaviour.outcome_of_answers h
        rw [hreturned, if_pos (hanswered.2 h)]
        rfl
      · obtain ⟨error, hraised⟩ := Behaviour.outcome_of_not h
        rw [hraised, if_neg (mt hanswered.1 h)]
        rfl
    exact iff_of_true hright fun h => absurd h (some_ne_none conn)
  | none =>
    by_cases hredis : c.redis
    · have hvia : c.broadcastCommand here published cmd timeout =
          c.viaRedis published cmd timeout := by
        rw [broadcastCommand, hconn]
        exact if_pos hredis
      rw [hvia, ack_viaRedis_iff]
      exact ⟨fun h _ _ => h, fun h => h rfl hredis⟩
    · have hraised : ∃ error, c.broadcastCommand here published cmd timeout = .raised error := by
        rw [broadcastCommand, hconn]
        exact ⟨_, if_neg hredis⟩
      have hanswered : ¬c.Answered here published cmd timeout := by
        rw [Answered, hconn]
        exact fun h => hredis h.1
      refine iff_of_true ?_ fun _ h => absurd h hredis
      rw [if_neg hanswered, Outcome.ack_eq_zero]
      exact hraised

theorem acks_iff (here : c.Member) (timeout : ℤ) (published : List Command) (ids : List Uuid) :
    c.acks here timeout published ids = (c.answers here timeout published ids).map some ↔
      c.Counted here timeout published ids := by
  induction ids generalizing published with
  | nil => exact iff_of_true rfl trivial
  | cons id ids ih =>
    rw [acks, answers, map_cons, List.cons.injEq, ih, ack_iff]
    rfl

/-- **Reloads count exactly the collectors that answered**, exactly under the condition. -/
theorem countsAnswers_iff (here : c.Member) (ids : List Uuid) (timeout : ℤ) :
    c.CountsAnswers here ids timeout ↔ c.Counted here timeout [] ids := by
  rw [← acks_iff]
  refine ⟨fun h => h.1, fun h => ⟨h, ?_⟩⟩
  rw [notifyConfigReload, h, mapM_id_map_some]
  rfl

/-- **Commands are routed as if every connection were local**, and reloads count the collectors that
answered, exactly under the two conditions. -/
theorem routing_iff (c : Cluster) (here : c.Member) (published : List Command) (cmd : Command)
    (ids : List Uuid) (timeout timeout' : ℤ) :
    c.Transparent here published cmd timeout ∧ c.CountsAnswers here ids timeout' ↔
      c.Routed here published cmd timeout ∧ c.Counted here timeout' [] ids := by
  rw [transparent_iff, countsAnswers_iff]

end Cluster

/-! ### Where it fails -/

/-- A node without the collector. -/
def asked : Node := ⟨fun _ => none, some []⟩

/-- A node the collector has left: sending raises. -/
def left : Node := ⟨fun _ => some (.stale (some "closed")), some []⟩

/-- The node the collector uses: it answers after 20 milliseconds. -/
def used : Node where
  connections _ := some (.live fun _ _ => .answers 20000 [("payload", .str "done")])
  listener := some []

/-- The node the collector uses: it does not answer. -/
def mute : Node := ⟨fun _ => some (.live fun _ _ => .silent), some []⟩

/-- Two nodes, and one with the live connection. -/
def three (stale : Node) (live : Node) (h : ∀ id, asked.live? id = none ∧ stale.live? id = none) :
    Cluster where
  nodes := [asked, stale, live]
  redis := true
  readLimit := none
  live_once := by
    refine List.Pairwise.cons (fun m _ id => .inl (h id).1) (List.Pairwise.cons
      (fun m _ id => .inl (h id).2) (pairwise_singleton _ _))

/-- The collector has moved to a node where it answers. -/
def moved : Cluster := three left used fun _ => ⟨rfl, rfl⟩

/-- The collector has moved to a node where it does not answer. -/
def muted : Cluster := three left mute fun _ => ⟨rfl, rfl⟩

/-- **A collector that has moved is not reached**: the node it has left is the first to respond, or
the one that is asked; and a collector that does not answer is counted. -/
theorem not_routed :
    ¬moved.Transparent ⟨asked, mem_cons_self⟩ [] (Cluster.configReload "edge") 10000000 ∧
      ¬moved.Transparent ⟨left, mem_cons_of_mem _ mem_cons_self⟩ []
        (Cluster.configReload "edge") 10000000 ∧
      ¬muted.CountsAnswers ⟨asked, mem_cons_self⟩ ["edge"] 3000000 := by
  have hdirectly : moved.directly (Cluster.configReload "edge") 10000000 =
      .returned (.answer (.str "done")) := by decide +kernel
  have hasked : moved.broadcastCommand ⟨asked, mem_cons_self⟩ []
      (Cluster.configReload "edge") 10000000 = .returned (.error "closed") := by decide +kernel
  have hleft : moved.broadcastCommand ⟨left, mem_cons_of_mem _ mem_cons_self⟩ []
      (Cluster.configReload "edge") 10000000 = .raised (.sendFailed "closed") := by decide +kernel
  refine ⟨fun h => ?_, fun h => ?_, fun h => absurd h.2 (by decide +kernel)⟩
  · obtain ⟨f, delay, message, -, -, hanswer⟩ := h.fromLive _ hasked
    cases hanswer
  · have hsame := h.same
    rw [hleft, hdirectly] at hsame
    exact hsame

end MonCTL.Ws.Routing
