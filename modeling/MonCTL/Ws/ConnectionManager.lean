import Mathlib.Data.List.Basic
import MonCTL.Lib.Runs

/-!
# Collector Connections

The connections of one collector to one central process. A new connection takes the collector's
place in the map and the one before is closed, so that its handler ends. Every handler ends by
removing the collector from the map, whichever connection is there by then, and has its keepalive
stopped and the presence key deleted by tasks that run later.

Connections are numbered as they are registered. A step is what runs between two points at which a
coroutine waits. Redis is available; a key expires only while no keepalive refreshes it.
-/

namespace MonCTL.Ws

open List

/-- How far the handler of a connection has come. -/
inductive Phase
  /-- Registered; its predecessor is being closed. -/
  | connecting
  /-- Its keepalive has been started. -/
  | announcing
  /-- The presence key has been written, and it receives messages. -/
  | serving
  /-- Its receive loop has ended. -/
  | ended
  deriving DecidableEq

/-- `CollectorConnection`, with its handler. -/
structure CollectorConnection where
  phase : Phase := .connecting
  isOpen : Bool := true
  keepalive : Bool := false

/-- `ConnectionManager`, for one collector. -/
structure ConnectionManager where
  connections : List CollectorConnection := []
  /-- The entry of the map. -/
  registered : Option ℕ := none
  /-- The presence key. -/
  present : Bool := false
  /-- The keepalives that a task is going to stop. -/
  stops : List ℕ := []
  /-- The tasks that are going to delete the presence key. -/
  deletes : ℕ := 0

/-- What can happen. -/
inductive Action
  /-- A connection is registered. -/
  | connect
  /-- Its keepalive is started. -/
  | startKeepalive (c : ℕ)
  /-- The presence key is written, and the receive loop starts. -/
  | announce (c : ℕ)
  /-- A keepalive refreshes the presence key. -/
  | refresh (c : ℕ)
  /-- A socket is closed, by the peer or because it has been replaced. -/
  | closeSocket (c : ℕ)
  /-- A ping fails, and the keepalive ends. -/
  | pingFails (c : ℕ)
  /-- The receive loop ends, and the handler disconnects the collector. -/
  | exit (c : ℕ)
  /-- A task stops the keepalive of a connection that was removed. -/
  | stopKeepalive (c : ℕ)
  /-- A task deletes the presence key. -/
  | deleteKey
  /-- The presence key expires. -/
  | expire

namespace ConnectionManager

/-- A connection changes. -/
def modify (m : ConnectionManager) (c : ℕ) (f : CollectorConnection → CollectorConnection) :
    ConnectionManager :=
  { m with connections := m.connections.modify c f }

/-- `disconnect`: whichever connection is in the map is removed. -/
def disconnect (m : ConnectionManager) : ConnectionManager :=
  match m.registered with
  | some c => { m with registered := none, stops := c :: m.stops, deletes := m.deletes + 1 }
  | none => m

/-- `connect`, until the connection that is replaced has been told to stop its keepalive. -/
def connect (m : ConnectionManager) : ConnectionManager :=
  let replaced := match m.registered with
    | some old => m.modify old fun conn => { conn with keepalive := false }
    | none => m
  { replaced with
    connections := replaced.connections ++ [⟨.connecting, true, false⟩]
    registered := some replaced.connections.length }

/-- A step, unless it cannot be taken. -/
def step (m : ConnectionManager) : Action → Option ConnectionManager
  | .connect => some m.connect
  | .startKeepalive c =>
    match m.connections[c]? with
    | some conn =>
      if conn.phase = .connecting then
        some (m.modify c fun conn => { conn with keepalive := true, phase := .announcing })
      else none
    | none => none
  | .announce c =>
    match m.connections[c]? with
    | some conn =>
      if conn.phase = .announcing then
        some { m.modify c fun conn => { conn with phase := .serving } with present := true }
      else none
    | none => none
  | .refresh c =>
    match m.connections[c]? with
    | some conn => if conn.keepalive then some { m with present := true } else none
    | none => none
  | .closeSocket c =>
    match m.connections[c]? with
    | some _ => some (m.modify c fun conn => { conn with isOpen := false })
    | none => none
  | .pingFails c =>
    match m.connections[c]? with
    | some conn =>
      if conn.keepalive ∧ ¬conn.isOpen then
        some (m.modify c fun conn => { conn with keepalive := false })
      else none
    | none => none
  | .exit c =>
    match m.connections[c]? with
    | some conn =>
      if conn.phase = .serving then
        some (m.modify c fun conn => { conn with phase := .ended, isOpen := false }).disconnect
      else none
    | none => none
  | .stopKeepalive c =>
    if c ∈ m.stops then
      some { m.modify c fun conn => { conn with keepalive := false } with
        stops := m.stops.erase c }
    else none
  | .deleteKey =>
    if 0 < m.deletes then some { m with present := false, deletes := m.deletes - 1 } else none
  | .expire =>
    if ∀ conn ∈ m.connections, conn.keepalive = false then some { m with present := false }
    else none

/-- What should hold of the newest connection of a collector, as long as it is open: it is
registered; once its keepalive has been started, it runs; once the presence key has been written,
it is there. -/
def KeepsNewest (m : ConnectionManager) : Prop :=
  ∀ conn ∈ m.connections.getLast?, conn.isOpen = true →
    m.registered = some (m.connections.length - 1) ∧
      (conn.phase ≠ .connecting → conn.keepalive = true) ∧
      (conn.phase = .serving → m.present = true)
  deriving Decidable

end ConnectionManager

open ConnectionManager

/-- The step removes or deletes nothing of another connection: a handler ends while its own
connection is registered, or none; and the presence key is not deleted after it has been written
for an open connection that is registered. -/
def Action.Harmless (m : ConnectionManager) : Action → Prop
  | exit c => ∀ r ∈ m.registered, r = c
  | deleteKey => ∀ r ∈ m.registered, ∀ conn ∈ m.connections[r]?,
      conn.isOpen = true → conn.phase ≠ .serving
  | _ => True

instance (m : ConnectionManager) : ∀ a : Action, Decidable (a.Harmless m)
  | .exit c => inferInstanceAs (Decidable (∀ r ∈ m.registered, r = c))
  | .deleteKey => inferInstanceAs (Decidable (∀ r ∈ m.registered, ∀ conn ∈ m.connections[r]?, _))
  | .connect | .startKeepalive _ | .announce _ | .refresh _ | .closeSocket _ | .pingFails _
  | .stopKeepalive _ | .expire => inferInstanceAs (Decidable True)

/-! ### What a harmless step preserves -/

variable {m m' : ConnectionManager} {c : ℕ} {conn : CollectorConnection}
    {f : CollectorConnection → CollectorConnection}

namespace ConnectionManager

/-- What holds as long as the steps are harmless: the newest connection is registered until its
handler ends, and nothing else is; only connections whose handlers have ended are going to lose
their keepalives. -/
structure Inv (m : ConnectionManager) : Prop where
  registered : ∀ conn ∈ m.connections.getLast?, conn.phase ≠ .ended →
    m.registered = some (m.connections.length - 1)
  notEnded : ∀ r ∈ m.registered, ∃ conn ∈ m.connections[r]?, conn.phase ≠ .ended
  newest : ∀ r ∈ m.registered, r + 1 = m.connections.length
  closed : ∀ conn ∈ m.connections, conn.phase = .ended → conn.isOpen = false
  keepalive : ∀ conn ∈ m.connections.getLast?, conn.isOpen = true → conn.phase ≠ .connecting →
    conn.keepalive = true
  present : ∀ conn ∈ m.connections.getLast?, conn.isOpen = true → conn.phase = .serving →
    m.present = true
  stops : ∀ c ∈ m.stops, ∃ conn ∈ m.connections[c]?, conn.phase = .ended

/-- The invariant says what should hold of the newest connection. -/
theorem Inv.keepsNewest (h : m.Inv) : m.KeepsNewest := by
  intro conn hconn hopen
  have hphase : conn.phase ≠ .ended := by
    intro hended
    rw [h.closed conn (mem_of_getLast? hconn) hended] at hopen
    cases hopen
  exact ⟨h.registered conn hconn hphase, h.keepalive conn hconn hopen, h.present conn hconn hopen⟩

theorem Inv.start : Inv {} := ⟨nofun, nofun, nofun, nofun, nofun, nofun, nofun⟩

theorem getElem?_modify {i : ℕ} (hc : m.connections[c]? = some conn) :
    (m.modify c f).connections[i]? = if i = c then some (f conn) else m.connections[i]? := by
  rw [modify, List.getElem?_modify]
  by_cases hi : c = i
  · subst hi
    simp [hc]
  · simp [hi, Ne.symm hi]

theorem getLast?_modify {newest : CollectorConnection} (hc : m.connections[c]? = some conn)
    (hnewest : (m.modify c f).connections.getLast? = some newest) :
    (m.connections.getLast? = some conn ∧ newest = f conn) ∨
      m.connections.getLast? = some newest := by
  have hlength : (m.modify c f).connections.length = m.connections.length := length_modify ..
  rw [getLast?_eq_getElem?, hlength, getElem?_modify hc] at hnewest
  rw [getLast?_eq_getElem?]
  split at hnewest
  next hlast => exact .inl ⟨hlast ▸ hc, (Option.some.inj hnewest).symm⟩
  · exact .inr hnewest

/-- A connection changes, and does not end: the invariant stays if the change leaves what it says
of the newest connection. -/
theorem Inv.modify {present : Bool} (h : m.Inv) (hc : m.connections[c]? = some conn)
    (hended : (f conn).phase = .ended ↔ conn.phase = .ended)
    (hopen : (f conn).isOpen = true → conn.isOpen = true)
    (hkeepalive : (f conn).isOpen = true → (f conn).phase ≠ .connecting →
      (conn.phase ≠ .connecting → conn.keepalive = true) → (f conn).keepalive = true)
    (hpresent : (f conn).phase = .serving → (conn.phase = .serving → m.present = true) →
      present = true) (hmono : m.present = true → present =
      true) : Inv { m.modify c f with present := present } := by
  have hlength : (m.modify c f).connections.length = m.connections.length := length_modify ..
  refine ⟨fun newest hnewest hphase => ?_, fun r hr => ?_, fun r hr => ?_, fun conn' hmem hphase => ?_,
    fun newest hnewest hopen' hphase => ?_, fun newest hnewest hopen' hphase => ?_,
    fun c' hc' => ?_⟩
  · change m.registered = some ((m.modify c f).connections.length - 1)
    rw [hlength]
    rcases getLast?_modify hc hnewest with ⟨hlast, rfl⟩ | hlast
    · exact h.registered conn hlast fun hconn => hphase (hended.2 hconn)
    · exact h.registered newest hlast hphase
  · obtain ⟨conn', hconn', hphase⟩ := h.notEnded r hr
    by_cases hrc : r = c
    · subst hrc
      rw [hc] at hconn'
      cases hconn'
      exact ⟨f conn, (getElem?_modify hc).trans (if_pos rfl), fun hconn => hphase (hended.1 hconn)⟩
    · exact ⟨conn', (getElem?_modify hc).trans ((if_neg hrc).trans hconn'), hphase⟩
  · exact (h.newest r hr).trans hlength.symm
  · obtain ⟨i, hi⟩ := List.mem_iff_getElem?.1 hmem
    have hi' := (getElem?_modify hc).symm.trans hi
    split at hi'
    · cases hi'
      cases hfopen : (f conn).isOpen with
      | false => rfl
      | true =>
        rw [h.closed conn (mem_of_getElem? hc) (hended.1 hphase)] at hopen
        exact absurd (hopen hfopen) Bool.false_ne_true
    · exact h.closed conn' (mem_of_getElem? hi') hphase
  · rcases getLast?_modify hc hnewest with ⟨hlast, rfl⟩ | hlast
    · exact hkeepalive hopen' hphase (h.keepalive conn hlast (hopen hopen'))
    · exact h.keepalive newest hlast hopen' hphase
  · rcases getLast?_modify hc hnewest with ⟨hlast, rfl⟩ | hlast
    · exact hpresent hphase (h.present conn hlast (hopen hopen'))
    · exact hmono (h.present newest hlast hopen' hphase)
  · obtain ⟨conn', hconn', hphase⟩ := h.stops c' hc'
    by_cases heq : c' = c
    · subst heq
      rw [hc] at hconn'
      cases hconn'
      exact ⟨f conn, (getElem?_modify hc).trans (if_pos rfl), hended.2 hphase⟩
    · exact ⟨conn', (getElem?_modify hc).trans ((if_neg heq).trans hconn'), hphase⟩

theorem connect_connections (m : ConnectionManager) : ∃ conns : List CollectorConnection,
      m.connect.connections = conns ++ [⟨.connecting, true, false⟩] ∧
      m.connect.registered = some conns.length ∧ conns.length = m.connections.length ∧
      ∀ (i : ℕ) (conn : CollectorConnection), conns[i]? = some conn →
        ∃ conn₀, m.connections[i]? = some conn₀ ∧ conn.phase = conn₀.phase ∧
          conn.isOpen = conn₀.isOpen := by
  rw [connect]
  cases hr : m.registered with
  | none => exact ⟨m.connections, rfl, rfl, rfl, fun i conn hconn => ⟨conn, hconn, rfl, rfl⟩⟩
  | some old =>
    refine ⟨_, rfl, rfl, length_modify .., fun i conn hconn => ?_⟩
    change (m.connections.modify old _)[i]? = some conn at hconn
    rw [List.getElem?_modify] at hconn
    obtain ⟨conn₀, hconn₀, hsame⟩ := Option.map_eq_some_iff.1 hconn
    refine ⟨conn₀, hconn₀, ?_⟩
    rw [← hsame]
    split <;> exact ⟨rfl, rfl⟩

theorem Inv.connect (h : m.Inv) : m.connect.Inv := by
  obtain ⟨conns, hconns, hregistered, hlength, hold⟩ := connect_connections m
  have hstops : m.connect.stops = m.stops := by
    rw [ConnectionManager.connect]
    cases m.registered <;> rfl
  have hlast : m.connect.connections.getLast? = some ⟨.connecting, true, false⟩ := by
    rw [hconns, getLast?_concat]
  refine ⟨fun conn hconn _ => ?_, fun r hr => ?_, fun r hr => ?_, fun conn hmem hphase => ?_,
    fun conn hconn _ hphase => ?_, fun conn hconn _ hphase => ?_, fun c hc => ?_⟩
  · rw [hregistered, hconns, length_append, length_singleton, Nat.add_sub_cancel]
  · rw [hregistered] at hr
    cases hr
    exact ⟨⟨.connecting, true, false⟩, by rw [hconns]; simp, nofun⟩
  · rw [hregistered] at hr
    cases hr
    rw [hconns, length_append, length_singleton]
  · rw [hconns] at hmem
    rcases List.mem_append.1 hmem with hmem | hmem
    · obtain ⟨i, hi⟩ := List.mem_iff_getElem?.1 hmem
      obtain ⟨conn₀, hconn₀, hphase₀, hopen₀⟩ := hold i conn hi
      rw [hopen₀]
      exact h.closed conn₀ (mem_of_getElem? hconn₀) (hphase₀ ▸ hphase)
    · cases List.mem_singleton.1 hmem
      cases hphase
  · rw [hlast] at hconn
    cases hconn
    exact absurd rfl hphase
  · rw [hlast] at hconn
    cases hconn
    cases hphase
  · rw [hstops] at hc
    obtain ⟨conn₀, hconn₀, hphase₀⟩ := h.stops c hc
    have hlt : c < conns.length := by
      rw [hlength]
      exact (List.getElem?_eq_some_iff.1 hconn₀).1
    obtain ⟨conn₁, hconn₁, hphase₁, -⟩ := hold c conns[c] (getElem?_eq_getElem hlt)
    rw [hconn₀] at hconn₁
    cases hconn₁
    refine ⟨conns[c], ?_, hphase₁.trans hphase₀⟩
    rw [hconns]
    exact (getElem?_append_left hlt).trans (getElem?_eq_getElem hlt)

/-- A handler ends while its own connection is registered, or none. -/
theorem Inv.exit (h : m.Inv)
    (hc : m.connections[c]? = some conn) (hown : ∀ r ∈ m.registered, r = c) :
    (m.modify c fun conn => { conn with phase := .ended, isOpen := false }).disconnect.Inv := by
  generalize hm' : (m.modify c fun conn => { conn with phase := .ended, isOpen := false }) = m'
  have hconns : ∀ i, m'.connections[i]? =
      if i = c then some { conn with phase := .ended, isOpen := false }
      else m.connections[i]? := fun i => hm' ▸ getElem?_modify hc
  have hregistered : m'.registered = m.registered := hm' ▸ rfl
  have hpresent : m'.present = m.present := hm' ▸ rfl
  have hstops : m'.stops = m.stops := hm' ▸ rfl
  have hdisconnect : m'.disconnect.connections = m'.connections ∧
      m'.disconnect.registered = none ∧ m'.disconnect.present = m'.present ∧
      ∀ c' ∈ m'.disconnect.stops, c' = c ∨ c' ∈ m.stops := by
    rw [disconnect, hregistered]
    cases hr : m.registered with
    | none => exact ⟨rfl, hregistered.trans hr, rfl, fun c' hc' => .inr (hstops ▸ hc')⟩
    | some r =>
      refine ⟨rfl, rfl, rfl, fun c' hc' => ?_⟩
      rcases List.mem_cons.1 hc' with rfl | hc'
      · exact .inl (hown _ hr)
      · exact .inr (hstops ▸ hc')
  obtain ⟨hconns', hregistered', hpresent', hstops'⟩ := hdisconnect
  -- the newest connection is the one that ends, or had ended before
  have hlast : ∀ newest ∈ m'.disconnect.connections.getLast?,
      newest.phase = .ended ∧ newest.isOpen = false := by
    intro newest hnewest
    rw [hconns', ← hm'] at hnewest
    rcases getLast?_modify hc hnewest with ⟨-, rfl⟩ | hlast
    · exact ⟨rfl, rfl⟩
    · by_cases hphase : newest.phase = .ended
      · exact ⟨hphase, h.closed newest (mem_of_getLast? hlast) hphase⟩
      · have hlength : (m.modify c fun conn =>
            { conn with phase := .ended, isOpen := false }).connections.length =
            m.connections.length := length_modify ..
        have hr := hown _ (h.registered newest hlast hphase)
        rw [getLast?_eq_getElem?, hlength, hr, hm', hconns, if_pos rfl] at hnewest
        cases hnewest
        exact ⟨rfl, rfl⟩
  refine ⟨fun newest hnewest hphase => absurd (hlast newest hnewest).1 hphase, fun r hr => ?_,
    fun r hr => ?_, fun conn' hmem hphase => ?_, fun newest hnewest hopen => ?_,
    fun newest hnewest hopen => ?_, fun c' hc' => ?_⟩
  · rw [hregistered'] at hr
    cases hr
  · rw [hregistered'] at hr
    cases hr
  · rw [hconns'] at hmem
    obtain ⟨i, hi⟩ := List.mem_iff_getElem?.1 hmem
    rw [hconns] at hi
    split at hi
    · cases hi
      rfl
    · exact h.closed conn' (mem_of_getElem? hi) hphase
  · rw [(hlast newest hnewest).2] at hopen
    cases hopen
  · rw [(hlast newest hnewest).2] at hopen
    cases hopen
  · rw [hconns', hconns]
    rcases hstops' c' hc' with rfl | hmem
    · exact ⟨_, if_pos rfl, rfl⟩
    · obtain ⟨conn', hconn', hphase⟩ := h.stops c' hmem
      split
      · exact ⟨_, rfl, rfl⟩
      · exact ⟨conn', hconn', hphase⟩

theorem Inv.absent {deletes : ℕ} (h : m.Inv)
    (hharmless : ∀ conn ∈ m.connections.getLast?, conn.isOpen = true → conn.phase ≠ .serving) :
    Inv { m with present := false, deletes := deletes } :=
  ⟨h.registered, h.notEnded, h.newest, h.closed, h.keepalive,
    fun conn hconn hopen hphase => absurd hphase (hharmless conn hconn hopen), h.stops⟩

/-- **A harmless step keeps the invariant.** -/
theorem Inv.step {a : Action} (h : m.Inv) (hharmless : a.Harmless m)
    (hstep : m.step a = some m') : m'.Inv := by
  cases a with
  | connect =>
    cases hstep
    exact h.connect
  | startKeepalive c =>
    rw [ConnectionManager.step] at hstep
    split at hstep
    next conn hc =>
      split at hstep
      next hphase =>
        cases hstep
        exact h.modify hc (by simp [hphase]) id (fun _ _ _ => rfl) nofun id
      · cases hstep
    · cases hstep
  | announce c =>
    rw [ConnectionManager.step] at hstep
    split at hstep
    next conn hc =>
      split at hstep
      next hphase =>
        cases hstep
        exact h.modify hc (by simp [hphase]) id (fun _ _ hkeep => hkeep (by simp [hphase]))
          (fun _ _ => rfl) fun _ => rfl
      · cases hstep
    · cases hstep
  | refresh c =>
    rw [ConnectionManager.step] at hstep
    split at hstep
    · split at hstep
      · cases hstep
        exact ⟨h.registered, h.notEnded, h.newest, h.closed, h.keepalive,
          fun _ _ _ _ => rfl, h.stops⟩
      · cases hstep
    · cases hstep
  | closeSocket c =>
    rw [ConnectionManager.step] at hstep
    split at hstep
    next conn hc =>
      cases hstep
      exact h.modify hc Iff.rfl nofun nofun (fun hphase hpresent => hpresent hphase) id
    · cases hstep
  | pingFails c =>
    rw [ConnectionManager.step] at hstep
    split at hstep
    next conn hc =>
      split at hstep
      next hfails =>
        cases hstep
        exact h.modify hc Iff.rfl id (fun hopen => absurd hopen hfails.2)
          (fun hphase hpresent => hpresent hphase) id
      · cases hstep
    · cases hstep
  | exit c =>
    rw [ConnectionManager.step] at hstep
    split at hstep
    next conn hc =>
      split at hstep
      · cases hstep
        exact h.exit hc hharmless
      · cases hstep
    · cases hstep
  | stopKeepalive c =>
    rw [ConnectionManager.step] at hstep
    split at hstep
    next hmem =>
      cases hstep
      obtain ⟨conn, hc, hphase⟩ := h.stops c hmem
      have hclosed := h.closed conn (mem_of_getElem? hc) hphase
      have hinv : Inv { m.modify c fun conn => { conn with keepalive := false } with
          present := m.present } :=
        h.modify hc Iff.rfl id (fun hopen => absurd hopen (by simp [hclosed]))
          (fun hphase hpresent => hpresent hphase) id
      exact ⟨hinv.registered, hinv.notEnded, hinv.newest, hinv.closed, hinv.keepalive,
        hinv.present, fun c' hc' => hinv.stops c' (mem_of_mem_erase hc')⟩
    · cases hstep
  | deleteKey =>
    rw [ConnectionManager.step] at hstep
    split at hstep
    · cases hstep
      refine h.absent fun conn hconn hopen hphase => ?_
      have hr := h.registered conn hconn (by simp [hphase])
      rw [getLast?_eq_getElem?] at hconn
      exact hharmless _ hr conn hconn hopen hphase
    · cases hstep
  | expire =>
    rw [ConnectionManager.step] at hstep
    split at hstep
    next hnone =>
      cases hstep
      refine h.absent fun conn hconn hopen hphase => ?_
      have hkeepalive := h.keepalive conn hconn hopen (by simp [hphase])
      rw [hnone conn (mem_of_getLast? hconn)] at hkeepalive
      cases hkeepalive
    · cases hstep

/-- **A replaced connection never removes its replacement**, in every run in which no handler ends
while another connection is registered, and no deletion of the presence key comes after the key
has been written for the open connection that is registered: the newest connection is registered,
kept alive and present as long as it is open. -/
theorem keepsNewest_of_run {m : ConnectionManager}
    (h : Run ConnectionManager.step (fun m a => a.Harmless m) {} m) : m.KeepsNewest := by
  have hinv : m.Inv :=
    h.invariant Inv.start fun hinv hharmless hstep => Inv.step hinv hharmless hstep
  exact hinv.keepsNewest

/-- A connection, its replacement, and what the handler of the first one does. -/
def replacement : List Action :=
  [.connect, .startKeepalive 0, .announce 0, .closeSocket 0, .exit 0, .deleteKey, .stopKeepalive 0,
    .connect, .startKeepalive 1, .announce 1, .refresh 1]

theorem keepsNewest_replacement : ∃ m,
    Run ConnectionManager.step (fun m a => a.Harmless m) {} m ∧ m.registered = some 1 ∧
      m.KeepsNewest := by
  have hreplay : ∃ m ∈ replay ConnectionManager.step (fun m a => a.Harmless m) {} replacement,
      m.registered = some 1 := by
    decide +kernel
  obtain ⟨m, hm, hregistered⟩ := hreplay
  exact ⟨m, run_of_replay hm, hregistered, keepsNewest_of_run (run_of_replay hm)⟩

/-- **The condition is needed**: a handler that ends while another connection, which is open, is
registered removes it. -/
theorem not_keepsNewest_of_exit {r : ℕ} (h : m.Inv)
    (hregistered : m.registered = some r) (hne : r ≠ c)
    (hopen : ∀ conn ∈ m.connections[r]?, conn.isOpen = true)
    (hstep : m.step (.exit c) = some m') : ¬m'.KeepsNewest := by
  rw [ConnectionManager.step] at hstep
  split at hstep
  next conn hc =>
    split at hstep
    · cases hstep
      intro hkeeps
      obtain ⟨newest, hr, -⟩ := h.notEnded r hregistered
      have hnewest := h.newest r hregistered
      generalize hm' :
        (m.modify c fun conn => { conn with phase := .ended, isOpen := false }) = m' at hkeeps
      have hconn : m'.connections[r]? = some newest := by
        rw [← hm', getElem?_modify hc, if_neg hne, hr]
      have hlength : m'.connections.length = r + 1 := by
        rw [← hm', hnewest]
        exact length_modify ..
      have hdisconnect : m'.disconnect.connections = m'.connections ∧
          m'.disconnect.registered = none := by
        have hr' : m'.registered = some r := hm' ▸ hregistered
        rw [disconnect, hr']
        exact ⟨rfl, rfl⟩
      have hlast : m'.disconnect.connections.getLast? = some newest := by
        rw [hdisconnect.1, getLast?_eq_getElem?, hlength, Nat.add_sub_cancel, hconn]
      have hregistered' := (hkeeps newest hlast (hopen newest hr)).1
      rw [hdisconnect.2] at hregistered'
      cases hregistered'
    · cases hstep
  · cases hstep

/-- The presence key of the newest connection is gone when it is deleted after it was written. -/
theorem not_keepsNewest_of_deleteKey {r : ℕ} (h : m.Inv) (hregistered : m.registered = some r)
    (hconn : m.connections[r]? = some conn) (hopen : conn.isOpen = true)
    (hphase : conn.phase = .serving) (hstep : m.step .deleteKey = some m') : ¬m'.KeepsNewest := by
  rw [ConnectionManager.step] at hstep
  split at hstep
  · cases hstep
    intro hkeeps
    have hnewest := h.newest r hregistered
    have hlast : m.connections.getLast? = some conn := by
      rw [getLast?_eq_getElem?, ← hnewest, Nat.add_sub_cancel, hconn]
    exact absurd ((hkeeps conn hlast hopen).2.2 hphase) Bool.false_ne_true
  · cases hstep

/-- A reconnect while the previous socket is still registered: the handler of the replaced socket
removes the new connection. -/
theorem not_keepsNewest_reconnect :
    ¬∀ m, Run ConnectionManager.step (fun _ _ => True) {} m → m.KeepsNewest := by
  have hreplay : ∃ m ∈ replay ConnectionManager.step (fun _ _ => True) {}
      [.connect, .startKeepalive 0, .announce 0, .connect, .closeSocket 0, .startKeepalive 1,
        .announce 1, .exit 0], ¬m.KeepsNewest := by
    decide +kernel
  obtain ⟨m, hm, hnot⟩ := hreplay
  exact fun hall => hnot (hall m (run_of_replay hm))

end ConnectionManager

end MonCTL.Ws
