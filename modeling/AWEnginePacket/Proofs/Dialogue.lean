/-
The sessions of a `PacketClient`, each with its server.

Every session is a link: where its two ends are is where a run of `Link`
leads from the `Connect()` that began it, with the `Init` that
`Connect()` made (`sessions_are_links`). So what holds of every link holds
of every session, whatever the client did before, meanwhile and since.

The sessions share the queue. Taken apart again, it gives the user the
messages of each server in order, also those of a session that is over
(`pops_what_servers_send`). The other way nothing gets through behind the
`Init` (`sessions_are_unheard`), and no server learns of a
`Disconnect()`: it closes no socket, and as the context it has stopped is
never restarted, no handler of the connection does so later
(`disconnect_leaves_it`).
-/
import AWEnginePacket.Model.Dialogue
import AWEnginePacket.Proofs.Leaks
import AWEnginePacket.Proofs.Turn
import AWEnginePacket.Proofs.Unheard

namespace AWEnginePacket

open Endian (ByteOrder)

namespace PacketClient

variable {host : ByteOrder} {ids : PacketIDs} {c c' : PacketClient}
  {a : Action} {env : ConnectEnv}

-- ==================================================== steps of the client

/-- No step renames the game. -/
theorem game_move (h : Move host ids c a c') :
    c'.mGameName = c.mGameName ∧ c'.mGameVersion = c.mGameVersion := by
  cases h <;> exact ⟨rfl, rfl⟩

/-- The `Init` tells of the game and the locale. -/
theorem initPacket_eq {gameName : ProtocolGameName} {gameVersion : UInt32}
    (hname : c.mGameName = gameName) (hversion : c.mGameVersion = gameVersion) :
    initPacket host ids env c
      = initPacket host ids env (create gameName gameVersion) := by
  rw [initPacket, hname, hversion]
  rfl

/-- `Connect()` makes a connection, the next session's, or does not. -/
theorem connect_move (h : Move host ids c (.connect env) c') :
    c'.receiveQueue = c.receiveQueue
      ∧ (c'.sessions = c.sessions ∧ c'.mConnection = c.mConnection
        ∨ c'.sessions = c.sessions + 1
          ∧ c'.mConnection = (connecting host ids env c).mConnection) := by
  cases h with
  | refused hstatus => exact ⟨rfl, .inl ⟨rfl, rfl⟩⟩
  | unresolved hu => exact ⟨rfl, .inl ⟨rfl, rfl⟩⟩
  | threadless hu => exact ⟨rfl, .inr ⟨rfl, rfl⟩⟩
  | terminates hu hj => exact ⟨rfl, .inr ⟨rfl, rfl⟩⟩
  | connects hu hj => exact ⟨rfl, .inr ⟨rfl, rfl⟩⟩

/-- What another step does to the connection and to the queue. -/
inductive Goes (host : ByteOrder) (ids : PacketIDs) (c : PacketClient) :
    Action → PacketClient → Prop
  | keeps {a : Action} {c' : PacketClient} (ha : a ≠ .popFront)
      (hconn : c'.mConnection = c.mConnection)
      (hqueue : c'.receiveQueue = c.receiveQueue) : Goes host ids c a c'
  | pops {c' : PacketClient} (hconn : c'.mConnection = c.mConnection)
      (hqueue : c'.receiveQueue = c.receiveQueue.tail) :
      Goes host ids c .popFront c'
  | ends {a : Action} {c' : PacketClient} (ha : a ≠ .popFront)
      (hconn : c'.mConnection = none)
      (hqueue : c'.receiveQueue = c.receiveQueue) : Goes host ids c a c'
  | steps {a : Action} {c' : PacketClient} {conn conn' : Connection}
      {b : Connection.Action} (ha : a ≠ .popFront)
      (hb : Link.connectFails b = false) (hconn : c.mConnection = some conn)
      (hstep : Connection.step host ids b conn = some conn')
      (hconn' : c'.mConnection = some conn')
      (hqueue : c'.receiveQueue = c.receiveQueue
        ++ (conn'.mMessagesIn.drop conn.mMessagesIn.length).map
          fun m => (conn'.self, m)) : Goes host ids c a c'

/-- A `Send` brings no message. -/
theorem Goes.of_sendBegin {packet : IPacket} {conn conn' : Connection}
    (ha : a ≠ .popFront) (hconn : c.mConnection = some conn)
    (hintact : conn.escaped = none)
    (hsend : (Connection.sendBegin host ids packet).run conn = .ok ⟨⟩ conn')
    (hconn' : c'.mConnection = some conn')
    (hqueue : c'.receiveQueue = c.receiveQueue) : Goes host ids c a c' := by
  refine .steps ha rfl hconn (Connection.step_sendBegin hintact hsend) hconn' ?_
  have hside := ((Connection.sendBegin_keeps_reading packet).of_ok hsend).1
  have hmsgs : conn'.mMessagesIn = conn.mMessagesIn :=
    congrArg (fun side => side.2.2.2.1) hside
  simp [hqueue, hmsgs]

theorem goes_move (h : Move host ids c a c') (ha : Dialogue.isApart a = false)
    (hintact : ∀ conn, c.mConnection = some conn → conn.escaped = none) :
    c'.sessions = c.sessions ∧ Goes host ids c a c' := by
  cases h with
  | refused | unresolved | threadless | terminates | connects => cases ha
  | pops hu hne => exact ⟨rfl, .pops rfl rfl⟩
  | ends hu => exact ⟨rfl, .ends (by simp) rfl rfl⟩
  | sends hu hconn hsend =>
      exact ⟨rfl, .of_sendBegin (by simp) hconn (hintact _ hconn) hsend rfl rfl⟩
  | userSends hu hconn hsend =>
      exact ⟨rfl, .of_sendBegin (by simp) hconn (hintact _ hconn) hsend rfl rfl⟩
  | posts hu hconn hstep =>
      exact ⟨rfl, .steps (by simp) rfl hconn hstep rfl rfl⟩
  | handles hio hruns hconn hstep =>
      exact ⟨rfl, .steps (by simp) ha hconn hstep rfl rfl⟩
  | _ => exact ⟨rfl, .keeps (by simp) rfl rfl⟩

/-- No exception has left a handler of the connection of a client that
lives. -/
def Intact (c : PacketClient) : Prop :=
  c.fate = none → ∀ conn, c.mConnection = some conn → conn.escaped = none

theorem intact_of_stepped (conn : Connection) {conn' : Connection}
    (h : (stepped c conn conn').fate = none) : conn'.escaped = none := by
  rw [stepped] at h
  cases hesc : conn'.escaped with
  | none => rfl
  | some e => simp [hesc] at h

theorem intact_move (h : Intact c) (hfate : c.fate = none)
    (hmove : Move host ids c a c') : Intact c' := by
  intro hfate' conn hconn'
  have hbegun {packet : IPacket} {conn₀ conn₁ : Connection}
      (hconn : c.mConnection = some conn₀)
      (hsend : (Connection.sendBegin host ids packet).run conn₀ = .ok ⟨⟩ conn₁)
      (heq : some conn₁ = some conn) : conn.escaped = none := by
    cases heq
    have hrel := (Connection.sendBegin_keeps_reading packet).of_ok hsend
    exact hrel.2.2.trans (h hfate conn₀ hconn)
  cases hmove with
  | threadless | terminates | connects =>
      cases hconn'
      rfl
  | sends hu hconn hsend => exact hbegun hconn hsend hconn'
  | userSends hu hconn hsend => exact hbegun hconn hsend hconn'
  | @posts call conn₀ conn₁ hu hconn hstep =>
      cases hconn'
      exact intact_of_stepped conn₀ hfate'
  | @handles b conn₀ conn₁ hio hruns hconn hstep =>
      cases hconn'
      exact intact_of_stepped conn₀ hfate'
  | ends => cases hconn'
  | _ => exact h hfate conn hconn'

end PacketClient

namespace Link

variable {host : Side → ByteOrder} {ids : Side → PacketIDs} {l l' : Link}

/-- What happens at the server's end is not seen at the client's. -/
theorem client_of_event {b : Connection.Action}
    (h : step host ids (.event .server b) l = some l') :
    l'.conn .client = l.conn .client := by
  rcases step_cases h with
    ⟨side, e, c', heq, -, -, rfl⟩ | ⟨side, n, heq, -⟩
  · cases heq
    exact setConn_of_ne (by decide)
  · cases heq

/-- Of an arrival it is seen in the bytes to be read. -/
theorem client_of_arrive {side : Side} {n : Nat}
    (h : step host ids (.arrive side n) l = some l') :
    ∃ bytes, l'.conn .client = { l.conn .client with incoming := bytes } := by
  rcases step_cases h with
    ⟨side, e, c', heq, -⟩ | ⟨side, n, heq, -, rfl⟩
  · cases heq
  · exact conn_arrive l side n .client

end Link

namespace Dialogue

variable {host : Side → ByteOrder} {ids : Side → PacketIDs}
  {disconnectID : UInt8} {gameName : ProtocolGameName}
  {gameVersion : UInt32} {d d' : Dialogue} {a : Action}
  {acts : List Action} {client : PacketClient} {conn : Connection}
  {l : Link} {k : Nat}

-- =============================================================== sessions

@[simp] theorem note_link (a : PacketClient.Action) (d : Dialogue) :
    (note a d).link = d.link := by
  cases a <;> rfl

/-- Only what ends a session leaves a connection behind. -/
theorem note_released {a : PacketClient.Action} (ha : a ≠ .disconnectEnd)
    (d : Dialogue) : (note a d).released = d.released := by
  cases a <;> first | rfl | exact absurd rfl ha

@[simp] theorem follow_client (client : PacketClient) (d : Dialogue) :
    (d.follow client).client = client := by
  unfold follow
  cases client.mConnection <;> rfl

@[simp] theorem follow_popped (client : PacketClient) (d : Dialogue) :
    (d.follow client).popped = d.popped := by
  unfold follow
  cases client.mConnection <;> rfl

@[simp] theorem follow_released (client : PacketClient) (d : Dialogue) :
    (d.follow client).released = d.released := by
  unfold follow
  cases client.mConnection <;> rfl

theorem follow_none (h : client.mConnection = none) :
    (d.follow client).link = d.link := by
  simp [follow, h]

theorem follow_some (h : client.mConnection = some conn) :
    (d.follow client).link = Function.update d.link conn.self
      ((d.link conn.self).setConn .client conn) := by
  simp [follow, h, setLink]

/-- Where the link has the connection already, nothing changes. -/
theorem follow_same (h : client.mConnection = some conn)
    (hlink : (d.link conn.self).conn .client = conn) :
    (d.follow client).link = d.link := by
  have hsame (l : Link) (hl : l.conn .client = conn) :
      l.setConn .client conn = l := by
    rw [Link.setConn, ← hl, Function.update_eq_self]
  rw [follow_some h, hsame _ hlink, Function.update_eq_self]

variable (host ids gameName gameVersion) in
/-- A session that began with one of the `Connect()`s: a run of its link
has led where it is. -/
def IsSession (acts : List Action) (k : Nat) (l : Link) : Prop :=
  ∃ env self now, Action.connect env self now ∈ acts
    ∧ Lts.Reaches (Link.step host ids) (opened k
      (PacketClient.initPacket (host .client) (ids .client) env
        (PacketClient.create gameName gameVersion)) env self now) l

/-- What happens on a link keeps it a session. -/
theorem IsSession.snoc {act : Link.Action} {l' : Link}
    (h : IsSession host ids gameName gameVersion acts k l)
    (hs : Link.step host ids act l = some l') (a : Action) :
    IsSession host ids gameName gameVersion (acts ++ [a]) k l' := by
  obtain ⟨env, self, now, hmem, hreach⟩ := h
  exact ⟨env, self, now, List.mem_append_left _ hmem, hreach.snoc hs⟩

theorem IsSession.mono (h : IsSession host ids gameName gameVersion acts k l)
    (a : Action) :
    IsSession host ids gameName gameVersion (acts ++ [a]) k l := by
  obtain ⟨env, self, now, hmem, hreach⟩ := h
  exact ⟨env, self, now, List.mem_append_left _ hmem, hreach⟩

variable (host ids gameName gameVersion) in
/-- Every session is a link, the connection that the client has is the
client's end of one, and once a connection has been left behind the
context is stopped. -/
structure Standing (acts : List Action) (d : Dialogue) : Prop where
  game : d.client.mGameName = gameName ∧ d.client.mGameVersion = gameVersion
  intact : d.client.Intact
  stopped : d.released ≠ [] → d.client.mIoContextStopped = true
  sessions : ∀ k < d.client.sessions,
    IsSession host ids gameName gameVersion acts k (d.link k)
  owned : ∀ conn, d.client.mConnection = some conn →
    conn.self < d.client.sessions ∧ (d.link conn.self).conn .client = conn

/-- Where a connection has been left behind, no handler runs. -/
theorem Standing.still (h : Standing host ids gameName gameVersion acts d)
    (hk : k ∈ d.released) : d.client.runs ≠ true := by
  have hstopped := h.stopped (List.ne_nil_of_mem hk)
  simp [PacketClient.runs, hstopped]

/-- So none is enabled, whichever connection is meant. -/
theorem Standing.released_refused
    (h : Standing host ids gameName gameVersion acts d)
    (b : Connection.Action) :
    Dialogue.step host ids disconnectID (.released k b) d ≠ some d' := by
  intro hs
  simp only [Dialogue.step] at hs
  split at hs
  case isFalse => cases hs
  case isTrue hk => exact absurd hk.2.2.2 (h.still hk.1)

/-- The steps of a dialogue. -/
theorem step_cases (h : step host ids disconnectID a d = some d') :
    (∃ env self now client, a = .connect env self now ∧ env.incoming = []
        ∧ PacketClient.step (host .client) (ids .client) disconnectID
          (.connect env) d.client = some client
        ∧ d' = d.connected host ids env self now client)
      ∨ (∃ b client, a = .client b ∧ isApart b = false
        ∧ PacketClient.step (host .client) (ids .client) disconnectID b
          d.client = some client
        ∧ d' = (note b d).follow client)
      ∨ (∃ k b l, a = .released k b ∧ k ∈ d.released
        ∧ d.client.runs = true
        ∧ Link.step host ids (.event .client b) (d.link k) = some l
        ∧ d' = d.stir k l)
      ∨ (∃ k b l, a = .server k b ∧ k < d.client.sessions
        ∧ Link.step host ids (.event .server b) (d.link k) = some l
        ∧ d' = d.setLink k l)
      ∨ ∃ k side n l, a = .arrive k side n ∧ k < d.client.sessions
        ∧ Link.step host ids (.arrive side n) (d.link k) = some l
        ∧ d' = d.hear k l := by
  cases a with
  | connect env self now =>
      simp only [step] at h
      split at h
      case isFalse => cases h
      case isTrue hincoming =>
        obtain ⟨client, hclient, rfl⟩ := Option.map_eq_some_iff.mp h
        exact .inl ⟨env, self, now, client, rfl, by simpa using hincoming,
          hclient, rfl⟩
  | client b =>
      simp only [step] at h
      split at h
      case isTrue => cases h
      case isFalse hb =>
        obtain ⟨client, hclient, rfl⟩ := Option.map_eq_some_iff.mp h
        exact .inr (.inl ⟨b, client, rfl, by simpa using hb, hclient, rfl⟩)
  | released k b =>
      simp only [step] at h
      split at h
      case isFalse => cases h
      case isTrue hk =>
        obtain ⟨l, hl, rfl⟩ := Option.map_eq_some_iff.mp h
        exact .inr (.inr (.inl ⟨k, b, l, rfl, hk.1, hk.2.2.2, hl, rfl⟩))
  | server k b =>
      simp only [step] at h
      split at h
      case isFalse => cases h
      case isTrue hk =>
        obtain ⟨l, hl, rfl⟩ := Option.map_eq_some_iff.mp h
        exact .inr (.inr (.inr (.inl ⟨k, b, l, rfl, hk, hl, rfl⟩)))
  | arrive k side n =>
      simp only [step] at h
      split at h
      case isFalse => cases h
      case isTrue hk =>
        obtain ⟨l, hl, rfl⟩ := Option.map_eq_some_iff.mp h
        exact .inr (.inr (.inr (.inr ⟨k, side, n, l, rfl, hk, hl, rfl⟩)))

/-- Where the client has the connection that it had, no link changes. -/
theorem Standing.link_same
    (h : Standing host ids gameName gameVersion acts d)
    (hconn : client.mConnection = d.client.mConnection)
    (b : PacketClient.Action) : ((note b d).follow client).link = d.link := by
  cases hc : client.mConnection with
  | none => rw [follow_none hc, note_link]
  | some conn =>
      have hlink := (h.owned conn (hconn.symm.trans hc)).2
      rw [follow_same hc (by simpa using hlink), note_link]

/-- The client has taken a step of its own. -/
theorem Standing.follow (h : Standing host ids gameName gameVersion acts d)
    {b : PacketClient.Action} (hb : isApart b = false)
    (hs : PacketClient.step (host .client) (ids .client) disconnectID b
      d.client = some client) :
    Standing host ids gameName gameVersion (acts ++ [.client b])
      ((note b d).follow client) := by
  obtain ⟨hfate, hmove⟩ := PacketClient.move_of_step hs
  obtain ⟨hsessions, hgoes⟩ :=
    PacketClient.goes_move hmove hb (h.intact hfate)
  obtain ⟨hname, hversion⟩ := PacketClient.game_move hmove
  have hgame : client.mGameName = gameName
      ∧ client.mGameVersion = gameVersion :=
    ⟨hname.trans h.game.1, hversion.trans h.game.2⟩
  have hintact := PacketClient.intact_move h.intact hfate hmove
  have hstopped : (note b d).released ≠ [] →
      client.mIoContextStopped = true := by
    by_cases hend : b = .disconnectEnd
    · subst hend
      cases hmove
      exact fun _ => rfl
    · rw [note_released hend]
      exact fun hne => PacketClient.stopped_move hmove (h.stopped hne)
  -- where the links are what they were
  have hsame (hlink : ((note b d).follow client).link = d.link)
      (howned : ∀ conn, client.mConnection = some conn →
        d.client.mConnection = some conn) :
      Standing host ids gameName gameVersion (acts ++ [.client b])
        ((note b d).follow client) := by
    refine ⟨by simpa using hgame, by simpa using hintact,
      by simpa using hstopped, fun k hk => ?_, fun conn hconn => ?_⟩
    · rw [follow_client, hsessions] at hk
      rw [hlink]
      exact (h.sessions k hk).mono _
    · rw [follow_client] at hconn ⊢
      rw [hlink, hsessions]
      exact h.owned conn (howned conn hconn)
  have hkeeps (hconn : client.mConnection = d.client.mConnection) :
      Standing host ids gameName gameVersion (acts ++ [.client b])
        ((note b d).follow client) :=
    hsame (h.link_same hconn b) fun conn hc => hconn.symm.trans hc
  cases hgoes with
  | keeps ha hconn hqueue => exact hkeeps hconn
  | pops hconn hqueue => exact hkeeps hconn
  | ends ha hconn hqueue =>
      refine hsame (by rw [follow_none hconn, note_link]) fun conn hc => ?_
      rw [hconn] at hc
      cases hc
  | @steps _ _ conn conn' e ha he hconn hstep hconn' hqueue =>
      obtain ⟨hk, hlink⟩ := h.owned conn hconn
      have hself := Connection.self_step hstep
      have hlinks := follow_some (d := note b d) hconn'
      rw [note_link, hself] at hlinks
      have hevent : Link.step host ids (.event .client e) (d.link conn.self)
          = some ((d.link conn.self).setConn .client conn') := by
        refine Link.step_event he ?_
        rw [hlink]
        exact hstep
      refine ⟨by simpa using hgame, by simpa using hintact,
        by simpa using hstopped, fun k hk' => ?_, fun conn₁ hconn₁ => ?_⟩
      · rw [follow_client, hsessions] at hk'
        rw [hlinks]
        by_cases hkc : k = conn.self
        · rw [hkc, Function.update_self]
          exact (h.sessions _ hk).snoc hevent _
        · rw [Function.update_of_ne hkc]
          exact (h.sessions k hk').mono _
      · rw [follow_client] at hconn₁ ⊢
        rw [hconn'] at hconn₁
        cases hconn₁
        rw [hlinks, hself, hsessions, Function.update_self]
        exact ⟨hk, Link.setConn_same ..⟩

/-- `Connect()` has returned. -/
theorem Standing.connect (h : Standing host ids gameName gameVersion acts d)
    {env : PacketClient.ConnectEnv} {self : Nat} {now : TimePoint}
    (hincoming : env.incoming = [])
    (hs : PacketClient.step (host .client) (ids .client) disconnectID
      (.connect env) d.client = some client) :
    Standing host ids gameName gameVersion (acts ++ [.connect env self now])
      (d.connected host ids env self now client) := by
  obtain ⟨hfate, hmove⟩ := PacketClient.move_of_step hs
  obtain ⟨hname, hversion⟩ := PacketClient.game_move hmove
  have hgame : client.mGameName = gameName
      ∧ client.mGameVersion = gameVersion :=
    ⟨hname.trans h.game.1, hversion.trans h.game.2⟩
  have hintact := PacketClient.intact_move h.intact hfate hmove
  have hstopped (hne : d.released ≠ []) : client.mIoContextStopped = true :=
    PacketClient.stopped_move hmove (h.stopped hne)
  obtain ⟨-, ⟨hsessions, hconn⟩ | ⟨hsessions, hconn⟩⟩ :=
    PacketClient.connect_move hmove
  · rw [connected, if_pos hsessions]
    refine ⟨hgame, hintact, hstopped, fun k hk => ?_, fun conn hc => ?_⟩
    · exact (h.sessions k (hsessions ▸ hk)).mono _
    · show conn.self < client.sessions ∧ _
      rw [hsessions]
      exact h.owned conn (hconn.symm.trans hc)
  · rw [connected, if_neg (by omega)]
    refine ⟨hgame, hintact, hstopped, fun k hk => ?_, fun conn hc => ?_⟩
    · have hk' : k < d.client.sessions + 1 := hsessions ▸ hk
      by_cases hnew : k = d.client.sessions
      · subst hnew
        refine ⟨env, self, now, by simp, ?_⟩
        rw [← PacketClient.initPacket_eq h.game.1 h.game.2]
        simp only [setLink, Function.update_self]
        exact .refl _
      · simp only [setLink, Function.update_of_ne hnew]
        exact (h.sessions k (by omega)).mono _
    · have hc' := hconn.symm.trans hc
      have hself := PacketClient.connecting_self hc'
      refine ⟨?_, ?_⟩
      · show conn.self < client.sessions
        omega
      · simp only [setLink, hself, Function.update_self]
        cases hc'
        rw [hincoming]
        rfl

/-- Something has happened at a session's server. -/
theorem Standing.server (h : Standing host ids gameName gameVersion acts d)
    {b : Connection.Action} (hk : k < d.client.sessions)
    (hs : Link.step host ids (.event .server b) (d.link k) = some l) :
    Standing host ids gameName gameVersion (acts ++ [.server k b])
      (d.setLink k l) := by
  have hclient := Link.client_of_event hs
  refine ⟨h.game, h.intact, h.stopped, fun j hj => ?_,
    fun conn hconn => ?_⟩
  · by_cases hjk : j = k
    · simp only [hjk, setLink, Function.update_self]
      exact (h.sessions k hk).snoc hs _
    · simp only [setLink, Function.update_of_ne hjk]
      exact (h.sessions j hj).mono _
  · obtain ⟨hlt, hlink⟩ := h.owned conn hconn
    refine ⟨hlt, ?_⟩
    by_cases hjk : conn.self = k
    · simp only [setLink, hjk, Function.update_self]
      rw [hclient, ← hjk, hlink]
    · simp only [setLink, Function.update_of_ne hjk]
      exact hlink

/-- The connection that the client has is the one it had, where bytes have
arrived at that end of its link. -/
theorem Standing.of_hear (h : Standing host ids gameName gameVersion acts d)
    {side : Side} {n : Nat}
    (hs : Link.step host ids (.arrive side n) (d.link k) = some l)
    (hconn : (d.hear k l).client.mConnection = some conn) :
    ∃ conn₀, d.client.mConnection = some conn₀
      ∧ conn.self = conn₀.self ∧ conn.escaped = conn₀.escaped
      ∧ conn = if conn₀.self = k then l.conn .client else conn₀ := by
  obtain ⟨bytes, hclient⟩ := Link.client_of_arrive hs
  obtain ⟨conn₀, hconn₀, rfl⟩ := Option.map_eq_some_iff.mp hconn
  obtain ⟨-, hlink⟩ := h.owned conn₀ hconn₀
  refine ⟨conn₀, hconn₀, ?_⟩
  by_cases hself : conn₀.self = k
  · rw [hself] at hlink
    simp only [hself, if_true, hclient, hlink]
    exact ⟨trivial, trivial, trivial⟩
  · simp only [hself, if_false]
    exact ⟨trivial, trivial, trivial⟩

/-- Bytes have arrived. -/
theorem Standing.arrive (h : Standing host ids gameName gameVersion acts d)
    {side : Side} {n : Nat} (hk : k < d.client.sessions)
    (hs : Link.step host ids (.arrive side n) (d.link k) = some l) :
    Standing host ids gameName gameVersion (acts ++ [.arrive k side n])
      (d.hear k l) := by
  refine ⟨h.game, fun hfate conn hconn => ?_, h.stopped, fun j hj => ?_,
    fun conn hconn => ?_⟩
  · obtain ⟨conn₀, hconn₀, -, hesc, -⟩ := h.of_hear hs hconn
    rw [hesc]
    exact h.intact hfate conn₀ hconn₀
  · by_cases hjk : j = k
    · simp only [hjk, hear, setLink, Function.update_self]
      exact (h.sessions k hk).snoc hs _
    · simp only [hear, setLink, Function.update_of_ne hjk]
      exact (h.sessions j hj).mono _
  · obtain ⟨conn₀, hconn₀, hself, -, hval⟩ := h.of_hear hs hconn
    obtain ⟨hlt, hlink⟩ := h.owned conn₀ hconn₀
    rw [hself]
    refine ⟨hlt, ?_⟩
    by_cases hjk : conn₀.self = k
    · simp only [hear, setLink, hjk, Function.update_self]
      rw [hval, if_pos hjk]
    · simp only [hear, setLink, Function.update_of_ne hjk]
      rw [hval, if_neg hjk, hlink]

theorem Standing.step (h : Standing host ids gameName gameVersion acts d)
    (hs : Dialogue.step host ids disconnectID a d = some d') :
    Standing host ids gameName gameVersion (acts ++ [a]) d' := by
  rcases step_cases hs with
    ⟨env, self, now, client, rfl, hincoming, hclient, rfl⟩ |
    ⟨b, client, rfl, hb, hclient, rfl⟩ | ⟨k, b, l, rfl, hk, hruns, -⟩ |
    ⟨k, b, l, rfl, hk, hl, rfl⟩ | ⟨k, side, n, l, rfl, hk, hl, rfl⟩
  · exact h.connect hincoming hclient
  · exact h.follow hb hclient
  · exact absurd hruns (h.still hk)
  · exact h.server hk hl
  · exact h.arrive hk hl

theorem standing_start :
    Standing host ids gameName gameVersion [] (start gameName gameVersion) := by
  refine ⟨⟨rfl, rfl⟩, fun _ conn hconn => ?_, fun hne => ?_,
    fun k hk => ?_, fun conn hconn => ?_⟩
  · cases hconn
  · exact absurd rfl hne
  · exact absurd hk (Nat.not_lt_zero k)
  · cases hconn

theorem standing_run
    (hrun : Lts.run (step host ids disconnectID) (start gameName gameVersion)
      acts = some d) : Standing host ids gameName gameVersion acts d :=
  Lts.run_history (Standing host ids gameName gameVersion)
    (fun _ _ _ _ h hs => h.step hs) standing_start hrun

/-- Every connection that a `Connect()` makes is one end of a link with a
server, whose other end has been given the `Init` of that call, and has
had nothing happen to it but the steps of that link, whatever the client
did before, meanwhile and since. -/
theorem sessions_are_links
    (hrun : Lts.run (step host ids disconnectID) (start gameName gameVersion)
      acts = some d) :
    (∀ k < d.client.sessions,
      IsSession host ids gameName gameVersion acts k (d.link k))
    ∧ ∀ conn, d.client.mConnection = some conn →
      conn.self < d.client.sessions
        ∧ (d.link conn.self).conn .client = conn := by
  have h := standing_run hrun
  exact ⟨h.sessions, h.owned⟩

/-- A client connects and its server sends it a packet. While that comes
in the client disconnects; the user takes it after the session, and
connects again. -/
def visiting : List Action :=
  [.connect PacketClient.goodEnv 4 1, .client (.io (.connectDone true true)),
    .client (.io .posted), .client (.io (.writeDone .header true 2)),
    .client (.io (.writeDone .body true 2)), .arrive 0 .server 21,
    .server 0 (.readDone .header true 3),
    .server 0 (.readDone (.body 17) true 3),
    .server 0 (.send (Ping.toPacket .little 3 ⟨7⟩)), .server 0 .posted,
    .client (.disconnectTest .disconnect),
    .server 0 (.writeDone .header true 4), .arrive 0 .client 4,
    .server 0 (.writeDone .body true 4), .arrive 0 .client 8,
    .client (.io (.readDone .header true 5)), .client .disconnectSend,
    .client (.io (.readDone (.body 8) true 5)), .client .post,
    .client .disconnectEnd, .client .popFront,
    .connect PacketClient.goodEnv 5 9]

theorem visiting_run :
    ∃ d, Lts.run (step (fun _ => .little) (fun _ => ⟨0xF0, 0xF1⟩) 0xFF)
        (start .zero 0) visiting = some d
      ∧ d.client.sessions = 2
      ∧ d.popped = [(0, ⟨none, ⟨⟨3, 0, 8⟩, ⟨[7, 0, 0, 0, 0, 0, 0, 0], 0⟩⟩⟩)]
      ∧ ∀ call ∈ ((d.link 0).conn .server).sent,
          Connection.bodyOf call.packet = [7, 0, 0, 0, 0, 0, 0, 0] := by
  have hend : (Lts.run (step (fun _ => .little) (fun _ => ⟨0xF0, 0xF1⟩) 0xFF)
      (start .zero 0) visiting).map (fun d => decide
        (d.client.sessions = 2
          ∧ d.popped
            = [(0, ⟨none, ⟨⟨3, 0, 8⟩, ⟨[7, 0, 0, 0, 0, 0, 0, 0], 0⟩⟩⟩)]
          ∧ ∀ call ∈ ((d.link 0).conn .server).sent,
              Connection.bodyOf call.packet = [7, 0, 0, 0, 0, 0, 0, 0]))
      = some true := by
    decide +kernel
  obtain ⟨d, hrun, hd⟩ := Option.map_eq_some_iff.mp hend
  exact ⟨d, hrun, of_decide_eq_true hd⟩

/-- Both sessions are links. -/
theorem sessions_are_links_visiting :
    ∃ d, Lts.run (step (fun _ => .little) (fun _ => ⟨0xF0, 0xF1⟩) 0xFF)
        (start .zero 0) visiting = some d
      ∧ IsSession (fun _ => .little) (fun _ => ⟨0xF0, 0xF1⟩) .zero 0 visiting
        0 (d.link 0)
      ∧ IsSession (fun _ => .little) (fun _ => ⟨0xF0, 0xF1⟩) .zero 0 visiting
        1 (d.link 1) := by
  obtain ⟨d, hrun, hsessions, -⟩ := visiting_run
  have h := (sessions_are_links hrun).1
  rw [hsessions] at h
  exact ⟨d, hrun, h 0 (by decide), h 1 (by decide)⟩

-- ============================================================== the queue

/-- Both ends of a session are at work. -/
theorem IsSession.joined
    (h : IsSession host ids gameName gameVersion acts k l) :
    Link.Joined host ids l := by
  obtain ⟨env, self, now, -, as, hrun⟩ := h
  exact Link.joined_run hrun

/-- The messages of one session among those the user has taken and those
in the queue. -/
def tally (d : Dialogue) (k : Nat) : List OwnedMessage :=
  ((d.popped ++ d.client.receiveQueue).filter (·.1 = k)).map (·.2)

/-- The queue, taken apart. -/
structure Tallied (d : Dialogue) : Prop where
  messages : ∀ k < d.client.sessions,
    d.tally k = ((d.link k).conn .client).mMessagesIn
  fresh : ∀ k, d.client.sessions ≤ k → d.tally k = []

/-- Nothing comes in, and what is taken is noted. -/
theorem Tallied.of_same (h : Tallied d)
    (hsessions : d'.client.sessions = d.client.sessions)
    (hboth : d'.popped ++ d'.client.receiveQueue
      = d.popped ++ d.client.receiveQueue)
    (hlink : ∀ k, ((d'.link k).conn .client).mMessagesIn
      = ((d.link k).conn .client).mMessagesIn) : Tallied d' := by
  have htally (k : Nat) : d'.tally k = d.tally k := by
    rw [tally, tally, hboth]
  refine ⟨fun k hk => ?_, fun k hk => ?_⟩
  · rw [htally, hlink]
    exact h.messages k (hsessions ▸ hk)
  · rw [htally]
    exact h.fresh k (hsessions ▸ hk)

/-- One session's connection pushes some messages. -/
theorem Tallied.pushes (h : Tallied d) (new : List OwnedMessage)
    (hk : k < d.client.sessions)
    (hsessions : d'.client.sessions = d.client.sessions)
    (hboth : d'.popped ++ d'.client.receiveQueue
      = d.popped ++ d.client.receiveQueue ++ new.map fun m => (k, m))
    (hlink : d'.link = Function.update d.link k l)
    (hmsgs : (l.conn .client).mMessagesIn
      = ((d.link k).conn .client).mMessagesIn ++ new) : Tallied d' := by
  have hown : d'.tally k = d.tally k ++ new := by
    simp [tally, hboth, List.filter_map, Function.comp_def]
  have hother {j : Nat} (hj : j ≠ k) : d'.tally j = d.tally j := by
    simp [tally, hboth, List.filter_map, Function.comp_def, Ne.symm hj]
  refine ⟨fun j hj => ?_, fun j hj => ?_⟩
  · by_cases hjk : j = k
    · subst hjk
      rw [hown, hlink, Function.update_self, hmsgs, h.messages j hk]
    · rw [hother hjk, hlink, Function.update_of_ne hjk]
      exact h.messages j (hsessions ▸ hj)
  · have hjk : j ≠ k := by omega
    rw [hother hjk]
    exact h.fresh j (hsessions ▸ hj)

/-- A step of the client's end adds to its messages. -/
theorem messages_step {e : Connection.Action} {conn' : Connection}
    (hj : Link.Joined host ids l) (he : Link.connectFails e = false)
    (hs : Connection.step (host .client) (ids .client) e (l.conn .client)
      = some conn') :
    conn'.mMessagesIn = (l.conn .client).mMessagesIn
      ++ conn'.mMessagesIn.drop (l.conn .client).mMessagesIn.length := by
  have hturn := ((hj.phase .client).turn he hs).1
  cases hturn with
  | silent hsent hmsgs hcalls => simp [hmsgs]
  | speaks call hsent hmsgs hcalls hcall => simp [hmsgs]
  | receives m answer hsent hmsgs hcalls hanswer => simp [hmsgs]

theorem Tallied.follow (h : Tallied d)
    (hstanding : Standing host ids gameName gameVersion acts d)
    {b : PacketClient.Action} (hb : isApart b = false)
    (hs : PacketClient.step (host .client) (ids .client) disconnectID b
      d.client = some client) : Tallied ((note b d).follow client) := by
  obtain ⟨hfate, hmove⟩ := PacketClient.move_of_step hs
  obtain ⟨hsessions, hgoes⟩ :=
    PacketClient.goes_move hmove hb (hstanding.intact hfate)
  have hquiet (hb : b ≠ .popFront) : (note b d).popped = d.popped := by
    cases b <;> first | rfl | exact absurd rfl hb
  cases hgoes with
  | keeps ha hconn hqueue =>
      refine h.of_same (by simpa using hsessions) ?_
        fun k => by rw [hstanding.link_same hconn]
      rw [follow_popped, follow_client, hquiet ha, hqueue]
  | pops hconn hqueue =>
      refine h.of_same (by simpa using hsessions) ?_
        fun k => by rw [hstanding.link_same hconn]
      rw [follow_popped, follow_client, hqueue]
      show (d.popped ++ d.client.receiveQueue.head?.toList) ++ _ = _
      cases d.client.receiveQueue with
      | nil => simp
      | cons m rest => simp
  | ends ha hconn hqueue =>
      refine h.of_same (by simpa using hsessions) ?_
        fun k => by rw [follow_none hconn, note_link]
      rw [follow_popped, follow_client, hquiet ha, hqueue]
  | @steps _ _ conn conn' e ha he hconn hstep hconn' hqueue =>
      obtain ⟨hk, hlink⟩ := hstanding.owned conn hconn
      have hself := Connection.self_step hstep
      have hlinks := follow_some (d := note b d) hconn'
      rw [note_link, hself] at hlinks
      refine h.pushes (conn'.mMessagesIn.drop conn.mMessagesIn.length) hk
        (by simpa using hsessions) ?_ hlinks ?_
      · rw [follow_popped, follow_client, hquiet ha, hqueue, hself,
          List.append_assoc]
      · rw [Link.setConn_same]
        have hmsgs := messages_step (hstanding.sessions _ hk).joined he
          (by rw [hlink]; exact hstep)
        rwa [hlink] at hmsgs ⊢

theorem Tallied.connect (h : Tallied d) {env : PacketClient.ConnectEnv}
    {self : Nat} {now : TimePoint}
    (hs : PacketClient.step (host .client) (ids .client) disconnectID
      (.connect env) d.client = some client) :
    Tallied (d.connected host ids env self now client) := by
  obtain ⟨hfate, hmove⟩ := PacketClient.move_of_step hs
  obtain ⟨hqueue, ⟨hsessions, -⟩ | ⟨hsessions, -⟩⟩ :=
    PacketClient.connect_move hmove
  · rw [connected, if_pos hsessions]
    refine h.of_same hsessions ?_ fun k => rfl
    show d.popped ++ client.receiveQueue = _
    rw [hqueue]
  · rw [connected, if_neg (by omega)]
    have htally (k : Nat) : ((({ d with client } : Dialogue).setLink
        d.client.sessions (opened d.client.sessions
          (PacketClient.initPacket (host .client) (ids .client) env d.client)
          env self now)).tally k) = d.tally k := by
      show ((d.popped ++ client.receiveQueue).filter _).map _ = _
      rw [hqueue]
      rfl
    refine ⟨fun k hk => ?_, fun k hk => ?_⟩
    · have hk' : k < d.client.sessions + 1 := hsessions ▸ hk
      rw [htally]
      by_cases hnew : k = d.client.sessions
      · simp only [hnew, setLink, Function.update_self]
        exact h.fresh _ (Nat.le_refl _)
      · simp only [setLink, Function.update_of_ne hnew]
        exact h.messages k (by omega)
    · have hk' : d.client.sessions + 1 ≤ k := hsessions ▸ hk
      rw [htally]
      exact h.fresh k (by omega)

theorem Tallied.step (h : Tallied d)
    (hstanding : Standing host ids gameName gameVersion acts d)
    (hs : Dialogue.step host ids disconnectID a d = some d') :
    Tallied d' := by
  rcases step_cases hs with
    ⟨env, self, now, client, rfl, hincoming, hclient, rfl⟩ |
    ⟨b, client, rfl, hb, hclient, rfl⟩ | ⟨k, b, l, rfl, hk, hruns, -⟩ |
    ⟨k, b, l, rfl, hk, hl, rfl⟩ | ⟨k, side, n, l, rfl, hk, hl, rfl⟩
  · exact h.connect hclient
  · exact h.follow hstanding hb hclient
  · exact absurd hruns (hstanding.still hk)
  · refine h.of_same rfl rfl fun j => ?_
    by_cases hjk : j = k
    · simp only [hjk, setLink, Function.update_self]
      rw [Link.client_of_event hl]
    · simp only [setLink, Function.update_of_ne hjk]
  · obtain ⟨bytes, hclient⟩ := Link.client_of_arrive hl
    refine h.of_same rfl rfl fun j => ?_
    by_cases hjk : j = k
    · simp only [hjk, hear, setLink, Function.update_self]
      rw [hclient]
    · simp only [hear, setLink, Function.update_of_ne hjk]

theorem tallied_run
    (hrun : Lts.run (step host ids disconnectID) (start gameName gameVersion)
      acts = some d) : Tallied d := by
  have hboth : Standing host ids gameName gameVersion acts d ∧ Tallied d := by
    refine Lts.run_history (fun acts d =>
      Standing host ids gameName gameVersion acts d ∧ Tallied d)
      (fun _ _ _ _ h hs => ⟨h.1.step hs, h.2.step h.1 hs⟩) ?_ hrun
    exact ⟨standing_start, fun k hk => absurd hk (Nat.not_lt_zero k),
      fun k _ => rfl⟩
  exact hboth.2

-- =============================================================== results

/-- Of each session, the user is given the messages its server has sent,
in their order, none left out and none twice; those not taken yet are in
the queue, also when the session is over. The `i`-th is the `i`-th that
the server sent, with its body where it has one. -/
theorem pops_what_servers_send
    (hrun : Lts.run (step host ids disconnectID) (start gameName gameVersion)
      acts = some d) (hk : k < d.client.sessions)
    (hfit : ∀ call ∈ ((d.link k).conn .server).sent,
      (Connection.bodyOf call.packet).length ≤ 65535) :
    (d.popped.filter (·.1 = k)).map (·.2)
        ++ (d.client.receiveQueue.filter (·.1 = k)).map (·.2)
        = ((d.link k).conn .client).mMessagesIn
      ∧ ∀ (i : Nat) (m : OwnedMessage),
        ((d.popped.filter (·.1 = k)).map (·.2))[i]? = some m →
        ∃ call, ((d.link k).conn .server).sent[i]? = some call
          ∧ m.second.header = ⟨call.packet.id, PacketFlags.none,
              UInt16.ofNat (Connection.bodyOf call.packet).length⟩
          ∧ (Connection.bodyOf call.packet ≠ [] →
              m.second.body.bytes = Connection.bodyOf call.packet) := by
  have hparts := (tallied_run hrun).messages k hk
  rw [tally, List.filter_append, List.map_append] at hparts
  refine ⟨hparts, fun i m hm => ?_⟩
  have hin : ((d.link k).conn .client).mMessagesIn[i]? = some m := by
    obtain ⟨hi, -⟩ := List.getElem?_eq_some_iff.mp hm
    rw [← hparts, List.getElem?_append_left hi]
    exact hm
  have hjoined := ((standing_run hrun).sessions k hk).joined
  obtain ⟨call, hcall, hheader, hbody⟩ :=
    @Link.Joined.message _ _ _ .client hjoined hfit i m hin
  exact ⟨call, hcall, hheader, fun hne => hbody.mpr (.inl hne)⟩

/-- The packet of the server's, taken after the session. -/
theorem pops_what_servers_send_visiting :
    ∃ d m call, Lts.run (step (fun _ => .little) (fun _ => ⟨0xF0, 0xF1⟩) 0xFF)
        (start .zero 0) visiting = some d
      ∧ d.popped = [(0, m)] ∧ ((d.link 0).conn .server).sent[0]? = some call
      ∧ m.second.header = ⟨call.packet.id, PacketFlags.none, 8⟩
      ∧ m.second.body.bytes = Connection.bodyOf call.packet := by
  obtain ⟨d, hrun, hsessions, hpopped, hbody⟩ := visiting_run
  have hfit : ∀ call ∈ ((d.link 0).conn .server).sent,
      (Connection.bodyOf call.packet).length ≤ 65535 := by
    intro call hcall
    rw [hbody call hcall]
    decide
  obtain ⟨call, hcall, hheader, hown⟩ :=
    (pops_what_servers_send hrun (by rw [hsessions]; decide) hfit).2 0
      ⟨none, ⟨⟨3, 0, 8⟩, ⟨[7, 0, 0, 0, 0, 0, 0, 0], 0⟩⟩⟩
      (by rw [hpopped]; rfl)
  have hbytes := hbody call (List.mem_of_getElem? hcall)
  rw [hbytes] at hheader hown
  refine ⟨d, _, call, hrun, hpopped, hcall, hheader, ?_⟩
  rw [hbytes]
  exact hown (by decide)

/-- A server hears nothing of a `PacketClient` behind its `Init`: whatever
its user sends, the packet with which it disconnects included, no message
is received, and the time it was last heard of stays that of the accept. -/
theorem sessions_are_unheard (hinit : (ids .client).init = (ids .server).init)
    (hrun : Lts.run (step host ids disconnectID) (start gameName gameVersion)
      acts = some d) (hk : k < d.client.sessions) :
    ((d.link k).conn .server).mMessagesIn = []
      ∧ ∃ env self, Action.connect env self
          ((d.link k).conn .server).mLastKeepAlive ∈ acts := by
  obtain ⟨env, self, now, hmem, as, hreach⟩ :=
    (standing_run hrun).sessions k hk
  rw [PacketClient.initPacket, hinit] at hreach
  have hjoins : Link.Joins ids (Init.toPacket (host .client) (ids .server).init
      ⟨gameName, gameVersion, env.locale, NextInitStep.join⟩) :=
    Link.joins_init (host .client) _
  have h := Link.unheard_run hjoins hreach
  obtain ⟨fs, rest, hr⟩ := (h.phase .server).reader
  obtain rfl := Link.taken_eq_nil h.toJoined h.greeted hjoins hr
  refine ⟨hr.messages, env, self, ?_⟩
  rw [h.time]
  exact hmem

/-- The server of the first session has read the `Init`, and nothing has
been received. -/
theorem sessions_are_unheard_visiting :
    ∃ d, Lts.run (step (fun _ => .little) (fun _ => ⟨0xF0, 0xF1⟩) 0xFF)
        (start .zero 0) visiting = some d
      ∧ ((d.link 0).conn .server).mMessagesIn = [] := by
  obtain ⟨d, hrun, hsessions, -⟩ := visiting_run
  exact ⟨d, hrun, (sessions_are_unheard rfl hrun
    (by rw [hsessions]; decide)).1⟩

-- ====================================================== after the session

/-- The client has given the connection of a session up, and nothing but
bytes has come to it. -/
structure GivenUp (conn : Connection) (d : Dialogue) : Prop where
  made : conn.self < d.client.sessions
  gone : ∀ conn', d.client.mConnection = some conn' → conn'.self ≠ conn.self
  same : ∃ bytes, (d.link conn.self).conn .client
    = { conn with incoming := bytes }

theorem GivenUp.step (h : GivenUp conn d)
    (hstanding : Standing host ids gameName gameVersion acts d)
    (hs : Dialogue.step host ids disconnectID a d = some d') :
    GivenUp conn d' := by
  rcases step_cases hs with
    ⟨env, self, now, client, rfl, -, hclient, rfl⟩ |
    ⟨b, client, rfl, hb, hclient, rfl⟩ | ⟨k, b, l, rfl, hk, hruns, -⟩ |
    ⟨k, b, l, rfl, hk, hl, rfl⟩ | ⟨k, side, n, l, rfl, hk, hl, rfl⟩
  · obtain ⟨hfate, hmove⟩ := PacketClient.move_of_step hclient
    obtain ⟨-, ⟨hsessions, hconn⟩ | ⟨hsessions, hconn⟩⟩ :=
      PacketClient.connect_move hmove
    · rw [connected, if_pos hsessions]
      refine ⟨?_, fun conn' hc => h.gone conn' (hconn.symm.trans hc), h.same⟩
      exact hsessions.symm ▸ h.made
    · have hmade := h.made
      rw [connected, if_neg (by omega)]
      refine ⟨?_, fun conn' hc => ?_, ?_⟩
      · show conn.self < client.sessions
        omega
      · have hself := PacketClient.connecting_self (hconn.symm.trans hc)
        omega
      · simp only [setLink, Function.update_of_ne (Nat.ne_of_lt hmade)]
        exact h.same
  · obtain ⟨hfate, hmove⟩ := PacketClient.move_of_step hclient
    obtain ⟨hsessions, hgoes⟩ :=
      PacketClient.goes_move hmove hb (hstanding.intact hfate)
    have hgone : ∀ conn', client.mConnection = some conn' →
        conn'.self ≠ conn.self := by
      intro conn' hc
      cases hgoes with
      | keeps ha hconn hqueue => exact h.gone conn' (hconn.symm.trans hc)
      | pops hconn hqueue => exact h.gone conn' (hconn.symm.trans hc)
      | ends ha hconn hqueue =>
          rw [hconn] at hc
          cases hc
      | steps ha he hconn hstep hconn' hqueue =>
          rw [hconn'] at hc
          cases hc
          rw [Connection.self_step hstep]
          exact h.gone _ hconn
    refine ⟨by simpa [hsessions] using h.made, by simpa using hgone, ?_⟩
    cases hc : client.mConnection with
    | none =>
        rw [follow_none hc, note_link]
        exact h.same
    | some conn' =>
        rw [follow_some hc, Function.update_of_ne (hgone conn' hc).symm,
          note_link]
        exact h.same
  · -- the context that `Disconnect()` has stopped is never restarted
    exact absurd hruns (hstanding.still hk)
  · refine ⟨h.made, h.gone, ?_⟩
    by_cases hself : conn.self = k
    · simp only [setLink, hself, Function.update_self]
      rw [Link.client_of_event hl, ← hself]
      exact h.same
    · simp only [setLink, Function.update_of_ne hself]
      exact h.same
  · obtain ⟨bytes, hclient⟩ := Link.client_of_arrive hl
    refine ⟨h.made, fun conn' hc => ?_, ?_⟩
    · obtain ⟨conn₀, hconn₀, hself, -⟩ := hstanding.of_hear hl hc
      rw [hself]
      exact h.gone conn₀ hconn₀
    · by_cases hself : conn.self = k
      · simp only [hear, setLink, hself, Function.update_self]
        obtain ⟨bytes', hsame⟩ := h.same
        rw [hclient, ← hself, hsame]
        exact ⟨bytes, rfl⟩
      · simp only [hear, setLink, Function.update_of_ne hself]
        exact h.same

/-- The end of a session leaves its connection behind. -/
theorem givenUp_of_ends
    (h : Standing host ids gameName gameVersion acts d)
    (hconn : d.client.mConnection = some conn)
    (hends : Dialogue.step host ids disconnectID (.client .disconnectEnd) d
      = some d') : conn.self ∈ d'.released ∧ GivenUp conn d' := by
  obtain ⟨hmade, hlink⟩ := h.owned conn hconn
  rcases step_cases hends with
    ⟨env, self, now, client, heq, -⟩ | ⟨b, client, heq, -, hclient, rfl⟩ |
    ⟨k, b, l, heq, -⟩ | ⟨k, b, l, heq, -⟩ | ⟨k, side, n, l, heq, -⟩
  case inr.inl =>
    cases heq
    obtain ⟨-, hmove⟩ := PacketClient.move_of_step hclient
    cases hmove with
    | @ends call hu =>
        have hnone : (PacketClient.finished call
            (PacketClient.ended call d.client)).mConnection = none := rfl
        refine ⟨?_, by rw [follow_client]; exact hmade, fun conn' hc => ?_, ?_⟩
        · simp [note, hconn]
        · rw [follow_client, hnone] at hc
          cases hc
        · rw [follow_none hnone, note_link, hlink]
          exact ⟨conn.incoming, rfl⟩
  all_goals cases heq

/-- `Disconnect()` and `DisconnectWithError()` leave the connection behind
and do not close it. Whatever happens afterwards, no handler of it runs,
for the context that its handlers wait for has been stopped for good: so
nothing is read from it, written to it or closed any more, and an open
socket stays open. -/
theorem disconnect_leaves_it
    (hrun : Lts.run (step host ids disconnectID) (start gameName gameVersion)
      acts = some d)
    (hconn : d.client.mConnection = some conn) {d₁ d₂ : Dialogue}
    (hends : step host ids disconnectID (.client .disconnectEnd) d = some d₁)
    {onward : List Action}
    (honward : Lts.run (step host ids disconnectID) d₁ onward = some d₂) :
    conn.self ∈ d₁.released
      ∧ (∀ b, step host ids disconnectID (.released conn.self b) d₂ = none)
      ∧ ∃ bytes, (d₂.link conn.self).conn .client
        = { conn with incoming := bytes } := by
  have hstanding := standing_run hrun
  obtain ⟨hleft, hgiven⟩ := givenUp_of_ends hstanding hconn hends
  have hboth := Lts.run_invariant (fun d => (∃ acts,
    Standing host ids gameName gameVersion acts d) ∧ GivenUp conn d)
    (fun d a d' h hs => ⟨⟨_, h.1.choose_spec.step hs⟩,
      h.2.step h.1.choose_spec hs⟩)
    ⟨⟨_, hstanding.step hends⟩, hgiven⟩ honward
  obtain ⟨⟨acts₂, hstanding₂⟩, hgiven₂⟩ := hboth
  refine ⟨hleft, fun b => ?_, hgiven₂.same⟩
  cases hb : Dialogue.step host ids disconnectID (.released conn.self b) d₂ with
  | none => rfl
  | some d₃ => exact absurd hb (hstanding₂.released_refused b)

/-- The client of the run above, after its first session. Had the context
been restarted for the second, a read of the first that fails would close
the socket. -/
theorem disconnect_leaves_it_visiting :
    ∃ d d₁ d₂ conn, Lts.run (step (fun _ => .little)
        (fun _ => ⟨0xF0, 0xF1⟩) 0xFF) (start .zero 0) (visiting.take 19)
        = some d
      ∧ d.client.mConnection = some conn ∧ conn.isConnected = true
      ∧ step (fun _ => .little) (fun _ => ⟨0xF0, 0xF1⟩) 0xFF
        (.client .disconnectEnd) d = some d₁
      ∧ Lts.run (step (fun _ => .little) (fun _ => ⟨0xF0, 0xF1⟩) 0xFF) d₁
        (visiting.drop 20) = some d₂
      ∧ ((d₂.link conn.self).conn .client).isConnected = true
      ∧ (step (fun _ => .little) (fun _ => ⟨0xF0, 0xF1⟩) 0xFF
          (.released conn.self (.readDone .header false 9)) { d₂ with
            client := { d₂.client with mIoContextStopped := false } }).map
          (fun d => ((d.link conn.self).conn .client).isConnected)
        = some false := by
  have hend : ((Lts.run (step (fun _ => .little) (fun _ => ⟨0xF0, 0xF1⟩) 0xFF)
      (start .zero 0) (visiting.take 19)).bind fun d => do
        let conn ← d.client.mConnection
        let d₁ ← step (fun _ => .little) (fun _ => ⟨0xF0, 0xF1⟩) 0xFF
          (.client .disconnectEnd) d
        let d₂ ← Lts.run (step (fun _ => .little) (fun _ => ⟨0xF0, 0xF1⟩) 0xFF)
          d₁ (visiting.drop 20)
        let d₃ ← step (fun _ => .little) (fun _ => ⟨0xF0, 0xF1⟩) 0xFF
          (.released conn.self (.readDone .header false 9)) { d₂ with
            client := { d₂.client with mIoContextStopped := false } }
        pure (conn.isConnected, ((d₃.link conn.self).conn .client).isConnected))
      = some (true, false) := by
    decide +kernel
  obtain ⟨d, hrun, hd⟩ := Option.bind_eq_some_iff.mp hend
  obtain ⟨conn, hconn, hd⟩ := Option.bind_eq_some_iff.mp hd
  obtain ⟨d₁, hends, hd⟩ := Option.bind_eq_some_iff.mp hd
  obtain ⟨d₂, honward, hd⟩ := Option.bind_eq_some_iff.mp hd
  obtain ⟨d₃, hstirs, hd⟩ := Option.bind_eq_some_iff.mp hd
  injection hd with hd
  obtain ⟨hopen, hclosed⟩ := Prod.mk.inj hd
  obtain ⟨-, -, bytes, hsame⟩ := disconnect_leaves_it hrun hconn hends honward
  refine ⟨d, d₁, d₂, conn, hrun, hconn, hopen, hends, honward, ?_, ?_⟩
  · rw [hsame]
    exact hopen
  · rw [hstirs]
    exact congrArg some hclosed

end Dialogue

end AWEnginePacket
