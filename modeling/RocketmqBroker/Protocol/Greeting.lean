import RocketmqBroker.Protocol.Handshake

/-!
What a client writes in the handshake, and what comes of it: the connection is opened exactly for
those who are registered when their credentials come, and have a permission for the vhost when they
ask for it. Nothing else opens a connection.
-/
namespace RocketmqBroker
open BigEndian ByteReader

inductive Sasl (username password : String) : String → Bytes → Prop where
  | plain (authzid : Bytes) (none : 0 ∉ authzid) (named : 0 ∉ strBytes username)
      (secret : 0 ∉ strBytes password) :
      Sasl username password "PLAIN" (authzid ++ 0 :: (strBytes username ++ 0 :: strBytes password))
  | amqplain (table : FieldTable) (writable : table.Writable)
      (login : table.lookup "LOGIN" = some (.longString (strBytes username)))
      (secret : table.lookup "PASSWORD" = some (.longString (strBytes password))) :
      Sasl username password "AMQPLAIN" (writeFieldTable table).1

/-- The type and the channel of a frame, to which the handshake does not look. -/
abbrev FrameTag := UInt8 × UInt16

def connectionPayload (methodId : Nat) (args : Bytes) : Bytes :=
  toBeBytes 2 classConnection ++ (toBeBytes 2 methodId ++ args)

def FrameTag.frame (tag : FrameTag) (methodId : Nat) (args : Bytes) : AmqpFrame :=
  ⟨tag.1, tag.2, connectionPayload methodId args⟩

/-- All that a client sends in the handshake. Something may stand behind the last field that is
    read of each method. -/
structure Greeting where
  clientProps : FieldTable
  mechanism : String
  response : Bytes
  username : String
  password : String
  locale : String
  channelMax : UInt16
  frameMax : UInt32
  heartbeat : UInt16
  vhost : String
  behind : Bytes × Bytes × Bytes
  tags : FrameTag × FrameTag × FrameTag
  props_writable : clientProps.Writable
  mechanism_short : (strBytes mechanism).length ≤ 255
  response_short : response.length < 4294967296
  carried : Sasl username password mechanism response
  locale_short : (strBytes locale).length ≤ 255
  vhost_short : (strBytes vhost).length ≤ 255

namespace Greeting
variable (g : Greeting)

def startOk : Bytes :=
  (writeFieldTable g.clientProps).1 ++ ((writeShortstr g.mechanism).1 ++
    (prefixed 4 g.response ++ ((writeShortstr g.locale).1 ++ g.behind.1)))

def tuneOk : Bytes :=
  toBeBytes 2 g.channelMax.toNat ++ (toBeBytes 4 g.frameMax.toNat ++
    (toBeBytes 2 g.heartbeat.toNat ++ g.behind.2.1))

def openVhost : Bytes := (writeShortstr g.vhost).1 ++ g.behind.2.2

def frames : List AmqpFrame :=
  [g.tags.1.frame methodConnectionStartOk g.startOk,
    g.tags.2.1.frame methodConnectionTuneOk g.tuneOk,
    g.tags.2.2.frame methodConnectionOpen g.openVhost]

def Fits : Prop := ∀ frame ∈ g.frames, frameCodec.Valid frame

def bytes : Bytes := protocolHeader ++ RecordScan.encodeAll frameCodec g.frames

def negotiated : UInt16 × UInt32 :=
  (if g.channelMax = 0 then defaultChannelMax else min g.channelMax defaultChannelMax,
    if g.frameMax = 0 then defaultFrameMax else min g.frameMax defaultFrameMax)

end Greeting

theorem splitZero_append {front : Bytes} (none : 0 ∉ front) (rest : Bytes) :
    splitZero (front ++ 0 :: rest) = front :: splitZero rest := by
  induction front with
  | nil => exact if_pos rfl
  | cons b front ih =>
    obtain ⟨other, none⟩ := not_or.mp (List.mem_cons.not.mp none)
    rw [List.cons_append, splitZero, if_neg (Ne.symm other), ih none]
    rfl

theorem splitZero_of_none {bs : Bytes} (none : 0 ∉ bs) : splitZero bs = [bs] := by
  induction bs with
  | nil => rfl
  | cons b bs ih =>
    obtain ⟨other, none⟩ := not_or.mp (List.mem_cons.not.mp none)
    rw [splitZero, if_neg (Ne.symm other), ih none]
    rfl

theorem Sasl.credentials {username password mechanism : String} {response : Bytes}
    (carried : Sasl username password mechanism response) :
    saslCredentials mechanism response = some (username, password) := by
  cases carried with
  | plain authzid none named secret =>
    rw [saslCredentials, if_pos rfl, saslPlain, splitZero_append none, splitZero_append named,
      splitZero_of_none secret]
    simp only [fromUtf8Lossy_strBytes]
  | amqplain table writable login secret =>
    have read := readFieldTable_write writable []
    rw [List.append_nil] at read
    rw [saslCredentials, if_neg (by decide), if_pos rfl, saslAmqplain, read]
    simp only [Option.map_some, FieldTable.longString?, login, secret, Option.getD_some,
      fromUtf8Lossy_strBytes]

section
variable {b : Bcrypt} {cfg : DefaultUsers} {loopback : Bool} {atStartOk atOpen : Access}

theorem parseStartOkCredentials_greeting (g : Greeting) :
    parseStartOkCredentials g.startOk = some (g.username, g.password) := by
  have response (rest : Bytes) : readPrefixed 4 (prefixed 4 g.response ++ rest) =
      some (g.response, rest) := readPrefixed_prefixed g.response_short rest
  unfold parseStartOkCredentials
  rw [Greeting.startOk, readFieldTable_write g.props_writable, Option.bind_eq_bind,
    Option.bind_some]
  dsimp only
  rw [readShortstr_write g.mechanism_short, Option.bind_eq_bind, Option.bind_some]
  dsimp only
  rw [response, Option.bind_eq_bind, Option.bind_some]
  dsimp only
  rw [readShortstr_write g.locale_short]
  exact g.carried.credentials

theorem parseTuneOk_greeting (g : Greeting) :
    parseTuneOk g.tuneOk = some (g.negotiated.1, g.negotiated.2, g.heartbeat) := by
  have channels : g.channelMax.toNat = 0 ↔ g.channelMax = 0 := by
    rw [← UInt16.toNat_inj]
    rfl
  have frames : g.frameMax.toNat = 0 ↔ g.frameMax = 0 := by
    rw [← UInt32.toNat_inj]
    rfl
  have short (n : UInt16) (rest : Bytes) : readWord 2 (toBeBytes 2 n.toNat ++ rest) =
      some (n.toNat, rest) := readWord_toBeBytes n.toNat_lt rest
  have long (n : UInt32) (rest : Bytes) : readWord 4 (toBeBytes 4 n.toNat ++ rest) =
      some (n.toNat, rest) := readWord_toBeBytes n.toNat_lt rest
  simp only [parseTuneOk, Greeting.tuneOk, short, long, Option.bind_eq_bind, Option.bind_some,
    channels, frames, UInt16.ofNat_toNat, UInt32.ofNat_toNat]
  rfl

theorem parseConnectionOpen_greeting (g : Greeting) :
    parseConnectionOpen g.openVhost = some g.vhost := by
  rw [parseConnectionOpen, Greeting.openVhost, readShortstr_write g.vhost_short]
  rfl

theorem readConnectionMethod_frame {methodId : Nat} (known : methodId < 256 ^ 2) (tag : FrameTag)
    {args : Bytes} (fits : frameCodec.Valid (tag.frame methodId args)) (rest : Bytes) :
    readConnectionMethod methodId ((tag.frame methodId args).encode ++ rest) =
      some (args, rest) := by
  have class_known : classConnection < 256 ^ 2 := by decide
  have next : frameCodec.next ((tag.frame methodId args).encode ++ rest) = some _ :=
    frameCodec.next_encode _ rest fits
  have decoded : decodeMethod (tag.frame methodId args).payload =
      some ⟨classConnection, methodId, args⟩ := by
    simp only [FrameTag.frame, connectionPayload, decodeMethod, readWord_toBeBytes class_known,
      readWord_toBeBytes known, Option.bind_eq_bind, Option.bind_some]
    rfl
  simp only [readConnectionMethod, next, decoded, Option.bind_eq_bind, Option.bind_some, ne_eq,
    not_true_eq_false, or_self, if_false]
  rfl

theorem min_limit_bounds {α : Type} [LE α] [LT α] [DecidableLE α] {bottom a limit : α}
    (asked : bottom < a) (offered : bottom < limit) (refl : limit ≤ limit) :
    bottom < minOfLe.min a limit ∧ minOfLe.min a limit ≤ limit := by
  change bottom < (if a ≤ limit then a else limit) ∧ (if a ≤ limit then a else limit) ≤ limit
  by_cases small : a ≤ limit
  · rw [if_pos small]
    exact ⟨asked, small⟩
  · rw [if_neg small]
    exact ⟨offered, refl⟩

theorem parseTuneOk_bounds {args : Bytes} {channelMax heartbeat : UInt16} {frameMax : UInt32}
    (parsed : parseTuneOk args = some (channelMax, frameMax, heartbeat)) :
    (0 < channelMax ∧ channelMax ≤ defaultChannelMax) ∧
      (0 < frameMax ∧ frameMax ≤ defaultFrameMax) := by
  obtain ⟨⟨channels, bs⟩, firstRead, parsed⟩ := Option.bind_eq_some_iff.mp parsed
  obtain ⟨⟨size, bs'⟩, secondRead, parsed⟩ := Option.bind_eq_some_iff.mp parsed
  obtain ⟨⟨beats, _⟩, -, agreed⟩ := Option.bind_eq_some_iff.mp parsed
  obtain ⟨rfl, others⟩ := Prod.mk.inj (Option.some.inj agreed)
  obtain ⟨rfl, -⟩ := Prod.mk.inj others
  have fewChannels : channels < 65536 := readWord_lt firstRead
  have small : size < 4294967296 := readWord_lt secondRead
  constructor
  · split
    · decide
    · rename_i positive
      have asked : 0 < UInt16.ofNat channels := by
        rw [UInt16.lt_iff_toNat_lt, UInt16.toNat_ofNat_of_lt' fewChannels]
        exact Nat.pos_of_ne_zero positive
      exact min_limit_bounds asked (by decide) (by decide)
  · split
    · decide
    · rename_i positive
      have asked : 0 < UInt32.ofNat size := by
        rw [UInt32.lt_iff_toNat_lt, UInt32.toNat_ofNat_of_lt' small]
        exact Nat.pos_of_ne_zero positive
      exact min_limit_bounds asked (by decide) (by decide)

theorem closeHandshake_state (state : Negotiated) (sent : List Bytes) (code : Nat) (text : String)
    (methodId : Nat) : (closeHandshake state sent code text methodId).state = state := by
  unfold closeHandshake
  split <;> rfl

theorem closeHandshake_closed (state : Negotiated) (sent : List Bytes) (code : Nat)
    (text : String) (methodId : Nat) (rest : Bytes) :
    ¬ (closeHandshake state sent code text methodId).outcome = .opened rest := by
  unfold closeHandshake
  split <;> exact HandshakeEnd.noConfusion

/-- What holds of the state once someone has logged in: the credentials stay, and a connection is
    only opened with limits and with a vhost that is permitted. -/
structure LoggedIn (atOpen : Access) (username : String) (after : Handshake) : Prop where
  loggedIn : after.state.username = username ∧ after.state.authenticated = true
  opened : ∀ rest, after.outcome = .opened rest →
    ((0 < after.state.channelMax ∧ after.state.channelMax ≤ defaultChannelMax) ∧
      (0 < after.state.frameMax ∧ after.state.frameMax ≤ defaultFrameMax)) ∧
    after.state.vhost ∈ atOpen.vhosts ∧
      atOpen.backend.checkVhostAccess username after.state.vhost = true

theorem LoggedIn.of_not_opened {state : Negotiated} {after : Handshake}
    (authenticated : state.authenticated = true) (same : after.state = state)
    (closed : ∀ rest, ¬ after.outcome = .opened rest) : LoggedIn atOpen state.username after :=
  ⟨by rw [same]; exact ⟨rfl, authenticated⟩, fun rest opened => (closed rest opened).elim⟩

theorem openVhost_loggedIn (state : Negotiated) (sent : List Bytes) (bs : Bytes)
    (authenticated : state.authenticated = true)
    (limits : (0 < state.channelMax ∧ state.channelMax ≤ defaultChannelMax) ∧
      (0 < state.frameMax ∧ state.frameMax ≤ defaultFrameMax)) :
    LoggedIn atOpen state.username (openVhost atOpen state sent bs) := by
  unfold openVhost
  split
  · exact .of_not_opened authenticated rfl fun _ => HandshakeEnd.noConfusion
  split
  · exact .of_not_opened authenticated rfl fun _ => HandshakeEnd.noConfusion
  split
  · exact .of_not_opened authenticated (closeHandshake_state ..) (closeHandshake_closed _ _ _ _ _)
  split
  · exact .of_not_opened authenticated (closeHandshake_state ..) (closeHandshake_closed _ _ _ _ _)
  · rename_i vhost _ known permitted
    simp only [Bool.not_eq_true', Bool.not_eq_false] at known permitted
    exact ⟨⟨rfl, authenticated⟩,
      fun rest opened => ⟨limits, List.contains_iff_mem.mp known, permitted⟩⟩

theorem tuneConnection_loggedIn (state : Negotiated) (sent : List Bytes) (bs : Bytes)
    (authenticated : state.authenticated = true) :
    LoggedIn atOpen state.username (tuneConnection atOpen state sent bs) := by
  unfold tuneConnection
  split
  · exact .of_not_opened authenticated rfl fun _ => HandshakeEnd.noConfusion
  split
  · exact .of_not_opened authenticated rfl fun _ => HandshakeEnd.noConfusion
  · rename_i channelMax frameMax heartbeat parsed
    exact openVhost_loggedIn { state with channelMax, frameMax, heartbeat } sent _ authenticated
      (parseTuneOk_bounds parsed)

/-- Whoever is authenticated after a handshake has sent a password that was accepted. -/
theorem performHandshake_loggedIn (bs : Bytes) :
    ((performHandshake b cfg loopback atStartOk atOpen bs).state = .new ∧
      ∀ rest, ¬ (performHandshake b cfg loopback atStartOk atOpen bs).outcome = .opened rest) ∨
    ∃ username password,
      atStartOk.backend.authenticate b cfg username password loopback = .ok () ∧
        LoggedIn atOpen username (performHandshake b cfg loopback atStartOk atOpen bs) := by
  unfold performHandshake
  split
  · exact .inl ⟨rfl, fun _ => HandshakeEnd.noConfusion⟩
  split
  · exact .inl ⟨rfl, fun _ => HandshakeEnd.noConfusion⟩
  unfold logIn
  split
  · exact .inl ⟨rfl, fun _ => HandshakeEnd.noConfusion⟩
  split
  · exact .inl ⟨rfl, fun _ => HandshakeEnd.noConfusion⟩
  rename_i username password _
  split
  · exact .inl ⟨closeHandshake_state .., closeHandshake_closed _ _ _ _ _⟩
  · rename_i accepted
    exact .inr ⟨username, password, accepted, tuneConnection_loggedIn
      { Negotiated.new with username, authenticated := true } _ _ rfl⟩

def Greeting.Welcome (g : Greeting) (b : Bcrypt) (cfg : DefaultUsers) (loopback : Bool)
    (atStartOk atOpen : Access) : Prop :=
  atStartOk.backend.authenticate b cfg g.username g.password loopback = .ok () ∧
    g.vhost ∈ atOpen.vhosts ∧ atOpen.backend.checkVhostAccess g.username g.vhost = true

def Greeting.state (g : Greeting) : Negotiated :=
  ⟨g.username, true, g.negotiated.1, g.negotiated.2, g.heartbeat, g.vhost⟩

theorem openVhost_greeting {g : Greeting} (fits : g.Fits) (state : Negotiated)
    (sent : List Bytes) (rest : Bytes) {bs : Bytes}
    (same : bs = (g.tags.2.2.frame methodConnectionOpen g.openVhost).encode ++ rest) :
    ((∃ rest', (openVhost atOpen state sent bs).outcome = .opened rest') →
      g.vhost ∈ atOpen.vhosts ∧ atOpen.backend.checkVhostAccess state.username g.vhost = true) ∧
    (g.vhost ∈ atOpen.vhosts ∧ atOpen.backend.checkVhostAccess state.username g.vhost = true →
      (openVhost atOpen state sent bs).outcome = .opened rest ∧
        (openVhost atOpen state sent bs).state = { state with vhost := g.vhost }) := by
  have valid := fits (g.tags.2.2.frame methodConnectionOpen g.openVhost)
    (List.mem_cons_of_mem _ (List.mem_cons_of_mem _ (List.mem_singleton.mpr rfl)))
  have read : readConnectionMethod methodConnectionOpen bs = some (g.openVhost, rest) :=
    same ▸ readConnectionMethod_frame (by decide) g.tags.2.2 valid rest
  unfold openVhost
  rw [read]
  dsimp only
  rw [parseConnectionOpen_greeting]
  dsimp only
  constructor
  · rintro ⟨rest', opened⟩
    split at opened
    · exact (closeHandshake_closed _ _ _ _ _ _ opened).elim
    split at opened
    · exact (closeHandshake_closed _ _ _ _ _ _ opened).elim
    · rename_i known permitted
      simp only [Bool.not_eq_true', Bool.not_eq_false] at known permitted
      exact ⟨List.contains_iff_mem.mp known, permitted⟩
  · rintro ⟨known, permitted⟩
    rw [List.contains_iff_mem.mpr known, permitted]
    exact ⟨rfl, rfl⟩

theorem performHandshake_greeting {g : Greeting} (fits : g.Fits) (rest : Bytes) :
    ((∃ rest', (performHandshake b cfg loopback atStartOk atOpen (g.bytes ++ rest)).outcome =
      .opened rest') → g.Welcome b cfg loopback atStartOk atOpen) ∧
    (g.Welcome b cfg loopback atStartOk atOpen →
      (performHandshake b cfg loopback atStartOk atOpen (g.bytes ++ rest)).outcome = .opened rest ∧
        (performHandshake b cfg loopback atStartOk atOpen (g.bytes ++ rest)).state = g.state) := by
  have tuneFrame : g.tags.2.1.frame methodConnectionTuneOk g.tuneOk ∈ g.frames :=
    List.mem_cons_of_mem _ List.mem_cons_self
  let last := (g.tags.2.2.frame methodConnectionOpen g.openVhost).encode ++ rest
  let tune := (g.tags.2.1.frame methodConnectionTuneOk g.tuneOk).encode ++ last
  let start := (g.tags.1.frame methodConnectionStartOk g.startOk).encode ++ tune
  have startRead : readConnectionMethod methodConnectionStartOk start = some (g.startOk, tune) :=
    readConnectionMethod_frame (by decide) g.tags.1 (fits _ List.mem_cons_self) tune
  have tuneRead : readConnectionMethod methodConnectionTuneOk tune = some (g.tuneOk, last) :=
    readConnectionMethod_frame (by decide) g.tags.2.1 (fits _ tuneFrame) last
  have behind : (protocolHeader ++ start).drop 8 = start := List.drop_left' rfl
  have layout : g.bytes ++ rest = protocolHeader ++ start := by
    simp only [Greeting.bytes, Greeting.frames, RecordScan.encodeAll, List.flatMap_cons,
      List.flatMap_nil, List.append_nil, List.append_assoc]
    rfl
  have long : ¬ (protocolHeader ++ start).length < 8 := by
    rw [List.length_append, Nat.not_lt]
    exact Nat.le_add_right 8 _
  have header : ¬ (protocolHeader ++ start).take 8 ≠ protocolHeader :=
    not_not.mpr (List.take_left' rfl)
  rw [layout, performHandshake, if_neg long, if_neg header, behind, logIn, startRead]
  dsimp only
  rw [parseStartOkCredentials_greeting]
  dsimp only
  cases logged : atStartOk.backend.authenticate b cfg g.username g.password loopback with
  | error reason =>
    refine ⟨?_, fun welcome => ?_⟩
    · rintro ⟨rest', opened⟩
      exact (closeHandshake_closed _ _ _ _ _ _ opened).elim
    · exact absurd (logged.symm.trans welcome.1) (fun same => by cases same)
  | ok passed =>
    dsimp only
    rw [tuneConnection, tuneRead]
    dsimp only
    rw [parseTuneOk_greeting]
    dsimp only
    let tuned : Negotiated :=
      ⟨g.username, true, g.negotiated.1, g.negotiated.2, g.heartbeat, Negotiated.new.vhost⟩
    let sent := [connectionFrame methodConnectionStart buildConnectionStart,
      connectionFrame methodConnectionTune
        (buildConnectionTune defaultChannelMax defaultFrameMax defaultHeartbeat)]
    have same : last = (g.tags.2.2.frame methodConnectionOpen g.openVhost).encode ++ rest := rfl
    obtain ⟨only, opens⟩ := @openVhost_greeting atOpen g fits tuned sent rest last same
    exact ⟨fun opened => ⟨logged, only opened⟩, fun welcome => opens welcome.2⟩

/-- What the handshake comes to, by what is known when the credentials come and what is permitted
    when a vhost is asked for. -/
structure Guarded (b : Bcrypt) (cfg : DefaultUsers) (loopback : Bool) (vhosts : List String)
    (known permitted : Registry) (handshake : Bytes → Handshake) : Prop where
  opens : ∀ g : Greeting, g.Fits → ∀ rest,
    (∃ rest', (handshake (g.bytes ++ rest)).outcome = .opened rest') ↔
      (∃ account, known.users g.username = some account ∧ b.alike account.1 g.password = true ∧
        (g.username = cfg.user → loopback = true)) ∧
      g.vhost ∈ vhosts ∧ (permitted.permissions (g.username, g.vhost)).isSome = true
  agrees : ∀ g : Greeting, g.Fits → ∀ rest rest',
    (handshake (g.bytes ++ rest)).outcome = .opened rest' →
      rest' = rest ∧ (handshake (g.bytes ++ rest)).state = g.state
  registered : ∀ bs, (handshake bs).state.authenticated = true → ∃ account,
    known.users (handshake bs).state.username = some account ∧
      ((handshake bs).state.username = cfg.user → loopback = true)
  opened : ∀ bs rest, (handshake bs).outcome = .opened rest →
    (handshake bs).state.authenticated = true ∧
      ((0 < (handshake bs).state.channelMax ∧
          (handshake bs).state.channelMax ≤ defaultChannelMax) ∧
        (0 < (handshake bs).state.frameMax ∧
          (handshake bs).state.frameMax ≤ defaultFrameMax)) ∧
      (handshake bs).state.vhost ∈ vhosts ∧ (permitted.permissions
        ((handshake bs).state.username, (handshake bs).state.vhost)).isSome = true

theorem performHandshake_guarded {known permitted : Registry}
    (first : atStartOk.backend.Obeys b cfg known) (second : atOpen.backend.Obeys b cfg permitted) :
    Guarded b cfg loopback atOpen.vhosts known permitted
      (performHandshake b cfg loopback atStartOk atOpen) := by
  have welcome (g : Greeting) : g.Welcome b cfg loopback atStartOk atOpen ↔
      (∃ account, known.users g.username = some account ∧ b.alike account.1 g.password = true ∧
        (g.username = cfg.user → loopback = true)) ∧
      g.vhost ∈ atOpen.vhosts ∧
        (permitted.permissions (g.username, g.vhost)).isSome = true := by
    rw [Greeting.Welcome, first.login, second.vhosts]
  refine ⟨fun g fits rest => ?_, fun g fits rest rest' opened => ?_, fun bs authenticated => ?_,
    fun bs rest opened => ?_⟩
  · obtain ⟨only, opens⟩ :=
      @performHandshake_greeting b cfg loopback atStartOk atOpen g fits rest
    exact ⟨fun opened => (welcome g).mp (only opened),
      fun allowed => ⟨rest, (opens ((welcome g).mpr allowed)).1⟩⟩
  · obtain ⟨only, opens⟩ :=
      @performHandshake_greeting b cfg loopback atStartOk atOpen g fits rest
    obtain ⟨behind, state⟩ := opens (only ⟨rest', opened⟩)
    exact ⟨HandshakeEnd.opened.inj (opened.symm.trans behind), state⟩
  · rcases performHandshake_loggedIn bs with ⟨fresh, -⟩ | ⟨username, password, accepted, loggedIn⟩
    · rw [fresh] at authenticated
      exact absurd authenticated Bool.false_ne_true
    · obtain ⟨account, registered, -, near⟩ := (first.login ..).mp accepted
      rw [loggedIn.loggedIn.1]
      exact ⟨account, registered, near⟩
  · rcases performHandshake_loggedIn bs with ⟨-, closed⟩ | ⟨username, password, -, loggedIn⟩
    · exact (closed rest opened).elim
    · obtain ⟨limits, found, access⟩ := loggedIn.opened rest opened
      refine ⟨loggedIn.loggedIn.2, limits, found, ?_⟩
      rw [loggedIn.loggedIn.1, ← second.vhosts]
      exact access

end

/-- A connection is opened for a client exactly when it was registered as its credentials came and
    was permitted as it asked for the vhost, whatever changed in between; then its limits are
    agreed on and nothing that it sent behind is lost. No other bytes log anyone in who was not
    registered, or open a vhost that was not permitted. -/
theorem handshake_follows_requests (b : Bcrypt) (cfg : DefaultUsers) (t : StoreText)
    (es later : List (UserEvent t)) (unread : TornUnreadable t (es ++ later)) (loopback : Bool)
    (started vhosts : List String) :
    Guarded b cfg loopback vhosts (.told cfg (requestsAfter es).memory)
      (.told cfg (requestsAfter (es ++ later)).memory)
      (performHandshake b cfg loopback ⟨(UserBackend.after b cfg t es).memory, started⟩
        ⟨(UserBackend.after b cfg t (es ++ later)).memory, vhosts⟩) := by
  have early : TornUnreadable t es := fun e member => unread e (List.mem_append_left _ member)
  have first : (UserBackend.after b cfg t es).memory.Obeys b cfg
      (.told cfg (requestsAfter es).memory) := (follows_requests early).memory.obeys
  have second : (UserBackend.after b cfg t (es ++ later)).memory.Obeys b cfg
      (.told cfg (requestsAfter (es ++ later)).memory) := (follows_requests unread).memory.obeys
  exact @performHandshake_guarded b cfg loopback ⟨_, started⟩ ⟨_, vhosts⟩ _ _ first second

def guestResponse : Bytes := [] ++ 0 :: (strBytes "guest" ++ 0 :: strBytes "guest")

theorem guest_carried : Sasl "guest" "guest" "PLAIN" guestResponse :=
  .plain [] List.not_mem_nil (by decide +kernel) (by decide +kernel)

theorem guest_writable : FieldTable.Writable [] := ⟨by rw [WritableEntries]; trivial, by decide⟩

theorem plain_short : (strBytes "PLAIN").length ≤ 255 := by decide +kernel

theorem guestResponse_short : guestResponse.length < 4294967296 := by decide +kernel

theorem locale_short : (strBytes "en_US").length ≤ 255 := by decide +kernel

theorem defaultVhost_short : (strBytes "/").length ≤ 255 := by decide +kernel

def guestGreeting : Greeting where
  clientProps := []
  mechanism := "PLAIN"
  response := guestResponse
  username := "guest"
  password := "guest"
  locale := "en_US"
  channelMax := 65535
  frameMax := 0
  heartbeat := 10
  vhost := "/"
  behind := ([], [], [0, 0])
  tags := ((1, 0), (1, 0), (1, 0))
  props_writable := guest_writable
  mechanism_short := plain_short
  response_short := guestResponse_short
  carried := guest_carried
  locale_short := locale_short
  vhost_short := defaultVhost_short

theorem handshake_follows_requests_guest :
    let late : List (UserEvent plainText) := [.change (.deleteUser "guest", 5)]
    ∃ rest, (performHandshake plainBcrypt guestAndAdmin true
      ⟨(UserBackend.after plainBcrypt guestAndAdmin plainText tornRun).memory, []⟩
      ⟨(UserBackend.after plainBcrypt guestAndAdmin plainText (tornRun ++ late)).memory, ["/"]⟩
      (guestGreeting.bytes ++ [7])).outcome = .opened rest := by
  intro late
  have unread : TornUnreadable plainText (tornRun ++ late) := by
    intro e member
    rcases List.mem_append.mp member with old | new
    · exact tornRun_unreadable e old
    · rw [List.mem_singleton.mp new]
      exact fun left none => absurd none (Option.not_mem_none left)
  have fits : guestGreeting.Fits := by
    change ∀ frame ∈ guestGreeting.frames, frame.payload.length < 4294967296
    decide +kernel
  refine ((handshake_follows_requests plainBcrypt guestAndAdmin plainText tornRun late unread true
    [] ["/"]).opens guestGreeting fits [7]).mpr ⟨⟨("guest", [.administrator]), rfl, rfl, ?_⟩, ?_⟩
  · exact fun _ => rfl
  · exact ⟨List.mem_singleton.mpr rfl, rfl⟩

end RocketmqBroker
