import RocketmqBroker.Durability.References
import RocketmqBroker.Protocol.ContentFrames

/-!
From a publish to the client that receives the message. A queue holds the message as it was
published, in memory or in the log. A delivery sends all of it, with its properties
decoded and encoded again; the answer to Basic.Get sends it without its properties.
-/
namespace RocketmqBroker
open BigEndian ByteReader

/-- What came in a method frame and a content header. -/
structure PublishArgs.FromWire (args : PublishArgs) : Prop where
  method : ∃ arguments immediate,
    parsePublishArgs arguments = (args.exchange, args.routingKey, args.mandatory, immediate)
  header : ∃ payload header, payload.length < 256 ^ 4 ∧
    decodeContentHeader payload = some header ∧ header.properties = args.properties

structure PublishArgs.Carried (args : PublishArgs) (m : Message) : Prop where
  headers : m.headers = args.properties.encode
  body : m.body = args.body
  exchange : m.exchange = args.exchange
  routingKey : m.routingKey = args.routingKey

def PublishArgs.received (args : PublishArgs) : Received :=
  ⟨args.exchange, args.routingKey, args.properties, args.body⟩

section
variable {args : PublishArgs} {m : Message} {channel : UInt16} {consumerTag : String}

theorem shortstrOrDefault_short (bs : Bytes) :
    (strBytes (shortstrOrDefault bs).1).length ≤ 255 := by
  unfold shortstrOrDefault
  split
  · rename_i data rest found
    have less := readPrefixed_lt found
    cases text : fromUtf8 data with
    | none => exact Nat.zero_le _
    | some s =>
      rw [Option.getD_some, strBytes_fromUtf8 text]
      omega
  · exact Nat.zero_le _

theorem PublishArgs.FromWire.short (wire : args.FromWire) :
    (strBytes args.exchange).length ≤ 255 ∧ (strBytes args.routingKey).length ≤ 255 := by
  obtain ⟨arguments, immediate, parsed⟩ := wire.method
  obtain ⟨exchange, rest⟩ := Prod.mk.inj parsed
  rw [← exchange, ← (Prod.mk.inj rest).1]
  exact ⟨shortstrOrDefault_short _, shortstrOrDefault_short _⟩

theorem PublishArgs.FromWire.writable (wire : args.FromWire) : args.properties.Writable ∧
    args.properties.write.1.length + 12 < 256 ^ 4 := by
  obtain ⟨payload, header, fits, decoded, same⟩ := wire.header
  unfold decodeContentHeader at decoded
  split at decoded
  · cases decoded
  · rename_i enough
    obtain ⟨⟨p, rest⟩, read, built⟩ := Option.map_eq_some_iff.mp decoded
    obtain ⟨writable, length⟩ := BasicProperties.decode_writable read
    rw [← same, ← built]
    rw [List.length_drop] at length
    exact ⟨writable, by dsimp only; omega⟩

theorem PublishArgs.Carried.properties (carried : args.Carried m) (wire : args.FromWire) :
    m.properties = args.properties := by
  have decoded := BasicProperties.decode_write wire.writable.1 []
  rw [List.append_nil] at decoded
  have some_left : args.properties.encode ≠ [] := by
    rw [BasicProperties.encode, BasicProperties.write_of_writable wire.writable.1]
    exact List.append_ne_nil_of_left_ne_nil (List.cons_ne_nil _ _) _
  unfold Message.properties
  rw [carried.headers, if_neg (by simpa using some_left), BasicProperties.encode, decoded]
  rfl

/-- What a publish pushes into a queue is what it has sent, in memory or in the log. -/
theorem pushed_carried {env : Env} {s : BrokerState} {queue : String} {now : Instant}
    {qm : QueueMessage} (backed : Backed env s) (fitting : Fitting s (.enqueue queue args.ctx now))
    (pushed : pushedBy env s queue args.ctx now = some qm) :
    ∃ m, qm.resolve env.crc32 (exec env s (.enqueue queue args.ctx now)).wal = .ok m ∧
      args.Carried m := by
  cases qm with
  | full m =>
    refine ⟨m, rfl, ?_⟩
    obtain ⟨q, -, built⟩ := Option.map_eq_some_iff.mp pushed
    unfold buildQueueMessage at built
    split at built
    · cases built
    · obtain rfl := QueueMessage.full.inj built
      exact ⟨rfl, rfl, rfl, rfl⟩
  | ref r =>
    have stored := stored_pushed backed fitting pushed
    have resolved := stored_resolves (backed_exec backed fitting).1 stored
    refine ⟨_, resolved, ?_⟩
    obtain ⟨q, -, built⟩ := Option.map_eq_some_iff.mp pushed
    unfold buildQueueMessage at built
    split at built
    · obtain rfl := QueueMessage.ref.inj built
      exact ⟨rfl, rfl, rfl, rfl⟩
    · cases built

theorem readRoute_write {exchange routingKey : String}
    (exchange_ok : (strBytes exchange).length ≤ 255)
    (key_ok : (strBytes routingKey).length ≤ 255) (rest : Bytes) :
    readRoute ((writeShortstr exchange).1 ++ ((writeShortstr routingKey).1 ++ rest)) =
      some (exchange, routingKey) := by
  refine (BasicProperties.bind_read (readShortstr_write exchange_ok _)).trans ?_
  exact BasicProperties.bind_read (readShortstr_write key_ok _)

theorem buildDeliverArgs_ok {tag : UInt64} {redelivered : Bool} {exchange routingKey : String}
    (tag_ok : (strBytes consumerTag).length ≤ 255) (exchange_ok : (strBytes exchange).length ≤ 255)
    (key_ok : (strBytes routingKey).length ≤ 255) :
    buildDeliverArgs consumerTag tag redelivered exchange routingKey =
      ((writeShortstr consumerTag).1 ++ ((toBeBytes 8 tag.toNat ++ [octetOf redelivered]) ++
        ((writeShortstr exchange).1 ++ (writeShortstr routingKey).1)), true) := by
  unfold buildDeliverArgs
  rw [writeShortstr_ok tag_ok, writeShortstr_ok exchange_ok, writeShortstr_ok key_ok,
    andThen_ok rfl, andThen_ok rfl, andThen_ok rfl]
  simp only [List.append_assoc]

theorem buildGetOkArgs_ok {messageCount : Nat} (exchange_ok : (strBytes m.exchange).length ≤ 255)
    (key_ok : (strBytes m.routingKey).length ≤ 255) : buildGetOkArgs messageCount m =
      ((toBeBytes 8 m.id.toNat ++ [octetOf m.redelivered]) ++ ((writeShortstr m.exchange).1 ++
        ((writeShortstr m.routingKey).1 ++ toBeBytes 4 messageCount)), true) := by
  unfold buildGetOkArgs
  rw [writeShortstr_ok exchange_ok, writeShortstr_ok key_ok, andThen_ok rfl, andThen_ok rfl,
    andThen_ok rfl]
  simp only [List.append_assoc]

theorem writeShortstr_length {s : String} (short : (strBytes s).length ≤ 255) :
    (writeShortstr s).1.length ≤ 256 := by
  rw [writeShortstr_ok short]
  simp only [prefixed, List.length_append, toBeBytes_length]
  omega

theorem delivery_received (wire : args.FromWire) (carried : args.Carried m)
    (registered : (strBytes consumerTag).length ≤ 255) :
    (encodeDeliveryFrames channel consumerTag m).bind (readContent readDeliverArgs ∘ onWire) =
        some args.received ↔ args.body.length < 256 ^ 4 := by
  obtain ⟨exchange_ok, key_ok⟩ := wire.short
  obtain ⟨writable, fits⟩ := wire.writable
  have built := @buildDeliverArgs_ok consumerTag m.id m.redelivered _ _ registered exchange_ok
    key_ok
  have reads : readDeliverArgs (buildDeliverArgs consumerTag m.id m.redelivered args.exchange
      args.routingKey).1 = some (args.exchange, args.routingKey) := by
    rw [built]
    refine (BasicProperties.bind_read (readShortstr_write registered _)).trans ?_
    refine (BasicProperties.bind_read (readSlice_append (by simp) _)).trans ?_
    have route := readRoute_write exchange_ok key_ok []
    rw [List.append_nil] at route
    exact route
  have length : (buildDeliverArgs consumerTag m.id m.redelivered args.exchange
      args.routingKey).1.length + 4 < 256 ^ 4 := by
    have l1 := writeShortstr_length registered
    have l2 := writeShortstr_length exchange_ok
    have l3 := writeShortstr_length key_ok
    rw [built]
    simp only [List.length_append, toBeBytes_length, List.length_singleton]
    omega
  obtain ⟨frames, content⟩ := contentFrames_writable writable channel args.body
  have sent : encodeDeliveryFrames channel consumerTag m = some (methodFrame channel classBasic
      methodBasicDeliver (buildDeliverArgs consumerTag m.id m.redelivered args.exchange
        args.routingKey).1 :: frames) := by
    unfold encodeDeliveryFrames
    rw [carried.properties wire, carried.body, carried.exchange, carried.routingKey,
      Written.unwrap_ok (by rw [built]), content]
    rfl
  rw [sent, Option.bind_some, Function.comp_apply, PublishArgs.received,
    readContent_frames (by decide) reads length writable fits content]
  exact and_iff_right rfl

theorem getOk_received (wire : args.FromWire) (carried : args.Carried m) (messageCount : Nat) :
    (sendGetOk channel messageCount m).bind (readContent readGetOkArgs ∘ onWire) =
        some args.received ↔ args.properties = .default ∧ args.body.length < 256 ^ 4 := by
  obtain ⟨exchange_ok, key_ok⟩ := wire.short
  rw [← carried.exchange] at exchange_ok
  rw [← carried.routingKey] at key_ok
  have built := @buildGetOkArgs_ok m messageCount exchange_ok key_ok
  have reads : readGetOkArgs (buildGetOkArgs messageCount m).1 =
      some (m.exchange, m.routingKey) := by
    rw [built]
    refine (BasicProperties.bind_read (readSlice_append (by simp) _)).trans ?_
    exact readRoute_write exchange_ok key_ok _
  have length : (buildGetOkArgs messageCount m).1.length + 4 < 256 ^ 4 := by
    have l1 := writeShortstr_length exchange_ok
    have l2 := writeShortstr_length key_ok
    rw [built]
    simp only [List.length_append, toBeBytes_length, List.length_singleton]
    omega
  have writable := BasicProperties.writable_default
  obtain ⟨frames, content⟩ := contentFrames_writable writable channel m.body
  have sent : sendGetOk channel messageCount m = some (methodFrame channel classBasic
      methodBasicGetOk (buildGetOkArgs messageCount m).1 :: frames) := by
    unfold sendGetOk
    rw [Written.unwrap_ok (by rw [built]), content]
    rfl
  rw [sent, Option.bind_some, Function.comp_apply, PublishArgs.received, ← carried.exchange,
    ← carried.routingKey, ← carried.body,
    readContent_frames (by decide) reads length writable (by decide) content]
  exact and_congr_left' eq_comm

/-- Whatever comes in a publish is what its queues hold. A client receives it from a delivery
    exactly if the body fits into one frame; and from Basic.Get too exactly if, besides, there
    are no properties. -/
theorem received_as_published_iff (args : PublishArgs) (wire : args.FromWire) :
    (∀ env s queue now qm, Backed env s → Fitting s (.enqueue queue args.ctx now) →
      pushedBy env s queue args.ctx now = some qm →
      ∃ m, qm.resolve env.crc32 (exec env s (.enqueue queue args.ctx now)).wal = .ok m ∧
        args.Carried m) ∧
    ∀ m channel consumerTag messageCount, args.Carried m →
      (strBytes consumerTag).length ≤ 255 →
      ((encodeDeliveryFrames channel consumerTag m).bind (readContent readDeliverArgs ∘ onWire) =
        some args.received ↔ args.body.length < 256 ^ 4) ∧
      ((encodeDeliveryFrames channel consumerTag m).bind (readContent readDeliverArgs ∘ onWire) =
          some args.received ∧
        (sendGetOk channel messageCount m).bind (readContent readGetOkArgs ∘ onWire) =
          some args.received ↔ args.properties = .default ∧ args.body.length < 256 ^ 4) := by
  refine ⟨fun env s queue now qm backed fitting pushed => pushed_carried backed fitting pushed, ?_⟩
  intro m channel consumerTag messageCount carried registered
  have deliver := @delivery_received args m channel consumerTag wire carried registered
  have get := @getOk_received args m channel wire carried messageCount
  refine ⟨deliver, ?_⟩
  rw [deliver, get]
  exact and_iff_right_of_imp And.right

end

/-- A message of type text for the queue q. -/
def textArgs : PublishArgs :=
  ⟨"", "q", false, { BasicProperties.default with contentType := some "text" }, [7]⟩

theorem textArgs_fromWire : textArgs.FromWire := by
  have class_fit : classBasic < 256 ^ 2 := by decide
  have writable : textArgs.properties.Writable := by
    refine ⟨?_, nofun⟩
    decide +kernel
  refine ⟨⟨[0, 0, 0, 1, 113, 0], false, by decide +kernel⟩, _, _, ?_,
    decodeContentHeader_write class_fit writable 1, rfl⟩
  decide +kernel

def textMessage : Message :=
  .newRouted 1 textArgs.properties.encode textArgs.body textArgs.exchange textArgs.routingKey

theorem textMessage_received : (encodeDeliveryFrames 1 "ctag" textMessage).bind
    (readContent readDeliverArgs ∘ onWire) = some textArgs.received := by
  have both := (received_as_published_iff textArgs textArgs_fromWire).2 textMessage 1 "ctag" 0
    ⟨rfl, rfl, rfl, rfl⟩ (by decide +kernel)
  exact both.1.mpr (by decide)

/-- The answer to Basic.Get has no properties. -/
theorem get_loses_properties : textArgs.FromWire ∧ textArgs.Carried textMessage ∧
    (sendGetOk 1 0 textMessage).bind (readContent readGetOkArgs ∘ onWire) ≠
      some textArgs.received := by
  have carried : textArgs.Carried textMessage := ⟨rfl, rfl, rfl, rfl⟩
  refine ⟨textArgs_fromWire, carried, ?_⟩
  intro received
  have none := ((getOk_received textArgs_fromWire carried 0).mp received).1
  cases congrArg BasicProperties.contentType none

end RocketmqBroker
