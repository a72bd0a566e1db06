import RocketmqBroker.Publishing.Direct

/-!
The tags that confirms carry on one channel, through any changes of its mode. A publish takes
its tag before it is known whether it will be confirmed, and Confirm.Select starts counting
again. So the confirms count the publishes as long as no confirming publish is made in a
transaction, none is refused with a text that is too long to be sent, and none comes behind a
Confirm.Select that another one was before.
-/
namespace RocketmqBroker
open Run Run.Program

inductive PublisherOp where
  | confirmSelect (noWait : Bool)
  | txSelect
  | txCommit
  | txRollback
  | basicPublish (args : PublishArgs) (now : Instant)

def PublisherOp.op (connId : UInt64) (channel : UInt16) : PublisherOp → Op
  | .confirmSelect noWait => .confirmSelect connId channel noWait
  | .txSelect => .txSelect connId
  | .txCommit => .txCommit connId
  | .txRollback => .txRollback connId
  | .basicPublish args now => .basicPublish connId channel args now

def Frame.confirmTag? : Frame → Option UInt64
  | .basicAck tag => some tag
  | .basicNack tag => some tag
  | _ => none

def BrokerState.confirms (env : Env) (s : BrokerState) (connId : UInt64) (channel : UInt16) :
    PublisherOp → Bool
  | .basicPublish args _ =>
    (s.channel? connId channel).any (·.confirmMode) &&
      checkPermission env s connId (·.write) args.exchange
  | _ => false

def PublisherOp.Answerable (env : Env) (s : BrokerState) : PublisherOp → Prop
  | .basicPublish args _ => args.Answerable env s
  | _ => True

instance (env : Env) (s : BrokerState) : ∀ r : PublisherOp, Decidable (r.Answerable env s)
  | .basicPublish args _ => inferInstanceAs (Decidable (args.Answerable env s))
  | .confirmSelect _ | .txSelect | .txCommit | .txRollback => .isTrue trivial

/-- The broker, the tags of the confirms it has sent on the channel, and the publishes that are
    to be confirmed: all of them, and those since the last Confirm.Select. -/
structure Publisher where
  broker : BrokerState
  confirmed : List UInt64
  published : Nat
  sinceSelect : Nat

namespace Publisher
variable (env : Env) (connId : UInt64) (channel : UInt16)

def start (s : BrokerState) : Publisher := ⟨s, [], 0, 0⟩

def send (p : Publisher) (r : PublisherOp) : Publisher where
  broker := served env p.broker (r.op connId channel)
  confirmed := p.confirmed ++
    (answer env p.broker (r.op connId channel)).filterMap Frame.confirmTag?
  published := if p.broker.confirms env connId channel r then p.published + 1 else p.published
  sinceSelect :=
    match r with
    | .confirmSelect _ => 0
    | _ => if p.broker.confirms env connId channel r then p.sinceSelect + 1 else p.sinceSelect

def Counts (p : Publisher) : Prop :=
  p.confirmed.map UInt64.toNat = List.range' 1 p.published

/-- A publish to be confirmed is sent outside of a transaction and can be answered, there was
    none before the last Confirm.Select, and there are fewer than the tags can count. -/
def InSequence (p : Publisher) (r : PublisherOp) : Prop :=
  p.broker.confirms env connId channel r = true →
    p.broker.inTx connId = false ∧ r.Answerable env p.broker ∧ p.sinceSelect = p.published ∧
      p.published + 1 < 2 ^ 64

def Tracks (p : Publisher) : Prop :=
  p.sinceSelect ≤ p.published ∧ ∀ ch ∈ p.broker.channel? connId channel,
    ch.confirmMode = true → ch.nextDeliveryTag = UInt64.ofNat (p.sinceSelect + 1)

end Publisher

section
variable {env : Env} {s : BrokerState} {connId : UInt64} {channel : UInt16}

theorem counts_append {tags : List UInt64} {n : Nat}
    (before : tags.map UInt64.toNat = List.range' 1 n) (more : List UInt64) :
    (tags ++ more).map UInt64.toNat = List.range' 1 (n + 1) ↔ more.map UInt64.toNat = [n + 1] := by
  rw [List.map_append, before, List.range'_1_concat, List.append_cancel_left_eq, Nat.add_comm]

theorem confirms_handleNoRoute (args : PublishArgs) (tag : Option UInt64) :
    (handleNoRoute args tag).filterMap Frame.confirmTag? = tag.toList := by
  unfold handleNoRoute confirmAck
  cases args.mandatory <;> cases tag <;> rfl

theorem confirms_confirmAck (tag : Option UInt64) :
    (confirmAck tag).filterMap Frame.confirmTag? = tag.toList := by
  cases tag <;> rfl

theorem confirms_routePublish (args : PublishArgs) (now : Instant) (tag : Option UInt64) :
    ((routePublish args now tag : Act env (List Frame)).result s).filterMap Frame.confirmTag? =
      if args.Answerable env s then tag.toList else [] := by
  unfold routePublish
  rw [result_bind, result_look, final_look]
  cases found : s.exchanges.get? args.exchange with
  | none =>
    have answerable : args.Answerable env s := by
      simp [PublishArgs.Answerable, PublishArgs.refusal?, found]
    rw [if_pos answerable]
    exact confirms_confirmAck tag
  | some ex =>
    simp only [PublishArgs.answerable_iff found]
    split
    · rename_i nowhere
      have unrefused : schemaFailure env s (args.targets env ex) args.body = none := by
        rw [List.isEmpty_iff.mp nowhere]
        rfl
      rw [unrefused, if_pos nofun]
      exact confirms_handleNoRoute args tag
    · rw [result_bind, result_look, final_look]
      cases schemaFailure env s (args.targets env ex) args.body with
      | none =>
        rw [if_pos nofun]
        exact confirms_confirmAck tag
      | some failure =>
        simp only [Option.mem_some_iff, forall_eq']
        refine (congrArg _ (nack_behind_close _ _ _ _ tag)).trans ?_
        split
        · cases tag <;> rfl
        · rfl

abbrev LeavesChannel (connId : UInt64) (channel : UInt16) {α : Type} (p : Act env α) : Prop :=
  Leaves (fun s : BrokerState => s.channel? connId channel) p

theorem channel?_modifyConn {f : ConnectionState → ConnectionState}
    (still : ∀ cs, (f cs).channels = cs.channels) (c : UInt64) :
    (s.modifyConn c f).channel? connId channel = s.channel? connId channel := by
  unfold BrokerState.modifyConn BrokerState.channel?
  simp only [FinMap.get?_modify]
  split
  · rename_i same
    subst same
    cases s.connState.get? connId with
    | none => rfl
    | some cs => exact congrArg (FinMap.get? · channel) (still cs)
  · rfl

theorem leavesChannel_withConnState {f : ConnectionState → ConnectionState}
    (still : ∀ cs, (f cs).channels = cs.channels) (c : UInt64) :
    LeavesChannel connId channel (withConnState c f : Act env Unit) := by
  refine leaves_perform fun s => ?_
  rw [exec_books]
  exact channel?_modifyConn still c

theorem leavesChannel_drainTxBuffer (c : UInt64) :
    LeavesChannel connId channel (drainTxBuffer c : Act env (Option (List PendingOp))) := by
  refine (leaves_read _).bind fun found => ?_
  split
  · exact leaves_pure _
  · refine Leaves.bind (leavesChannel_withConnState ?_ c) fun _ => leaves_pure _
    exact fun _ => rfl

theorem leavesChannel_applyTxOp (c : UInt64) (op : PendingOp) :
    LeavesChannel connId channel (applyTxOp c op : Act env Unit) := by
  cases op with
  | publish exchange routingKey headers body => exact leaves_perform fun _ => rfl
  | ack msgId =>
    have taken : LeavesChannel connId channel (takeDelivery msgId : Act env (Option String)) :=
      (leaves_read _).bind fun _ => Leaves.bind (leaves_perform fun _ => rfl) fun _ => leaves_read _
    refine taken.bind fun found => ?_
    split
    · exact leaves_pure _
    · exact Leaves.bind (leaves_perform fun _ => rfl) fun _ => leaves_perform fun _ => rfl

theorem txCommit_channel (c : UInt64) :
    LeavesChannel connId channel (txCommit c : Act env (List Frame)) := by
  refine (leavesChannel_drainTxBuffer c).bind fun drained => ?_
  split
  · exact leaves_pure _
  refine (leaves_read _).bind fun failure => ?_
  split
  · exact leaves_pure _
  · exact (Leaves.forM _ fun op => leavesChannel_applyTxOp c op).bind fun _ => leaves_pure _

theorem txRollback_channel (c : UInt64) :
    LeavesChannel connId channel (txRollback c : Act env (List Frame)) := by
  refine (leavesChannel_drainTxBuffer c).bind fun drained => ?_
  split
  · exact leaves_pure _
  · exact leaves_pure _

theorem txCommit_silent (c : UInt64) :
    ((txCommit c : Act env (List Frame)).result s).filterMap Frame.confirmTag? = [] := by
  unfold txCommit
  rw [result_bind]
  split
  · rfl
  rw [result_bind]
  split
  · refine List.filterMap_eq_nil_iff.mpr fun f member => ?_
    rw [mem_closeFrames member]
    rfl
  · rfl

theorem txRollback_silent (c : UInt64) :
    ((txRollback c : Act env (List Frame)).result s).filterMap Frame.confirmTag? = [] := by
  unfold txRollback
  rw [result_bind]
  split <;> rfl

variable {args : PublishArgs} {now : Instant}

theorem answer_publish :
    (answer env s (.basicPublish connId channel args now)).filterMap Frame.confirmTag? =
      if checkPermission env s connId (·.write) args.exchange && !s.inTx connId &&
          decide (args.Answerable env s) then
        (s.confirmTag? connId channel).toList
      else [] := by
  change ((basicPublish connId channel args now : Act env (List Frame)).result s).filterMap _ = _
  cases permitted : checkPermission env s connId (·.write) args.exchange with
  | false =>
    rw [result, basicPublish_denied now permitted]
    rfl
  | true =>
    rw [(basicPublish_permitted now permitted).1]
    cases s.inTx connId with
    | true => rfl
    | false =>
      obtain ⟨conns, numbered⟩ := s.numbered_connState connId channel
      have same : args.Answerable env (s.numbered connId channel) ↔ args.Answerable env s := by
        rw [numbered]
        rfl
      refine (confirms_routePublish args now _).trans ?_
      simp only [same, Bool.not_false, Bool.and_self, Bool.true_and, decide_eq_true_eq]

theorem channel?_publish :
    (served env s (.basicPublish connId channel args now)).channel? connId channel =
      (s.channel? connId channel).map fun ch =>
        if checkPermission env s connId (·.write) args.exchange && ch.confirmMode then
          { ch with nextDeliveryTag := ch.nextDeliveryTag + 1 }
        else ch := by
  change ((basicPublish connId channel args now : Act env (List Frame)).final s).channel? _ _ = _
  cases permitted : checkPermission env s connId (·.write) args.exchange with
  | false =>
    rw [final, steps, basicPublish_denied now permitted]
    simp only [Bool.false_and, Bool.false_eq_true, if_false, Option.map_id']
    rfl
  | true =>
    have counted : (s.numbered connId channel).channel? connId channel =
        (s.channel? connId channel).map fun ch =>
          if ch.confirmMode then { ch with nextDeliveryTag := ch.nextDeliveryTag + 1 } else ch := by
      unfold BrokerState.numbered BrokerState.confirmTag?
      cases found : s.channel? connId channel with
      | none => exact found
      | some ch =>
        cases confirms : ch.confirmMode with
        | false => simp [found, confirms]
        | true => simp [channel?_modifyChannel, found, confirms]
    simp only [Bool.true_and]
    rw [(basicPublish_permitted now permitted).2, ← counted]
    split
    · unfold BrokerState.buffered
      refine channel?_modifyConn ?_ connId
      exact fun _ => rfl
    · unfold BrokerState.channel?
      rw [connState_routePublish]

theorem confirms_publish
    (confirms : s.confirms env connId channel (.basicPublish args now) = true) :
    checkPermission env s connId (·.write) args.exchange = true ∧
      ∃ ch, s.channel? connId channel = some ch ∧ ch.confirmMode = true := by
  obtain ⟨confirming, permitted⟩ := Bool.and_eq_true_iff.mp confirms
  exact ⟨permitted, (Option.any_eq_true ..).mp confirming⟩

theorem channel?_confirmSelect (noWait : Bool) :
    (served env s (.confirmSelect connId channel noWait)).channel? connId channel =
      (s.channel? connId channel).map fun ch =>
        { ch with confirmMode := true, nextDeliveryTag := 1 } := by
  change ((confirmSelect connId channel noWait : Act env (List Frame)).final s).channel? _ _ = _
  unfold confirmSelect
  rw [final_bind]
  change (exec env s (.books
    { apply := fun s => s.modifyChannel connId channel _ })).channel? _ _ = _
  rw [exec_books]
  exact (channel?_modifyChannel ..).trans (if_pos ⟨rfl, rfl⟩)

theorem answer_silent {r : PublisherOp} (other : s.confirms env connId channel r = false) :
    (answer env s (r.op connId channel)).filterMap Frame.confirmTag? = [] := by
  cases r with
  | txSelect => rfl
  | txCommit => exact txCommit_silent connId
  | txRollback => exact txRollback_silent connId
  | confirmSelect noWait => cases noWait <;> rfl
  | basicPublish args now =>
    refine answer_publish.trans ?_
    split
    · rename_i passes
      have permitted : checkPermission env s connId (·.write) args.exchange = true := by
        rw [Bool.and_eq_true, Bool.and_eq_true] at passes
        exact passes.1.1
      change ((s.channel? connId channel).any (·.confirmMode) &&
        checkPermission env s connId (·.write) args.exchange) = false at other
      rw [permitted, Bool.and_true] at other
      unfold BrokerState.confirmTag?
      cases found : s.channel? connId channel with
      | none => rfl
      | some ch =>
        rw [found, Option.any_some] at other
        rw [Option.bind_some, other]
        rfl
    · rfl

namespace Publisher

/-- What counts the confirms of the channel right is kept by every step. -/
theorem tracks_send {p : Publisher} (tracks : p.Tracks connId channel) (r : PublisherOp) :
    (p.send env connId channel r).Tracks connId channel := by
  obtain ⟨most, counter⟩ := tracks
  have quiet (since : (p.send env connId channel r).sinceSelect = p.sinceSelect)
      (published : (p.send env connId channel r).published = p.published)
      (same : (p.send env connId channel r).broker.channel? connId channel =
        p.broker.channel? connId channel) :
      (p.send env connId channel r).Tracks connId channel := by
    rw [Tracks, same, since, published]
    exact ⟨most, counter⟩
  cases r with
  | txSelect =>
    have leaves : LeavesChannel connId channel (txSelect connId : Act env (List Frame)) := by
      refine Leaves.bind (leavesChannel_withConnState ?_ connId) fun _ => leaves_pure _
      exact fun _ => rfl
    exact quiet rfl rfl (leaves _)
  | txCommit => exact quiet rfl rfl (txCommit_channel connId _)
  | txRollback => exact quiet rfl rfl (txRollback_channel connId _)
  | confirmSelect noWait =>
    refine ⟨Nat.zero_le _, ?_⟩
    intro ch found _
    obtain ⟨_, _, rfl⟩ := Option.map_eq_some_iff.mp
      ((channel?_confirmSelect noWait).symm.trans found)
    rfl
  | basicPublish args now =>
    have channels := @channel?_publish env p.broker connId channel args now
    cases confirms : p.broker.confirms env connId channel (.basicPublish args now) with
    | true =>
      obtain ⟨permitted, ch, found, confirming⟩ := confirms_publish confirms
      have since : (p.send env connId channel (.basicPublish args now)).sinceSelect =
          p.sinceSelect + 1 := if_pos confirms
      have published : (p.send env connId channel (.basicPublish args now)).published =
          p.published + 1 := if_pos confirms
      rw [found, permitted, Option.map_some, Bool.true_and, if_pos confirming] at channels
      rw [Tracks, since, published]
      refine ⟨by omega, ?_⟩
      intro ch' found' _
      obtain rfl := Option.some.inj (channels.symm.trans found')
      rw [counter ch found confirming, UInt64.ofNat_add (p.sinceSelect + 1) 1]
      rfl
    | false =>
      have since : (p.send env connId channel (.basicPublish args now)).sinceSelect =
          p.sinceSelect := if_neg (Bool.eq_false_iff.mp confirms)
      have published : (p.send env connId channel (.basicPublish args now)).published =
          p.published := if_neg (Bool.eq_false_iff.mp confirms)
      refine quiet since published (channels.trans ?_)
      cases found : p.broker.channel? connId channel with
      | none => rfl
      | some ch =>
        have unconfirmed : (checkPermission env p.broker connId (·.write) args.exchange &&
            ch.confirmMode) = false := by
          rw [Bool.and_comm]
          simpa only [BrokerState.confirms, found, Option.any_some] using confirms
        rw [Option.map_some, unconfirmed]
        rfl

/-- Behind a step the confirms count the publishes exactly if the step was in sequence. -/
theorem counts_send {p : Publisher} (tracks : p.Tracks connId channel) (counts : p.Counts)
    (r : PublisherOp) :
    (p.send env connId channel r).Counts ↔ p.InSequence env connId channel r := by
  cases confirms : p.broker.confirms env connId channel r with
  | false =>
    have published : (p.send env connId channel r).published = p.published :=
      if_neg (Bool.eq_false_iff.mp confirms)
    have same : (p.send env connId channel r).confirmed = p.confirmed := by
      change p.confirmed ++ _ = p.confirmed
      rw [answer_silent confirms, List.append_nil]
    rw [Counts, published, same]
    exact iff_of_true counts fun confirming => by rw [confirms] at confirming; cases confirming
  | true =>
    have published : (p.send env connId channel r).published = p.published + 1 :=
      if_pos confirms
    rw [Counts, published]
    refine (counts_append counts _).trans ?_
    cases r with
    | basicPublish args now =>
      obtain ⟨permitted, ch, found, confirming⟩ := confirms_publish confirms
      obtain ⟨most, counter⟩ := tracks
      have tag : p.broker.confirmTag? connId channel = some (.ofNat (p.sinceSelect + 1)) := by
        rw [BrokerState.confirmTag?, found, ← counter ch found confirming]
        exact if_pos confirming
      change ((answer env p.broker (.basicPublish connId channel args now)).filterMap
        Frame.confirmTag?).map _ = _ ↔ _
      rw [answer_publish, permitted, tag, InSequence]
      cases tx : p.broker.inTx connId with
      | true => exact iff_of_false (List.cons_ne_nil _ _ ∘ Eq.symm) fun order =>
          Bool.false_ne_true (order confirms).1.symm
      | false =>
        by_cases answerable : args.Answerable env p.broker
        · simp only [Bool.not_false, Bool.and_true, answerable, decide_true, if_true,
            Option.toList_some, List.map_cons, List.map_nil, List.cons.injEq, and_true,
            UInt64.toNat_ofNat', confirms, forall_const, true_and, PublisherOp.Answerable]
          omega
        · rw [decide_eq_false answerable, Bool.and_false, if_neg Bool.false_ne_true]
          exact iff_of_false (List.cons_ne_nil _ _ ∘ Eq.symm) fun order =>
            answerable (order confirms).2.1
    | _ => cases confirms

end Publisher

/-- On a fresh channel, the confirms sent carry the tags 1, 2, 3, … at every moment, one for
    each publish to be confirmed, exactly if each of these is sent in sequence. -/
theorem confirms_count_iff (env : Env) (s : BrokerState) (connId : UInt64) (channel : UInt16)
    (fresh : s.channel? connId channel = some .new) (rs : List PublisherOp) :
    (∀ before after, rs = before ++ after →
      (run (Publisher.send env connId channel) (.start s) before).Counts) ↔
      Along (Publisher.send env connId channel) (Publisher.InSequence env connId channel)
        (.start s) rs := by
  have start : (Publisher.start s).Tracks connId channel := by
    refine ⟨Nat.le_refl _, ?_⟩
    intro ch found confirming
    obtain rfl := Option.some.inj (fresh.symm.trans found)
    cases confirming
  exact throughout_iff_along (Publisher.Tracks connId channel) rfl start
    (fun _ r _ tracks => Publisher.tracks_send tracks r)
    (fun _ r _ tracks counts => Publisher.counts_send tracks counts r)

end

def oneChannel : BrokerState := reached (plainEnv 64 1) guestOnly none
  [.connect "127.0.0.1:50000" "guest" "/", .channelOpen 1 1]

/-- A message to a queue that does not exist. -/
def confirmedPublish : PublisherOp := .basicPublish ⟨"", "q", false, .default, [7]⟩ 0

/-- Confirm.Select between two publishes makes the second confirm carry the tag 1 again. -/
theorem confirm_tag_repeated : oneChannel.channel? 1 1 = some .new ∧
    ¬ (run (Publisher.send (plainEnv 64 1) 1 1) (.start oneChannel)
      [.confirmSelect false, confirmedPublish, .confirmSelect false, confirmedPublish]).Counts := by
  refine ⟨by decide +kernel, ?_⟩
  unfold Publisher.Counts
  decide +kernel

theorem confirms_count_twice : (run (Publisher.send (plainEnv 64 1) 1 1) (.start oneChannel)
    [.confirmSelect false, confirmedPublish, confirmedPublish]).Counts := by
  refine (confirms_count_iff (plainEnv 64 1) oneChannel 1 1 (by decide +kernel) _).mpr ?_ _ []
    (List.append_nil _).symm
  unfold Publisher.InSequence
  decide +kernel

end RocketmqBroker
