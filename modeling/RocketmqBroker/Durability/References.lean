import RocketmqBroker.Durability.Arrivals
import RocketmqBroker.Storage.WalRoundTrip

/-!
References into the log. A persistent message waits in its queue as the position
of its Enqueue entry. Appends leave every position alone; a compaction keeps it
only if nothing in front of it goes.
-/
namespace RocketmqBroker

/-- Where an append to a log with these entries goes. -/
def place (env : Env) (es : List WalEntry) (e : WalEntry) : Nat × Nat × Nat :=
  ((walOf env.crc32 env.maxSegmentSize es).append env.crc32 e).2

def placeAt (env : Env) (es : List WalEntry) (n : Nat) : Option (Nat × Nat × Nat) :=
  es[n]?.map (place env (es.take n))

def MessageRef.place (r : MessageRef) : Nat × Nat × Nat := (r.segmentId, r.offset, r.length)

def QueueMessage.ref? : QueueMessage → Option MessageRef
  | ref r => some r
  | full _ => none

def readyRefs (s : BrokerState) : List MessageRef :=
  s.queues.keys.flatMap fun name =>
    match s.queues.get? name with
    | none => []
    | some q => q.messages.ready.filterMap QueueMessage.ref?

/-- No entry up to the referenced one is dropped by compaction. -/
def Steady (env : Env) (s : BrokerState) (r : MessageRef) : Prop :=
  ∀ n < (entries env s).length, placeAt env (entries env s) n = some r.place →
    ∀ e ∈ (entries env s).take (n + 1), isAckedEntry (ackedIds (entries env s)) e = false

def Effect.KeepsPlaces (env : Env) (s : BrokerState) : Effect → Prop
  | compact => compactionStops env.walCompactThreshold (entries env s) = true ∨
      ∀ r ∈ readyRefs s, Steady env s r
  | _ => True

instance (env : Env) (s : BrokerState) (r : MessageRef) : Decidable (Steady env s r) :=
  inferInstanceAs (Decidable (∀ n < _, _))

instance (env : Env) (s : BrokerState) (e : Effect) : Decidable (e.KeepsPlaces env s) := by
  apply Effect.casesOn (motive := fun e => Decidable (e.KeepsPlaces env s)) e <;> intros <;>
    dsimp only [Effect.KeepsPlaces] <;> infer_instance

def Anchored (env : Env) (s : BrokerState) (e : Effect) : Prop :=
  Fitting s e ∧ e.KeepsPlaces env s

instance (env : Env) (s : BrokerState) (e : Effect) : Decidable (Anchored env s e) :=
  inferInstanceAs (Decidable (_ ∧ _))

section
variable {env : Env} {s : BrokerState} {name : String} {r : MessageRef} {q q' : QueueState}

def Kept (env : Env) (s : BrokerState) (e : Effect) (name : String) (r : MessageRef) : Prop :=
  (∃ q, s.queues.get? name = some q ∧ .ref r ∈ q.messages.contents) ∨
    ∃ ctx now, e = .enqueue name ctx now ∧ pushedBy env s name ctx now = some (.ref r)

theorem kept_exec {e : Effect} (goesOn : e.restarts = false)
    (found : (exec env s e).queues.get? name = some q')
    (member : .ref r ∈ q'.messages.contents) : Kept env s e name r := by
  refine (arrives_exec found member).imp_right fun adds => ?_
  -- the other steps add messages in full
  cases adds with
  | enqueue pushed => exact ⟨_, _, rfl, pushed⟩
  | restored present inside => contradiction

theorem no_ref_restart {now : Instant} {auth : AuthBackend} {cluster : Option ClusterCoordinator}
    (found : (restart env now s.wal.dir auth cluster).queues.get? name = some q) :
    .ref r ∉ q.messages.contents := by
  intro member
  obtain ⟨_, _, _, _, _, _, same⟩ := mem_restart found member
  contradiction

def PublishedAs (env : Env) (start : BrokerState) (past : List Effect) (name : String)
    (r : MessageRef) (ctx : EnqueueCtx) : Prop :=
  ∃ before now after, past = before ++ .enqueue name ctx now :: after ∧
    (∀ e ∈ after, e.restarts = false) ∧
    pushedBy env (Run.run (exec env) start before) name ctx now = some (.ref r)

def Stored (env : Env) (s : BrokerState) (name : String) (r : MessageRef) (ctx : EnqueueCtx) :
    Prop :=
  ShortFields name ctx.exchange ctx.routingKey ∧ ∃ before after,
    entries env s = before ++ enqueueEntry name r.id ctx.exchange ctx.routingKey ctx.propBytes
      ctx.bodyBytes :: after ∧
    place env before (enqueueEntry name r.id ctx.exchange ctx.routingKey ctx.propBytes
      ctx.bodyBytes) = r.place

theorem publishedAs_later {start : BrokerState} {past : List Effect} {ctx : EnqueueCtx}
    (h : PublishedAs env start past name r ctx) {e : Effect} (goesOn : e.restarts = false) :
    PublishedAs env start (past ++ [e]) name r ctx := by
  obtain ⟨before, now, after, rfl, running, pushed⟩ := h
  refine ⟨before, now, after ++ [e], by simp, ?_, pushed⟩
  intro x member
  rcases List.mem_append.mp member with old | new
  · exact running x old
  · rw [List.mem_singleton.mp new]
    exact goesOn

theorem stored_append {ctx : EnqueueCtx} (h : Stored env s name r ctx) {t : BrokerState}
    {more : List WalEntry} (grown : entries env t = entries env s ++ more) :
    Stored env t name r ctx := by
  obtain ⟨short, before, after, eq, here⟩ := h
  exact ⟨short, before, after ++ more, by rw [grown, eq, List.append_assoc, List.cons_append], here⟩

theorem mem_readyRefs (found : s.queues.get? name = some q)
    (member : .ref r ∈ q.messages.contents) : r ∈ readyRefs s := by
  rw [readyRefs, List.mem_flatMap]
  refine ⟨name, FinMap.mem_keys_iff.mpr ⟨q, found⟩, ?_⟩
  rw [PriorityQueue.contents_eq_ready, Multiset.mem_coe] at member
  simp only [found, List.mem_filterMap]
  exact ⟨.ref r, member, rfl⟩

theorem stored_kept {ctx : EnqueueCtx} (h : Stored env s name r ctx) (steady : Steady env s r)
    {t : BrokerState} (compacted : entries env t = kept (entries env s)) :
    Stored env t name r ctx := by
  obtain ⟨short, before, after, eq, here⟩ := h
  have unacked := steady before.length (by rw [eq]; simp) (by
    rw [eq, placeAt, List.take_left, ← here]
    simp)
  have upTo : (entries env s).take (before.length + 1) = before ++ [enqueueEntry name r.id
      ctx.exchange ctx.routingKey ctx.propBytes ctx.bodyBytes] := by
    rw [eq]
    simp [List.take_append]
  rw [upTo] at unacked
  refine ⟨short, before,
    after.filter fun e => !isAckedEntry (ackedIds (entries env s)) e, ?_, here⟩
  have front : (before ++ [enqueueEntry name r.id ctx.exchange ctx.routingKey ctx.propBytes
      ctx.bodyBytes]).filter (fun e => !isAckedEntry (ackedIds (entries env s)) e) =
      before ++ [enqueueEntry name r.id ctx.exchange ctx.routingKey ctx.propBytes
        ctx.bodyBytes] := by
    rw [List.filter_eq_self]
    intro e member
    rw [unacked e member]
    rfl
  rw [compacted, kept]
  have regroup := List.append_cons before (enqueueEntry name r.id ctx.exchange ctx.routingKey
    ctx.propBytes ctx.bodyBytes) after
  generalize ackedIds (entries env s) = acked at front ⊢
  rw [eq, regroup, List.filter_append, front, List.append_assoc, List.singleton_append]

theorem stored_pushed {ctx : EnqueueCtx} {now : Instant} (backed : Backed env s)
    (fitting : Fitting s (.enqueue name ctx now))
    (pushed : pushedBy env s name ctx now = some (.ref r)) :
    Stored env (exec env s (.enqueue name ctx now)) name r ctx := by
  obtain ⟨q, found, built⟩ := Option.map_eq_some_iff.mp pushed
  rw [persistIfDurable] at built
  split at built
  · contradiction
  · rename_i logs
    have logged : Effect.logged s (.enqueue name ctx now) = [.enqueue name s.nextMsgId
        ctx.exchange ctx.routingKey ctx.propBytes ctx.bodyBytes] := by
      simp only [Effect.logged, found]
      rw [if_neg logs]
    have wellFormed := fitting _ (by rw [logged]; exact List.mem_singleton_self _)
    have grown := (backed_exec backed fitting).2
    rw [Effect.entriesAfter, logged] at grown
    · cases built
      obtain ⟨shortQueue, shortExchange, shortKey⟩ := wellFormed.short
      refine ⟨⟨shortQueue, shortExchange, shortKey⟩, entries env s, [], grown, ?_⟩
      rw [place, ← backed.wal]
      rfl
    · intro contra
      contradiction

structure Referenced (env : Env) (start : BrokerState) (past : List Effect) (s : BrokerState) :
    Prop where
  here : s = Run.run (exec env) start past
  backed : Backed env s
  refs : ∀ name q r, s.queues.get? name = some q → .ref r ∈ q.messages.contents →
    ∃ ctx, PublishedAs env start past name r ctx ∧ Stored env s name r ctx

theorem referenced_restart {start : BrokerState} {past : List Effect}
    (h : Referenced env start past s) (now : Instant) (auth : AuthBackend)
    (cluster : Option ClusterCoordinator) :
    Referenced env start (past ++ [.restart now auth cluster])
      (exec env s (.restart now auth cluster)) := by
  have fitting : Fitting s (.restart now auth cluster) := by simp [Fitting, Effect.logged]
  refine ⟨by rw [h.here, Run.run_append]; rfl, (backed_exec h.backed fitting).1, ?_⟩
  intro name q r found member
  exact absurd member (no_ref_restart found)

theorem referenced_exec {start : BrokerState} {past : List Effect} {e : Effect}
    (h : Referenced env start past s) (anchored : Anchored env s e) :
    Referenced env start (past ++ [e]) (exec env s e) := by
  cases restarts : e.restarts with
  | true =>
    cases e with
    | restart now auth cluster => exact referenced_restart h now auth cluster
    | _ => contradiction
  | false =>
    have next := backed_exec h.backed anchored.1
    refine ⟨by rw [h.here, Run.run_append]; rfl, next.1, ?_⟩
    intro name q' r found member
    rcases kept_exec restarts found member with ⟨q, present, old⟩ | ⟨ctx, now, rfl, pushed⟩
    · obtain ⟨ctx, published, stored⟩ := h.refs name q r present old
      refine ⟨ctx, publishedAs_later published restarts, ?_⟩
      cases e with
      | compact =>
        rw [Effect.entriesAfter] at next
        split at next
        · exact stored_append stored (next.2.trans (List.append_nil _).symm)
        · rename_i goesThrough
          have steady := anchored.2.resolve_left goesThrough r (mem_readyRefs present old)
          exact stored_kept stored steady next.2
      | _ => exact stored_append stored next.2
    · refine ⟨ctx, ⟨past, now, [], rfl, by simp, ?_⟩, stored_pushed h.backed anchored.1 pushed⟩
      rw [← h.here]
      exact pushed

theorem stored_resolves {ctx : EnqueueCtx} (backed : Backed env s)
    (stored : Stored env s name r ctx) :
    (QueueMessage.ref r).resolve env.crc32 s.wal =
      .ok ⟨r.id, ctx.propBytes, ctx.bodyBytes, r.priority, r.expiration, r.redelivered,
        r.deliveryCount, r.exchange, r.routingKey⟩ := by
  obtain ⟨short, before, after, eq, here⟩ := stored
  have fits := backed.fits
  rw [eq] at fits
  have fitsBefore : ∀ e ∈ before, e.Fits := fun e member => fits e (by simp [member])
  have fitsHere := fits (enqueueEntry name r.id ctx.exchange ctx.routingKey ctx.propBytes
    ctx.bodyBytes) (by simp)
  have payload : s.wal.readMessagePayload env.crc32 r.segmentId r.offset r.length =
      .ok (ctx.propBytes, ctx.bodyBytes) := by
    have segment : (place env before _).1 = r.segmentId := congrArg Prod.fst here
    have offset : (place env before _).2.1 = r.offset := congrArg (fun p => p.2.1) here
    rw [backed.wal, eq, ← segment, ← offset]
    exact walOf_readMessagePayload after fitsBefore fitsHere short r.length
  rw [QueueMessage.resolve, payload]
  rfl

end

/-- Every waiting reference reads back as the headers and body that its publish
    was given. -/
structure ResolvesAsPublished (env : Env) (start : BrokerState) (past : List Effect)
    (s : BrokerState) : Prop where
  refs : ∀ name q r, s.queues.get? name = some q → .ref r ∈ q.messages.ready →
    ∃ ctx, PublishedAs env start past name r ctx ∧
      ∃ m, (QueueMessage.ref r).resolve env.crc32 s.wal = .ok m ∧
        m.headers = ctx.propBytes ∧ m.body = ctx.bodyBytes

/-- Every state reached by a run whose compactions drop no entry in front of a
    waiting one. -/
theorem refs_resolve_as_published (env : Env) (auth : AuthBackend)
    (cluster : Option ClusterCoordinator) (ops : List Op)
    (anchored : Throughout env auth cluster (Anchored env) ops) :
    ResolvesAsPublished env (install env auth cluster) (history env auth cluster ops)
      (reached env auth cluster ops) := by
  have referenced := anchored.invariant (Referenced env (install env auth cluster))
    ⟨rfl, (backed_install env auth cluster).1, fun name q r found => by contradiction⟩
    fun _ _ _ allowed h => referenced_exec h allowed
  constructor
  intro name q r found member
  have inside : .ref r ∈ q.messages.contents := by
    rw [PriorityQueue.contents_eq_ready]
    exact member
  obtain ⟨ctx, published, stored⟩ := referenced.refs name q r found inside
  exact ⟨ctx, published, _, stored_resolves referenced.backed stored, rfl, rfl⟩

/-- The compaction drops an acked message that was logged behind the waiting one. -/
def keptPlaceRun : List Op :=
  session "q" ++ [.queueDeclare 1 ⟨"p", false, true, false, false, false, []⟩ 0,
    publishTo "q" true [1], publishTo "p" true [2], .basicGet 1 "p" false, .basicAck 1 1 2,
    .walCompactTask]

theorem refs_resolve_as_published_compacted :
    let s := reached (plainEnv 64 1) guestOnly none keptPlaceRun
    (entries (plainEnv 64 1) s).length = 3 ∧ (readyRefs s).map MessageRef.id = [1] ∧
      ResolvesAsPublished (plainEnv 64 1) (install (plainEnv 64 1) guestOnly none)
        (history (plainEnv 64 1) guestOnly none keptPlaceRun) s := by
  refine ⟨by decide +kernel, by decide +kernel, ?_⟩
  exact refs_resolve_as_published (plainEnv 64 1) guestOnly none keptPlaceRun (by decide +kernel)

theorem ResolvesAsPublished.readable {env : Env} {start s : BrokerState} {past : List Effect}
    (h : ResolvesAsPublished env start past s) {r : MessageRef} (waits : r ∈ readyRefs s) :
    ∃ m, (QueueMessage.ref r).resolve env.crc32 s.wal = .ok m := by
  obtain ⟨name, _, inside⟩ := List.mem_flatMap.mp waits
  cases found : s.queues.get? name with
  | none =>
    rw [found] at inside
    contradiction
  | some q =>
    rw [found] at inside
    obtain ⟨qm, member, same⟩ := List.mem_filterMap.mp inside
    cases qm with
    | full m => contradiction
    | ref r' =>
      cases same
      obtain ⟨ctx, _, m, read, _⟩ := h.refs name q r found member
      exact ⟨m, read⟩

theorem not_resolvesAsPublished {env : Env} {start s : BrokerState} {past : List Effect}
    (stranded : ∃ r ∈ readyRefs s,
      ((QueueMessage.ref r).resolve env.crc32 s.wal).toOption = none) :
    ¬ ResolvesAsPublished env start past s := by
  intro resolves
  obtain ⟨r, waits, unreadable⟩ := stranded
  obtain ⟨m, read⟩ := resolves.readable waits
  rw [read] at unreadable
  contradiction

def strandingRun : List Op :=
  session "q" ++ [publishTo "q" true [1], publishTo "q" true [2], .basicGet 1 "q" false,
    .basicAck 1 1 1, .walCompactTask]

/-- The acked message in front of the waiting one is dropped, and its position
    leads nowhere. -/
theorem compaction_strands_ref :
    let s := reached (plainEnv 64 1) guestOnly none strandingRun
    (∃ r ∈ readyRefs s,
      ((QueueMessage.ref r).resolve (plainEnv 64 1).crc32 s.wal).toOption = none) ∧
      ¬ ResolvesAsPublished (plainEnv 64 1) (install (plainEnv 64 1) guestOnly none)
        (history (plainEnv 64 1) guestOnly none strandingRun) s := by
  intro s
  have stranded : ∃ r ∈ readyRefs s,
      ((QueueMessage.ref r).resolve (plainEnv 64 1).crc32 s.wal).toOption = none := by
    decide +kernel
  exact ⟨stranded, not_resolvesAsPublished stranded⟩

end RocketmqBroker
