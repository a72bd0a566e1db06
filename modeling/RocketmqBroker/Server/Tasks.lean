import RocketmqBroker.Handlers.Session

/-!
The maintenance tasks that change queues (server/tasks.rs): expiry of idle queues
and of messages at the front, and the compaction of the log. The delay queue and
the deduplication cache are never filled.
-/
namespace RocketmqBroker

section
variable {env : Env}

def queueTtlTask (now : Instant) : Act env Unit := do
  let expired ← look fun s => (s.queues.retain fun _ q =>
    match q.options.expires with
    | none => false
    | some ttl => q.listeners.isEmpty && q.messages.isEmpty && q.lastActivity + ttl ≤ now).keys
  removeQueues expired

/-- Expired messages go from the front until one is not expired. -/
def dropExpired (queue : String) (now : Instant) : Nat → Act env Unit
  | 0 => return ()
  | fuel + 1 => do
    let expired ← look fun s => ((s.queues.get? queue).bind (·.messages.peekFront)).any
      (·.isExpired now)
    if expired then
      perform (.pop queue .drop)
      dropExpired queue now fuel

def messageTtlTask (now : Instant) : Act env Unit := do
  let queues ← look fun s => s.queues.entries.map fun e => (e.1, e.2.messages.len)
  queues.forM fun (queue, count) => dropExpired queue now count

/-- A whole run of compaction with nothing in between. -/
def walCompactTask : Act env Unit := perform .compact

end
end RocketmqBroker
