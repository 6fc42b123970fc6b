import Minuteman.Dhcpv4.Exclusivity
import Minuteman.Library.WriteQueue

/-!
# The server, its lease table and its restarts

The server among what it talks to: requests arrive, the writes it asks for
reach the disk in order or fail, the notifications of those that carry a reply
wait in its mailbox, and it may crash at any point and be started again on
what is on disk.
-/
namespace Minuteman.Dhcpv4
open Library

def Message.acked (m : Message) : Option Addr :=
  match m.options.messageType with
  | some .ack => m.yiaddr
  | _ => none

theorem Message.granted_of_acked {m : Message} {a : Addr} (h : m.acked = some a) :
    m.granted = some a ∧ m.options.messageType = some .ack := by
  rw [Message.acked] at h
  split at h
  case h_1 hmt => exact ⟨by rw [Message.granted, hmt, h], hmt⟩
  case h_2 => cases h

/-- A reply on its way out: the client it is for, the time its request was handled, and when a
lease granted then ends. -/
structure Outgoing where
  client : ClientId
  message : Message
  stamp : ℤ
  expiry : ℤ

/-- The request has the client give up what the reply grants. -/
def Outgoing.givenUp (x : Outgoing) (cfg : InterfaceConfig) (req : Message) : Prop :=
  req.client = x.client ∧ ∃ a, x.message.acked = some a ∧ req.GivesUp cfg a

instance (x : Outgoing) (cfg : InterfaceConfig) (req : Message) :
    Decidable (x.givenUp cfg req) :=
  decidable_of_iff (req.client = x.client ∧ ∃ a ∈ x.message.acked, req.GivesUp cfg a) Iff.rfl

abbrev LeaseWrite := Write ClientId Lease Outgoing

structure World where
  cfg : InterfaceConfig
  pool : Pool
  /-- The last reading of the clock. -/
  clock : ℤ
  disk : ClientId → Option Lease
  /-- The writes asked for that are not on disk yet, oldest first. -/
  queue : List LeaseWrite
  /-- The replies whose notification is in the mailbox. -/
  mail : List Outgoing
  /-- The replies sent, but for the leases their client has given up since. -/
  owed : List Outgoing

inductive Event where
  | request (req : Option Message) (answered kept : ℤ)
  | expire (now : ℤ)
  /-- The oldest write reaches the disk, or fails. -/
  | written (ok : Bool)
  /-- The server is notified of the `i`-th write waiting in its mailbox. -/
  | durable (i : ℕ)
  /-- A crash, and a start on the leases on disk, in the order `kept`. -/
  | restart (cfg : InterfaceConfig) (kept : List (ClientId × Lease)) (now : ℤ)

def Effect.write (out : Message → Outgoing) : Effect → Option LeaseWrite
  | .put id l held => some (.put id l (held.map out))
  | .delete id => some (.delete id)
  | .expire now => some (.purge fun l => decide (l.expiry ≤ now))
  | _ => none

def Effect.sent (out : Message → Outgoing) : Effect → Option Outgoing
  | .send m => some (out m)
  | .sendActive m => some (out m)
  | _ => none

namespace World

def outgoing (s : World) (req : Option Message) (answered : ℤ) (m : Message) : Outgoing where
  client := (req.map Message.client).getD []
  message := m
  stamp := answered
  expiry := answered + s.pool.duration

def sends (s : World) : Event → List Outgoing
  | .request req answered kept =>
    (handleInfo s.cfg true s.pool (.data req answered kept)).2.filterMap
      (Effect.sent (s.outgoing req answered))
  | .durable i =>
    match s.mail[i]? with
    | some x =>
      (handleInfo s.cfg true s.pool (.durable x.message)).2.filterMap
        (Effect.sent fun m => { x with message := m })
    | none => []
  | _ => []

def step (s : World) : Event → World
  | .request req answered kept =>
    let (next, effects) := handleInfo s.cfg true s.pool (.data req answered kept)
    { s with
      pool := next
      clock := kept
      queue := s.queue ++ effects.filterMap (Effect.write (s.outgoing req answered))
      owed := (s.owed.filter fun x => ∀ m ∈ req, ¬ x.givenUp s.cfg m) ++
        s.sends (.request req answered kept) }
  | .expire now =>
    let (next, effects) := handleInfo s.cfg true s.pool (.expire now)
    { s with
      pool := next
      clock := now
      queue := s.queue ++ effects.filterMap (Effect.write (s.outgoing none now)) }
  | .written ok =>
    match s.queue with
    | [] => s
    | w :: queue =>
      { s with
        disk := if ok then w.apply s.disk else s.disk
        queue := queue
        mail := s.mail ++ w.tag.toList }
  | .durable i => { s with mail := s.mail.eraseIdx i, owed := s.owed ++ s.sends (.durable i) }
  | .restart cfg kept now =>
    match starter cfg s.disk kept now with
    | .error _ => s
    | .ok (pool, disk) =>
      { cfg := cfg, pool := pool, clock := now, disk := disk, queue := [], mail := []
        owed := s.owed }

def pending (s : World) : List Outgoing := s.queue.filterMap Write.tag ++ s.mail

end World

theorem keep_cases (pool next : Pool) (c : ClientId) (now : ℤ) :
    (∃ l, c ≠ [] ∧ next.committed c now = some l ∧ pool.committed c now ≠ some l ∧
      keep true pool next c now = (some l, false)) ∨
    (∃ l, c ≠ [] ∧ next.committed c now = none ∧ pool.committed c now = some l ∧
      keep true pool next c now = (none, true)) ∨
    (c ≠ [] → next.committed c now = pool.committed c now) ∧
      keep true pool next c now = (none, false) := by
  rw [keep]
  by_cases hc : c = []
  · simp [hc]
  · cases hnext : next.committed c now with
    | some l =>
      by_cases hwas : pool.committed c now = some l
      · simp [hc, hwas]
      · simp [hc, hwas]
    | none =>
      cases hwas : pool.committed c now with
      | some l => simp [hc]
      | none => simp [hc]

namespace World
variable (s : World) (req : Message) (answered kept : ℤ)

/-- The three ways a request is recorded: its reply is held behind the lease put, or sent at once
with the deletion of the lease, or sent with nothing written. -/
inductive Recorded : List LeaseWrite → List Outgoing → Prop
  | put (l : Lease) (hc : req.client ≠ [])
      (his : (handle s.cfg s.pool req answered).2.committed req.client kept = some l)
      (hwas : s.pool.committed req.client kept ≠ some l) :
      Recorded
        [.put req.client l
          ((handle s.cfg s.pool req answered).1.map (s.outgoing (some req) answered))] []
  | delete (l : Lease) (hc : req.client ≠ [])
      (his : (handle s.cfg s.pool req answered).2.committed req.client kept = none)
      (hwas : s.pool.committed req.client kept = some l) :
      Recorded [.delete req.client]
        ((handle s.cfg s.pool req answered).1.map (s.outgoing (some req) answered)).toList
  | same (heq : req.client ≠ [] → (handle s.cfg s.pool req answered).2.committed req.client kept =
        s.pool.committed req.client kept) :
      Recorded []
        ((handle s.cfg s.pool req answered).1.map (s.outgoing (some req) answered)).toList

theorem data_recorded : ∃ effects,
    handleInfo s.cfg true s.pool (.data (some req) answered kept) =
      ((handle s.cfg s.pool req answered).2, effects) ∧
    s.Recorded req answered kept
      (effects.filterMap (Effect.write (s.outgoing (some req) answered)))
      (effects.filterMap (Effect.sent (s.outgoing (some req) answered))) := by
  rcases keep_cases s.pool (handle s.cfg s.pool req answered).2 req.client kept with
    ⟨l, hc, his, hwas, hkeep⟩ | ⟨l, hc, his, hwas, hkeep⟩ | ⟨heq, hkeep⟩
  · have hput := @Recorded.put s req answered kept l hc his hwas
    cases hreply : (handle s.cfg s.pool req answered).1 with
    | none =>
      rw [hreply] at hput
      exact ⟨[.put req.client l none, .setActive],
        by simp [handleInfo, answer, hkeep, hreply, replyEffects], hput⟩
    | some m =>
      rw [hreply] at hput
      exact ⟨[.setActive, .put req.client l (some m)],
        by simp [handleInfo, answer, hkeep, hreply], hput⟩
  · have hdelete := @Recorded.delete s req answered kept l hc his hwas
    refine ⟨replyEffects (handle s.cfg s.pool req answered).1 [.delete req.client],
      by simp [handleInfo, answer, hkeep], ?_⟩
    cases hreply : (handle s.cfg s.pool req answered).1 with
    | none => rwa [hreply] at hdelete
    | some m => rwa [hreply] at hdelete
  · have hsame := @Recorded.same s req answered kept heq
    refine ⟨replyEffects (handle s.cfg s.pool req answered).1 [],
      by simp [handleInfo, answer, hkeep], ?_⟩
    cases hreply : (handle s.cfg s.pool req answered).1 with
    | none => rwa [hreply] at hsame
    | some m => rwa [hreply] at hsame

theorem step_request : ∃ writes, s.step (.request (some req) answered kept) =
      { s with
        pool := (handle s.cfg s.pool req answered).2
        clock := kept
        queue := s.queue ++ writes
        owed := (s.owed.filter fun x => ¬ x.givenUp s.cfg req) ++
          s.sends (.request (some req) answered kept) } ∧
    s.Recorded req answered kept writes (s.sends (.request (some req) answered kept)) := by
  obtain ⟨effects, heq, hrecorded⟩ := s.data_recorded req answered kept
  have hsends : s.sends (.request (some req) answered kept) =
      effects.filterMap (Effect.sent (s.outgoing (some req) answered)) := by
    simp only [sends, heq]
  refine ⟨effects.filterMap (Effect.write (s.outgoing (some req) answered)), ?_, ?_⟩
  · simp only [step, heq]
    simp
  · rwa [hsends]

theorem step_expire (now : ℤ) : s.step (.expire now) =
    { s with clock := now, queue := s.queue ++ [.purge fun l => decide (l.expiry ≤ now)] } := rfl

/-- A packet that is no request changes nothing. -/
theorem step_unparsed : s.sends (.request none answered kept) = [] ∧
    s.step (.request none answered kept) = { s with clock := kept } := by
  simp [step, sends, handleInfo, answer, keep, replyEffects, Effect.sent, Effect.write]

variable {s req answered kept} {x : Outgoing} {a : Addr} {clock : ℤ}

/-- Whether held or sent, a request has one reply. -/
theorem Recorded.reply {writes : List LeaseWrite} {sent : List Outgoing}
    (h : s.Recorded req answered kept writes sent)
    (hx : x ∈ writes.filterMap Write.tag ∨ x ∈ sent) :
    ∃ m, (handle s.cfg s.pool req answered).1 = some m ∧ x = s.outgoing (some req) answered m := by
  have hmem : x ∈ ((handle s.cfg s.pool req answered).1.map
      (s.outgoing (some req) answered)).toList := by
    cases h with
    | put l hc his hwas => simpa [Write.tag] using hx
    | delete l hc his hwas => simpa [Write.tag] using hx
    | same heq => simpa using hx
  obtain ⟨m, hm, rfl⟩ := Option.map_eq_some_iff.mp (Option.mem_toList.mp hmem)
  exact ⟨m, hm, rfl⟩

/-- An ACK stands for what the pool holds once its request is handled. -/
theorem Recorded.bound {writes : List LeaseWrite} {sent : List Outgoing}
    (h : s.Recorded req answered kept writes sent)
    (hx : x ∈ writes.filterMap Write.tag ∨ x ∈ sent) (ha : x.message.acked = some a) :
    x.client = req.client ∧ x.stamp = answered ∧ x.expiry = answered + s.pool.duration ∧
      (handle s.cfg s.pool req answered).2.byClient req.client =
        some ⟨a, answered + s.pool.duration, .committed⟩ := by
  obtain ⟨m, hm, rfl⟩ := h.reply hx
  obtain ⟨hgranted, hack⟩ := Message.granted_of_acked ha
  obtain ⟨-, state, hstate, hbound⟩ :=
    (handle_handled s.cfg s.pool req answered).grant hm hgranted
  rw [hstate hack] at hbound
  exact ⟨rfl, rfl, rfl, hbound⟩

end World

theorem starter_ok {cfg : InterfaceConfig} {leases table : ClientId → Option Lease}
    {kept : List (ClientId × Lease)} {now : ℤ} {pool : Pool}
    (h : starter cfg leases kept now = .ok (pool, table)) :
    ∃ p, newPool cfg.subnet cfg.serverIP cfg.leaseTime = .ok p ∧ pool = (restore p kept now).1 ∧
      table = (restore p kept now).2.foldl (fun t id => Function.update t id none) leases := by
  rw [starter] at h
  split at h
  case h_1 => cases h
  case h_2 p hp =>
    cases h
    exact ⟨p, hp, rfl, rfl⟩

/-- `kept` yields the entries of a table, each once. -/
structure Enumerates (kept : List (ClientId × Lease)) (leases : ClientId → Option Lease) :
    Prop where
  nodup : (kept.map Prod.fst).Nodup
  mem : ∀ c l, (c, l) ∈ kept ↔ leases c = some l

/-- A server just started, on whatever the table held. -/
def World.Starts (s : World) : Prop :=
  ∃ leases kept, Enumerates kept leases ∧ starter s.cfg leases kept s.clock = .ok (s.pool, s.disk) ∧
    s.queue = [] ∧ s.mail = [] ∧ s.owed = []

def emptyWorld : World where
  cfg := sampleConfig
  pool := samplePool
  clock := 0
  disk := fun _ => none
  queue := []
  mail := []
  owed := []

theorem emptyWorld_starts : emptyWorld.Starts :=
  ⟨fun _ => none, [], ⟨List.nodup_nil, by simp⟩, rfl, rfl, rfl, rfl⟩

def acceptingEvents (chaddr : Bytes) : List Event :=
  [.request (some (discoverFrom chaddr)) second second,
    .request (some (requestFrom chaddr sampleServer 0xC0A80102)) (2 * second) (2 * second)]

end Minuteman.Dhcpv4
