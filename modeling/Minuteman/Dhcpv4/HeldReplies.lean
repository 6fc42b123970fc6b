import Minuteman.Dhcpv4.World

/-!
# Replies held back for durability

A reply granting a lease waits until the lease is on disk. The pool still
holds what such a reply grants when it is sent, unless the client gave the
lease up meanwhile or the lease ended.
-/
namespace Minuteman.Dhcpv4
open Library

namespace World

/-- No request has a client give up what an ACK held back grants it, or comes after the end of
such a lease. -/
def Undisturbed (s : World) : Event → Prop
  | .request req answered kept => s.clock ≤ answered ∧ answered ≤ kept ∧
    ∀ m, req = some m → ∀ x ∈ s.pending, ∀ a, x.message.acked = some a →
      answered < x.expiry ∧ ¬ x.givenUp s.cfg m
  | .expire now => s.clock ≤ now
  | .restart cfg _ now => s.clock ≤ now ∧ minDHCPv4Lease ≤ cfg.leaseTime
  | _ => True

/-- What is held back is held by the pool. -/
structure Backed (s : World) : Prop where
  sound : s.pool.Sound s.clock
  positive : 0 < s.pool.duration
  held : ∀ x ∈ s.pending, ∀ a, x.message.acked = some a →
    s.pool.Holds x.client a x.expiry ∧ x.expiry ≤ s.clock + s.pool.duration ∧ x.stamp < x.expiry

variable {s : World} {req : Message} {answered kept : ℤ}

theorem Backed.started {cfg : InterfaceConfig} {leases table : ClientId → Option Lease}
    {kept : List (ClientId × Lease)} {now : ℤ} {pool : Pool}
    (h : starter cfg leases kept now = .ok (pool, table)) (hlease : minDHCPv4Lease ≤ cfg.leaseTime) :
    pool.Sound now ∧ 0 < pool.duration := by
  obtain ⟨p, hp, rfl, -⟩ := starter_ok h
  have hrestored := newPool_restored hp kept now
  have hduration : p.duration = cfg.leaseTime := by rw [newPool_eq hp]
  have hmin : (0 : ℤ) < minDHCPv4Lease := by decide
  exact ⟨hrestored.sound, by rw [hrestored.service.duration, hduration]; omega⟩

theorem Backed.request (h : s.Backed)
    (hok : s.Undisturbed (.request (some req) answered kept)) :
    (s.step (.request (some req) answered kept)).Backed := by
  obtain ⟨ht, hle, hcalm⟩ := hok
  have hhandled := handle_handled s.cfg s.pool req answered
  have hduration := hhandled.sameService.duration
  obtain ⟨writes, heq, hrecorded⟩ := s.step_request req answered kept
  rw [heq]
  refine ⟨(hhandled.sound h.sound ht).later hle, by rw [hduration]; exact h.positive, ?_⟩
  intro x hx a ha
  rw [pending, List.filterMap_append, List.append_assoc, List.mem_append, List.mem_append] at hx
  dsimp only
  rw [hduration]
  by_cases hnew : x ∈ writes.filterMap Write.tag
  · obtain ⟨hclient, hstamp, hexpiry, hbound⟩ := hrecorded.bound (.inl hnew) ha
    have hpos := h.positive
    rw [hclient, hstamp, hexpiry]
    exact ⟨⟨_, hbound, rfl, rfl, le_rfl⟩, by omega, by omega⟩
  · have hold : x ∈ s.pending := by
      rw [pending, List.mem_append]
      tauto
    obtain ⟨hheld, hend, hstamp⟩ := h.held x hold a ha
    obtain ⟨hlt, hkeep⟩ := hcalm req rfl x hold a ha
    refine ⟨?_, by omega, hstamp⟩
    apply hhandled.holds h.sound ht hheld (by omega) hlt
    exact fun hc hgives => hkeep ⟨hc, a, ha, hgives⟩

theorem Backed.later (h : s.Backed) {now : ℤ} (ht : s.clock ≤ now) :
    { s with clock := now }.Backed := by
  refine ⟨h.sound.later ht, h.positive, fun x hx a ha => ?_⟩
  obtain ⟨hheld, hend, hstamp⟩ := h.held x hx a ha
  exact ⟨hheld, by dsimp only; omega, hstamp⟩

/-- What is held back may be sent or lost. -/
theorem Backed.of_pending (h : s.Backed) {t : World} (hpool : t.pool = s.pool)
    (hclock : t.clock = s.clock) (hsub : ∀ x ∈ t.pending, x ∈ s.pending) : t.Backed := by
  refine ⟨by rw [hpool, hclock]; exact h.sound, by rw [hpool]; exact h.positive, ?_⟩
  rw [hpool, hclock]
  exact fun x hx => h.held x (hsub x hx)

theorem Backed.step (s : World) (e : Event) (h : s.Backed) (hok : s.Undisturbed e) :
    (s.step e).Backed := by
  cases e with
  | request req answered kept =>
    cases req with
    | none =>
      rw [(s.step_unparsed answered kept).2]
      exact h.later (hok.1.trans hok.2.1)
    | some req => exact h.request hok
  | expire now =>
    apply (h.later hok).of_pending (t := s.step (.expire now)) rfl rfl
    intro x hx
    rw [step_expire] at hx
    simpa [World.pending, Write.tag] using hx
  | written ok =>
    rw [World.step]
    split
    · exact h
    case h_2 w queue hq =>
      refine h.of_pending (by rfl) (by rfl) fun x hx => ?_
      cases hw : w.tag with
      | none => simpa [World.pending, hq, hw] using hx
      | some y =>
        simp only [World.pending, hw, Option.toList_some, List.mem_append, hq,
          List.filterMap_cons_some hw, List.mem_cons] at hx ⊢
        tauto
  | durable i =>
    apply h.of_pending (t := s.step (.durable i)) rfl rfl
    intro x hx
    rw [World.pending, List.mem_append] at hx ⊢
    exact hx.imp id (List.mem_of_mem_eraseIdx ·)
  | restart cfg kept now =>
    rw [World.step]
    split
    · exact h
    case h_2 pool disk hstart =>
      obtain ⟨hsound, hpositive⟩ := Backed.started hstart hok.2
      exact ⟨hsound, hpositive, fun x hx => by simp [World.pending] at hx⟩

end World

/-- As long as nothing held back is given up or ends, an ACK handed to the socket grants what
the pool holds. -/
theorem acks_backed {s : World} (hs : s.Starts) (hlease : minDHCPv4Lease ≤ s.cfg.leaseTime)
    (events : List Event) (hrun : Along World.step World.Undisturbed s events) (e : Event)
    (he : (events.foldl World.step s).Undisturbed e) :
    ∀ x ∈ (events.foldl World.step s).sends e, ∀ a, x.message.acked = some a →
      ∃ l, ((events.foldl World.step s).step e).pool.byClient x.client = some l ∧ l.ip = a ∧
        l.state = .committed ∧ x.stamp < l.expiry := by
  obtain ⟨leases, kept, -, hstart, hqueue, hmail, -⟩ := hs
  obtain ⟨hsound, hpositive⟩ := World.Backed.started hstart hlease
  have hbacked : (events.foldl World.step s).Backed := hrun.invariant World.Backed.step
    ⟨hsound, hpositive, fun x hx => by simp [World.pending, hqueue, hmail] at hx⟩
  generalize events.foldl World.step s = t at hbacked he
  intro x hx a ha
  cases e with
  | request req answered kept =>
    cases req with
    | none => simp [(t.step_unparsed answered kept).1] at hx
    | some req =>
      obtain ⟨writes, heq, hrecorded⟩ := t.step_request req answered kept
      obtain ⟨hclient, hstamp, -, hbound⟩ := hrecorded.bound (.inr hx) ha
      have hpos := hbacked.positive
      rw [heq, hclient, hstamp]
      exact ⟨_, hbound, rfl, rfl, by dsimp only; omega⟩
  | durable i =>
    rw [World.sends] at hx
    split at hx
    case h_1 y hy =>
      have hx' : x = y := by simpa [handleInfo, Effect.sent] using hx
      subst hx'
      have hmem : x ∈ t.pending := List.mem_append_right _ (List.mem_of_getElem? hy)
      obtain ⟨⟨l, hl, hip, hstate, hend⟩, -, hstamp⟩ := hbacked.held x hmem a ha
      exact ⟨l, hl, hip, hstate, by omega⟩
    case h_2 => simp at hx
  | expire now => simp [World.sends] at hx
  | written ok => simp [World.sends] at hx
  | restart cfg kept now => simp [World.sends] at hx

theorem acks_backed_accepted :
    let t := (acceptingEvents [1] ++ [Event.written true]).foldl World.step emptyWorld
    ∃ x ∈ t.sends (.durable 0), x.message.acked = some 0xC0A80102 ∧
      ∃ l, (t.step (.durable 0)).pool.byClient x.client = some l ∧ l.ip = 0xC0A80102 ∧
        l.state = .committed ∧ x.stamp < l.expiry := by
  intro t
  have hrun : Along World.step World.Undisturbed emptyWorld (acceptingEvents [1] ++ [.written true]) :=
    ⟨⟨by decide, le_rfl, fun _ _ x hx => absurd hx List.not_mem_nil⟩,
      ⟨by decide, le_rfl, fun _ _ x hx => absurd hx List.not_mem_nil⟩, trivial, trivial⟩
  have hsends : (t.sends (.durable 0)).map (fun x => x.message.acked) = [some 0xC0A80102] := by
    decide
  obtain ⟨x, hx, ha⟩ := List.mem_map.mp (hsends ▸ List.mem_singleton_self _)
  exact ⟨x, hx, ha, acks_backed emptyWorld_starts (by decide) _ hrun (.durable 0) trivial x hx _ ha⟩

/-- Before its ACK is sent the client releases the lease, and another is offered the address. -/
def releasingEvents : List Event :=
  acceptingEvents [1] ++
    [.request (some (releaseFrom [1] 0xC0A80102)) (3 * second) (3 * second),
      .request (some (discoverFrom [3])) (4 * second) (4 * second), .written true]

/-- The ACK held back grants an address the pool has given to another client. -/
theorem held_ack_outlives_release :
    let t := releasingEvents.foldl World.step emptyWorld
    (t.sends (.durable 0)).map (fun x => (x.client, x.message.acked)) =
        [([1], some 0xC0A80102)] ∧
      (t.step (.durable 0)).pool.byClient [1] = none ∧
      (t.step (.durable 0)).pool.byIP 0xC0A80102 = some [3] := by
  decide

end Minuteman.Dhcpv4
