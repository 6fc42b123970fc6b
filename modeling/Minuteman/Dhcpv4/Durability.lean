import Minuteman.Dhcpv4.World

/-!
# Leases kept across restarts

What is on disk at any moment is enough to bring back every lease an ACK was
sent for: the table lags behind the pool by the writes still queued, and each
of them only extends the lease it replaces.
-/
namespace Minuteman.Dhcpv4
open Library

def Lease.toPoolLease (l : Lease) : PoolLease := ⟨l.ip, l.expiry, .committed⟩

theorem Lease.toPoolLease_injective : Function.Injective Lease.toPoolLease := by
  rintro ⟨ip, expiry⟩ ⟨ip', expiry'⟩ h
  cases h
  rfl

theorem Pool.committed_iff {p : Pool} {c : ClientId} {now : ℤ} {l : Lease} (hlt : now < l.expiry) :
    p.committed c now = some l ↔ p.byClient c = some l.toPoolLease :=
  Pool.committed_eq_some.trans (and_iff_right hlt)

section Restore
variable {p : Pool} {now : ℤ}

/-- The pool and the refused leases of a restore that has come through `done`. -/
structure RestoredFrom (p : Pool) (now : ℤ) (done : List (ClientId × Lease))
    (acc : Pool × List ClientId) : Prop where
  restored : Restored p acc.1 now
  undeclined : ∀ a, acc.1.declined a = none
  bound : ∀ c b, acc.1.byClient c = some b → ∃ l, (c, l) ∈ done ∧ b = l.toPoolLease
  taken : ∀ c l, (c, l) ∈ done → c ∈ acc.2 ∨ acc.1.byClient c = some l.toPoolLease
  refused : ∀ c ∈ acc.2, acc.1.byClient c = none ∧
    ∃ l, (c, l) ∈ done ∧ (now < l.expiry → p.inRange l.ip = true →
      ∃ c' l', c' ≠ c ∧ (c', l') ∈ done ∧ l'.ip = l.ip ∧ now < l'.expiry)

namespace RestoredFrom
variable {done : List (ClientId × Lease)} {q q' : Pool} {gone : List ClientId} {c : ClientId}
  {l : Lease}

theorem unbound (h : RestoredFrom p now done (q, gone)) (hnew : ∀ l, (c, l) ∉ done) :
    q.byClient c = none := by
  by_contra hsome
  obtain ⟨b, hb⟩ := Option.ne_none_iff_exists'.mp hsome
  obtain ⟨l', hl', -⟩ := h.bound c b hb
  exact hnew l' hl'

/-- A lease that has not run out and is in range is refused for the lease of another client. -/
theorem clash (h : RestoredFrom p now done (q, gone)) (hrefused : (q.restore c l now).1 = false)
    (hlt : now < l.expiry) (hrange : p.inRange l.ip = true) :
    ∃ c' l', c' ≠ c ∧ (c', l') ∈ done ∧ l'.ip = l.ip ∧ now < l'.expiry := by
  have hundeclined : q.declined l.ip = none := h.undeclined l.ip
  have husable : q.Usable l.ip now :=
    ⟨(h.restored.service.inRange l.ip).trans hrange, by simp [hundeclined]⟩
  have hfree : ¬ q.isFree l.ip c now = true := by
    intro hfree
    rw [Pool.restore_taken.mpr ⟨hlt, husable, hfree⟩] at hrefused
    cases hrefused
  rw [Pool.isFree_iff] at hfree
  push Not at hfree
  obtain ⟨c', hc', hne, b, hb, hlive⟩ := hfree
  obtain ⟨l', hl', rfl⟩ := h.bound c' b hb
  refine ⟨c', l', hne, hl', ?_, hlive⟩
  have haddr := (h.restored.sound.inverse c' l.ip).mpr hc'
  rw [Pool.address, hb] at haddr
  exact Option.some.inj haddr

theorem refuse (h : RestoredFrom p now done (q, gone)) (hnew : ∀ l, (c, l) ∉ done)
    (heq : q.restore c l now = (false, q')) :
    RestoredFrom p now (done ++ [(c, l)]) (q', gone ++ [c]) := by
  have hrestored := h.restored.restore c l
  have hundeclined : ∀ a, (q.restore c l now).2.declined a = none :=
    Pool.restore_declined h.undeclined
  have hbyClient : (q.restore c l now).2.byClient = q.byClient := by
    rw [Pool.restore_byClient, heq]
    rfl
  have hclash := h.clash (c := c) (l := l) (by rw [heq])
  rw [heq] at hrestored hundeclined hbyClient
  refine ⟨hrestored, hundeclined, ?_, ?_, ?_⟩
  · intro c' b hb
    rw [hbyClient] at hb
    obtain ⟨l', hl', hbl⟩ := h.bound c' b hb
    exact ⟨l', List.mem_append_left _ hl', hbl⟩
  · intro c' l' hmem
    rw [hbyClient]
    rcases List.mem_append.mp hmem with hmem | hmem
    · exact (h.taken c' l' hmem).imp_left (List.mem_append_left _)
    · cases List.mem_singleton.mp hmem
      exact .inl (List.mem_append_right _ (List.mem_singleton_self c))
  · intro c' hmem
    rw [hbyClient]
    rcases List.mem_append.mp hmem with hmem | hmem
    · obtain ⟨hnone, l', hl', hlost⟩ := h.refused c' hmem
      refine ⟨hnone, l', List.mem_append_left _ hl', fun hlt hrange => ?_⟩
      obtain ⟨d, m, hd, hm, hip, hlive⟩ := hlost hlt hrange
      exact ⟨d, m, hd, List.mem_append_left _ hm, hip, hlive⟩
    · cases List.mem_singleton.mp hmem
      refine ⟨h.unbound hnew, l, List.mem_append_right _ (List.mem_singleton_self _), ?_⟩
      intro hlt hrange
      obtain ⟨d, m, hd, hm, hip, hlive⟩ := hclash hlt hrange
      exact ⟨d, m, hd, List.mem_append_left _ hm, hip, hlive⟩

theorem take (h : RestoredFrom p now done (q, gone)) (hnew : ∀ l, (c, l) ∉ done)
    (heq : q.restore c l now = (true, q')) :
    RestoredFrom p now (done ++ [(c, l)]) (q', gone) := by
  have hrestored := h.restored.restore c l
  have hundeclined : ∀ a, (q.restore c l now).2.declined a = none :=
    Pool.restore_declined h.undeclined
  have hbyClient : (q.restore c l now).2.byClient =
      Function.update q.byClient c (some l.toPoolLease) := by
    rw [Pool.restore_byClient, heq]
    rfl
  rw [heq] at hrestored hundeclined hbyClient
  have hne : ∀ c' l', (c', l') ∈ done → c' ≠ c := by
    rintro c' l' hmem rfl
    exact hnew l' hmem
  refine ⟨hrestored, hundeclined, ?_, ?_, ?_⟩
  · intro c' b hb
    rw [hbyClient, Function.update_apply] at hb
    split at hb
    case isTrue hc =>
      cases hb
      exact ⟨l, by simp [hc], rfl⟩
    case isFalse =>
      obtain ⟨l', hl', hbl⟩ := h.bound c' b hb
      exact ⟨l', List.mem_append_left _ hl', hbl⟩
  · intro c' l' hmem
    rw [hbyClient]
    rcases List.mem_append.mp hmem with hmem | hmem
    · rw [Function.update_of_ne (hne c' l' hmem)]
      exact h.taken c' l' hmem
    · cases List.mem_singleton.mp hmem
      exact .inr (Function.update_self _ _ _)
  · intro c' hmem
    obtain ⟨hnone, l', hl', hlost⟩ := h.refused c' hmem
    rw [hbyClient, Function.update_of_ne (hne c' l' hl')]
    refine ⟨hnone, l', List.mem_append_left _ hl', fun hlt hrange => ?_⟩
    obtain ⟨d, m, hd, hm, hip, hlive⟩ := hlost hlt hrange
    exact ⟨d, m, hd, List.mem_append_left _ hm, hip, hlive⟩

theorem foldl (kept : List (ClientId × Lease)) {acc : Pool × List ClientId}
    (h : RestoredFrom p now done acc) (hnodup : ((done ++ kept).map Prod.fst).Nodup) :
    RestoredFrom p now (done ++ kept) (kept.foldl (restoreStep now) acc) := by
  induction kept generalizing done acc with
  | nil => simpa using h
  | cons entry kept ih =>
    obtain ⟨c, l⟩ := entry
    obtain ⟨q, gone⟩ := acc
    have hsplit : done ++ (c, l) :: kept = (done ++ [(c, l)]) ++ kept := by simp
    have hnew : ∀ l', (c, l') ∉ done := by
      intro l' hmem
      rw [List.map_append, List.nodup_append] at hnodup
      exact hnodup.2.2 c (List.mem_map_of_mem hmem) c (by simp) rfl
    rw [hsplit] at hnodup ⊢
    rcases heq : q.restore c l now with ⟨_ | _, q'⟩
    · have hstep : restoreStep now (q, gone) (c, l) = (q', gone ++ [c]) := by
        simp [restoreStep, heq]
      rw [List.foldl_cons, hstep]
      exact ih (h.refuse hnew heq) hnodup
    · have hstep : restoreStep now (q, gone) (c, l) = (q', gone) := by
        simp [restoreStep, heq]
      rw [List.foldl_cons, hstep]
      exact ih (h.take hnew heq) hnodup

end RestoredFrom

theorem newPool_restoredFrom {subnet : Prefix} {serverIP : Addr} {duration : ℤ} {p : Pool}
    (hp : newPool subnet serverIP duration = .ok p) {kept : List (ClientId × Lease)}
    (hnodup : (kept.map Prod.fst).Nodup) (now : ℤ) :
    RestoredFrom p now kept (restore p kept now) := by
  have hempty : RestoredFrom p now [] (p, []) := by
    refine ⟨newPool_restored hp [] now, ?_, ?_, by simp, by simp⟩
    · rw [newPool_eq hp]
      exact fun _ => rfl
    · rw [newPool_eq hp]
      exact fun c b hb => by cases hb
  exact hempty.foldl kept (by simpa using hnodup)

theorem foldl_delete (gone : List ClientId) (leases : ClientId → Option Lease) (c : ClientId) :
    gone.foldl (fun t id => Function.update t id none) leases c =
      if c ∈ gone then none else leases c := by
  induction gone generalizing leases with
  | nil => simp
  | cons id gone ih =>
    rw [List.foldl_cons, ih]
    by_cases hc : c = id <;> simp [hc]

end Restore

/-- What a server is started with: the pool holds what the table is left with, and nothing that
has run out; of the leases on disk, one that is in range and clashes with no other is taken. -/
structure Started (cfg : InterfaceConfig) (leases : ClientId → Option Lease) (now : ℤ)
    (pool : Pool) (table : ClientId → Option Lease) : Prop where
  service : ∃ p, newPool cfg.subnet cfg.serverIP cfg.leaseTime = .ok p ∧ p.SameService pool
  sound : pool.Sound now
  live : pool.Live now
  bound : ∀ c b, pool.byClient c = some b → ∃ l, table c = some l ∧ b = l.toPoolLease
  kept : ∀ c l, table c = some l → leases c = some l ∧ pool.byClient c = some l.toPoolLease
  taken : ∀ c l, leases c = some l → now < l.expiry → pool.inRange l.ip = true →
    (∀ c' l', leases c' = some l' → now < l'.expiry → l'.ip = l.ip → c' = c) → table c = some l

theorem starter_started {cfg : InterfaceConfig} {leases table : ClientId → Option Lease}
    {kept : List (ClientId × Lease)} {now : ℤ} {pool : Pool}
    (h : starter cfg leases kept now = .ok (pool, table)) (hkept : Enumerates kept leases) :
    Started cfg leases now pool table := by
  obtain ⟨p, hp, rfl, rfl⟩ := starter_ok h
  have hfrom := newPool_restoredFrom hp hkept.nodup now
  constructor
  · exact ⟨p, hp, hfrom.restored.service⟩
  · exact hfrom.restored.sound
  · exact hfrom.restored.live
  · intro c b hb
    obtain ⟨l, hl, rfl⟩ := hfrom.bound c b hb
    refine ⟨l, ?_, rfl⟩
    rw [foldl_delete, if_neg, ← hkept.mem]
    · exact hl
    · intro hgone
      rw [(hfrom.refused c hgone).1] at hb
      cases hb
  · intro c l hl
    rw [foldl_delete] at hl
    split at hl
    case isTrue => cases hl
    case isFalse hgone =>
      exact ⟨hl, (hfrom.taken c l ((hkept.mem c l).mpr hl)).resolve_left hgone⟩
  · intro c l hl hlt hrange happart
    rw [foldl_delete, if_neg, hl]
    intro hgone
    obtain ⟨-, l', hl', hlost⟩ := hfrom.refused c hgone
    rw [hkept.mem, hl] at hl'
    cases hl'
    rw [hfrom.restored.service.inRange] at hrange
    obtain ⟨c', l', hne, hmem, hip, hlive⟩ := hlost hlt hrange
    exact hne (happart c' l' ((hkept.mem c' l').mp hmem) hlive hip)

namespace Lease

def LiveAt (now : ℤ) (l : Lease) : Prop := now < l.expiry

def Extended (l l' : Lease) : Prop := l'.ip = l.ip ∧ l.expiry ≤ l'.expiry

def Clash (l l' : Lease) : Prop := l.ip = l'.ip

end Lease

/-- Every ACK queued waits for the lease it grants, which no later write deletes. -/
def Queued (now : ℤ) : List LeaseWrite → Prop
  | [] => True
  | w :: queue =>
    (∀ x, w.tag = some x → ∀ a, x.message.acked = some a → now < x.expiry →
      (∃ l, w = .put x.client l (some x) ∧ l.ip = a ∧ x.expiry ≤ l.expiry) ∧
        Write.delete x.client ∉ queue) ∧ Queued now queue

theorem Queued.later {now t : ℤ} {queue : List LeaseWrite} (h : Queued now queue) (ht : now ≤ t) :
    Queued t queue := by
  induction queue with
  | nil => trivial
  | cons w queue ih =>
    exact ⟨fun x hx a ha hlt => h.1 x hx a ha (ht.trans_lt hlt), ih h.2⟩

theorem Queued.snoc {now : ℤ} {queue : List LeaseWrite} {w : LeaseWrite} (h : Queued now queue)
    (hdelete : ∀ x ∈ queue.filterMap Write.tag, ∀ a, x.message.acked = some a → now < x.expiry →
      w ≠ .delete x.client)
    (hw : ∀ x, w.tag = some x → ∀ a, x.message.acked = some a → now < x.expiry →
      ∃ l, w = .put x.client l (some x) ∧ l.ip = a ∧ x.expiry ≤ l.expiry) :
    Queued now (queue ++ [w]) := by
  induction queue with
  | nil => exact ⟨fun x hx a ha hlt => ⟨hw x hx a ha hlt, List.not_mem_nil⟩, trivial⟩
  | cons w' queue ih =>
    refine ⟨fun x hx a ha hlt => ?_, ih h.2 fun x hx => hdelete x ?_⟩
    · obtain ⟨hput, hmem⟩ := h.1 x hx a ha hlt
      refine ⟨hput, fun hd => (List.mem_append.mp hd).elim hmem fun hd' => ?_⟩
      exact hdelete x (by simp [hx]) a ha hlt (List.mem_singleton.mp hd').symm
    · cases hw' : w'.tag with
      | none => rwa [List.filterMap_cons_none hw']
      | some y =>
        rw [List.filterMap_cons_some hw']
        exact List.mem_cons_of_mem y hx

namespace World

/-- The condition on a step. No request is from a client without an identifier, is granted at
the very instant of a lease whose write is still queued, or gives up what an ACK held back
grants; no write fails; and a crash comes with no deletion queued, on leases that run for no
longer than the new server gives. -/
def Careful (s : World) : Event → Prop
  | .request req answered kept => s.clock ≤ answered ∧ answered ≤ kept ∧
    ∀ m, req = some m → m.client ≠ [] ∧
      (∀ l, s.pool.byClient m.client = some l → l.state = .committed →
        l.expiry = answered + s.pool.duration → ∀ w ∈ s.queue, w.key ≠ some m.client) ∧
      ∀ x ∈ s.pending, ¬ x.givenUp s.cfg m
  | .expire now => s.clock ≤ now
  | .written ok => ok = true
  | .durable _ => True
  | .restart cfg kept now => s.clock ≤ now ∧ Enumerates kept s.disk ∧
    cfg.subnet = s.cfg.subnet ∧ cfg.serverIP = s.cfg.serverIP ∧
    (∀ c, Write.delete c ∉ s.queue) ∧
    ∀ c l, s.disk c = some l → now < l.expiry → l.expiry ≤ now + cfg.leaseTime

/-- What links the pool, the writes queued, the disk and the ACKs sent. -/
structure Kept (s : World) : Prop where
  service : ∃ p, newPool s.cfg.subnet s.cfg.serverIP s.cfg.leaseTime = .ok p ∧ p.SameService s.pool
  sound : s.pool.Sound s.clock
  /-- No lease runs for longer than a full one. -/
  brief : ∀ c b, s.pool.byClient c = some b → b.state = .committed → s.clock < b.expiry →
    b.expiry ≤ s.clock + s.pool.duration
  /-- Once all is written the table holds the running leases of the pool. -/
  agree : ∀ c l, s.clock < l.expiry →
    (flush s.disk s.queue c = some l ↔ s.pool.byClient c = some l.toPoolLease)
  apart : Apart (Lease.LiveAt s.clock) Lease.Clash s.disk
  ordered : Ordered (Lease.LiveAt s.clock) Lease.Extended Lease.Clash s.disk s.queue
  queued : Queued s.clock s.queue
  held : ∀ x ∈ s.pending ++ s.owed, ∀ a, x.message.acked = some a → s.clock < x.expiry →
    s.pool.Holds x.client a x.expiry
  stored : ∀ x ∈ s.mail ++ s.owed, ∀ a, x.message.acked = some a → s.clock < x.expiry →
    (∃ l, s.disk x.client = some l ∧ l.ip = a ∧ x.expiry ≤ l.expiry) ∧
      Write.delete x.client ∉ s.queue

namespace Kept
variable {s : World} {now : ℤ}

theorem later (h : s.Kept) (ht : s.clock ≤ now) : { s with clock := now }.Kept := by
  have hlive : ∀ l : Lease, l.LiveAt now → l.LiveAt s.clock := fun l hl => ht.trans_lt hl
  constructor
  · exact h.service
  · exact h.sound.later ht
  · intro c b hb hstate hlt
    have hle := h.brief c b hb hstate (ht.trans_lt hlt)
    dsimp only
    omega
  · exact fun c l hlt => h.agree c l (ht.trans_lt hlt)
  · exact fun c c' l l' hl hl' hlt hlt' => h.apart c c' l l' hl hl' (hlive l hlt) (hlive l' hlt')
  · exact h.ordered.mono hlive
  · exact h.queued.later ht
  · exact fun x hx a ha hlt => h.held x hx a ha (ht.trans_lt hlt)
  · exact fun x hx a ha hlt => h.stored x hx a ha (ht.trans_lt hlt)

theorem written (h : s.Kept) : (s.step (.written true)).Kept := by
  rw [World.step]
  split
  · exact h
  case h_2 w queue hq =>
    have hagree := h.agree
    have hordered := h.ordered
    have hqueued := h.queued
    have hheld := h.held
    have hstored := h.stored
    rw [World.pending] at hheld
    rw [hq] at hagree hordered hqueued hheld hstored
    refine ⟨h.service, h.sound, h.brief, hagree, hordered.1.apart h.apart, hordered.2, hqueued.2,
      ?_, ?_⟩
    · intro x hx a ha hlt
      apply hheld x _ a ha hlt
      cases hw : w.tag with
      | none => simpa [World.pending, hw] using hx
      | some y =>
        simp only [World.pending, hw, Option.toList_some, List.mem_append,
          List.filterMap_cons_some hw, List.mem_cons] at hx ⊢
        tauto
    · intro x hx a ha hlt
      rw [List.mem_append, List.mem_append] at hx
      have hcases : w.tag = some x ∨ x ∈ s.mail ++ s.owed := by
        rw [List.mem_append]
        simp only [Option.mem_toList] at hx
        tauto
      rcases hcases with hx | hx
      · obtain ⟨⟨l, rfl, hip, hle⟩, hmem⟩ := hqueued.1 x hx a ha hlt
        exact ⟨⟨l, by simp [Write.apply], hip, hle⟩, hmem⟩
      · obtain ⟨⟨l, hl, hip, hle⟩, hmem⟩ := hstored x hx a ha hlt
        have hw : w ≠ .delete x.client := fun he => hmem (by rw [he]; exact List.mem_cons_self)
        obtain ⟨l', hl', hip', hle'⟩ := hordered.1.carried (fun l => ⟨rfl, le_rfl⟩) hw hl
          (hlt.trans_le hle)
        exact ⟨⟨l', by simpa using hl', hip'.trans hip, hle.trans hle'⟩,
          fun hd => hmem (List.mem_cons_of_mem w hd)⟩

theorem expired (h : s.Kept) (ht : s.clock ≤ now) : (s.step (.expire now)).Kept := by
  have hlater := h.later ht
  have hpurge : ∀ l : Lease, l.LiveAt now → decide (l.expiry ≤ now) = false :=
    fun l hl => decide_eq_false (not_le.mpr hl)
  rw [step_expire]
  constructor
  · exact hlater.service
  · exact hlater.sound
  · exact hlater.brief
  · intro c l hlt
    rw [flush_append_singleton, ← hlater.agree c l hlt]
    simp only [Write.apply, Option.filter_eq_some_iff]
    exact and_iff_left (by simpa using hlt)
  · exact hlater.apart
  · exact hlater.ordered.snoc hpurge
  · exact hlater.queued.snoc (by simp) (by simp [Write.tag])
  · intro x hx a ha hlt
    apply hlater.held x _ a ha hlt
    simpa [World.pending, Write.tag] using hx
  · intro x hx a ha hlt
    obtain ⟨hdisk, hmem⟩ := hlater.stored x hx a ha hlt
    refine ⟨hdisk, fun hd => (List.mem_append.mp hd).elim hmem fun hd' => ?_⟩
    cases List.mem_singleton.mp hd'

theorem durable (h : s.Kept) (i : ℕ) : (s.step (.durable i)).Kept := by
  have hsent : ∀ x ∈ s.sends (.durable i), x ∈ s.mail := by
    intro x hx
    rw [World.sends] at hx
    split at hx
    case h_1 y hy =>
      have hxy : x = y := by simpa [handleInfo, Effect.sent] using hx
      exact hxy ▸ List.mem_of_getElem? hy
    case h_2 => simp at hx
  refine ⟨h.service, h.sound, h.brief, h.agree, h.apart, h.ordered, h.queued, ?_, ?_⟩
  · intro x hx
    apply h.held x
    simp only [World.step, World.pending, List.mem_append] at hx ⊢
    rcases hx with (hx | hx) | hx | hx
    · exact .inl (.inl hx)
    · exact .inl (.inr (List.mem_of_mem_eraseIdx hx))
    · exact .inr hx
    · exact .inl (.inr (hsent x hx))
  · intro x hx
    apply h.stored x
    simp only [World.step, List.mem_append] at hx ⊢
    rcases hx with hx | hx | hx
    · exact .inl (List.mem_of_mem_eraseIdx hx)
    · exact .inr hx
    · exact .inl (hsent x hx)

section Request
variable {req : Message} {answered kept : ℤ}

theorem others_iff (h : s.Kept) (ht : s.clock ≤ answered) (hle : answered ≤ kept) {c : ClientId}
    (hc : c ≠ req.client) {b : PoolLease} (hlt : kept < b.expiry) :
    (handle s.cfg s.pool req answered).2.byClient c = some b ↔ s.pool.byClient c = some b :=
  have hhandled := handle_handled s.cfg s.pool req answered
  ⟨hhandled.others_of h.sound ht hc, fun hb => hhandled.others h.sound ht hc hb (hle.trans_lt hlt)⟩

theorem request_brief (h : s.Kept) (ht : s.clock ≤ answered) (hle : answered ≤ kept) {c : ClientId}
    {b : PoolLease} (hb : (handle s.cfg s.pool req answered).2.byClient c = some b)
    (hstate : b.state = .committed) (hlt : kept < b.expiry) :
    b.expiry ≤ kept + s.pool.duration := by
  have hhandled := handle_handled s.cfg s.pool req answered
  have hold : s.pool.byClient c = some b → b.expiry ≤ kept + s.pool.duration := by
    intro hold
    have hbrief := h.brief c b hold hstate (by omega)
    omega
  by_cases hc : c = req.client
  · subst hc
    rcases hhandled.committed_until hb hstate with hsame | hfull
    · exact hold hsame
    · omega
  · exact hold ((h.others_iff ht hle hc hlt).mp hb)

/-- What is granted and not given up is still held once the request is handled. -/
theorem request_held (h : s.Kept) (ht : s.clock ≤ answered) (hle : answered ≤ kept) {x : Outgoing}
    {a : Addr} (hx : x ∈ s.pending ++ s.owed) (hkeep : ¬ x.givenUp s.cfg req)
    (ha : x.message.acked = some a) (hlt : kept < x.expiry) :
    (handle s.cfg s.pool req answered).2.Holds x.client a x.expiry := by
  have hheld := h.held x hx a ha (by omega)
  apply (handle_handled s.cfg s.pool req answered).holds h.sound ht hheld
  · obtain ⟨b, hb, -, hstate, hend⟩ := hheld
    have hbrief := h.brief _ b hb hstate (by omega)
    omega
  · omega
  · exact fun hc hgives => hkeep ⟨hc, a, ha, hgives⟩

/-- A lease put extends the one it replaces and clashes with no other. -/
theorem request_follows (h : s.Kept) (ht : s.clock ≤ answered) (hle : answered ≤ kept) {l : Lease}
    (hl : (handle s.cfg s.pool req answered).2.committed req.client kept = some l)
    (tag : Option Outgoing) :
    (Write.put req.client l tag).Follows (Lease.LiveAt kept) Lease.Extended Lease.Clash
      (flush s.disk s.queue) := by
  have hhandled := handle_handled s.cfg s.pool req answered
  obtain ⟨hlt, hbound⟩ := Pool.committed_eq_some.mp hl
  constructor
  · intro u hu hlive
    have hwas := (h.agree req.client u (ht.trans_lt (hle.trans_lt hlive))).mp hu
    have hlive' : answered < u.expiry := hle.trans_lt hlive
    obtain ⟨hip, hsame | hfull⟩ := hhandled.own h.sound ht hwas rfl hlive' hbound
    · refine ⟨hip, le_of_eq ?_⟩
      exact (congrArg PoolLease.expiry hsame).symm
    · have hbrief := h.brief _ _ hwas rfl (ht.trans_lt hlive')
      dsimp only [Lease.toPoolLease] at hbrief hfull
      exact ⟨hip, by omega⟩
  · intro c u hc hu hlive
    have hwas := (h.agree c u (ht.trans_lt (hle.trans_lt hlive))).mp hu
    have hrunning : kept < u.toPoolLease.expiry := hlive
    have hother := (h.others_iff ht hle hc hrunning).mpr hwas
    have hne : u.ip ≠ l.ip := by
      intro hip
      apply hc
      apply (hhandled.sound h.sound ht).inverse.unique (b := l.ip)
      · rw [Pool.address, hother]
        exact congrArg some hip
      · rw [Pool.address, hbound]
        rfl
    exact ⟨hne, hne.symm⟩

variable {writes : List LeaseWrite} {sent : List Outgoing}

theorem request_agree (h : s.Kept) (ht : s.clock ≤ answered) (hle : answered ≤ kept)
    (hid : req.client ≠ []) (hrecorded : s.Recorded req answered kept writes sent) (c : ClientId)
    (l : Lease) (hlt : kept < l.expiry) : flush s.disk (s.queue ++ writes) c = some l ↔
      (handle s.cfg s.pool req answered).2.byClient c = some l.toPoolLease := by
  have hwas := h.agree c l (ht.trans_lt (hle.trans_lt hlt))
  by_cases hc : c = req.client
  · subst hc
    rw [← Pool.committed_iff hlt]
    cases hrecorded with
    | put l' _ his _ => simp [flush_append_singleton, Write.apply, his]
    | delete l' _ his _ => simp [flush_append_singleton, Write.apply, his]
    | same hsame => rw [List.append_nil, hwas, hsame hid, Pool.committed_iff hlt]
  · have hrunning : kept < l.toPoolLease.expiry := hlt
    rw [h.others_iff ht hle hc hrunning, ← hwas]
    cases hrecorded with
    | put l' _ _ _ => simp [flush_append_singleton, Write.apply, hc]
    | delete l' _ _ _ => simp [flush_append_singleton, Write.apply, hc]
    | same _ => rw [List.append_nil]

theorem request_ordered (h : s.Kept) (ht : s.clock ≤ answered) (hle : answered ≤ kept)
    (hrecorded : s.Recorded req answered kept writes sent) :
    Ordered (Lease.LiveAt kept) Lease.Extended Lease.Clash s.disk (s.queue ++ writes) := by
  have hordered := (h.later (ht.trans hle)).ordered
  cases hrecorded with
  | put l _ his _ => exact hordered.snoc (h.request_follows ht hle his _)
  | delete l _ _ _ => exact hordered.snoc trivial
  | same _ => rwa [List.append_nil]

/-- The lease of an ACK that is not given up is not deleted. -/
theorem request_undeleted (h : s.Kept) (ht : s.clock ≤ answered) (hle : answered ≤ kept)
    (hrecorded : s.Recorded req answered kept writes sent) {x : Outgoing} {a : Addr}
    (hx : x ∈ s.pending ++ s.owed) (hkeep : ¬ x.givenUp s.cfg req)
    (ha : x.message.acked = some a) (hlt : kept < x.expiry) :
    Write.delete x.client ∉ writes := by
  obtain ⟨b, hb, -, hstate, hend⟩ := h.request_held ht hle hx hkeep ha hlt
  cases hrecorded with
  | put l _ _ _ => simp
  | delete l _ his _ =>
    intro hmem
    have hclient : x.client = req.client := by simpa using hmem
    rw [hclient] at hb
    have hrunning : kept < b.expiry := hlt.trans_le hend
    rw [Pool.committed, hb] at his
    simp [hstate, PoolLease.expired, hrunning] at his
  | same _ => simp

theorem request_queued (h : s.Kept) (ht : s.clock ≤ answered) (hle : answered ≤ kept)
    (hkeep : ∀ x ∈ s.pending, ¬ x.givenUp s.cfg req)
    (hrecorded : s.Recorded req answered kept writes sent) :
    Queued kept (s.queue ++ writes) := by
  have hqueued := (h.later (ht.trans hle)).queued
  have hundeleted : ∀ x ∈ s.queue.filterMap Write.tag, ∀ a, x.message.acked = some a →
      kept < x.expiry → Write.delete x.client ∉ writes := by
    intro x hx a ha hlt
    have hpending : x ∈ s.pending := List.mem_append_left _ hx
    exact h.request_undeleted ht hle hrecorded (List.mem_append_left _ hpending)
      (hkeep x hpending) ha hlt
  have hbound := fun x (hx : x ∈ writes.filterMap Write.tag) a => hrecorded.bound (a := a) (.inl hx)
  cases hrecorded with
  | put l _ his _ =>
    apply hqueued.snoc (by simp)
    intro x hx a ha hlt
    obtain ⟨hclient, -, hexpiry, hnext⟩ := hbound x (by simpa [Write.tag] using hx) a ha
    have hcommitted := (Pool.committed_eq_some.mp his).2
    rw [hnext] at hcommitted
    obtain ⟨hip, hend⟩ : a = l.ip ∧ answered + s.pool.duration = l.expiry := by
      simpa using hcommitted
    refine ⟨l, ?_, hip.symm, by omega⟩
    rw [hclient]
    exact congrArg _ hx
  | delete l _ _ _ =>
    apply hqueued.snoc _ (by simp [Write.tag])
    intro x hx a ha hlt hdelete
    exact hundeleted x hx a ha hlt (by simp [hdelete])
  | same _ => rwa [List.append_nil]

/-- An ACK sent at once is for a lease on disk already. -/
theorem request_stored (h : s.Kept) (ht : s.clock ≤ answered) (hle : answered ≤ kept)
    (hid : req.client ≠ [])
    (hinstant : ∀ l, s.pool.byClient req.client = some l → l.state = .committed →
      l.expiry = answered + s.pool.duration → ∀ w ∈ s.queue, w.key ≠ some req.client)
    (hrecorded : s.Recorded req answered kept writes sent) {x : Outgoing} {a : Addr}
    (hx : x ∈ sent) (ha : x.message.acked = some a) (hlt : kept < x.expiry) :
    (∃ l, s.disk x.client = some l ∧ l.ip = a ∧ x.expiry ≤ l.expiry) ∧
      Write.delete x.client ∉ s.queue ++ writes := by
  obtain ⟨hclient, -, hexpiry, hnext⟩ := hrecorded.bound (.inr hx) ha
  have hrunning : kept < answered + s.pool.duration := hexpiry ▸ hlt
  have his : (handle s.cfg s.pool req answered).2.committed req.client kept =
      some ⟨a, answered + s.pool.duration⟩ := Pool.committed_eq_some.mpr ⟨hrunning, hnext⟩
  cases hrecorded with
  | put l _ _ _ => simp at hx
  | delete l _ hnone _ =>
    rw [his] at hnone
    cases hnone
  | same hsame =>
    rw [hsame hid] at his
    obtain ⟨-, hwas⟩ := Pool.committed_eq_some.mp his
    have huntouched := hinstant _ hwas rfl rfl
    have hflush := (h.agree req.client ⟨a, answered + s.pool.duration⟩ (by dsimp only; omega)).mpr hwas
    rw [hclient, hexpiry, List.append_nil]
    exact ⟨⟨_, flush_of_key_ne huntouched hflush, rfl, le_rfl⟩,
      fun hmem => huntouched _ hmem rfl⟩

theorem request (h : s.Kept) (hok : s.Careful (.request (some req) answered kept)) :
    (s.step (.request (some req) answered kept)).Kept := by
  obtain ⟨ht, hle, hcareful⟩ := hok
  obtain ⟨hid, hinstant, hkeep⟩ := hcareful req rfl
  have hhandled := handle_handled s.cfg s.pool req answered
  have hlater := h.later (ht.trans hle)
  obtain ⟨p, hp, hservice⟩ := h.service
  obtain ⟨writes, heq, hrecorded⟩ := s.step_request req answered kept
  rw [heq]
  generalize s.sends (.request (some req) answered kept) = sent at hrecorded
  have hkept : ∀ x ∈ s.owed.filter (fun x => ¬ x.givenUp s.cfg req),
      x ∈ s.owed ∧ ¬ x.givenUp s.cfg req := by
    intro x hx
    simpa using List.mem_filter.mp hx
  constructor
  · exact ⟨p, hp, hservice.trans hhandled.sameService⟩
  · exact (hhandled.sound h.sound ht).later hle
  · intro c b hb hstate hlt
    dsimp only
    rw [hhandled.sameService.duration]
    exact h.request_brief ht hle hb hstate hlt
  · exact h.request_agree ht hle hid hrecorded
  · exact hlater.apart
  · exact h.request_ordered ht hle hrecorded
  · exact h.request_queued ht hle hkeep hrecorded
  · intro x hx a ha hlt
    by_cases hnew : x ∈ writes.filterMap Write.tag ∨ x ∈ sent
    · obtain ⟨hclient, -, hexpiry, hnext⟩ := hrecorded.bound hnew ha
      rw [hclient]
      exact ⟨_, hnext, rfl, rfl, hexpiry.le⟩
    · have hold : x ∈ s.pending ++ s.owed ∧ ¬ x.givenUp s.cfg req := by
        simp only [World.pending, List.filterMap_append, List.mem_append] at hx ⊢
        rcases hx with ((hx | hx) | hx) | hx | hx
        · exact ⟨.inl (.inl hx), hkeep x (List.mem_append_left _ hx)⟩
        · exact absurd (.inl hx) hnew
        · exact ⟨.inl (.inr hx), hkeep x (List.mem_append_right _ hx)⟩
        · exact ⟨.inr (hkept x hx).1, (hkept x hx).2⟩
        · exact absurd (.inr hx) hnew
      exact h.request_held ht hle hold.1 hold.2 ha hlt
  · intro x hx a ha hlt
    rw [List.mem_append, List.mem_append] at hx
    by_cases hnew : x ∈ sent
    · exact h.request_stored ht hle hid hinstant hrecorded hnew ha hlt
    · have hold : x ∈ s.mail ++ s.owed ∧ ¬ x.givenUp s.cfg req := by
        rw [List.mem_append]
        rcases hx with hx | hx | hx
        · exact ⟨.inl hx, hkeep x (List.mem_append_right _ hx)⟩
        · exact ⟨.inr (hkept x hx).1, (hkept x hx).2⟩
        · exact absurd hx hnew
      obtain ⟨hdisk, hmem⟩ := hlater.stored x hold.1 a ha hlt
      have hpending : x ∈ s.pending ++ s.owed := by
        rw [World.pending, List.append_assoc]
        exact List.mem_append_right _ hold.1
      exact ⟨hdisk, fun hd => (List.mem_append.mp hd).elim hmem
        (h.request_undeleted ht hle hrecorded hpending hold.2 ha hlt)⟩

end Request

section Restart
variable {cfg : InterfaceConfig} {kept : List (ClientId × Lease)} {pool : Pool}
  {table : ClientId → Option Lease}

/-- The new server serves the same addresses. -/
theorem restart_inRange (h : s.Kept) (hsubnet : cfg.subnet = s.cfg.subnet)
    (hserver : cfg.serverIP = s.cfg.serverIP) (hstarted : Started cfg s.disk now pool table)
    (ip : Addr) : pool.inRange ip = s.pool.inRange ip := by
  obtain ⟨p, hp, hservice⟩ := h.service
  obtain ⟨p', hp', hservice'⟩ := hstarted.service
  rw [hservice.inRange, hservice'.inRange, newPool_eq hp, newPool_eq hp', hsubnet, hserver]
  rfl

/-- What an ACK was sent for is taken from the disk. -/
theorem restart_taken (h : s.Kept) (ht : s.clock ≤ now) (hsubnet : cfg.subnet = s.cfg.subnet)
    (hserver : cfg.serverIP = s.cfg.serverIP) (hstarted : Started cfg s.disk now pool table)
    {x : Outgoing} (hx : x ∈ s.owed) {a : Addr} (ha : x.message.acked = some a)
    (hlt : now < x.expiry) : ∃ l, table x.client = some l ∧ l.ip = a ∧ x.expiry ≤ l.expiry := by
  have hlt' : s.clock < x.expiry := ht.trans_lt hlt
  obtain ⟨⟨l, hl, hip, hle⟩, -⟩ := h.stored x (List.mem_append_right _ hx) a ha hlt'
  obtain ⟨b, hb, hbip, -, -⟩ := h.held x (List.mem_append_right _ hx) a ha hlt'
  have hrange : pool.inRange l.ip = true := by
    rw [h.restart_inRange hsubnet hserver hstarted, hip, ← hbip]
    exact (h.sound.usable _ b hb).1
  refine ⟨l, hstarted.taken _ l hl (hlt.trans_le hle) hrange ?_, hip, hle⟩
  intro c' l' hl' hlive' hip'
  exact h.apart c' x.client l' l hl' hl (ht.trans_lt hlive') (hlt'.trans_le hle) hip'

/-- A server just started, after ACKs whose leases it has taken from the disk. -/
theorem of_started {leases : ClientId → Option Lease} (hstarted : Started cfg leases now pool table)
    (hbrief : ∀ c l, table c = some l → l.expiry ≤ now + cfg.leaseTime) (owed : List Outgoing)
    (htaken : ∀ x ∈ owed, ∀ a, x.message.acked = some a → now < x.expiry →
      ∃ l, table x.client = some l ∧ l.ip = a ∧ x.expiry ≤ l.expiry) :
    World.Kept { cfg := cfg, pool := pool, clock := now, disk := table, queue := [], mail := []
                 owed := owed } := by
  obtain ⟨p, hp, hservice⟩ := hstarted.service
  have hduration : pool.duration = cfg.leaseTime := by
    rw [hservice.duration, newPool_eq hp]
  constructor
  · exact hstarted.service
  · exact hstarted.sound
  · intro c b hb _ hlt
    obtain ⟨l, hl, rfl⟩ := hstarted.bound c b hb
    dsimp only
    rw [hduration]
    exact hbrief c l hl
  · intro c l _
    constructor
    · exact fun hl => (hstarted.kept c l hl).2
    · intro hb
      obtain ⟨l', hl', heq⟩ := hstarted.bound c _ hb
      rw [Lease.toPoolLease_injective heq]
      exact hl'
  · intro c c' l l' hl hl' _ _ hclash
    apply hstarted.sound.inverse.unique (b := l.ip)
    · rw [Pool.address, (hstarted.kept c l hl).2]
      rfl
    · rw [Pool.address, (hstarted.kept c' l' hl').2]
      exact congrArg some hclash.symm
  · trivial
  · trivial
  · intro x hx a ha hlt
    obtain ⟨l, hl, hip, hle⟩ := htaken x (by simpa [World.pending] using hx) a ha hlt
    exact ⟨_, (hstarted.kept _ l hl).2, hip, rfl, hle⟩
  · intro x hx a ha hlt
    exact ⟨htaken x (by simpa using hx) a ha hlt, List.not_mem_nil⟩

theorem restarted (h : s.Kept) (hok : s.Careful (.restart cfg kept now))
    (hstarted : Started cfg s.disk now pool table) :
    World.Kept { cfg := cfg, pool := pool, clock := now, disk := table, queue := [], mail := []
                 owed := s.owed } := by
  obtain ⟨ht, -, hsubnet, hserver, -, hbrief⟩ := hok
  apply of_started hstarted
  · intro c l hl
    obtain ⟨hdisk, hbound⟩ := hstarted.kept c l hl
    exact hbrief c l hdisk (hstarted.live c _ hbound)
  · exact fun x hx a => h.restart_taken ht hsubnet hserver hstarted hx

end Restart

theorem step (s : World) (e : Event) (h : s.Kept) (hok : s.Careful e) : (s.step e).Kept := by
  cases e with
  | request req answered kept =>
    cases req with
    | none =>
      rw [(s.step_unparsed answered kept).2]
      exact h.later (hok.1.trans hok.2.1)
    | some req => exact h.request hok
  | expire now => exact h.expired hok
  | written ok =>
    cases hok
    exact h.written
  | durable i => exact h.durable i
  | restart cfg kept now =>
    rw [World.step]
    split
    · exact h
    case h_2 pool table hstart => exact h.restarted hok (starter_started hstart hok.2.1)

theorem started {s : World} (hs : s.Starts)
    (hbrief : ∀ c l, s.disk c = some l → l.expiry ≤ s.clock + s.cfg.leaseTime) : s.Kept := by
  obtain ⟨cfg, pool, clock, disk, queue, mail, owed⟩ := s
  obtain ⟨leases, kept, hkept, hstart, hqueue, hmail, howed⟩ := hs
  dsimp only at hqueue hmail howed
  rw [hqueue, hmail, howed]
  exact of_started (starter_started hstart hkept) hbrief [] (by simp)

end Kept
end World

theorem newPool_any_duration {subnet : Prefix} {serverIP : Addr} {duration : ℤ} {p : Pool}
    (hp : newPool subnet serverIP duration = .ok p) (d : ℤ) :
    ∃ q, newPool subnet serverIP d = .ok q := by
  simp only [newPool] at hp ⊢
  split at hp
  · cases hp
  case isFalse hbits =>
    split at hp
    · cases hp
    case isFalse hserver => exact ⟨_, by rw [if_neg hbits, if_neg hserver]⟩

/-- A restart on the same addresses succeeds. -/
theorem World.Kept.starter_ok {s : World} (h : s.Kept) {cfg : InterfaceConfig}
    (hsubnet : cfg.subnet = s.cfg.subnet) (hserver : cfg.serverIP = s.cfg.serverIP)
    (kept : List (ClientId × Lease)) (now : ℤ) :
    ∃ pool table, starter cfg s.disk kept now = .ok (pool, table) := by
  obtain ⟨p, hp, -⟩ := h.service
  obtain ⟨q, hq⟩ := newPool_any_duration hp cfg.leaseTime
  rw [starter, hsubnet, hserver, hq]
  exact ⟨_, _, rfl⟩

/-- As long as every step is careful, a server restarted before the end of a lease it sent an
ACK for binds its client to it again, unless the client gave it up; and it brings back no lease
the pool had given up. -/
theorem acked_leases_survive {s : World} (hs : s.Starts)
    (hbrief : ∀ c l, s.disk c = some l → l.expiry ≤ s.clock + s.cfg.leaseTime)
    (events : List Event) (hrun : Along World.step World.Careful s events)
    (cfg : InterfaceConfig) (kept : List (ClientId × Lease)) (now : ℤ)
    (hcrash : (events.foldl World.step s).Careful (.restart cfg kept now)) :
    let before := events.foldl World.step s
    let after := before.step (.restart cfg kept now)
    (∀ x ∈ before.owed, ∀ a, x.message.acked = some a → now < x.expiry →
      after.pool.Holds x.client a x.expiry) ∧
    ∀ c b, after.pool.byClient c = some b → ∃ b', before.pool.byClient c = some b' ∧
      b'.ip = b.ip ∧ b'.state = .committed ∧ b.expiry ≤ b'.expiry := by
  intro before after
  have hkept : before.Kept := hrun.invariant World.Kept.step (World.Kept.started hs hbrief)
  obtain ⟨ht, henum, hsubnet, hserver, hdeletes, -⟩ := hcrash
  obtain ⟨pool, table, hstart⟩ := hkept.starter_ok hsubnet hserver kept now
  have hstarted := starter_started hstart henum
  have hpool : after.pool = pool := by
    simp only [after, World.step, hstart]
  rw [hpool]
  constructor
  · intro x hx a ha hlt
    obtain ⟨l, hl, hip, hle⟩ := hkept.restart_taken ht hsubnet hserver hstarted hx ha hlt
    exact ⟨_, (hstarted.kept _ l hl).2, hip, rfl, hle⟩
  · intro c b hb
    obtain ⟨l, hl, rfl⟩ := hstarted.bound c b hb
    have hlive : before.clock < l.expiry := ht.trans_lt (hstarted.live c _ hb)
    obtain ⟨v, hv, hip, hle⟩ := hkept.ordered.carried (fun l => ⟨rfl, le_rfl⟩)
      (fun u v x huv hvx => ⟨hvx.1.trans huv.1, huv.2.trans hvx.2⟩)
      (fun u v huv hu => lt_of_lt_of_le hu huv.2) (hdeletes c) (hstarted.kept c l hl).1 hlive
    exact ⟨_, (hkept.agree c v (hlive.trans_le hle)).mp hv, hip, rfl, hle⟩

def World.owedLeases (s : World) : List (ClientId × Addr × ℤ) :=
  s.owed.filterMap fun x => x.message.acked.map fun a => (x.client, a, x.expiry)

def storedWorld : World :=
  (acceptingEvents [1] ++ [Event.written true, Event.durable 0]).foldl World.step emptyWorld

def storedLeases : List (ClientId × Lease) := [([1], ⟨0xC0A80102, 3602 * second⟩)]

theorem storedLeases_enumerates : Enumerates storedLeases storedWorld.disk := by
  have hdisk : storedWorld.disk =
      Function.update (fun _ => none) [1] (some ⟨0xC0A80102, 3602 * second⟩) := rfl
  refine ⟨by decide, fun c l => ?_⟩
  rw [hdisk, Function.update_apply]
  by_cases hc : c = [1]
  · simp [storedLeases, hc, eq_comm]
  · simp [storedLeases, hc]

theorem acked_leases_survive_stored :
    storedWorld.owedLeases = [([1], 0xC0A80102, 3602 * second)] ∧
    (storedWorld.step (.restart sampleConfig storedLeases (10 * second))).pool.Holds [1] 0xC0A80102
      (3602 * second) := by
  have howed : storedWorld.owedLeases = [([1], 0xC0A80102, 3602 * second)] := by decide
  have hquiet : ∀ {t : World} {req : Message} {answered kept : ℤ}, t.queue = [] → t.mail = [] →
      req.client ≠ [] → t.clock ≤ answered → answered ≤ kept →
      t.Careful (.request (some req) answered kept) := by
    intro t req answered kept hq hm hid ht hle
    refine ⟨ht, hle, fun m hm' => ?_⟩
    cases hm'
    exact ⟨hid, by simp [hq], by simp [World.pending, hq, hm]⟩
  have hrun : Along World.step World.Careful emptyWorld
      (acceptingEvents [1] ++ [Event.written true, Event.durable 0]) :=
    ⟨hquiet rfl rfl (by decide) (by decide) le_rfl, hquiet rfl rfl (by decide) (by decide) le_rfl,
      rfl, trivial, trivial⟩
  have hcrash : storedWorld.Careful (.restart sampleConfig storedLeases (10 * second)) := by
    refine ⟨by decide, storedLeases_enumerates, rfl, rfl, fun c hc => absurd hc List.not_mem_nil, ?_⟩
    intro c l hl _
    have hmem := (storedLeases_enumerates.mem c l).mpr hl
    cases List.mem_singleton.mp hmem
    decide
  refine ⟨howed, ?_⟩
  have hmem : ([1], 0xC0A80102, 3602 * second) ∈ storedWorld.owedLeases := by
    rw [howed]
    exact List.mem_singleton_self _
  obtain ⟨x, hx, hxa⟩ := List.mem_filterMap.mp hmem
  obtain ⟨a, ha, hxe⟩ := Option.map_eq_some_iff.mp hxa
  obtain ⟨hclient, hip, hexpiry⟩ : x.client = [1] ∧ a = 0xC0A80102 ∧ x.expiry = 3602 * second := by
    simpa using hxe
  rw [← hclient, ← hip, ← hexpiry]
  exact (acked_leases_survive emptyWorld_starts (by simp [emptyWorld]) _ hrun _ _ _ hcrash).1
    x hx a ha (by rw [hexpiry]; decide)

theorem nothing_enumerates : Enumerates [] (fun _ => none) := ⟨List.nodup_nil, by simp⟩

def anonymousWorld : World := (acceptingEvents []).foldl World.step emptyWorld

def repeatedWorld : World :=
  ((acceptingEvents [1]).foldl World.step emptyWorld).step
    (.request (some (requestFrom [1] sampleServer 0xC0A80102)) (2 * second) (2 * second))

def releasedWorld : World :=
  storedWorld.step (.request (some (releaseFrom [1] 0xC0A80102)) (3 * second) (3 * second))

/-- An ACK for a client without an identifier is forgotten at a restart, and so is one sent
again while the first is held back; a lease released is brought back. -/
theorem acks_lost_at_restart :
    (Enumerates [] anonymousWorld.disk ∧
      anonymousWorld.owedLeases = [([], 0xC0A80102, 3602 * second)] ∧
      (anonymousWorld.step (.restart sampleConfig [] (4 * second))).pool.byClient [] = none) ∧
    (Enumerates [] repeatedWorld.disk ∧
      repeatedWorld.owedLeases = [([1], 0xC0A80102, 3602 * second)] ∧
      (repeatedWorld.step (.restart sampleConfig [] (4 * second))).pool.byClient [1] = none) ∧
    (Enumerates storedLeases releasedWorld.disk ∧ releasedWorld.pool.byClient [1] = none ∧
      (releasedWorld.step (.restart sampleConfig storedLeases (4 * second))).pool.byClient [1] =
        some ⟨0xC0A80102, 3602 * second, .committed⟩) :=
  ⟨⟨nothing_enumerates, by decide, by decide⟩, ⟨nothing_enumerates, by decide, by decide⟩,
    ⟨storedLeases_enumerates, by decide, by decide⟩⟩

end Minuteman.Dhcpv4
