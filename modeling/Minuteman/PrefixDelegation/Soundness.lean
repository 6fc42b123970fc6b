import Minuteman.PrefixDelegation.Tree

/-!
# The leases passed on

Every lease that reaches the process that applies them was granted by a Reply
with an acceptable IA_PD, so it has a prefix. The leases passed on are only ever
added to, and the one the LAN is on changes only as another is applied.
-/
namespace Minuteman.PrefixDelegation
open Library Dhcpv6

def Lease.Sound (lease : Lease) : Prop :=
  ∃ now serverID iapd dnsServers, iapd.Acceptable ∧ lease = newLease now serverID iapd dnsServers

theorem Lease.Sound.first {lease : Lease} (h : lease.Sound) :
    ∃ p rest, lease.prefixes = p :: rest ∧ p.preferredLifetime ≤ p.validLifetime := by
  obtain ⟨now, serverID, iapd, dnsServers, hacceptable, rfl⟩ := h
  obtain ⟨p, rest, hcons⟩ := List.exists_cons_of_ne_nil hacceptable.nonempty
  exact ⟨p, rest, hcons, hacceptable.ordered p (hcons ▸ List.mem_cons_self)⟩

theorem Exchanging.answered_sound {now : ℤ} {e : Exchanging} {reply : Message} {lease : Lease}
    (h : e.answered now reply = .done (.ok lease)) : lease.Sound := by
  obtain ⟨iapd, serverID, husable, rfl⟩ := Exchanging.answered_lease h
  obtain ⟨offered, hu⟩ := usableIAPD_ok husable
  exact ⟨_, _, iapd, _, hu.acceptable, rfl⟩

/-- The leases the process has yet to take up, and those it passed on, were granted. -/
structure World.Sound (w : World) : Prop where
  waiting : ∀ lease, .ok lease ∈ w.leaser.waiting → lease.Sound
  applied : ∀ lease ∈ w.applied, lease.Sound

namespace World.Sound
variable {clientID : Duid} {w : World}

theorem congr {w' : World} (h : w.Sound) (hleaser : w'.leaser = w.leaser)
    (happlied : w'.applied = w.applied) : w'.Sound where
  waiting := by rw [hleaser]; exact h.waiting
  applied := by rw [happlied]; exact h.applied

theorem advance (h : w.Sound) (e : Exchanging) (outcome : Except ExchangeError Message) :
    (w.advance clientID e outcome).Sound := by
  rw [World.advance]
  split
  · exact h.congr rfl rfl
  · next r hnext =>
    refine ⟨fun lease hlease => ?_, h.applied⟩
    rw [Process.waiting_arrive] at hlease
    rcases List.mem_append.mp hlease with hold | hnew
    · exact h.waiting lease hold
    · cases List.mem_singleton.mp hnew
      rw [Exchanging.next] at hnext
      split at hnext
      · exact Exchanging.answered_sound hnext
      · cases e <;> cases hnext

theorem conclude {r : Leaser.Result} (h : w.Sound) (hpost : ∀ effect ∈ r.2.2, effect ≠ .postpone)
    (hout : ∀ lease, .out (.applied lease) ∈ r.2.2 → lease.Sound) :
    (w.conclude clientID r).Sound := by
  rw [World.conclude]
  have hstart : World.Sound { w with leaser := w.leaser.conclude w.service.now none r } := by
    refine ⟨fun lease hlease => ?_, h.applied⟩
    rw [Process.conclude_waiting hpost] at hlease
    exact h.waiting lease hlease
  refine List.foldlRecOn (motive := World.Sound) _ _ hstart ?_
  intro w hw out hmem
  cases out with
  | exchange e => exact hw.congr rfl rfl
  | applied lease =>
    refine ⟨hw.waiting, List.forall_mem_cons.mpr ⟨?_, hw.applied⟩⟩
    obtain ⟨effect, heffect, hsome⟩ := List.mem_filterMap.mp hmem
    cases effect with
    | out o =>
      cases hsome
      exact hout lease heffect
    | _ => cases hsome
  | stop err => exact hw.congr rfl rfl

theorem handled {occurrence : Occurrence (Except LeaseError Lease) LeaserTimer} (h : w.Sound)
    (hgranted : ∀ lease, occurrence = .event (.ok lease) → lease.Sound) :
    (w.conclude clientID
      (Leaser.handleEvent w.leaser.phase w.leaser.data occurrence)).Sound := by
  cases occurrence with
  | timeout msg =>
    cases msg
    rw [Leaser.handleEvent]
    split_ifs
    · exact h.conclude (by simp) (by simp)
    · exact h.conclude (by simp) (by simp)
  | event r =>
    cases r with
    | ok lease =>
      refine h.conclude (by simp [Leaser.handleEvent, Leaser.bound]) fun lease' hmem => ?_
      have heq : lease' = lease := by simpa [Leaser.handleEvent, Leaser.bound] using hmem
      exact heq ▸ hgranted lease rfl
    | error err =>
      dsimp only [Leaser.handleEvent]
      split
      · exact h.conclude (by simp) (by simp)
      · exact h.conclude (by simp) (by simp)
      · exact h.conclude (by simp) (by simp)
      · exact h.conclude (by simp) (by simp)

theorem step (h : w.Sound) (ev : World.Event) : (w.step clientID ev).Sound := by
  cases ev with
  | service ev =>
    rw [World.step]
    split_ifs
    · have hserved : World.Sound { w with service := w.service.step clientID ev } :=
        h.congr rfl rfl
      rw [World.settle]
      split
      · exact hserved
      · split
        · exact hserved
        · exact hserved.advance _ _
    · exact h
  | deadline =>
    rw [World.step]
    split
    · split
      · split_ifs
        · exact h.advance _ _
        · exact h
      · exact h
    · exact h
  | renewNow =>
    rw [World.step]
    split
    · next due msg htimeout =>
      split_ifs
      · have hwait : World.Sound { w with leaser := { w.leaser with timeout := none } } :=
          ⟨h.waiting, h.applied⟩
        exact hwait.handled fun lease heq => by cases heq
      · exact h
    · exact h
  | result =>
    rw [World.step]
    split
    · exact h
    · next r mailbox hmailbox =>
      have hmem : ∀ r', r' ∈ w.leaser.postponed ++ mailbox → r' ∈ w.leaser.waiting := by
        intro r' hr'
        rw [Process.waiting, hmailbox]
        exact (List.append_sublist_append_left _ |>.mpr (List.sublist_cons_self r mailbox)).subset
          hr'
      have hwait : World.Sound { w with leaser := { w.leaser with mailbox := mailbox } } :=
        ⟨fun lease hlease => h.waiting lease (hmem _ hlease), h.applied⟩
      refine hwait.handled fun lease heq => h.waiting lease ?_
      cases heq
      rw [Process.waiting, hmailbox]
      exact List.mem_append_right _ List.mem_cons_self
  | clientFails =>
    rw [World.step]
    dsimp only
    split
    · apply World.Sound.advance
      exact h.congr rfl rfl
    · exact h.congr rfl rfl

end World.Sound

namespace Tree
variable {clientID : Duid} {initial : Lease} {t : Tree}

/-- Every lease that is passed on was granted. -/
theorem sound_step (h : t.world.Sound) (act : Action) :
    (t.step clientID initial act).world.Sound := by
  have hdown : ∀ w : World, w.Sound → w.down.Sound := fun w hw =>
    ⟨fun lease hlease => (by cases hlease), hw.applied⟩
  cases act with
  | world ev =>
    rw [Tree.step]
    split_ifs
    · exact hdown _ (h.step ev)
    · exact h.step ev
  | crash =>
    rw [Tree.step]
    split_ifs
    · exact hdown _ h
    · exact h
  | restart =>
    rw [Tree.step]
    split_ifs
    · exact h
    · exact ⟨fun lease hlease => (by cases hlease), h.applied⟩
  | apply =>
    rw [Tree.step]
    split_ifs
    · exact h
    · exact h
  | applyCrash => exact h
  | shutdown =>
    rw [Tree.step]
    split_ifs
    · apply hdown
      rw [Tree.terminate]
      split_ifs
      · exact h.congr rfl rfl
      · exact h
    · exact h

/-- The leases passed on stay, and the LAN's changes only as one is applied. -/
theorem Kept.casts_step (h : Kept initial t) (act : Action) :
    t.casts <+: (t.step clientID initial act).casts := by
  cases act with
  | world ev =>
    have hworld : t.casts <+: (t.world.step clientID ev).applied.reverse := by
      cases hrun : t.running with
      | true =>
        have hmoves : Moves t.world.keeping ev (t.world.step clientID ev).keeping :=
          World.step_moves (h.waits hrun) h.postponed ev
        exact ⟨_, hmoves.casts.symm⟩
      | false =>
        obtain ⟨htimeout, hmailbox, htask⟩ := h.idle hrun
        obtain ⟨hkeeping, -⟩ := @World.step_idle clientID _ htimeout hmailbox htask ev
        have happlied : (t.world.step clientID ev).applied = t.world.applied :=
          congrArg Keeping.applied hkeeping
        rw [happlied]
        exact List.prefix_rfl
    rw [Tree.step]
    split_ifs
    · exact hworld
    · exact hworld
  | crash | restart | apply =>
    rw [Tree.step]
    split_ifs <;> exact List.prefix_rfl
  | applyCrash => exact List.prefix_rfl
  | shutdown =>
    rw [Tree.step]
    split_ifs
    · rw [Tree.terminate]
      split_ifs <;> exact List.prefix_rfl
    · exact List.prefix_rfl

/-- The lease the apply process is handed next. -/
def applies (t : Tree) : Action → Option Lease
  | .apply => t.casts[t.handled]?
  | _ => none

theorem applies_eq {act : Action} {lease : Lease} (h : t.applies act = some lease) :
    act = .apply ∧ t.casts[t.handled]? = some lease := by
  cases act with
  | apply => exact ⟨rfl, h⟩
  | _ => cases h

theorem lan_applied {lease : Lease} (h : t.casts[t.handled]? = some lease) :
    (t.step clientID initial .apply).lan initial = lease := by
  obtain ⟨hlt, -⟩ := List.getElem?_eq_some_iff.mp h
  rw [casts, List.length_reverse] at hlt
  rw [Tree.step, if_pos hlt, lan, List.getD_eq_getElem?_getD]
  exact congrArg (fun l => l.getD initial) h

theorem Kept.lan_step (h : Kept initial t) {act : Action} (hnone : t.applies act = none) :
    (t.step clientID initial act).lan initial = t.lan initial := by
  have hcurrent : (t.step clientID initial act).current = t.current := by
    cases act with
    | world | crash | restart =>
      rw [Tree.step]
      split_ifs <;> rfl
    | apply =>
      have hle : t.casts.length ≤ t.handled := List.getElem?_eq_none_iff.mp hnone
      rw [casts, List.length_reverse] at hle
      rw [Tree.step, if_neg (by omega)]
    | applyCrash => rfl
    | shutdown =>
      rw [Tree.step]
      split_ifs
      · rw [Tree.terminate]
        split_ifs <;> rfl
      · rfl
  obtain ⟨added, hadded⟩ : t.casts <+: (t.step clientID initial act).casts := h.casts_step act
  have hle : t.current < (initial :: t.casts).length := by
    have hbound := h.applied
    rw [List.length_cons, casts, List.length_reverse]
    omega
  rw [lan, lan, hcurrent, ← hadded, ← List.cons_append, List.getD_eq_getElem?_getD,
    List.getD_eq_getElem?_getD, List.getElem?_append_left hle]

end Tree
end Minuteman.PrefixDelegation
