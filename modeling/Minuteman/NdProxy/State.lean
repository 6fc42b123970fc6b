import Minuteman.Library.ByteString
import Minuteman.Library.Duration
import Minuteman.Library.FiniteMap

/-!
# The decisions of the ND proxy

`pkg/ndproxy/state.go`: which targets are being probed on the LAN side, which
are confirmed, and what a solicitation, an advertisement or a sweep comes to.
-/
namespace Minuteman.NdProxy
open Library

abbrev Addr := FixedBytes 16

def maxMulticastSolicit : ℕ := 3
def probeRetransTimer : ℤ := second
def activeTTL : ℤ := 5 * 60 * second

structure PendingProbe where
  attempts : ℕ
  nextProbe : ℤ
  solicitor : Addr

structure ActiveEntry where
  iface : String
  confirmedAt : ℤ

structure Reply where
  target : Addr
  solicitor : Addr
  iface : String

structure Expired where
  target : Addr
  iface : String
  deriving DecidableEq

structure State where
  pending : FiniteMap Addr PendingProbe
  active : FiniteMap Addr ActiveEntry

def newState : State := ⟨.empty, .empty⟩

def ActiveEntry.fresh (a : ActiveEntry) (now : ℤ) : Bool := now - a.confirmedAt < activeTTL

namespace State

/-- `OnWANSolicit`: the state, the reply and whether to probe. -/
def onWANSolicit (s : State) (now : ℤ) (target solicitor : Addr) : State × Option Reply × Bool :=
  match (s.active.get target).filter (·.fresh now) with
  | some a => (s, some ⟨target, solicitor, a.iface⟩, false)
  | none =>
    match s.pending.get target with
    | some p => ({ s with pending := s.pending.set target { p with solicitor } }, none, false)
    | none =>
      ({ s with pending := s.pending.set target ⟨1, now + probeRetransTimer, solicitor⟩ },
        none, true)

/-- `OnLANAdvert`: no reply if no probe is pending. -/
def onLANAdvert (s : State) (now : ℤ) (iface : String) (target : Addr) : State × Option Reply :=
  match s.pending.get target with
  | none => (s, none)
  | some p =>
    (⟨s.pending.erase target, s.active.set target ⟨iface, now⟩⟩, some ⟨target, p.solicitor, iface⟩)

/-- What a sweep makes of a probe: left alone, given up or sent again. -/
def sweptProbe (now : ℤ) (p : PendingProbe) : Option PendingProbe :=
  if now < p.nextProbe then some p
  else if p.attempts ≥ maxMulticastSolicit then none
  else some { p with attempts := p.attempts + 1, nextProbe := now + probeRetransTimer }

def retransmits (now : ℤ) (p : PendingProbe) : Bool :=
  !(now < p.nextProbe) && !(p.attempts ≥ maxMulticastSolicit)

structure Swept where
  state : State
  retransmit : List Addr
  gaveUp : List Addr
  expired : List Expired

def sweep (s : State) (now : ℤ) : Swept where
  state :=
    { pending := s.pending.sweep fun _ p => sweptProbe now p
      active := s.active.sweep fun _ a => if a.fresh now then some a else none }
  retransmit := s.pending.keysWith (retransmits now)
  gaveUp := s.pending.keysWith fun p => (sweptProbe now p).isNone
  expired := (s.active.keysWith fun a => !a.fresh now).filterMap fun target =>
    (s.active.get target).map fun a => ⟨target, a.iface⟩

theorem sweep_active {s : State} {now : ℤ} {target : Addr} {a : ActiveEntry} :
    (s.sweep now).state.active.get target = some a ↔
      s.active.get target = some a ∧ a.fresh now = true := by
  rw [sweep, FiniteMap.get_sweep]
  cases s.active.get target with
  | none => simp
  | some old =>
    simp only [Option.bind_some, Option.some.injEq]
    split_ifs with hfresh
    · constructor
      · rintro ⟨⟩
        exact ⟨rfl, hfresh⟩
      · rintro ⟨rfl, -⟩
        rfl
    · constructor
      · rintro ⟨⟩
      · rintro ⟨rfl, hfresh'⟩
        exact absurd hfresh' hfresh

theorem mem_expired {s : State} {now : ℤ} {e : Expired} :
    e ∈ (s.sweep now).expired ↔
      ∃ a, s.active.get e.target = some a ∧ a.fresh now = false ∧ a.iface = e.iface := by
  simp only [sweep, List.mem_filterMap, FiniteMap.mem_keysWith, Option.map_eq_some_iff]
  constructor
  · rintro ⟨target, ⟨a, ha, hstale⟩, a', ha', rfl⟩
    cases ha.symm.trans ha'
    exact ⟨a, ha, by simpa using hstale, rfl⟩
  · rintro ⟨a, ha, hstale, hiface⟩
    exact ⟨e.target, ⟨a, ha, by simpa using hstale⟩, a, ha, by rw [hiface]⟩

end State

end Minuteman.NdProxy
