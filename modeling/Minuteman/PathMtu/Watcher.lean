import Minuteman.PathMtu.Reporting
import Minuteman.Library.Duration
import Minuteman.Library.TimedServer

/-!
# Applying the path MTU

`internal/tunnelpmtu` polls the learned path MTU and applies it to the
fragmenter and to the companion device. Three places remember what was applied:
the process, which forgets when it is restarted, the tunnel, and the map that
holds the configuration. An update is made where the process remembers another
value, and where the tunnel does.
-/
namespace Minuteman.PathMtu
open Library Datapath Loader

inductive UpdateError
  | readingB4Config
  | settingSoftwireMtu (mtu : ℤ)
  | beforeEnsure
  | settingLinkMtu (mtu : ℤ)
  deriving DecidableEq

def UpdateError.message (cause : String) : UpdateError → String
  | .readingB4Config => "reading B4 config: " ++ cause
  | .settingSoftwireMtu mtu => "setting softwire MTU " ++ toString mtu ++ ": " ++ cause
  | .beforeEnsure => "slowpath: SetSoftwireMTU before Ensure"
  | .settingLinkMtu mtu =>
    "slowpath: setting mm-dslite0 MTU to " ++ toString mtu ++ ": " ++ cause

/-- Which of its two map accesses fails the loader's `SetSoftwireMTU`. -/
structure MapFaults where
  lookup : Bool := false
  put : Bool := false

/-- The loader's `SetSoftwireMTU`, on the value of the configuration map. -/
def setSoftwireMtu (mssClampAuto : Bool) (mtu : ℤ) (faults : MapFaults) (stored : B4Config) :
    Option UpdateError × B4Config :=
  if faults.lookup then (some .readingB4Config, stored)
  else
    let val := { stored with fragUnit := softwireFragUnit mtu }
    let val := if mssClampAuto then { val with mssClamp := autoTcpMssClamp mtu } else val
    if faults.put then (some (.settingSoftwireMtu mtu), stored) else (none, val)

def tunnelOverhead : ℤ := 40
def minSoftwireMtu : ℤ := 1280

def tunnelMtu (softwireMtu : ℤ) : ℤ := max softwireMtu minSoftwireMtu - tunnelOverhead

/-- `slowpath.Tunnel`: the MTU it last set, and the device's index once there is one. -/
structure Tunnel where
  mtu : ℤ
  ifindex : ℕ

/-- What becomes of a request to set a device's MTU. It is carried out, refused, or carried out
without its acknowledgement being read. -/
inductive LinkReply
  | acknowledged
  | refused
  | unread
  deriving DecidableEq

/-- The tunnel's `SetSoftwireMTU`, on a device with the MTU `linkMtu`. -/
def Tunnel.setSoftwireMtu (t : Tunnel) (softwireMtu : ℤ) (reply : LinkReply) (linkMtu : ℤ) :
    Option UpdateError × Tunnel × ℤ :=
  let mtu := tunnelMtu softwireMtu
  if t.ifindex = 0 then (some .beforeEnsure, t, linkMtu)
  else if mtu = t.mtu then (none, t, linkMtu)
  else
    match reply with
    | .acknowledged => (none, { t with mtu }, mtu)
    | .refused => (some (.settingLinkMtu mtu), t, linkMtu)
    | .unread => (some (.settingLinkMtu mtu), t, mtu)

structure WatcherState where
  frag : ℤ := 0
  tunnel : ℤ := 0
  reported : ℤ

def pollInterval : ℤ := 2 * second

inductive PollTimer
  | tick
  deriving DecidableEq

abbrev Effects := List (ServerEffect PollTimer Empty Empty)

def next (after : ℤ) : Effects := [.startTimer .tick after]

def WatcherState.init (wanMtu : ℤ) : WatcherState × Effects := ({ reported := wanMtu }, next 0)

/-- An update the process made, and the error it returned. -/
inductive Update
  | datapath (mtu : ℤ) (error : Option UpdateError)
  | tunnel (mtu : ℤ) (error : Option UpdateError)

namespace Update

inductive Target
  | datapath
  | tunnel
  deriving DecidableEq

def target : Update → Target
  | .datapath _ _ => .datapath
  | .tunnel _ _ => .tunnel

def error : Update → Option UpdateError
  | .datapath _ e => e
  | .tunnel _ e => e

end Update

inductive LogLine
  | fragmenter (mtu : ℤ) (e : UpdateError)
  | tunnel (e : UpdateError)
  | learned (mtu wanMtu : ℤ)
  | backTo (wanMtu : ℤ)

def LogLine.message (cause : String) : LogLine → String
  | .fragmenter mtu e =>
    "softwire path MTU: applying " ++ toString mtu ++ " to the fragmenter: " ++ e.message cause
  | .tunnel e => "softwire path MTU: " ++ e.message cause
  | .learned mtu wanMtu => "softwire path MTU: " ++ toString mtu ++
      " (learned from an ICMPv6 Packet Too Big; WAN MTU is " ++ toString wanMtu ++ ")"
  | .backTo wanMtu => "softwire path MTU: back to the WAN MTU (" ++ toString wanMtu ++ ")"

/-- The process with what it applies the path MTU to: the stored configuration, the tunnel and the
MTU of its device. -/
structure Softwire where
  mssClampAuto : Bool
  config : B4Config
  tunnel : Tunnel
  linkMtu : ℤ
  state : WatcherState

/-- One poll: what `TunnelPMTU` answers, and what becomes of the updates. -/
structure Tick where
  learned : Option UInt32
  faults : MapFaults := {}
  reply : LinkReply := .acknowledged

/-- The path MTU to apply on a poll. -/
def Tick.mtu (t : Tick) (wanMtu : ℤ) : ℤ := effective wanMtu (t.learned.map UInt32.toNat)

namespace Softwire

/-- The first half of `HandleInfo`: the fragmenter. -/
def applyDatapath (mtu : ℤ) (faults : MapFaults) (s : Softwire) : Softwire × List Update :=
  if mtu ≠ s.state.frag then
    let r := PathMtu.setSoftwireMtu s.mssClampAuto mtu faults s.config
    match r.1 with
    | some e => ({ s with config := r.2 }, [.datapath mtu (some e)])
    | none => ({ s with config := r.2, state := { s.state with frag := mtu } }, [.datapath mtu none])
  else (s, [])

/-- The second half: the companion device. -/
def applyTunnel (mtu : ℤ) (reply : LinkReply) (s : Softwire) : Softwire × List Update :=
  if mtu ≠ s.state.tunnel then
    let r := s.tunnel.setSoftwireMtu mtu reply s.linkMtu
    match r.1 with
    | some e => ({ s with tunnel := r.2.1, linkMtu := r.2.2 }, [.tunnel mtu (some e)])
    | none =>
      ({ s with tunnel := r.2.1, linkMtu := r.2.2, state := { s.state with tunnel := mtu } },
        [.tunnel mtu none])
  else (s, [])

def report (wanMtu mtu : ℤ) (s : Softwire) : Softwire × List LogLine :=
  if s.state.frag = mtu ∧ mtu ≠ s.state.reported then
    ({ s with state := { s.state with reported := mtu } },
      if mtu < wanMtu then [.learned mtu wanMtu] else [.backTo wanMtu])
  else (s, [])

def failures (updates : List Update) : List LogLine :=
  updates.filterMap fun
    | .datapath mtu (some e) => some (.fragmenter mtu e)
    | .tunnel _ (some e) => some (.tunnel e)
    | _ => none

structure Handled where
  softwire : Softwire
  updates : List Update := []
  log : List LogLine := []
  effects : Effects := []

def handleTick (wanMtu : ℤ) (s : Softwire) (t : Tick) : Handled :=
  let mtu := t.mtu wanMtu
  let first := s.applyDatapath mtu t.faults
  let second := first.1.applyTunnel mtu t.reply
  let last := second.1.report wanMtu mtu
  { softwire := last.1
    updates := first.2 ++ second.2
    log := failures (first.2 ++ second.2) ++ last.2
    effects := next pollInterval }

/-- `HandleInfo`: only ticks are handled. -/
def handleInfo (wanMtu : ℤ) (s : Softwire) : Option Tick → Handled
  | none => { softwire := s }
  | some t => s.handleTick wanMtu t

end Softwire

/-- What happens to the process: a message, which may be a tick, or a restart. -/
inductive Happens
  | info (t : Option Tick)
  | restart

def Softwire.step (wanMtu : ℤ) (s : Softwire) : Happens → Softwire
  | .info t => (s.handleInfo wanMtu t).softwire
  | .restart => { s with state := (WatcherState.init wanMtu).1 }

/-- What `SetB4Config`, `slowpath.New` and `Ensure` leave for the process to start on. -/
def Softwire.start (cfg : B4ConfigArgs) (ifindex : ℕ) : Softwire where
  mssClampAuto := cfg.tcpMssClamp = -1
  config := b4ConfigOf cfg
  tunnel := ⟨tunnelMtu cfg.wanMtu, ifindex⟩
  linkMtu := tunnelMtu cfg.wanMtu
  state := (WatcherState.init cfg.wanMtu).1

/-- The path MTU `mtu` is in force everywhere it matters. -/
structure Applied (cfg : B4ConfigArgs) (mtu : ℤ) (s : Softwire) : Prop where
  fits : (s.config.fragUnit : ℤ) + 48 ≤ mtu
  aligned : s.config.fragUnit % 8 = 0
  largest : ∀ unit : ℕ, unit % 8 = 0 → (unit : ℤ) + 48 ≤ mtu → unit ≤ s.config.fragUnit
  clamp : cfg.tcpMssClamp = -1 → s.config.mssClamp ≠ 0 → (s.config.mssClamp : ℤ) + 80 ≤ mtu
  pinned : cfg.tcpMssClamp ≠ -1 → s.config.mssClamp = (b4ConfigOf cfg).mssClamp
  device : s.linkMtu = max mtu 1280 - 40
  others : s.config =
    { b4ConfigOf cfg with fragUnit := s.config.fragUnit, mssClamp := s.config.mssClamp }

/-- What is remembered of the last updates is what is in force. -/
structure Remembered (cfg : B4ConfigArgs) (s : Softwire) : Prop where
  auto : s.mssClampAuto = decide (cfg.tcpMssClamp = -1)
  frag : s.state.frag ≠ 0 → s.config.fragUnit = softwireFragUnit s.state.frag
  clamp : cfg.tcpMssClamp = -1 → s.state.frag ≠ 0 →
    s.config.mssClamp = autoTcpMssClamp s.state.frag
  pinned : cfg.tcpMssClamp ≠ -1 → s.config.mssClamp = (b4ConfigOf cfg).mssClamp
  tunnel : s.state.tunnel ≠ 0 → s.tunnel.mtu = tunnelMtu s.state.tunnel
  device : s.linkMtu = s.tunnel.mtu
  others : s.config =
    { b4ConfigOf cfg with fragUnit := s.config.fragUnit, mssClamp := s.config.mssClamp }

section Steps
variable {cfg : B4ConfigArgs} {s : Softwire} {mtu wanMtu : ℤ}

def withMtu (mssClampAuto : Bool) (mtu : ℤ) (stored : B4Config) : B4Config :=
  { stored with
    fragUnit := softwireFragUnit mtu
    mssClamp := if mssClampAuto then autoTcpMssClamp mtu else stored.mssClamp }

theorem setSoftwireMtu_cases (auto : Bool) (mtu : ℤ) (faults : MapFaults) (stored : B4Config) :
    setSoftwireMtu auto mtu faults stored = (none, withMtu auto mtu stored) ∨
      ∃ e, setSoftwireMtu auto mtu faults stored = (some e, stored) := by
  unfold setSoftwireMtu withMtu
  dsimp only
  split
  · exact .inr ⟨_, rfl⟩
  split
  · exact .inr ⟨_, rfl⟩
  · left
    cases auto <;> rfl

/-- The fragmenter's update: not needed, made, or failed without effect. -/
theorem applyDatapath_cases (mtu : ℤ) (faults : MapFaults) (s : Softwire) :
    (s.state.frag = mtu ∧ s.applyDatapath mtu faults = (s, [])) ∨
      (s.state.frag ≠ mtu ∧ s.applyDatapath mtu faults =
        ({ s with
           config := withMtu s.mssClampAuto mtu s.config
           state := { s.state with frag := mtu } }, [.datapath mtu none])) ∨
      (s.state.frag ≠ mtu ∧
        ∃ e, s.applyDatapath mtu faults = (s, [.datapath mtu (some e)])) := by
  unfold Softwire.applyDatapath
  by_cases hneeded : mtu = s.state.frag
  · rw [if_neg (not_not.mpr hneeded)]
    exact .inl ⟨hneeded.symm, rfl⟩
  · rw [if_pos hneeded]
    rcases setSoftwireMtu_cases s.mssClampAuto mtu faults s.config with heq | ⟨e, heq⟩
    · rw [heq]
      exact .inr (.inl ⟨Ne.symm hneeded, rfl⟩)
    · rw [heq]
      exact .inr (.inr ⟨Ne.symm hneeded, e, rfl⟩)

/-- The device's update: not needed, found done, made, or failed; it has no effect if it failed and
its reply was read. -/
theorem applyTunnel_cases (mtu : ℤ) (reply : LinkReply) (s : Softwire) :
    (s.state.tunnel = mtu ∧ s.applyTunnel mtu reply = (s, [])) ∨
      (s.state.tunnel ≠ mtu ∧ s.tunnel.mtu = tunnelMtu mtu ∧ s.applyTunnel mtu reply =
        ({ s with state := { s.state with tunnel := mtu } }, [.tunnel mtu none])) ∨
      (s.state.tunnel ≠ mtu ∧ s.applyTunnel mtu reply =
        ({ s with
           tunnel := { s.tunnel with mtu := tunnelMtu mtu }
           linkMtu := tunnelMtu mtu
           state := { s.state with tunnel := mtu } }, [.tunnel mtu none])) ∨
      (s.state.tunnel ≠ mtu ∧ ∃ e linkMtu, (reply ≠ .unread → linkMtu = s.linkMtu) ∧
        s.applyTunnel mtu reply = ({ s with linkMtu }, [.tunnel mtu (some e)])) := by
  unfold Softwire.applyTunnel
  by_cases hneeded : mtu = s.state.tunnel
  · rw [if_neg (not_not.mpr hneeded)]
    exact .inl ⟨hneeded.symm, rfl⟩
  · rw [if_pos hneeded]
    have hother := Ne.symm hneeded
    unfold Tunnel.setSoftwireMtu
    dsimp only
    by_cases hdevice : s.tunnel.ifindex = 0
    · rw [if_pos hdevice]
      exact .inr (.inr (.inr ⟨hother, _, _, fun _ => rfl, rfl⟩))
    rw [if_neg hdevice]
    by_cases hdone : tunnelMtu mtu = s.tunnel.mtu
    · rw [if_pos hdone]
      exact .inr (.inl ⟨hother, hdone.symm, rfl⟩)
    rw [if_neg hdone]
    cases reply with
    | acknowledged => exact .inr (.inr (.inl ⟨hother, rfl⟩))
    | refused => exact .inr (.inr (.inr ⟨hother, _, _, fun _ => rfl, rfl⟩))
    | unread => exact .inr (.inr (.inr ⟨hother, _, _, fun h => absurd rfl h, rfl⟩))

theorem Remembered.applyDatapath (h : Remembered cfg s) (mtu : ℤ) (faults : MapFaults) :
    Remembered cfg (s.applyDatapath mtu faults).1 := by
  rcases applyDatapath_cases mtu faults s with ⟨-, heq⟩ | ⟨-, heq⟩ | ⟨-, e, heq⟩
  · rw [heq]
    exact h
  · rw [heq]
    refine ⟨h.auto, fun _ => rfl, ?_, ?_, h.tunnel, h.device, ?_⟩
    · intro hauto _
      simp [withMtu, h.auto, hauto]
    · intro hpinned
      simp only [withMtu, h.auto, hpinned, decide_false, Bool.false_eq_true, if_false]
      exact h.pinned hpinned
    · dsimp only [withMtu]
      rw [h.others]
  · rw [heq]
    exact h

theorem Remembered.applyTunnel (h : Remembered cfg s) (mtu : ℤ) {reply : LinkReply}
    (hread : reply ≠ .unread) : Remembered cfg (s.applyTunnel mtu reply).1 := by
  rcases applyTunnel_cases mtu reply s with
    ⟨-, heq⟩ | ⟨-, hdone, heq⟩ | ⟨-, heq⟩ | ⟨-, e, linkMtu, hkept, heq⟩
  · rw [heq]
    exact h
  · rw [heq]
    exact { h with tunnel := fun _ => hdone }
  · rw [heq]
    exact { h with tunnel := fun _ => rfl, device := rfl }
  · rw [heq]
    exact { h with device := (hkept hread).trans h.device }

theorem Remembered.report (h : Remembered cfg s) (wanMtu mtu : ℤ) :
    Remembered cfg (s.report wanMtu mtu).1 := by
  unfold Softwire.report
  split
  · exact { h with }
  · exact h

theorem Remembered.step (h : Remembered cfg s) {happens : Happens}
    (hread : ∀ t, happens = .info (some t) → t.reply ≠ .unread) :
    Remembered cfg (s.step wanMtu happens) := by
  cases happens with
  | restart => exact { h with frag := absurd rfl, clamp := fun _ => absurd rfl, tunnel := absurd rfl }
  | info t =>
    cases t with
    | none => exact h
    | some t =>
      exact ((h.applyDatapath _ t.faults).applyTunnel _ (hread t rfl)).report wanMtu _

theorem Remembered.start (cfg : B4ConfigArgs) (ifindex : ℕ) :
    Remembered cfg (Softwire.start cfg ifindex) :=
  ⟨rfl, absurd rfl, fun _ => absurd rfl, fun _ => rfl, absurd rfl, rfl, rfl⟩

def failedTargets (updates : List Update) : List Update.Target :=
  (updates.filter (·.error.isSome)).map Update.target

theorem applyDatapath_updates (mtu : ℤ) (faults : MapFaults) (s : Softwire) :
    (s.applyDatapath mtu faults).2.map Update.target =
        (if s.state.frag ≠ mtu then [.datapath] else []) ∧
      failedTargets (s.applyDatapath mtu faults).2 =
        (if (s.applyDatapath mtu faults).1.state.frag ≠ mtu then [.datapath] else []) ∧
      (s.applyDatapath mtu faults).1.state.tunnel = s.state.tunnel := by
  rcases applyDatapath_cases mtu faults s with ⟨hfrag, heq⟩ | ⟨hfrag, heq⟩ | ⟨hfrag, e, heq⟩
  · rw [heq, if_neg (not_not.mpr hfrag)]
    exact ⟨rfl, rfl, rfl⟩
  · rw [heq, if_pos hfrag, if_neg (not_not.mpr rfl)]
    exact ⟨rfl, rfl, rfl⟩
  · rw [heq, if_pos hfrag]
    exact ⟨rfl, rfl, rfl⟩

theorem applyTunnel_updates (mtu : ℤ) (reply : LinkReply) (s : Softwire) :
    (s.applyTunnel mtu reply).2.map Update.target =
        (if s.state.tunnel ≠ mtu then [.tunnel] else []) ∧
      failedTargets (s.applyTunnel mtu reply).2 =
        (if (s.applyTunnel mtu reply).1.state.tunnel ≠ mtu then [.tunnel] else []) ∧
      (s.applyTunnel mtu reply).1.state.frag = s.state.frag := by
  rcases applyTunnel_cases mtu reply s with
    ⟨htunnel, heq⟩ | ⟨htunnel, -, heq⟩ | ⟨htunnel, heq⟩ | ⟨htunnel, e, linkMtu, -, heq⟩
  · rw [heq, if_neg (not_not.mpr htunnel)]
    exact ⟨rfl, rfl, rfl⟩
  · rw [heq, if_pos htunnel, if_neg (not_not.mpr rfl)]
    exact ⟨rfl, rfl, rfl⟩
  · rw [heq, if_pos htunnel, if_neg (not_not.mpr rfl)]
    exact ⟨rfl, rfl, rfl⟩
  · rw [heq, if_pos htunnel]
    exact ⟨rfl, rfl, rfl⟩

def pending (s : Softwire) (mtu : ℤ) : List Update.Target :=
  (if s.state.frag ≠ mtu then [.datapath] else []) ++
    (if s.state.tunnel ≠ mtu then [.tunnel] else [])

/-- A tick makes the pending updates; those that fail stay pending. -/
theorem handleTick_updates (wanMtu : ℤ) (s : Softwire) (t : Tick) :
    (s.handleTick wanMtu t).updates.map Update.target = pending s (t.mtu wanMtu) ∧
      failedTargets (s.handleTick wanMtu t).updates =
        pending (s.handleTick wanMtu t).softwire (t.mtu wanMtu) := by
  have hreport : ∀ (y : Softwire) (mtu : ℤ), pending (y.report wanMtu mtu).1 mtu = pending y mtu := by
    intro y mtu
    unfold Softwire.report
    split
    · rfl
    · rfl
  unfold Softwire.handleTick
  dsimp only
  rw [hreport, failedTargets, List.filter_append, List.map_append, List.map_append]
  obtain ⟨hmade, hfailed, hkept⟩ := applyDatapath_updates (t.mtu wanMtu) t.faults s
  obtain ⟨hmade', hfailed', hkept'⟩ := applyTunnel_updates (t.mtu wanMtu) t.reply
    (s.applyDatapath (t.mtu wanMtu) t.faults).1
  rw [hkept] at hmade'
  rw [failedTargets] at hfailed hfailed'
  constructor
  · rw [hmade, hmade', pending]
  · rw [hfailed, hfailed', pending, hkept']

theorem pending_eq_nil : pending s mtu = [] ↔ s.state.frag = mtu ∧ s.state.tunnel = mtu := by
  rw [pending, List.append_eq_nil_iff]
  constructor
  · rintro ⟨hfrag, htunnel⟩
    exact ⟨by_contra fun h => by simp [h] at hfrag, by_contra fun h => by simp [h] at htunnel⟩
  · rintro ⟨rfl, htunnel⟩
    simp [htunnel]

end Steps

section Arithmetic
variable {mtu : ℤ}

theorem softwireFragUnit_spec (hmin : 1280 ≤ mtu) (hmax : mtu < 2 ^ 32) :
    (softwireFragUnit mtu : ℤ) + 48 ≤ mtu ∧ softwireFragUnit mtu % 8 = 0 ∧
      ∀ unit : ℕ, unit % 8 = 0 → (unit : ℤ) + 48 ≤ mtu → unit ≤ softwireFragUnit mtu := by
  have hunit : softwireFragUnit mtu = (mtu - 48).toNat / 8 * 8 := by
    rw [softwireFragUnit, if_neg (by omega), Nat.mod_eq_of_lt (by omega)]
  rw [hunit]
  refine ⟨by omega, by omega, ?_⟩
  intro unit hunit hfits
  omega

theorem autoTcpMssClamp_fits (hmin : 1280 ≤ mtu) (hmax : mtu < 2 ^ 32) :
    (autoTcpMssClamp mtu : ℤ) + 80 ≤ mtu := by
  rw [autoTcpMssClamp, if_neg (by omega), Nat.mod_eq_of_lt (by omega)]
  omega

theorem Tick.mtu_bounds {t : Tick} {wanMtu : ℤ} (hmin : 1280 ≤ wanMtu) (hmax : wanMtu < 2 ^ 32)
    (hread : ∀ reading, t.learned = some reading → 1280 ≤ reading.toNat) :
    1280 ≤ t.mtu wanMtu ∧ t.mtu wanMtu < 2 ^ 32 := by
  unfold Tick.mtu effective
  cases hlearned : t.learned with
  | none => exact ⟨hmin, hmax⟩
  | some reading =>
    have hreading := hread reading hlearned
    simp only [Option.map_some]
    split
    · omega
    · exact ⟨hmin, hmax⟩

end Arithmetic

/-- What is remembered as applied is applied. -/
theorem Remembered.applied {cfg : B4ConfigArgs} {s : Softwire} {mtu : ℤ} (h : Remembered cfg s)
    (hmin : 1280 ≤ mtu) (hmax : mtu < 2 ^ 32) (htaken : pending s mtu = []) :
    Applied cfg mtu s := by
  obtain ⟨rfl, htunnel⟩ := pending_eq_nil.mp htaken
  have hknown : s.state.frag ≠ 0 := by omega
  obtain ⟨hfits, haligned, hlargest⟩ := softwireFragUnit_spec hmin hmax
  rw [← h.frag hknown] at hfits haligned hlargest
  refine ⟨hfits, haligned, hlargest, ?_, h.pinned, ?_, h.others⟩
  · intro hauto _
    rw [h.clamp hauto hknown]
    exact autoTcpMssClamp_fits hmin hmax
  · rw [h.device, h.tunnel (by rw [htunnel]; exact hknown), htunnel]
    rfl

/-- No request to set the device's MTU is carried out without its acknowledgement being read. -/
def Acknowledged (happens : Happens) : Prop :=
  ∀ t, happens = .info (some t) → t.reply ≠ .unread

/-- The learned path MTU is at least the IPv6 minimum. -/
def ReadsMtu (happens : Happens) : Prop :=
  ∀ t, happens = .info (some t) → ∀ reading, t.learned = some reading → 1280 ≤ reading.toNat

/-- After a tick whose updates succeed the path MTU is in force, and on the next tick with the same
path MTU the updates that failed are made again, and no others. -/
theorem pathMtu_applied (cfg : B4ConfigArgs) (wan : UInt32) (hwan : cfg.wanMtu = wan.toNat)
    (hmin : 1280 ≤ cfg.wanMtu) (ifindex : ℕ) (events : List Happens) (t : Tick)
    (hread : ∀ happens ∈ events ++ [.info (some t)], ReadsMtu happens)
    (hack : ∀ happens ∈ events ++ [.info (some t)], Acknowledged happens) :
    let s := events.foldl (Softwire.step cfg.wanMtu) (.start cfg ifindex)
    let r := s.handleTick cfg.wanMtu t
    ((∀ u ∈ r.updates, u.error = none) → Applied cfg (t.mtu cfg.wanMtu) r.softwire) ∧
      ∀ t' : Tick, t'.mtu cfg.wanMtu = t.mtu cfg.wanMtu →
        (r.softwire.handleTick cfg.wanMtu t').updates.map Update.target =
          failedTargets r.updates := by
  intro s r
  have hmax : cfg.wanMtu < 2 ^ 32 := by
    rw [hwan]
    exact_mod_cast wan.toNat_lt
  rw [List.forall_mem_append, List.forall_mem_singleton] at hread hack
  obtain ⟨hlow, hhigh⟩ := Tick.mtu_bounds hmin hmax (hread.2 t rfl)
  obtain ⟨-, hfailed⟩ := handleTick_updates cfg.wanMtu s t
  constructor
  · intro hsucceeded
    have hremembered : Remembered cfg s :=
      List.foldlRecOn events _ (Remembered.start cfg ifindex)
        fun _ hs happens hmem => hs.step (hack.1 happens hmem)
    have hafter : Remembered cfg r.softwire :=
      @Remembered.step cfg s _ hremembered (.info (some t)) hack.2
    refine hafter.applied hlow hhigh (hfailed.symm.trans ?_)
    rw [failedTargets, List.filter_eq_nil_iff.mpr, List.map_nil]
    intro u hu
    rw [hsucceeded u hu]
    decide
  · intro t' ht'
    rw [(handleTick_updates cfg.wanMtu r.softwire t').1, ht']
    exact hfailed.symm

section Sample

def wideArgs : B4ConfigArgs := { docConfig with wanMtu := 1500, tcpMssClamp := -1 }

def nothingLearned : Tick := { learned := none }

theorem pathMtu_applied_narrow :
    let s := [Happens.info (some nothingLearned)].foldl (Softwire.step 1500) (.start wideArgs 7)
    let r := s.handleTick 1500 { learned := some 1400 }
    r.softwire.linkMtu = 1360 ∧ Applied wideArgs 1400 r.softwire := by
  refine ⟨by decide +kernel, (pathMtu_applied wideArgs 1500 rfl (by decide) 7
    [.info (some nothingLearned)] { learned := some 1400 } ?_ ?_).1 (by decide +kernel)⟩
  · intro happens hmem t ht reading hreading
    subst ht
    simp only [List.cons_append, List.nil_append, List.mem_cons, Happens.info.injEq,
      Option.some.injEq, List.not_mem_nil, or_false] at hmem
    rcases hmem with rfl | rfl
    · cases hreading
    · cases hreading
      decide
  · intro happens hmem t ht
    subst ht
    simp only [List.cons_append, List.nil_append, List.mem_cons, Happens.info.injEq,
      Option.some.injEq, List.not_mem_nil, or_false] at hmem
    rcases hmem with rfl | rfl
    · decide
    · decide

/-- The device is narrowed, but the acknowledgement is not read; when the path is wide again, the
process and the tunnel remember the wide MTU and leave the device narrow. -/
theorem unread_reply_strands_device :
    let s := [Happens.info (some nothingLearned),
      .info (some { learned := some 1400, reply := .unread })].foldl (Softwire.step 1500)
        (.start wideArgs 7)
    let r := s.handleTick 1500 nothingLearned
    (∀ u ∈ r.updates, u.error = none) ∧ r.softwire.linkMtu = 1360 ∧
      max (nothingLearned.mtu 1500) 1280 - 40 = 1460 := by
  decide +kernel

end Sample

end Minuteman.PathMtu
