import Minuteman.Datapath.Headers
import Minuteman.Library.BoundedMap

/-!
# The datapath's maps

The BPF maps shared by the XDP programs and the user-space loader. The maps
that only user space writes are grouped apart from those that packets update,
so that "a packet leaves the configuration alone" is one equation.
-/
namespace Minuteman.Datapath
open Library

/-- `struct b4_config`. The stored copy leaves both addresses zero. -/
structure B4Config where
  b4Addr : In6Addr := default
  aftrAddr : In6Addr := default
  srcMac : Mac := default
  dstMac : Mac := default
  wanIfindex : ℕ := 0
  fragUnit : ℕ := 0
  fragMaxInner : ℕ := 0
  mssClamp : ℕ := 0

/-- `struct next_hop`: one softwire endpoint pair. -/
structure NextHop where
  valid : Bool := false
  b4Addr : In6Addr := default
  aftrAddr : In6Addr := default
  deriving DecidableEq

def NextHop.pair (nh : NextHop) : In6Addr × In6Addr := (nh.b4Addr, nh.aftrAddr)

def numNextHops : ℕ := 2

/-- `struct lan_config`; the gateway address is in host byte order. -/
structure LanConfig where
  gatewayIp : UInt32
  innerMtu : ℕ := 0

structure TunnelPmtu where
  mtu : ℕ := 0
  updatedNs : ℕ := 0
  deriving DecidableEq

/-- `struct fanout_config` and `struct ipv6_rss_config`. -/
structure FanoutConfig where
  enabled : Bool := false
  cpuCount : ℕ := 0

/-- `struct flow_key`, always in LAN-to-Internet orientation. -/
structure FlowKey where
  src : UInt32
  dst : UInt32
  sport : UInt16
  dport : UInt16
  proto : UInt8
  deriving DecidableEq

structure FlowAffinity where
  lastSeenNs : ℕ
  epoch : ℕ
  deriving DecidableEq

def maxFlowAffinity : ℕ := 65536

abbrev FlowTable := BoundedMap FlowKey FlowAffinity maxFlowAffinity

structure IcmpRateBucket where
  lastRefillNs : ℕ := 0
  tokens : ℕ := 0

inductive StatId
  | pass
  | drop
  | abort
  | encap
  | decap
  | mtuDrop
  | noConfig
  | noLanConfig
  | bypass
  | fibSuccess
  | fibNoNeigh
  | fibFail
  | fibWrongIf
  | decapPass
  | decapNotDslite
  | decapBadPacket
  | decapSlow
  | redirectWan
  | redirectLan
  | icmpFragNeeded
  | ipv6Fwd
  | ipv6Pass
  | ipv6RssRedirect
  | icmpRateLimited
  | affinityInsert
  | affinityInsertFail
  | affinityPinned
  | encapFragSlow
  | decapFragSlow
  | decapReasmPass
  | decapMartian
  | encapFragXdp
  | encapFragSeg
  | icmpTimeExceeded
  | tunnelIcmpRelay
  | tunnelIcmpPass
  | tunnelIcmpDrop
  | tunnelPmtu
  | mssClamped
  deriving DecidableEq

/-- The maps that only user space writes. -/
structure LoaderMaps where
  b4Config : B4Config := {}
  nextHops : ℕ → NextHop := fun _ => {}
  migrationCtrl : ℕ := 0
  lanConfigs : ℕ → Option LanConfig := fun _ => none
  txPorts : ℕ → Bool := fun _ => false
  fragPorts : ℕ → Option ℕ := fun _ => none
  fanoutConfig : FanoutConfig := {}
  fanoutCpus : ℕ → ℕ := fun _ => 0
  cpuMap : ℕ → Bool := fun _ => false
  ipv6RssConfig : FanoutConfig := {}
  ipv6RssCpus : ℕ → ℕ := fun _ => 0
  cpuMapV6 : ℕ → Bool := fun _ => false

/-- All maps. The rate buckets are per CPU; a counter is summed over the CPUs. -/
structure Maps extends LoaderMaps where
  tunnelPmtus : ℕ → TunnelPmtu := fun _ => {}
  flowAffinity : FlowTable := BoundedMap.empty
  icmpErrorRate : ℕ → IcmpRateBucket := fun _ => {}
  stats : StatId → ℕ := fun _ => 0

def Maps.zeroed : Maps := {}

namespace Maps

def increaseStatsCount (m : Maps) (idx : StatId) : Maps :=
  { m with stats := Function.update m.stats idx (m.stats idx + 1) }

/-- `get_next_hop`: the array has `NUM_NEXT_HOPS` entries. -/
def getNextHop (m : Maps) (slot : ℕ) : Option NextHop :=
  if slot < numNextHops then some (m.nextHops slot) else none

def getLanConfig (m : Maps) (ifindex : ℕ) : Option LanConfig := m.lanConfigs ifindex

def getMigrationCtrl (m : Maps) : ℕ := m.migrationCtrl

@[simp] theorem increaseStatsCount_toLoaderMaps (m : Maps) (idx : StatId) :
    (m.increaseStatsCount idx).toLoaderMaps = m.toLoaderMaps := rfl

@[simp] theorem increaseStatsCount_flowAffinity (m : Maps) (idx : StatId) :
    (m.increaseStatsCount idx).flowAffinity = m.flowAffinity := rfl

theorem increaseStatsCount_stats_of_ne (m : Maps) {idx other : StatId} (h : other ≠ idx) :
    (m.increaseStatsCount idx).stats other = m.stats other := by
  simp [increaseStatsCount, h]

end Maps

def migSteady : ℕ := 0
def migPriming : ℕ := 1
def migDraining : ℕ := 2

theorem migSteady_ne_migPriming : migSteady ≠ migPriming := by decide
theorem migSteady_ne_migDraining : migSteady ≠ migDraining := by decide
theorem migPriming_ne_migDraining : migPriming ≠ migDraining := by decide

/-- `mig_active_slot`: the low byte of the control word. -/
def migActiveSlot (ctrl : ℕ) : ℕ := ctrl &&& 0xff

def migOldSlot (ctrl : ℕ) : ℕ := (ctrl >>> 8) &&& 0xff

def migState (ctrl : ℕ) : ℕ := (ctrl >>> 16) &&& 0xff

def migEpoch (ctrl : ℕ) : ℕ := (ctrl >>> 24) &&& 0xff

structure MigrationCtrl where
  activeSlot : ℕ
  oldSlot : ℕ
  state : ℕ
  epoch : ℕ
  deriving DecidableEq

/-- `migrationCtrl.pack`: the 32-bit word, each field masked to its byte. -/
def MigrationCtrl.pack (c : MigrationCtrl) : ℕ :=
  (c.activeSlot &&& 0xff) ||| ((c.oldSlot &&& 0xff) <<< 8) ||| ((c.state &&& 0xff) <<< 16) |||
    ((c.epoch &&& 0xff) <<< 24)

def unpackMigrationCtrl (v : ℕ) : MigrationCtrl where
  activeSlot := v &&& 0xff
  oldSlot := (v >>> 8) &&& 0xff
  state := (v >>> 16) &&& 0xff
  epoch := (v >>> 24) &&& 0xff

def Maps.ctrl (m : Maps) : MigrationCtrl := unpackMigrationCtrl m.migrationCtrl

private theorem byte_mask (n : ℕ) : n &&& 0xff = n % 256 := Nat.and_two_pow_sub_one_eq_mod n 8

private theorem or_shiftLeft {a b k : ℕ} (h : a < 2 ^ k) : a ||| b <<< k = a + 2 ^ k * b := by
  rw [Nat.or_comm, Nat.shiftLeft_eq, Nat.mul_comm, ← Nat.two_pow_add_eq_or_of_lt h, Nat.add_comm]

/-- The four fields lie in disjoint bytes of the word. -/
theorem MigrationCtrl.pack_eq (c : MigrationCtrl) :
    c.pack = c.activeSlot % 256 + 256 * (c.oldSlot % 256) + 65536 * (c.state % 256) +
      16777216 * (c.epoch % 256) := by
  have hold : c.activeSlot % 256 ||| (c.oldSlot % 256) <<< 8 =
      c.activeSlot % 256 + 2 ^ 8 * (c.oldSlot % 256) := or_shiftLeft (by omega)
  have hstate : (c.activeSlot % 256 + 2 ^ 8 * (c.oldSlot % 256)) ||| (c.state % 256) <<< 16 =
      c.activeSlot % 256 + 2 ^ 8 * (c.oldSlot % 256) + 2 ^ 16 * (c.state % 256) :=
    or_shiftLeft (by omega)
  rw [pack, byte_mask, byte_mask, byte_mask, byte_mask, hold, hstate, or_shiftLeft (by omega)]
  norm_num

/-- Reading a packed word back gives each field modulo 256. -/
theorem unpackMigrationCtrl_pack (c : MigrationCtrl) :
    unpackMigrationCtrl c.pack =
      ⟨c.activeSlot % 256, c.oldSlot % 256, c.state % 256, c.epoch % 256⟩ := by
  simp only [unpackMigrationCtrl, byte_mask, Nat.shiftRight_eq_div_pow, c.pack_eq,
    MigrationCtrl.mk.injEq]
  omega

theorem unpackMigrationCtrl_pack_of_lt {c : MigrationCtrl} (hactive : c.activeSlot < 256)
    (hold : c.oldSlot < 256) (hstate : c.state < 256) (hepoch : c.epoch < 256) :
    unpackMigrationCtrl c.pack = c := by
  rw [unpackMigrationCtrl_pack, Nat.mod_eq_of_lt hactive, Nat.mod_eq_of_lt hold,
    Nat.mod_eq_of_lt hstate, Nat.mod_eq_of_lt hepoch]

theorem Maps.ctrl_epoch_lt (m : Maps) : m.ctrl.epoch < 256 := by
  change (m.migrationCtrl >>> 24) &&& 0xff < 256
  rw [byte_mask]
  exact Nat.mod_lt _ (by decide)

theorem succ_epoch_mask (n : ℕ) : (n + 1) &&& 0xff = (n + 1) % 256 := byte_mask _

end Minuteman.Datapath
