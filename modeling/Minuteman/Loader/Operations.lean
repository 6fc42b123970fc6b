import Minuteman.Datapath.Maps
import Minuteman.Library.FallibleProgram

/-!
# The loader's map operations

The user-space side of the datapath. Every loader call is a program of single
map operations, each of which the kernel may refuse, so that both the order
of the stores and every error path are part of the model.
-/
namespace Minuteman.Loader
open Library Datapath ByteString

inductive Addr
  | invalid
  | v4 (a : FixedBytes 4)
  | v6 (a : In6Addr) (zone : String)
  deriving DecidableEq

namespace Addr

def is6 : Addr → Bool
  | .v6 _ _ => true
  | _ => false

def mappedPrefix : Bytes := List.replicate 10 0 ++ [0xff, 0xff]

def is4In6 : Addr → Bool
  | .v6 a _ => a.bytes.take 12 == mappedPrefix
  | _ => false

def as16 : Addr → In6Addr
  | .invalid => default
  | .v4 a => ⟨mappedPrefix ++ a.bytes, by simp [mappedPrefix]⟩
  | .v6 a _ => a

end Addr

/-- The errors the loader returns; each names the map access or check that failed. -/
inductive LoaderError
  | b4NotIpv6 (a : Addr)
  | aftrNotIpv6 (a : Addr)
  | readingMigrationControl
  | writingMigrationControl
  | migrationInProgress (state : ℕ)
  | cutoverRequiresPriming (state : ℕ)
  | completingRequiresDraining (state : ℕ)
  | abortRequiresPriming (state : ℕ)
  | settingB4Config
  | readingNextHop (slot : ℕ)
  | refusingNextHop (slot state active old : ℕ)
  | settingNextHop (slot : ℕ)
  | clearingNextHop (slot : ℕ)
  | clearingTunnelPmtu (slot : ℕ)
  | registeringTxPort (ifindex : ℕ)
  | readingClock
  | iteratingFlowAffinity
  deriving DecidableEq

/-- The error texts, given how an address is printed and the kernel's own error. -/
def LoaderError.message (render : Addr → String) (cause : String) : LoaderError → String
  | .b4NotIpv6 a => "B4 address must be IPv6, got " ++ render a
  | .aftrNotIpv6 a => "AFTR address must be IPv6, got " ++ render a
  | .readingMigrationControl => "reading migration control: " ++ cause
  | .writingMigrationControl => "writing migration control: " ++ cause
  | .migrationInProgress s => "migration already in progress (state " ++ toString s ++ ")"
  | .cutoverRequiresPriming s => "cutover requires PRIMING, datapath is in state " ++ toString s
  | .completingRequiresDraining s =>
    "completing requires DRAINING, datapath is in state " ++ toString s
  | .abortRequiresPriming s => "abort requires PRIMING, datapath is in state " ++ toString s
  | .settingB4Config => "setting B4 config: " ++ cause
  | .readingNextHop slot => "reading next-hop slot " ++ toString slot ++ ": " ++ cause
  | .refusingNextHop slot s active old =>
    "refusing to write next-hop slot " ++ toString slot ++
      ": the datapath is resolving it (state=" ++ toString s ++ " active=" ++ toString active ++
      " old=" ++ toString old ++ "); end the migration first"
  | .settingNextHop slot => "setting next-hop slot " ++ toString slot ++ ": " ++ cause
  | .clearingNextHop slot => "clearing next-hop slot " ++ toString slot ++ ": " ++ cause
  | .clearingTunnelPmtu slot => "clearing tunnel PMTU slot " ++ toString slot ++ ": " ++ cause
  | .registeringTxPort i => "registering tx port for ifindex " ++ toString i ++ ": " ++ cause
  | .readingClock => "reading CLOCK_MONOTONIC: " ++ cause
  | .iteratingFlowAffinity => "iterating flow affinity: " ++ cause

inductive MapOp
  | lookupCtrl
  | putCtrl (v : ℕ)
  | lookupNextHop (slot : ℕ)
  | putNextHop (slot : ℕ) (nh : NextHop)
  | putTunnelPmtu (slot : ℕ) (v : TunnelPmtu)
  | putB4Config (v : B4Config)
  | putTxPort (ifindex : ℕ)
  | clockGettime
  | iterateFlowAffinity
  | deleteFlowAffinity (key : FlowKey)

/-- What a map operation does to the maps when the kernel accepts it. -/
def MapOp.effect : MapOp → Maps → Maps
  | .lookupCtrl, m => m
  | .putCtrl v, m => { m with migrationCtrl := v }
  | .lookupNextHop _, m => m
  | .putNextHop slot nh, m => { m with nextHops := Function.update m.nextHops slot nh }
  | .putTunnelPmtu slot v, m => { m with tunnelPmtus := Function.update m.tunnelPmtus slot v }
  | .putB4Config v, m => { m with b4Config := v }
  | .putTxPort ifindex, m => { m with txPorts := Function.update m.txPorts ifindex true }
  | .clockGettime, m => m
  | .iterateFlowAffinity, m => m
  | .deleteFlowAffinity key, m => { m with flowAffinity := m.flowAffinity.delete key }

abbrev LoaderM := Prog MapOp Maps LoaderError

def validateSoftwireAddrs (b4 aftr : Addr) : LoaderM Unit :=
  if !b4.is6 || b4.is4In6 then .throw (.b4NotIpv6 b4)
  else if !aftr.is6 || aftr.is4In6 then .throw (.aftrNotIpv6 aftr)
  else .pure ()

def readCtrl : LoaderM MigrationCtrl :=
  .perform .lookupCtrl .readingMigrationControl fun m => unpackMigrationCtrl m.migrationCtrl

def writeCtrl (c : MigrationCtrl) : LoaderM Unit :=
  .perform (.putCtrl c.pack) .writingMigrationControl fun _ => ()

/-- A store into one of the per-slot arrays, which refuse an index past their end. -/
def putSlot (o : MapOp) (slot : ℕ) (e : LoaderError) : LoaderM Unit :=
  if slot < numNextHops then .perform o e fun _ => () else .throw e

def clearTunnelPmtu (slot : ℕ) : LoaderM Unit :=
  putSlot (.putTunnelPmtu slot {}) slot (.clearingTunnelPmtu slot)

def slotIsLive (c : MigrationCtrl) (slot : ℕ) : LoaderM Bool :=
  if slot = c.activeSlot ∨ (c.state = migDraining ∧ slot = c.oldSlot) then
    if slot < numNextHops then
      .perform (.lookupNextHop slot) (.readingNextHop slot) fun m => (m.nextHops slot).valid
    else .throw (.readingNextHop slot)
  else .pure false

def writeNextHop (slot : ℕ) (b4 aftr : Addr) : LoaderM Unit := do
  let c ← readCtrl
  let live ← slotIsLive c slot
  if live then
    .throw (.refusingNextHop slot c.state c.activeSlot c.oldSlot)
  else
    clearTunnelPmtu slot
    putSlot (.putNextHop slot ⟨true, b4.as16, aftr.as16⟩) slot (.settingNextHop slot)

def clearNextHop (slot : ℕ) : LoaderM Unit := do
  putSlot (.putNextHop slot {}) slot (.clearingNextHop slot)
  clearTunnelPmtu slot

/-- `(slot + 1) % numNextHops`: the slot that is not `slot`, of the two there are. -/
def otherSlot (slot : ℕ) : ℕ := (slot + 1) % numNextHops

def registerTxPort (ifindex : ℕ) : LoaderM Unit :=
  .perform (.putTxPort ifindex) (.registeringTxPort ifindex) fun _ => ()

/-- `softwireFragUnit`: the fragment payload that fits the WAN MTU, a multiple of 8. -/
def softwireFragUnit (wanMtu : ℤ) : ℕ :=
  if wanMtu ≤ 56 then 0 else (wanMtu - 48).toNat % 2 ^ 32 / 8 * 8

def autoTcpMssClamp (softwireMtu : ℤ) : ℕ :=
  if softwireMtu - 40 - 40 < 536 then 0 else (softwireMtu - 40 - 40).toNat % 2 ^ 32

/-- `resolveMSSClamp`; the policy -1 derives the clamp from the MTU. -/
def resolveMssClamp (policy softwireMtu : ℤ) : ℕ :=
  if policy = -1 then autoTcpMssClamp softwireMtu
  else if policy ≤ 0 then 0
  else policy.toNat % 2 ^ 32

/-- `B4Config` as the loader's callers give it. -/
structure B4ConfigArgs where
  b4Addr : Addr
  aftrAddr : Addr
  srcMac : Bytes := []
  dstMac : Bytes := []
  wanIfindex : ℕ := 0
  wanMtu : ℤ := 0
  fragMaxInner : ℤ := 0
  tcpMssClamp : ℤ := 0

def macOfSlice (b : Bytes) : Mac := ⟨(b ++ List.replicate 6 0).take 6, by simp⟩

/-- The `b4_config` value that `SetB4Config` stores. -/
def b4ConfigOf (cfg : B4ConfigArgs) : B4Config where
  srcMac := macOfSlice cfg.srcMac
  dstMac := macOfSlice cfg.dstMac
  wanIfindex := cfg.wanIfindex
  fragUnit := softwireFragUnit cfg.wanMtu
  fragMaxInner := if cfg.fragMaxInner > 0 then cfg.fragMaxInner.toNat % 2 ^ 32 else 0
  mssClamp := resolveMssClamp cfg.tcpMssClamp cfg.wanMtu

def setB4Config (cfg : B4ConfigArgs) : LoaderM Unit := do
  validateSoftwireAddrs cfg.b4Addr cfg.aftrAddr
  .perform (.putB4Config (b4ConfigOf cfg)) .settingB4Config fun _ => ()
  writeNextHop 0 cfg.b4Addr cfg.aftrAddr
  writeCtrl ⟨0, 0, migSteady, 0⟩
  registerTxPort cfg.wanIfindex

def beginMigration (b4 aftr : Addr) : LoaderM Unit := do
  validateSoftwireAddrs b4 aftr
  let c ← readCtrl
  if c.state ≠ migSteady then
    .throw (.migrationInProgress c.state)
  else
    writeNextHop (otherSlot c.activeSlot) b4 aftr
    writeCtrl ⟨c.activeSlot, c.activeSlot, migPriming, (c.epoch + 1) &&& 0xff⟩

def cutover : LoaderM Unit := do
  let c ← readCtrl
  if c.state ≠ migPriming then
    .throw (.cutoverRequiresPriming c.state)
  else
    writeCtrl ⟨otherSlot c.activeSlot, c.activeSlot, migDraining, c.epoch⟩

/-- End a migration that is in state `required`: the word first, the retired slot second. -/
def endMigration (required : ℕ) (refuse : ℕ → LoaderError) (retired : MigrationCtrl → ℕ) :
    LoaderM Unit := do
  let c ← readCtrl
  if c.state ≠ required then
    .throw (refuse c.state)
  else
    writeCtrl ⟨c.activeSlot, c.activeSlot, migSteady, c.epoch⟩
    clearNextHop (retired c)

def completeMigration : LoaderM Unit :=
  endMigration migDraining .completingRequiresDraining fun c => c.oldSlot

def abortMigration : LoaderM Unit :=
  endMigration migPriming .abortRequiresPriming fun c => otherSlot c.activeSlot

/-- The part of `SwitchAFTR` after any migration has ended: write the free slot and flip. -/
def flipToFreeSlot (b4 aftr : Addr) : LoaderM Unit := do
  let c ← readCtrl
  writeNextHop (otherSlot c.activeSlot) b4 aftr
  writeCtrl ⟨otherSlot c.activeSlot, otherSlot c.activeSlot, migSteady, c.epoch⟩

def switchAftr (b4 aftr : Addr) : LoaderM Unit := do
  validateSoftwireAddrs b4 aftr
  let c ← readCtrl
  if c.state = migPriming then
    abortMigration
    flipToFreeSlot b4 aftr
  else if c.state = migDraining then
    completeMigration
    flipToFreeSlot b4 aftr
  else
    flipToFreeSlot b4 aftr

end Minuteman.Loader
