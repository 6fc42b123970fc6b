import Minuteman.Datapath.Helpers
import Minuteman.Library.Reassembly

/-!
# Softwire fragmentation

An oversized inner packet is encapsulated whole behind a Fragment header and
broadcast; the program of companion pair `i` trims its clone to fragment `i`.
The fragment size travels in the clone's flow label.
-/
namespace Minuteman.Datapath
open Library ByteString

def maxSoftwireFrags : ℕ := 4

def fragInnerOff : ℕ := outerHdrLen + fragHdrLen

/-- The clone headers `encap_fragment_outer` writes; the flow label carries the unit. -/
def cloneIpv6 (cfg : B4Config) (innerLen unit : ℕ) : Ipv6hdr :=
  { outerIpv6 cfg.b4Addr cfg.aftrAddr ipprotoFragment (innerLen + fragHdrLen) with
    flowLbl := ⟨[0, UInt8.ofNat (unit / 256), UInt8.ofNat unit], rfl⟩ }

def cloneFragHdr (random : UInt32) : FragHdr := ⟨ipprotoIpip, 0, 1, random⟩

/-- `cfg->frag_unit & ~7U`. -/
def fragUnitOf (cfg : B4Config) : ℕ := cfg.fragUnit / 8 * 8

/-- What `encap_fragment_outer` leaves to the kernel's own tunnel. -/
def fragSlow (m : Maps) (cfg : B4Config) (innerLen wanMtu : ℕ) : Prop :=
  fragUnitOf cfg = 0 ∨ innerLen > (maxSoftwireFrags * fragUnitOf cfg) % 2 ^ 32 ∨
    innerLen > cfg.fragMaxInner ∨ fragUnitOf cfg + ipv6hdrLen + fragHdrLen > wanMtu ∨
    m.fragPorts 0 = none

instance (m : Maps) (cfg : B4Config) (innerLen wanMtu : ℕ) :
    Decidable (fragSlow m cfg innerLen wanMtu) := by
  unfold fragSlow
  infer_instance

def encapFragmentOuter (env : Env) (x : Xdp) (l2Len innerLen : ℕ) (cfg : B4Config)
    (wanMtu : ℕ) : XdpAction × Xdp :=
  let unit := fragUnitOf cfg
  if (Iphdr.read (x.ctx.data.drop l2Len)).ttl ≤ 1 then x.exit .pass .pass
  else if fragSlow x.maps cfg innerLen wanMtu then x.exit .encapFragSlow .pass
  else
    match lookupAftrNexthop env x cfg ((unit + fragHdrLen) % 2 ^ 16) with
    | (none, x) => (.pass, x)
    | (some fib, x) =>
      match x.ctx.adjustHead ((l2Len : ℤ) - (fragInnerOff : ℤ)) with
      | none => x.exit .abort .aborted
      | some ctx =>
        let x : Xdp := { x with ctx }
        if ctx.data.length < fragInnerOff + iphdrLen ∨
            ctx.data.length < fragInnerOff + innerLen then x.exit .abort .aborted
        else
          let x := x.store 0 (outerEth6 cfg fib true).toBytes
          let x := x.store ethLen (cloneIpv6 cfg innerLen unit).toBytes
          let x := x.store outerHdrLen (cloneFragHdr env.random).toBytes
          let x : Xdp :=
            { x with ctx := { x.ctx with data := decreaseIpv4Ttl x.ctx.data fragInnerOff } }
          (.redirect .fragPorts, x.count .encapFragXdp)

/-- `emit_softwire_fragment`: trim a clone to fragment `idx` and send it out the WAN. -/
def emitSoftwireFragment (x : Xdp) (idx : ℕ) : XdpAction × Xdp :=
  match parseL2Ipv6 x.ctx.data with
  | .malformed => x.exit .drop .drop
  | .other => x.exit .drop .drop
  | .ip l2Len =>
    let eth := Ethhdr.read x.ctx.data
    let ip6h := Ipv6hdr.read (x.ctx.data.drop l2Len)
    let fh := FragHdr.read (x.ctx.data.drop (l2Len + ipv6hdrLen))
    let plen := ip6h.payloadLen.toNat
    let total := plen - fragHdrLen
    let unit := ((byteAt ip6h.flowLbl.bytes 1).toNat * 256 +
      (byteAt ip6h.flowLbl.bytes 2).toNat) / 8 * 8
    let start := idx * unit
    let len := if total - start > unit then unit else total - start
    if ip6h.nexthdr ≠ ipprotoFragment then x.exit .drop .drop
    else if x.ctx.data.length < l2Len + ipv6hdrLen + fragHdrLen then x.exit .drop .drop
    else if plen < fragHdrLen + iphdrLen then x.exit .abort .aborted
    else if x.maps.b4Config.wanIfindex = 0 then x.exit .noConfig .drop
    else if unit < 8 ∨ unit > 0xffff then x.exit .abort .aborted
    else if start ≥ total then (.drop, x)
    else
      match if start > 0 then x.ctx.adjustHead start else some x.ctx with
      | none => x.exit .abort .aborted
      | some ctx =>
        let x : Xdp := { x with ctx }
        match if total - start - len > 0 then x.ctx.adjustTail (total - start - len)
          else some x.ctx with
        | none => x.exit .abort .aborted
        | some ctx =>
          let x : Xdp := { x with ctx }
          if x.ctx.data.length < fragInnerOff then x.exit .abort .aborted
          else
            let x := x.store 0 eth.toBytes
            let x := x.store ethLen { ip6h with
              flowLbl := FixedBytes.zero 3
              payloadLen := UInt16.ofNat (len + fragHdrLen) : Ipv6hdr }.toBytes
            let x := x.store outerHdrLen { fh with
              fragOff := UInt16.ofNat (start ||| if total - start > unit then 1 else 0) :
                FragHdr }.toBytes
            redirectToIfindex (x.count .encapFragSeg) x.maps.b4Config.wanIfindex .redirectWan

def cloneStats : List StatId := [.drop, .abort, .noConfig, .encapFragSeg, .redirectWan]

/-- A clone program counts how it ended and touches no other map. -/
theorem emitSoftwireFragment_maps (x : Xdp) (idx : ℕ) :
    ∃ stats, stats ⊆ cloneStats ∧
      (emitSoftwireFragment x idx).2.maps = stats.foldl Maps.increaseStatsCount x.maps := by
  have hdrop : [StatId.drop] ⊆ cloneStats := by decide
  have habort : [StatId.abort] ⊆ cloneStats := by decide
  unfold emitSoftwireFragment
  split
  · exact ⟨_, hdrop, rfl⟩
  · exact ⟨_, hdrop, rfl⟩
  extract_lets eth ip6h fh plen total unit start len
  split
  · exact ⟨_, hdrop, rfl⟩
  split
  · exact ⟨_, hdrop, rfl⟩
  split
  · exact ⟨_, habort, rfl⟩
  split
  · exact ⟨[.noConfig], by decide, rfl⟩
  split
  · exact ⟨_, habort, rfl⟩
  split
  · exact ⟨[], by decide, rfl⟩
  generalize (if start > 0 then x.ctx.adjustHead start else some x.ctx) = head
  cases head with
  | none => exact ⟨_, habort, rfl⟩
  | some ctx =>
    dsimp only
    generalize (if total - start - len > 0 then ctx.adjustTail (total - start - len)
      else some ctx) = tail
    cases tail with
    | none => exact ⟨_, habort, rfl⟩
    | some ctx =>
      dsimp only
      split
      · exact ⟨_, habort, rfl⟩
      · exact ⟨[.encapFragSeg, .redirectWan], by decide, rfl⟩

/-- Whatever its counters leave alone a clone program leaves alone. -/
theorem emitSoftwireFragment_view {β : Type} {view : Maps → β}
    (hview : ∀ m, ∀ s ∈ cloneStats, view (m.increaseStatsCount s) = view m) (x : Xdp) (idx : ℕ) :
    view (emitSoftwireFragment x idx).2.maps = view x.maps := by
  obtain ⟨stats, hstats, hmaps⟩ := emitSoftwireFragment_maps x idx
  rw [hmaps]
  clear hmaps
  generalize x.maps = m
  induction stats generalizing m with
  | nil => rfl
  | cons s stats ih =>
    obtain ⟨hs, hrest⟩ := List.cons_subset.mp hstats
    exact (ih hrest _).trans (hview m s hs)

/-- An outer fragment as the far tunnel end reads it off the wire. -/
structure OuterFragment where
  src : In6Addr
  dst : In6Addr
  identification : UInt32
  flowLbl : FixedBytes 3
  l3Len : ℕ
  slice : Fragment UInt8

def OuterFragment.ofFrame (frame : Bytes) : OuterFragment :=
  let ip6h := Ipv6hdr.read (frame.drop ethLen)
  let fh := FragHdr.read (frame.drop outerHdrLen)
  { src := ip6h.saddr
    dst := ip6h.daddr
    identification := fh.identification
    flowLbl := ip6h.flowLbl
    l3Len := ipv6hdrLen + ip6h.payloadLen.toNat
    slice :=
      { offset := fh.fragOff.toNat / 8 * 8
        more := fh.fragOff.toNat % 2 == 1
        payload := (frame.drop fragInnerOff).take (ip6h.payloadLen.toNat - fragHdrLen) } }

def sentFrame (r : XdpAction × Xdp) : Option Bytes :=
  match r.1 with
  | .redirect (.txPort _) => some r.2.ctx.data
  | _ => none

/-- Pair `i`'s program on its clone, with the fragment unit configured by then. -/
def runClone (y : Xdp) (units : ℕ → ℕ) (clones : ℕ → XdpMd) (i : ℕ) : XdpAction × Xdp :=
  emitSoftwireFragment
    { maps := { y.maps with b4Config := { y.maps.b4Config with fragUnit := units i } }
      ctx := clones i } i

/-- The outer fragments that leave the WAN after a broadcast. -/
def emittedFragments (y : Xdp) (units : ℕ → ℕ) (clones : ℕ → XdpMd) : List OuterFragment :=
  ((List.range maxSoftwireFrags).filterMap fun i => sentFrame (runClone y units clones i)).map
    OuterFragment.ofFrame

end Minuteman.Datapath
