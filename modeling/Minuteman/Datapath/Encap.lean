import Minuteman.Datapath.FragmentSet
import Minuteman.Datapath.Ipv6Forward

/-!
# The LAN program

`do_xdp_dslite_encap`: IPv4 from a managed LAN that is not local to the site
is put into the softwire of the slot flow affinity picks; native IPv6 is
forwarded; everything else is left to the kernel.
-/
namespace Minuteman.Datapath
open Library ByteString

def isLocalGatewayDst (lan : LanConfig) (iph : Iphdr) : Bool :=
  lan.gatewayIp != 0 && iph.daddr == lan.gatewayIp

/-- `is_non_unicast_dst`: limited broadcast and 224.0.0.0/4. -/
def isNonUnicastDst (iph : Iphdr) : Bool :=
  iph.daddr == 0xffffffff || iph.daddr &&& 0xf0000000 == 0xe0000000

/-- `fill_inner_fib_params` and the same assignments in `is_local_lan_route`. -/
def innerFibParams (iph : Iphdr) (innerLen ingressIfindex : ℕ) : FibParams where
  tos := iph.tos
  l4Protocol := iph.protocol
  totLen := innerLen
  addrs := .inet iph.saddr iph.daddr
  ifindex := ingressIfindex

def isLocalLanRoute (env : Env) (m : LoaderMaps) (ctx : XdpMd) (iph : Iphdr) : Bool :=
  let fib := bpfFibLookup env (innerFibParams iph iph.totLen.toNat ctx.ingressIfindex)
  if fib.ret ≠ .success then false else (m.lanConfigs fib.ifindex).isSome

/-- The three tests that keep a packet out of the softwire. -/
def bypasses (env : Env) (m : LoaderMaps) (ctx : XdpMd) (lan : LanConfig) (iph : Iphdr) : Bool :=
  isNonUnicastDst iph || isLocalGatewayDst lan iph || isLocalLanRoute env m ctx iph

/-- The part of `do_xdp_dslite_encap` that writes the outer headers and sends the frame. -/
def sendEncapsulated (env : Env) (x : Xdp) (l2Len innerLen : ℕ) (cfg : B4Config) :
    XdpAction × Xdp :=
  if (Iphdr.read (x.ctx.data.drop l2Len)).ttl ≤ 1 then x.exit .pass .pass
  else
    let lookup := lookupAftrNexthop env x cfg innerLen
    let x := lookup.2
    match lookup.1 with
    | none => (.pass, x)
    | some fib =>
      match x.ctx.adjustHead ((l2Len : ℤ) - (outerHdrLen : ℤ)) with
      | none => x.exit .abort .aborted
      | some ctx =>
        let x : Xdp := { x with ctx }
        if x.ctx.data.length < outerHdrLen + iphdrLen then x.exit .abort .aborted
        else if x.ctx.data.length < outerHdrLen + innerLen then x.exit .abort .aborted
        else
          let x := x.store 0 (outerEth6 cfg fib true).toBytes
          let x := x.store ethLen
            (outerIpv6 cfg.b4Addr cfg.aftrAddr ipprotoIpip innerLen).toBytes
          let x : Xdp :=
            { x with ctx := { x.ctx with data := decreaseIpv4Ttl x.ctx.data outerHdrLen } }
          redirectToIfindex (x.count .encap) cfg.wanIfindex .redirectWan

def effectiveMtu (env : Env) (m : Maps) (slot wanMtu : ℕ) : ℕ :=
  let learned := tunnelPmtuFor env m slot
  if learned ≠ 0 ∧ learned < wanMtu then learned else wanMtu

/-- `do_xdp_dslite_encap` once the packet's slot is chosen. -/
def encapInto (env : Env) (x : Xdp) (l2Len slot : ℕ) : XdpAction × Xdp :=
  match resolveSoftwire x.maps (x.maps.getNextHop slot) with
  | none => x.exit .noConfig .pass
  | some cfg =>
    let innerLen := (Iphdr.read (x.ctx.data.drop l2Len)).totLen.toNat
    let checked := checkDevMtu env x cfg.wanIfindex (ipv6hdrLen + innerLen)
    let x := checked.2
    let ret := checked.1.1
    if ret = .error then (.drop, x)
    else
      let effMtu := effectiveMtu env x.maps slot checked.1.2
      let x := applyMssClamp x l2Len cfg
      if ret = .fragNeeded ∨ ipv6hdrLen + innerLen > effMtu then
        encapFragmentOuter env x l2Len innerLen cfg effMtu
      else sendEncapsulated env x l2Len innerLen cfg

def encapIpv4 (env : Env) (x : Xdp) (l2Len : ℕ) : XdpAction × Xdp :=
  match x.maps.getLanConfig x.ctx.ingressIfindex with
  | none => x.exit .noLanConfig .pass
  | some lan =>
    let pkt := x.ctx.data.drop l2Len
    if bypasses env x.maps.toLoaderMaps x.ctx lan (Iphdr.read pkt) then x.exit .bypass .pass
    else
      let picked := pickSoftwireSlot x.maps env.now x.maps.getMigrationCtrl pkt
      encapInto env { x with maps := picked.2 } l2Len picked.1

def doXdpDsliteEncap (env : Env) (x : Xdp) : XdpAction × Xdp :=
  match parseL2Ipv4 x.ctx.data with
  | .malformed => x.exit .drop .drop
  | .other =>
    match parseL2Ipv6 x.ctx.data with
    | .malformed => x.exit .pass .pass
    | .other => x.exit .pass .pass
    | .ip l2Len6 =>
      match resolveActiveSoftwire x.maps with
      | none => x.exit .noConfig .pass
      | some cfg6 =>
        let fanned := maybeRedirectIpv6ToCpu x (x.ctx.data.drop l2Len6)
        match fanned.1 with
        | some action => (action, fanned.2)
        | none => handleIpv6Forward env fanned.2 l2Len6 cfg6
  | .ip l2Len => encapIpv4 env x l2Len

@[simp] theorem encapFragmentOuter_kept (env : Env) (x : Xdp) (l2Len innerLen : ℕ)
    (cfg : B4Config) (wanMtu : ℕ) :
    (encapFragmentOuter env x l2Len innerLen cfg wanMtu).2.maps.kept = x.maps.kept := by
  have hlookup := lookupAftrNexthop_kept env x cfg ((fragUnitOf cfg + fragHdrLen) % 2 ^ 16)
  unfold encapFragmentOuter
  dsimp only
  split
  · simp
  split
  · simp
  split
  · next y hy =>
    rw [hy] at hlookup
    exact hlookup
  · next fib y hy =>
    rw [hy] at hlookup
    rw [← hlookup]
    repeat' split
    all_goals simp

@[simp] theorem sendEncapsulated_kept (env : Env) (x : Xdp) (l2Len innerLen : ℕ)
    (cfg : B4Config) :
    (sendEncapsulated env x l2Len innerLen cfg).2.maps.kept = x.maps.kept := by
  unfold sendEncapsulated
  dsimp only
  repeat' split
  all_goals simp

/-- After the slot is chosen nothing touches the flow table any more. -/
@[simp] theorem encapInto_kept (env : Env) (x : Xdp) (l2Len slot : ℕ) :
    (encapInto env x l2Len slot).2.maps.kept = x.maps.kept := by
  unfold encapInto
  dsimp only
  repeat' split
  all_goals simp

/-- A packet no test keeps out of the softwire goes into the slot that is picked for it. -/
theorem doXdpDsliteEncap_encapInto {env : Env} {m : Maps} {ctx : XdpMd} {l2Len : ℕ}
    {lan : LanConfig} (hparse : parseL2Ipv4 ctx.data = .ip l2Len)
    (hlan : m.lanConfigs ctx.ingressIfindex = some lan)
    (h : ¬ bypasses env m.toLoaderMaps ctx lan (Iphdr.read (ctx.data.drop l2Len)) = true) :
    doXdpDsliteEncap env ⟨m, ctx⟩ =
      encapInto env ⟨(pickSoftwireSlot m env.now m.migrationCtrl (ctx.data.drop l2Len)).2, ctx⟩ l2Len
        (pickSoftwireSlot m env.now m.migrationCtrl (ctx.data.drop l2Len)).1 := by
  have hget : m.getLanConfig ctx.ingressIfindex = some lan := hlan
  simp only [doXdpDsliteEncap, hparse, encapIpv4, hget]
  rw [if_neg h]
  rfl

def Tunnelled (frame : Bytes) (b4 aftr : In6Addr) : Prop :=
  (Ipv6hdr.read (frame.drop ethLen)).saddr = b4 ∧ (Ipv6hdr.read (frame.drop ethLen)).daddr = aftr

section Endpoints
variable {env : Env} {x : Xdp} {l2Len innerLen slot : ℕ} {cfg : B4Config} {wanMtu : ℕ}
  {target : Target}

/-- What does not fit is broadcast to the segment ports. -/
theorem encapFragmentOuter_target
    (h : (encapFragmentOuter env x l2Len innerLen cfg wanMtu).1 = .redirect target) :
    target = .fragPorts := by
  unfold encapFragmentOuter at h
  dsimp only at h
  repeat' split at h
  all_goals cases h
  rfl

theorem encapFragmentOuter_tunnelled (hl2 : l2Len ≤ 22)
    (h : (encapFragmentOuter env x l2Len innerLen cfg wanMtu).1 = .redirect target) :
    Tunnelled (encapFragmentOuter env x l2Len innerLen cfg wanMtu).2.ctx.data cfg.b4Addr
      cfg.aftrAddr := by
  have hports := encapFragmentOuter_target h
  subst hports
  obtain ⟨-, -, -, eth, -, hdata⟩ := encapFragmentOuter_broadcast hl2 (Prod.ext h rfl)
  rw [hdata, Tunnelled, cloneFrame_ipv6]
  exact ⟨rfl, rfl⟩

theorem sendEncapsulated_tunnelled
    (h : (sendEncapsulated env x l2Len innerLen cfg).1 = .redirect target) :
    Tunnelled (sendEncapsulated env x l2Len innerLen cfg).2.ctx.data cfg.b4Addr cfg.aftrAddr := by
  revert h
  unfold sendEncapsulated
  dsimp only
  split
  · intro h
    cases h
  split
  · intro h
    cases h
  · next fib hfib =>
    split
    · intro h
      cases h
    · next ctx hctx =>
      split
      · intro h
        cases h
      split
      · intro h
        cases h
      intro h
      change Tunnelled (decreaseIpv4Ttl (overwrite (overwrite ctx.data 0 _) ethLen _)
        outerHdrLen) _ _
      rw [overwrite_zero, overwrite_append (by simp; rfl), ← List.append_assoc,
        decreaseIpv4Ttl_append (by simp; rfl), Tunnelled, List.append_assoc,
        List.drop_left' (by simp; rfl), Ipv6hdr.read_toBytes]
      exact ⟨rfl, rfl⟩

theorem resolveSoftwire_getNextHop {m : Maps}
    (h : resolveSoftwire m (m.getNextHop slot) = some cfg) :
    slot < numNextHops ∧ (m.nextHops slot).valid = true ∧
      cfg = { m.b4Config with
        b4Addr := (m.nextHops slot).b4Addr, aftrAddr := (m.nextHops slot).aftrAddr } := by
  unfold Maps.getNextHop at h
  split_ifs at h with hlt
  · unfold resolveSoftwire at h
    dsimp only at h
    split_ifs at h with hvalid
    cases h
    exact ⟨hlt, hvalid, rfl⟩
  · cases h

/-- A packet that leaves through a slot's softwire carries that slot's endpoints. -/
theorem encapInto_tunnelled (hl2 : l2Len ≤ 22)
    (h : (encapInto env x l2Len slot).1 = .redirect target) :
    slot < numNextHops ∧ (x.maps.nextHops slot).valid = true ∧
      Tunnelled (encapInto env x l2Len slot).2.ctx.data (x.maps.nextHops slot).b4Addr
        (x.maps.nextHops slot).aftrAddr := by
  revert h
  unfold encapInto
  split
  · intro h
    cases h
  · next cfg hcfg =>
    obtain ⟨hlt, hvalid, hslot⟩ := resolveSoftwire_getNextHop hcfg
    rw [show (x.maps.nextHops slot).b4Addr = cfg.b4Addr by rw [hslot],
      show (x.maps.nextHops slot).aftrAddr = cfg.aftrAddr by rw [hslot]]
    dsimp only
    split
    · intro h
      cases h
    split
    · exact fun h => ⟨hlt, hvalid, encapFragmentOuter_tunnelled hl2 h⟩
    · exact fun h => ⟨hlt, hvalid, sendEncapsulated_tunnelled h⟩

end Endpoints

end Minuteman.Datapath
