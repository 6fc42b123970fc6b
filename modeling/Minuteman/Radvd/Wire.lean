import Minuteman.Library.NdOptions
import Minuteman.Radvd.Announcing

/-!
# Advertisements as the hosts read them

`pkg/routeradvert`: the bytes of a Router Advertisement and its options. A host
that reads them finds the configuration the advertiser last took up, and an
advertiser that ended in order has told it to stop.
-/
namespace Minuteman.Radvd
open Library ByteString PrefixDelegation

def icmpTypeRouterAdvert : UInt8 := 134
def optSourceLinkLayerAddress : UInt8 := 1
def optPrefixInformation : UInt8 := 3
def optRecursiveDNSServer : UInt8 := 25
def optionUnitBytes : ℕ := 8
def maxRouterLifetime : ℤ := 65535 * second

def subnetFlags (onLink autonomous : Bool) : UInt8 :=
  (if onLink then 0x80 else 0) ||| (if autonomous then 0x40 else 0)

/-- `NewPrefixInformation`. The zero prefix has -1 bits. -/
def newPrefixInformation (subnet : Option Prefix) (onLink autonomous : Bool)
    (valid preferred : ℤ) : Bytes :=
  [optPrefixInformation, 4, subnet.elim 255 fun p => UInt8.ofNat p.bits,
      subnetFlags onLink autonomous] ++
    be32 (toSeconds valid) ++ be32 (toSeconds preferred) ++ [0, 0, 0, 0] ++
    (subnet.elim (FixedBytes.zero 16) Prefix.addr).bytes

/-- `NewSourceLinkLayerAddress`: an address too long is cut off. -/
def newSourceLinkLayerAddress (mac : Bytes) : Bytes :=
  [optSourceLinkLayerAddress, 1] ++ (mac ++ List.replicate (optionUnitBytes - 2) 0).take
    (optionUnitBytes - 2)

def newRDNSS (servers : List (FixedBytes 16)) (lifetime : ℤ) : Bytes :=
  [optRecursiveDNSServer, UInt8.ofNat (1 + 2 * servers.length), 0, 0] ++
    be32 (toSeconds lifetime) ++ servers.flatMap FixedBytes.bytes

def RAOption.marshal : RAOption → Bytes
  | .prefixInformation subnet onLink autonomous valid preferred =>
    newPrefixInformation subnet onLink autonomous valid preferred
  | .sourceLinkLayerAddress mac => newSourceLinkLayerAddress mac
  | .rdnss servers lifetime => newRDNSS servers lifetime

/-- `Marshal`. The hop limit, the flags and the two timers are not used. -/
def RouterAdvertisement.marshal (ra : RouterAdvertisement) : Bytes :=
  let lifetime := min ra.routerLifetime maxRouterLifetime
  [icmpTypeRouterAdvert, 0, 0, 0, 0, 0] ++ be16 (toSeconds lifetime).toUInt16 ++ be32 0 ++ be32 0 ++
    ra.options.flatMap RAOption.marshal

inductive HostOption
  | subnet (addr : FixedBytes 16) (bits : UInt8) (onLink autonomous : Bool)
      (valid preferred : UInt32)
  | sourceLinkLayerAddress (mac : Bytes)
  | rdnss (servers : List (FixedBytes 16)) (lifetime : UInt32)

structure HostView where
  curHopLimit : UInt8
  flags : UInt8
  routerLifetime : UInt16
  reachableTime : UInt32
  retransTimer : UInt32
  options : List HostOption

def readServers (b : Bytes) : ℕ → List (FixedBytes 16)
  | 0 => []
  | n + 1 => .read 16 b :: readServers (b.drop 16) n

/-- An option a host does not know, or that is not as long as it should be, is passed over. -/
def readOption (o : UInt8 × Bytes) : Option HostOption :=
  if o.1 = optPrefixInformation ∧ o.2.length = 30 then
    some (.subnet (.read 16 (o.2.drop 14)) (byteAt o.2 0) ((byteAt o.2 1).toBitVec.getLsbD 7)
      ((byteAt o.2 1).toBitVec.getLsbD 6) (be32At o.2 2) (be32At o.2 6))
  else if o.1 = optSourceLinkLayerAddress then some (.sourceLinkLayerAddress o.2)
  else if o.1 = optRecursiveDNSServer ∧ 22 ≤ o.2.length ∧ (o.2.length - 6) % 16 = 0 then
    some (.rdnss (readServers (o.2.drop 6) ((o.2.length - 6) / 16)) (be32At o.2 2))
  else none

def readRouterAdvertisement (b : Bytes) : Option HostView :=
  if b.length < 16 ∨ byteAt b 0 ≠ icmpTypeRouterAdvert ∨ byteAt b 1 ≠ 0 then none
  else (readNdOptions (b.drop 16)).map fun options =>
    ⟨byteAt b 4, byteAt b 5, be16At b 6, be32At b 8, be32At b 12, options.filterMap readOption⟩

/-- What the hosts are to see of a configuration: a default router for `lifetime` seconds, its
address, the subnet they may take addresses of and, for as long, the name server. -/
def Config.view (cfg : Config) (mac : Bytes) (lifetime : UInt16) : HostView where
  curHopLimit := 0
  flags := 0
  routerLifetime := lifetime
  reachableTime := 0
  retransTimer := 0
  options :=
    [.subnet (cfg.subnet.elim (.zero 16) Prefix.addr)
        (cfg.subnet.elim 255 fun p => UInt8.ofNat p.bits) cfg.onLink true
        (toSeconds cfg.validLifetime) (toSeconds cfg.preferredLifetime),
      .sourceLinkLayerAddress mac] ++
    cfg.rdnssAddr.toList.map fun addr => .rdnss [addr.1] lifetime.toUInt32

section Codec
variable {mac : Bytes}

def ndOption (kind : UInt8) (b : Bytes) (n : ℕ) (hlength : b.length = 8 * n) (hpos : 0 < n)
    (hfits : n < 256) : NdOption where
  kind := kind
  body := b.drop 2
  aligned := by
    rw [List.length_drop, hlength]
    omega
  bounded := by
    rw [List.length_drop, hlength]
    omega

theorem ndOption_encode {kind : UInt8} {b : Bytes} {n : ℕ} {hlength : b.length = 8 * n}
    {hpos : 0 < n} {hfits : n < 256} (hfront : b.take 2 = [kind, UInt8.ofNat n]) :
    (ndOption kind b n hlength hpos hfits).encode = b := by
  have hunits : (ndOption kind b n hlength hpos hfits).units = n := by
    rw [NdOption.units, ndOption, List.length_drop, hlength]
    omega
  rw [NdOption.encode, hunits]
  exact (congrArg (· ++ b.drop 2) hfront.symm).trans (List.take_append_drop 2 b)

def options (cfg : Config) (lifetime : ℤ) (mac : Bytes) : List NdOption :=
  [ndOption optPrefixInformation (newPrefixInformation cfg.subnet cfg.onLink true
      cfg.validLifetime cfg.preferredLifetime) 4 (by simp [newPrefixInformation]) (by decide)
      (by decide),
    ndOption optSourceLinkLayerAddress (newSourceLinkLayerAddress mac) 1
      (by simp [newSourceLinkLayerAddress, optionUnitBytes]) (by decide) (by decide)] ++
  cfg.rdnssAddr.toList.map fun addr =>
    ndOption optRecursiveDNSServer (newRDNSS [addr.1] lifetime) 3 (by simp [newRDNSS]) (by decide)
      (by decide)

theorem options_encode (cfg : Config) (lifetime : ℤ) (mac : Bytes) :
    (buildRA cfg lifetime mac).options.flatMap RAOption.marshal =
      (options cfg lifetime mac).flatMap NdOption.encode := by
  rw [buildRA, options]
  dsimp only
  rw [List.flatMap_append, List.flatMap_append]
  congr 1
  · simp only [List.flatMap_cons, List.flatMap_nil, RAOption.marshal]
    rw [ndOption_encode rfl, ndOption_encode rfl]
  · simp only [List.flatMap_map, RAOption.marshal]
    congr 1
    funext addr
    exact (ndOption_encode rfl).symm

theorem getLsbD_subnetFlags (onLink autonomous : Bool) :
    (subnetFlags onLink autonomous).toBitVec.getLsbD 7 = onLink ∧
      (subnetFlags onLink autonomous).toBitVec.getLsbD 6 = autonomous := by
  cases onLink <;> cases autonomous <;> decide

theorem readOption_subnet (subnet : Option Prefix) (onLink autonomous : Bool)
    (valid preferred : ℤ) :
    readOption (optPrefixInformation,
        (newPrefixInformation subnet onLink autonomous valid preferred).drop 2) =
      some (.subnet (subnet.elim (.zero 16) Prefix.addr)
        (subnet.elim 255 fun p => UInt8.ofNat p.bits) onLink autonomous (toSeconds valid)
        (toSeconds preferred)) := by
  have hvalid : be32At ((newPrefixInformation subnet onLink autonomous valid preferred).drop 2) 2 =
      toSeconds valid := be32At_of_drop rfl
  have hpreferred : be32At ((newPrefixInformation subnet onLink autonomous valid preferred).drop 2)
      6 = toSeconds preferred := be32At_of_drop rfl
  have haddr : FixedBytes.read 16
      (((newPrefixInformation subnet onLink autonomous valid preferred).drop 2).drop 14) =
        subnet.elim (.zero 16) Prefix.addr :=
    (congrArg (FixedBytes.read 16) (List.append_nil _).symm).trans (FixedBytes.read_append _ [])
  have hflags : byteAt ((newPrefixInformation subnet onLink autonomous valid preferred).drop 2) 1 =
      subnetFlags onLink autonomous := rfl
  rw [readOption, if_pos ⟨rfl, by simp [newPrefixInformation]⟩]
  dsimp only
  rw [hvalid, hpreferred, haddr, hflags, (getLsbD_subnetFlags onLink autonomous).1,
    (getLsbD_subnetFlags onLink autonomous).2]
  rfl

theorem readOption_mac (hmac : mac.length = 6) :
    readOption (optSourceLinkLayerAddress, (newSourceLinkLayerAddress mac).drop 2) =
      some (.sourceLinkLayerAddress mac) := by
  have hbody : (newSourceLinkLayerAddress mac).drop 2 = mac := List.take_left' hmac
  rw [readOption, if_neg (by simp [optSourceLinkLayerAddress, optPrefixInformation]), if_pos rfl]
  dsimp only
  rw [hbody]

theorem readOption_rdnss (server : FixedBytes 16) (lifetime : ℤ) :
    readOption (optRecursiveDNSServer, (newRDNSS [server] lifetime).drop 2) =
      some (.rdnss [server] (toSeconds lifetime)) := by
  have hlength : ((newRDNSS [server] lifetime).drop 2).length = 22 := by simp [newRDNSS]
  have hlifetime : be32At ((newRDNSS [server] lifetime).drop 2) 2 = toSeconds lifetime :=
    be32At_of_drop rfl
  have hserver : FixedBytes.read 16 (((newRDNSS [server] lifetime).drop 2).drop 6) = server :=
    server.read_append []
  rw [readOption, if_neg (by simp [optRecursiveDNSServer, optPrefixInformation]),
    if_neg (by simp [optRecursiveDNSServer, optSourceLinkLayerAddress])]
  dsimp only
  rw [hlength, if_pos ⟨rfl, by decide⟩, hlifetime]
  change some (HostOption.rdnss [_] _) = _
  rw [hserver]

theorem filterMap_readOption (cfg : Config) (lifetime : ℤ) (hmac : mac.length = 6) :
    ((options cfg lifetime mac).map fun o => (o.kind, o.body)).filterMap readOption =
      [.subnet (cfg.subnet.elim (.zero 16) Prefix.addr)
          (cfg.subnet.elim 255 fun p => UInt8.ofNat p.bits) cfg.onLink true
          (toSeconds cfg.validLifetime) (toSeconds cfg.preferredLifetime),
        .sourceLinkLayerAddress mac] ++
      cfg.rdnssAddr.toList.map fun addr => .rdnss [addr.1] (toSeconds lifetime) := by
  have hservers : ∀ addrs : List (FixedBytes 16 × String), (addrs.map fun addr =>
      (optRecursiveDNSServer, (newRDNSS [addr.1] lifetime).drop 2)).filterMap readOption =
        addrs.map fun addr => .rdnss [addr.1] (toSeconds lifetime) := by
    intro addrs
    rw [List.filterMap_map, ← List.filterMap_eq_map]
    congr 1
    funext addr
    exact readOption_rdnss addr.1 lifetime
  rw [options, List.map_append, List.filterMap_append, List.map_map, ← hservers]
  congr 1
  rw [List.map_cons, List.map_cons, List.map_nil]
  simp only [ndOption, List.filterMap_cons, readOption_subnet, readOption_mac hmac,
    List.filterMap_nil]

/-- The bytes of an advertisement are read as its configuration. -/
theorem readRouterAdvertisement_marshal (cfg : Config) {lifetime : ℤ} {wire : UInt16}
    (hmac : mac.length = 6)
    (hlifetime : (toSeconds (min lifetime maxRouterLifetime)).toUInt16 = wire)
    (hserver : toSeconds lifetime = wire.toUInt32) :
    readRouterAdvertisement (buildRA cfg lifetime mac).marshal = some (cfg.view mac wire) := by
  have hoptions : readNdOptions ((buildRA cfg lifetime mac).marshal.drop 16) =
      some ((options cfg lifetime mac).map fun o => (o.kind, o.body)) := by
    rw [← readNdOptions_flatMap, ← options_encode]
    rfl
  have hwire : be16At (buildRA cfg lifetime mac).marshal 6 = wire := by
    rw [← hlifetime]
    exact be16At_of_drop rfl
  have hreachable : be32At (buildRA cfg lifetime mac).marshal 8 = 0 := be32At_of_drop rfl
  have hretrans : be32At (buildRA cfg lifetime mac).marshal 12 = 0 := be32At_of_drop rfl
  rw [readRouterAdvertisement, if_neg, hoptions, hwire, hreachable, hretrans, Option.map_some,
    filterMap_readOption cfg lifetime hmac, hserver]
  · rfl
  · rw [not_or, not_or, not_lt, not_not, not_not]
    refine ⟨?_, rfl, rfl⟩
    simp only [RouterAdvertisement.marshal, List.length_append, List.length_cons, List.length_nil,
      be16_length, be32_length]
    omega

end Codec
/-- What a step tells the hosts. -/
inductive Tells (a : Advertiser) (o : Observed) (action : Action) (o' : Observed) : Prop
  | nothing (hsent : o'.sent = o.sent) (hup : o'.world.process.isSome = o.world.process.isSome)
      (hannounced : o'.announced = true → o.announced = true ∧ o'.handled = o.handled)
  | configuration (cfg : Config) (hhandled : o'.handled = some cfg)
      (hsent : o'.sent = (a.ra cfg advDefaultLifetime, some cfg) :: o.sent)
      (hup : o'.world.process.isSome = true)
  | withdrawal (cfg : Config) (hhandled : o'.handled = some cfg)
      (hsent : o'.sent = (a.ra cfg 0, some cfg) :: o.sent) (hdown : o'.world.process = none)
  | idle (hhandled : o'.handled = none) (hsent : o'.sent = o.sent)
      (hdown : o'.world.process = none)
  | restarted (hsent : o'.sent = o.sent) (hup : o'.world.process.isSome = true)
      (hannounced : o'.announced = false)
  | killed (hkilled : action = .event .killed) (hsent : o'.sent = o.sent)
      (hdown : o'.world.process = none)

section Runs
variable {a : Advertiser} {o : Observed} {w : World} {p : Process} {r : State × List Effect}
  {outcome : Option ℕ}

theorem settle_running (h : stopReason r.2 = none) :
    (w.settle a p r outcome).process.isSome = true ∧
      w.news (w.settle a p r outcome) = (advertisements r.2).reverse := by
  rw [World.settle, h]
  refine ⟨rfl, ?_⟩
  rw [news_append rfl]
  simp [List.map_reverse, Function.comp_def]

theorem exit_news (s : State) : w.news (w.exit a s outcome) =
    (advertisements (a.terminate s)).reverse := by
  rw [news_append rfl]
  simp [List.map_reverse, Function.comp_def]

theorem settle_stopped {reason : StopReason} (h : stopReason r.2 = some reason)
    (hsilent : advertisements r.2 = []) :
    (w.settle a p r outcome).process = none ∧
      w.news (w.settle a p r outcome) = (advertisements (a.terminate r.1)).reverse := by
  have htransmit : w.transmit r.2 outcome = w := transmit_silent hsilent outcome
  rw [World.settle, h]
  dsimp only
  rw [htransmit]
  exact ⟨rfl, exit_news r.1⟩

theorem terminate_advertisements (s : State) :
    advertisements (a.terminate s) = s.config.toList.map (a.ra · 0) := by
  cases hconf : s.configured with
  | false => simp [Advertiser.terminate, hconf, advertisements, outputs, State.config]
  | true =>
    simp [Advertiser.terminate, hconf, advertisements, outputs, State.config,
      ServerEffect.output, Output.advertisement]

/-- The process ends in order. -/
theorem Tells.ended {action : Action} {o' : Observed} {s : State} (hdown : o'.world.process = none)
    (hhandled : o'.handled = s.config)
    (hsent : o'.sent = (advertisements (a.terminate s)).reverse.map (·, o'.handled) ++ o.sent) :
    Tells a o action o' := by
  rw [terminate_advertisements] at hsent
  cases hconfig : s.config with
  | none =>
    rw [hconfig] at hhandled hsent
    exact .idle hhandled hsent hdown
  | some cfg =>
    rw [hconfig] at hhandled hsent
    rw [hhandled] at hsent
    exact .withdrawal cfg hhandled hsent hdown

theorem Tells.silent {e : Event} (hcast : o.world.casting e = none)
    (hsent : (o.world.step a e).sent = o.world.sent)
    (hup : (o.world.step a e).process.isSome = o.world.process.isSome) :
    Tells a o (.event e) (o.step a (.event e)) := by
  rw [Observed.step_silent hcast hsent]
  exact .nothing rfl hup fun h => ⟨h, rfl⟩

theorem Tells.handled (h : Faithful a o) (draw : ℕ) (outcome : Option ℕ) :
    Tells a o (.event (.handled draw outcome)) (o.step a (.event (.handled draw outcome))) := by
  cases hp : o.world.process with
  | none =>
    exact .silent (by simp [World.casting, hp]) (by simp [World.step, hp])
      (by simp [World.step, hp])
  | some p =>
    cases hmail : p.mailbox with
    | nil =>
      exact .silent (by simp [World.casting, hp, hmail]) (by simp [World.step, hp, hmail])
        (by simp [World.step, hp, hmail])
    | cons m rest =>
      have hcast : o.world.casting (.handled draw outcome) = m.config := by
        simp [World.casting, hp, hmail]
      have hworld : o.world.step a (.handled draw outcome) =
          o.world.settle a { p with mailbox := rest } (World.handle a p.state draw m) outcome := by
        simp [World.step, hp, hmail]
      have hsilent : advertisements (World.handle a p.state draw m).2 = [] := handle_silent draw m
      cases hstop : stopReason (World.handle a p.state draw m).2 with
      | none =>
        obtain ⟨hup, hnews⟩ : _ ∧ o.world.news (o.world.settle a { p with mailbox := rest }
          (World.handle a p.state draw m) outcome) = _ := settle_running hstop
        rw [hsilent, List.reverse_nil] at hnews
        rw [Observed.step, hcast, hworld, hnews]
        exact .nothing rfl (by rw [hp]; exact hup) fun htold => by simpa using htold
      | some reason =>
        obtain ⟨hdown, hnews⟩ : _ ∧ o.world.news (o.world.settle a { p with mailbox := rest }
          (World.handle a p.state draw m) outcome) = _ := settle_stopped hstop hsilent
        rw [Observed.step, hcast, hworld, hnews]
        refine .ended (s := (World.handle a p.state draw m).1) hdown ?_ rfl
        rw [handle_config, Letter.apply_eq, (h.announcing p hp).handled]

/-- A timer never stops the process, and what it sends is its configuration. -/
theorem handleInfo_timer (s : State) (draw : ℕ) (t : Timer) :
    stopReason (a.handleInfo s draw (.timer t)).2 = none ∧
      (advertisements (a.handleInfo s draw (.timer t)).2 = [] ∨
        advertisements (a.handleInfo s draw (.timer t)).2 = [a.ra s.cfg advDefaultLifetime]) := by
  cases t with
  | unsolicited => exact ⟨rfl, .inr rfl⟩
  | quiet =>
    refine ⟨?_, .inl handleInfo_quiet_advertisements⟩
    simp only [Advertiser.handleInfo]
    split_ifs
    · rfl
    · rfl
  | reply =>
    simp only [Advertiser.handleInfo]
    split_ifs
    · exact ⟨rfl, .inl rfl⟩
    · exact ⟨rfl, .inr rfl⟩

theorem Tells.fired (h : Faithful a o) (t : Timer) (draw : ℕ) (outcome : Option ℕ) :
    Tells a o (.event (.fired t draw outcome)) (o.step a (.event (.fired t draw outcome))) := by
  cases hp : o.world.process with
  | none => exact .silent rfl (by simp [World.step, hp]) (by simp [World.step, hp])
  | some p =>
    by_cases hdue : p.Due o.world.now t
    · have hworld : o.world.step a (.fired t draw outcome) =
          o.world.settle a { p with timers := Function.update p.timers t none }
            (a.handleInfo p.state draw (.timer t)) outcome := by
        simp [World.step, hp, hdue]
      have hconf : p.state.configured = true := by
        by_contra hnot
        obtain ⟨due, htimer, -⟩ := hdue
        cases htimer.symm.trans ((h.announcing p hp).ready.idle (by simpa using hnot) t)
      have hhandled : o.handled = some p.state.cfg := by
        rw [(h.announcing p hp).handled, State.config, if_pos hconf]
      obtain ⟨hruns, hras⟩ := handleInfo_timer (a := a) p.state draw t
      obtain ⟨hup, hnews⟩ : _ ∧ o.world.news (o.world.settle a
        { p with timers := Function.update p.timers t none }
        (a.handleInfo p.state draw (.timer t)) outcome) = _ := settle_running hruns
      rcases hras with hnone | hone
      · rw [hnone, List.reverse_nil] at hnews
        rw [Observed.step, hworld, hnews]
        exact .nothing rfl (by rw [hp]; exact hup) fun htold => by simpa using htold
      · rw [hone, List.reverse_singleton] at hnews
        rw [Observed.step, hworld, hnews]
        refine .configuration p.state.cfg hhandled ?_ hup
        rw [hhandled]
        rfl
    · exact .silent rfl (by simp [World.step, hp, hdue]) (by simp [World.step, hp, hdue])

theorem Tells.step (h : Faithful a o) (action : Action) : Tells a o action (o.step a action) := by
  cases action with
  | restart =>
    rw [Observed.step]
    split
    · exact .nothing rfl rfl fun h => ⟨h, rfl⟩
    · exact .restarted rfl rfl rfl
  | event e =>
    cases e with
    | elapse d => exact .silent rfl rfl rfl
    | cast cfg => exact .silent rfl rfl Option.isSome_map
    | received bytes => exact .silent rfl rfl Option.isSome_map
    | readFailed errno => exact .silent rfl rfl Option.isSome_map
    | socketClosed => exact .silent rfl rfl Option.isSome_map
    | reported =>
      cases hunreported : o.world.unreported with
      | nil =>
        exact .silent rfl (by simp [World.step, hunreported]) (by simp [World.step, hunreported])
      | cons errno rest =>
        exact .silent rfl (by simp [World.step, hunreported, World.arrive])
          (by simp [World.step, hunreported, World.arrive])
    | handled draw outcome => exact .handled h draw outcome
    | fired t draw outcome => exact .fired h t draw outcome
    | shutdown outcome =>
      cases hp : o.world.process with
      | none => exact .silent rfl (by simp [World.step, hp]) (by simp [World.step, hp])
      | some p =>
        have hworld : o.world.step a (.shutdown outcome) = o.world.exit a p.state outcome := by
          simp [World.step, hp]
        refine .ended (s := p.state) ?_ ?_ ?_
        · rw [Observed.step, hworld]
          rfl
        · exact (h.announcing p hp).handled
        · rw [Observed.step, hworld, exit_news]
    | killed =>
      rw [Observed.step_silent rfl rfl]
      exact .killed rfl rfl rfl

end Runs
def LastTold (a : Advertiser) (o : Observed) (lifetime : ℤ) : Prop :=
  ∃ cfg rest, o.handled = some cfg ∧ o.sent = (a.ra cfg lifetime, some cfg) :: rest

/-- A process that is up and announced what it handled is the hosts' router. -/
structure Told (a : Advertiser) (o : Observed) : Prop where
  sent : ∀ x ∈ o.sent, x.1.routerLifetime = advDefaultLifetime ∨ x.1.routerLifetime = 0
  up : o.world.process.isSome = true → o.announced = true → LastTold a o advDefaultLifetime

section Told
variable {a : Advertiser} {o o' : Observed} {action : Action}

theorem Told.step (h : Told a o) (hstep : Tells a o action o') : Told a o' := by
  cases hstep with
  | nothing hsent hup hannounced =>
    refine ⟨by rw [hsent]; exact h.sent, fun hrunning htold => ?_⟩
    obtain ⟨hbefore, hhandled⟩ := hannounced htold
    rw [LastTold, hsent, hhandled]
    exact h.up (hup.symm.trans hrunning) hbefore
  | configuration cfg hhandled hsent hup =>
    refine ⟨?_, fun _ _ => ⟨cfg, o.sent, hhandled, hsent⟩⟩
    rw [hsent]
    exact List.forall_mem_cons.mpr ⟨.inl rfl, h.sent⟩
  | withdrawal cfg hhandled hsent hdown =>
    refine ⟨?_, fun hrunning => absurd hrunning (by simp [hdown])⟩
    rw [hsent]
    exact List.forall_mem_cons.mpr ⟨.inr rfl, h.sent⟩
  | idle hhandled hsent hdown =>
    exact ⟨by rw [hsent]; exact h.sent, fun hrunning => absurd hrunning (by simp [hdown])⟩
  | restarted hsent hup hannounced =>
    exact ⟨by rw [hsent]; exact h.sent, fun _ htold => absurd htold (by simp [hannounced])⟩
  | killed hkilled hsent hdown =>
    exact ⟨by rw [hsent]; exact h.sent, fun hrunning => absurd hrunning (by simp [hdown])⟩

/-- A process that ends, with something to announce, withdraws it. -/
theorem Tells.withdrawn (hstep : Tells a o action o') (halive : action ≠ .event .killed)
    (hup : o.world.process.isSome = true) (hdown : o'.world.process = none)
    (hhandled : o'.handled.isSome) : LastTold a o' 0 := by
  cases hstep with
  | nothing hsent hsame _ => exact absurd (hsame.trans hup) (by simp [hdown])
  | configuration cfg hcfg hsent hup' => exact absurd hup' (by simp [hdown])
  | withdrawal cfg hcfg hsent _ => exact ⟨cfg, o.sent, hcfg, hsent⟩
  | idle hnone hsent _ => exact absurd hhandled (by simp [hnone])
  | restarted hsent hup' hannounced => exact absurd hup' (by simp [hdown])
  | killed hkilled hsent _ => exact absurd hkilled halive

/-- A host reads an advertisement of the configuration. -/
theorem read_ra (hmac : a.mac.length = 6) (cfg : Config) {lifetime : ℤ} {wire : UInt16}
    (h : lifetime = advDefaultLifetime ∧ wire = 1800 ∨ lifetime = 0 ∧ wire = 0) :
    readRouterAdvertisement (a.ra cfg lifetime).marshal = some (cfg.view a.mac wire) := by
  rcases h with ⟨rfl, rfl⟩ | ⟨rfl, rfl⟩
  · exact readRouterAdvertisement_marshal cfg hmac (by decide) (by decide)
  · exact readRouterAdvertisement_marshal cfg hmac (by decide) (by decide)

end Told

/-- In every run the hosts read each advertisement as the configuration of the cast handled last,
with the router lifetime of half an hour or none. The last one of a process that is up, and
announced what it handled, has the former; the last one of a process that ends, other than by being
killed, the latter. -/
theorem hosts_told (a : Advertiser) (hmac : a.mac.length = 6) (now : ℤ) (actions : List Action) :
    let o := actions.foldl (Observed.step a) (.initial now)
    (∀ x ∈ o.sent, ∃ cfg, x.2 = some cfg ∧ ∃ lifetime, (lifetime = 1800 ∨ lifetime = 0) ∧
      readRouterAdvertisement x.1.marshal = some (cfg.view a.mac lifetime)) ∧
    (o.world.process.isSome = true → o.announced = true → ∃ cfg x rest, o.handled = some cfg ∧
      o.sent = x :: rest ∧ readRouterAdvertisement x.1.marshal = some (cfg.view a.mac 1800)) ∧
    ∀ action, action ≠ .event .killed → o.world.process.isSome = true →
      (o.step a action).world.process = none →
      ∀ cfg, (o.step a action).handled = some cfg → ∃ x rest, (o.step a action).sent = x :: rest ∧
        readRouterAdvertisement x.1.marshal = some (cfg.view a.mac 0) := by
  intro o
  have hrun : Faithful a o ∧ Told a o := by
    refine List.foldlRecOn (motive := fun o => Faithful a o ∧ Told a o) actions _
      ⟨.initial a now, List.forall_mem_nil _, fun _ h => absurd h (by simp [Observed.initial])⟩ ?_
    intro o ho action _
    exact ⟨ho.1.step action, ho.2.step (.step ho.1 action)⟩
  refine ⟨fun x hx => ?_, fun hup htold => ?_, fun action halive hup hdown cfg hcfg => ?_⟩
  · obtain ⟨cfg, lifetime, hcfg, hra⟩ := hrun.1.carried x hx
    refine ⟨cfg, hcfg, ?_⟩
    rcases hrun.2.sent x hx with hdefault | hzero
    · have hlifetime : lifetime = advDefaultLifetime := by rw [← hdefault, hra]; rfl
      exact ⟨1800, .inl rfl, by rw [hra]; exact read_ra hmac cfg (.inl ⟨hlifetime, rfl⟩)⟩
    · have hlifetime : lifetime = 0 := by rw [← hzero, hra]; rfl
      exact ⟨0, .inr rfl, by rw [hra]; exact read_ra hmac cfg (.inr ⟨hlifetime, rfl⟩)⟩
  · obtain ⟨cfg, rest, hcfg, hsent⟩ := hrun.2.up hup htold
    exact ⟨cfg, _, rest, hcfg, hsent, read_ra hmac cfg (.inl ⟨rfl, rfl⟩)⟩
  · obtain ⟨cfg', rest, hcfg', hsent⟩ :=
      (Tells.step hrun.1 action).withdrawn halive hup hdown (by rw [hcfg]; rfl)
    cases hcfg.symm.trans hcfg'
    exact ⟨_, rest, hsent, read_ra hmac cfg (.inr ⟨rfl, rfl⟩)⟩

/-- The process is killed, and the next one announces a configuration. -/
def killedThenAnnounced (cfg : Config) : List Action :=
  [.event .killed, .restart, .event (.cast cfg), .event (.handled 0 none),
    .event (.fired .unsolicited 0 none)]

theorem hosts_told_stopped :
    let a : Advertiser := ⟨"lan0", [2, 0, 0, 0, 0, 1]⟩
    let cfg : Config := ⟨some ⟨.zero 16, 64⟩, true, 3600 * second, 1800 * second, none⟩
    let o := ((killedThenAnnounced cfg).foldl (Observed.step a) (.initial 0)).step a
      (.event (.shutdown none))
    o.sent.length = 2 ∧ ∃ x rest, o.sent = x :: rest ∧
      readRouterAdvertisement x.1.marshal = some (cfg.view a.mac 0) := by
  intro a cfg o
  exact ⟨by decide +kernel, (hosts_told a rfl 0 (killedThenAnnounced cfg)).2.2
    (.event (.shutdown none)) (by simp) (by decide +kernel) (by decide +kernel) cfg
    (by decide +kernel)⟩

end Minuteman.Radvd
