import Minuteman.Dhcpv4.Allocation
import Minuteman.Dhcpv4.Packets

/-!
# No request makes the server panic

`handler.go` once more, with the addresses of a configuration as `netip` has
them and with the operations that may panic. On the configurations the command
accepts it is the handler without them.
-/
namespace Minuteman.Dhcpv4
open Library ByteString Checked

/-- `InterfaceConfig` before its addresses are known to be IPv4. -/
structure RawConfig where
  serverIP : NetAddr
  subnet : Prefix
  dnsServers : List NetAddr
  mtu : UInt16
  leaseTime : ℤ

def InterfaceConfig.raw (cfg : InterfaceConfig) : RawConfig where
  serverIP := .v4 cfg.serverIP
  subnet := cfg.subnet
  dnsServers := cfg.dnsServers.map .v4
  mtu := cfg.mtu
  leaseTime := cfg.leaseTime

namespace Raw

def newAddr (code : OptionCode) (a : NetAddr) : Checked DhcpOption := do
  let v ← a.as4
  .ok ⟨code, be32 v⟩

def newAddrs (code : OptionCode) (addrs : List NetAddr) : Checked DhcpOption := do
  let vs ← addrs.mapM NetAddr.as4
  .ok ⟨code, vs.flatMap be32⟩

/-- A shift by a negative count panics. -/
def subnetMask (bits : ℕ) : Checked NetAddr :=
  if 32 < bits then .error .badArgument else .ok (.v4 (Dhcpv4.subnetMask bits))

def lastAddr (s : Prefix) : Checked NetAddr :=
  if 32 < s.bits then .error .badArgument else .ok (.v4 (Dhcpv4.lastAddr s))

def configOptions (cfg : RawConfig) : Checked Options := do
  let mask ← newAddr optSubnetMask (← subnetMask cfg.subnet.bits)
  let router ← newAddr optRouter cfg.serverIP
  let broadcast ← newAddr optBroadcastAddr (← lastAddr cfg.subnet.masked)
  let dns ← if cfg.dnsServers.length > 0 then do
      let opt ← newAddrs optDNSServers cfg.dnsServers
      .ok [opt]
    else .ok []
  .ok ([mask, router, broadcast] ++ dns ++ (if cfg.mtu ≠ 0 then [newMTU cfg.mtu] else []))

def buildReply (cfg : RawConfig) (pool : Pool) (req : Message) (mt : MessageType) (yip : Addr) :
    Checked Message := do
  let serverID ← newAddr optServerID cfg.serverIP
  let config ← configOptions cfg
  .ok { baseReply req with
    yiaddr := some yip
    options :=
      [newMessageType mt,
        serverID,
        newSeconds optLeaseTime pool.duration,
        newSeconds optRenewalTime (pool.duration.tdiv 2),
        newSeconds optRebindingTime ((wrap64 (pool.duration * 7)).tdiv 8)] ++ config }

def buildInformAck (cfg : RawConfig) (req : Message) : Checked Message := do
  let serverID ← newAddr optServerID cfg.serverIP
  let config ← configOptions cfg
  .ok { baseReply req with
    ciaddr := req.ciaddr
    options := [newMessageType .ack, serverID] ++ config }

def buildNAK (cfg : RawConfig) (req : Message) : Checked Message := do
  let serverID ← newAddr optServerID cfg.serverIP
  .ok { baseReply req with
    flags := req.flags ||| flagBroadcast
    options := [newMessageType .nak, serverID] }

def messageType (o : Options) : Checked (Option MessageType) :=
  match o.get optMessageType with
  | some opt =>
    if opt.data.length ≠ 1 then .ok none
    else do
      let t ← index opt.data 0
      .ok (some (MessageType.ofByte t))
  | none => .ok none

/-- Converting a slice to an array panics if it is shorter. -/
def addr (o : Options) (code : OptionCode) : Checked (Option Addr) :=
  match o.get code with
  | some opt =>
    if opt.data.length ≠ 4 then .ok none
    else do
      let a ← getUint32 opt.data 0
      .ok (some a)
  | none => .ok none

def handleRequest (cfg : RawConfig) (pool : Pool) (req : Message) (c : ClientId) (now : ℤ) :
    Checked (Option Message × Pool) := do
  let reqIP ← addr req.options optRequestedIP
  match ← addr req.options optServerID with
  | some sid =>
    if .v4 sid ≠ cfg.serverIP then .ok (none, pool.cancelOffer c)
    else
      match reqIP with
      | none => .ok (none, pool)
      | some reqIP =>
        if pool.binding c now ≠ some reqIP then do
          let nak ← buildNAK cfg req
          .ok (some nak, pool)
        else do
          let pool := pool.commit c reqIP now
          let ack ← buildReply cfg pool req .ack reqIP
          .ok (some ack, pool)
  | none =>
    match reqIP.or req.ciaddr with
    | none => .ok (none, pool)
    | some target =>
      if target = 0 then .ok (none, pool)
      else
        match pool.binding c now with
        | none => .ok (none, pool)
        | some bound =>
          if bound ≠ target then do
            let nak ← buildNAK cfg req
            .ok (some nak, pool)
          else do
            let pool := pool.commit c target now
            let ack ← buildReply cfg pool req .ack target
            .ok (some ack, pool)

def handle (cfg : RawConfig) (pool : Pool) (req : Message) (now : ℤ) :
    Checked (Option Message × Pool) :=
  if req.op ≠ opBootRequest then .ok (none, pool)
  else if req.giaddr.getD 0 ≠ 0 then .ok (none, pool)
  else do
    let c := req.client
    match ← messageType req.options with
    | some .discover =>
      let requested ← addr req.options optRequestedIP
      match pool.offer c requested now with
      | (none, pool) => .ok (none, pool)
      | (some ip, pool) => do
        let offer ← buildReply cfg pool req .offer ip
        .ok (some offer, pool)
    | some .request => handleRequest cfg pool req c now
    | some .release =>
      match ← addr req.options optServerID with
      | some sid =>
        if .v4 sid ≠ cfg.serverIP then .ok (none, pool) else .ok (none, pool.release c req.ciaddr)
      | none => .ok (none, pool.release c req.ciaddr)
    | some .decline =>
      match ← addr req.options optServerID with
      | some sid =>
        if .v4 sid ≠ cfg.serverIP then .ok (none, pool)
        else
          match ← addr req.options optRequestedIP with
          | some declined => .ok (none, pool.decline c declined now)
          | none => .ok (none, pool)
      | none => .ok (none, pool)
    | some .inform => do
      let ack ← buildInformAck cfg req
      .ok (some ack, pool)
    | _ => .ok (none, pool)

section Returns
variable {cfg : InterfaceConfig} (hbits : cfg.subnet.bits ≤ 32)

/-- The server identifier of a request is compared as it was. -/
theorem ite_serverIP {α : Type} (sid : Addr) (x y : α) :
    (if NetAddr.v4 sid ≠ cfg.raw.serverIP then x else y) = if sid ≠ cfg.serverIP then x else y := by
  by_cases hsid : sid = cfg.serverIP
  · have hraw : NetAddr.v4 sid = cfg.raw.serverIP := congrArg NetAddr.v4 hsid
    rw [if_neg (not_not.mpr hraw), if_neg (not_not.mpr hsid)]
  · have hraw : NetAddr.v4 sid ≠ cfg.raw.serverIP := fun h => hsid (NetAddr.v4.inj h)
    rw [if_pos hraw, if_pos hsid]

theorem newAddr_v4 (code : OptionCode) (a : Addr) :
    newAddr code (.v4 a) = .ok (Dhcpv4.newAddr code a) := rfl

theorem mapM_as4 (addrs : List Addr) : (addrs.map NetAddr.v4).mapM NetAddr.as4 = .ok addrs := by
  induction addrs with
  | nil => rfl
  | cons a addrs ih =>
    rw [List.map_cons, List.mapM_cons, ih]
    rfl

theorem newAddrs_v4 (code : OptionCode) (addrs : List Addr) :
    newAddrs code (addrs.map NetAddr.v4) = .ok (Dhcpv4.newAddrs code addrs) := by
  rw [newAddrs, mapM_as4]
  rfl

include hbits

theorem configOptions_eq : configOptions cfg.raw = .ok (Dhcpv4.configOptions cfg) := by
  have hmask : subnetMask cfg.subnet.bits = .ok (.v4 (Dhcpv4.subnetMask cfg.subnet.bits)) :=
    if_neg (not_lt.mpr hbits)
  have hlast : lastAddr cfg.subnet.masked = .ok (.v4 (Dhcpv4.lastAddr cfg.subnet.masked)) :=
    if_neg (not_lt.mpr hbits)
  rw [configOptions, InterfaceConfig.raw]
  dsimp only
  rw [hmask, ok_bind, newAddr_v4, ok_bind, newAddr_v4, ok_bind, hlast, ok_bind, newAddr_v4, ok_bind,
    newAddrs_v4, List.length_map, Dhcpv4.configOptions]
  split <;> rfl

theorem buildReply_eq (pool : Pool) (req : Message) (mt : MessageType) (yip : Addr) :
    buildReply cfg.raw pool req mt yip = .ok (Dhcpv4.buildReply cfg pool req mt yip) := by
  rw [buildReply, configOptions_eq hbits]
  rfl

theorem buildInformAck_eq (req : Message) :
    buildInformAck cfg.raw req = .ok (Dhcpv4.buildInformAck cfg req) := by
  rw [buildInformAck, configOptions_eq hbits]
  rfl

omit hbits

theorem buildNAK_eq (cfg : InterfaceConfig) (req : Message) :
    buildNAK cfg.raw req = .ok (Dhcpv4.buildNAK cfg req) := rfl

theorem messageType_eq (o : Options) : messageType o = .ok o.messageType := by
  rw [messageType, Options.messageType]
  cases o.get optMessageType with
  | none => rfl
  | some opt =>
    obtain ⟨code, data⟩ := opt
    rcases data with _ | ⟨t, _ | ⟨t', rest⟩⟩
    · rfl
    · rfl
    · rfl

theorem addr_eq (o : Options) (code : OptionCode) : addr o code = .ok (o.addr code) := by
  rw [addr, Options.addr]
  cases o.get code with
  | none => rfl
  | some opt =>
    dsimp only
    split
    case isTrue => rfl
    case isFalse hlen =>
      rw [getUint32_eq (by omega)]
      rfl

include hbits

/-- A REQUEST for the address bound is acknowledged, another one refused, without a panic. -/
theorem answerRequest_eq (pool : Pool) (req : Message) (c : ClientId) (ip : Addr) (now : ℤ)
    (refused : Prop) [Decidable refused] :
    (if refused then do
        let nak ← buildNAK cfg.raw req
        .ok (some nak, pool)
      else do
        let pool := pool.commit c ip now
        let ack ← buildReply cfg.raw pool req .ack ip
        .ok (some ack, pool) : Checked (Option Message × Pool)) =
    .ok (if refused then (some (Dhcpv4.buildNAK cfg req), pool)
      else
        (some (Dhcpv4.buildReply cfg (pool.commit c ip now) req .ack ip), pool.commit c ip now)) := by
  split
  · rw [buildNAK_eq]
    rfl
  · dsimp only
    rw [buildReply_eq hbits]
    rfl

theorem handleRequest_eq (pool : Pool) (req : Message) (c : ClientId) (now : ℤ) :
    handleRequest cfg.raw pool req c now = .ok (Dhcpv4.handleRequest cfg pool req c now) := by
  rw [handleRequest, addr_eq, ok_bind, addr_eq, ok_bind, Dhcpv4.handleRequest, Options.serverID,
    Options.requestedIP]
  cases req.options.addr optServerID with
  | some sid =>
    dsimp only
    rw [ite_serverIP]
    by_cases hsid : sid = cfg.serverIP
    · rw [if_neg (not_not.mpr hsid), if_neg (not_not.mpr hsid)]
      cases req.options.addr optRequestedIP with
      | none => rfl
      | some reqIP => exact answerRequest_eq hbits pool req c reqIP now _
    · rw [if_pos hsid, if_pos hsid]
  | none =>
    dsimp only
    cases (req.options.addr optRequestedIP).or req.ciaddr with
    | none => rfl
    | some target =>
      dsimp only
      by_cases hzero : target = 0
      · rw [if_pos hzero, if_pos hzero]
      · rw [if_neg hzero, if_neg hzero]
        cases pool.binding c now with
        | none => rfl
        | some bound => exact answerRequest_eq hbits pool req c target now _

/-- On an IPv4 configuration the handler returns what it returns without its checks. -/
theorem handle_eq (pool : Pool) (req : Message) (now : ℤ) :
    handle cfg.raw pool req now = .ok (Dhcpv4.handle cfg pool req now) := by
  rw [handle, Dhcpv4.handle]
  by_cases hop : req.op = opBootRequest
  swap
  · rw [if_pos hop, if_pos hop]
  by_cases hgi : req.giaddr.getD 0 = 0
  swap
  · rw [if_neg (not_not.mpr hop), if_neg (not_not.mpr hop), if_pos hgi, if_pos hgi]
  rw [if_neg (not_not.mpr hop), if_neg (not_not.mpr hop), if_neg (not_not.mpr hgi),
    if_neg (not_not.mpr hgi), messageType_eq, ok_bind]
  dsimp only
  cases req.options.messageType with
  | none => rfl
  | some mt =>
    cases mt with
    | discover =>
      dsimp only
      rw [addr_eq, ok_bind, Options.requestedIP]
      rcases pool.offer req.client (req.options.addr optRequestedIP) now with ⟨_ | ip, q⟩
      · rfl
      · dsimp only
        rw [buildReply_eq hbits]
        rfl
    | request => exact handleRequest_eq hbits pool req req.client now
    | release =>
      dsimp only
      rw [addr_eq, ok_bind, Options.serverID]
      cases req.options.addr optServerID with
      | none => rw [Option.getD_none, if_neg (not_not.mpr rfl)]
      | some sid =>
        dsimp only
        rw [ite_serverIP, Option.getD_some]
        split <;> rfl
    | decline =>
      dsimp only
      rw [addr_eq, ok_bind, addr_eq, Options.serverID, Options.requestedIP]
      cases req.options.addr optServerID with
      | none => rfl
      | some sid =>
        dsimp only
        rw [ite_serverIP]
        by_cases hsid : sid = cfg.serverIP
        · have hsome : some sid = some cfg.serverIP := congrArg some hsid
          rw [if_neg (not_not.mpr hsid), if_neg (not_not.mpr hsome), ok_bind]
          cases req.options.addr optRequestedIP <;> rfl
        · have hsome : some sid ≠ some cfg.serverIP := fun h => hsid (Option.some.inj h)
          rw [if_pos hsid, if_pos hsome]
    | inform =>
      dsimp only
      rw [buildInformAck_eq hbits]
      rfl
    | offer => rfl
    | ack => rfl
    | nak => rfl
    | unknown t => rfl

end Returns

/-- `NewPool`, which refuses a server address that is not IPv4. -/
def newPool (subnet : Prefix) (serverIP : NetAddr) (duration : ℤ) : Option Pool :=
  match serverIP with
  | .v4 ip => (Dhcpv4.newPool subnet ip duration).toOption
  | _ => none

def serve (cfg : RawConfig) (pool : Pool) (requests : List (Message × ℤ)) : Checked Pool :=
  requests.foldlM (fun pool r => do
    let next ← handle cfg pool r.1 r.2
    .ok next.2) pool

theorem serve_eq {cfg : InterfaceConfig} (hbits : cfg.subnet.bits ≤ 32) (s : Served)
    (requests : List (Message × ℤ)) :
    serve cfg.raw s.pool requests = .ok (requests.foldl (Served.step cfg) s).pool := by
  induction requests generalizing s with
  | nil => rfl
  | cons r requests ih =>
    rw [serve, List.foldlM_cons, handle_eq hbits, ok_bind, ok_bind]
    exact ih (s.step cfg r)

end Raw

/-- The configuration of one LAN interface, as `runDHCPv4` builds it. -/
def runDHCPv4 (gatewayIP : NetAddr) (subnet : Prefix) (dnsOverride : List NetAddr)
    (dnsProxyOn : Bool) (mtu : UInt16) (lease : ℤ) : RawConfig where
  serverIP := gatewayIP
  subnet := subnet
  dnsServers :=
    if dnsOverride.length > 0 then dnsOverride else if dnsProxyOn then [gatewayIP] else []
  mtu := mtu
  leaseTime := lease

/-- A configuration that passes the checks of the command line and of `NewPool`, and the pool it
starts with. -/
inductive Accepted : RawConfig → Pool → Prop
  | intro (gatewayIP : NetAddr) (subnet : Prefix) (dnsOverride : List NetAddr) (dnsProxyOn : Bool)
      (mtu : UInt16) (lease : ℤ) (pool : Pool) (hdns : ∀ a ∈ dnsOverride, a.is4 = true)
      (hlease : minDHCPv4Lease ≤ lease) (hpool : Raw.newPool subnet gatewayIP lease = some pool) :
      Accepted (runDHCPv4 gatewayIP subnet dnsOverride dnsProxyOn mtu lease) pool

theorem exists_v4_of_is4 {addrs : List NetAddr} (h : ∀ a ∈ addrs, a.is4 = true) :
    ∃ vs : List Addr, addrs = vs.map NetAddr.v4 := by
  induction addrs with
  | nil => exact ⟨[], rfl⟩
  | cons a addrs ih =>
    obtain ⟨vs, rfl⟩ := ih fun a' ha => h a' (by simp [ha])
    cases a with
    | v4 v => exact ⟨v :: vs, rfl⟩
    | zero => exact absurd (h .zero (by simp)) (by decide)
    | v6 v => exact absurd (h (.v6 v) (by simp)) (by simp [NetAddr.is4])

/-- All addresses of an accepted configuration are IPv4. -/
theorem Accepted.config {raw : RawConfig} {pool : Pool} (h : Accepted raw pool) :
    ∃ cfg : InterfaceConfig, raw = cfg.raw ∧
      newPool cfg.subnet cfg.serverIP cfg.leaseTime = .ok pool := by
  cases h with
  | intro gatewayIP subnet dnsOverride dnsProxyOn mtu lease pool hdns _ hpool =>
    obtain ⟨vs, rfl⟩ := exists_v4_of_is4 hdns
    cases gatewayIP with
    | zero => cases hpool
    | v6 a => cases hpool
    | v4 ip =>
      have hok : newPool subnet ip lease = .ok pool := by
        cases hnew : newPool subnet ip lease with
        | error e =>
          rw [Raw.newPool, hnew] at hpool
          cases hpool
        | ok p =>
          rw [Raw.newPool, hnew] at hpool
          cases hpool
          rfl
      refine ⟨⟨ip, subnet, if vs.length > 0 then vs else if dnsProxyOn then [ip] else [], mtu, lease⟩,
        ?_, hok⟩
      simp only [runDHCPv4, InterfaceConfig.raw, List.length_map, RawConfig.mk.injEq, true_and,
        and_true]
      split_ifs <;> rfl

theorem newPool_bits {subnet : Prefix} {serverIP : Addr} {duration : ℤ} {p : Pool}
    (hp : newPool subnet serverIP duration = .ok p) : 1 ≤ subnet.bits ∧ subnet.bits ≤ 30 := by
  simp only [newPool] at hp
  split at hp
  · cases hp
  case isFalse hbits =>
    have hsame : subnet.masked.bits = subnet.bits := rfl
    rw [hsame] at hbits
    omega

inductive Reply (cfg : InterfaceConfig) (req : Message) : Message → Prop
  | nak : Reply cfg req (buildNAK cfg req)
  | inform : Reply cfg req (buildInformAck cfg req)
  | grant (pool : Pool) (mt : MessageType) (ip : Addr) (hmt : mt = .offer ∨ mt = .ack) :
      Reply cfg req (buildReply cfg pool req mt ip)

theorem handleRequest_reply {cfg : InterfaceConfig} {pool : Pool} {req m : Message} {c : ClientId}
    {now : ℤ} (h : (handleRequest cfg pool req c now).1 = some m) : Reply cfg req m := by
  rw [handleRequest] at h
  split at h
  · split at h
    · cases h
    · split at h
      · cases h
      · split at h <;> cases h
        · exact .nak
        · exact .grant _ _ _ (.inr rfl)
  · split at h
    · cases h
    · split at h
      · cases h
      · split at h
        · cases h
        · split at h <;> cases h
          · exact .nak
          · exact .grant _ _ _ (.inr rfl)

theorem handle_reply {cfg : InterfaceConfig} {pool : Pool} {req m : Message} {now : ℤ}
    (h : (handle cfg pool req now).1 = some m) : Reply cfg req m := by
  rw [handle] at h
  split at h
  · cases h
  · split at h
    · cases h
    · dsimp only at h
      split at h
      · split at h <;> cases h
        exact .grant _ _ _ (.inl rfl)
      · exact handleRequest_reply h
      · split at h <;> cases h
      · split at h
        · cases h
        · split at h <;> cases h
      · cases h
        exact .inform
      · cases h

theorem Host.ne_zero {subnet : Prefix} {serverIP a : Addr} (h : Host subnet serverIP a) : a ≠ 0 := by
  rintro rfl
  obtain ⟨hin, hne, -⟩ := h
  have hle := ((subnet.contains_masked 0).mp hin).1
  have hzero : subnet.masked.addr.toNat = 0 := Nat.le_zero.mp hle
  exact hne (UInt32.toNat_inj.mp hzero.symm)

theorem or_and_self (f m : UInt16) : (f ||| m) &&& m = m := by
  apply UInt16.toBitVec_inj.mp
  ext i
  simp only [UInt16.toBitVec_and, UInt16.toBitVec_or, BitVec.getElem_and, BitVec.getElem_or]
  cases m.toBitVec[i] <;> simp

/-- Every reply to a request that was read from a packet has somewhere to go. -/
theorem handle_destination {cfg : InterfaceConfig} {subnet : Prefix} {serverIP : Addr} {p : Pool}
    {req m : Message} {now : ℤ} (hp : p.Formed subnet serverIP) {ciaddr : Addr}
    (hreq : req.ciaddr = some ciaddr) (hm : (handle cfg p req now).1 = some m) :
    ∃ d, (destination m).1 = .v4 d := by
  rw [destination]
  split
  · exact ⟨_, rfl⟩
  case isFalse hbroadcast =>
    cases handle_reply hm with
    | nak =>
      refine absurd ?_ hbroadcast
      change decide ((req.flags ||| flagBroadcast) &&& flagBroadcast ≠ 0) = true
      rw [or_and_self]
      decide
    | inform =>
      change ∃ d, NetAddr.ofField (if (none : Option Addr).getD 0 = 0 then req.ciaddr else none) = _
      rw [Option.getD_none, if_pos rfl, hreq]
      exact ⟨_, rfl⟩
    | grant pool mt ip hmt =>
      obtain ⟨htake, -⟩ := (handle_handled cfg p req now).grant hm (buildReply_granted hmt _ _ _ ip)
      have hne := (hp.host_of_mayTake htake).ne_zero
      change ∃ d, NetAddr.ofField (if ip = 0 then none else some ip) = .v4 d
      rw [if_neg hne]
      exact ⟨_, rfl⟩

/-- No part of an IPv4 packet that was split up. -/
def Unfragmented (b : Bytes) : Prop := be16At b 6 &&& 0x3fff = 0

/-- The IPv4 header and the UDP datagram behind it lie inside the IPv4 total length. -/
def Inside (b : Bytes) : Prop := headerLength b + udpLength b ≤ (be16At b 2).toNat

instance (b : Bytes) : Decidable (Unfragmented b) :=
  inferInstanceAs (Decidable (be16At b 6 &&& 0x3fff = 0))

instance (b : Bytes) : Decidable (Inside b) :=
  inferInstanceAs (Decidable (headerLength b + udpLength b ≤ (be16At b 2).toNat))

/-- `m` is the message of a whole packet `b`, and can be answered. -/
structure WholeRequest (b : Bytes) (m : Message) : Prop where
  unfragmented : Unfragmented b
  inside : Inside b
  port : be16At b (headerLength b + 2) = 67
  payload : 8 ≤ udpLength b ∧ headerLength b + udpLength b ≤ b.length ∧
    parse ((b.drop (headerLength b + 8)).take (udpLength b - 8)) = .ok (.ok m)
  /-- Whatever the server answered before, it handles the request and frames the reply. -/
  answered : ∀ raw p, Accepted raw p → ∀ kept start requests,
    ∃ pool, Raw.serve raw (restore p kept start).1 requests = .ok pool ∧
      ∀ now, ∃ reply next, Raw.handle raw pool m now = .ok (reply, next) ∧
        ∀ r, reply = some r → ∃ f, frame raw.serverIP r = .ok f

theorem request_answered {m : Message} {ciaddr : Addr} (hm : m.ciaddr = some ciaddr)
    {raw : RawConfig} {p : Pool} (h : Accepted raw p) (kept : List (ClientId × Lease)) (start : ℤ)
    (requests : List (Message × ℤ)) :
    ∃ pool, Raw.serve raw (restore p kept start).1 requests = .ok pool ∧
      ∀ now, ∃ reply next, Raw.handle raw pool m now = .ok (reply, next) ∧
        ∀ r, reply = some r → ∃ f, frame raw.serverIP r = .ok f := by
  obtain ⟨cfg, rfl, hpool⟩ := h.config
  have hbits : cfg.subnet.bits ≤ 32 := (newPool_bits hpool).2.trans (by decide)
  have hformed : (requests.foldl (Served.step cfg)
      ⟨(restore p kept start).1, start⟩).pool.Formed cfg.subnet cfg.serverIP :=
    served_formed hpool cfg kept start requests
  refine ⟨_, Raw.serve_eq hbits ⟨(restore p kept start).1, start⟩ requests, fun now => ?_⟩
  refine ⟨_, _, Raw.handle_eq hbits _ m now, fun r hr => ?_⟩
  obtain ⟨d, hd⟩ := handle_destination hformed hm hr
  exact frame_returns hd cfg.serverIP

/-- What is accepted as a request came in a whole packet exactly if the fragment fields and the
total length of the packet, which are not looked at, say so. -/
theorem request_whole_iff (b : Bytes) : ∃ r, parseRequest b = .ok r ∧
    ∀ m, r = some m → (WholeRequest b m ↔ Unfragmented b ∧ Inside b) := by
  rcases parseRequest_cases b with hnone | ⟨opts, hdatagram, hsome, hparse⟩
  · exact ⟨none, hnone, by simp⟩
  · refine ⟨_, hsome, ?_⟩
    rintro m ⟨⟩
    constructor
    · intro h
      exact ⟨h.unfragmented, h.inside⟩
    · rintro ⟨hfragment, hinside⟩
      obtain ⟨hmin, hmax⟩ := hdatagram.length
      refine ⟨hfragment, hinside, hdatagram.port, ⟨hmin, hmax, hparse⟩, ?_⟩
      intro raw p haccepted kept start requests
      exact request_answered rfl haccepted kept start requests

/-- A DISCOVER, in a packet with these fields: where it is in the packet it is a part of, and the
total length. -/
def discoverPacket (fragment total : UInt16) : Bytes :=
  [0x45, 0] ++ be16 total ++ [0, 1] ++ be16 fragment ++ [64, ipprotoUDP, 0, 0] ++ be32 0 ++
    be32 0xffffffff ++ be16 bootpClientPort ++ be16 bootpServerPort ++ be16 308 ++ [0, 0] ++
    (discoverFrom [2, 0, 0, 0, 0, 1]).marshal

def discoverRead : Message :=
  { discoverFrom [2, 0, 0, 0, 0, 1] with
    ciaddr := some 0
    yiaddr := some 0
    siaddr := some 0
    giaddr := some 0 }

theorem request_whole_iff_discover :
    parseRequest (discoverPacket 0 328) = .ok (some discoverRead) ∧
      WholeRequest (discoverPacket 0 328) discoverRead := by
  have hread : parseRequest (discoverPacket 0 328) = .ok (some discoverRead) := by decide +kernel
  obtain ⟨r, hr, hwhole⟩ := request_whole_iff (discoverPacket 0 328)
  cases hread.symm.trans hr
  exact ⟨hread, (hwhole _ rfl).mpr ⟨by decide +kernel, by decide +kernel⟩⟩

/-- A packet that is the middle of a larger one passes the filter and is taken for a request, as is
one whose total length ends before its UDP header does. -/
theorem fragment_taken_for_request :
    (filter (discoverPacket 0x20b9 328) = true ∧
      parseRequest (discoverPacket 0x20b9 328) = .ok (some discoverRead) ∧
      ¬ Unfragmented (discoverPacket 0x20b9 328)) ∧
    (filter (discoverPacket 0 24) = true ∧
      parseRequest (discoverPacket 0 24) = .ok (some discoverRead) ∧
      ¬ Inside (discoverPacket 0 24)) :=
  ⟨⟨by decide +kernel, by decide +kernel, by decide +kernel⟩,
    ⟨by decide +kernel, by decide +kernel, by decide +kernel⟩⟩

end Minuteman.Dhcpv4
