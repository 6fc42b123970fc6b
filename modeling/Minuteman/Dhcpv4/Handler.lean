import Minuteman.Dhcpv4.Messages

/-!
# Answering DHCPv4 requests

`pkg/dhcpv4/handler.go`: one request and the pool in, the reply and the pool
after it out.
-/
namespace Minuteman.Dhcpv4
open Library ByteString

structure InterfaceConfig where
  serverIP : Addr
  subnet : Prefix
  dnsServers : List Addr
  mtu : UInt16
  leaseTime : ℤ

def subnetMask (bits : ℕ) : Addr := if bits > 0 then 0xffffffff <<< UInt32.ofNat (32 - bits) else 0

def configOptions (cfg : InterfaceConfig) : Options :=
  [newAddr optSubnetMask (subnetMask cfg.subnet.bits),
    newAddr optRouter cfg.serverIP,
    newAddr optBroadcastAddr (lastAddr cfg.subnet.masked)] ++
  (if cfg.dnsServers.length > 0 then [newAddrs optDNSServers cfg.dnsServers] else []) ++
  (if cfg.mtu ≠ 0 then [newMTU cfg.mtu] else [])

def baseReply (req : Message) : Message where
  op := opBootReply
  htype := hardwareTypeEthernet
  hlen := 6
  hops := 0
  xid := req.xid
  secs := 0
  flags := req.flags
  ciaddr := none
  yiaddr := none
  siaddr := none
  giaddr := req.giaddr
  chaddr := req.chaddr
  sname := []
  file := []
  options := []

def buildReply (cfg : InterfaceConfig) (pool : Pool) (req : Message) (mt : MessageType)
    (yip : Addr) : Message :=
  { baseReply req with
    yiaddr := some yip
    options :=
      [newMessageType mt,
        newAddr optServerID cfg.serverIP,
        newSeconds optLeaseTime pool.duration,
        newSeconds optRenewalTime (pool.duration.tdiv 2),
        newSeconds optRebindingTime ((wrap64 (pool.duration * 7)).tdiv 8)] ++ configOptions cfg }

def buildInformAck (cfg : InterfaceConfig) (req : Message) : Message :=
  { baseReply req with
    ciaddr := req.ciaddr
    options :=
      [newMessageType .ack, newAddr optServerID cfg.serverIP] ++ configOptions cfg }

def buildNAK (cfg : InterfaceConfig) (req : Message) : Message :=
  { baseReply req with
    flags := req.flags ||| flagBroadcast
    options := [newMessageType .nak, newAddr optServerID cfg.serverIP] }

def handleRequest (cfg : InterfaceConfig) (pool : Pool) (req : Message) (c : ClientId) (now : ℤ) :
    Option Message × Pool :=
  match req.options.serverID with
  | some sid =>
    if sid ≠ cfg.serverIP then (none, pool.cancelOffer c)
    else
      match req.options.requestedIP with
      | none => (none, pool)
      | some reqIP =>
        if pool.binding c now ≠ some reqIP then (some (buildNAK cfg req), pool)
        else
          let pool := pool.commit c reqIP now
          (some (buildReply cfg pool req .ack reqIP), pool)
  | none =>
    match req.options.requestedIP.or req.ciaddr with
    | none => (none, pool)
    | some target =>
      if target = 0 then (none, pool)
      else
        match pool.binding c now with
        | none => (none, pool)
        | some bound =>
          if bound ≠ target then (some (buildNAK cfg req), pool)
          else
            let pool := pool.commit c target now
            (some (buildReply cfg pool req .ack target), pool)

def handle (cfg : InterfaceConfig) (pool : Pool) (req : Message) (now : ℤ) :
    Option Message × Pool :=
  if req.op ≠ opBootRequest then (none, pool)
  else if req.giaddr.getD 0 ≠ 0 then (none, pool)
  else
    let c := req.client
    match req.options.messageType with
    | some .discover =>
      match pool.offer c req.options.requestedIP now with
      | (none, pool) => (none, pool)
      | (some ip, pool) => (some (buildReply cfg pool req .offer ip), pool)
    | some .request => handleRequest cfg pool req c now
    | some .release =>
      if req.options.serverID.getD cfg.serverIP ≠ cfg.serverIP then (none, pool)
      else (none, pool.release c req.ciaddr)
    | some .decline =>
      if req.options.serverID ≠ some cfg.serverIP then (none, pool)
      else
        match req.options.requestedIP with
        | some declined => (none, pool.decline c declined now)
        | none => (none, pool)
    | some .inform => (some (buildInformAck cfg req), pool)
    | _ => (none, pool)

theorem messageType_cons (mt : MessageType) (rest : Options) (h : MessageType.ofByte mt.toByte = mt) :
    Options.messageType (newMessageType mt :: rest) = some mt := by
  simp [Options.messageType, Options.get, newMessageType, h]

@[simp] theorem buildNAK_granted (cfg : InterfaceConfig) (req : Message) :
    (buildNAK cfg req).granted = none := by
  rw [Message.granted, buildNAK, messageType_cons .nak _ rfl]

theorem buildReply_messageType {mt : MessageType} (h : mt = .offer ∨ mt = .ack)
    (cfg : InterfaceConfig) (pool : Pool) (req : Message) (ip : Addr) :
    (buildReply cfg pool req mt ip).options.messageType = some mt := by
  rcases h with rfl | rfl
  · exact messageType_cons .offer _ rfl
  · exact messageType_cons .ack _ rfl

theorem buildReply_granted {mt : MessageType} (h : mt = .offer ∨ mt = .ack)
    (cfg : InterfaceConfig) (pool : Pool) (req : Message) (ip : Addr) :
    (buildReply cfg pool req mt ip).granted = some ip := by
  rw [Message.granted, buildReply_messageType h]
  rcases h with rfl | rfl <;> rfl

/-- The ACK of an INFORM carries no address. -/
@[simp] theorem buildInformAck_granted (cfg : InterfaceConfig) (req : Message) :
    (buildInformAck cfg req).granted = none := by
  rw [Message.granted]
  split <;> rfl

/-- `req` is a RELEASE or DECLINE of `ip` that this server takes. -/
def Message.GivesUp (req : Message) (cfg : InterfaceConfig) (ip : Addr) : Prop :=
  (req.op = opBootRequest ∧ req.giaddr.getD 0 = 0) ∧
  ((req.options.messageType = some .release ∧
    req.options.serverID.getD cfg.serverIP = cfg.serverIP ∧ req.ciaddr = some ip) ∨
  (req.options.messageType = some .decline ∧
    req.options.serverID = some cfg.serverIP ∧ req.options.requestedIP = some ip))

instance (req : Message) (cfg : InterfaceConfig) (ip : Addr) : Decidable (req.GivesUp cfg ip) :=
  inferInstanceAs (Decidable (_ ∧ _))

/-- All a request may do to the pool, and what it is answered. The client asking is the only one
whose binding is renewed or dropped; an OFFER or ACK reserves the address it grants. -/
inductive Handled (cfg : InterfaceConfig) (p : Pool) (req : Message) (now : ℤ) :
    Option Message × Pool → Prop
  | ungranted (reply : Option Message) (q : Pool) (hq : Pool.Pruned now p q)
      (hreply : ∀ m, reply = some m → m.granted = none) : Handled cfg p req now (reply, q)
  | granted (q : Pool) (ip : Addr) (state : BindingState) (mt : MessageType)
      (hq : Pool.Pruned now p q) (take : p.MayTake req.client ip now)
      (own : ∀ l, p.byClient req.client = some l → now < l.expiry → p.Usable l.ip now →
        ip = l.ip ∧ (l.state = .committed → state = .committed))
      (hmt : mt = .offer ∨ mt = .ack ∧ state = .committed) :
      Handled cfg p req now
        (some (buildReply cfg (q.hold req.client ip now state) req mt ip),
          q.hold req.client ip now state)
  | cancelled (l : PoolLease) (hl : p.byClient req.client = some l) (hstate : l.state = .offered) :
      Handled cfg p req now (none, p.clear req.client)
  | released (ip : Addr) (gives : req.GivesUp cfg ip) (own : p.byIP ip = some req.client) :
      Handled cfg p req now (none, p.clear req.client)
  | declined (ip : Addr) (gives : req.GivesUp cfg ip) (own : p.byIP ip = some req.client) :
      Handled cfg p req now (none, p.decline req.client ip now)

namespace Handled
variable {cfg : InterfaceConfig} {p : Pool} {req : Message} {now : ℤ}

theorem silent : Handled cfg p req now (none, p) :=
  .ungranted none p (Pool.Pruned.refl now p) (by simp)

theorem nak : Handled cfg p req now (some (buildNAK cfg req), p) :=
  .ungranted _ p (Pool.Pruned.refl now p) (by simp)

/-- A REQUEST for the address bound is acknowledged. -/
theorem ack {ip : Addr} (hip : p.binding req.client now = some ip) :
    Handled cfg p req now (some (buildReply cfg (p.commit req.client ip now) req .ack ip),
      p.commit req.client ip now) := by
  obtain ⟨l, hl, -, rfl⟩ := Pool.binding_eq_some.mp hip
  refine .granted p l.ip .committed .ack (Pool.Pruned.refl now p) (.inr ⟨l, hl, rfl⟩) ?_ (.inr ?_)
  · intro l' hl' _ _
    cases hl.symm.trans hl'
    exact ⟨rfl, fun _ => rfl⟩
  · exact ⟨rfl, rfl⟩

end Handled

theorem cancelOffer_handled (cfg : InterfaceConfig) (p : Pool) (req : Message) (now : ℤ) :
    Handled cfg p req now (none, p.cancelOffer req.client) := by
  rw [Pool.cancelOffer]
  cases hl : p.byClient req.client with
  | none => exact .silent
  | some l =>
    dsimp only
    split
    case isTrue hstate => exact .cancelled l hl hstate
    case isFalse => exact .silent

theorem handleRequest_handled (cfg : InterfaceConfig) (p : Pool) (req : Message) (now : ℤ) :
    Handled cfg p req now (handleRequest cfg p req req.client now) := by
  rw [handleRequest]
  split
  · split
    · exact cancelOffer_handled cfg p req now
    · split
      · exact .silent
      · split
        · exact .nak
        case isFalse hbound => exact .ack (not_not.mp hbound)
  · split
    · exact .silent
    · split
      · exact .silent
      · split
        · exact .silent
        case h_2 bound hbound =>
          split
          · exact .nak
          case isFalse heq => exact .ack (hbound.trans (congrArg some (not_not.mp heq)))

theorem handle_handled (cfg : InterfaceConfig) (p : Pool) (req : Message) (now : ℤ) :
    Handled cfg p req now (handle cfg p req now) := by
  rw [handle]
  by_cases hop : req.op = opBootRequest
  swap
  · rw [if_pos hop]
    exact .silent
  by_cases hgi : req.giaddr.getD 0 = 0
  swap
  · rw [if_neg (not_not.mpr hop), if_pos hgi]
    exact .silent
  rw [if_neg (not_not.mpr hop), if_neg (not_not.mpr hgi)]
  dsimp only
  split
  case h_1 =>
    have hoffer := p.offer_spec req.client req.options.requestedIP now
    split
    case h_1 q heq =>
      rw [heq] at hoffer
      cases hoffer with
      | exhausted _ hq => exact .ungranted none q hq (by simp)
    case h_2 ip q heq =>
      rw [heq] at hoffer
      cases hoffer with
      | reserved r _ state hr take own =>
        refine .granted r ip state .offer hr take ?_ (.inl rfl)
        intro l hl hlt hu
        obtain ⟨hip, hstate⟩ := own l hl hlt hu
        exact ⟨hip, fun h => hstate.trans h⟩
  case h_2 => exact handleRequest_handled cfg p req now
  case h_3 hmt =>
    split
    · exact .silent
    case isFalse hsid =>
      rw [Pool.release]
      split
      case isTrue howner =>
        obtain ⟨ip, hip, hbyIP⟩ := Option.bind_eq_some_iff.mp howner
        exact .released ip ⟨⟨hop, hgi⟩, .inl ⟨hmt, not_not.mp hsid, hip⟩⟩ hbyIP
      case isFalse => exact .silent
  case h_4 hmt =>
    split
    · exact .silent
    case isFalse hsid =>
      split
      case h_1 ip hip =>
        by_cases howner : p.byIP ip = some req.client
        · exact .declined ip ⟨⟨hop, hgi⟩, .inr ⟨hmt, not_not.mp hsid, hip⟩⟩ howner
        · rw [Pool.decline, if_pos howner]
          exact .silent
      case h_2 => exact .silent
  case h_5 => exact .ungranted _ p (Pool.Pruned.refl now p) (by simp)
  case h_6 => exact .silent

def clientMessage (chaddr : Bytes) (mt : MessageType) (options : Options) : Message where
  op := opBootRequest
  htype := hardwareTypeEthernet
  hlen := UInt8.ofNat chaddr.length
  hops := 0
  xid := 0
  secs := 0
  flags := 0
  ciaddr := none
  yiaddr := none
  siaddr := none
  giaddr := none
  chaddr := chaddr
  sname := []
  file := []
  options := newMessageType mt :: options

def discoverFrom (chaddr : Bytes) : Message := clientMessage chaddr .discover []

def requestFrom (chaddr : Bytes) (sid ip : Addr) : Message :=
  clientMessage chaddr .request [newAddr optServerID sid, newAddr optRequestedIP ip]

def releaseFrom (chaddr : Bytes) (ip : Addr) : Message :=
  { clientMessage chaddr .release [] with ciaddr := some ip }

end Minuteman.Dhcpv4
