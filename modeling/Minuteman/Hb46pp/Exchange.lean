import Minuteman.Loader.Operations

/-!
# One HB46PP exchange

`pkg/hb46pp`: a TXT record locates the provisioning server, a GET fetches its
answer. The resolver, `net/url`, the HTTP client and `encoding/json` are the
surroundings of an exchange.
-/
namespace Minuteman.Hb46pp
open Loader

structure ClientInfo where
  vendorID : String
  product : String
  version : String
  capabilities : List String
  token : String

inductive ClientError
  | vendorID (v : String)
  | product (v : String)
  | version (v : String)
  | noCapability
  | unknownCapability (v : String)
  | token (v : String)
  deriving DecidableEq

def isHex (c : Char) : Bool := c.isDigit || ('a' ≤ c && c ≤ 'f') || ('A' ≤ c && c ≤ 'F')

def isWord (c : Char) : Bool := c.isAlphanum || c == '_'

def isRun (p : Char → Bool) (lo hi : ℕ) (cs : List Char) : Bool :=
  lo ≤ cs.length && cs.length ≤ hi && cs.all p

def vendorIDPattern (s : String) : Bool :=
  isRun isHex 6 6 (s.toList.take 6) &&
    match s.toList.drop 6 with
    | [] => true
    | c :: suffix => c == '-' && isRun isWord 1 24 suffix

def productPattern (s : String) : Bool := isRun (fun c => isWord c || c == '-') 1 32 s.toList
def versionPattern (s : String) : Bool := isRun (fun c => c.isDigit || c == '_') 1 32 s.toList
def tokenPattern (s : String) : Bool := isRun isHex 64 64 s.toList

def knownCapabilities : List String := ["464xlat", "dslite", "ipip", "lw4o6", "map_e", "map_t"]

def ClientInfo.validate (c : ClientInfo) : Except ClientError Unit :=
  if !vendorIDPattern c.vendorID then .error (.vendorID c.vendorID)
  else if !productPattern c.product then .error (.product c.product)
  else if !versionPattern c.version then .error (.version c.version)
  else if c.capabilities = [] then .error .noCapability
  else
    match c.capabilities.find? fun capability => !knownCapabilities.contains capability with
    | some capability => .error (.unknownCapability capability)
    | none =>
      if c.token ≠ "" ∧ !tokenPattern c.token then .error (.token c.token) else .ok ()

def Echoable (token : String) : Prop := token = "" ∨ tokenPattern token = true

theorem ClientInfo.validate_ok_iff (c : ClientInfo) :
    c.validate = .ok () ↔ vendorIDPattern c.vendorID = true ∧ productPattern c.product = true ∧
      versionPattern c.version = true ∧ c.capabilities ≠ [] ∧
      (∀ capability ∈ c.capabilities, capability ∈ knownCapabilities) ∧ Echoable c.token := by
  unfold validate Echoable
  cases hfind : c.capabilities.find? fun capability => !knownCapabilities.contains capability with
  | some capability =>
    have hmem := List.mem_of_find?_eq_some hfind
    have hunknown := List.find?_some hfind
    simp only [Bool.not_eq_true', List.contains_eq_mem, decide_eq_false_iff_not] at hunknown
    constructor
    · intro h
      split_ifs at h
    · intro h
      exact absurd (h.2.2.2.2.1 capability hmem) hunknown
  | none =>
    simp only [List.find?_eq_none, Bool.not_eq_true', List.contains_eq_mem,
      decide_eq_false_iff_not, not_not] at hfind
    split_ifs with hvendor hproduct hversion hnone htoken
    all_goals simp_all [or_iff_not_imp_left]

def hexDigit (n : ℕ) : Char := "0123456789ABCDEF".toList.getD n '0'

/-- `url.QueryEscape` on one byte. -/
def escapeByte (b : UInt8) : List Char :=
  let c := Char.ofNat b.toNat
  if isWord c || c == '-' || c == '.' || c == '~' then [c]
  else if c = ' ' then ['+']
  else ['%', hexDigit (b.toNat / 16), hexDigit (b.toNat % 16)]

def queryEscape (s : String) : String := String.ofList (s.toUTF8.toList.flatMap escapeByte)

def ClientInfo.parameters (c : ClientInfo) : List (String × String) :=
  [("vendorid", c.vendorID), ("product", c.product), ("version", c.version),
    ("capability", ",".intercalate c.capabilities)] ++
  if c.token = "" then [] else [("token", c.token)]

def requestURL (base : String) (c : ClientInfo) : Except ClientError String :=
  match c.validate with
  | .error e => .error e
  | .ok () =>
    let q := "&".intercalate (c.parameters.map fun p => p.1 ++ "=" ++ queryEscape p.2)
    .ok (base ++ (if base.toList.contains '?' then "&" else "?") ++ q)

theorem requestURL_ok {base url : String} {c : ClientInfo} (h : requestURL base c = .ok url) :
    Echoable c.token := by
  unfold requestURL at h
  split at h
  · cases h
  · next hvalid => exact ((ClientInfo.validate_ok_iff c).mp hvalid).2.2.2.2.2

theorem requestURL_of_valid {c : ClientInfo} (h : c.validate = .ok ()) (base : String) :
    ∃ url, requestURL base c = .ok url := by
  rw [requestURL, h]
  exact ⟨_, rfl⟩

structure ServerInfo where
  url : String
  validateCert : Bool

structure Url where
  scheme : String
  host : String
  text : String

structure Provisioning where
  enablerName : String
  token : String
  auth : String
  ttl : Option ℤ
  order : Option (List String)
  dsLite : Option String

/-- A response body as `encoding/json` sees it. -/
structure Body where
  readable : Bool := true
  length : ℕ := 0
  decoded : Option Provisioning
  trailing : Bool := false

structure HttpResponse where
  status : ℕ
  location : String
  body : Body

inductive LookupError
  | notFound
  | failed

/-- What an exchange meets: `respond n` answers its request number `n`. -/
structure Network where
  lookupTXT : Except LookupError (List String)
  parseURL : String → Option Url
  resolveReference : String → String → Option Url
  respond : ℕ → Option HttpResponse
  parseAddr : String → Option Addr
  lookupNetIP : String → Option (List Addr)
  refresh : ℤ

inductive TxtError
  | version (v : String)
  | noURL
  | badURL (v : String)
  | noHost (v : String)
  | scheme (t v : String)
  | t (v : String)

inductive Error
  | notProvisioned (why : Option TxtError)
  | lookup
  | client (e : ClientError)
  | building
  | request
  | noLocation
  | downgrade (scheme : String)
  | reading
  | oversized
  | decoding
  | trailing
  | noEnablerName
  | noOrder
  | authBad
  | notRecognized (status : ℕ)
  | status (status : ℕ)
  | tooManyRedirects
  | aftrNotIpv6 (aftr : String)
  | resolving (aftr : String)
  | noDsLite (order : Option (List String))
  | dhcp

def isSpace (c : Char) : Bool :=
  [0x09, 0x0a, 0x0b, 0x0c, 0x0d, 0x20, 0x85, 0xa0, 0x1680, 0x2028, 0x2029, 0x202f, 0x205f,
    0x3000].contains c.toNat || (0x2000 ≤ c.toNat && c.toNat ≤ 0x200a)

/-- `strings.Fields`, each field cut at its first `=`; fields without one are left out. -/
def keyValues (record : String) : List (String × String) :=
  (record.toList.splitOnP isSpace).filterMap fun field =>
    match field.dropWhile (· ≠ '=') with
    | [] => none
    | _ :: v => some (String.ofList (field.takeWhile (· ≠ '=')), String.ofList v)

def parseTXTRecord (net : Network) (record : String) : Except TxtError ServerInfo :=
  let kv (key : String) := ((keyValues record).lookup key).getD ""
  let rawURL := kv "url"
  if kv "v" ≠ "v6mig-1" then .error (.version (kv "v"))
  else if rawURL = "" then .error .noURL
  else
    match net.parseURL rawURL with
    | none => .error (.badURL rawURL)
    | some u =>
      if u.host = "" then .error (.noHost rawURL)
      else if kv "t" = "a" then
        if u.scheme ≠ "http" ∧ u.scheme ≠ "https" then .error (.scheme "a" u.scheme)
        else .ok ⟨rawURL, false⟩
      else if kv "t" = "b" then
        if u.scheme ≠ "https" then .error (.scheme "b" u.scheme) else .ok ⟨rawURL, true⟩
      else .error (.t (kv "t"))

/-- The loop of `lookupServer`: the first record that parses, or the error of the last. -/
def firstServer (net : Network) : Option TxtError → List String → Except Error ServerInfo
  | lastErr, [] => .error (.notProvisioned lastErr)
  | _, record :: rest =>
    match parseTXTRecord net record with
    | .ok info => .ok info
    | .error e => firstServer net (some e) rest

def lookupServer (net : Network) : Except Error ServerInfo :=
  match net.lookupTXT with
  | .error .notFound => .error (.notProvisioned none)
  | .error .failed => .error .lookup
  | .ok records => firstServer net none records

def decodeProvisioning (body : Body) : Except Error Provisioning :=
  match body.decoded with
  | none => .error .decoding
  | some p =>
    if body.trailing then .error .trailing
    else if p.enablerName = "" then .error .noEnablerName
    else if p.order = none then .error .noOrder
    else if p.auth = "bad" then .error .authBad
    else .ok p

def maxResponseBytes : ℕ := 2 ^ 20
def maxRedirects : ℕ := 5

/-- The body of a response of status 200. -/
def readProvisioning (body : Body) : Except Error Provisioning :=
  if !body.readable then .error .reading
  else if body.length > maxResponseBytes then .error .oversized
  else decodeProvisioning body

/-- The loop of `fetchProvisioning`, with the URLs requested. -/
def follow (net : Network) (requireHTTPS : Bool) :
    ℕ → ℕ → String → Except Error Provisioning × List String
  | 0, _, _ => (.error .tooManyRedirects, [])
  | left + 1, n, reqURL =>
    if (net.parseURL reqURL).isNone then (.error .building, [])
    else
      match net.respond n with
      | none => (.error .request, [reqURL])
      | some resp =>
        if resp.status = 307 then
          match net.resolveReference reqURL resp.location with
          | none => (.error .noLocation, [reqURL])
          | some next =>
            if requireHTTPS ∧ next.scheme ≠ "https" then (.error (.downgrade next.scheme), [reqURL])
            else
              let rest := follow net requireHTTPS left (n + 1) next.text
              (rest.1, reqURL :: rest.2)
        else if resp.status = 200 then (readProvisioning resp.body, [reqURL])
        else if resp.status = 403 ∨ resp.status = 404 then
          (.error (.notRecognized resp.status), [reqURL])
        else (.error (.status resp.status), [reqURL])

def fetchProvisioning (net : Network) (reqURL : String) (requireHTTPS : Bool) :
    Except Error Provisioning × List String :=
  follow net requireHTTPS (maxRedirects + 1) 0 reqURL

def maxTTLSeconds : ℤ := 604800

/-- `RefreshInterval`, in nanoseconds; the draw of a response without a lifetime is the network's. -/
def Provisioning.refreshInterval (p : Provisioning) (draw : ℤ) : ℤ :=
  match p.ttl with
  | none => draw
  | some ttl => if 0 < ttl then min ttl maxTTLSeconds * 1000000000 else draw

def resolveAFTR (net : Network) (aftr : String) : Except Error Addr :=
  match net.parseAddr aftr with
  | some addr => if !addr.is6 || addr.is4In6 then .error (.aftrNotIpv6 aftr) else .ok addr
  | none =>
    match net.lookupNetIP aftr with
    | some (addr :: _) => .ok addr
    | _ => .error (.resolving aftr)

structure Result where
  provisioning : Provisioning
  aftrAddr : Addr
  refreshInterval : ℤ

/-- What came of an attempt, the provisioning server it located and the URLs it requested. -/
structure Attempt (α : Type) where
  result : Except Error α
  server : Option ServerInfo := none
  requests : List String := []

/-- The end of `Discover`: the address of the AFTR, if the response names one. -/
def concludeDiscover (net : Network) (prov : Provisioning) : Except Error Result :=
  let refresh := prov.refreshInterval net.refresh
  match prov.dsLite with
  | none => .ok ⟨prov, .invalid, refresh⟩
  | some aftr =>
    match resolveAFTR net aftr with
    | .error e => .error e
    | .ok addr => .ok ⟨prov, addr, refresh⟩

def discover (net : Network) (client : ClientInfo) : Attempt Result :=
  match lookupServer net with
  | .error e => { result := .error e }
  | .ok server =>
    match requestURL server.url client with
    | .error e => { result := .error (.client e), server := some server }
    | .ok reqURL =>
      let fetched := fetchProvisioning net reqURL server.validateCert
      { result := fetched.1.bind (concludeDiscover net)
        server := some server
        requests := fetched.2 }

end Minuteman.Hb46pp
