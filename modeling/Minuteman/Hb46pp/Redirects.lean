import Minuteman.Hb46pp.Exchange

/-!
# What a provisioning server can make the client request

A server answers each request as it likes and may redirect it. The record that
located it says with `t=b` that certificates are validated: then no answer leads
to a URL that is not https.
-/
namespace Minuteman.Hb46pp

/-- `getScheme` of `net/url`: the rest of a URL after the characters read so far. -/
def schemeFrom : List Char → List Char → String
  | _, [] => ""
  | read, c :: rest =>
    if c.isAlpha then schemeFrom (read ++ [c]) rest
    else if c.isDigit || c == '+' || c == '-' || c == '.' then
      if read = [] then "" else schemeFrom (read ++ [c]) rest
    else if c == ':' then String.ofList (read.map Char.toLower)
    else ""

def urlScheme (s : String) : String := schemeFrom [] s.toList

/-- `net/url` as documented: the scheme is what stands before the first colon if it has the form of
one, and `String` puts it there. -/
structure Network.Documented (net : Network) : Prop where
  scheme : ∀ {s : String} {u : Url}, net.parseURL s = some u → u.scheme = urlScheme s
  text : ∀ {base location : String} {u : Url}, net.resolveReference base location = some u →
    u.scheme ≠ "" → ∃ rest, u.text = u.scheme ++ ":" ++ rest

theorem schemeFrom_append {read cs : List Char} (h : schemeFrom read cs ≠ "") (tail : List Char) :
    schemeFrom read (cs ++ tail) = schemeFrom read cs := by
  induction cs generalizing read with
  | nil => exact absurd rfl h
  | cons c cs ih =>
    rw [schemeFrom] at h
    rw [List.cons_append, schemeFrom, schemeFrom]
    split_ifs at h ⊢
    · exact ih h
    · rfl
    · exact ih h
    · rfl
    · rfl

/-- What follows a scheme does not change it. -/
theorem urlScheme_append {s : String} (h : urlScheme s ≠ "") (tail : String) :
    urlScheme (s ++ tail) = urlScheme s := by
  rw [urlScheme, String.toList_append]
  exact schemeFrom_append h _

theorem urlScheme_https (rest : String) : urlScheme ("https" ++ ":" ++ rest) = "https" := by
  have hscheme : urlScheme ("https" ++ ":") = "https" := by decide
  rw [urlScheme_append (by rw [hscheme]; decide), hscheme]

def Network.Https (net : Network) (url : String) : Prop :=
  ∃ u, net.parseURL url = some u ∧ u.scheme = "https"

theorem Network.Documented.https {net : Network} (h : net.Documented) {url : String}
    (hparses : (net.parseURL url).isSome) (hscheme : urlScheme url = "https") : net.Https url := by
  obtain ⟨u, hu⟩ := Option.isSome_iff_exists.mp hparses
  exact ⟨u, hu, (h.scheme hu).trans hscheme⟩

/-- A redirect to an https URL is followed to one. -/
theorem Network.Documented.text_https {net : Network} (h : net.Documented)
    {base location : String} {u : Url} (hu : net.resolveReference base location = some u)
    (hscheme : u.scheme = "https") : urlScheme u.text = "https" := by
  obtain ⟨rest, hrest⟩ := h.text hu (hscheme ▸ by decide)
  rw [hrest, hscheme, urlScheme_https]

/-- A record with `t=b` is accepted only with an https URL. -/
theorem parseTXTRecord_validated {net : Network} {record : String} {info : ServerInfo}
    (h : parseTXTRecord net record = .ok info) (ht : (keyValues record).lookup "t" = some "b") :
    info.validateCert = true ∧ net.Https info.url := by
  have hb : ((keyValues record).lookup "t").getD "" = "b" := by rw [ht, Option.getD_some]
  have ha : ((keyValues record).lookup "t").getD "" ≠ "a" := hb ▸ by decide
  unfold parseTXTRecord at h
  simp only [if_neg ha, if_pos hb] at h
  split_ifs at h
  cases hparse : net.parseURL (((keyValues record).lookup "url").getD "") with
  | none =>
    rw [hparse] at h
    cases h
  | some u =>
    rw [hparse] at h
    dsimp only at h
    split_ifs at h with hhost hscheme
    cases h
    exact ⟨rfl, u, hparse, not_not.mp hscheme⟩

theorem requestURL_append {base url : String} {c : ClientInfo} (h : requestURL base c = .ok url) :
    ∃ tail, url = base ++ tail := by
  unfold requestURL at h
  split at h
  · cases h
  · cases h
    exact ⟨_, String.append_assoc⟩

/-- Request number `n`, for `url`, was answered with a 307 to `next`. -/
def Network.Redirects (net : Network) (n : ℕ) (url : String) (next : Url) : Prop :=
  ∃ resp, net.respond n = some resp ∧ resp.status = 307 ∧
    net.resolveReference url resp.location = some next

/-- Request number `n` was answered with a provisioning of at most one mebibyte. -/
def Network.Provisions (net : Network) (n : ℕ) (p : Provisioning) : Prop :=
  ∃ resp, net.respond n = some resp ∧ resp.status = 200 ∧ resp.body.length ≤ 2 ^ 20 ∧
    decodeProvisioning resp.body = .ok p

theorem readProvisioning_ok {body : Body} {p : Provisioning} (h : readProvisioning body = .ok p) :
    body.length ≤ 2 ^ 20 ∧ decodeProvisioning body = .ok p := by
  unfold readProvisioning at h
  split_ifs at h with hread hlength
  exact ⟨not_lt.mp hlength, h⟩

/-- The rounds of the loop, with the number of them left and of the requests made: each builds no
request, ends with its request, or is answered with a 307 that it goes on with. -/
inductive Rounds (net : Network) (requireHTTPS : Bool) :
    ℕ → ℕ → String → Except Error Provisioning → List String → Prop
  | unbuilt {left n : ℕ} {reqURL : String} (e : Error) :
      Rounds net requireHTTPS left n reqURL (.error e) []
  | ended {left n : ℕ} {reqURL : String} (result : Except Error Provisioning)
      (hbuilt : (net.parseURL reqURL).isSome)
      (hresult : ∀ p, result = .ok p → net.Provisions n p) :
      Rounds net requireHTTPS (left + 1) n reqURL result [reqURL]
  | redirected {left n : ℕ} {reqURL : String} {result : Except Error Provisioning}
      {requests : List String} (next : Url) (hbuilt : (net.parseURL reqURL).isSome)
      (hnext : net.Redirects n reqURL next)
      (hscheme : requireHTTPS = true → next.scheme = "https")
      (hrest : Rounds net requireHTTPS left (n + 1) next.text result requests) :
      Rounds net requireHTTPS (left + 1) n reqURL result (reqURL :: requests)

theorem follow_rounds (net : Network) (requireHTTPS : Bool) (left n : ℕ) (reqURL : String) :
    Rounds net requireHTTPS left n reqURL (follow net requireHTTPS left n reqURL).1
      (follow net requireHTTPS left n reqURL).2 := by
  induction left generalizing n reqURL with
  | zero => exact .unbuilt _
  | succ left ih =>
    unfold follow
    split_ifs with hnone
    · exact .unbuilt _
    have hbuilt : (net.parseURL reqURL).isSome = true := by
      rwa [Option.isNone_iff_eq_none, ← ne_eq, Option.ne_none_iff_isSome] at hnone
    cases hresp : net.respond n with
    | none => exact .ended _ hbuilt nofun
    | some resp =>
      dsimp only
      split_ifs with hstatus hok hsubscriber
      · cases hnext : net.resolveReference reqURL resp.location with
        | none => exact .ended _ hbuilt nofun
        | some next =>
          dsimp only
          split_ifs with hscheme
          · exact .ended _ hbuilt nofun
          · refine .redirected next hbuilt ⟨resp, hresp, hstatus, hnext⟩ (fun hrequire => ?_) (ih _ _)
            exact not_not.mp fun hother => hscheme ⟨hrequire, hother⟩
      · refine .ended _ hbuilt fun p hp => ?_
        exact ⟨resp, hresp, hok, readProvisioning_ok hp⟩
      · exact .ended _ hbuilt nofun
      · exact .ended _ hbuilt nofun

namespace Rounds
variable {net : Network} {requireHTTPS : Bool} {left n : ℕ} {reqURL : String}
  {result : Except Error Provisioning} {requests : List String}

theorem length_le (h : Rounds net requireHTTPS left n reqURL result requests) :
    requests.length ≤ left := by
  induction h with
  | unbuilt e => exact Nat.zero_le _
  | ended result hbuilt hresult => exact Nat.succ_le_succ (Nat.zero_le _)
  | redirected next hbuilt hnext hscheme hrest ih => exact Nat.succ_le_succ ih

theorem head (h : Rounds net requireHTTPS left n reqURL result requests) {url : String}
    (hurl : requests[0]? = some url) : url = reqURL := by
  cases h with
  | unbuilt e => cases hurl
  | ended result hbuilt hresult => cases hurl; rfl
  | redirected next hbuilt hnext hscheme hrest => cases hurl; rfl

/-- Each request after the first is where a 307 to the one before leads. -/
theorem redirects (h : Rounds net requireHTTPS left n reqURL result requests) {i : ℕ}
    {url later : String} (hurl : requests[i]? = some url) (hlater : requests[i + 1]? = some later) :
    ∃ next, net.Redirects (n + i) url next ∧ later = next.text := by
  induction h generalizing i with
  | unbuilt e => cases hurl
  | ended result hbuilt hresult => cases hlater
  | @redirected left n reqURL result requests next hbuilt hnext hscheme hrest ih =>
    cases i with
    | zero =>
      cases hurl
      exact ⟨next, hnext, hrest.head hlater⟩
    | succ i =>
      have hredirects := ih hurl hlater
      rwa [Nat.succ_add_eq_add_succ] at hredirects

/-- A provisioning is the answer to the last request. -/
theorem provisions (h : Rounds net requireHTTPS left n reqURL result requests) {p : Provisioning}
    (hp : result = .ok p) : ∃ last, requests.length = last + 1 ∧ net.Provisions (n + last) p := by
  induction h with
  | unbuilt e => cases hp
  | ended result hbuilt hresult => exact ⟨0, rfl, hresult p hp⟩
  | redirected next hbuilt hnext hscheme hrest ih =>
    obtain ⟨last, hlength, hprovisions⟩ := ih hp
    rw [Nat.succ_add_eq_add_succ] at hprovisions
    exact ⟨last + 1, congrArg Nat.succ hlength, hprovisions⟩

/-- From an https URL only https URLs are requested, if they are required. -/
theorem https (h : Rounds net requireHTTPS left n reqURL result requests) (hnet : net.Documented)
    (hrequire : requireHTTPS = true) (hstart : urlScheme reqURL = "https") :
    ∀ url ∈ requests, net.Https url := by
  induction h with
  | unbuilt e => exact nofun
  | ended result hbuilt hresult =>
    rw [List.forall_mem_singleton]
    exact hnet.https hbuilt hstart
  | redirected next hbuilt hnext hscheme hrest ih =>
    obtain ⟨resp, -, -, hresolved⟩ := hnext
    rw [List.forall_mem_cons]
    exact ⟨hnet.https hbuilt hstart, ih (hnet.text_https hresolved (hscheme hrequire))⟩

end Rounds

/-- The request parameters leave the scheme of the server's URL as it is. -/
theorem requestURL_https {net : Network} (hnet : net.Documented) {base url : String}
    {c : ClientInfo} (hbase : net.Https base) (h : requestURL base c = .ok url) :
    urlScheme url = "https" := by
  obtain ⟨u, hparse, hscheme⟩ := hbase
  obtain ⟨tail, rfl⟩ := requestURL_append h
  have hurl : urlScheme base = "https" := (hnet.scheme hparse).symm.trans hscheme
  rw [urlScheme_append (hurl ▸ by decide), hurl]

/-- Whatever the server answers: at most six requests, each after the first where a 307 to the one
before leads, and a provisioning only out of a 200; all https if the record said `t=b`. -/
theorem fetchProvisioning_confined (net : Network) :
    (∀ (reqURL : String) (requireHTTPS : Bool),
      let fetched := fetchProvisioning net reqURL requireHTTPS
      fetched.2.length ≤ 6 ∧ (∀ url, fetched.2[0]? = some url → url = reqURL) ∧
        (∀ i url later, fetched.2[i]? = some url → fetched.2[i + 1]? = some later →
          ∃ next, net.Redirects i url next ∧ later = next.text) ∧
        ∀ p, fetched.1 = .ok p → ∃ last, fetched.2.length = last + 1 ∧ net.Provisions last p) ∧
    (net.Documented → ∀ (record : String) (info : ServerInfo) (client : ClientInfo)
      (reqURL : String), parseTXTRecord net record = .ok info →
      (keyValues record).lookup "t" = some "b" → requestURL info.url client = .ok reqURL →
      ∀ url ∈ (fetchProvisioning net reqURL info.validateCert).2, net.Https url) := by
  constructor
  · intro reqURL requireHTTPS
    have hrounds := follow_rounds net requireHTTPS (maxRedirects + 1) 0 reqURL
    refine ⟨hrounds.length_le, fun url => hrounds.head, fun i url later hurl hlater => ?_,
      fun p hp => ?_⟩
    · have hredirects := hrounds.redirects hurl hlater
      rwa [Nat.zero_add] at hredirects
    · obtain ⟨last, hlength, hprovisions⟩ := hrounds.provisions hp
      rw [Nat.zero_add] at hprovisions
      exact ⟨last, hlength, hprovisions⟩
  · intro hnet record info client reqURL hrecord ht hreq
    obtain ⟨hvalidate, hserver⟩ := parseTXTRecord_validated hrecord ht
    exact (follow_rounds net info.validateCert (maxRedirects + 1) 0 reqURL).https hnet hvalidate
      (requestURL_https hnet hserver hreq)

/-- A server that redirects twice, to a path of its own and then to plain http. -/
def redirectingNetwork : Network where
  lookupTXT := .ok ["v=v6mig-1 url=HTTPS://vne.example.jp/rule.cgi t=b"]
  parseURL text := some ⟨urlScheme text, "vne.example.jp", text⟩
  resolveReference base location :=
    let scheme := if urlScheme location = "" then urlScheme base else urlScheme location
    some ⟨scheme, "vne.example.jp", scheme ++ ":" ++ "//vne.example.jp/moved.cgi"⟩
  respond n :=
    some ⟨307, if n = 0 then "/moved.cgi" else "http://vne.example.jp/", { decoded := none }⟩
  parseAddr _ := none
  lookupNetIP _ := none
  refresh := 0

theorem redirectingNetwork_documented : redirectingNetwork.Documented := by
  constructor
  · intro s u h
    cases h
    rfl
  · intro base location u h hscheme
    cases h
    exact ⟨_, rfl⟩

theorem fetchProvisioning_confined_redirecting :
    let client : ClientInfo := ⟨"acde48", "minuteman", "0_1", ["dslite"], ""⟩
    ∃ reqURL, requestURL "HTTPS://vne.example.jp/rule.cgi" client = .ok reqURL ∧
      (fetchProvisioning redirectingNetwork reqURL true).2.length = 2 ∧
      ∀ url ∈ (fetchProvisioning redirectingNetwork reqURL true).2,
        redirectingNetwork.Https url := by
  intro client
  have hreq : requestURL "HTTPS://vne.example.jp/rule.cgi" client =
      .ok ("HTTPS://vne.example.jp/rule.cgi?vendorid=acde48&product=minuteman" ++
        "&version=0_1&capability=dslite") := by
    decide +kernel
  refine ⟨_, hreq, by decide +kernel, ?_⟩
  exact (fetchProvisioning_confined redirectingNetwork).2 redirectingNetwork_documented
    "v=v6mig-1 url=HTTPS://vne.example.jp/rule.cgi t=b" ⟨"HTTPS://vne.example.jp/rule.cgi", true⟩
    client _ rfl (by decide +kernel) hreq

end Minuteman.Hb46pp
