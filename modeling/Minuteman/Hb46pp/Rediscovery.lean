import Minuteman.Hb46pp.Exchange
import Minuteman.Library.Interference
import Minuteman.Control.Continuation

/-!
# Re-discovery and the token it echoes

The controller starts each attempt with the token of the discovery in use.
`discoverAFTROnce` asks DHCPv6 first and provisions over HB46PP where that
names no AFTR; the token of the response comes back with the discovery.
-/
namespace Minuteman.Hb46pp
open Library Loader Control

structure Identity where
  vendorID : String
  product : String
  version : String

def Identity.client (identity : Identity) (prevToken : String) : ClientInfo :=
  ⟨identity.vendorID, identity.product, identity.version, ["dslite"], prevToken⟩

/-- What the end of `discoverViaHB46PP` makes of a provisioning result. -/
def provisioned (r : Result) : Except Error Discovery :=
  if r.aftrAddr = .invalid then .error (.noDsLite r.provisioning.order)
  else .ok ⟨r.aftrAddr, r.refreshInterval, r.provisioning.token⟩

def discoverViaHB46PP (net : Network) (identity : Identity) (prevToken : String) :
    Attempt Discovery :=
  let attempt := discover net (identity.client prevToken)
  { attempt with result := attempt.result.bind provisioned }

inductive DhcpOutcome
  | found (aftr : Addr) (refresh : ℤ)
  | noAFTRName
  | noReply
  | failed

def discoverAFTROnce (dhcp : DhcpOutcome) (net : Network) (identity : Identity)
    (prevToken : String) : Attempt Discovery :=
  match dhcp with
  | .found aftr refresh => { result := .ok ⟨aftr, refresh, ""⟩ }
  | .noAFTRName => discoverViaHB46PP net identity prevToken
  | .noReply => discoverViaHB46PP net identity prevToken
  | .failed => { result := .error .dhcp }

/-- Every provisioning response that is accepted carries a token that may be echoed. -/
def Network.Tokened (net : Network) : Prop :=
  ∀ n resp p, net.respond n = some resp → resp.status = 200 →
    readProvisioning resp.body = .ok p → Echoable p.token

section Attempts
variable {dhcp : DhcpOutcome} {net : Network} {identity : Identity} {token : String}

theorem follow_tokened (h : net.Tokened) {requireHTTPS : Bool} {left n : ℕ} {reqURL : String}
    {p : Provisioning} (hok : (follow net requireHTTPS left n reqURL).1 = .ok p) :
    Echoable p.token := by
  induction left generalizing n reqURL with
  | zero => cases hok
  | succ left ih =>
    rw [follow] at hok
    split at hok
    · cases hok
    split at hok
    · cases hok
    next resp hresp =>
    split at hok
    · split at hok
      · cases hok
      split at hok
      · cases hok
      · exact ih hok
    split at hok
    · next hstatus => exact h n resp p hresp hstatus hok
    split at hok
    · cases hok
    · cases hok

theorem discover_tokened (h : net.Tokened) {client : ClientInfo} {r : Result}
    (hok : (discover net client).result = .ok r) : Echoable r.provisioning.token := by
  unfold discover at hok
  split at hok
  · cases hok
  split at hok
  · cases hok
  next reqURL _ =>
  dsimp only at hok
  generalize hfetched : (fetchProvisioning net reqURL _).1 = fetched at hok
  cases fetched with
  | error e => cases hok
  | ok p =>
    have hp := follow_tokened h hfetched
    change concludeDiscover net p = .ok r at hok
    unfold concludeDiscover at hok
    dsimp only at hok
    split at hok
    · cases hok
      exact hp
    split at hok
    · cases hok
    · cases hok
      exact hp

/-- What an attempt discovers carries a token that may be echoed. -/
theorem discoverAFTROnce_tokened (h : net.Tokened) {disc : Discovery}
    (hok : (discoverAFTROnce dhcp net identity token).result = .ok disc) :
    Echoable disc.hb46ppToken := by
  have hvia : (discoverViaHB46PP net identity token).result = .ok disc →
      Echoable disc.hb46ppToken := by
    intro hok
    unfold discoverViaHB46PP at hok
    dsimp only at hok
    generalize hdisc : (discover net (identity.client token)).result = result at hok
    cases result with
    | error e => cases hok
    | ok r =>
      have hr := discover_tokened h hdisc
      change provisioned r = .ok disc at hok
      unfold provisioned at hok
      split at hok
      · cases hok
      · cases hok
        exact hr
  cases dhcp with
  | found aftr refresh =>
    cases hok
    exact Or.inl rfl
  | noAFTRName => exact hvia hok
  | noReply => exact hvia hok
  | failed => cases hok

end Attempts

structure Made where
  token : String
  net : Network
  attempt : Attempt Discovery

/-- The attempt asked the provisioning server it located, for all that the token is concerned. -/
def Made.Asks (identity : Identity) (e : Made) : Prop :=
  ∀ server, e.attempt.server = some server → (identity.client "").validate = .ok () →
    ∃ url, requestURL server.url (identity.client e.token) = .ok url ∧
      ((e.net.parseURL url).isSome = true → e.attempt.requests.head? = some url)

/-- The controller with its softwire, and the attempts made so far. -/
structure Rediscovery where
  system : System
  made : List Made := []

/-- What happens: anything but an outcome of discovery, or the end of the attempt in flight. -/
inductive Act
  | system (a : Action)
  | attempt (dhcp : DhcpOutcome) (net : Network) (err : String) (retryIn : ℤ)

def outcome (a : Attempt Discovery) (err : String) (retryIn : ℤ) : Action :=
  match a.result with
  | .error _ => .discovered {} (some err) retryIn
  | .ok disc => .discovered disc none 0

def Rediscovery.step (c : Controller) (identity : Identity) (w : Rediscovery) : Act → Rediscovery
  | .system (.discovered _ _ _) => w
  | .system a => { w with system := w.system.step c a }
  | .attempt dhcp net err retryIn =>
    match w.system.async with
    | none => w
    | some token =>
      let attempt := discoverAFTROnce dhcp net identity token
      { system := w.system.step c (outcome attempt err retryIn)
        made := w.made ++ [⟨token, net, attempt⟩] }

def Act.Tokened (_ : Rediscovery) : Act → Prop
  | .system _ => True
  | .attempt _ net _ _ => net.Tokened

/-- What startup discovered, or was given. -/
inductive StartsWith (identity : Identity) : Discovery → Prop
  | static (aftr : Addr) : StartsWith identity { aftr }
  | discovered (dhcp : DhcpOutcome) (net : Network) (h : net.Tokened) {disc : Discovery}
      (hok : (discoverAFTROnce dhcp net identity "").result = .ok disc) : StartsWith identity disc

theorem StartsWith.echoable {identity : Identity} {disc : Discovery}
    (h : StartsWith identity disc) : Echoable disc.hb46ppToken := by
  cases h with
  | static aftr => exact Or.inl rfl
  | discovered dhcp net h hok => exact discoverAFTROnce_tokened h hok

/-- Whatever token may be echoed passes where none would. -/
theorem Identity.validate_client {identity : Identity} {token : String} (h : Echoable token)
    (hvalid : (identity.client "").validate = .ok ()) : (identity.client token).validate = .ok () := by
  rw [ClientInfo.validate_ok_iff] at hvalid ⊢
  obtain ⟨hvendor, hproduct, hversion, hsome, hknown, -⟩ := hvalid
  exact ⟨hvendor, hproduct, hversion, hsome, hknown, h⟩

theorem follow_head {net : Network} {requireHTTPS : Bool} {left n : ℕ} {url : String}
    (h : (net.parseURL url).isSome = true) :
    (follow net requireHTTPS (left + 1) n url).2.head? = some url := by
  rw [follow, if_neg (by simpa [Option.isNone_iff_eq_none, Option.isSome_iff_ne_none] using h)]
  repeat' split
  all_goals rfl

/-- An attempt with a token that may be echoed asks. -/
theorem discoverAFTROnce_asks {dhcp : DhcpOutcome} {net : Network} {identity : Identity}
    {token : String} (h : Echoable token) :
    Made.Asks identity ⟨token, net, discoverAFTROnce dhcp net identity token⟩ := by
  have hvia : Made.Asks identity ⟨token, net, discoverViaHB46PP net identity token⟩ := by
    intro server hserver hvalid
    obtain ⟨url, hurl⟩ := requestURL_of_valid (Identity.validate_client h hvalid) server.url
    refine ⟨url, hurl, fun hparse => ?_⟩
    unfold discoverViaHB46PP discover at hserver ⊢
    dsimp only at hserver ⊢
    cases hlookup : lookupServer net with
    | error e =>
      rw [hlookup] at hserver
      cases hserver
    | ok located =>
      rw [hlookup] at hserver
      have hlocated : located = server := by
        dsimp only at hserver
        split at hserver
        · exact Option.some.inj hserver
        · exact Option.some.inj hserver
      subst hlocated
      dsimp only
      rw [hurl]
      exact follow_head hparse
  cases dhcp with
  | found aftr refresh =>
    intro server hserver
    cases hserver
  | noAFTRName => exact hvia
  | noReply => exact hvia
  | failed =>
    intro server hserver
    cases hserver

/-- The tokens that the controller holds. -/
def Carried (d : Data) : Prop :=
  Echoable d.current.hb46ppToken ∧ Echoable d.next.hb46ppToken ∧ Echoable d.switchTo.hb46ppToken

def Brings : StatemEvent → Prop
  | .asyncResult value err => Echoable (Response.discover ⟨⟨.discover, 0⟩, value, err⟩).1.1.hb46ppToken
  | .response r => Echoable r.discover.1.1.hb46ppToken
  | _ => True

theorem echoable_empty : Echoable "" := Or.inl rfl

section Handling
variable {c : Controller} {d : Data} (st : Phase)

theorem Carried.response (h : Carried d) (hinitial : Echoable c.initial.hb46ppToken) (op : Op)
    {r : Response} (hr : Echoable r.discover.1.1.hb46ppToken) :
    Carried (c.response st d op r).data ∧ ∀ token, .async token ∉ (c.response st d op r).effects := by
  obtain ⟨hcurrent, hnext, hswitch⟩ := h
  have hempty := echoable_empty
  cases op <;> dsimp only [Controller.response, Controller.onRecover, Controller.recovered, onSource,
    onSwitch, onDiscover, onBegin, onCounts, onCutover, onAbort, onGc, onComplete, migrationFailed,
    abort, hardSwitch, softwire] <;> repeat' split
  all_goals simp_all [Carried]

theorem Carried.handleEvent (h : Carried d) (hinitial : Echoable c.initial.hb46ppToken)
    {ev : StatemEvent} (hev : Brings ev) :
    Carried (c.handleEvent st d ev).data ∧
      ∀ token, .async token ∈ (c.handleEvent st d ev).effects → Echoable token := by
  cases ev with
  | enter => cases st <;> simp_all [Controller.handleEvent, Controller.enter, Carried]
  | stateTimeout msg => cases msg <;> simp_all [Controller.handleEvent, Carried, softwire]
  | timeout msg =>
    cases msg with
    | b4Poll =>
      dsimp only [Controller.handleEvent]
      split_ifs
      all_goals simp_all [softwire]
    | drainCap migration =>
      dsimp only [Controller.handleEvent]
      split_ifs
      all_goals simp_all [Carried]
  | asyncResult value err =>
    obtain ⟨hdata, heffects⟩ := h.response st hinitial .discover
      (r := ⟨⟨.discover, d.gen⟩, value, err⟩) hev
    exact ⟨hdata, fun token htoken => absurd htoken (heffects token)⟩
  | response r =>
    dsimp only [Controller.handleEvent]
    split_ifs
    · simp [h]
    · obtain ⟨hdata, heffects⟩ := h.response st hinitial r.tag.op hev
      exact ⟨hdata, fun token htoken => absurd htoken (heffects token)⟩

end Handling

/-- Every token in the system may be echoed. -/
structure Echoes (s : System) : Prop where
  data : Carried s.data
  async : ∀ token, s.async = some token → Echoable token
  mailbox : ∀ r ∈ s.mailbox, Echoable r.discover.1.1.hb46ppToken

/-- The server's replies bring no token. -/
theorem handle_brings_none (sw : Softwire) (m : Datapath.Maps) (a : Answers) (req : Request)
    (tag : Tag) :
    (Response.discover ⟨tag, some (sw.handle m a req).reply, none⟩).1.1.hb46ppToken = "" := by
  cases req <;> dsimp only [Softwire.handle, Softwire.call] <;> repeat' split
  all_goals rfl

namespace Echoes
variable {c : Controller} {s : System}

theorem spawn (s : System) (incarnation : ℕ) : Echoes (s.spawn incarnation) where
  data := ⟨echoable_empty, echoable_empty, echoable_empty⟩
  async token h := by cases h
  mailbox r h := by cases h

theorem perform (h : Echoes s) {ev : StatemEvent} {e : Effect}
    (he : ∀ token, e = .async token → Echoable token) : Echoes (s.perform ev e) := by
  cases e with
  | sendRequest tag req => exact ⟨h.data, h.async, h.mailbox⟩
  | startStateTimeout wait msg => exact ⟨h.data, h.async, h.mailbox⟩
  | startTimeout wait msg => cases msg <;> exact ⟨h.data, h.async, h.mailbox⟩
  | cancelTimeout name => cases name <;> exact ⟨h.data, h.async, h.mailbox⟩
  | async token =>
    refine ⟨h.data, fun started hstarted => ?_, h.mailbox⟩
    cases hstarted
    exact he token rfl
  | cancelAsync => exact ⟨h.data, fun token htoken => (by cases htoken), h.mailbox⟩
  | postpone => cases ev <;> exact ⟨h.data, h.async, h.mailbox⟩
  | stop reason => exact spawn s (s.incarnation + 1)

theorem foldl_perform {ev : StatemEvent} {effects : List Effect}
    (he : ∀ token, .async token ∈ effects → Echoable token) (h : Echoes s) :
    Echoes (effects.foldl (System.perform ev) s) := by
  induction effects generalizing s with
  | nil => exact h
  | cons e rest ih =>
    apply ih
    · exact fun token htoken => he token (List.mem_cons_of_mem _ htoken)
    · apply h.perform
      rintro token rfl
      exact he token List.mem_cons_self

variable (hinitial : Echoable c.initial.hb46ppToken)
include hinitial

theorem handle (h : Echoes s) {ev : StatemEvent} (hev : Brings ev) : Echoes (s.handle c ev) := by
  obtain ⟨hdata, heffects⟩ := h.data.handleEvent s.phase hinitial hev
  exact foldl_perform heffects ⟨hdata, h.async, h.mailbox⟩

theorem redeliver (h : Echoes s) : Echoes (s.redeliver c) := by
  unfold System.redeliver
  have hstart : Echoes { s with postponed := [] } := ⟨h.data, h.async, h.mailbox⟩
  revert hstart
  generalize { s with postponed := [] } = t
  induction s.postponed generalizing t with
  | nil => exact fun ht => ht
  | cons msg rest ih => exact fun ht => ih _ (ht.handle hinitial trivial)

theorem dispatch (h : Echoes s) {ev : StatemEvent} (hev : Brings ev) : Echoes (s.dispatch c ev) := by
  have hhandled := h.handle hinitial hev
  unfold System.dispatch
  split_ifs
  · exact hhandled
  · have hentered := (@handle _ _ hinitial hhandled .enter trivial).redeliver hinitial
    exact ⟨hentered.data, hentered.async, hentered.mailbox⟩

/-- A step of the system keeps the tokens, if what it discovers brings another that is. -/
theorem step (h : Echoes s) {a : Action}
    (ha : ∀ disc err retryIn, a = .discovered disc err retryIn → Echoable disc.hb46ppToken) :
    Echoes (s.step c a) := by
  cases a with
  | packet p => exact ⟨h.data, h.async, h.mailbox⟩
  | serve a =>
    dsimp only [System.step, System.serve]
    split
    · exact h
    · refine ⟨h.data, h.async, fun r hr => ?_⟩
      dsimp only at hr
      split_ifs at hr
      · rcases List.mem_append.mp hr with hold | hnew
        · exact h.mailbox r hold
        · rw [List.mem_singleton.mp hnew, handle_brings_none]
          exact echoable_empty
      · exact h.mailbox r hr
  | deliver =>
    dsimp only [System.step]
    split
    · exact h
    · next r rest hmailbox =>
      have hbrought := fun x hx => h.mailbox x (hmailbox ▸ hx)
      apply dispatch hinitial
      · exact ⟨h.data, h.async, fun x hx => hbrought x (List.mem_cons_of_mem _ hx)⟩
      · exact hbrought r List.mem_cons_self
  | stateTimeout =>
    dsimp only [System.step]
    split
    · exact h
    · apply dispatch hinitial
      · exact ⟨h.data, h.async, h.mailbox⟩
      · trivial
  | b4Poll =>
    dsimp only [System.step]
    split_ifs
    · apply dispatch hinitial
      · exact ⟨h.data, h.async, h.mailbox⟩
      · trivial
    · exact h
  | drainCap =>
    dsimp only [System.step]
    split
    · exact h
    · apply dispatch hinitial
      · exact ⟨h.data, h.async, h.mailbox⟩
      · trivial
  | discovered disc err retryIn =>
    dsimp only [System.step]
    split
    · exact h
    · apply dispatch hinitial
      · exact ⟨h.data, fun _ htoken => (by cases htoken), h.mailbox⟩
      · exact ha disc err retryIn rfl
  | discoverFailed err =>
    dsimp only [System.step]
    split
    · exact h
    · apply dispatch hinitial
      · exact ⟨h.data, fun _ htoken => (by cases htoken), h.mailbox⟩
      · exact echoable_empty
  | crash => exact spawn s (s.incarnation + 1)

end Echoes

/-- What every state of re-discovery satisfies while the tokens may be echoed. -/
def Rediscovery.Heeds (identity : Identity) (w : Rediscovery) : Prop :=
  Echoes w.system ∧ ∀ e ∈ w.made, e.Asks identity

theorem Rediscovery.Heeds.step {c : Controller} {identity : Identity} {w : Rediscovery}
    (hinitial : Echoable c.initial.hb46ppToken) (h : w.Heeds identity) {act : Act}
    (hact : act.Tokened w) : (w.step c identity act).Heeds identity := by
  obtain ⟨hechoes, hmade⟩ := h
  cases act with
  | system a =>
    by_cases hdisc : ∃ disc err retryIn, a = .discovered disc err retryIn
    · obtain ⟨disc, err, retryIn, rfl⟩ := hdisc
      exact ⟨hechoes, hmade⟩
    · have hstep : w.step c identity (.system a) = { w with system := w.system.step c a } := by
        cases a with
        | discovered disc err retryIn => exact absurd ⟨disc, err, retryIn, rfl⟩ hdisc
        | _ => rfl
      rw [hstep]
      exact ⟨hechoes.step hinitial fun disc err retryIn ha => absurd ⟨disc, err, retryIn, ha⟩ hdisc,
        hmade⟩
  | attempt dhcp net err retryIn =>
    cases hasync : w.system.async with
    | none =>
      simp only [Rediscovery.step, hasync]
      exact ⟨hechoes, hmade⟩
    | some token =>
      simp only [Rediscovery.step, hasync]
      constructor
      · apply hechoes.step hinitial
        intro disc err' retryIn' ha
        unfold outcome at ha
        split at ha
        · cases ha
          exact echoable_empty
        · next found hfound =>
          cases ha
          exact discoverAFTROnce_tokened hact hfound
      · intro e he
        rcases List.mem_append.mp he with hold | hnew
        · exact hmade e hold
        · rw [List.mem_singleton.mp hnew]
          exact discoverAFTROnce_asks (hechoes.async token hasync)

/-- While every accepted response carries a token that may be echoed, each attempt asks the server
it has located. -/
theorem rediscovery_asks {c : Controller} {identity : Identity} {cfg : B4ConfigArgs} {s : System}
    (hboots : s.Boots cfg) (hstart : StartsWith identity c.initial) {acts : List Act}
    (hacts : Along (Rediscovery.step c identity) (fun w act => act.Tokened w) ⟨s, []⟩ acts) :
    ∀ e ∈ (acts.foldl (Rediscovery.step c identity) ⟨s, []⟩).made, e.Asks identity := by
  have hbooted : (Rediscovery.mk s []).Heeds identity := by
    cases hboots
    exact ⟨Echoes.spawn _ 0, by simp⟩
  exact (hacts.invariant (fun _ _ hw hact => hw.step hstart.echoable hact) hbooted).2

section Sample

def sampleIdentity : Identity := ⟨"acde48-minuteman", "minuteman", "0_1"⟩

def sampleNetwork (token : String) : Network where
  lookupTXT := .ok ["v=v6mig-1 url=https://vne.example.jp/rule.cgi t=b"]
  parseURL text := some ⟨"https", "vne.example.jp", text⟩
  resolveReference _ _ := none
  respond _ := some ⟨200, "",
    { decoded := some ⟨"vne", token, "", some 3600, some ["dslite"], some "aftr"⟩ }⟩
  parseAddr _ := some (docAddr 2)
  lookupNetIP _ := none
  refresh := 0

theorem sampleNetwork_tokened {token : String} (h : Echoable token) :
    (sampleNetwork token).Tokened := by
  intro n resp p hresp _ hp
  cases hresp
  cases hp
  exact h

def threeAttempts (token : String) : List Act :=
  [.system (.serve {}), .system .deliver, .system .stateTimeout,
    .attempt .noReply (sampleNetwork token) "" 0, .system .stateTimeout,
    .attempt .noReply (sampleNetwork token) "" 0, .system .stateTimeout,
    .attempt .noReply (sampleNetwork token) "" 0]

def afterAttempts (token : String) : Rediscovery :=
  (threeAttempts token).foldl (Rediscovery.step docController sampleIdentity) ⟨bootedSystem, []⟩

def goodToken : String := String.ofList (List.replicate 64 'a')

theorem rediscovery_asks_thrice :
    (afterAttempts goodToken).made.map (fun e => e.attempt.requests.length) = [1, 1, 1] ∧
      ∀ e ∈ (afterAttempts goodToken).made, e.Asks sampleIdentity := by
  have hgood : Echoable goodToken := Or.inr (by decide +kernel)
  have htokened := sampleNetwork_tokened hgood
  have hacts : Along (Rediscovery.step docController sampleIdentity) (fun w act => act.Tokened w)
      ⟨bootedSystem, []⟩ (threeAttempts goodToken) :=
    ⟨trivial, trivial, trivial, htokened, trivial, htokened, trivial, htokened, trivial⟩
  exact ⟨by decide +kernel, rediscovery_asks bootedSystem_boots (.static (docAddr 2)) hacts⟩

/-- A token of another form, once accepted, is the last that the server hears. -/
theorem bad_token_silences :
    (afterAttempts "abc").made.map
        (fun e => (e.token, e.attempt.server.isSome, e.attempt.requests.length)) =
      [("", true, 1), ("abc", true, 0), ("abc", true, 0)] ∧
    (sampleIdentity.client "").validate = .ok () ∧
    ¬ ∀ e ∈ (afterAttempts "abc").made, e.Asks sampleIdentity := by
  have hvalid : (sampleIdentity.client "").validate = .ok () := by decide +kernel
  have hmade : (afterAttempts "abc").made.map
      (fun e => (e.token, e.attempt.server.isSome, e.attempt.requests.length)) =
        [("", true, 1), ("abc", true, 0), ("abc", true, 0)] := by decide +kernel
  refine ⟨hmade, hvalid, fun h => ?_⟩
  have hsecond : ("abc", true, 0) ∈ (afterAttempts "abc").made.map
      (fun e => (e.token, e.attempt.server.isSome, e.attempt.requests.length)) := by
    rw [hmade]
    simp
  obtain ⟨e, he, heq⟩ := List.mem_map.mp hsecond
  simp only [Prod.mk.injEq] at heq
  obtain ⟨htoken, hserver, -⟩ := heq
  obtain ⟨server, hserver⟩ := Option.isSome_iff_exists.mp hserver
  obtain ⟨url, hurl, -⟩ := h e he server hserver hvalid
  have hechoable := requestURL_ok hurl
  rw [htoken] at hechoable
  rcases hechoable with hempty | hpattern
  · exact absurd hempty (by decide +kernel)
  · exact absurd hpattern (by decide +kernel)

end Sample

end Minuteman.Hb46pp
