import Minuteman.Library.ByteString
import Minuteman.Library.Duration

/-!
# The DNS proxy's UDP listener

One listener with its socket, the queries it forwards, each in an Async of its
own, and the clock. Datagrams, answers, failures and restarts come in any order.
The socket hands over as many datagrams as it is armed for; a query holds one of
`maxInFlight` slots from then until its outcome is handled.
-/
namespace Minuteman.DnsProxy
open Library

structure AddrPort where
  addr : Bytes
  port : UInt16
  deriving DecidableEq

def udpQueryTimeout : ℤ := 5 * second

def maxInFlight : ℕ := 256

def maxUDPMessageBytes : ℕ := 65535

structure UdpListener where
  addr : AddrPort
  upstreams : List AddrPort
  timeout : ℤ

structure Answer where
  to_ : AddrPort
  data : Bytes
  deriving DecidableEq

/-- What a listener is sent. `other` is what `handleInfo` has no case for, a `SendErrorMsg` among
them. -/
inductive Msg where
  | data (from_ : AddrPort) (bytes : Bytes)
  | asyncResult (key : UInt64) (value : Option Answer)
  | error
  | closed
  | other

inductive Effect where
  | async (key : UInt64) (client : AddrPort) (query : Bytes)
  | sendActive (to_ : AddrPort) (data : Bytes) (n : ℕ)
  | setActive (n : ℕ)
  | stop

def handleInfo (next : UInt64) : Msg → UInt64 × List Effect
  | .data from_ bytes => (next + 1, [.async next from_ bytes])
  | .asyncResult _ (some a) => (next, [.sendActive a.to_ a.data 1])
  | .asyncResult _ none => (next, [.setActive 1])
  | .error => (next, [.stop])
  | .closed => (next, [.stop])
  | .other => (next, [])

/-- The Async of a query: it asks `upstream`, until `deadline`, and has `rest` to try after it. -/
structure Forward where
  key : UInt64
  client : AddrPort
  query : Bytes
  upstream : AddrPort
  rest : List AddrPort
  started : ℤ
  deadline : ℤ

structure Ask where
  key : UInt64
  upstream : AddrPort
  query : Bytes
  outcome : Option Bytes

def Ask.failure (key : UInt64) (query : Bytes) (upstream : AddrPort) : Ask :=
  ⟨key, upstream, query, none⟩

/-- `kernel` are the datagrams the socket has not handed over, `armed` how many more it will.
`handled`, `asks`, `ended`, `cancelled` and `sent` log what became of the incarnation's queries;
query number `n` runs under key `n`. -/
structure World where
  now : ℤ
  alive : Bool
  next : UInt64
  armed : ℕ
  kernel : List (AddrPort × Bytes)
  mailbox : List Msg
  running : List Forward
  handled : List (AddrPort × Bytes)
  asks : List Ask
  ended : List (UInt64 × Option Answer)
  cancelled : List UInt64
  sent : List Answer

inductive Event where
  | elapse (t : ℤ)
  | arrive (from_ : AddrPort) (bytes : Bytes)
  | deliver
  | handle
  | answered (key : UInt64) (data : Bytes)
  | failed (key : UInt64)
  | tell (m : Msg)
  | kill
  | restart

def Msg.result? : Msg → Option (UInt64 × Option Answer)
  | .asyncResult key value => some (key, value)
  | _ => none

def Msg.isData : Msg → Bool
  | .data _ _ => true
  | _ => false

namespace World

/-- `start`: a socket of its own, armed for every slot. -/
def start (now : ℤ) : World :=
  ⟨now, true, 0, maxInFlight, [], [], [], [], [], [], [], []⟩

def results (w : World) : List (UInt64 × Option Answer) := w.mailbox.filterMap Msg.result?

/-- The loop of `forward` at its head, with the upstreams still to try. -/
def tryNext (l : UdpListener) (w : World) (key : UInt64) (client : AddrPort) (query : Bytes)
    (started : ℤ) : List AddrPort → World
  | [] => { w with mailbox := w.mailbox ++ [.asyncResult key none] }
  | upstream :: rest =>
    { w with
      running := w.running ++ [⟨key, client, query, upstream, rest, started, w.now + l.timeout⟩] }

def stop (w : World) : World :=
  { w with
    alive := false, armed := 0, kernel := [], mailbox := [], running := []
    cancelled := w.cancelled ++ w.running.map Forward.key ++ w.results.map Prod.fst }

/-- An Async takes the place of one running under its key. -/
def apply (l : UdpListener) (w : World) : Effect → World
  | .async key client query =>
    { w with running := w.running.filter fun f => f.key ≠ key }.tryNext l key client query w.now
      l.upstreams
  | .sendActive to_ data n => { w with armed := w.armed + n, sent := w.sent ++ [⟨to_, data⟩] }
  | .setActive n => { w with armed := w.armed + n }
  | .stop => w.stop

def record (w : World) : Msg → World
  | .data from_ bytes => { w with handled := w.handled ++ [(from_, bytes)] }
  | .asyncResult key value => { w with ended := w.ended ++ [(key, value)] }
  | _ => w

def receive (l : UdpListener) (w : World) (m : Msg) : World :=
  (handleInfo w.next m).2.foldl (apply l) { w with next := (handleInfo w.next m).1 }

/-- The call of `ask` for the query under `key` returned `outcome`. -/
def returned (w : World) (f : Forward) (outcome : Option Bytes) : World :=
  { w with
    running := w.running.eraseP fun g => g.key = f.key
    asks := w.asks ++ [⟨f.key, f.upstream, f.query, outcome⟩] }

/-- A call of `ask` returns by its deadline: time does not pass it while the call lasts. The kernel
may drop a datagram, which then does not arrive; a message the listener is told besides is none of
a query. -/
def step (l : UdpListener) (w : World) : Event → World
  | .elapse t =>
    if w.now ≤ t ∧ ∀ f ∈ w.running, t ≤ f.deadline then { w with now := t } else w
  | .arrive from_ bytes =>
    if w.alive then { w with kernel := w.kernel ++ [(from_, bytes)] } else w
  | .deliver =>
    match w.armed, w.kernel with
    | n + 1, (from_, bytes) :: kernel =>
      { w with armed := n, kernel := kernel, mailbox := w.mailbox ++ [.data from_ bytes] }
    | _, _ => w
  | .handle =>
    match w.mailbox with
    | [] => w
    | m :: mailbox => ({ w with mailbox := mailbox }.record m).receive l m
  | .answered key data =>
    match w.running.find? fun f => f.key = key with
    | none => w
    | some f =>
      let w' := w.returned f (some (data.take maxUDPMessageBytes))
      { w' with
        mailbox := w.mailbox ++
          [.asyncResult f.key (some ⟨f.client, data.take maxUDPMessageBytes⟩)] }
  | .failed key =>
    match w.running.find? fun f => f.key = key with
    | none => w
    | some f => (w.returned f none).tryNext l f.key f.client f.query f.started f.rest
  | .tell m =>
    if w.alive ∧ m.result? = none ∧ m.isData = false then { w with mailbox := w.mailbox ++ [m] }
    else w
  | .kill => w.stop
  | .restart => if w.alive then w else start w.now

def run (l : UdpListener) (w : World) (evs : List Event) : World := evs.foldl (step l) w

theorem tryNext_handled (l : UdpListener) (w : World) (key : UInt64) (client : AddrPort)
    (query : Bytes) (started : ℤ) (rest : List AddrPort) :
    (w.tryNext l key client query started rest).handled = w.handled := by
  cases rest <;> rfl

theorem receive_handled (l : UdpListener) (w : World) (m : Msg) :
    (w.receive l m).handled = w.handled := by
  cases m with
  | data from_ bytes => exact tryNext_handled l _ _ _ _ _ _
  | asyncResult key value => cases value <;> rfl
  | _ => rfl

def history (w : World) (key : UInt64) : List Ask := w.asks.filter fun a => a.key = key

/-- The slots, each wherever it is: free, in a datagram delivered, in an Async, in an outcome. -/
def slots (w : World) : ℕ :=
  w.armed + w.mailbox.countP Msg.isData + w.running.length + w.results.length

/-- Where each query handled is. -/
def places (w : World) : List UInt64 :=
  w.running.map Forward.key ++ (w.results ++ w.ended).map Prod.fst ++ w.cancelled

/-- What `forward` may come to for a query: the answer of the first upstream that gave one, those
before it asked in vain, or nothing once every upstream was. -/
inductive Outcome (l : UdpListener) (key : UInt64) (client : AddrPort) (query : Bytes) :
    List Ask → Option Answer → Prop where
  | answered (tried : List AddrPort) (upstream : AddrPort) (rest : List AddrPort) (data : Bytes) :
      l.upstreams = tried ++ upstream :: rest →
      Outcome l key client query
        (tried.map (Ask.failure key query) ++ [⟨key, upstream, query, some data⟩])
        (some ⟨client, data⟩)
  | dropped : Outcome l key client query (l.upstreams.map (Ask.failure key query)) none

def Concluded (l : UdpListener) (w : World) (r : UInt64 × Option Answer) : Prop :=
  ∃ client query, w.handled[r.1.toNat]? = some (client, query) ∧
    Outcome l r.1 client query (w.history r.1) r.2

/-- A query still forwarded: the upstreams before the one asked have failed it. -/
structure Ongoing (l : UdpListener) (w : World) (f : Forward) : Prop where
  query : w.handled[f.key.toNat]? = some (f.client, f.query)
  tried : ∃ tried, l.upstreams = tried ++ f.upstream :: f.rest ∧
    w.history f.key = tried.map (Ask.failure f.key f.query) ∧
    f.deadline ≤ f.started + (tried.length + 1) * l.timeout
  started : f.started ≤ w.now
  deadline : w.now ≤ f.deadline

/-- What holds of a listener as long as its keys have not wrapped around. Between the parts of a
step `spare` slots and the queries `out` are nowhere. -/
structure Accounts (l : UdpListener) (w : World) (spare : ℕ) (out : List UInt64) : Prop where
  slots : w.alive = true → w.slots + spare = maxInFlight
  next : w.next = UInt64.ofNat w.handled.length
  places : ((out ++ w.places).map UInt64.toNat).Perm (List.range w.handled.length)
  ongoing : ∀ f ∈ w.running, Ongoing l w f
  concluded : ∀ r ∈ w.results ++ w.ended, Concluded l w r
  asked : ∀ a ∈ w.asks, a.key.toNat < w.handled.length
  sent : w.sent = w.ended.filterMap Prod.snd

theorem Ongoing.congr {l : UdpListener} {w w' : World} {f : Forward} (h : Ongoing l w f)
    (hquery : w'.handled[f.key.toNat]? = w.handled[f.key.toNat]?)
    (hhistory : w'.history f.key = w.history f.key) (hnow : w'.now = w.now) : Ongoing l w' f where
  query := hquery.trans h.query
  tried := by rw [hhistory]; exact h.tried
  started := hnow ▸ h.started
  deadline := hnow ▸ h.deadline

theorem Concluded.congr {l : UdpListener} {w w' : World} {r : UInt64 × Option Answer}
    (h : Concluded l w r) (hquery : w'.handled[r.1.toNat]? = w.handled[r.1.toNat]?)
    (hhistory : w'.history r.1 = w.history r.1) : Concluded l w' r := by
  obtain ⟨client, query, hhandled, houtcome⟩ := h
  exact ⟨client, query, hquery.trans hhandled, hhistory ▸ houtcome⟩

theorem results_append (w : World) (m : Msg) :
    { w with mailbox := w.mailbox ++ [m] }.results = w.results ++ m.result?.toList := by
  rw [results, List.filterMap_append]
  cases hresult : m.result? with
  | none => simp [results, hresult]
  | some r => simp [results, hresult]

theorem Accounts.start (l : UdpListener) (now : ℤ) : Accounts l (World.start now) 0 [] where
  slots _ := rfl
  next := rfl
  places := .refl _
  ongoing := List.forall_mem_nil _
  concluded := List.forall_mem_nil _
  asked := List.forall_mem_nil _
  sent := rfl

section Steps
variable {l : UdpListener} {w : World}

/-- A query whose Async ends leaves its outcome in the mailbox. -/
theorem Accounts.conclude {key : UInt64} {client : AddrPort}
    {query : Bytes} {value : Option Answer} (h : Accounts l w 1 [key])
    (hquery : w.handled[key.toNat]? = some (client, query))
    (houtcome : Outcome l key client query (w.history key) value) :
    Accounts l { w with mailbox := w.mailbox ++ [.asyncResult key value] } 0 [] := by
  have hresults := results_append w (.asyncResult key value)
  have hcount : (w.mailbox ++ [Msg.asyncResult key value]).countP Msg.isData =
      w.mailbox.countP Msg.isData := by simp [Msg.isData]
  refine ⟨fun halive => ?_, h.next, ?_, fun f hf => ?_, ?_, h.asked, h.sent⟩
  · have hslots := h.slots halive
    simp only [World.slots, hresults, hcount] at hslots ⊢
    simp only [Msg.result?, Option.toList_some, List.length_append, List.length_singleton]
    omega
  · refine List.Perm.trans ?_ h.places
    refine List.Perm.map _ ?_
    rw [World.places, hresults]
    simp only [Msg.result?, Option.toList_some, World.places, List.map_append, List.map_cons,
      List.nil_append, List.append_assoc, List.singleton_append]
    exact (List.perm_append_left_iff _).mpr (List.perm_middle) |>.trans List.perm_middle
  · exact (h.ongoing f hf).congr rfl rfl rfl
  · intro r hr
    rw [hresults] at hr
    have hcases : r = (key, value) ∨ r ∈ w.results ++ w.ended := by
      simp only [Msg.result?, Option.toList_some, List.mem_append, List.mem_singleton] at hr ⊢
      tauto
    rcases hcases with rfl | hold
    · exact ⟨client, query, hquery, houtcome⟩
    · exact (h.concluded r hold).congr rfl rfl

/-- The loop of `forward` goes on with what is left of the upstreams, the others tried in vain. -/
theorem Accounts.tryNext {key : UInt64} {client : AddrPort}
    {query : Bytes} {started : ℤ} {tried rest : List AddrPort} (h : Accounts l w 1 [key])
    (htimeout : 0 ≤ l.timeout) (hquery : w.handled[key.toNat]? = some (client, query))
    (hupstreams : l.upstreams = tried ++ rest)
    (hhistory : w.history key = tried.map (Ask.failure key query)) (hstarted : started ≤ w.now)
    (hdeadline : w.now ≤ started + tried.length * l.timeout) :
    Accounts l (w.tryNext l key client query started rest) 0 [] := by
  cases rest with
  | nil =>
    refine h.conclude hquery ?_
    rw [hhistory, ← List.append_nil tried, ← hupstreams]
    exact .dropped
  | cons upstream rest =>
    refine ⟨fun halive => ?_, h.next, ?_, ?_, ?_, h.asked, h.sent⟩
    · have hslots := h.slots halive
      simp only [World.slots, World.tryNext, World.results, List.length_append,
        List.length_singleton] at hslots ⊢
      omega
    · refine List.Perm.trans ?_ h.places
      refine List.Perm.map _ ?_
      simp only [World.tryNext, World.places, World.results, List.map_append, List.map_cons,
        List.map_nil, List.nil_append, List.append_assoc, List.cons_append]
      exact List.perm_middle
    · intro f hf
      rw [World.tryNext, List.mem_append, List.mem_singleton] at hf
      rcases hf with hf | rfl
      · exact (h.ongoing f hf).congr rfl rfl rfl
      · refine ⟨hquery, ⟨tried, hupstreams, hhistory, ?_⟩, hstarted, ?_⟩
        · change w.now + l.timeout ≤ started + (tried.length + 1) * l.timeout
          linarith
        · change w.now ≤ w.now + l.timeout
          omega
    · exact fun r hr => (h.concluded r hr).congr rfl rfl

theorem toNat_lt_of_mem_places {spare : ℕ} {out : List UInt64}
    (h : Accounts l w spare out) {key : UInt64} (hkey : key ∈ out ++ w.places) :
    key.toNat < w.handled.length :=
  List.mem_range.mp (h.places.mem_iff.mp (List.mem_map_of_mem hkey))

theorem find?_perm {α : Type*} {xs : List α} {p : α → Bool} {x : α} (h : xs.find? p = some x) :
    xs.Perm (x :: xs.eraseP p) := by
  obtain ⟨hp, front, back, rfl, hfront⟩ := List.find?_eq_some_iff_append.mp h
  rw [List.eraseP_append_right _ fun a ha => by simpa using hfront a ha,
    List.eraseP_cons_of_pos hp]
  exact List.perm_middle

theorem history_returned (w : World) (f : Forward) (outcome : Option Bytes) (key : UInt64) :
    (w.returned f outcome).history key =
      w.history key ++ if f.key = key then [⟨f.key, f.upstream, f.query, outcome⟩] else [] := by
  rw [history, history, returned, List.filter_append]
  by_cases hkey : f.key = key <;> simp [hkey]

/-- An Async whose call returned is out, and the others are as they were. -/
theorem Accounts.returned {f : Forward} (h : Accounts l w 0 [])
    (hfind : w.running.find? (fun g => g.key = f.key) = some f) (outcome : Option Bytes) :
    Accounts l (w.returned f outcome) 1 [f.key] := by
  have hperm := find?_perm hfind
  have hplaces : w.places.Perm (f.key :: (w.returned f outcome).places) := by
    have hkeys := hperm.map Forward.key
    exact (hkeys.append_right _).append_right _
  have hnodup : (f.key :: (w.returned f outcome).places).Nodup :=
    hplaces.nodup_iff.mp (h.places.nodup_iff.mpr List.nodup_range).of_map
  have hother : ∀ key ∈ (w.returned f outcome).places,
      (w.returned f outcome).history key = w.history key := by
    intro key hkey
    have hne : f.key ≠ key := fun heq => (List.nodup_cons.mp hnodup).1 (heq ▸ hkey)
    rw [history_returned, if_neg hne, List.append_nil]
  refine ⟨fun halive => ?_, h.next, (hplaces.symm.map _).trans h.places, ?_, ?_, ?_, h.sent⟩
  · have hslots := h.slots halive
    have hlength := hperm.length_eq
    simp only [World.slots, World.results, World.returned, List.length_cons] at hslots hlength ⊢
    omega
  · intro g hg
    have hplace : g.key ∈ (w.returned f outcome).places :=
      List.mem_append_left _ (List.mem_append_left _ (List.mem_map_of_mem hg))
    exact (h.ongoing g (List.mem_of_mem_eraseP hg)).congr rfl (hother _ hplace) rfl
  · intro r hr
    have hplace : r.1 ∈ (w.returned f outcome).places :=
      List.mem_append_left _ (List.mem_append_right _ (List.mem_map_of_mem hr))
    exact (h.concluded r hr).congr rfl (hother _ hplace)
  · intro a ha
    rw [World.returned, List.mem_append, List.mem_singleton] at ha
    rcases ha with ha | rfl
    · exact h.asked a ha
    · exact toNat_lt_of_mem_places h (hplaces.mem_iff.mpr List.mem_cons_self)

theorem Accounts.stop (h : Accounts l w 0 []) :
    Accounts l w.stop 0 [] := by
  refine ⟨fun halive => absurd halive Bool.false_ne_true, h.next, ?_, List.forall_mem_nil _,
    fun r hr => ?_, h.asked, h.sent⟩
  · refine List.Perm.trans (List.Perm.map _ ?_) h.places
    have hcomm : ((w.ended.map Prod.fst ++ w.cancelled) ++
        (w.running.map Forward.key ++ w.results.map Prod.fst)).Perm _ := List.perm_append_comm
    simp only [World.results, List.append_assoc] at hcomm
    simpa only [World.stop, World.places, World.results, List.filterMap_nil, List.map_nil,
      List.nil_append, List.map_append, List.append_assoc] using hcomm
  · exact (h.concluded r (List.mem_append_right _ hr)).congr rfl rfl

theorem Accounts.answered {key : UInt64} (h : Accounts l w 0 [])
    (data : Bytes) : Accounts l (w.step l (.answered key data)) 0 [] := by
  rw [step]
  cases hfind : w.running.find? (fun f => f.key = key) with
  | none => exact h
  | some f =>
    obtain rfl : f.key = key := by simpa using List.find?_some hfind
    have hongoing := h.ongoing f (List.mem_of_find?_eq_some hfind)
    obtain ⟨tried, hupstreams, hhistory, -⟩ := hongoing.tried
    refine (h.returned hfind _).conclude hongoing.query ?_
    rw [history_returned, hhistory, if_pos rfl]
    exact .answered tried _ _ _ hupstreams

theorem Accounts.failed {key : UInt64} (h : Accounts l w 0 [])
    (htimeout : 0 ≤ l.timeout) : Accounts l (w.step l (.failed key)) 0 [] := by
  rw [step]
  cases hfind : w.running.find? (fun f => f.key = key) with
  | none => exact h
  | some f =>
    obtain rfl : f.key = key := by simpa using List.find?_some hfind
    have hongoing := h.ongoing f (List.mem_of_find?_eq_some hfind)
    obtain ⟨tried, hupstreams, hhistory, hdeadline⟩ := hongoing.tried
    have hgone := hongoing.deadline
    have hsplit : l.upstreams = (tried ++ [f.upstream]) ++ f.rest := by
      rw [hupstreams, List.append_assoc]
      rfl
    refine (h.returned hfind none).tryNext htimeout hongoing.query hsplit ?_ hongoing.started ?_
    · rw [history_returned, hhistory, if_pos rfl, List.map_append]
      rfl
    · rw [List.length_append, List.length_singleton]
      push_cast
      exact hgone.trans hdeadline

/-- What only moves slots between the socket and the datagrams in the mailbox. -/
theorem Accounts.moved (h : Accounts l w 0 []) {armed : ℕ}
    (kernel : List (AddrPort × Bytes)) {mailbox : List Msg}
    (hresults : mailbox.filterMap Msg.result? = w.results)
    (hslots : armed + mailbox.countP Msg.isData = w.armed + w.mailbox.countP Msg.isData) :
    Accounts l { w with armed := armed, kernel := kernel, mailbox := mailbox } 0 [] := by
  refine ⟨fun halive => ?_, h.next, ?_, fun f hf => (h.ongoing f hf).congr rfl rfl rfl, ?_, h.asked,
    h.sent⟩
  · have hold := h.slots halive
    simp only [World.slots, World.results, hresults] at hold ⊢
    omega
  · simp only [World.places, World.results, hresults]
    exact h.places
  · simp only [World.results, hresults]
    exact fun r hr => (h.concluded r hr).congr rfl rfl

theorem Accounts.skip {m : Msg} {mailbox : List Msg}
    (h : Accounts l w 0 []) (hmailbox : w.mailbox = m :: mailbox) (hresult : m.result? = none)
    (hdata : m.isData = false) : Accounts l { w with mailbox := mailbox } 0 [] := by
  refine h.moved w.kernel ?_ ?_
  · rw [results, hmailbox, List.filterMap_cons_none hresult]
  · rw [hmailbox, List.countP_cons, hdata]
    rfl

theorem next_toNat {spare : ℕ} {out : List UInt64}
    (h : Accounts l w spare out) (hlength : w.handled.length < 2 ^ 64) :
    w.next.toNat = w.handled.length := by
  rw [h.next, UInt64.toNat_ofNat', Nat.mod_eq_of_lt hlength]

/-- The datagram at the head of the mailbox becomes the next query. -/
theorem Accounts.query {from_ : AddrPort} {bytes : Bytes}
    {mailbox : List Msg} (h : Accounts l w 0 [])
    (hmailbox : w.mailbox = .data from_ bytes :: mailbox) (hlength : w.handled.length < 2 ^ 64) :
    Accounts l { w with
      mailbox := mailbox, next := w.next + 1, handled := w.handled ++ [(from_, bytes)] } 1
      [w.next] := by
  set w' : World := { w with
      mailbox := mailbox, next := w.next + 1, handled := w.handled ++ [(from_, bytes)] } with hw'
  have hnext := next_toNat h hlength
  have hresults : w'.results = w.results := by
    rw [results, results, hmailbox, List.filterMap_cons_none rfl]
  have hplaces : w'.places = w.places := by rw [World.places, World.places, hresults]
  have hold : ∀ key ∈ w.places, w'.handled[key.toNat]? = w.handled[key.toNat]? := fun key hkey =>
    List.getElem?_append_left (toNat_lt_of_mem_places h hkey)
  refine ⟨fun halive => ?_, ?_, ?_, fun f hf => ?_, fun r hr => ?_, fun a ha => ?_, h.sent⟩
  · have hslots := h.slots halive
    simp only [World.slots, hresults] at hslots ⊢
    rw [hmailbox, List.countP_cons, Msg.isData, if_pos rfl] at hslots
    change w.armed + mailbox.countP Msg.isData + w.running.length + w.results.length + 1 = _
    omega
  · change w.next + 1 = UInt64.ofNat (w.handled ++ [(from_, bytes)]).length
    rw [h.next, List.length_append, List.length_singleton, UInt64.ofNat_add]
    rfl
  · rw [hplaces]
    change ((w.next :: w.places).map UInt64.toNat).Perm
      (List.range (w.handled ++ [(from_, bytes)]).length)
    rw [List.length_append, List.length_singleton, List.range_succ, List.map_cons, hnext]
    exact (h.places.cons _).trans (List.perm_append_singleton _ _).symm
  · exact (h.ongoing f hf).congr (hold _ (List.mem_append_left _ (List.mem_append_left _
      (List.mem_map_of_mem hf)))) rfl rfl
  · rw [hresults] at hr
    exact (h.concluded r hr).congr (hold _ (List.mem_append_left _ (List.mem_append_right _
      (List.mem_map_of_mem hr)))) rfl
  · have hasked := h.asked a ha
    change a.key.toNat < (w.handled ++ [(from_, bytes)]).length
    rw [List.length_append]
    omega

theorem Accounts.data {from_ : AddrPort} {bytes : Bytes}
    {mailbox : List Msg} (h : Accounts l w 0 []) (htimeout : 0 ≤ l.timeout)
    (hmailbox : w.mailbox = .data from_ bytes :: mailbox) (hlength : w.handled.length < 2 ^ 64) :
    Accounts l (({ w with mailbox := mailbox }.record (.data from_ bytes)).receive l
      (.data from_ bytes)) 0 [] := by
  have hnext := next_toNat h hlength
  have hfresh : w.running.filter (fun f => f.key ≠ w.next) = w.running := by
    refine List.filter_eq_self.mpr fun f hf => decide_eq_true fun heq => ?_
    have hplace : f.key ∈ w.places :=
      List.mem_append_left _ (List.mem_append_left _ (List.mem_map_of_mem hf))
    have hlt := toNat_lt_of_mem_places h hplace
    rw [heq, hnext] at hlt
    exact lt_irrefl _ hlt
  have hquery := h.query hmailbox hlength
  have hhistory : w.history w.next = [] := by
    refine List.filter_eq_nil_iff.mpr fun a ha heq => ?_
    have hlt := h.asked a ha
    rw [of_decide_eq_true heq, hnext] at hlt
    exact lt_irrefl _ hlt
  have hindex : (w.handled ++ [(from_, bytes)])[w.next.toNat]? = some (from_, bytes) := by
    rw [hnext, List.getElem?_concat_length]
  have hstep := hquery.tryNext htimeout hindex (List.nil_append l.upstreams).symm
    hhistory le_rfl (by simp)
  simp only [receive, record, handleInfo, List.foldl_cons, List.foldl_nil, apply]
  rw [hfresh]
  exact hstep

/-- An outcome at the head of the mailbox is logged, and its slot is free. -/
theorem Accounts.result {key : UInt64} {value : Option Answer}
    {mailbox : List Msg} (h : Accounts l w 0 [])
    (hmailbox : w.mailbox = .asyncResult key value :: mailbox) :
    Accounts l { w with
      mailbox := mailbox, ended := w.ended ++ [(key, value)], armed := w.armed + 1
      sent := w.sent ++ value.toList } 0 [] := by
  have hresults : w.results = (key, value) :: mailbox.filterMap Msg.result? := by
    rw [results, hmailbox]
    rfl
  refine ⟨fun halive => ?_, h.next, ?_, fun f hf => (h.ongoing f hf).congr rfl rfl rfl,
    fun r hr => ?_, h.asked, ?_⟩
  · have hslots := h.slots halive
    simp only [World.slots, hresults, List.length_cons] at hslots ⊢
    rw [hmailbox, List.countP_cons] at hslots
    change w.armed + 1 + mailbox.countP Msg.isData + w.running.length +
      (mailbox.filterMap Msg.result?).length + 0 = _
    simp only [Msg.isData, Bool.false_eq_true, if_false] at hslots
    omega
  · refine List.Perm.trans (List.Perm.map _ ?_) h.places
    simp only [World.places, hresults, List.nil_append]
    refine ((List.Perm.map _ ?_).append_left _).append_right _
    change (mailbox.filterMap Msg.result? ++ (w.ended ++ [(key, value)])).Perm _
    rw [← List.append_assoc]
    exact List.perm_append_singleton _ _
  · refine (h.concluded r ?_).congr rfl rfl
    rw [hresults]
    change r ∈ mailbox.filterMap Msg.result? ++ (w.ended ++ [(key, value)]) at hr
    simp only [List.mem_append, List.mem_cons] at hr ⊢
    tauto
  · change w.sent ++ value.toList = (w.ended ++ [(key, value)]).filterMap Prod.snd
    rw [List.filterMap_append, ← h.sent]
    cases value <;> rfl

theorem Accounts.handle (h : Accounts l w 0 [])
    (htimeout : 0 ≤ l.timeout) (hlength : (w.step l .handle).handled.length ≤ 2 ^ 64) :
    Accounts l (w.step l .handle) 0 [] := by
  rw [step] at hlength ⊢
  cases hmailbox : w.mailbox with
  | nil => exact h
  | cons m mailbox =>
    rw [hmailbox] at hlength
    cases m with
    | data from_ bytes =>
      have hgrown := hlength
      rw [receive_handled, record, List.length_append, List.length_singleton] at hgrown
      exact h.data htimeout hmailbox hgrown
    | asyncResult key value =>
      cases value with
      | none =>
        have hresult := h.result hmailbox
        rw [Option.toList_none, List.append_nil] at hresult
        exact hresult
      | some a => exact h.result hmailbox
    | error => exact (h.skip hmailbox rfl rfl).stop
    | closed => exact (h.skip hmailbox rfl rfl).stop
    | other => exact h.skip hmailbox rfl rfl

theorem Accounts.elapse (h : Accounts l w 0 []) (t : ℤ) :
    Accounts l (w.step l (.elapse t)) 0 [] := by
  rw [step]
  split_ifs with ht
  · refine ⟨h.slots, h.next, h.places, fun f hf => ?_, fun r hr => (h.concluded r hr).congr rfl rfl,
      h.asked, h.sent⟩
    have hongoing := h.ongoing f hf
    exact ⟨hongoing.query, hongoing.tried, hongoing.started.trans ht.1, ht.2 f hf⟩
  · exact h

theorem Accounts.deliver (h : Accounts l w 0 []) :
    Accounts l (w.step l .deliver) 0 [] := by
  rw [step]
  split
  · next n from_ bytes kernel harmed hkernel =>
    refine h.moved kernel ?_ ?_
    · rw [List.filterMap_append]
      exact List.append_nil _
    · rw [harmed, List.countP_append, List.countP_singleton, Msg.isData, if_pos rfl]
      omega
  · exact h

theorem Accounts.tell (h : Accounts l w 0 []) (m : Msg) :
    Accounts l (w.step l (.tell m)) 0 [] := by
  rw [step]
  split_ifs with hm
  · obtain ⟨-, hresult, hdata⟩ := hm
    refine h.moved w.kernel ?_ ?_
    · rw [List.filterMap_append, List.filterMap_cons_none hresult]
      exact List.append_nil _
    · rw [List.countP_append, List.countP_singleton, hdata]
      rfl
  · exact h

theorem Accounts.step {ev : Event} (h : Accounts l w 0 [])
    (htimeout : 0 ≤ l.timeout) (hlength : (w.step l ev).handled.length ≤ 2 ^ 64) :
    Accounts l (w.step l ev) 0 [] := by
  cases ev with
  | elapse t => exact h.elapse t
  | arrive from_ bytes =>
    rw [World.step]
    split_ifs
    · exact h.moved _ rfl rfl
    · exact h
  | deliver => exact h.deliver
  | handle => exact h.handle htimeout hlength
  | answered key data => exact h.answered data
  | failed key => exact h.failed htimeout
  | tell m => exact h.tell m
  | kill => exact h.stop
  | restart =>
    rw [World.step]
    split_ifs
    · exact h
    · exact .start l w.now

end Steps

/-- Only a new incarnation forgets queries. -/
theorem handled_step_le (l : UdpListener) (w : World) {ev : Event} (hev : ev ≠ .restart) :
    w.handled.length ≤ (w.step l ev).handled.length := by
  cases ev with
  | restart => exact absurd rfl hev
  | handle =>
    rw [step]
    split
    · exact le_rfl
    · next m mailbox hmailbox =>
      rw [receive_handled]
      cases m <;> simp [record]
  | failed key =>
    rw [step]
    split
    · exact le_rfl
    · rw [tryNext_handled]
      exact le_rfl
  | kill => exact le_rfl
  | elapse t =>
    rw [step]
    split_ifs <;> exact le_rfl
  | arrive from_ bytes =>
    rw [step]
    split_ifs <;> exact le_rfl
  | tell m =>
    rw [step]
    split_ifs <;> exact le_rfl
  | deliver =>
    rw [step]
    split <;> exact le_rfl
  | answered key data =>
    rw [step]
    split <;> exact le_rfl

theorem accounts_run {l : UdpListener} (htimeout : 0 ≤ l.timeout) (now : ℤ) (evs : List Event) :
    (run l (start now) evs).handled.length ≤ 2 ^ 64 → Accounts l (run l (start now) evs) 0 [] := by
  refine List.foldlRecOn (motive := fun w => w.handled.length ≤ 2 ^ 64 → Accounts l w 0 []) evs _
    (fun _ => .start l now) ?_
  intro w hw ev _ hlength
  by_cases hev : ev = .restart
  · subst hev
    rw [step] at hlength ⊢
    split_ifs at hlength ⊢ with halive
    · exact hw hlength
    · exact .start l w.now
  · exact (hw ((handled_step_le l w hev).trans hlength)).step htimeout hlength

/-- Two upstreams, the first of which fails the query of one client. -/
def retried : List Event :=
  [.arrive ⟨[192, 168, 1, 2], 5353⟩ [1, 2], .deliver, .handle, .elapse 3, .failed 0,
    .answered 0 [7], .handle]

def resolvers : UdpListener := ⟨⟨[192, 168, 1, 1], 53⟩, [⟨[1], 53⟩, ⟨[2], 53⟩], udpQueryTimeout⟩

/-- No slot is lost or doubled, in any order of datagrams, answers, failures and restarts, and a
query holds its Async no longer than every upstream may take in turn. -/
theorem slots_conserved {l : UdpListener} (htimeout : 0 ≤ l.timeout) (now : ℤ) (evs : List Event)
    (hwrap : (run l (start now) evs).handled.length ≤ 2 ^ 64)
    (halive : (run l (start now) evs).alive = true) :
    (run l (start now) evs).slots = maxInFlight ∧
    ∀ f ∈ (run l (start now) evs).running, f.started ≤ (run l (start now) evs).now ∧
      (run l (start now) evs).now ≤ f.started + l.upstreams.length * l.timeout := by
  have haccounts := accounts_run htimeout now evs hwrap
  refine ⟨haccounts.slots halive, fun f hf => ?_⟩
  have hongoing := haccounts.ongoing f hf
  obtain ⟨tried, hupstreams, -, hdeadline⟩ := hongoing.tried
  refine ⟨hongoing.started, hongoing.deadline.trans (hdeadline.trans ?_)⟩
  have hlength : tried.length + 1 ≤ l.upstreams.length := by
    rw [hupstreams, List.length_append, List.length_cons]
    omega
  have hscaled : ((tried.length + 1 : ℕ) : ℤ) * l.timeout ≤ l.upstreams.length * l.timeout :=
    mul_le_mul_of_nonneg_right (by exact_mod_cast hlength) htimeout
  push_cast at hscaled
  linarith

theorem slots_conserved_retried : (run resolvers (start 0) retried).slots = maxInFlight :=
  (slots_conserved (l := resolvers) (by decide) 0 retried (Nat.le_of_ble_eq_true rfl) rfl).1

/-- Every query handled is in one place: forwarded, its outcome queued, over, or cancelled with the
listener. One that is over came to the answer of the first upstream that gave one, or to nothing
once all had failed; what the listener sent are the answers of those, each to its own client. -/
theorem answers_faithful {l : UdpListener} (htimeout : 0 ≤ l.timeout) (now : ℤ)
    (evs : List Event) (hwrap : (run l (start now) evs).handled.length ≤ 2 ^ 64) :
    ((run l (start now) evs).places.map UInt64.toNat).Perm
      (List.range (run l (start now) evs).handled.length) ∧
    (∀ r ∈ (run l (start now) evs).ended, Concluded l (run l (start now) evs) r) ∧
    (run l (start now) evs).sent = (run l (start now) evs).ended.filterMap Prod.snd := by
  have haccounts := accounts_run htimeout now evs hwrap
  exact ⟨haccounts.places, fun r hr => haccounts.concluded r (List.mem_append_right _ hr),
    haccounts.sent⟩

theorem answers_faithful_retried :
    (run resolvers (start 0) retried).sent = [⟨⟨[192, 168, 1, 2], 5353⟩, [7]⟩] ∧
    (run resolvers (start 0) retried).sent =
      (run resolvers (start 0) retried).ended.filterMap Prod.snd :=
  ⟨rfl, (answers_faithful (l := resolvers) (by decide) 0 retried (Nat.le_of_ble_eq_true rfl)).2.2⟩

end World
end Minuteman.DnsProxy
