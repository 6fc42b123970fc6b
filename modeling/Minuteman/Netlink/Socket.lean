import Minuteman.Library.Interference
import Minuteman.Loader.Runs
import Minuteman.PrefixDelegation.IaPd

/-!
# Requests and replies on one netlink socket

`pkg/netlink/socket.go`. Each operation sends a request and reads what the
socket has queued next. The kernel queues its replies in the order of the
requests; a receive that fails leaves its datagram in the queue.
-/
namespace Minuteman.Netlink
open Library Loader PrefixDelegation

/-- An error number of the kernel, which is never zero. -/
structure Errno where
  code : ℕ
  pos : code ≠ 0
  deriving DecidableEq

/-- `isNoRouteErrno`: `ENETUNREACH`, `EHOSTUNREACH` and `ENETDOWN`. -/
def isNoRouteErrno (e : Errno) : Bool := [101, 113, 100].contains e.code

structure IfAddr where
  family : ℕ
  scope : ℕ
  ifindex : ℤ
  addr : Option Prefix
  deriving DecidableEq

structure Link where
  ifindex : ℤ
  name : String
  xdpID : ℕ
  deriving DecidableEq

/-- The messages read. An error message with no number is an acknowledgement; a link message may
fail to parse. -/
inductive Payload
  | error (errno : Option Errno)
  | done
  | newRoute (prefsrc : Option Addr)
  | newAddr (a : IfAddr)
  | newLink (l : Option Link)
  deriving DecidableEq

structure Message where
  seq : UInt32
  payload : Payload
  deriving DecidableEq

abbrev Datagram := List Message

/-- `blocked` stands for a call that does not return. -/
inductive NlError
  | send
  | receive
  | blocked
  | short
  | wrongType
  | wrongSeq (got want : UInt32)
  | errno (e : Errno)
  deriving DecidableEq

def parseAckErrno (d : Datagram) (wantSeq : UInt32) : Except NlError Unit :=
  match d with
  | [] => .error .short
  | m :: _ =>
    match m.payload with
    | .error errno =>
      if m.seq ≠ wantSeq then .error (.wrongSeq m.seq wantSeq)
      else
        match errno with
        | none => .ok ()
        | some e => .error (.errno e)
    | .done => .error .short
    | _ => .error .wrongType

inductive Request
  | addAddr (ifindex : ℤ) (addr : Addr) (prefixLen : ℤ)
  | delAddr (ifindex : ℤ) (addr : Addr) (prefixLen : ℤ)
  | addRoute (ifindex : ℤ) (dst : Addr) (bits : ℤ)
  | delRoute (ifindex : ℤ) (dst : Addr) (bits : ℤ)
  | addIP6Tnl (name : String) (loc remote : Addr) (mtu : ℤ)
  | setIP6TnlEndpoints (ifindex : ℤ) (loc remote : Addr)
  | addVeth (name peerName : String) (mtu : ℤ)
  | setLinkUp (ifindex : ℤ)
  | setLinkMTU (ifindex mtu : ℤ)
  | delLink (ifindex : ℤ)

inductive Op
  | request (r : Request)
  | sourceForDest (ifindex : ℤ) (dst : Addr)
  | addrs (ifindex : ℤ)
  | links

inductive Value
  | done
  | source (src : Option Addr)
  | addrs (l : List Prefix)
  | links (l : List Link)
  deriving DecidableEq

/-- A dump, by the datagrams it comes in; the last one ends with the end of the dump. -/
structure Dump (α : Type) where
  parts : List (List α)
  last : List α

def Dump.entries (d : Dump α) : List α := d.parts.flatten ++ d.last

inductive Answer
  | ack (errno : Option Errno)
  | route (r : Except Errno (Option Addr))
  | addrs (r : Except Errno (Dump IfAddr))
  | links (r : Except Errno (Dump (Option Link)))

/-- The kernel, whatever it does with its requests. -/
structure Kernel (κ : Type) where
  ack : κ → Request → Option Errno × κ
  route : κ → ℤ → Addr → Except Errno (Option Addr) × κ
  addrs : κ → Except Errno (Dump IfAddr) × κ
  links : κ → Except Errno (Dump (Option Link)) × κ

def Kernel.answer (kernel : Kernel κ) (k : κ) : Op → Answer × κ
  | .request r => ((kernel.ack k r).map .ack id)
  | .sourceForDest ifindex dst => (kernel.route k ifindex dst).map .route id
  | .addrs _ => (kernel.addrs k).map .addrs id
  | .links => (kernel.links k).map .links id

def dumpDatagrams (seq : UInt32) (entry : α → Payload) : Except Errno (Dump α) → List Datagram
  | .error e => [[⟨seq, .error (some e)⟩]]
  | .ok d => d.parts.map (fun part => part.map fun a => ⟨seq, entry a⟩) ++
      [(d.last.map fun a => ⟨seq, entry a⟩) ++ [⟨seq, .done⟩]]

def Answer.datagrams (seq : UInt32) : Answer → List Datagram
  | .ack errno => [[⟨seq, .error errno⟩]]
  | .route (.error e) => [[⟨seq, .error (some e)⟩]]
  | .route (.ok prefsrc) => [[⟨seq, .newRoute prefsrc⟩]]
  | .addrs r => dumpDatagrams seq .newAddr r
  | .links r => dumpDatagrams seq .newLink r

/-- `parseIfAddrMsg` on a message that parses: a global IPv6 address of the interface. -/
def acceptAddr (ifindex : ℤ) : Payload → Option Prefix
  | .newAddr a => if a.family = 10 ∧ a.ifindex = ifindex ∧ a.scope = 0 then a.addr else none
  | _ => none

def acceptLink : Payload → Option Link
  | .newLink l => l
  | _ => none

/-- The messages of one datagram of a dump: what was found so far, and whether the dump ended. -/
def walkDump (accept : Payload → Option α) (wantSeq : UInt32) :
    Datagram → List α → Except NlError (List α × Bool)
  | [], found => .ok (found, false)
  | m :: rest, found =>
    match m.payload with
    | .done => .ok (found, true)
    | .error _ =>
      match parseAckErrno [m] wantSeq with
      | .error e => .error e
      | .ok () => walkDump accept wantSeq rest found
    | p => walkDump accept wantSeq rest (found ++ (accept p).toList)

/-- The loop of `Addrs` and `Links`; the receive number `fails` fails. -/
def readDump (accept : Payload → Option α) (wantSeq : UInt32) :
    Option ℕ → List Datagram → List α → Except NlError (List α) × List Datagram
  | some 0, queue, _ => (.error .receive, queue)
  | _, [], _ => (.error .blocked, [])
  | fails, d :: queue, found =>
    match walkDump accept wantSeq d found with
    | .error e => (.error e, queue)
    | .ok (found, true) => (.ok found, queue)
    | .ok (found, false) => readDump accept wantSeq (fails.map Nat.pred) queue found

/-- The messages of the reply to a route query. -/
def readRoute (wantSeq : UInt32) : Datagram → Except NlError (Option Addr)
  | [] => .ok none
  | m :: rest =>
    match m.payload with
    | .error _ =>
      match parseAckErrno [m] wantSeq with
      | .error (.errno e) => if isNoRouteErrno e then .ok none else .error (.errno e)
      | .error e => .error e
      | .ok () => readRoute wantSeq rest
    | .newRoute (some src) => .ok (some src)
    | _ => readRoute wantSeq rest

def readOne (fails : Option ℕ) (queue : List Datagram) (parse : Datagram → Except NlError α) :
    Except NlError α × List Datagram :=
  match queue with
  | [] => (.error .blocked, [])
  | d :: rest => if fails = some 0 then (.error .receive, queue) else (parse d, rest)

/-- What an operation reads once its request is sent: its result and what stays queued. -/
def Op.read (op : Op) (seq : UInt32) (fails : Option ℕ) (queue : List Datagram) :
    Except NlError Value × List Datagram :=
  match op with
  | .request _ => (readOne fails queue (parseAckErrno · seq)).map (·.map fun _ => .done) id
  | .sourceForDest _ _ => (readOne fails queue (readRoute seq)).map (·.map .source) id
  | .addrs ifindex => (readDump (acceptAddr ifindex) seq fails queue []).map (·.map .addrs) id
  | .links => (readDump acceptLink seq fails queue []).map (·.map .links) id

/-- What the kernel's answer means to the operation that asked. -/
def Op.meaning : Op → Answer → Except NlError Value
  | .request _, .ack none => .ok .done
  | .request _, .ack (some e) => .error (.errno e)
  | .sourceForDest _ _, .route (.error e) =>
    if isNoRouteErrno e then .ok (.source none) else .error (.errno e)
  | .sourceForDest _ _, .route (.ok prefsrc) => .ok (.source prefsrc)
  | .addrs _, .addrs (.error e) => .error (.errno e)
  | .addrs ifindex, .addrs (.ok d) =>
    .ok (.addrs (d.entries.filterMap fun a => acceptAddr ifindex (.newAddr a)))
  | .links, .links (.error e) => .error (.errno e)
  | .links, .links (.ok d) => .ok (.links (d.entries.filterMap fun l => acceptLink (.newLink l)))
  | _, _ => .error .wrongType

structure Entry where
  answered : Except NlError Value
  result : Except NlError Value

/-- The kernel and the socket, with the operations made on it. -/
structure World (κ : Type) where
  kernel : κ
  seq : UInt32 := 0
  queue : List Datagram := []
  log : List Entry := []

structure Call where
  op : Op
  sendFails : Bool := false
  fails : Option ℕ := none

def World.step (kernel : Kernel κ) (w : World κ) (c : Call) : World κ :=
  let seq := w.seq + 1
  if c.sendFails then { w with seq, log := w.log ++ [⟨.error .send, .error .send⟩] }
  else
    let answer := kernel.answer w.kernel c.op
    let got := c.op.read seq c.fails (w.queue ++ answer.1.datagrams seq)
    { kernel := answer.2
      seq
      queue := got.2
      log := w.log ++ [⟨c.op.meaning answer.1, got.1⟩] }

/-- The operation returned the kernel's answer to its own request, unless its own receive
failed. -/
def Entry.Own (e : Entry) : Prop := e.result = .error .receive ∨ e.result = e.answered

section Reading
variable {α β : Type} {seq : UInt32}

theorem walkDump_entries {accept : Payload → Option β} {entry : α → Payload}
    (hentry : ∀ a, (∀ e, entry a ≠ .error e) ∧ entry a ≠ .done) (entries : List α)
    (rest : Datagram) (found : List β) :
    walkDump accept seq ((entries.map fun a => ⟨seq, entry a⟩) ++ rest) found =
      walkDump accept seq rest (found ++ entries.filterMap fun a => accept (entry a)) := by
  induction entries generalizing found with
  | nil => simp
  | cons a entries ih =>
    have hstep : walkDump accept seq (((a :: entries).map fun a => ⟨seq, entry a⟩) ++ rest) found =
        walkDump accept seq ((entries.map fun a => ⟨seq, entry a⟩) ++ rest)
          (found ++ (accept (entry a)).toList) := by
      rw [List.map_cons, List.cons_append, walkDump]
      dsimp only
      split
      · next hdone => exact absurd hdone (hentry a).2
      · next e herror => exact absurd herror ((hentry a).1 e)
      · rfl
    rw [hstep, ih, List.filterMap_cons]
    cases accept (entry a) <;> simp

/-- A dump is read to its end. -/
theorem readDump_dump {accept : Payload → Option β} {entry : α → Payload}
    (hentry : ∀ a, (∀ e, entry a ≠ .error e) ∧ entry a ≠ .done) (parts : List (List α))
    (last : List α) (found : List β) :
    readDump accept seq none (dumpDatagrams seq entry (.ok ⟨parts, last⟩)) found =
      (.ok (found ++ (parts.flatten ++ last).filterMap fun a => accept (entry a)), []) := by
  induction parts generalizing found with
  | nil =>
    change readDump accept seq none [(last.map fun a => ⟨seq, entry a⟩) ++ [⟨seq, .done⟩]] found = _
    rw [readDump, walkDump_entries hentry]
    · simp [walkDump]
    · simp
  | cons part parts ih =>
    change readDump accept seq none ((part.map fun a => ⟨seq, entry a⟩) ::
      dumpDatagrams seq entry (.ok ⟨parts, last⟩)) found = _
    have hpart : walkDump accept seq (part.map fun a => ⟨seq, entry a⟩) found =
        walkDump accept seq [] (found ++ part.filterMap fun a => accept (entry a)) := by
      rw [← walkDump_entries hentry, List.append_nil]
    rw [readDump, hpart]
    · simp only [walkDump, Option.map_none]
      rw [ih]
      simp
    · simp

theorem readDump_error (accept : Payload → Option β) (entry : α → Payload) (e : Errno) :
    readDump accept seq none (dumpDatagrams seq entry (.error e)) [] = (.error (.errno e), []) := by
  simp [dumpDatagrams, readDump, walkDump, parseAckErrno]

/-- A dump whose receives fail is not read otherwise. -/
theorem readDump_fails (accept : Payload → Option β) (fails : Option ℕ) (queue : List Datagram)
    (found : List β) :
    (readDump accept seq fails queue found).1 = .error .receive ∨
      readDump accept seq fails queue found = readDump accept seq none queue found := by
  induction queue generalizing fails found with
  | nil =>
    match fails with
    | none => exact Or.inr rfl
    | some 0 => exact Or.inl rfl
    | some (n + 1) => exact Or.inr rfl
  | cons d queue ih =>
    match fails with
    | none => exact Or.inr rfl
    | some 0 => exact Or.inl rfl
    | some (n + 1) =>
      rw [readDump, readDump]
      · cases walkDump accept seq d found with
        | error e => exact Or.inr rfl
        | ok r =>
          obtain ⟨found', ended⟩ := r
          cases ended with
          | true => exact Or.inr rfl
          | false => exact ih (some n) found'
      · simp
      · simp

theorem readOne_fails (fails : Option ℕ) (queue : List Datagram)
    (parse : Datagram → Except NlError α) :
    (readOne fails queue parse).1 = .error .receive ∨
      readOne fails queue parse = readOne none queue parse := by
  cases queue with
  | nil => exact Or.inr rfl
  | cons d rest =>
    by_cases hfails : fails = some 0
    · exact Or.inl (by simp [readOne, hfails])
    · exact Or.inr (by simp [readOne, hfails])

/-- An operation whose receive fails says so; any other reads as if none could. -/
theorem Op.read_fails (op : Op) (fails : Option ℕ) (queue : List Datagram) :
    (op.read seq fails queue).1 = .error .receive ∨
      op.read seq fails queue = op.read seq none queue := by
  have hmap : ∀ {γ : Type} {f : γ → Value} {r r' : Except NlError γ × List Datagram},
      r.1 = .error .receive ∨ r = r' →
      (r.map (·.map f) id).1 = .error .receive ∨ r.map (·.map f) id = r'.map (·.map f) id := by
    rintro γ f r r' (hreceive | rfl)
    · exact Or.inl (by simp [hreceive, Except.map])
    · exact Or.inr rfl
  cases op with
  | request r => exact hmap (readOne_fails _ _ _)
  | sourceForDest ifindex dst => exact hmap (readOne_fails _ _ _)
  | addrs ifindex => exact hmap (readDump_fails _ _ _ _)
  | links => exact hmap (readDump_fails _ _ _ _)

/-- With nothing else queued an operation reads the answer to its own request, and all of it. -/
theorem Op.read_answer {κ : Type} (kernel : Kernel κ) (k : κ) (op : Op) :
    op.read seq none ((kernel.answer k op).1.datagrams seq) =
      (op.meaning (kernel.answer k op).1, []) := by
  cases op with
  | request r =>
    rw [show (kernel.answer k (.request r)).1 = .ack (kernel.ack k r).1 from rfl]
    cases (kernel.ack k r).1 <;>
      simp [Op.read, Op.meaning, Answer.datagrams, readOne, parseAckErrno, Except.map]
  | sourceForDest ifindex dst =>
    rw [show (kernel.answer k (.sourceForDest ifindex dst)).1 =
      .route (kernel.route k ifindex dst).1 from rfl]
    cases (kernel.route k ifindex dst).1 with
    | error e =>
      by_cases hno : isNoRouteErrno e <;>
        simp [Op.read, Op.meaning, Answer.datagrams, readOne, readRoute, parseAckErrno, hno,
          Except.map]
    | ok prefsrc =>
      cases prefsrc <;>
        simp [Op.read, Op.meaning, Answer.datagrams, readOne, readRoute, Except.map]
  | addrs ifindex =>
    rw [show (kernel.answer k (.addrs ifindex)).1 = .addrs (kernel.addrs k).1 from rfl]
    cases (kernel.addrs k).1 with
    | error e =>
      rw [Op.read, Answer.datagrams, readDump_error]
      rfl
    | ok d =>
      rw [Op.read, Answer.datagrams, readDump_dump (by simp)]
      rfl
  | links =>
    rw [show (kernel.answer k .links).1 = .links (kernel.links k).1 from rfl]
    cases (kernel.links k).1 with
    | error e =>
      rw [Op.read, Answer.datagrams, readDump_error]
      rfl
    | ok d =>
      rw [Op.read, Answer.datagrams, readDump_dump (by simp)]
      rfl

end Reading

section Runs
variable {κ : Type} {kernel : Kernel κ} {w : World κ}

/-- No reply to an earlier operation is still queued. -/
def Drained (w : World κ) (_ : Call) : Prop := w.queue = []

/-- An operation that starts with the queue drained leaves its own answer. -/
theorem World.step_own {c : Call} (hdrained : Drained w c) :
    ∃ e, (w.step kernel c).log = w.log ++ [e] ∧ e.Own := by
  unfold World.step
  dsimp only
  split_ifs with hsend
  · exact ⟨_, rfl, Or.inr rfl⟩
  · refine ⟨_, rfl, ?_⟩
    rw [show w.queue = [] from hdrained, List.nil_append]
    rcases c.op.read_fails c.fails ((kernel.answer w.kernel c.op).1.datagrams (w.seq + 1)) with
      hreceive | hread
    · exact Or.inl hreceive
    · rw [hread, Op.read_answer]
      exact Or.inr rfl

/-- If none of its receives fails, the queue is drained again. -/
theorem World.step_queue {c : Call} (hdrained : w.queue = []) (hreceives : c.fails = none) :
    (w.step kernel c).queue = [] := by
  unfold World.step
  dsimp only
  split_ifs with hsend
  · exact hdrained
  · rw [hdrained, List.nil_append, hreceives, Op.read_answer]

/-- Every operation that starts with the queue drained returns the answer to its own request. -/
theorem results_own (kernel : Kernel κ) (k : κ) {calls : List Call}
    (h : Along (World.step kernel) Drained ⟨k, 0, [], []⟩ calls) :
    ∀ e ∈ (calls.foldl (World.step kernel) ⟨k, 0, [], []⟩).log, e.Own := by
  refine h.invariant (I := fun w => ∀ e ∈ w.log, e.Own) ?_ (by simp)
  intro w c hlog hdrained e he
  obtain ⟨new, hstep, hown⟩ := @World.step_own _ kernel w c hdrained
  rw [hstep] at he
  rcases List.mem_append.mp he with hold | hnew
  · exact hlog e hold
  · rw [List.mem_singleton.mp hnew]
    exact hown

end Runs

section Sample

def echoKernel : Kernel Unit where
  ack _ _ := (none, ())
  route _ _ dst := (.ok (some dst), ())
  addrs _ := (.ok ⟨[], []⟩, ())
  links _ := (.ok ⟨[], []⟩, ())

def sampleCalls (fails : Option ℕ) : List Call :=
  [⟨.sourceForDest 2 (docAddr 2), false, fails⟩, ⟨.sourceForDest 2 (docAddr 3), false, none⟩,
    ⟨.request (.setLinkUp 5), false, none⟩]

def sampleLog (fails : Option ℕ) : List Entry :=
  ((sampleCalls fails).foldl (World.step echoKernel) ⟨(), 0, [], []⟩).log

theorem results_own_received :
    (sampleLog none).map Entry.result =
        [.ok (.source (some (docAddr 2))), .ok (.source (some (docAddr 3))), .ok .done] ∧
      ∀ e ∈ sampleLog none, e.Own := by
  have hdrained : Along (World.step echoKernel) Drained ⟨(), 0, [], []⟩ (sampleCalls none) :=
    ⟨rfl, World.step_queue rfl rfl, World.step_queue (World.step_queue rfl rfl) rfl, trivial⟩
  exact ⟨by decide +kernel, results_own echoKernel () hdrained⟩

/-- After a receive that failed, one destination's source is returned for the other, and a request
that the kernel carried out is reported as failed. -/
theorem lost_receive_shifts_replies :
    (sampleLog (some 0)).map Entry.answered =
        [.ok (.source (some (docAddr 2))), .ok (.source (some (docAddr 3))), .ok .done] ∧
      (sampleLog (some 0)).map Entry.result =
        [.error .receive, .ok (.source (some (docAddr 2))), .error .wrongType] := by
  constructor
  all_goals decide +kernel

end Sample

end Minuteman.Netlink
