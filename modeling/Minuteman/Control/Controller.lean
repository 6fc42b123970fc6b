import Minuteman.Loader.Operations

/-!
# The softwire controller

The pure state machine that owns the softwire endpoints: it re-discovers the
AFTR, drives a migration to a new one and follows the WAN source. It acts only
through the effects it returns.
-/
namespace Minuteman.Control
open Library ByteString Loader

def seconds (n : ℤ) : ℤ := n * 1000000000

def primingDuration : ℤ := seconds 60
def drainInterval : ℤ := seconds 30
def maxDrainDuration : ℤ := seconds 7200
def switchRetry : ℤ := seconds 300
def b4PollInterval : ℤ := seconds 30

def nextRefreshWait (refresh : ℤ) : ℤ := if refresh ≤ 0 then switchRetry else refresh

def globalUnicast4 (a : Bytes) : Bool :=
  a != [0, 0, 0, 0] && a != [255, 255, 255, 255] && byteAt a 0 != 127 &&
    byteAt a 0 &&& 0xf0 != 0xe0 && !(byteAt a 0 == 169 && byteAt a 1 == 254)

/-- `netip.Addr.IsGlobalUnicast`, which unmaps an IPv4-mapped address first. -/
def isGlobalUnicast : Addr → Bool
  | .invalid => false
  | .v4 a => globalUnicast4 a.bytes
  | .v6 a zone =>
    if (Addr.v6 a zone).is4In6 then globalUnicast4 (a.bytes.drop 12)
    else
      !(a.bytes == List.replicate 16 0 && zone == "") &&
        a.bytes != List.replicate 15 0 ++ [1] && byteAt a.bytes 0 != 0xff &&
        !(byteAt a.bytes 0 == 0xfe && byteAt a.bytes 1 &&& 0xc0 == 0x80)

/-- `UsableB4`: whether a source the kernel chose can be the B4. -/
def usableB4 (addr : Addr) : Bool := addr.is6 && isGlobalUnicast addr

def nextB4 (current queried : Addr) (ok : Bool) : Addr × Bool :=
  if !ok || !usableB4 queried || queried == current then (current, false) else (queried, true)

inductive Phase
  | recovering
  | steady
  | discovering
  | priming
  | draining
  | switching
  deriving DecidableEq

structure Endpoints where
  b4 : Addr := .invalid
  aftr : Addr := .invalid
  deriving DecidableEq

/-- One AFTR discovery outcome, with its refresh pacing and token. -/
structure Discovery where
  aftr : Addr := .invalid
  refresh : ℤ := 0
  hb46ppToken : String := ""
  deriving DecidableEq

structure Counts where
  affinityInsert : ℕ := 0
  affinityInsertFail : ℕ := 0
  deriving DecidableEq

structure Data where
  current : Discovery := {}
  b4 : Addr := .invalid
  wait : ℤ := 0
  gen : ℕ := 0
  next : Discovery := {}
  migration : ℕ := 0
  baseline : Counts := {}
  recorded : ℕ := 0
  capReached : Bool := false
  abortWhy : String := ""
  switchB4 : Addr := .invalid
  switchTo : Discovery := {}

inductive Request
  | recoverReq
  | sourceReq (aftr : Addr)
  | switchReq (target : Endpoints)
  | beginReq (target : Endpoints)
  | countsReq
  | abortReq
  | cutoverReq
  | gcReq
  | completeReq
  deriving DecidableEq

inductive Reply
  | recovered (endpoints : Endpoints) (err : Option String)
  | sourceRep (addr : Addr) (ok : Bool) (err : Option String)
  | countsRep (counts : Counts) (err : Option String)
  | gcRep (remaining : ℕ) (err : Option String)
  | doneRep (err : Option String)
  | discoverRep (disc : Discovery) (err : Option String) (retryIn : ℤ)

inductive Op
  | recover
  | source
  | switch
  | discover
  | begin
  | counts
  | abort
  | cutover
  | gc
  | complete
  deriving DecidableEq

structure Tag where
  op : Op
  gen : ℕ
  deriving DecidableEq

structure Response where
  tag : Tag
  value : Option Reply
  err : Option String := none

inductive StateMsg
  | refresh
  | primed
  | drainTick
  deriving DecidableEq

inductive TimeoutMsg
  | b4Poll
  | drainCap (migration : ℕ)
  deriving DecidableEq

inductive TimerName
  | b4PollTimer
  | drainCapTimer
  deriving DecidableEq

inductive Effect
  | sendRequest (tag : Tag) (req : Request)
  | startStateTimeout (wait : ℤ) (msg : StateMsg)
  | startTimeout (wait : ℤ) (msg : TimeoutMsg)
  | cancelTimeout (name : TimerName)
  | async (token : String)
  | cancelAsync
  | postpone
  | stop (reason : String)

inductive StatemEvent
  | enter
  | stateTimeout (msg : StateMsg)
  | timeout (msg : TimeoutMsg)
  | asyncResult (value : Option Reply) (err : Option String)
  | response (r : Response)

structure Transition where
  phase : Phase
  data : Data
  effects : List Effect := []

structure Controller where
  dynamicAftr : Bool
  dynamicB4 : Bool
  initial : Discovery

namespace Response

/-- `reply`: a value of another type reads as the zero value. -/
def recovered (r : Response) : Endpoints × Option String :=
  match r.value with
  | some (.recovered endpoints err) => (endpoints, r.err.or err)
  | _ => ({}, r.err)

def source (r : Response) : (Addr × Bool) × Option String :=
  match r.value with
  | some (.sourceRep addr ok err) => ((addr, ok), r.err.or err)
  | _ => ((.invalid, false), r.err)

def counts (r : Response) : Counts × Option String :=
  match r.value with
  | some (.countsRep counts err) => (counts, r.err.or err)
  | _ => ({}, r.err)

def gc (r : Response) : ℕ × Option String :=
  match r.value with
  | some (.gcRep remaining err) => (remaining, r.err.or err)
  | _ => (0, r.err)

def discover (r : Response) : (Discovery × ℤ) × Option String :=
  match r.value with
  | some (.discoverRep disc err retryIn) => ((disc, retryIn), r.err.or err)
  | _ => (({}, 0), r.err)

def done (r : Response) : Option String :=
  match r.value with
  | some (.doneRep err) => r.err.or err
  | _ => r.err

end Response

def softwire (op : Op) (gen : ℕ) (req : Request) : Effect := .sendRequest ⟨op, gen⟩ req

def init : Transition := ⟨.recovering, {}, [softwire .recover 0 .recoverReq]⟩

/-- `abort`: roll a primed migration back; the reason is empty when it was already logged. -/
def abort (d : Data) (why : String) : Transition :=
  ⟨.priming, { d with abortWhy := why }, [softwire .abort d.gen .abortReq]⟩

/-- `migrationFailed`: stay on the AFTR still carrying traffic and try again later. -/
def migrationFailed (d : Data) : Transition := ⟨.steady, { d with next := {}, wait := switchRetry }, []⟩

/-- `hardSwitch`: move onto a new B4 at once, whatever was in flight. -/
def hardSwitch (st : Phase) (d : Data) (b4 : Addr) : Transition :=
  let dst := if st = .draining then d.next else d.current
  let cancels := if st = .discovering then [Effect.cancelAsync] else []
  let d := { d with gen := d.gen + 1, switchB4 := b4, switchTo := dst, next := {} }
  ⟨.switching, d, cancels ++ [softwire .switch d.gen (.switchReq ⟨b4, dst.aftr⟩)]⟩

namespace Controller
variable (c : Controller)

def recovered (d : Data) (ep : Endpoints) : Transition :=
  let d := { d with b4 := ep.b4 }
  let d := if ep.aftr = c.initial.aftr then
      { d with current := c.initial, wait := nextRefreshWait c.initial.refresh }
    else { d with current := { aftr := ep.aftr }, wait := 0 }
  ⟨.steady, d, if c.dynamicB4 then [.startTimeout b4PollInterval .b4Poll] else []⟩

def onRecover (st : Phase) (d : Data) (r : Response) : Transition :=
  match r.recovered.2 with
  | some err => ⟨st, d, [.stop err]⟩
  | none => c.recovered d r.recovered.1

end Controller

def onSource (st : Phase) (d : Data) (r : Response) : Transition :=
  match r.source.2 with
  | some _ => ⟨st, d, []⟩
  | none =>
    let b4 := nextB4 d.b4 r.source.1.1 r.source.1.2
    if b4.2 then hardSwitch st d b4.1 else ⟨st, d, []⟩

def onSwitch (d : Data) (r : Response) : Transition :=
  match r.done with
  | some _ => ⟨.steady, { d with wait := switchRetry }, []⟩
  | none => ⟨.steady, { d with b4 := d.switchB4, current := d.switchTo, wait := 0 }, []⟩

def onDiscover (d : Data) (r : Response) : Transition :=
  let disc := r.discover.1.1
  let retryIn := r.discover.1.2
  match r.discover.2 with
  | some _ =>
    ⟨.steady, { d with current := { d.current with refresh := retryIn }
                       wait := nextRefreshWait retryIn }, []⟩
  | none =>
    if disc.aftr = d.current.aftr then
      ⟨.steady, { d with current := disc, wait := nextRefreshWait disc.refresh }, []⟩
    else
      ⟨.priming, { d with next := disc, migration := d.migration + 1 },
        [softwire .begin d.gen (.beginReq ⟨d.b4, disc.aftr⟩)]⟩

def onBegin (st : Phase) (d : Data) (r : Response) : Transition :=
  match r.counts.2 with
  | some _ => migrationFailed d
  | none =>
    ⟨st, { d with baseline := r.counts.1 }, [.startStateTimeout primingDuration .primed]⟩

def onCounts (st : Phase) (d : Data) (r : Response) : Transition :=
  match r.counts.2 with
  | some err => abort d ("reading datapath stats: " ++ err)
  | none =>
    if r.counts.1.affinityInsertFail - d.baseline.affinityInsertFail > 0 then abort d ""
    else
      ⟨st, { d with recorded := r.counts.1.affinityInsert - d.baseline.affinityInsert },
        [softwire .cutover d.gen .cutoverReq]⟩

def onCutover (d : Data) (r : Response) : Transition :=
  match r.done with
  | some err => abort d err
  | none => ⟨.draining, d, []⟩

def onAbort (d : Data) (r : Response) : Transition :=
  match r.done with
  | some _ => migrationFailed d
  | none => if d.abortWhy = "" then ⟨.steady, { d with wait := switchRetry }, []⟩ else migrationFailed d

def onGc (st : Phase) (d : Data) (r : Response) : Transition :=
  match r.gc.2 with
  | some _ => ⟨st, d, [.startStateTimeout drainInterval .drainTick]⟩
  | none =>
    if 0 < r.gc.1 ∧ d.capReached = false then
      ⟨st, d, [.startStateTimeout drainInterval .drainTick]⟩
    else ⟨st, d, [softwire .complete d.gen .completeReq]⟩

def onComplete (st : Phase) (d : Data) (r : Response) : Transition :=
  match r.done with
  | some _ => ⟨st, d, [.startStateTimeout drainInterval .drainTick]⟩
  | none =>
    ⟨.steady, { d with current := d.next, next := {}, wait := nextRefreshWait d.next.refresh },
      [.cancelTimeout .drainCapTimer]⟩

namespace Controller
variable (c : Controller)

def response (st : Phase) (d : Data) (op : Op) (r : Response) : Transition :=
  match op with
  | .recover => c.onRecover st d r
  | .source => onSource st d r
  | .switch => onSwitch d r
  | .discover => onDiscover d r
  | .begin => onBegin st d r
  | .counts => onCounts st d r
  | .cutover => onCutover d r
  | .abort => onAbort d r
  | .gc => onGc st d r
  | .complete => onComplete st d r

def enter (st : Phase) (d : Data) : Transition :=
  match st with
  | .steady => ⟨st, d, if c.dynamicAftr then [.startStateTimeout d.wait .refresh] else []⟩
  | .draining =>
    ⟨st, { d with capReached := false },
      [.startStateTimeout drainInterval .drainTick,
        .startTimeout maxDrainDuration (.drainCap d.migration)]⟩
  | _ => ⟨st, d, []⟩

def handleEvent (st : Phase) (d : Data) : StatemEvent → Transition
  | .enter => c.enter st d
  | .stateTimeout .refresh => ⟨.discovering, d, [.async d.current.hb46ppToken]⟩
  | .stateTimeout .primed => ⟨st, d, [softwire .counts d.gen .countsReq]⟩
  | .stateTimeout .drainTick => ⟨st, d, [softwire .gc d.gen .gcReq]⟩
  | .timeout .b4Poll =>
    if st = .switching then ⟨st, d, [.postpone]⟩
    else
      ⟨st, d, [softwire .source d.gen (.sourceReq d.current.aftr),
        .startTimeout b4PollInterval .b4Poll]⟩
  | .timeout (.drainCap migration) =>
    ⟨st, if migration = d.migration then { d with capReached := true } else d, []⟩
  | .asyncResult value err => c.response st d .discover ⟨⟨.discover, d.gen⟩, value, err⟩
  | .response r => if r.tag.gen ≠ d.gen then ⟨st, d, []⟩ else c.response st d r.tag.op r

end Controller

end Minuteman.Control
