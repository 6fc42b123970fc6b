import Minuteman.Control.Controller
import Minuteman.Migration.History

/-!
# The softwire server

The server that carries out the controller's requests on the datapath, one at
a time. It remembers the endpoints new flows use, which outlive the
controller.
-/
namespace Minuteman.Control
open Library Datapath Loader Migration Prog

def flowIdle : FlowIdleTimeouts := ⟨seconds 1800, seconds 300⟩

/-- The live softwire: where new flows go and, during a migration, where it moves to. -/
structure Softwire where
  active : Endpoints
  target : Endpoints := {}
  migrating : Bool := false
  hasRouter : Bool := true

/-- The outside world's answers while a request is handled: which map operations fail, what the
clock and the kernel's source selection say, and how errors are printed. -/
structure Answers where
  faults : Faults := noFaults
  now : ℕ := 0
  statsErr : Option String := none
  source : Addr := .invalid
  sourceOk : Bool := false
  sourceErr : Option String := none
  render : Addr → String := fun _ => "addr"
  cause : String := "errno"

def Answers.error (a : Answers) (e : LoaderError) : Option String := some (e.message a.render a.cause)

/-- What a request comes to: the reply, the softwire after it and the call it made. -/
structure Handled where
  reply : Reply
  softwire : Softwire
  event : Option Event := none

namespace Softwire

def call (sw : Softwire) (m : Maps) (a : Answers) (c : Call) (failed : Option String → Reply)
    (succeeded : Reply) (sw' : Softwire) : Handled :=
  match (c.exec a.faults m).1 with
  | .error e => ⟨failed (a.error e), sw, some (.call c a.faults)⟩
  | .ok _ => ⟨succeeded, sw', some (.call c a.faults)⟩

def counts (m : Maps) : Counts := ⟨m.stats .affinityInsert, m.stats .affinityInsertFail⟩

def handle (sw : Softwire) (m : Maps) (a : Answers) : Request → Handled
  | .recoverReq =>
    if sw.migrating then
      sw.call m a (.switchAftr sw.active.b4 sw.active.aftr) (.recovered {}) (.recovered sw.active none)
        { sw with migrating := false }
    else ⟨.recovered sw.active none, sw, none⟩
  | .sourceReq _ =>
    if sw.hasRouter then ⟨.sourceRep a.source a.sourceOk a.sourceErr, sw, none⟩
    else ⟨.sourceRep .invalid false (some "no netlink socket to select the B4 source with"), sw, none⟩
  | .switchReq target =>
    sw.call m a (.switchAftr target.b4 target.aftr) .doneRep (.doneRep none)
      { sw with active := target, migrating := false }
  | .beginReq target =>
    match a.statsErr with
    | some err => ⟨.countsRep {} (some err), sw, none⟩
    | none =>
      sw.call m a (.beginMigration target.b4 target.aftr) (.countsRep {}) (.countsRep (counts m) none)
        { sw with target := target, migrating := true }
  | .countsReq =>
    match a.statsErr with
    | some err => ⟨.countsRep {} (some err), sw, none⟩
    | none => ⟨.countsRep (counts m) none, sw, none⟩
  | .abortReq =>
    sw.call m a .abortMigration .doneRep (.doneRep none) { sw with migrating := false }
  | .cutoverReq => sw.call m a .cutover .doneRep (.doneRep none) { sw with active := sw.target }
  | .gcReq =>
    match ((gcFlowAffinity flowIdle a.now).exec MapOp.effect a.faults m).1 with
    | .error e => ⟨.gcRep 0 (a.error e), sw, some (.gc flowIdle a.now a.faults)⟩
    | .ok n => ⟨.gcRep n none, sw, some (.gc flowIdle a.now a.faults)⟩
  | .completeReq =>
    sw.call m a .completeMigration .doneRep (.doneRep none) { sw with migrating := false }

end Softwire

end Minuteman.Control
