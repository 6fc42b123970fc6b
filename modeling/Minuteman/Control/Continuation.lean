import Minuteman.Control.Simulation
import Minuteman.Migration.Pinning

/-!
# The controller always waits for one thing

Outside the steady phase there is one request of the current generation in
flight, one armed state timeout or one running discovery, and never two.
-/
namespace Minuteman.Control
open Library Datapath Loader Migration Prog

namespace System

end System

def Pending.requests : Pending → ℕ
  | .idle => 0
  | .async => 0
  | .asked _ => 1
  | .answered _ _ => 1

section Count
variable {inc gen : ℕ} {Q : Addr → Prop}

end Count

section Counted
variable {c : Controller} {Q : Addr → Prop} {s : System} {v : View}

end Counted

def bootedSystem : System :=
  System.spawn { softwire := { active := ⟨docAddr 1, docAddr 2⟩ }, world := ⟨configuredMaps, {}⟩ } 0

theorem bootedSystem_boots : System.Boots docConfig bootedSystem :=
  @System.Boots.mk docConfig { Maps.zeroed with lanConfigs := twoLans } configuredMaps noFaults true
    ⟨rfl, fun _ => rfl⟩ rfl rfl

def docController : Controller := ⟨true, true, { aftr := docAddr 2, refresh := 0 }⟩

end Minuteman.Control
