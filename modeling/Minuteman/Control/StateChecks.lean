import Minuteman.Control.Agreement

/-!
# The controller's requests pass the datapath's state checks

A datapath whose map operations do not fail refuses a request only for its
addresses or for the state of the control word. Along every run the requests
queued at the server arrive in the states they need, as long as no source that
the kernel reports is an IPv4-mapped address.
-/
namespace Minuteman.Control
open Library Datapath Loader Migration Prog

def EndOk (a : Addr) : Prop := a.is6 = true ∧ a.is4In6 = false

theorem Endpoints.accepted_iff {ep : Endpoints} : ep.Accepted ↔ EndOk ep.b4 ∧ EndOk ep.aftr := by
  simp only [Endpoints.Accepted, EndOk, validateSoftwireAddrs]
  cases ep.b4.is6 <;> cases ep.b4.is4In6 <;> cases ep.aftr.is6 <;> cases ep.aftr.is4In6 <;> simp

theorem usableB4_is6 {a : Addr} (h : usableB4 a = true) : a.is6 = true :=
  (Bool.and_eq_true_iff.mp h).1

section Requests
variable {sw : Softwire} {m : Maps} {a : Answers}

/-- A call that the datapath accepts succeeds when no map operation fails. -/
theorem Shadow.call_clean (h : Shadow sw m) (ha : a.faults = noFaults) {c : Call}
    (hset : c.isSetB4Config = false) (hc : c.Accepts m) (failed : Option String → Reply)
    (succeeded : Reply) (sw' : Softwire) :
    (sw.call m a c failed succeeded sw').reply = succeeded ∧
      Outcome m (mapsAfter m (sw.call m a c failed succeeded sw').event) c (.ok ()) := by
  have hout := Call.outcome h.slots hset a.faults
  have hok := Call.exec_noFaults_of_accepts h.slots hc
  rw [← ha] at hok
  rw [hok] at hout
  simp only [Softwire.call, hok]
  exact ⟨trivial, hout⟩

theorem Shadow.cutover_clean (h : Shadow sw m) (ha : a.faults = noFaults)
    (hstate : m.ctrl.state = migPriming) :
    (sw.handle m a .cutoverReq).reply = .doneRep none ∧
      (mapsAfter m (sw.handle m a .cutoverReq).event).ctrl.state = migDraining := by
  obtain ⟨hreply, hout⟩ := h.call_clean ha (c := .cutover) rfl hstate .doneRep (.doneRep none)
    { sw with active := sw.target }
  refine ⟨hreply, ?_⟩
  cases hout with
  | cutOver hc => exact congrArg MigrationCtrl.state hc.ctrl

theorem Shadow.abort_clean (h : Shadow sw m) (ha : a.faults = noFaults)
    (hstate : m.ctrl.state = migPriming) :
    (sw.handle m a .abortReq).reply = .doneRep none ∧
      (mapsAfter m (sw.handle m a .abortReq).event).ctrl.state = migSteady := by
  obtain ⟨hreply, hout⟩ := h.call_clean ha (c := .abortMigration) rfl hstate .doneRep (.doneRep none)
    { sw with migrating := false }
  refine ⟨hreply, ?_⟩
  cases hout with
  | aborted _ he => exact congrArg MigrationCtrl.state he.ctrl

theorem Shadow.complete_clean (h : Shadow sw m) (ha : a.faults = noFaults)
    (hstate : m.ctrl.state = migDraining) :
    (sw.handle m a .completeReq).reply = .doneRep none ∧
      (mapsAfter m (sw.handle m a .completeReq).event).ctrl.state = migSteady := by
  obtain ⟨hreply, hout⟩ := h.call_clean ha (c := .completeMigration) rfl hstate .doneRep
    (.doneRep none) { sw with migrating := false }
  refine ⟨hreply, ?_⟩
  cases hout with
  | completed _ he => exact congrArg MigrationCtrl.state he.ctrl

theorem Shadow.switch_clean (h : Shadow sw m) (ha : a.faults = noFaults) {ep : Endpoints}
    (hep : ep.Accepted) :
    (sw.handle m a (.switchReq ep)).reply = .doneRep none ∧
      (mapsAfter m (sw.handle m a (.switchReq ep)).event).ctrl.state = migSteady := by
  obtain ⟨hreply, hout⟩ := h.call_clean ha (c := .switchAftr ep.b4 ep.aftr) rfl hep .doneRep
    (.doneRep none) { sw with active := ep, migrating := false }
  refine ⟨hreply, ?_⟩
  cases hout with
  | switched _ hs => exact congrArg MigrationCtrl.state hs.ctrl

/-- A begin in the steady state starts a migration, or is refused and leaves the state. -/
theorem Shadow.begin_steady (h : Shadow sw m) (hstate : m.ctrl.state = migSteady) (ep : Endpoints) :
    (∃ k, (sw.handle m a (.beginReq ep)).reply = .countsRep k none ∧ ep.Accepted ∧
        (mapsAfter m (sw.handle m a (.beginReq ep)).event).ctrl.state = migPriming) ∨
      ∃ k err, (sw.handle m a (.beginReq ep)).reply = .countsRep k (some err) ∧
        (mapsAfter m (sw.handle m a (.beginReq ep)).event).ctrl.state = migSteady := by
  have hout := Call.outcome h.slots (c := .beginMigration ep.b4 ep.aftr) rfl a.faults
  rw [Softwire.handle]
  cases a.statsErr with
  | some err => exact Or.inr ⟨_, err, rfl, hstate⟩
  | none =>
    rcases sw.call_cases m a (.beginMigration ep.b4 ep.aftr) (.countsRep {})
      (.countsRep (Softwire.counts m) none) { sw with target := ep, migrating := true } with
      ⟨e, hr, heq⟩ | ⟨hr, heq⟩
    · simp only [heq]
      refine Or.inr ⟨_, _, rfl, ?_⟩
      change (Call.exec _ a.faults m).2.ctrl.state = migSteady
      rw [hr] at hout
      generalize (Call.exec _ a.faults m).2 = m' at hout
      cases hout with
      | unmoved hu => rw [hu.ctrl, hstate]
    · simp only [heq]
      change (∃ k, _ ∧ ep.Accepted ∧ (Call.exec _ a.faults m).2.ctrl.state = migPriming) ∨ _
      rw [hr] at hout
      generalize (Call.exec _ a.faults m).2 = m' at hout
      cases hout with
      | begun hv hb => exact Or.inl ⟨_, rfl, hv, by rw [hb.ctrl]⟩

/-- Reading the counters and collecting flows leave the state. -/
theorem state_of_reading (sw : Softwire) (m : Maps) (a : Answers) {req : Request}
    (hreq : req = .countsReq ∨ req = .gcReq ∨ req.isSource = true) :
    (mapsAfter m (sw.handle m a req).event).ctrl.state = m.ctrl.state := by
  rcases hreq with rfl | rfl | hsource
  · rw [Softwire.handle]
    cases a.statsErr <;> rfl
  · have hloader := gcFlowAffinity_loader flowIdle a.now a.faults m
    have hctrl : ((gcFlowAffinity flowIdle a.now).exec MapOp.effect a.faults m).2.ctrl = m.ctrl :=
      congrArg (fun l : LoaderMaps => unpackMigrationCtrl l.migrationCtrl) hloader
    rw [Softwire.handle]
    split <;> exact congrArg MigrationCtrl.state hctrl
  · cases req <;> try contradiction
    rw [Softwire.handle]
    split <;> rfl

end Requests

/-- The state check of a request; a hard switch has none, but its pair has to be accepted. -/
def Request.Passes (state : ℕ) : Request → Prop
  | .beginReq _ => state = migSteady
  | .cutoverReq => state = migPriming
  | .abortReq => state = migPriming
  | .completeReq => state = migDraining
  | .switchReq ep => ep.Accepted
  | _ => True

/-- The requests that pass in every state: those that close what was in flight. -/
def Request.Closes : Request → Prop
  | .recoverReq => True
  | .switchReq ep => ep.Accepted
  | _ => False

theorem Request.Closes.passes {req : Request} (h : req.Closes) (state : ℕ) : req.Passes state := by
  cases req <;> first | exact h | exact h.elim

/-- The first request passes in this state and every other in any. -/
def Orderly (state : ℕ) : List Request → Prop
  | [] => True
  | req :: rest => req.Passes state ∧ ∀ req' ∈ rest, req'.Closes

theorem Orderly.tail {state : ℕ} {req : Request} {rest : List Request}
    (h : Orderly state (req :: rest)) (state' : ℕ) : Orderly state' rest := by
  cases rest with
  | nil => trivial
  | cons req' rest =>
    have hrest := h.2
    rw [List.forall_mem_cons] at hrest
    exact ⟨hrest.1.passes state', hrest.2⟩

theorem Orderly.append {state : ℕ} {work : List Request} (h : Orderly state work) {req : Request}
    (hreq : req.Closes) : Orderly state (work ++ [req]) := by
  cases work with
  | nil => exact ⟨hreq.passes state, by simp⟩
  | cons first rest =>
    refine ⟨h.1, ?_⟩
    change ∀ req' ∈ rest ++ [req], req'.Closes
    rw [List.forall_mem_append, List.forall_mem_singleton]
    exact ⟨h.2, hreq⟩

/-- The state of the datapath, by what the controller waits for. -/
def InState (state : ℕ) (d : Data) (phase : Phase) (pending : Pending) : Prop :=
  match phase with
  | .recovering =>
    match pending with
    | .answered _ (.recovered ep none) => state = migSteady ∧ ep.Accepted
    | .answered _ _ => False
    | _ => True
  | .steady => state = migSteady ∧ EndOk d.current.aftr
  | .discovering => state = migSteady ∧ EndOk d.current.aftr
  | .priming => EndOk d.current.aftr ∧
    match pending with
    | .asked (.beginReq _) => True
    | .answered (.beginReq _) (.countsRep _ (some _)) => state = migSteady
    | .answered .cutoverReq (.doneRep none) => state = migDraining ∧ EndOk d.next.aftr
    | .asked .abortReq => True
    | .answered .abortReq _ => state = migSteady
    | _ => state = migPriming ∧ EndOk d.next.aftr
  | .draining => EndOk d.next.aftr ∧
    match pending with
    | .answered .completeReq (.doneRep none) => state = migSteady
    | .answered .completeReq _ => False
    | _ => state = migDraining
  | .switching => EndOk d.switchTo.aftr ∧
    match pending with
    | .answered _ (.doneRep none) => state = migSteady
    | .answered _ _ => False
    | _ => True

/-- The server agrees with the datapath, the queued requests pass its checks and the controller
knows its state. -/
structure Lawful (v : View) : Prop where
  shadow : Shadow v.softwire v.world.maps
  orderly : Orderly v.world.maps.ctrl.state (v.stale ++ v.pending.request)
  inState : InState v.world.maps.ctrl.state v.data v.phase v.pending

theorem worldAfter_maps (w : Monitored) (event : Option Event) :
    (worldAfter w event).maps = mapsAfter w.maps event := by
  cases event <;> rfl

theorem InFlight.stale_eq_nil {inc gen : ℕ} {Q : Addr → Prop} {b : Bool} {M : List Response}
    {q : List Item} {st : List Request} {p : Pending} (h : InFlight inc gen Q b M q st p)
    (hp : b = false ∨ ∀ req, p ≠ .asked req) : st = [] := by
  cases h with
  | askedLast =>
    rcases hp with hp | hp
    · cases hp
    · exact absurd rfl (hp _)
  | _ => rfl

/-- The pending request is served on a datapath whose map operations do not fail. -/
theorem InState.serve {sw : Softwire} {m : Maps} {a : Answers} (ha : a.faults = noFaults)
    (hshadow : Shadow sw m) {d : Data} {phase : Phase} {req : Request}
    (hpasses : req.Passes m.ctrl.state) (hasks : phase.asks d req)
    (h : InState m.ctrl.state d phase (.asked req)) :
    InState (mapsAfter m (sw.handle m a req).event).ctrl.state d phase
      (.answered req (sw.handle m a req).reply) := by
  cases phase with
  | steady => exact hasks.elim
  | discovering => exact hasks.elim
  | recovering =>
    obtain rfl : req = .recoverReq := hasks
    have hreply := hshadow.recovers ha
    rw [hreply]
    exact ⟨(hshadow.recovered hreply).2, hshadow.accepted⟩
  | priming =>
    rcases hasks with rfl | rfl | rfl | rfl
    · rcases hshadow.begin_steady (a := a) hpasses ⟨d.b4, d.next.aftr⟩ with
        ⟨k, hreply, hep, hstate⟩ | ⟨k, err, hreply, hstate⟩
      · rw [hreply]
        exact ⟨h.1, hstate, (Endpoints.accepted_iff.mp hep).2⟩
      · rw [hreply]
        exact ⟨h.1, hstate⟩
    · have hstate := state_of_reading sw m a (Or.inl rfl)
      exact ⟨h.1, hstate.trans h.2.1, h.2.2⟩
    · obtain ⟨hreply, hstate⟩ := hshadow.cutover_clean ha hpasses
      rw [hreply]
      exact ⟨h.1, hstate, h.2.2⟩
    · obtain ⟨-, hstate⟩ := hshadow.abort_clean ha hpasses
      exact ⟨h.1, hstate⟩
  | draining =>
    rcases hasks with rfl | rfl
    · have hstate := state_of_reading sw m a (Or.inr (Or.inl rfl))
      exact ⟨h.1, hstate.trans h.2⟩
    · obtain ⟨hreply, hstate⟩ := hshadow.complete_clean ha hpasses
      rw [hreply]
      exact ⟨h.1, hstate⟩
  | switching =>
    obtain rfl : req = _ := hasks
    obtain ⟨hreply, hstate⟩ := hshadow.switch_clean ha hpasses
    rw [hreply]
    exact ⟨h.1, hstate⟩

/-- The ends a hard switch of a live controller can go to. -/
theorem InState.endOk {state : ℕ} {d : Data} {phase : Phase} {p : Pending}
    (h : InState state d phase p) (hlive : phase.closing = false) (b4 : Addr) :
    EndOk (hardSwitch phase d b4).data.switchTo.aftr := by
  cases phase with
  | recovering => cases hlive
  | switching => cases hlive
  | steady => exact h.2
  | discovering => exact h.2
  | priming => exact h.1
  | draining => exact h.1

section Moves
variable {c : Controller} {Q : Addr → Prop} {s : System} {v : View}

/-- The map operations of the request that is served do not fail. -/
def Action.Clean : Action → Prop
  | .serve a => a.faults = noFaults
  | _ => True

namespace Lawful

/-- What the controller waits for changes, the server and the datapath do not. -/
theorem wait (h : Lawful v) (hstale : v.stale = []) {phase : Phase} {d : Data} {p : Pending}
    {cut : Bool} (hpasses : ∀ req, p = .asked req → req.Passes v.world.maps.ctrl.state)
    (hin : InState v.world.maps.ctrl.state d phase p) :
    Lawful ⟨phase, d, v.stale, p, v.softwire, v.world, cut⟩ := by
  refine ⟨h.shadow, ?_, hin⟩
  change Orderly _ (v.stale ++ p.request)
  rw [hstale]
  cases p with
  | asked req => exact ⟨hpasses req rfl, by simp⟩
  | _ => trivial

theorem serve (h : Lawful v) (hfits : Fits v.data v.phase v.pending) {a : Answers}
    (ha : a.faults = noFaults) {req : Request} (hstale : v.stale = [])
    (hp : v.pending = .asked req) :
    Lawful { v.serve a req with
      pending := .answered req (v.softwire.handle v.world.maps a req).reply } := by
  obtain ⟨hshadow, horderly, hin⟩ := h
  rw [hp] at hfits hin horderly
  rw [hstale] at horderly
  constructor
  · change Shadow _ (worldAfter v.world _).maps
    rw [worldAfter_maps]
    exact hshadow.handle a req
  · change Orderly _ (v.stale ++ [])
    rw [hstale]
    trivial
  · change InState (worldAfter v.world _).maps.ctrl.state v.data v.phase _
    rw [worldAfter_maps]
    exact hin.serve ha hshadow horderly.1 hfits.of_asked

/-- A request sent before a hard switch or a crash is served. -/
theorem stale (habs : Abstracts c Q s v) (h : Lawful v) {a : Answers} {req : Request}
    {rest : List Request} (hstale : v.stale = req :: rest) :
    Lawful { v.serve a req with stale := rest } := by
  have hflight := habs.flight
  rw [hstale] at hflight
  obtain ⟨hclosing, req', hp⟩ := hflight.asked_of_stale
  obtain ⟨hshadow, horderly, hin⟩ := h
  rw [hstale] at horderly
  constructor
  · change Shadow _ (worldAfter v.world _).maps
    rw [worldAfter_maps]
    exact hshadow.handle a req
  · exact horderly.tail _
  · change InState _ v.data v.phase v.pending
    rw [hp] at hin ⊢
    cases hphase : v.phase <;> rw [hphase] at hclosing hin <;> try cases hclosing
    · trivial
    · exact hin

theorem packet (h : Lawful v) (p : Packet) : Lawful { v with world := v.world.step (.packet p) } := by
  have hloader : (v.world.step (.packet p)).maps.toLoaderMaps = v.world.maps.toLoaderMaps :=
    p.after_toLoaderMaps v.world.maps
  have hctrl : (v.world.step (.packet p)).maps.ctrl = v.world.maps.ctrl :=
    congrArg (fun l : LoaderMaps => unpackMigrationCtrl l.migrationCtrl) hloader
  constructor
  · exact h.shadow.of_same (congrArg LoaderMaps.migrationCtrl hloader)
      (congrArg LoaderMaps.nextHops hloader)
  · rw [hctrl]
    exact h.orderly
  · rw [hctrl]
    exact h.inState

theorem move {act : Action} {v' : View} (habs : Abstracts c (fun b4 => b4.is4In6 = false) s v)
    (h : Lawful v) (hclean : act.Clean)
    (hmove : Move c (fun b4 => b4.is4In6 = false) s v act v') : Lawful v' := by
  have hfits := habs.fits
  have hin := h.inState
  have hflight := habs.flight
  obtain ⟨phase, data, st, pending, sw, world, cut⟩ := v
  have hlive : phase.closing = false → st = [] := by
    rintro hlive
    exact hflight.stale_eq_nil (Or.inl hlive)
  cases hmove with
  | packet p => exact h.packet p
  | cap =>
    refine ⟨h.shadow, h.orderly, ?_⟩
    cases phase <;> exact hin
  | stale a item q rest hhead hstale => exact stale habs h hstale
  | serve a req rest hstale hp hhead => exact h.serve hfits hclean hstale hp
  | refresh hphase =>
    obtain rfl : phase = .steady := hphase
    exact h.wait (hlive rfl) (by simp) hin
  | kept act d hphase hb4 haftr hgen =>
    obtain rfl : phase = .discovering := hphase
    refine h.wait (hlive rfl) (by simp) ⟨hin.1, ?_⟩
    rw [haftr]
    exact hin.2
  | migrate disc retryIn hphase hne =>
    obtain rfl : phase = .discovering := hphase
    refine h.wait (hlive rfl) ?_ ⟨hin.2, trivial⟩
    rintro req ⟨⟩
    exact hin.1
  | begun ep k hphase hp =>
    obtain rfl : phase = .priming := hphase
    obtain rfl : pending = _ := hp
    exact h.wait (hlive rfl) (by simp) hin
  | beginFailed ep k err hphase hp =>
    obtain rfl : phase = .priming := hphase
    obtain rfl : pending = _ := hp
    exact h.wait (hlive rfl) (by simp) ⟨hin.2, hin.1⟩
  | primed hphase hp =>
    obtain rfl : phase = .priming := hphase
    obtain rfl : pending = _ := hp
    refine h.wait (hlive rfl) ?_ hin
    rintro req ⟨⟩
    trivial
  | sampled k hphase hp hlost =>
    obtain rfl : phase = .priming := hphase
    obtain rfl : pending = _ := hp
    refine h.wait (hlive rfl) ?_ hin
    rintro req ⟨⟩
    exact hin.2.1
  | abandoned rep why hphase hp =>
    obtain rfl : phase = .priming := hphase
    obtain rfl : pending = _ := hp
    refine h.wait (hlive rfl) ?_ ⟨hin.1, trivial⟩
    rintro req ⟨⟩
    exact hin.2.1
  | cutOver hphase hp =>
    obtain rfl : phase = .priming := hphase
    obtain rfl : pending = _ := hp
    exact h.wait (hlive rfl) (by simp) ⟨hin.2.2, hin.2.1⟩
  | cutoverFailed err hphase hp =>
    obtain rfl : phase = .priming := hphase
    obtain rfl : pending = _ := hp
    refine h.wait (hlive rfl) ?_ ⟨hin.1, trivial⟩
    rintro req ⟨⟩
    exact hin.2.1
  | aborted err next hphase hp =>
    obtain rfl : phase = .priming := hphase
    obtain rfl : pending = _ := hp
    exact h.wait (hlive rfl) (by simp) ⟨hin.2, hin.1⟩
  | tick hphase hp =>
    obtain rfl : phase = .draining := hphase
    obtain rfl : pending = _ := hp
    refine h.wait (hlive rfl) ?_ hin
    rintro req ⟨⟩
    trivial
  | undrained req rep hphase hp hrep =>
    obtain rfl : phase = .draining := hphase
    obtain rfl : pending = _ := hp
    refine h.wait (hlive rfl) (by simp) ⟨hin.1, ?_⟩
    obtain ⟨rfl | rfl, hkind⟩ := hfits.of_answered
    · exact hin.2
    · cases rep <;> try exact hkind.elim
      rename_i err
      cases err with
      | none => exact absurd rfl hrep
      | some err => exact hin.2.elim
  | drained n hphase hp =>
    obtain rfl : phase = .draining := hphase
    obtain rfl : pending = _ := hp
    refine h.wait (hlive rfl) ?_ hin
    rintro req ⟨⟩
    exact hin.2
  | completed hphase hp =>
    obtain rfl : phase = .draining := hphase
    obtain rfl : pending = _ := hp
    exact h.wait (hlive rfl) (by simp) ⟨hin.2, hin.1⟩
  | hardSwitch b4 hphase husable hQ hne =>
    have hend := hin.endOk hphase b4
    have horderly : Orderly world.maps.ctrl.state pending.request := by
      have horderly := h.orderly
      rw [hlive hphase] at horderly
      exact horderly
    refine ⟨h.shadow, horderly.append ?_, hend, trivial⟩
    exact Endpoints.accepted_iff.mpr ⟨⟨usableB4_is6 husable, hQ⟩, hend⟩
  | switched ep hphase hp =>
    obtain rfl : phase = .switching := hphase
    obtain rfl : pending = _ := hp
    exact h.wait (hflight.stale_eq_nil (Or.inr (by simp))) (by simp) ⟨hin.2, hin.1⟩
  | switchFailed ep err hphase hp =>
    obtain rfl : phase = .switching := hphase
    obtain rfl : pending = _ := hp
    exact hin.2.elim
  | recovered ep hphase hp =>
    obtain rfl : phase = .recovering := hphase
    obtain rfl : pending = _ := hp
    refine h.wait (hflight.stale_eq_nil (Or.inr (by simp))) (by simp) ⟨hin.1, ?_⟩
    have hend := (Endpoints.accepted_iff.mp hin.2).2
    by_cases haftr : ep.aftr = c.initial.aftr
    · simp only [Controller.recovered, if_pos haftr]
      rw [← haftr]
      exact hend
    · simp only [Controller.recovered, if_neg haftr]
      exact hend
  | crash act =>
    refine ⟨h.shadow, ?_, trivial⟩
    exact h.orderly.append trivial

end Lawful

end Moves

/-- The request at the head of the queue is executed in a state that its check accepts. -/
def System.ChecksPass (s : System) : Prop :=
  ∀ item rest, s.queue = item :: rest →
    (∀ ep, item.req = .beginReq ep → s.world.maps.ctrl.state = migSteady) ∧
    (item.req = .cutoverReq → s.world.maps.ctrl.state = migPriming) ∧
    (item.req = .abortReq → s.world.maps.ctrl.state = migPriming) ∧
    (item.req = .completeReq → s.world.maps.ctrl.state = migDraining)

theorem Lawful.checksPass {c : Controller} {Q : Addr → Prop} {s : System} {v : View}
    (habs : Abstracts c Q s v) (h : Lawful v) : s.ChecksPass := by
  intro item rest hqueue
  have hpasses : item.req.isSource = false → item.req.Passes s.world.maps.ctrl.state := by
    intro hsource
    have hwork := habs.flight.work_eq habs.fits.not_source
    rw [hqueue, work_cons rest hsource] at hwork
    have horderly := h.orderly
    rw [← hwork] at horderly
    rw [habs.world]
    exact horderly.1
  refine ⟨fun ep hreq => ?_, fun hreq => ?_, fun hreq => ?_, fun hreq => ?_⟩
  all_goals
    rw [hreq] at hpasses
    exact hpasses rfl

/-- In every run in which no map operation fails and no reported source is IPv4-mapped, every
request is executed in the state its check requires. -/
theorem requests_pass_checks {c : Controller} {cfg : B4ConfigArgs} {s : System}
    (hboots : System.Boots cfg s) (actions : List Action) (hclean : ∀ act ∈ actions, act.Clean)
    (hsources : ∀ act ∈ actions, act.Reports fun b4 => b4.is4In6 = false) :
    (s.run c actions).ChecksPass := by
  have hstart : Lawful ⟨.recovering, {}, [], .asked .recoverReq, s.softwire, s.world, false⟩ := by
    cases hboots with
    | mk hasRouter hun hempty hexec =>
      exact ⟨Shadow.start hun hexec hasRouter, ⟨trivial, by simp⟩, trivial⟩
  obtain ⟨v, habs, hlawful⟩ := hboots.abstracts.run hstart
    (fun habs h hok hmove => h.move habs hok hmove) hsources
    (System.along_of_forall c s hclean)
  exact hlawful.checksPass habs

theorem requests_pass_checks_cutover :
    (bootedSystem.run docController (cutOverActions.take 9)).queue.map Item.req = [.cutoverReq] ∧
      (bootedSystem.run docController (cutOverActions.take 9)).ChecksPass := by
  refine ⟨rfl, requests_pass_checks bootedSystem_boots _ ?_ ?_⟩
  · intro act hact
    simp only [cutOverActions, List.take, List.mem_cons, List.not_mem_nil, or_false] at hact
    rcases hact with rfl | rfl | rfl | rfl | rfl | rfl | rfl | rfl | rfl <;> first | rfl | trivial
  · intro act hact
    simp only [cutOverActions, List.take, List.mem_cons, List.not_mem_nil, or_false] at hact
    rcases hact with rfl | rfl | rfl | rfl | rfl | rfl | rfl | rfl | rfl <;>
      first | trivial | (intro _ hok; cases hok)

def mappedAddr : Addr := .v6 ⟨Addr.mappedPrefix ++ [192, 0, 2, 1], by decide⟩ ""

/-- While a migration is primed the WAN source changes to an IPv4-mapped address, which the loader
does not take; the next discovery starts another migration. -/
def mappedSourceActions : List Action :=
  cutOverActions.take 6 ++
    [.b4Poll, .serve { source := mappedAddr, sourceOk := true }, .deliver, .serve {}, .deliver,
      .stateTimeout, .discovered { aftr := docAddr 3 } none 0]

theorem begin_rejected_while_priming :
    System.Boots docConfig bootedSystem ∧ (∀ act ∈ mappedSourceActions, act.Clean) ∧
    let s := bootedSystem.run docController mappedSourceActions
    s.queue.map Item.req = [.beginReq ⟨docAddr 1, docAddr 3⟩] ∧
      s.world.maps.ctrl.state = migPriming ∧
      ((Call.beginMigration (docAddr 1) (docAddr 3)).exec noFaults s.world.maps).1 =
        .error (.migrationInProgress migPriming) := by
  refine ⟨bootedSystem_boots, ?_, rfl, rfl, rfl⟩
  intro act hact
  simp only [mappedSourceActions, cutOverActions, List.take, List.cons_append, List.nil_append,
    List.mem_cons, List.not_mem_nil, or_false] at hact
  rcases hact with rfl | rfl | rfl | rfl | rfl | rfl | rfl | rfl | rfl | rfl | rfl | rfl | rfl <;>
    first | rfl | trivial

end Minuteman.Control
