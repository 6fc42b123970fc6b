import Minuteman.Control.StateChecks

/-!
# A restart ends what was left behind

Whatever failed and wherever the last controller died: one that is started
again, once it has heard from the server, is steady on the endpoints that new
flows use, and no migration is under way. It hears unless a map operation of its
own request fails.
-/
namespace Minuteman.Control
open Library Datapath Loader Migration Prog

/-- The server is in step with the datapath, and a recovery that it has answered was the last
request that it served. -/
structure Recoverable (v : View) : Prop where
  shadow : Shadow v.softwire v.world.maps
  answered : ∀ ep, v.pending = .answered .recoverReq (.recovered ep none) →
    ep = v.softwire.active ∧ v.world.maps.ctrl.state = migSteady

namespace Recoverable
variable {c : Controller} {Q : Addr → Prop} {s : System} {v : View}

theorem other (h : Recoverable v) {phase : Phase} {d : Data} {st : List Request} {p : Pending}
    {cut : Bool} (hp : ∀ ep, p ≠ .answered .recoverReq (.recovered ep none)) :
    Recoverable ⟨phase, d, st, p, v.softwire, v.world, cut⟩ :=
  ⟨h.shadow, fun ep hanswered => absurd hanswered (hp ep)⟩

theorem shadow_serve (h : Recoverable v) (a : Answers) (req : Request) :
    Shadow (v.serve a req).softwire (v.serve a req).world.maps := by
  change Shadow _ (worldAfter v.world _).maps
  rw [worldAfter_maps]
  exact h.shadow.handle a req

theorem stale (habs : Abstracts c Q s v) (h : Recoverable v) {a : Answers} {req : Request}
    {rest : List Request} (hstale : v.stale = req :: rest) :
    Recoverable { v.serve a req with stale := rest } := by
  have hflight := habs.flight
  rw [hstale] at hflight
  obtain ⟨-, req', hp⟩ := hflight.asked_of_stale
  exact ⟨h.shadow_serve a req, fun ep hanswered => by cases hp.symm.trans hanswered⟩

theorem serve (h : Recoverable v) {a : Answers} {req : Request} :
    Recoverable { v.serve a req with
      pending := .answered req (v.softwire.handle v.world.maps a req).reply } := by
  refine ⟨h.shadow_serve a req, fun ep hanswered => ?_⟩
  obtain ⟨rfl, hreply⟩ := Pending.answered.inj hanswered
  obtain ⟨hactive, hsteady⟩ := h.shadow.recovered hreply
  refine ⟨hactive.trans (v.softwire.handle_recover_active v.world.maps a).symm, ?_⟩
  change (worldAfter v.world _).maps.ctrl.state = migSteady
  rw [worldAfter_maps]
  exact hsteady

theorem move {act : Action} {v' : View} (habs : Abstracts c Q s v) (h : Recoverable v)
    (hmove : Move c Q s v act v') : Recoverable v' := by
  cases hmove with
  | packet p =>
    have hloader : (v.world.step (.packet p)).maps.toLoaderMaps = v.world.maps.toLoaderMaps :=
      p.after_toLoaderMaps v.world.maps
    refine ⟨h.shadow.of_same (congrArg LoaderMaps.migrationCtrl hloader)
      (congrArg LoaderMaps.nextHops hloader), fun ep hanswered => ?_⟩
    have hctrl : (v.world.step (.packet p)).maps.ctrl = v.world.maps.ctrl :=
      congrArg (fun l : LoaderMaps => unpackMigrationCtrl l.migrationCtrl) hloader
    rw [hctrl]
    exact h.answered ep hanswered
  | cap => exact ⟨h.shadow, h.answered⟩
  | stale a item q rest hhead hstale => exact h.stale habs hstale
  | serve a req rest hstale hp hhead => exact h.serve
  | _ => exact h.other (by simp [View.ask])

end Recoverable

namespace System
variable {c : Controller} {s : System}

/-- A controller that was just started, with what was left in the queue before its request. -/
structure Fresh (s : System) (left : List Item) : Prop where
  phase : s.phase = .recovering
  data : s.data = {}
  postponed : s.postponed = []
  mailbox : s.mailbox = []
  queue : s.queue = left ++ [⟨s.incarnation, ⟨.recover, 0⟩, .recoverReq⟩]
  left : ∀ i ∈ left, i.owner ≠ s.incarnation

/-- What was left in the queue is served, whether it fails or not, and nobody hears of it. -/
theorem Fresh.served {left : List Item} (h : s.Fresh left)
    (hshadow : Shadow s.softwire s.world.maps) {answers : List Answers}
    (hlength : answers.length = left.length) :
    (s.run c (answers.map .serve)).Fresh [] ∧
      Shadow (s.run c (answers.map .serve)).softwire (s.run c (answers.map .serve)).world.maps := by
  induction left generalizing s answers with
  | nil =>
    cases List.length_eq_zero_iff.mp hlength
    exact ⟨h, hshadow⟩
  | cons i rest ih =>
    cases answers with
    | nil => cases hlength
    | cons a answers =>
      have hqueue : s.queue = i :: (rest ++ [⟨s.incarnation, ⟨.recover, 0⟩, .recoverReq⟩]) :=
        h.queue
      have hlive : ¬i.owner = s.incarnation := h.left i List.mem_cons_self
      have hserve : s.step c (.serve a) = s.serve a := rfl
      refine @ih (s.step c (.serve a)) ?_ ?_ answers (Nat.succ.inj hlength)
      · rw [hserve, serve, hqueue]
        exact ⟨h.phase, h.data, h.postponed, by simp [hlive, h.mailbox], rfl,
          fun j hj => h.left j (List.mem_cons_of_mem _ hj)⟩
      · rw [hserve, serve, hqueue]
        change Shadow _ (worldAfter s.world _).maps
        rw [worldAfter_maps]
        exact hshadow.handle a i.req

/-- The request of the controller is answered, and it goes on. -/
theorem Fresh.answered (h : s.Fresh []) (hshadow : Shadow s.softwire s.world.maps) {a : Answers}
    (ha : a.faults = noFaults) :
    (s.step c (.serve a)).phase = .recovering ∧
      ((s.step c (.serve a)).step c .deliver).phase = .steady := by
  have hqueue : s.queue = [⟨s.incarnation, ⟨.recover, 0⟩, .recoverReq⟩] := h.queue
  have hserve : s.step c (.serve a) = s.serve a := rfl
  have hserved : (s.serve a).phase = .recovering ∧ (s.serve a).data = {} ∧
      (s.serve a).postponed = [] ∧
      (s.serve a).mailbox = [⟨⟨.recover, 0⟩, some (.recovered s.softwire.active none), none⟩] := by
    rw [serve, hqueue]
    dsimp only
    rw [if_pos rfl, h.mailbox, hshadow.recovers ha]
    exact ⟨h.phase, h.data, h.postponed, rfl⟩
  rw [hserve]
  generalize s.serve a = t at hserved
  obtain ⟨hphase, hdata, hpostponed, hmailbox⟩ := hserved
  refine ⟨hphase, ?_⟩
  have hstep : t.step c .deliver = dispatch c { t with mailbox := [] }
      (.response ⟨⟨.recover, 0⟩, some (.recovered s.softwire.active none), none⟩) := by
    simp only [step, hmailbox]
  have hhandled : c.handleEvent t.phase t.data
      (.response ⟨⟨.recover, 0⟩, some (.recovered s.softwire.active none), none⟩) =
        c.recovered t.data s.softwire.active := by
    simp [Controller.handleEvent, Controller.response, Controller.onRecover, Response.recovered,
      hdata]
  have hchange := dispatch_of_change (s := { t with mailbox := [] }) hhandled
    (by simp [Controller.recovered, hphase])
    (by cases hb4 : c.dynamicB4 <;> simp [Controller.recovered, hb4, perform])
  rw [hstep, hchange]
  cases hb4 : c.dynamicB4 <;> cases haftr : c.dynamicAftr <;>
    simp [Controller.recovered, hb4, perform, enter, handle, redeliver, Controller.handleEvent,
      Controller.enter, haftr, hpostponed]

end System

/-- The controller dies, the server answers what was left in its queue and then the request of the
one started again, which hears of it. -/
def restart (answers : List Answers) (a : Answers) : List Action :=
  Action.crash :: (answers.map Action.serve ++ [Action.serve a, Action.deliver])

end Minuteman.Control
