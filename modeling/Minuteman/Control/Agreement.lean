import Minuteman.Control.Shadow
import Minuteman.Control.Continuation

/-!
# Controller and server agree on the endpoints

The controller tracks the endpoints it moves between, the server those that
new flows use. They agree in the steady phase as long as no hard switch fails
after a cutover: such a switch falls back to the endpoints of before it.
-/
namespace Minuteman.Control
open Library Datapath Loader Migration Prog

section Requests
variable (sw : Softwire) (m : Maps) (a : Answers)

theorem Softwire.handle_begin (ep : Endpoints) :
    (∃ k, (sw.handle m a (.beginReq ep)).reply = .countsRep k none ∧
        (sw.handle m a (.beginReq ep)).softwire = { sw with target := ep, migrating := true }) ∨
      ∃ k err, (sw.handle m a (.beginReq ep)).reply = .countsRep k (some err) ∧
        (sw.handle m a (.beginReq ep)).softwire = sw := by
  rw [Softwire.handle]
  cases a.statsErr with
  | some err => exact Or.inr ⟨_, err, rfl, rfl⟩
  | none =>
    rcases sw.call_cases m a (.beginMigration ep.b4 ep.aftr) (.countsRep {})
      (.countsRep (Softwire.counts m) none) { sw with target := ep, migrating := true } with
      ⟨e, -, heq⟩ | ⟨-, heq⟩
    · simp only [heq]
      exact Or.inr ⟨_, _, rfl, trivial⟩
    · simp only [heq]
      exact Or.inl ⟨_, rfl, trivial⟩

theorem Softwire.handle_cutover :
    ((sw.handle m a .cutoverReq).reply = .doneRep none ∧
        (sw.handle m a .cutoverReq).softwire = { sw with active := sw.target }) ∨
      ∃ err, (sw.handle m a .cutoverReq).reply = .doneRep (some err) ∧
        (sw.handle m a .cutoverReq).softwire = sw := by
  rw [Softwire.handle]
  rcases sw.call_cases m a .cutover .doneRep (.doneRep none) { sw with active := sw.target } with
    ⟨e, -, heq⟩ | ⟨-, heq⟩
  · rw [heq]
    exact Or.inr ⟨_, rfl, rfl⟩
  · rw [heq]
    exact Or.inl ⟨rfl, rfl⟩

theorem Softwire.handle_switch (ep : Endpoints) :
    ((sw.handle m a (.switchReq ep)).reply = .doneRep none ∧
        (sw.handle m a (.switchReq ep)).softwire = { sw with active := ep, migrating := false }) ∨
      ∃ e err, ((Call.switchAftr ep.b4 ep.aftr).exec a.faults m).1 = .error e ∧
        (sw.handle m a (.switchReq ep)).reply = .doneRep (some err) ∧
        (sw.handle m a (.switchReq ep)).softwire = sw := by
  rw [Softwire.handle]
  rcases sw.call_cases m a (.switchAftr ep.b4 ep.aftr) .doneRep (.doneRep none)
    { sw with active := ep, migrating := false } with ⟨e, hr, heq⟩ | ⟨-, heq⟩
  · rw [heq]
    exact Or.inr ⟨e, _, hr, rfl, rfl⟩
  · rw [heq]
    exact Or.inl ⟨rfl, rfl⟩

end Requests

def Request.moves : Request → Bool
  | .switchReq _ => true
  | .beginReq _ => true
  | .cutoverReq => true
  | _ => false

/-- The other requests leave the endpoints alone. -/
theorem Softwire.handle_unmoved (sw : Softwire) (m : Maps) (a : Answers) {req : Request}
    (h : req.moves = false) : (sw.handle m a req).softwire.active = sw.active ∧
      (sw.handle m a req).softwire.target = sw.target := by
  cases req <;> try contradiction
  all_goals
    simp only [Softwire.handle, Softwire.call]
    repeat' split
    all_goals exact ⟨rfl, rfl⟩

namespace View
variable (v : View)

def current : Endpoints := ⟨v.data.b4, v.data.current.aftr⟩

def next : Endpoints := ⟨v.data.b4, v.data.next.aftr⟩

def Before : Prop := v.cutOver = false ∧ v.softwire.active = v.current

def Staged : Prop := v.Before ∧ v.softwire.target = v.next

def After : Prop := v.cutOver = true ∧ v.softwire.active = v.next

/-- A hard switch is waited for: what is ahead of it in the queue is no other, and only a cutover
moves the endpoints. -/
def Leaving : Prop :=
  (∀ req ∈ v.stale, ∀ ep, req ≠ .switchReq ep) ∧
    (v.cutOver = false → v.softwire.active = v.current)

end View

/-- What the server's endpoints are, by what the controller waits for. -/
def Agrees (v : View) : Prop :=
  match v.phase with
  | .recovering => ∀ req ep, v.pending = .answered req (.recovered ep none) → v.softwire.active = ep
  | .steady => v.Before
  | .discovering => v.Before
  | .priming =>
    match v.pending with
    | .asked (.beginReq _) => v.Before
    | .answered (.beginReq _) (.countsRep _ (some _)) => v.Before
    | .answered .cutoverReq (.doneRep none) => v.After
    | .answered .cutoverReq (.doneRep (some _)) => v.Before
    | .asked .abortReq => v.Before
    | .answered .abortReq _ => v.Before
    | _ => v.Staged
  | .draining => v.After
  | .switching =>
    match v.pending with
    | .answered _ (.doneRep none) =>
      v.softwire.active = ⟨v.data.switchB4, v.data.switchTo.aftr⟩
    | .answered _ _ => v.softwire.active = v.current
    | _ => v.Leaving

/-- A hard switch of the live controller is not refused once a cutover was executed. -/
def System.SwitchLands (s : System) : Action → Prop
  | .serve a => ∀ tag ep rest, s.queue = ⟨s.incarnation, tag, .switchReq ep⟩ :: rest →
      s.cutOver = true → ((Call.switchAftr ep.b4 ep.aftr).exec a.faults s.world.maps).1 = .ok ()
  | _ => True

section Moves
variable {c : Controller} {Q : Addr → Prop} {s : System} {v : View}

/-- A request that moves nothing is served. -/
theorem View.serve_unmoved (v : View) (a : Answers) {req : Request} (h : req.moves = false) :
    (v.serve a req).softwire.active = v.softwire.active ∧
      (v.serve a req).softwire.target = v.softwire.target ∧
      (v.serve a req).cutOver = v.cutOver := by
  obtain ⟨hactive, htarget⟩ := v.softwire.handle_unmoved v.world.maps a h
  refine ⟨hactive, htarget, ?_⟩
  cases req <;> first | contradiction | simp [View.serve]

theorem View.serve_cutOver {a : Answers} {req : Request} (h : req ≠ .cutoverReq) :
    (v.serve a req).cutOver = v.cutOver := by
  simp [View.serve, h]

/-- The pending request of the live controller is served. -/
theorem Agrees.serve (h : Agrees v) {a : Answers} {req : Request} (hfits : Fits v.data v.phase v.pending)
    (hp : v.pending = .asked req)
    (hlands : ∀ ep, req = .switchReq ep → v.cutOver = true →
      ((Call.switchAftr ep.b4 ep.aftr).exec a.faults v.world.maps).1 = .ok ()) :
    Agrees { v.serve a req with
      pending := .answered req (v.softwire.handle v.world.maps a req).reply } := by
  obtain ⟨phase, data, stale, pending, sw, world, cutOver⟩ := v
  obtain rfl : pending = .asked req := hp
  have hasks : phase.asks data req := hfits.of_asked
  cases phase with
  | recovering =>
    obtain rfl : req = .recoverReq := hasks
    intro req ep hreply
    obtain ⟨-, hreply⟩ := Pending.answered.inj hreply
    exact (sw.handle_recover_active world.maps a).trans
      (sw.handle_recover_reply world.maps a hreply).symm
  | steady => exact hasks.elim
  | discovering => exact hasks.elim
  | priming =>
    rcases hasks with rfl | rfl | rfl | rfl
    · obtain ⟨hcut, hactive⟩ : View.Before _ := h
      rcases sw.handle_begin world.maps a ⟨data.b4, data.next.aftr⟩ with
        ⟨k, hrep, hsw⟩ | ⟨k, err, hrep, hsw⟩
      · rw [hrep]
        exact ⟨⟨(View.serve_cutOver (by simp)).trans hcut,
          (congrArg Softwire.active hsw).trans hactive⟩, congrArg Softwire.target hsw⟩
      · rw [hrep]
        exact ⟨(View.serve_cutOver (by simp)).trans hcut,
          (congrArg Softwire.active hsw).trans hactive⟩
    · obtain ⟨⟨hcut, hactive⟩, htarget⟩ : View.Staged _ := h
      have hmoves : Request.countsReq.moves = false := rfl
      obtain ⟨ha, ht, hc⟩ := View.serve_unmoved
        ⟨.priming, data, stale, .asked .countsReq, sw, world, cutOver⟩ a hmoves
      exact ⟨⟨hc.trans hcut, ha.trans hactive⟩, ht.trans htarget⟩
    · obtain ⟨⟨hcut, hactive⟩, htarget⟩ : View.Staged _ := h
      rcases sw.handle_cutover world.maps a with ⟨hrep, hsw⟩ | ⟨err, hrep, hsw⟩
      · rw [hrep]
        exact ⟨by simp [View.serve, hrep, Reply.isDone],
          (congrArg Softwire.active hsw).trans htarget⟩
      · rw [hrep]
        refine ⟨?_, (congrArg Softwire.active hsw).trans hactive⟩
        simp only [View.serve, hrep, Reply.isDone, Bool.and_false, Bool.or_false]
        exact hcut
    · obtain ⟨hcut, hactive⟩ : View.Before _ := h
      have hmoves : Request.abortReq.moves = false := rfl
      obtain ⟨ha, -, hc⟩ := View.serve_unmoved
        ⟨.priming, data, stale, .asked .abortReq, sw, world, cutOver⟩ a hmoves
      exact ⟨hc.trans hcut, ha.trans hactive⟩
  | draining =>
    have hmoves : req.moves = false := by rcases hasks with rfl | rfl <;> rfl
    obtain ⟨ha, -, hc⟩ := View.serve_unmoved
      ⟨.draining, data, stale, .asked req, sw, world, cutOver⟩ a hmoves
    exact ⟨hc.trans h.1, ha.trans h.2⟩
  | switching =>
    obtain rfl : req = _ := hasks
    obtain ⟨-, hactive⟩ : View.Leaving _ := h
    rcases sw.handle_switch world.maps a ⟨data.switchB4, data.switchTo.aftr⟩ with
      ⟨hrep, hsw⟩ | ⟨e, err, hexec, hrep, hsw⟩
    · rw [hrep]
      exact congrArg Softwire.active hsw
    · rw [hrep]
      refine (congrArg Softwire.active hsw).trans (hactive ?_)
      cases hcut : cutOver with
      | false => rfl
      | true => cases hexec.symm.trans (hlands _ rfl hcut)

/-- A live controller that has not cut over is on the endpoints it takes to be in use. -/
theorem Agrees.active_eq (h : Agrees v) (hlive : v.phase.closing = false)
    (hcut : v.cutOver = false) : v.softwire.active = v.current := by
  have hbefore : v.Before ∨ v.Staged ∨ v.After := by
    rw [Agrees] at h
    revert h
    cases hphase : v.phase <;> simp only [hphase, Phase.closing, reduceCtorEq] at hlive ⊢
    · exact Or.inl
    · exact Or.inl
    · split <;> intro h <;> simp only [h, true_or, or_true]
    · exact fun h => Or.inr (Or.inr h)
  rcases hbefore with h | h | h
  · exact h.2
  · exact h.1.2
  · exact absurd (hcut.symm.trans h.1) Bool.false_ne_true

theorem Phase.asks.switching {d : Data} {ph : Phase} {ep : Endpoints}
    (h : ph.asks d (.switchReq ep)) : ph = .switching := by
  cases ph with
  | switching => rfl
  | recovering => cases h
  | priming => rcases h with h | h | h | h <;> cases h
  | draining => rcases h with h | h <;> cases h
  | steady => exact h.elim
  | discovering => exact h.elim

theorem InFlight.asked_of_stale {inc gen : ℕ} {b : Bool} {M : List Response} {q : List Item}
    {req : Request} {rest : List Request} {p : Pending}
    (h : InFlight inc gen Q b M q (req :: rest) p) : b = true ∧ ∃ req', p = .asked req' := by
  generalize hst : req :: rest = st at h
  cases h <;> first | cases hst | exact ⟨rfl, _, rfl⟩

/-- A request sent before a hard switch or a crash is served. -/
theorem Agrees.stale (habs : Abstracts c Q s v) (h : Agrees v) {a : Answers} {req : Request}
    {rest : List Request} (hstale : v.stale = req :: rest) :
    Agrees { v.serve a req with stale := rest } := by
  have hflight := habs.flight
  rw [hstale] at hflight
  obtain ⟨hclosing, req', hp⟩ := hflight.asked_of_stale
  obtain ⟨phase, data, st, pending, sw, world, cutOver⟩ := v
  obtain rfl : pending = .asked req' := hp
  obtain rfl : st = req :: rest := hstale
  cases phase with
  | steady => cases hclosing
  | discovering => cases hclosing
  | priming => cases hclosing
  | draining => cases hclosing
  | recovering =>
    intro req ep hreply
    cases hreply
  | switching =>
    obtain ⟨hst, hactive⟩ : View.Leaving _ := h
    rw [List.forall_mem_cons] at hst
    refine ⟨hst.2, fun hcut => ?_⟩
    obtain ⟨hcut, hserved⟩ := Bool.or_eq_false_iff.mp hcut
    refine Eq.trans ?_ (hactive hcut)
    change (sw.handle world.maps a req).softwire.active = sw.active
    cases req with
    | switchReq ep => exact absurd rfl (hst.1 ep)
    | beginReq ep =>
      rcases sw.handle_begin world.maps a ep with ⟨k, -, hsw⟩ | ⟨k, err, -, hsw⟩
      · rw [hsw]
      · rw [hsw]
    | cutoverReq =>
      rcases sw.handle_cutover world.maps a with ⟨hrep, -⟩ | ⟨err, -, hsw⟩
      · rw [hrep] at hserved
        cases hserved
      · rw [hsw]
    | _ => exact (sw.handle_unmoved world.maps a rfl).1

theorem Agrees.move {act : Action} {v' : View} (habs : Abstracts c Q s v) (h : Agrees v)
    (hok : s.SwitchLands act) (hmove : Move c Q s v act v') : Agrees v' := by
  have hfits := habs.fits
  obtain ⟨phase, data, st, pending, sw, world, cutOver⟩ := v
  cases hmove with
  | packet p => exact h
  | cap => exact h
  | stale a item q rest hhead hstale => exact h.stale habs hstale
  | serve a req rest hstale hp hhead =>
    refine h.serve hfits hp fun ep hreq hcut => ?_
    subst hreq
    rw [← habs.world]
    exact hok _ ep rest hhead (habs.cutOver.trans hcut)
  | refresh hphase =>
    obtain rfl : phase = .steady := hphase
    exact h
  | kept act d hphase hb4 haftr hgen =>
    obtain rfl : phase = .discovering := hphase
    refine ⟨rfl, h.2.trans ?_⟩
    simp only [View.current, View.settle]
    rw [hb4, haftr]
  | migrate disc retryIn hphase hne =>
    obtain rfl : phase = .discovering := hphase
    exact h
  | begun ep k hphase hp =>
    obtain rfl : phase = .priming := hphase
    obtain rfl : pending = _ := hp
    exact h
  | beginFailed ep k err hphase hp =>
    obtain rfl : phase = .priming := hphase
    obtain rfl : pending = _ := hp
    exact ⟨rfl, h.2⟩
  | primed hphase hp =>
    obtain rfl : phase = .priming := hphase
    obtain rfl : pending = _ := hp
    exact h
  | sampled k hphase hp hlost =>
    obtain rfl : phase = .priming := hphase
    obtain rfl : pending = _ := hp
    exact h
  | abandoned rep why hphase hp =>
    obtain rfl : phase = .priming := hphase
    obtain rfl : pending = _ := hp
    exact h.1
  | cutOver hphase hp =>
    obtain rfl : phase = .priming := hphase
    obtain rfl : pending = _ := hp
    exact h
  | cutoverFailed err hphase hp =>
    obtain rfl : phase = .priming := hphase
    obtain rfl : pending = _ := hp
    exact h
  | aborted err next hphase hp =>
    obtain rfl : phase = .priming := hphase
    obtain rfl : pending = _ := hp
    exact ⟨rfl, h.2⟩
  | tick hphase hp =>
    obtain rfl : phase = .draining := hphase
    exact h
  | undrained req rep hphase hp hrep =>
    obtain rfl : phase = .draining := hphase
    exact h
  | drained n hphase hp =>
    obtain rfl : phase = .draining := hphase
    exact h
  | completed hphase hp =>
    obtain rfl : phase = .draining := hphase
    exact ⟨rfl, h.2⟩
  | hardSwitch b4 hphase husable hQ hne =>
    refine ⟨fun req hreq ep hswitch => ?_, h.active_eq hphase⟩
    subst hswitch
    cases pending with
    | asked req =>
      obtain rfl : Request.switchReq ep = req := List.mem_singleton.mp hreq
      rw [hfits.of_asked.switching] at hphase
      cases hphase
    | _ => cases hreq
  | switched ep hphase hp =>
    obtain rfl : phase = .switching := hphase
    obtain rfl : pending = _ := hp
    exact ⟨rfl, h⟩
  | switchFailed ep err hphase hp =>
    obtain rfl : phase = .switching := hphase
    obtain rfl : pending = _ := hp
    exact ⟨rfl, h⟩
  | recovered ep hphase hp =>
    obtain rfl : phase = .recovering := hphase
    refine ⟨rfl, (h _ ep hp).trans ?_⟩
    by_cases haftr : ep.aftr = c.initial.aftr
    · simp only [View.current, View.settle, Controller.recovered, if_pos haftr]
      rw [← haftr]
    · simp [View.current, View.settle, Controller.recovered, haftr]
  | crash act =>
    intro req ep hreply
    cases hreply

end Moves

/-- In every run in which no hard switch is refused after a cutover, a controller that is steady or
discovering has in its data the endpoints that new flows use. Hence the hard switches it starts
keep their AFTR and the migrations it starts leave it. -/
theorem steady_controller_agrees {c : Controller} {cfg : B4ConfigArgs} {s : System}
    (hboots : System.Boots cfg s) (actions : List Action)
    (hlands : s.Along c System.SwitchLands actions)
    (hphase : (s.run c actions).phase = .steady ∨ (s.run c actions).phase = .discovering) :
    (s.run c actions).softwire.active =
      ⟨(s.run c actions).data.b4, (s.run c actions).data.current.aftr⟩ := by
  have hstart : Agrees ⟨.recovering, {}, [], .asked .recoverReq, s.softwire, s.world, false⟩ := by
    intro req ep hreply
    cases hreply
  obtain ⟨v, habs, hagrees⟩ := (hboots.abstracts (c := c) (Q := fun _ => True)).run hstart
    (fun habs h hok hmove => h.move habs hok hmove) (fun act _ => act.reports_true) hlands
  rw [habs.phase] at hphase
  have hlive : v.phase.closing = false := by rcases hphase with h | h <;> rw [h] <;> rfl
  rw [habs.softwire, habs.data]
  refine hagrees.active_eq hlive ?_
  rw [Agrees] at hagrees
  rcases hphase with h | h
  · rw [h] at hagrees
    exact hagrees.1
  · rw [h] at hagrees
    exact hagrees.1

def cutOverActions : List Action :=
  [.serve {}, .deliver, .stateTimeout, .discovered { aftr := docAddr 3 } none 0, .serve {}, .deliver,
    .stateTimeout, .serve {}, .deliver, .serve {}, .deliver]

def sourceActions : List Action :=
  [.b4Poll, .serve { source := docAddr 4, sourceOk := true }, .deliver]

/-- The hard switch that follows is refused at its first map operation. -/
def refusedSwitch : List Action := [.serve { faults := faultAt 0 }, .deliver]

theorem steady_controller_agrees_switched :
    (bootedSystem.run docController
        (cutOverActions ++ sourceActions ++ [.serve {}, .deliver])).softwire.active =
      ⟨docAddr 4, docAddr 3⟩ := by
  have hlands : bootedSystem.Along docController System.SwitchLands
      (cutOverActions ++ sourceActions ++ [.serve {}, .deliver]) := by
    refine ⟨fun _ _ _ _ hcut => absurd hcut (by decide), trivial, trivial, trivial,
      fun _ _ _ _ hcut => absurd hcut (by decide), trivial, trivial,
      fun _ _ _ _ hcut => absurd hcut (by decide), trivial,
      fun _ _ _ _ hcut => absurd hcut (by decide), trivial, trivial, ?_, trivial, ?_, trivial,
      trivial⟩
    · intro tag ep rest hqueue _
      have hreq : some (Request.sourceReq (docAddr 2)) = some (.switchReq ep) :=
        congrArg (fun q : List Item => q.head?.map Item.req) hqueue
      cases hreq
    · intro tag ep rest hqueue _
      have hreq : some (Request.switchReq ⟨docAddr 4, docAddr 3⟩) = some (.switchReq ep) :=
        congrArg (fun q : List Item => q.head?.map Item.req) hqueue
      cases hreq
      rfl
  exact steady_controller_agrees bootedSystem_boots _ hlands (Or.inl rfl)

/-- The refused switch leaves the controller steady on an AFTR that new flows have left, and the
next one moves them back to it. -/
theorem refused_switch_moves_back :
    System.Boots docConfig bootedSystem ∧
    let s := bootedSystem.run docController (cutOverActions ++ sourceActions ++ refusedSwitch)
    let s' := s.run docController (sourceActions ++ [.serve {}, .deliver])
    s.phase = .steady ∧ s.data.b4 = docAddr 1 ∧ s.data.current.aftr = docAddr 2 ∧
      s.softwire.active = ⟨docAddr 1, docAddr 3⟩ ∧
      s'.phase = .steady ∧ s'.softwire.active = ⟨docAddr 4, docAddr 2⟩ := by
  exact ⟨bootedSystem_boots, rfl, rfl, rfl, rfl, rfl, rfl⟩

end Minuteman.Control
