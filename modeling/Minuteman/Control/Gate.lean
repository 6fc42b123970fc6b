import Minuteman.Control.Recording

/-!
# The gate before a cutover

The controller compares the counters of a migration's begin with those at the
end of its priming, and only then asks for the cutover. A packet between the
two requests can still lose its recording, so the comparison is good at the
cutover only while the table has room for what arrives in between.
-/
namespace Minuteman.Control
open Library Datapath Loader Migration Prog

def Lossless (w : Monitored) : Prop :=
  w.maps.stats .affinityInsertFail = w.history.lostAtBegin

/-- The counters were read for a cutover that is not executed yet. -/
def System.Sampled (s : System) : Prop :=
  (∃ r ∈ s.mailbox, r.tag = ⟨.counts, s.data.gen⟩) ∨ ∃ i ∈ s.queue, i.req = .cutoverReq

def FindsRoom (m : Maps) (p : Packet) : Prop :=
  ∀ key, p.flowKey m = some key →
    key ∈ m.flowAffinity.dom ∨ m.flowAffinity.dom.card < maxFlowAffinity

/-- A priming packet between the sample and the cutover finds room. -/
def System.RoomWhileSampled (s : System) : Action → Prop
  | .packet p => s.Sampled → s.world.maps.ctrl.state = migPriming → FindsRoom s.world.maps p
  | _ => True

section World
variable {w : Monitored}

/-- A packet that finds room is not lost. -/
theorem FindsRoom.step {p : Packet}
    (h : w.maps.ctrl.state = migPriming → FindsRoom w.maps p) :
    (w.step (.packet p)).maps.stats .affinityInsertFail = w.maps.stats .affinityInsertFail := by
  have hflow := p.flowStep w.maps
  rw [w.step_packet_maps p]
  generalize p.after w.maps = m' at hflow ⊢
  change m'.flowView.lost = w.maps.flowView.lost
  rcases hflow with ⟨-, hsame⟩ | ⟨-, key, fa, hkey, ht⟩
  · rw [hsame]
  · by_cases hpriming : w.maps.ctrl.state = migPriming
    · rcases ht.priming hpriming with ⟨-, hsame⟩ | ⟨-, hnew, hfull⟩
      · exact hsame
      · rcases h hpriming key hkey with hmem | hroom
        · exact absurd hmem hnew
        · exact absurd hfull hroom.ne
    · exact (ht.not_priming hpriming).1

theorem lostAtBegin_packet (w : Monitored) (p : Packet) :
    (w.step (.packet p)).history.lostAtBegin = w.history.lostAtBegin := by
  simp only [Monitored.step, History.next]
  cases p.flowKey w.maps <;> rfl

theorem lostAtBegin_called (h : History) (v : FlowView) (c : Call)
    (r : Except LoaderError Unit) :
    (h.called v c r).lostAtBegin = h.lostAtBegin ∨ (h.called v c r).lostAtBegin = v.lost := by
  cases c with
  | beginMigration b4 aftr =>
    cases r with
    | error e => exact Or.inl rfl
    | ok u => exact Or.inr rfl
  | _ => cases r <;> exact Or.inl rfl

/-- A request loses no recording, and a migration it begins has lost none. -/
theorem Lossless.serve (hslots : SlotInvariant w.maps) (h : Lossless w) (sw : Softwire) (a : Answers)
    (req : Request) : Lossless (worldAfter w (sw.handle w.maps a req).event) := by
  cases hevent : (sw.handle w.maps a req).event with
  | none => exact h
  | some e =>
    obtain ⟨hset, hpacket⟩ := sw.handle_event _ _ _ hevent
    have hchange := e.change (h := w.history) hslots hset
    change (e.exec w.maps).flowView.lost = (w.history.next w.maps e).lostAtBegin
    generalize e.exec w.maps = m', w.history.next w.maps e = h' at hchange ⊢
    cases hchange with
    | unseen p hsame => exact absurd rfl (hpacket p)
    | steady p key hstate hsame => exact absurd rfl (hpacket p)
    | touched p key fa hstate ht => exact absurd rfl (hpacket p)
    | called c faults r hslots' hout hflows hstats =>
      rw [show m'.flowView.lost = w.maps.flowView.lost from congrFun hstats _]
      rcases lostAtBegin_called w.history w.maps.flowView c r with hbegin | hbegin
      · rw [hbegin]
        exact h
      · rw [hbegin]
    | uncollected t now faults hsame =>
      rw [hsame]
      exact h
    | collected t now faults hg => exact (congrFun hg.stats _).trans h

end World

/-- What the controller's counters say while it primes. -/
def Gauged (w : Monitored) (d : Data) : Phase → Pending → Prop
  | .priming, .idle => d.baseline.affinityInsertFail = w.history.lostAtBegin
  | .priming, .asked .countsReq => d.baseline.affinityInsertFail = w.history.lostAtBegin
  | .priming, .answered (.beginReq _) (.countsRep k none) =>
    k.affinityInsertFail = w.history.lostAtBegin
  | .priming, .answered .countsReq (.countsRep k none) =>
    d.baseline.affinityInsertFail = w.history.lostAtBegin ∧
      k.affinityInsertFail = w.maps.stats .affinityInsertFail
  | _, _ => True

/-- A cutover is on its way only when no recording was lost. -/
def Gated (v : View) : Prop :=
  (.cutoverReq ∈ v.stale ++ v.pending.request → Lossless v.world) ∧
    Gauged v.world v.data v.phase v.pending

/-- A packet that leaves the loss counter alone if it was read. -/
theorem Gauged.packet {w : Monitored} {d : Data} {phase : Phase} {pending : Pending}
    (h : Gauged w d phase pending) (p : Packet)
    (hlost : (∃ rep, pending = .answered .countsReq rep) → phase = .priming →
      (w.step (.packet p)).maps.stats .affinityInsertFail = w.maps.stats .affinityInsertFail) :
    Gauged (w.step (.packet p)) d phase pending := by
  have hbegin := lostAtBegin_packet w p
  unfold Gauged at h ⊢
  split <;> simp_all

/-- A begin and a count are answered with the loss counter. -/
theorem Gauged.serve {w : Monitored} {d : Data} {phase : Phase} {req : Request}
    (h : Gauged w d phase (.asked req)) (hasks : phase.asks d req) (sw : Softwire) (a : Answers) :
    Gauged (worldAfter w (sw.handle w.maps a req).event) d phase
      (.answered req (sw.handle w.maps a req).reply) := by
  cases phase with
  | priming =>
    rcases hasks with rfl | rfl | rfl | rfl
    · rw [Softwire.handle]
      cases a.statsErr with
      | some err => trivial
      | none =>
        rcases sw.call_cases w.maps a (.beginMigration d.b4 d.next.aftr) (.countsRep {})
          (.countsRep (Softwire.counts w.maps) none)
          { sw with target := ⟨d.b4, d.next.aftr⟩, migrating := true } with ⟨e, -, heq⟩ | ⟨hr, heq⟩
        · simp only [heq]
          trivial
        · simp only [heq]
          exact (congrArg History.lostAtBegin (Monitored.step_call_history hr)).symm
    · rw [Softwire.handle]
      cases a.statsErr with
      | some err => trivial
      | none => exact ⟨h, rfl⟩
    · trivial
    · trivial
  | _ => trivial

namespace Gated
variable {c : Controller} {Q : Addr → Prop} {s : System} {v v' : View}

/-- The system has sampled the counters when its view says so. -/
theorem sampled_of_answered (habs : Abstracts c Q s v) (hphase : v.phase = .priming) {rep : Reply}
    (hp : v.pending = .answered .countsReq rep) : s.Sampled := by
  have hflight := habs.flight
  rw [hphase, hp, ← habs.data] at hflight
  generalize hmail : s.mailbox = mail, s.queue = q, v.stale = st at hflight
  cases hflight with
  | quiet hquiet => rcases hquiet with hquiet | hquiet <;> cases hquiet
  | answered hM₁ hM₂ hq => exact Or.inl ⟨_, hmail ▸ List.mem_append_right _ List.mem_cons_self, rfl⟩

theorem sampled_of_asked (habs : Abstracts c Q s v)
    (h : .cutoverReq ∈ v.stale ++ v.pending.request) : s.Sampled := by
  rw [← habs.flight.work_eq habs.fits.not_source, work, List.mem_filter, List.mem_map] at h
  exact Or.inr h.1

theorem packet (habs : Abstracts c Q s v) (h : Gated v) {p : Packet}
    (hok : s.RoomWhileSampled (.packet p)) :
    Gated { v with world := v.world.step (.packet p) } := by
  have hlost : s.Sampled → (v.world.step (.packet p)).maps.stats .affinityInsertFail =
      v.world.maps.stats .affinityInsertFail := by
    intro hsampled
    apply FindsRoom.step
    rw [← habs.world]
    exact hok hsampled
  refine ⟨fun hmem => ?_, h.2.packet p ?_⟩
  · have hsame := hlost (sampled_of_asked habs hmem)
    exact (hsame.trans (h.1 hmem)).trans (lostAtBegin_packet v.world p).symm
  · rintro ⟨rep, hp⟩ hphase
    exact hlost (sampled_of_answered habs hphase hp)

theorem serve (habs : Abstracts c Q s v) (h : Gated v) (a : Answers) {req : Request}
    (hstale : v.stale = []) (hp : v.pending = .asked req) :
    Gated { v.serve a req with
      pending := .answered req (v.softwire.handle v.world.maps a req).reply } := by
  have hgauged := h.2
  have hfits := habs.fits
  rw [hp] at hgauged hfits
  refine ⟨fun hmem => ?_, hgauged.serve hfits.of_asked v.softwire a⟩
  rw [show View.stale { v.serve a req with pending := _ } = [] from hstale] at hmem
  cases hmem

theorem stale (habs : Abstracts c Q s v) (hslots : SlotInvariant v.world.maps) (h : Gated v)
    (a : Answers) {req : Request} {rest : List Request} (hstale : v.stale = req :: rest) :
    Gated { v.serve a req with stale := rest } := by
  refine ⟨fun hmem => ?_, ?_⟩
  · apply Lossless.serve hslots
    apply h.1
    rw [hstale]
    exact List.mem_cons_of_mem req hmem
  · have hclosing : v.phase.closing ≠ false := by
      intro hlive
      cases hstale.symm.trans (habs.flight.stale_eq_nil (Or.inl hlive))
    obtain ⟨phase, data, st, pending, sw, world, cut⟩ := v
    cases phase with
    | recovering => trivial
    | switching => trivial
    | _ => exact absurd rfl hclosing

/-- The controller goes on with something that is no cutover. -/
theorem calm (h : Gated v) {phase : Phase} {d : Data} {pending : Pending} {cut : Bool}
    (hp : .cutoverReq ∉ pending.request) (hgauged : Gauged v.world d phase pending) :
    Gated ⟨phase, d, v.stale, pending, v.softwire, v.world, cut⟩ := by
  refine ⟨fun hmem => h.1 ?_, hgauged⟩
  rcases List.mem_append.mp hmem with hmem | hmem
  · exact List.mem_append_left _ hmem
  · exact absurd hmem hp

theorem move {act : Action} (habs : Abstracts c Q s v)
    (hinv : Invariant v.world.maps.flowView v.world.history) (h : Gated v)
    (hok : s.RoomWhileSampled act) (hmove : Move c Q s v act v') : Gated v' := by
  obtain ⟨phase, data, st, pending, sw, world, cut⟩ := v
  cases hmove with
  | packet p => exact h.packet habs hok
  | cap => exact ⟨h.1, h.2⟩
  | stale a item q rest hhead hstale => exact h.stale habs hinv.slots a hstale
  | serve a req rest hstale hp hhead => exact h.serve habs a hstale hp
  | migrate disc retryIn hphase hne => exact h.calm (by simp [View.ask, Pending.request]) trivial
  | begun ep k hphase hp =>
    obtain rfl : phase = .priming := hphase
    obtain rfl : pending = _ := hp
    exact h.calm (by simp [Pending.request]) h.2
  | primed hphase hp =>
    obtain rfl : phase = .priming := hphase
    obtain rfl : pending = _ := hp
    exact h.calm (by simp [Pending.request]) h.2
  | sampled k hphase hp hlost =>
    obtain rfl : phase = .priming := hphase
    obtain rfl : pending = _ := hp
    obtain ⟨hbaseline, hk⟩ := h.2
    refine ⟨fun _ => le_antisymm ?_ hinv.lost_le, trivial⟩
    have hle := Nat.sub_eq_zero_iff_le.mp hlost
    rw [hk, hbaseline] at hle
    exact hle
  | abandoned rep why hphase hp =>
    obtain rfl : phase = .priming := hphase
    exact h.calm (by simp [Pending.request]) trivial
  | cutoverFailed err hphase hp =>
    obtain rfl : phase = .priming := hphase
    exact h.calm (by simp [Pending.request]) trivial
  | tick hphase hp =>
    obtain rfl : phase = .draining := hphase
    exact h.calm (by simp [Pending.request]) trivial
  | undrained req rep hphase hp hrep =>
    obtain rfl : phase = .draining := hphase
    exact h.calm (by simp [Pending.request]) trivial
  | drained n hphase hp =>
    obtain rfl : phase = .draining := hphase
    exact h.calm (by simp [Pending.request]) trivial
  | hardSwitch b4 hphase husable hQ hne =>
    refine ⟨fun hmem => h.1 (List.mem_append_right st ?_), trivial⟩
    simpa [Pending.request] using hmem
  | crash act =>
    refine ⟨fun hmem => h.1 ?_, trivial⟩
    simpa [Pending.request] using hmem
  | _ => exact h.calm (by simp [Pending.request]) trivial

end Gated

/-- In every run in which the packets between a sample and its cutover find room in the table, no
recording has been lost in the migration that a cutover is executed for. -/
theorem cutover_executed_lossless {c : Controller} {cfg : B4ConfigArgs} {s : System}
    (hboots : System.Boots cfg s) (actions : List Action)
    (hroom : s.Along c System.RoomWhileSampled actions) {item : Item} {rest : List Item}
    (hqueue : (s.run c actions).queue = item :: rest) (hreq : item.req = .cutoverReq) :
    (s.run c actions).world.maps.stats .affinityInsertFail =
      (s.run c actions).world.history.lostAtBegin := by
  obtain ⟨v, habs, -, hgated⟩ := (hboots.abstracts (c := c) (Q := fun _ => True)).run
    (I := fun v => Invariant v.world.maps.flowView v.world.history ∧ Gated v)
    ⟨hboots.invariant, by simp [Pending.request], trivial⟩
    (fun habs h hok hmove => ⟨hmove.invariant h.1, h.2.move habs h.1 hok hmove⟩)
    (fun act _ => act.reports_true) hroom
  rw [habs.world]
  apply hgated.1
  rw [← habs.flight.work_eq habs.fits.not_source, hqueue, work_cons rest (by rw [hreq]; rfl), hreq]
  exact List.mem_cons_self

/-- A packet comes between the sample and the cutover, and finds the table empty. -/
theorem cutover_executed_lossless_packet :
    let s := bootedSystem.run docController
      (cutOverActions.take 8 ++ [.packet transitPacket, .deliver])
    s.world.maps.stats .affinityInsertFail = s.world.history.lostAtBegin := by
  have hroom : bootedSystem.Along docController System.RoomWhileSampled
      (cutOverActions.take 8 ++ [.packet transitPacket, .deliver]) := by
    refine ⟨trivial, trivial, trivial, trivial, trivial, trivial, trivial, trivial, ?_, trivial,
      trivial⟩
    intro _ _ _ _
    exact Or.inr (by decide)
  exact cutover_executed_lossless bootedSystem_boots _ hroom rfl rfl

/-- The answer to the sample arrives: the controller asks for the cutover. -/
theorem System.step_sampled {c : Controller} {s : System} {k : Counts} (hphase : s.phase = .priming)
    (hmail : s.mailbox = [⟨⟨.counts, s.data.gen⟩, some (.countsRep k none), none⟩])
    (hlost : k.affinityInsertFail - s.data.baseline.affinityInsertFail = 0) :
    (s.step c .deliver).queue =
        s.queue ++ [⟨s.incarnation, ⟨.cutover, s.data.gen⟩, .cutoverReq⟩] ∧
      (s.step c .deliver).softwire = s.softwire ∧ (s.step c .deliver).world = s.world := by
  obtain ⟨inc, phase, data, stateTimer, b4PollTimer, drainCapTimer, async, postponed, mailbox, queue,
    sw, world, cut⟩ := s
  obtain rfl : phase = .priming := hphase
  obtain rfl : mailbox = [⟨⟨.counts, data.gen⟩, some (.countsRep k none), none⟩] := hmail
  have hnot : ¬ k.affinityInsertFail - data.baseline.affinityInsertFail > 0 := by
    rw [hlost]
    exact lt_irrefl 0
  simp [System.step, System.dispatch, System.handle, Controller.handleEvent, Controller.response,
    onCounts, Response.counts, hnot, System.perform, Control.softwire]

/-- The sample, one packet and the answer to the sample. -/
def sampledActions : List Action := [.stateTimeout, .serve {}, .packet transitPacket, .deliver]

theorem sampledActions_run {w : Monitored} (hnone : w.maps.stats .affinityInsertFail = 0) :
    let s := System.run docController (primingSystem.withWorld w) sampledActions
    s.queue.map Item.req = [.cutoverReq] ∧ s.softwire = primingSystem.softwire ∧
      s.world = w.step (.packet transitPacket) := by
  let s := System.step docController (System.step docController
    ((primingSystem.step docController .stateTimeout).withWorld w) (.serve {})) (.packet transitPacket)
  have hrun : System.run docController (primingSystem.withWorld w) sampledActions =
      s.step docController .deliver := by
    rw [sampledActions, System.run_cons, System.step_withWorld docController primingSystem w _ rfl]
    rfl
  have hlost : (Softwire.counts w.maps).affinityInsertFail -
      s.data.baseline.affinityInsertFail = 0 := by
    rw [show (Softwire.counts w.maps).affinityInsertFail = 0 from hnone]
    exact Nat.zero_sub _
  obtain ⟨hqueue, hsoftwire, hworld⟩ := System.step_sampled (c := docController) (s := s) rfl rfl hlost
  rw [hrun]
  refine ⟨?_, hsoftwire, hworld⟩
  rw [hqueue]
  rfl

/-- The table is full when the counters are read: the next flow is lost, and the cutover goes
through. -/
theorem sampled_cutover_loses_recording :
    System.Boots docConfig bootedSystem ∧
    let s := bootedSystem.run docController
      (cutOverActions.take 6 ++ fillingActions ++ sampledActions)
    s.queue.map Item.req = [.cutoverReq] ∧
      (s.softwire.handle s.world.maps {} .cutoverReq).reply = .doneRep none ∧
      s.world.maps.stats .affinityInsertFail = s.world.history.lostAtBegin + 1 := by
  obtain ⟨w, hrun, hfilled, hfull, hnew⟩ := fillingActions_run
  have hinv := bootedSystem_boots.run_invariant docController
    (cutOverActions.take 6 ++ fillingActions ++ sampledActions)
  have hnone : w.maps.flowView.lost = 0 := hfilled.lost
  obtain ⟨hqueue, -, hworld⟩ := sampledActions_run hnone
  obtain ⟨hlost, hhistory⟩ := filled_transit hfilled hfull hnew
  have hrise := congrArg FlowView.lost hlost
  have hloader := congrArg FlowView.loader hlost
  rw [System.run_append, hrun] at hinv ⊢
  generalize System.run docController (primingSystem.withWorld w) sampledActions = s at *
  generalize w.step (.packet transitPacket) = w' at *
  subst hworld
  have hpriming : s.world.maps.ctrl.state = migPriming :=
    congrArg (fun l : LoaderMaps => (unpackMigrationCtrl l.migrationCtrl).state)
      (hloader.trans hfilled.loader)
  have hok := Call.exec_noFaults_of_accepts hinv.slots (c := .cutover) hpriming
  refine ⟨bootedSystem_boots, hqueue, by simp only [Softwire.handle, Softwire.call, hok], ?_⟩
  have hbegin : s.world.history.lostAtBegin = 0 := by
    rw [hhistory]
    exact hfilled.lostAtBegin
  rw [hbegin]
  exact hrise.trans (congrArg Nat.succ hnone)

end Minuteman.Control
