import Minuteman.Control.StateChecks
import Minuteman.Migration.Occupancy

/-!
# What priming recorded when the controller cuts over

The controller reads the loss counter with one request and cuts over with a
later one. The two agree as long as no recording is lost between them, and a
recording is lost for want of room only.
-/
namespace Minuteman.Control
open Library Datapath Loader Migration Prog

section World
variable {c : Controller} {Q : Addr → Prop} {s : System} {v v' : View} {act : Action}

theorem Softwire.call_event (sw : Softwire) (m : Maps) (a : Answers) (c : Call)
    (failed : Option String → Reply) (succeeded : Reply) (sw' : Softwire) :
    (sw.call m a c failed succeeded sw').event = some (.call c a.faults) := by
  rw [Softwire.call]
  split <;> rfl

/-- What a request does is no packet, and reconfigures nothing. -/
theorem Softwire.handle_event (sw : Softwire) (m : Maps) (a : Answers) (req : Request) {e : Event}
    (h : (sw.handle m a req).event = some e) :
    e.reconfigures = false ∧ ∀ p, e ≠ .packet p := by
  have hcall : ∀ (c : Call), c.isSetB4Config = false → some (Event.call c a.faults) = some e →
      e.reconfigures = false ∧ ∀ p, e ≠ .packet p := by
    intro c hc heq
    cases heq
    refine ⟨hc, fun p hp => ?_⟩
    cases hp
  cases req with
  | recoverReq =>
    simp only [Softwire.handle] at h
    split_ifs at h
    rw [Softwire.call_event] at h
    exact hcall _ rfl h
  | sourceReq f =>
    simp only [Softwire.handle] at h
    split_ifs at h
  | beginReq target =>
    simp only [Softwire.handle] at h
    cases hstats : a.statsErr with
    | some err => simp [hstats] at h
    | none =>
      simp only [hstats, Softwire.call_event] at h
      exact hcall _ rfl h
  | countsReq =>
    simp only [Softwire.handle] at h
    cases hstats : a.statsErr <;> simp [hstats] at h
  | gcReq =>
    have hgc : (sw.handle m a .gcReq).event = some (.gc flowIdle a.now a.faults) := by
      simp only [Softwire.handle]
      cases ((gcFlowAffinity flowIdle a.now).exec MapOp.effect a.faults m).1 <;> rfl
    cases hgc.symm.trans h
    refine ⟨rfl, fun p hp => ?_⟩
    cases hp
  | _ =>
    simp only [Softwire.handle, Softwire.call_event] at h
    exact hcall _ rfl h

/-- What an action does to the datapath: nothing, a packet, or the call of the request that is
served. -/
theorem Move.world (h : Move c Q s v act v') :
    v'.world = v.world ∨ (∃ p, act = .packet p ∧ v'.world = v.world.step (.packet p)) ∨
      ∃ a item q e, act = .serve a ∧ s.queue = item :: q ∧
        (v.softwire.handle v.world.maps a item.req).event = some e ∧ v'.world = v.world.step e := by
  have hserve : ∀ {a : Answers} {item : Item} {q : List Item}, s.queue = item :: q →
      (v.serve a item.req).world = v.world ∨
        ∃ e, (v.softwire.handle v.world.maps a item.req).event = some e ∧
          (v.serve a item.req).world = v.world.step e := by
    intro a item q hhead
    cases hevent : (v.softwire.handle v.world.maps a item.req).event with
    | none => exact Or.inl (by simp [View.serve, hevent, worldAfter])
    | some e => exact Or.inr ⟨e, rfl, by simp [View.serve, hevent, worldAfter]⟩
  cases h with
  | packet p => exact Or.inr (Or.inl ⟨p, rfl, rfl⟩)
  | stale a item q rest hhead hstale =>
    rcases hserve (a := a) hhead with hsame | ⟨e, hevent, hstep⟩
    · exact Or.inl hsame
    · exact Or.inr (Or.inr ⟨a, item, q, e, rfl, hhead, hevent, hstep⟩)
  | serve a req rest hstale hp hhead =>
    rcases hserve (a := a) hhead with hsame | ⟨e, hevent, hstep⟩
    · exact Or.inl hsame
    · exact Or.inr (Or.inr ⟨a, _, rest, e, rfl, hhead, hevent, hstep⟩)
  | _ => exact Or.inl rfl

/-- The history invariant of the datapath holds along every run. -/
theorem Move.invariant (hinv : Invariant v.world.maps.flowView v.world.history)
    (h : Move c Q s v act v') : Invariant v'.world.maps.flowView v'.world.history := by
  rcases h.world with hsame | ⟨p, -, hstep⟩ | ⟨a, item, q, e, -, -, hevent, hstep⟩
  · rw [hsame]
    exact hinv
  · rw [hstep]
    exact hinv.step rfl
  · rw [hstep]
    exact hinv.step (Softwire.handle_event _ _ _ _ hevent).1

theorem System.Boots.started {cfg : B4ConfigArgs} (h : System.Boots cfg s) :
    Started s.world.maps ∧ s.world.history = {} := by
  cases h with
  | mk hasRouter hun hempty hexec => exact ⟨⟨_, _, _, hun, hempty, hexec⟩, rfl⟩

theorem System.Boots.invariant {cfg : B4ConfigArgs} (h : System.Boots cfg s) :
    Invariant s.world.maps.flowView s.world.history := by
  rw [h.started.2]
  exact h.started.1.invariant

end World

def System.BeginsEmpty (s : System) : Action → Prop
  | .serve _ => ∀ item rest ep, s.queue = item :: rest → item.req = .beginReq ep →
      s.world.maps.flowAffinity.dom = ∅
  | _ => True

/-- A request makes the call of its kind. -/
theorem Softwire.handle_beginMigration {sw : Softwire} {m : Maps} {a : Answers} {req : Request}
    {b4 aftr : Addr} {faults : Faults}
    (h : (sw.handle m a req).event = some (.call (.beginMigration b4 aftr) faults)) :
    ∃ ep, req = .beginReq ep := by
  cases req with
  | beginReq ep => exact ⟨ep, rfl⟩
  | _ =>
    simp only [Softwire.handle, Softwire.call] at h
    (repeat' split at h) <;> cases h

theorem System.Boots.run_invariant {s : System} {cfg : B4ConfigArgs} (h : System.Boots cfg s)
    (c : Controller) (actions : List Action) :
    Invariant (s.run c actions).world.maps.flowView (s.run c actions).world.history := by
  have halong : s.Along c (fun _ _ => True) actions :=
    System.along_of_forall c s fun _ _ => trivial
  obtain ⟨v, habs, hinv⟩ := (h.abstracts (c := c) (Q := fun _ => True)).run
    (I := fun v => Invariant v.world.maps.flowView v.world.history) h.invariant
    (fun _ hinv _ hmove => hmove.invariant hinv) (fun act _ => act.reports_true) halong
  rw [habs.world]
  exact hinv

theorem Confined.move {c : Controller} {Q : Addr → Prop} {s : System} {v v' : View} {act : Action}
    (habs : Abstracts c Q s v) (hinv : Invariant v.world.maps.flowView v.world.history)
    (hconf : Confined v.world.maps.flowView v.world.history) (hok : s.BeginsEmpty act)
    (hmove : Move c Q s v act v') : Confined v'.world.maps.flowView v'.world.history := by
  rcases hmove.world with hsame | ⟨p, -, hstep⟩ | ⟨a, item, q, e, rfl, hhead, hevent, hstep⟩
  · rw [hsame]
    exact hconf
  · rw [hstep]
    exact hconf.step hinv.slots rfl trivial
  · rw [hstep]
    refine hconf.step hinv.slots (Softwire.handle_event _ _ _ _ hevent).1 ?_
    rw [← habs.world]
    cases e with
    | call call faults =>
      cases call with
      | beginMigration b4 aftr =>
        obtain ⟨ep, hreq⟩ := Softwire.handle_beginMigration hevent
        exact fun _ => hok item q ep hhead hreq
      | _ => trivial
    | _ => trivial

/-- In every run in which each migration begins with an empty flow table, a packet whose recording
fails is the packet of a priming that has seen more flows than the table has room for. -/
theorem lost_recording_overflows {c : Controller} {cfg : B4ConfigArgs} {s : System}
    (hboots : System.Boots cfg s) (actions : List Action)
    (hempty : s.Along c System.BeginsEmpty actions) (p : Packet)
    (hlost : (s.run c actions).world.maps.stats .affinityInsertFail <
      (System.step c (s.run c actions) (.packet p)).world.maps.stats .affinityInsertFail) :
    let history := (System.step c (s.run c actions) (.packet p)).world.history
    maxFlowAffinity < (history.seen history.migration).card := by
  intro history
  have hstart : Confined s.world.maps.flowView s.world.history := by
    rw [hboots.started.2]
    exact hboots.started.1.confined
  obtain ⟨v, habs, hinv, hconf⟩ := (hboots.abstracts (c := c) (Q := fun _ => True)).run
    (I := fun v => Invariant v.world.maps.flowView v.world.history ∧
      Confined v.world.maps.flowView v.world.history) ⟨hboots.invariant, hstart⟩
    (fun habs h hok hmove => ⟨hmove.invariant h.1, Confined.move habs h.1 h.2 hok hmove⟩)
    (fun act _ => act.reports_true) hempty
  rw [← habs.world] at hinv hconf
  exact hconf.overflow hinv.slots hlost

theorem System.run_append (c : Controller) (s : System) (before after : List Action) :
    s.run c (before ++ after) = (s.run c before).run c after :=
  List.foldl_append

theorem System.run_cons (c : Controller) (s : System) (act : Action) (rest : List Action) :
    s.run c (act :: rest) = (s.step c act).run c rest := rfl

def System.withWorld (s : System) (w : Monitored) : System := { s with world := w }

@[simp] theorem System.withWorld_world (s : System) (w : Monitored) :
    (s.withWorld w).world = w := rfl

def Action.isController : Action → Bool
  | .packet _ => false
  | .serve _ => false
  | _ => true

theorem Softwire.handle_switch_ok (sw : Softwire) {m : Maps} (ep : Endpoints)
    (hok : ((Call.switchAftr ep.b4 ep.aftr).exec noFaults m).1 = .ok ()) :
    sw.handle m {} (.switchReq ep) = ⟨.doneRep none, { sw with active := ep, migrating := false },
      some (.call (.switchAftr ep.b4 ep.aftr) noFaults)⟩ := by
  simp only [Softwire.handle, Softwire.call, hok]

section Frame
variable (c : Controller) (s : System) (w : Monitored)

theorem System.perform_withWorld (ev : StatemEvent) (e : Effect) :
    System.perform ev (s.withWorld w) e = (System.perform ev s e).withWorld w := by
  cases e with
  | startTimeout d msg => cases msg <;> rfl
  | cancelTimeout timer => cases timer <;> rfl
  | postpone => cases ev <;> rfl
  | _ => rfl

theorem System.foldl_perform_withWorld (ev : StatemEvent) (effects : List Effect) :
    effects.foldl (System.perform ev) (s.withWorld w) =
      (effects.foldl (System.perform ev) s).withWorld w := by
  induction effects generalizing s with
  | nil => rfl
  | cons e rest ih => rw [List.foldl_cons, List.foldl_cons, System.perform_withWorld, ih]

theorem System.handle_withWorld (ev : StatemEvent) :
    System.handle c (s.withWorld w) ev = (System.handle c s ev).withWorld w := by
  rw [System.handle, System.handle, ← System.foldl_perform_withWorld]
  rfl

theorem System.redeliver_withWorld :
    System.redeliver c (s.withWorld w) = (System.redeliver c s).withWorld w := by
  have hfold : ∀ (msgs : List TimeoutMsg) (s : System),
      msgs.foldl (fun s msg => System.handle c s (.timeout msg)) (s.withWorld w) =
        (msgs.foldl (fun s msg => System.handle c s (.timeout msg)) s).withWorld w := by
    intro msgs
    induction msgs with
    | nil => exact fun _ => rfl
    | cons msg rest ih =>
      intro s
      rw [List.foldl_cons, List.foldl_cons, System.handle_withWorld, ih]
  rw [System.redeliver, System.redeliver, ← hfold]
  rfl

theorem System.dispatch_withWorld (ev : StatemEvent) :
    System.dispatch c (s.withWorld w) ev = (System.dispatch c s ev).withWorld w := by
  have henter : ∀ s : System, System.enter c (s.withWorld w) = (System.enter c s).withWorld w := by
    intro s
    simp only [System.enter, System.handle_withWorld, System.redeliver_withWorld]
    rfl
  simp only [System.dispatch, System.handle_withWorld, henter]
  change (if (System.handle c s ev).phase = s.phase then _ else _) = _
  split <;> rfl

/-- The controller does not touch the datapath. -/
theorem System.step_withWorld (act : Action) (hact : act.isController = true) :
    System.step c (s.withWorld w) act = (System.step c s act).withWorld w := by
  cases act with
  | packet p => cases hact
  | serve a => cases hact
  | deliver =>
    simp only [System.step, show (s.withWorld w).mailbox = s.mailbox from rfl]
    cases s.mailbox with
    | nil => rfl
    | cons r rest => exact System.dispatch_withWorld c { s with mailbox := rest } w (.response r)
  | stateTimeout =>
    simp only [System.step, show (s.withWorld w).stateTimer = s.stateTimer from rfl]
    cases s.stateTimer with
    | none => rfl
    | some msg => exact System.dispatch_withWorld c { s with stateTimer := none } w (.stateTimeout msg)
  | b4Poll =>
    simp only [System.step, show (s.withWorld w).b4PollTimer = s.b4PollTimer from rfl]
    cases s.b4PollTimer with
    | false => rfl
    | true => exact System.dispatch_withWorld c { s with b4PollTimer := false } w (.timeout .b4Poll)
  | drainCap =>
    simp only [System.step, show (s.withWorld w).drainCapTimer = s.drainCapTimer from rfl]
    cases s.drainCapTimer with
    | none => rfl
    | some n =>
      exact System.dispatch_withWorld c { s with drainCapTimer := none } w (.timeout (.drainCap n))
  | discovered disc err retryIn =>
    simp only [System.step, show (s.withWorld w).async = s.async from rfl]
    cases s.async with
    | none => rfl
    | some token => exact System.dispatch_withWorld c { s with async := none } w _
  | discoverFailed err =>
    simp only [System.step, show (s.withWorld w).async = s.async from rfl]
    cases s.async with
    | none => rfl
    | some token => exact System.dispatch_withWorld c { s with async := none } w _
  | crash => rfl

theorem System.run_withWorld {actions : List Action}
    (hactions : ∀ act ∈ actions, act.isController = true) :
    System.run c (s.withWorld w) actions = (System.run c s actions).withWorld w := by
  induction actions generalizing s with
  | nil => rfl
  | cons act rest ih =>
    rw [List.forall_mem_cons] at hactions
    rw [System.run_cons, System.run_cons, System.step_withWorld c s w act hactions.1, ih _ hactions.2]

variable {s w} {a : Answers} {item : Item} {rest : List Item}

theorem System.serve_world (hqueue : s.queue = item :: rest) :
    (s.serve a).world = worldAfter s.world (s.softwire.handle s.world.maps a item.req).event := by
  rw [System.serve, hqueue]

/-- A request that another datapath answers alike. -/
theorem System.serve_withWorld (hqueue : s.queue = item :: rest)
    (hreply : (s.softwire.handle w.maps a item.req).reply =
      (s.softwire.handle s.world.maps a item.req).reply)
    (hsoftwire : (s.softwire.handle w.maps a item.req).softwire =
      (s.softwire.handle s.world.maps a item.req).softwire) :
    (s.withWorld w).serve a =
      (s.serve a).withWorld (worldAfter w (s.softwire.handle w.maps a item.req).event) := by
  simp only [System.serve, System.withWorld, hqueue, hreply, hsoftwire]

end Frame

/-- Packets touch the datapath alone. -/
theorem System.run_packets (c : Controller) (s : System) (packets : List Packet) :
    s.run c (packets.map .packet) = s.withWorld (s.world.run (packets.map .packet)) := by
  induction packets generalizing s with
  | nil => rfl
  | cons p rest ih =>
    rw [List.map_cons, System.run, List.foldl_cons]
    exact ih _

theorem System.along_append {c : Controller} {ok : System → Action → Prop} {s : System}
    {before after : List Action} (hbefore : s.Along c ok before)
    (hafter : (s.run c before).Along c ok after) : s.Along c ok (before ++ after) := by
  induction before generalizing s with
  | nil => exact hafter
  | cons act rest ih => exact ⟨hbefore.1, ih hbefore.2 hafter⟩

theorem System.along_packets (c : Controller) {ok : System → Action → Prop} (s : System)
    (packets : List Packet) (hok : ∀ s p, ok s (.packet p)) :
    s.Along c ok (packets.map .packet) := by
  induction packets generalizing s with
  | nil => trivial
  | cons p rest ih => exact ⟨hok s p, ih _⟩

def primingSystem : System := bootedSystem.run docController (cutOverActions.take 6)

def fillingActions : List Action := (allPorts.map portPacket).map .packet

/-- The packets leave the table full of flows, with none of them lost. -/
theorem fillingActions_run : ∃ w : Monitored,
    bootedSystem.run docController (cutOverActions.take 6 ++ fillingActions) =
      primingSystem.withWorld w ∧
    Filled allPorts primingSystem.world w ∧ w.maps.flowAffinity.dom.card = maxFlowAffinity ∧
    transitKey ∉ w.maps.flowAffinity.dom := by
  have hlans : primingSystem.world.maps.lanConfigs = twoLans := rfl
  have hpriming : primingSystem.world.maps.ctrl.state = migPriming := rfl
  have hevents : (allPorts.map portPacket).map Event.packet = fillingEvents := List.map_map
  refine ⟨primingSystem.world.run fillingEvents, ?_, filled_all hlans hpriming rfl⟩
  rw [System.run_append, fillingActions, System.run_packets, hevents, primingSystem]

theorem fillingActions_along {ok : System → Action → Prop}
    (hprime : bootedSystem.Along docController ok (cutOverActions.take 6))
    (hok : ∀ s p, ok s (.packet p)) :
    bootedSystem.Along docController ok (cutOverActions.take 6 ++ fillingActions) := by
  apply System.along_append hprime
  rw [fillingActions]
  generalize allPorts.map portPacket = packets
  exact System.along_packets docController _ packets hok

/-- Another flow is lost then. -/
theorem filled_transit {w : Monitored} (hfilled : Filled allPorts primingSystem.world w)
    (hfull : w.maps.flowAffinity.dom.card = maxFlowAffinity)
    (hnew : transitKey ∉ w.maps.flowAffinity.dom) :
    (w.step (.packet transitPacket)).maps.flowView =
        { w.maps.flowView with lost := w.maps.flowView.lost + 1 } ∧
      (w.step (.packet transitPacket)).history =
        w.history.saw migPriming transitPacket.env.now transitKey := by
  apply transitPacket_lost
  · exact congrArg LoaderMaps.lanConfigs hfilled.loader
  · exact congrArg (fun l : LoaderMaps => (unpackMigrationCtrl l.migrationCtrl).state) hfilled.loader
  · exact hfull
  · exact hnew

theorem lost_recording_overflows_ports :
    maxFlowAffinity < ((System.step docController
      (bootedSystem.run docController (cutOverActions.take 6 ++ fillingActions))
      (.packet transitPacket)).world.history.seen 1).card := by
  obtain ⟨w, hrun, hfilled, hfull, hnew⟩ := fillingActions_run
  obtain ⟨hlost, hhistory⟩ := filled_transit hfilled hfull hnew
  have hempty : bootedSystem.Along docController System.BeginsEmpty
      (cutOverActions.take 6 ++ fillingActions) :=
    fillingActions_along ⟨fun _ _ _ _ _ => rfl, trivial, trivial, trivial, fun _ _ _ _ _ => rfl,
      trivial, trivial⟩ fun _ _ => trivial
  have hmigration : (w.step (.packet transitPacket)).history.migration = 1 := by
    rw [hhistory]
    exact hfilled.migration
  have hover := lost_recording_overflows bootedSystem_boots _ hempty transitPacket
  rw [hrun] at hover ⊢
  simp only [System.step, System.withWorld_world] at hover ⊢
  rw [hmigration] at hover
  have hrise := congrArg FlowView.lost hlost
  generalize w.step (.packet transitPacket) = w' at hover hrise ⊢
  exact hover (lt_of_lt_of_eq (Nat.lt_succ_self w.maps.flowView.lost) hrise.symm)

/-- A call that is accepted, with no fault. -/
theorem Monitored.step_accepted {w : Monitored} (hslots : SlotInvariant w.maps) {call : Call}
    (hset : call.isSetB4Config = false) (hc : call.Accepts w.maps) :
    let w' := w.step (.call call noFaults)
    SlotInvariant w'.maps ∧ Outcome w.maps w'.maps call (.ok ()) ∧
      w'.maps.flowAffinity = w.maps.flowAffinity ∧ w'.maps.lanConfigs = w.maps.lanConfigs ∧
      w'.history = w.history.called w.maps.flowView call (.ok ()) := by
  have hok := Call.exec_noFaults_of_accepts hslots hc
  have hout := Call.outcome hslots hset noFaults
  rw [hok] at hout
  exact ⟨Call.exec_slotInvariant hslots call noFaults, hout,
    (Call.exec_traffic hslots call noFaults).1, Call.exec_lanConfigs call noFaults w.maps,
    Monitored.step_call_history hok⟩

/-- A hard switch and the begin of the next migration, with no fault: the table is not touched. -/
theorem Monitored.switch_begin {w : Monitored} (hslots : SlotInvariant w.maps) (b4 aftr next : Addr)
    (haftr : validateSoftwireAddrs b4 aftr = .pure ())
    (hnext : validateSoftwireAddrs b4 next = .pure ()) :
    let w₁ := w.step (.call (.switchAftr b4 aftr) noFaults)
    let w₂ := w₁.step (.call (.beginMigration b4 next) noFaults)
    ((Call.switchAftr b4 aftr).exec noFaults w.maps).1 = .ok () ∧
      ((Call.beginMigration b4 next).exec noFaults w₁.maps).1 = .ok () ∧
      w₂.maps.lanConfigs = w.maps.lanConfigs ∧ w₂.maps.ctrl.state = migPriming ∧
      w₂.maps.flowAffinity = w.maps.flowAffinity ∧
      w₂.history.migration = w.history.migration + 1 ∧ w₂.history.seen = w.history.seen := by
  intro w₁ w₂
  have hswitch : (Call.switchAftr b4 aftr).Accepts w.maps := haftr
  obtain ⟨hslots₁, hout₁, hflows₁, hlans₁, hhistory₁⟩ := Monitored.step_accepted hslots rfl hswitch
  have hsteady : w₁.maps.ctrl.state = migSteady := by
    cases hout₁ with
    | switched _ hsw => exact congrArg MigrationCtrl.state hsw.ctrl
  have hbegin : (Call.beginMigration b4 next).Accepts w₁.maps := ⟨hnext, hsteady⟩
  obtain ⟨-, hout₂, hflows₂, hlans₂, hhistory₂⟩ := Monitored.step_accepted hslots₁ rfl hbegin
  have hpriming : w₂.maps.ctrl.state = migPriming := by
    cases hout₂ with
    | begun _ hb => exact congrArg MigrationCtrl.state hb.ctrl
  have hhistory : w₂.history = w.history.began w₁.maps.flowView := by
    rw [hhistory₂, show w₁.history = w.history from hhistory₁]
    rfl
  exact ⟨Call.exec_noFaults_of_accepts hslots hswitch,
    Call.exec_noFaults_of_accepts hslots₁ hbegin, hlans₂.trans hlans₁, hpriming,
    hflows₂.trans hflows₁, by rw [hhistory]; rfl, by rw [hhistory]; rfl⟩

def supersedingActions : List Action :=
  sourceActions ++ .serve {} ::
    ([.deliver, .stateTimeout, .discovered { aftr := docAddr 3 } none 0] ++ [.serve {}])

def supersededSystem : System := primingSystem.run docController sourceActions

theorem sourceActions_run (w : Monitored) :
    System.run docController (primingSystem.withWorld w) sourceActions =
      supersededSystem.withWorld w := by
  have hpoll := System.step_withWorld docController primingSystem w .b4Poll rfl
  have hserve : System.step docController ((primingSystem.step docController .b4Poll).withWorld w)
      (.serve { source := docAddr 4, sourceOk := true }) =
      ((primingSystem.step docController .b4Poll).step docController
        (.serve { source := docAddr 4, sourceOk := true })).withWorld w :=
    System.serve_withWorld (s := primingSystem.step docController .b4Poll) rfl rfl rfl
  rw [sourceActions, System.run_cons, hpoll, System.run_cons, hserve, System.run_withWorld]
  · rfl
  · decide

theorem supersedingActions_world {w : Monitored}
    (hswitch : ((Call.switchAftr (docAddr 4) (docAddr 2)).exec noFaults w.maps).1 = .ok ()) :
    (System.run docController (primingSystem.withWorld w) supersedingActions).world =
      (w.step (.call (.switchAftr (docAddr 4) (docAddr 2)) noFaults)).step
        (.call (.beginMigration (docAddr 4) (docAddr 3)) noFaults) := by
  have hserve : System.step docController (supersededSystem.withWorld w) (.serve {}) =
      (supersededSystem.step docController (.serve {})).withWorld
        (w.step (.call (.switchAftr (docAddr 4) (docAddr 2)) noFaults)) := by
    have hhandle := supersededSystem.softwire.handle_switch_ok ⟨docAddr 4, docAddr 2⟩ hswitch
    have hhere := supersededSystem.softwire.handle_switch_ok ⟨docAddr 4, docAddr 2⟩
      (m := supersededSystem.world.maps) rfl
    have hserve := System.serve_withWorld (a := {}) (w := w) (s := supersededSystem) rfl
      (congrArg Handled.reply (hhandle.trans hhere.symm))
      (congrArg Handled.softwire (hhandle.trans hhere.symm))
    exact hserve.trans (congrArg
      (fun h : Handled => (supersededSystem.serve {}).withWorld (worldAfter w h.event)) hhandle)
  have hqueue : ∃ tag, (System.run docController (supersededSystem.step docController (.serve {}))
      [.deliver, .stateTimeout, .discovered { aftr := docAddr 3 } none 0]).queue =
        [⟨0, tag, .beginReq ⟨docAddr 4, docAddr 3⟩⟩] := ⟨_, rfl⟩
  rw [supersedingActions, System.run_append, sourceActions_run, System.run_cons, hserve,
    System.run_append, System.run_withWorld docController _ _ (by decide)]
  generalize System.run docController (supersededSystem.step docController (.serve {}))
    [.deliver, .stateTimeout, .discovered { aftr := docAddr 3 } none 0] = s at hqueue ⊢
  generalize w.step (.call (.switchAftr (docAddr 4) (docAddr 2)) noFaults) = w₁
  obtain ⟨tag, hqueue⟩ := hqueue
  refine (System.serve_world (a := {}) (s := s.withWorld w₁) hqueue).trans ?_
  simp only [Softwire.handle, Softwire.call_event]
  rfl

/-- The entries of a migration that a hard switch ended fill the table: in the next one the first
flow seen is lost. -/
theorem leftovers_lose_recording :
    System.Boots docConfig bootedSystem ∧
    let s := bootedSystem.run docController
      (cutOverActions.take 6 ++ fillingActions ++ supersedingActions)
    let s' := s.step docController (.packet transitPacket)
    s.world.maps.ctrl.state = migPriming ∧
      s'.world.history.seen s'.world.history.migration = {transitKey} ∧
      s.world.maps.stats .affinityInsertFail < s'.world.maps.stats .affinityInsertFail := by
  obtain ⟨w, hrun, hfilled, hfull, hnew⟩ := fillingActions_run
  have hslots : SlotInvariant w.maps := by
    have hinv := bootedSystem_boots.run_invariant docController
      (cutOverActions.take 6 ++ fillingActions)
    rw [hrun] at hinv
    exact hinv.slots
  obtain ⟨hswitch, hbegin, hlans, hpriming, hflows, hmigration, hseen⟩ :=
    Monitored.switch_begin hslots (docAddr 4) (docAddr 2) (docAddr 3) rfl rfl
  have hworld := supersedingActions_world hswitch
  refine ⟨bootedSystem_boots, ?_⟩
  rw [System.run_append, hrun]
  simp only [System.step, hworld]
  generalize (w.step (.call (.switchAftr (docAddr 4) (docAddr 2)) noFaults)).step
    (.call (.beginMigration (docAddr 4) (docAddr 3)) noFaults) = w₂ at *
  obtain ⟨hlost, hhistory⟩ := transitPacket_lost
    (hlans.trans (congrArg LoaderMaps.lanConfigs hfilled.loader)) hpriming
    (by rw [hflows]; exact hfull) (by rw [hflows]; exact hnew)
  have hrise := congrArg FlowView.lost hlost
  generalize w₂.step (.packet transitPacket) = w' at hrise hhistory ⊢
  refine ⟨hpriming, ?_, lt_of_lt_of_eq (Nat.lt_succ_self w₂.maps.flowView.lost) hrise.symm⟩
  have hnone : w₂.history.seen w₂.history.migration = ∅ := by
    rw [hmigration, hseen, hfilled.migration]
    exact hfilled.seen 2 (by decide)
  rw [hhistory, show (w₂.history.saw migPriming _ _).migration = w₂.history.migration from rfl,
    saw_priming_seen, hnone]
  rfl

end Minuteman.Control
