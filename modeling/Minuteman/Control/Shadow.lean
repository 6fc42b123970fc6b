import Minuteman.Control.Softwire
import Minuteman.Migration.Pinning
import Minuteman.Loader.Retry

/-!
# The server's copy of the datapath's endpoints

The server remembers the endpoints new flows use and whether a migration is
under way. Both follow the datapath through every request, also when a loader
call is cut short by a failing map operation.
-/
namespace Minuteman.Control
open Library Datapath Loader Migration Prog

def Endpoints.hop (ep : Endpoints) : NextHop := pairHop ep.b4 ep.aftr

def Endpoints.Accepted (ep : Endpoints) : Prop := validateSoftwireAddrs ep.b4 ep.aftr = .pure ()

/-- The server's state agrees with the datapath's. -/
structure Shadow (sw : Softwire) (m : Maps) : Prop where
  slots : SlotInvariant m
  active : m.nextHops m.ctrl.activeSlot = sw.active.hop
  accepted : sw.active.Accepted
  migrating : m.ctrl.state ≠ migSteady → sw.migrating = true
  target : m.ctrl.state = migPriming →
    m.nextHops (otherSlot m.ctrl.activeSlot) = sw.target.hop ∧ sw.target.Accepted

namespace Shadow
variable {sw : Softwire} {m m' : Maps}

theorem of_same (h : Shadow sw m) (hctrl : m'.migrationCtrl = m.migrationCtrl)
    (hslots : m'.nextHops = m.nextHops) : Shadow sw m' := by
  have hc : m'.ctrl = m.ctrl := congrArg unpackMigrationCtrl hctrl
  constructor
  · rw [SlotInvariant, hc, hslots]
    exact h.slots
  · rw [hc, hslots]
    exact h.active
  · exact h.accepted
  · rw [hc]
    exact h.migrating
  · rw [hc, hslots]
    exact h.target

theorem unmoved (h : Shadow sw m) (hslots : SlotInvariant m') (hu : Unmoved m m') :
    Shadow sw m' := by
  refine ⟨hslots, ?_, h.accepted, ?_, ?_⟩
  · rw [hu.ctrl, hu.slots _ (Or.inl rfl)]
    exact h.active
  · rw [hu.ctrl]
    exact h.migrating
  · rw [hu.ctrl]
    intro hpriming
    rw [hu.staged (by rw [hpriming]; exact migSteady_ne_migPriming.symm)]
    exact h.target hpriming

/-- A datapath that is steady needs no more than the active pair. -/
theorem of_steady (hslots : SlotInvariant m) (hsteady : m.ctrl.state = migSteady)
    (hactive : m.nextHops m.ctrl.activeSlot = sw.active.hop) (haccepted : sw.active.Accepted) :
    Shadow sw m := by
  refine ⟨hslots, hactive, haccepted, fun hne => absurd hsteady hne, fun hpriming => ?_⟩
  exact absurd (hsteady.symm.trans hpriming) migSteady_ne_migPriming

theorem ended (h : Shadow sw m) (hslots : SlotInvariant m') (he : Ended m m') (b : Bool) :
    Shadow { sw with migrating := b } m' := by
  apply of_steady hslots
  · rw [he.ctrl]
  · rw [he.activeSlot, he.slots]
    exact h.active
  · exact h.accepted

theorem begun (h : Shadow sw m) (hslots : SlotInvariant m') {target : Endpoints}
    (hv : target.Accepted) (hb : Begun target.hop m m') :
    Shadow { sw with target := target, migrating := true } m' := by
  refine ⟨hslots, ?_, h.accepted, fun _ => rfl, fun _ => ⟨?_, hv⟩⟩
  · rw [hb.ctrl, hb.slots, Function.update_of_ne (otherSlot_ne _).symm]
    exact h.active
  · rw [hb.ctrl, hb.slots, Function.update_self]

theorem cutOver (h : Shadow sw m) (hslots : SlotInvariant m') (hc : CutOver m m') :
    Shadow { sw with active := sw.target } m' := by
  obtain ⟨htarget, haccepted⟩ := h.target hc.priming
  refine ⟨hslots, ?_, haccepted, fun _ => ?_, fun hpriming => ?_⟩
  · rw [hc.ctrl, hc.slots]
    exact htarget
  · apply h.migrating
    rw [hc.priming]
    exact migSteady_ne_migPriming.symm
  · rw [hc.ctrl] at hpriming
    exact absurd hpriming.symm migPriming_ne_migDraining

theorem switched (hslots : SlotInvariant m') {target : Endpoints} (hv : target.Accepted)
    (hs : Switched target.hop m m') : Shadow { sw with active := target, migrating := false } m' := by
  apply of_steady hslots
  · rw [hs.ctrl]
  · rw [hs.ctrl]
    exact hs.slot
  · exact hv

end Shadow

/-- A failed call leaves the server as it is, a successful one moves it on. -/
theorem Softwire.call_cases (sw : Softwire) (m : Maps) (a : Answers) (c : Call)
    (failed : Option String → Reply) (succeeded : Reply) (sw' : Softwire) :
    (∃ e, (c.exec a.faults m).1 = .error e ∧ sw.call m a c failed succeeded sw' =
        ⟨failed (a.error e), sw, some (.call c a.faults)⟩) ∨
      ((c.exec a.faults m).1 = .ok () ∧ sw.call m a c failed succeeded sw' =
        ⟨succeeded, sw', some (.call c a.faults)⟩) := by
  cases hr : (c.exec a.faults m).1 with
  | error e => exact Or.inl ⟨e, rfl, by simp [Softwire.call, hr]⟩
  | ok u => exact Or.inr ⟨rfl, by simp [Softwire.call, hr]⟩

def mapsAfter (m : Maps) (event : Option Event) : Maps := event.elim m fun e => e.exec m

theorem gcFlowAffinity_loader (t : FlowIdleTimeouts) (now : ℕ) (faults : Faults) (m : Maps) :
    ((gcFlowAffinity t now).exec MapOp.effect faults m).2.toLoaderMaps = m.toLoaderMaps := by
  rcases (gcFlowAffinity_spec t now m).exec faults with ⟨-, hm⟩ | ⟨-, hg⟩
  · rw [hm]
  · exact hg.loader

namespace Shadow
variable {sw : Softwire} {m : Maps}

theorem call (h : Shadow sw m) {a : Answers} {c : Call} (hc : c.isSetB4Config = false)
    {failed : Option String → Reply} {succeeded : Reply} {sw' : Softwire}
    (hdone : ∀ {m'}, SlotInvariant m' → Outcome m m' c (.ok ()) → Shadow sw' m') :
    Shadow (sw.call m a c failed succeeded sw').softwire
      (mapsAfter m (sw.call m a c failed succeeded sw').event) := by
  have hslots := c.exec_slotInvariant h.slots a.faults
  have hout := Call.outcome h.slots hc a.faults
  rcases sw.call_cases m a c failed succeeded sw' with ⟨e, hr, heq⟩ | ⟨hr, heq⟩
  · rw [heq]
    change Shadow sw (c.exec a.faults m).2
    rw [hr] at hout
    generalize (c.exec a.faults m).2 = m' at hslots hout
    cases hout with
    | unmoved hu => exact h.unmoved hslots hu
    | completed _ he => exact h.ended hslots he sw.migrating
    | aborted _ he => exact h.ended hslots he sw.migrating
    | switchFailed he => exact h.ended hslots he sw.migrating
  · rw [heq]
    rw [hr] at hout
    exact hdone hslots hout

/-- Every request keeps the server in step with the datapath. -/
theorem handle (h : Shadow sw m) (a : Answers) (req : Request) :
    Shadow (sw.handle m a req).softwire (mapsAfter m (sw.handle m a req).event) := by
  cases req with
  | recoverReq =>
    rw [Softwire.handle]
    split_ifs
    · apply h.call rfl
      intro m' hslots hout
      cases hout with
      | switched hv hs => exact switched hslots hv hs
    · exact h
  | sourceReq aftr =>
    rw [Softwire.handle]
    split_ifs <;> exact h
  | switchReq target =>
    apply h.call rfl
    intro m' hslots hout
    cases hout with
    | switched hv hs => exact switched hslots hv hs
  | beginReq target =>
    rw [Softwire.handle]
    cases a.statsErr with
    | some err => exact h
    | none =>
      apply h.call rfl
      intro m' hslots hout
      cases hout with
      | begun hv hb => exact h.begun hslots hv hb
  | countsReq =>
    rw [Softwire.handle]
    cases a.statsErr <;> exact h
  | abortReq =>
    apply h.call rfl
    intro m' hslots hout
    cases hout with
    | aborted _ he => exact h.ended hslots he false
  | cutoverReq =>
    apply h.call rfl
    intro m' hslots hout
    cases hout with
    | cutOver hc => exact h.cutOver hslots hc
  | gcReq =>
    have hloader := gcFlowAffinity_loader flowIdle a.now a.faults m
    have hkept : Shadow sw ((gcFlowAffinity flowIdle a.now).exec MapOp.effect a.faults m).2 :=
      h.of_same (congrArg LoaderMaps.migrationCtrl hloader) (congrArg LoaderMaps.nextHops hloader)
    rw [Softwire.handle]
    split <;> exact hkept
  | completeReq =>
    apply h.call rfl
    intro m' hslots hout
    cases hout with
    | completed _ he => exact h.ended hslots he false

end Shadow

structure Server where
  softwire : Softwire
  maps : Maps

inductive Server.Input
  | request (a : Answers) (req : Request)
  | packet (p : Packet)

namespace Server

def step (s : Server) : Input → Server
  | .request a req =>
    ⟨(s.softwire.handle s.maps a req).softwire,
      mapsAfter s.maps (s.softwire.handle s.maps a req).event⟩
  | .packet p => { s with maps := p.after s.maps }

def run (s : Server) (inputs : List Input) : Server := inputs.foldl step s

end Server

namespace Shadow
variable {s : Server}

theorem step (h : Shadow s.softwire s.maps) (i : Server.Input) :
    Shadow (s.step i).softwire (s.step i).maps := by
  cases i with
  | request a req => exact h.handle a req
  | packet p =>
    have hloader := p.after_toLoaderMaps s.maps
    exact h.of_same (congrArg LoaderMaps.migrationCtrl hloader)
      (congrArg LoaderMaps.nextHops hloader)

theorem run (h : Shadow s.softwire s.maps) (inputs : List Server.Input) :
    Shadow (s.run inputs).softwire (s.run inputs).maps := by
  induction inputs generalizing s with
  | nil => exact h
  | cons i inputs ih => exact ih (h.step i)

end Shadow

theorem writeNextHop_pair (slot : ℕ) (b4 aftr : Addr) (m : Maps) :
    Spec MapOp.effect (fun _ => True)
      (fun r m' => r = .ok () → m'.nextHops slot = pairHop b4 aftr) (writeNextHop slot b4 aftr) m := by
  refine Spec.bind (Spec.trivial readCtrl m) ?_ (by simp)
  rintro c t -
  refine Spec.bind (Spec.trivial (slotIsLive c slot) t) ?_ (by simp)
  rintro live u -
  split_ifs
  · simp [Spec]
  · refine Spec.bind (Spec.trivial (clearTunnelPmtu slot) u) ?_ (by simp)
    rintro _ v -
    unfold putSlot
    split_ifs
    · apply Spec.perform trivial trivial
      · exact fun _ => Function.update_self ..
      · simp
    · simp [Spec]

/-- `SetB4Config` stores the pair it was given. -/
theorem setB4Config_pair (cfg : B4ConfigArgs) (m : Maps) :
    Spec MapOp.effect (fun _ => True)
      (fun r m' => r = .ok () → (⟨cfg.b4Addr, cfg.aftrAddr⟩ : Endpoints).Accepted ∧
        m'.nextHops 0 = pairHop cfg.b4Addr cfg.aftrAddr) (setB4Config cfg) m := by
  have hvalid : Spec MapOp.effect (fun _ => True)
      (fun r _ => r = .ok () → (⟨cfg.b4Addr, cfg.aftrAddr⟩ : Endpoints).Accepted)
      (validateSoftwireAddrs cfg.b4Addr cfg.aftrAddr) m := by
    unfold Endpoints.Accepted validateSoftwireAddrs
    split_ifs <;> simp [Spec]
  refine Spec.bind hvalid ?_ (by simp)
  intro _ t haccepted
  refine Spec.bind (Spec.trivial _ t) ?_ (by simp)
  rintro _ u -
  refine Spec.bind (writeNextHop_pair 0 cfg.b4Addr cfg.aftrAddr u) ?_ (by simp)
  intro _ v hpair
  have hdone : (⟨cfg.b4Addr, cfg.aftrAddr⟩ : Endpoints).Accepted ∧
      v.nextHops 0 = pairHop cfg.b4Addr cfg.aftrAddr := ⟨haccepted rfl, hpair rfl⟩
  refine Spec.bind (Q := fun _ m' => m'.nextHops = v.nextHops)
    (Spec.perform trivial trivial rfl rfl) ?_ (by simp)
  intro _ w hw
  apply Spec.perform trivial trivial
  · intro _
    rw [← hw] at hdone
    exact hdone
  · simp

/-- The server as it is started agrees with the datapath. -/
theorem Shadow.start {cfg : B4ConfigArgs} {m₀ m : Maps} {faults : Faults} (hun : Unconfigured m₀)
    (hexec : (Call.setB4Config cfg).exec faults m₀ = (.ok (), m)) (hasRouter : Bool) :
    Shadow { active := ⟨cfg.b4Addr, cfg.aftrAddr⟩, hasRouter } m := by
  have hstored := (setB4Config_unconfigured hun cfg).exec faults
  have hpair := (setB4Config_pair cfg m₀).exec faults
  rw [show (setB4Config cfg).exec MapOp.effect faults m₀ = _ from hexec] at hstored hpair
  obtain ⟨haccepted, hslot⟩ := hpair rfl
  rcases hstored with ⟨⟨e, he⟩, -⟩ | ⟨hslots, hctrl⟩
  · cases he
  · refine of_steady hslots ?_ ?_ haccepted
    · rw [hctrl rfl]
    · rw [hctrl rfl]
      exact hslot

theorem Softwire.handle_recover_active (sw : Softwire) (m : Maps) (a : Answers) :
    (sw.handle m a .recoverReq).softwire.active = sw.active := by
  rw [Softwire.handle]
  split_ifs
  · rcases sw.call_cases m a (.switchAftr sw.active.b4 sw.active.aftr) (.recovered {})
      (.recovered sw.active none) { sw with migrating := false } with ⟨e, -, heq⟩ | ⟨-, heq⟩
    · rw [heq]
    · rw [heq]
  · rfl

theorem Softwire.handle_recover_reply (sw : Softwire) (m : Maps) (a : Answers)
    {ep : Endpoints} (h : (sw.handle m a .recoverReq).reply = .recovered ep none) : ep = sw.active := by
  rw [Softwire.handle] at h
  split_ifs at h
  · rcases sw.call_cases m a (.switchAftr sw.active.b4 sw.active.aftr) (.recovered {})
      (.recovered sw.active none) { sw with migrating := false } with ⟨e, -, heq⟩ | ⟨-, heq⟩
    · rw [heq] at h
      cases h
    · rw [heq] at h
      injection h with hep
      exact hep.symm
  · injection h with hep
    exact hep.symm

namespace Shadow
variable {sw : Softwire} {m : Maps} {a : Answers}

/-- A recovery that is answered reports the endpoints in use, on a datapath that is steady. -/
theorem recovered (h : Shadow sw m) {ep : Endpoints}
    (hreply : (sw.handle m a .recoverReq).reply = .recovered ep none) :
    ep = sw.active ∧ (mapsAfter m (sw.handle m a .recoverReq).event).ctrl.state = migSteady := by
  refine ⟨sw.handle_recover_reply m a hreply, ?_⟩
  rw [Softwire.handle] at hreply ⊢
  by_cases hmigrating : sw.migrating = true
  · rw [if_pos hmigrating] at hreply ⊢
    have hout := Call.outcome h.slots (c := .switchAftr sw.active.b4 sw.active.aftr) rfl a.faults
    rcases sw.call_cases m a (.switchAftr sw.active.b4 sw.active.aftr) (.recovered {})
      (.recovered sw.active none) { sw with migrating := false } with ⟨e, hr, heq⟩ | ⟨hr, heq⟩
    · rw [heq] at hreply
      cases hreply
    · rw [heq]
      rw [hr] at hout
      change (Call.exec _ a.faults m).2.ctrl.state = migSteady
      generalize (Call.exec _ a.faults m).2 = m' at hout
      cases hout with
      | switched _ hs => rw [hs.ctrl]
  · rw [if_neg hmigrating]
    by_contra hne
    exact hmigrating (h.migrating hne)

/-- Unless a map operation fails, a recovery is answered. -/
theorem recovers (h : Shadow sw m) (ha : a.faults = noFaults) :
    (sw.handle m a .recoverReq).reply = .recovered sw.active none := by
  rw [Softwire.handle]
  split_ifs
  · have hok := Call.exec_noFaults_of_accepts h.slots
      (c := .switchAftr sw.active.b4 sw.active.aftr) h.accepted
    rw [← ha] at hok
    simp only [Softwire.call, hok]
  · rfl

end Shadow

/-- Whatever is requested and whichever map operations fail, the server's active endpoints are the
pair of the active slot and a migration under way is known to it. A recovery that is answered
reports that pair and leaves the datapath steady; it is answered unless a map operation fails. -/
theorem softwire_shadows_datapath {cfg : B4ConfigArgs} {m₀ m : Maps} {faults : Faults}
    (hun : Unconfigured m₀) (hexec : (Call.setB4Config cfg).exec faults m₀ = (.ok (), m))
    (hasRouter : Bool) (inputs : List Server.Input) :
    let s := Server.run ⟨{ active := ⟨cfg.b4Addr, cfg.aftrAddr⟩, hasRouter }, m⟩ inputs
    s.maps.nextHops s.maps.ctrl.activeSlot = s.softwire.active.hop ∧
      (s.maps.ctrl.state ≠ migSteady → s.softwire.migrating = true) ∧
      ∀ a, (∀ ep, (s.softwire.handle s.maps a .recoverReq).reply = .recovered ep none →
          ep = s.softwire.active ∧
            let s' := s.step (.request a .recoverReq)
            s'.maps.ctrl.state = migSteady ∧ s'.maps.nextHops s'.maps.ctrl.activeSlot = ep.hop) ∧
        (a.faults = noFaults →
          (s.softwire.handle s.maps a .recoverReq).reply = .recovered s.softwire.active none) := by
  intro s
  have h : Shadow s.softwire s.maps :=
    (Shadow.start hun hexec hasRouter).run (s := ⟨_, m⟩) inputs
  refine ⟨h.active, h.migrating, fun a => ⟨fun ep hreply => ?_, h.recovers⟩⟩
  obtain ⟨rfl, hsteady⟩ := h.recovered hreply
  have hactive := (h.handle a .recoverReq).active
  rw [Softwire.handle_recover_active] at hactive
  exact ⟨rfl, hsteady, hactive⟩

/-- A migration is cut over and then fails to complete. -/
def shadowedInputs : List Server.Input :=
  [.request {} (.beginReq ⟨docAddr 1, docAddr 3⟩), .request {} .cutoverReq,
    .request { faults := faultAt 1 } .completeReq]

theorem softwire_shadows_datapath_draining :
    let s := Server.run ⟨{ active := ⟨docAddr 1, docAddr 2⟩, hasRouter := true }, configuredMaps⟩
      shadowedInputs
    s.maps.ctrl.state = migDraining ∧ s.softwire.active = ⟨docAddr 1, docAddr 3⟩ ∧
      s.maps.nextHops s.maps.ctrl.activeSlot = pairHop (docAddr 1) (docAddr 3) ∧
      (s.softwire.handle s.maps {} .recoverReq).reply = .recovered ⟨docAddr 1, docAddr 3⟩ none := by
  have h := @softwire_shadows_datapath docConfig { Maps.zeroed with lanConfigs := twoLans }
    configuredMaps noFaults ⟨rfl, fun _ => rfl⟩ rfl true shadowedInputs
  exact ⟨by decide, rfl, h.1, (h.2.2 {}).2 rfl⟩

end Minuteman.Control
