import Minuteman.Radvd.Restarts

/-!
# Announcing a change

A configuration that changed is advertised soon: the unsolicited timer is set to
fire, or, while an advertisement is recent, the change is marked pending until
the quiet timer fires. What is sent is always the configuration last handled.
-/
namespace Minuteman.Radvd
open Library

def Letter.config : Letter → Option Config
  | .cast cfg => some cfg
  | .socket _ => none

def World.casting (w : World) : Event → Option Config
  | .handled _ _ => w.process.bind fun p => p.mailbox.head?.bind Letter.config
  | _ => none

def World.news (w w' : World) : List RouterAdvertisement :=
  (w'.sent.take (w'.sent.length - w.sent.length)).map Sent.ra

/-- An interface with what became of the casts to its process: the configuration of the latest one
handled, whether an advertisement was handed to the socket since that changed, and every
advertisement with the configuration it had to carry. -/
structure Observed where
  world : World
  handled : Option Config
  announced : Bool
  sent : List (RouterAdvertisement × Option Config)

namespace Observed

def initial (now : ℤ) : Observed := ⟨.initial now, none, false, []⟩

/-- A process started again has handled nothing. -/
def step (a : Advertiser) (o : Observed) : Action → Observed
  | .event e =>
    let w := o.world.step a e
    let handled := (o.world.casting e).or o.handled
    { world := w
      handled := handled
      announced := !(o.world.news w).isEmpty || (o.announced && handled = o.handled)
      sent := (o.world.news w).map (·, handled) ++ o.sent }
  | .restart =>
    match o.world.process with
    | some _ => o
    | none => { o with world := o.world.restart, handled := none, announced := false }

end Observed

/-- The timers of a process with what it has to announce, `announced` telling whether it did. -/
structure Ready (now : ℤ) (announced : Bool) (s : State) (timers : Timer → Option ℤ) : Prop where
  idle : s.configured = false → ∀ t, timers t = none
  armed : s.configured = true → (timers .unsolicited).isSome
  quiet : s.recent = true → (timers .quiet).isSome
  soon : s.configured = true → announced = false →
    (∃ due, timers .unsolicited = some due ∧ due ≤ now + tentativeRetryInterval) ∨
      (s.pending = true ∧ (timers .quiet).isSome)

section Handlers
variable {a : Advertiser} {now : ℤ} {announced : Bool} {s s' : State} {timers : Timer → Option ℤ}
  {draw : ℕ}

/-- The next advertisement goes out soon. -/
theorem Ready.of_soon {due : ℤ} (hconf : s.configured = true)
    (hquiet : s.recent = true → (timers .quiet).isSome) (hdue : timers .unsolicited = some due)
    (hle : due ≤ now + tentativeRetryInterval) : Ready now announced s timers where
  idle h := by cases hconf.symm.trans h
  armed _ := by simp [hdue]
  quiet := hquiet
  soon _ _ := .inl ⟨due, hdue, hle⟩

theorem soon_now : now + 0 ≤ now + tentativeRetryInterval := by
  rw [tentativeRetryInterval, second]
  omega

theorem Ready.cast (h : Ready now announced s timers) (cfg : Config) :
    Ready now (announced && some cfg = s.config) (handleCast s cfg).1
      (startTimers now (handleCast s cfg).2 timers) := by
  unfold handleCast
  split_ifs with hnew hsame hrecent
  · exact .of_soon rfl h.quiet rfl soon_now
  · have hconf : s.configured = true := by simpa using hnew
    have hkept : (some cfg = s.config) = True := by simp [State.config, hconf, hsame]
    simp only [hkept, decide_true, Bool.and_true]
    exact h
  · have hconf : s.configured = true := by simpa using hnew
    exact ⟨fun hidle => absurd hidle (by simp [hconf]), fun _ => h.armed hconf, h.quiet,
      fun _ _ => .inr ⟨rfl, h.quiet hrecent⟩⟩
  · have hconf : s.configured = true := by simpa using hnew
    exact .of_soon hconf h.quiet rfl soon_now

/-- After an advertisement only the timers matter. -/
theorem Ready.sent (hconf : s.configured = true) (harmed : (timers .unsolicited).isSome)
    (hquiet : (timers .quiet).isSome) : Ready now true s timers where
  idle h := by cases hconf.symm.trans h
  armed _ := harmed
  quiet _ := hquiet
  soon _ h := by cases h

theorem Ready.unsolicited (hconf : s.configured = true) :
    Ready now true (a.handleInfo s draw (.timer .unsolicited)).1
      (startTimers now (a.handleInfo s draw (.timer .unsolicited)).2 timers) :=
  .sent hconf rfl rfl

theorem Ready.quietPassed (h : Ready now announced s timers) (hconf : s.configured = true) :
    Ready now announced (a.handleInfo s draw (.timer .quiet)).1
      (startTimers now (a.handleInfo s draw (.timer .quiet)).2
        (Function.update timers .quiet none)) := by
  simp only [Advertiser.handleInfo]
  split_ifs with hpending
  · exact .of_soon hconf (fun hrecent => by cases hrecent) rfl soon_now
  · refine ⟨fun hidle => absurd hidle (by simp [hconf]), fun _ => h.armed hconf,
      (fun hrecent => by cases hrecent), ?_⟩
    intro _ hnot
    rcases h.soon hconf hnot with hsoon | ⟨hwait, -⟩
    · exact .inl hsoon
    · exact absurd hwait hpending

/-- Only what the timers of an advertisement are counts. -/
theorem Ready.congr (h : Ready now announced s timers) {timers' : Timer → Option ℤ}
    (hconf : s.configured = true) (hs : s'.configured = s.configured ∧ s'.recent = s.recent ∧
      s'.pending = s.pending) (hunsolicited : timers' .unsolicited = timers .unsolicited)
    (hquiet : timers' .quiet = timers .quiet) : Ready now announced s' timers' := by
  obtain ⟨hc, hr, hp⟩ := hs
  constructor
  · intro hidle
    cases hconf.symm.trans (hc.symm.trans hidle)
  · rw [hunsolicited, hc]
    exact h.armed
  · rw [hquiet, hr]
    exact h.quiet
  · rw [hunsolicited, hquiet, hc, hp]
    exact h.soon

theorem Ready.reply (h : Ready now announced s timers) (hconf : s.configured = true) :
    Ready now (announced || !s.recent) (a.handleInfo s draw (.timer .reply)).1
      (startTimers now (a.handleInfo s draw (.timer .reply)).2
        (Function.update timers .reply none)) := by
  simp only [Advertiser.handleInfo]
  split_ifs with hrecent
  · have hsame : (announced || !s.recent) = announced := by simp [hrecent]
    rw [hsame]
    exact h.congr hconf ⟨rfl, rfl, rfl⟩ rfl rfl
  · have hsent : (announced || !s.recent) = true := by simp [hrecent]
    rw [hsent]
    exact .sent hconf (h.armed hconf) rfl

theorem Ready.socket (h : Ready now announced s timers) {m : SocketMsg}
    (hidle : s.configured = false → ∀ errno, m ≠ .sendError errno) :
    Ready now announced (a.handleInfo s draw (.socket m)).1
      (startTimers now (a.handleInfo s draw (.socket m)).2 timers) := by
  cases m with
  | data bytes =>
    simp only [Advertiser.handleInfo]
    split_ifs with hdrop
    · exact h
    · have hconf : s.configured = true := by
        by_contra hnot
        simp [Bool.not_eq_true] at hnot
        simp [hnot] at hdrop
      exact h.congr hconf ⟨rfl, rfl, rfl⟩ rfl rfl
  | sendError errno =>
    have hconf : s.configured = true := by
      by_contra hnot
      exact hidle (by simpa using hnot) errno rfl
    simp only [Advertiser.handleInfo]
    split_ifs with htentative
    · exact .of_soon hconf h.quiet rfl le_rfl
    · exact h
  | error errno => exact h
  | closed => exact h

theorem Ready.elapse (h : Ready now announced s timers) (d : ℕ) :
    Ready (now + d) announced s timers := by
  refine ⟨h.idle, h.armed, h.quiet, fun hconf hnot => ?_⟩
  rcases h.soon hconf hnot with ⟨due, hdue, hle⟩ | hpending
  · exact .inl ⟨due, hdue, by omega⟩
  · exact .inr hpending

theorem Ready.weaken {announced' : Bool} (h : Ready now announced s timers)
    (himp : announced = true → announced' = true) : Ready now announced' s timers := by
  refine ⟨h.idle, h.armed, h.quiet, fun hconf hnot => h.soon hconf ?_⟩
  rw [← Bool.not_eq_true]
  intro hyes
  cases hnot.symm.trans (himp hyes)

def Carries (a : Advertiser) (ra : RouterAdvertisement) (config : Option Config) : Prop :=
  ∃ cfg lifetime, config = some cfg ∧ ra = a.ra cfg lifetime

theorem carries_terminate {ra : RouterAdvertisement} (h : ra ∈ advertisements (a.terminate s)) :
    Carries a ra s.config := by
  cases hconf : s.configured with
  | false => simp [Advertiser.terminate, hconf, advertisements, outputs] at h
  | true =>
    simp only [Advertiser.terminate, hconf, advertisements, outputs, ServerEffect.output,
      Output.advertisement, if_true, List.filterMap_cons, List.filterMap_nil,
      List.mem_singleton] at h
    exact ⟨s.cfg, 0, by simp [State.config, hconf], h⟩

theorem carries_fired {ra : RouterAdvertisement} {t : Timer} (hconf : s.configured = true)
    (h : ra ∈ advertisements (a.handleInfo s draw (.timer t)).2) : Carries a ra s.config := by
  have hconfig : s.config = some s.cfg := by simp [State.config, hconf]
  cases t with
  | unsolicited => exact ⟨s.cfg, advDefaultLifetime, hconfig, List.mem_singleton.mp h⟩
  | quiet =>
    rw [handleInfo_quiet_advertisements] at h
    cases h
  | reply =>
    cases hrecent : s.recent with
    | true =>
      rw [(handleInfo_reply_silent hrecent).silent] at h
      cases h
    | false =>
      simp only [Advertiser.handleInfo, hrecent] at h
      exact ⟨s.cfg, advDefaultLifetime, hconfig, List.mem_singleton.mp h⟩

end Handlers

/-- A process that announces what it last handled; before it handled anything, nothing was sent. -/
structure Announcing (o : Observed) (p : Process) : Prop where
  ready : Ready o.world.now o.announced p.state p.timers
  handled : o.handled = p.state.config
  unsent : p.state.configured = false →
    o.world.unreported = [] ∧ ∀ errno, Letter.socket (.sendError errno) ∉ p.mailbox

structure Faithful (a : Advertiser) (o : Observed) : Prop where
  carried : ∀ x ∈ o.sent, Carries a x.1 x.2
  announcing : ∀ p, o.world.process = some p → Announcing o p

section Runs
variable {a : Advertiser} {o : Observed} {w w' : World} {p : Process} {r : State × List Effect}
  {outcome : Option ℕ}

/-- A process just started has handled nothing. -/
theorem Announcing.fresh (hhandled : o.handled = none) (hnone : o.world.unreported = []) :
    Announcing o (.fresh .initial) :=
  ⟨⟨fun _ _ => rfl, nofun, nofun, nofun⟩, hhandled, fun _ => ⟨hnone, nofun⟩⟩

theorem news_append {added : List Sent} (h : w'.sent = added ++ w.sent) :
    w.news w' = added.map Sent.ra := by
  have hlen : w'.sent.length - w.sent.length = added.length := by simp [h]
  rw [World.news, hlen, h, List.take_left]

theorem settle_alive {q : Process} (h : (w.settle a p r outcome).process = some q) :
    (w.settle a p r outcome).now = w.now ∧
      (advertisements r.2 = [] → (w.settle a p r outcome).unreported = w.unreported) := by
  simp only [World.settle] at h ⊢
  split at h
  · refine ⟨rfl, fun hnone => ?_⟩
    simp [World.transmit, hnone]
  · cases h

/-- What a handler sends, and what the process sends besides if it stops. -/
theorem settle_news :
    ∃ rest, w.news (w.settle a p r outcome) = rest ++ (advertisements r.2).reverse ∧
      ∀ ra ∈ rest, ra ∈ advertisements (a.terminate r.1) := by
  simp only [World.settle]
  cases stopReason r.2 with
  | none =>
    refine ⟨[], ?_, List.forall_mem_nil _⟩
    rw [news_append rfl]
    simp [List.map_reverse, Function.comp_def]
  | some reason =>
    refine ⟨(advertisements (a.terminate r.1)).reverse, ?_, fun ra hra => List.mem_reverse.mp hra⟩
    rw [news_append (List.append_assoc _ _ _).symm]
    simp [List.map_reverse, Function.comp_def]

/-- Nothing is handled and nothing sent. -/
theorem Observed.step_silent {e : Event} (hcast : o.world.casting e = none)
    (hsent : (o.world.step a e).sent = o.world.sent) :
    o.step a (.event e) = { o with world := o.world.step a e } := by
  have hnews : o.world.news (o.world.step a e) = [] := by
    rw [news_append (show (o.world.step a e).sent = [] ++ o.world.sent from hsent)]
    rfl
  simp [Observed.step, hcast, hnews]

/-- A handler took up a message: `handled` is what the process then advertises, `told` whether it
had announced that before. -/
theorem Faithful.settle {handled : Option Config} {told : Bool}
    (hcarried : ∀ x ∈ o.sent, Carries a x.1 x.2) (hconfig : r.1.config = handled)
    (hras : ∀ ra ∈ advertisements r.2, Carries a ra handled)
    (hready : Ready o.world.now (!(advertisements r.2).isEmpty || told) r.1
      (startTimers o.world.now r.2 p.timers))
    (hunsent : r.1.configured = false →
      o.world.unreported = [] ∧ ∀ errno, Letter.socket (.sendError errno) ∉ p.mailbox) :
    let w := o.world.settle a p r outcome
    Faithful a ⟨w, handled, !(o.world.news w).isEmpty || told,
      (o.world.news w).map (·, handled) ++ o.sent⟩ := by
  intro w
  obtain ⟨rest, hnews, hrest⟩ : ∃ rest, o.world.news w = rest ++ (advertisements r.2).reverse ∧
    ∀ ra ∈ rest, ra ∈ advertisements (a.terminate r.1) := settle_news
  constructor
  · intro x hx
    rcases List.mem_append.mp hx with hnew | hold
    · obtain ⟨ra, hra, rfl⟩ := List.mem_map.mp hnew
      rw [hnews] at hra
      rcases List.mem_append.mp hra with hstop | hsent
      · exact hconfig ▸ carries_terminate (hrest ra hstop)
      · exact hras ra (List.mem_reverse.mp hsent)
    · exact hcarried x hold
  · intro q hq
    cases settle_process hq
    obtain ⟨hnow, hunreported⟩ := settle_alive hq
    refine ⟨?_, hconfig.symm, fun hidle => ⟨?_, (hunsent hidle).2⟩⟩
    · change Ready w.now _ _ _
      rw [hnow]
      apply hready.weaken
      intro htold
      cases told with
      | true => simp
      | false =>
        have hsent : advertisements r.2 ≠ [] := by simpa using htold
        simp [hnews, hsent]
    · have hidle : r.1.configured = false := hidle
      have hnone : advertisements r.2 = [] := by
        rw [List.eq_nil_iff_forall_not_mem]
        intro ra hra
        obtain ⟨cfg, lifetime, hcfg, -⟩ := hras ra hra
        rw [← hconfig, State.config, if_neg (by simp [hidle])] at hcfg
        cases hcfg
      change w.unreported = []
      rw [hunreported hnone]
      exact (hunsent hidle).1

theorem Faithful.arrive (h : Faithful a o) {m : Letter}
    (hm : ∀ p, o.world.process = some p → p.state.configured = false →
      ∀ errno, m ≠ .socket (.sendError errno)) : Faithful a { o with world := o.world.arrive m } := by
  refine ⟨h.carried, fun q hq => ?_⟩
  obtain ⟨p, hp, rfl⟩ := Option.map_eq_some_iff.mp hq
  have hold := h.announcing p hp
  refine ⟨hold.ready, hold.handled, fun hidle => ⟨(hold.unsent hidle).1, fun errno hmem => ?_⟩⟩
  rcases List.mem_append.mp hmem with hbefore | hnew
  · exact (hold.unsent hidle).2 errno hbefore
  · exact hm p hp hidle errno (List.mem_singleton.mp hnew).symm

theorem Faithful.delivered (h : Faithful a o) {e : Event} {m : Letter}
    (hcast : o.world.casting e = none) (hworld : o.world.step a e = o.world.arrive m)
    (hsent : (o.world.step a e).sent = o.world.sent)
    (hm : ∀ errno, m ≠ .socket (.sendError errno)) : Faithful a (o.step a (.event e)) := by
  rw [Observed.step_silent hcast hsent, hworld]
  exact h.arrive fun _ _ _ => hm

theorem Faithful.stopped (hcarried : ∀ x ∈ o.sent, Carries a x.1 x.2)
    (hnone : o.world.process = none) : Faithful a o :=
  ⟨hcarried, fun _ hp => by cases hnone.symm.trans hp⟩

theorem Faithful.same (h : Faithful a o) {e : Event} (hcast : o.world.casting e = none)
    (hworld : o.world.step a e = o.world) : Faithful a (o.step a (.event e)) := by
  rw [Observed.step_silent hcast (congrArg World.sent hworld), hworld]
  exact h

theorem Letter.apply_eq (m : Letter) (config : Option Config) :
    m.apply config = m.config.or config := by
  cases m <;> rfl

theorem Ready.handle {announced : Bool} {now : ℤ} {m : Letter} (draw : ℕ)
    (h : Ready now announced p.state p.timers)
    (hidle : p.state.configured = false → ∀ errno, m ≠ .socket (.sendError errno)) :
    Ready now (announced && m.config.or p.state.config = p.state.config)
      (World.handle a p.state draw m).1
      (startTimers now (World.handle a p.state draw m).2 p.timers) := by
  cases m with
  | cast cfg => exact h.cast cfg
  | socket m =>
    simp only [Letter.config, Option.none_or, decide_true, Bool.and_true]
    exact h.socket fun hconf errno heq => hidle hconf errno (congrArg Letter.socket heq)

theorem handle_silent (draw : ℕ) (m : Letter) :
    advertisements (World.handle a p.state draw m).2 = [] := by
  cases m with
  | cast cfg => exact (handleCast_silent cfg).silent
  | socket m => exact (handleInfo_silent m).silent

theorem Faithful.handled (h : Faithful a o) (draw : ℕ) (outcome : Option ℕ) :
    Faithful a (o.step a (.event (.handled draw outcome))) := by
  cases hp : o.world.process with
  | none => exact h.same (by simp [World.casting, hp]) (by simp [World.step, hp])
  | some p =>
    have hold := h.announcing p hp
    cases hmail : p.mailbox with
    | nil => exact h.same (by simp [World.casting, hp, hmail]) (by simp [World.step, hp, hmail])
    | cons m rest =>
      have hidle : p.state.configured = false → ∀ errno, m ≠ .socket (.sendError errno) := by
        intro hconf errno heq
        exact (hold.unsent hconf).2 errno (by simp [hmail, heq])
      have hcast : o.world.casting (.handled draw outcome) = m.config := by
        simp [World.casting, hp, hmail]
      have hworld : o.world.step a (.handled draw outcome) =
          o.world.settle a { p with mailbox := rest } (World.handle a p.state draw m) outcome := by
        simp [World.step, hp, hmail]
      rw [Observed.step, hcast, hworld]
      apply Faithful.settle h.carried
      · rw [handle_config, Letter.apply_eq, hold.handled]
      · rw [handle_silent]
        exact List.forall_mem_nil _
      · rw [handle_silent, hold.handled]
        exact hold.ready.handle draw hidle
      · intro hnot
        have hconf : p.state.configured = false := by
          by_contra hyes
          have hsome := State.configured_iff.mp (by simpa using hyes)
          rw [← Bool.not_eq_true, State.configured_iff, handle_config, Letter.apply_eq] at hnot
          exact hnot (by simp [Option.isSome_or, hsome])
        obtain ⟨hnone, hletters⟩ := hold.unsent hconf
        refine ⟨hnone, fun errno hmem => hletters errno ?_⟩
        rw [hmail]
        exact List.mem_cons_of_mem m hmem

/-- A timer of a configured process fires. -/
theorem Ready.fired {announced : Bool} {now : ℤ} (t : Timer) (draw : ℕ)
    (h : Ready now announced p.state p.timers) (hconf : p.state.configured = true) :
    Ready now (!(advertisements (a.handleInfo p.state draw (.timer t)).2).isEmpty || announced)
      (a.handleInfo p.state draw (.timer t)).1
      (startTimers now (a.handleInfo p.state draw (.timer t)).2
        (Function.update p.timers t none)) := by
  cases t with
  | unsolicited => exact .unsolicited hconf
  | quiet =>
    rw [handleInfo_quiet_advertisements]
    exact h.quietPassed hconf
  | reply =>
    apply (h.reply hconf).weaken
    cases hrecent : p.state.recent with
    | true =>
      intro htold
      rw [Bool.not_true, Bool.or_false] at htold
      rw [htold, Bool.or_true]
    | false =>
      have hsends : Sends (a.handleInfo p.state draw (.timer .reply)) := handleInfo_reply_sends hrecent
      obtain ⟨ra, hra⟩ := hsends.one
      simp [hra]

theorem Faithful.fired (h : Faithful a o) (t : Timer) (draw : ℕ) (outcome : Option ℕ) :
    Faithful a (o.step a (.event (.fired t draw outcome))) := by
  cases hp : o.world.process with
  | none => exact h.same rfl (by simp [World.step, hp])
  | some p =>
    have hold := h.announcing p hp
    by_cases hdue : p.Due o.world.now t
    · have hconf : p.state.configured = true := by
        by_contra hnot
        obtain ⟨due, htimer, -⟩ := hdue
        cases htimer.symm.trans (hold.ready.idle (by simpa using hnot) t)
      have hworld : o.world.step a (.fired t draw outcome) =
          o.world.settle a { p with timers := Function.update p.timers t none }
            (a.handleInfo p.state draw (.timer t)) outcome := by
        simp [World.step, hp, hdue]
      have hconfig : (a.handleInfo p.state draw (.timer t)).1.config = o.handled := by
        rw [handleInfo_config, hold.handled]
      rw [Observed.step, hworld]
      apply Faithful.settle h.carried
      · exact hconfig
      · intro ra hra
        rw [show (o.world.casting (.fired t draw outcome)).or o.handled = p.state.config from
          hold.handled]
        exact carries_fired hconf hra
      · have hsame : (o.world.casting (.fired t draw outcome)).or o.handled = o.handled := rfl
        simp only [hsame, decide_true, Bool.and_true]
        exact hold.ready.fired t draw hconf
      · intro hidle
        rw [← Bool.not_eq_true, State.configured_iff, handleInfo_config, ← State.configured_iff]
          at hidle
        exact absurd hconf hidle
    · exact h.same rfl (by simp [World.step, hp, hdue])

/-- Only a configured process hears of a failed advertisement. -/
theorem Faithful.reported (h : Faithful a o) : Faithful a (o.step a (.event .reported)) := by
  cases hunreported : o.world.unreported with
  | nil => exact h.same rfl (by simp [World.step, hunreported])
  | cons errno rest =>
    have hworld : o.world.step a .reported =
        { o.world with unreported := rest }.arrive (.socket (.sendError errno)) := by
      simp [World.step, hunreported]
    have hconf : ∀ p, o.world.process = some p → p.state.configured ≠ false := by
      intro p hp hidle
      cases hunreported.symm.trans ((h.announcing p hp).unsent hidle).1
    have hbefore : Faithful a { o with world := { o.world with unreported := rest } } := by
      refine ⟨h.carried, fun p hp => ?_⟩
      have hold := h.announcing p hp
      exact ⟨hold.ready, hold.handled, fun hidle => absurd hidle (hconf p hp)⟩
    have hsent : (o.world.step a .reported).sent = o.world.sent := by
      rw [hworld]
      rfl
    rw [Observed.step_silent rfl hsent, hworld]
    exact hbefore.arrive fun p hp hidle => absurd hidle (hconf p hp)

theorem Faithful.shutdown (h : Faithful a o) (outcome : Option ℕ) :
    Faithful a (o.step a (.event (.shutdown outcome))) := by
  cases hp : o.world.process with
  | none => exact h.same rfl (by simp [World.step, hp])
  | some p =>
    have hworld : o.world.step a (.shutdown outcome) = o.world.exit a p.state outcome := by
      simp [World.step, hp]
    have hnews : o.world.news (o.world.exit a p.state outcome) =
        (advertisements (a.terminate p.state)).reverse := by
      rw [news_append rfl]
      simp [List.map_reverse, Function.comp_def]
    rw [Observed.step, hworld]
    refine .stopped (fun x hx => ?_) rfl
    rcases List.mem_append.mp hx with hnew | hold
    · obtain ⟨ra, hra, rfl⟩ := List.mem_map.mp hnew
      rw [hnews, List.mem_reverse] at hra
      have hcarries := carries_terminate hra
      rw [← (h.announcing p hp).handled] at hcarries
      exact hcarries
    · exact h.carried x hold

theorem Faithful.step (h : Faithful a o) (action : Action) : Faithful a (o.step a action) := by
  cases action with
  | restart =>
    rw [Observed.step]
    split
    · exact h
    · refine ⟨h.carried, fun p hp => ?_⟩
      cases hp
      exact .fresh rfl rfl
  | event e =>
    cases e with
    | elapse d =>
      rw [Observed.step_silent rfl rfl]
      refine ⟨h.carried, fun p hp => ?_⟩
      have hold := h.announcing p hp
      exact ⟨hold.ready.elapse d, hold.handled, hold.unsent⟩
    | cast cfg => exact h.delivered rfl rfl rfl (by simp)
    | received bytes => exact h.delivered rfl rfl rfl (by simp)
    | readFailed errno => exact h.delivered rfl rfl rfl (by simp)
    | socketClosed => exact h.delivered rfl rfl rfl (by simp)
    | reported => exact h.reported
    | handled draw outcome => exact h.handled draw outcome
    | fired t draw outcome => exact h.fired t draw outcome
    | shutdown outcome => exact h.shutdown outcome
    | killed =>
      rw [Observed.step_silent rfl rfl]
      exact .stopped h.carried rfl

theorem Faithful.initial (a : Advertiser) (now : ℤ) : Faithful a (.initial now) := by
  refine ⟨nofun, fun p hp => ?_⟩
  cases hp
  exact .fresh rfl rfl

end Runs

theorem settle_sent (a : Advertiser) (w : World) (p : Process) (r : State × List Effect)
    (outcome : Option ℕ) : ∃ added, (w.settle a p r outcome).sent = added ++ w.sent := by
  simp only [World.settle]
  split
  · exact ⟨_, rfl⟩
  · exact ⟨_, (List.append_assoc _ _ _).symm⟩

theorem step_sent (a : Advertiser) (w : World) (e : Event) :
    ∃ added, (w.step a e).sent = added ++ w.sent := by
  cases e with
  | reported =>
    simp only [World.step]
    split <;> exact ⟨[], rfl⟩
  | handled draw outcome =>
    simp only [World.step]
    split
    · exact ⟨[], rfl⟩
    · split
      · exact ⟨[], rfl⟩
      · exact settle_sent a w _ _ outcome
  | fired t draw outcome =>
    simp only [World.step]
    split
    · exact ⟨[], rfl⟩
    · split_ifs
      · exact settle_sent a w _ _ outcome
      · exact ⟨[], rfl⟩
  | shutdown outcome =>
    simp only [World.step]
    split
    · exact ⟨[], rfl⟩
    · exact ⟨_, rfl⟩
  | _ => exact ⟨[], rfl⟩

/-- No advertisement is left out. -/
theorem Observed.step_complete {a : Advertiser} {o : Observed}
    (h : o.sent.map Prod.fst = o.world.sent.map Sent.ra) (action : Action) :
    (o.step a action).sent.map Prod.fst = (o.step a action).world.sent.map Sent.ra := by
  cases action with
  | event e =>
    obtain ⟨added, hadded⟩ := step_sent a o.world e
    rw [Observed.step, news_append hadded, hadded]
    simp [h, Function.comp_def]
  | restart =>
    rw [Observed.step]
    split <;> exact h

/-- In every run each advertisement carries the configuration of the latest cast handled, and a
configured process has its unsolicited timer armed; one that has handed nothing to the socket since
the configuration changed has it armed for soon, or the change pending and the quiet timer armed. -/
theorem change_announced (a : Advertiser) (now : ℤ) (actions : List Action) :
    let o := actions.foldl (Observed.step a) (.initial now)
    o.sent.map Prod.fst = o.world.sent.map Sent.ra ∧ (∀ x ∈ o.sent, Carries a x.1 x.2) ∧
      ∀ p, o.world.process = some p → p.state.configured = true →
        o.handled = some p.state.cfg ∧ (p.timers .unsolicited).isSome ∧
          (o.announced = false →
            (∃ due, p.timers .unsolicited = some due ∧
                due ≤ o.world.now + tentativeRetryInterval) ∨
              (p.state.pending = true ∧ (p.timers .quiet).isSome)) := by
  have hfaithful : Faithful a (actions.foldl (Observed.step a) (.initial now)) := by
    refine List.foldlRecOn (motive := Faithful a) actions _ (Faithful.initial a now) ?_
    intro o ho action _
    exact ho.step action
  refine ⟨?_, hfaithful.carried, fun p hp hconf => ?_⟩
  · refine List.foldlRecOn (motive := fun o : Observed =>
      o.sent.map Prod.fst = o.world.sent.map Sent.ra) actions _ rfl ?_
    intro o ho action _
    exact Observed.step_complete ho action
  obtain ⟨hready, hhandled, -⟩ := hfaithful.announcing p hp
  refine ⟨?_, hready.armed hconf, hready.soon hconf⟩
  rw [hhandled, State.config, if_pos hconf]

end Minuteman.Radvd
