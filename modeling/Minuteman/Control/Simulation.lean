import Minuteman.Control.Protocol

/-!
# The controller process follows the protocol

Every action of the system is a move of what the controller waits for, or
leaves it as it is.
-/
namespace Minuteman.Control
open Library Datapath Loader Migration Prog

section Runtime
variable {c : Controller} {Q : Addr → Prop} {s : System}

/-- A poll that is handled at once asks the server for the source and rearms itself. -/
theorem handle_b4Poll (h : s.phase ≠ .switching) :
    s.handle c (.timeout .b4Poll) =
      { s with
        b4PollTimer := true
        queue := s.queue ++ [⟨s.incarnation, ⟨.source, s.data.gen⟩,
          .sourceReq s.data.current.aftr⟩] } := by
  simp [System.handle, Controller.handleEvent, h, softwire, System.perform]

/-- Redelivered polls only add polls to the queue. -/
theorem foldl_b4Poll {msgs : List TimeoutMsg} (hmsgs : ∀ msg ∈ msgs, msg = .b4Poll)
    (h : s.phase ≠ .switching) :
    ∃ q armed, (∀ i ∈ q, i.isPoll s.incarnation s.data.gen) ∧
      msgs.foldl (fun s msg => s.handle c (.timeout msg)) s =
        { s with queue := s.queue ++ q, b4PollTimer := armed } := by
  induction msgs generalizing s with
  | nil => exact ⟨[], s.b4PollTimer, by simp, by simp⟩
  | cons msg msgs ih =>
    rw [List.forall_mem_cons] at hmsgs
    obtain ⟨rfl, hmsgs⟩ := hmsgs
    rw [List.foldl_cons, handle_b4Poll h]
    obtain ⟨q, armed, hq, hfold⟩ := @ih
      { s with
        b4PollTimer := true
        queue := s.queue ++ [⟨s.incarnation, ⟨.source, s.data.gen⟩,
          .sourceReq s.data.current.aftr⟩] } hmsgs h
    refine ⟨⟨s.incarnation, ⟨.source, s.data.gen⟩,
      .sourceReq s.data.current.aftr⟩ :: q, armed, ?_, ?_⟩
    · rw [List.forall_mem_cons]
      exact ⟨⟨rfl, rfl, rfl⟩, hq⟩
    · rw [hfold]
      simp

/-- Entering the steady phase with nothing in flight but polls. -/
theorem abstracts_enter_steady (hphase : s.phase = .steady)
    (htimer : s.stateTimer = none) (hasync : s.async = none)
    (hM : ∀ r ∈ s.mailbox, r.isPoll s.data.gen Q)
    (hq : ∀ i ∈ s.queue, i.isPoll s.incarnation s.data.gen)
    (hpolls : ∀ msg ∈ s.postponed, msg = .b4Poll) :
    Abstracts c Q (s.enter c)
      ⟨.steady, s.data, [], .idle, s.softwire, s.world, false⟩ := by
  have hentry : s.handle c .enter =
      { s with stateTimer := if c.dynamicAftr then some .refresh else none } := by
    cases hdyn : c.dynamicAftr <;>
      simp [System.handle, Controller.handleEvent, Controller.enter, hphase, hdyn, System.perform,
        htimer]
  obtain ⟨q, armed, hq', hfold⟩ := @foldl_b4Poll c
    { s with
      stateTimer := if c.dynamicAftr then some .refresh else none
      postponed := [] } s.postponed hpolls (by simp [hphase])
  have henter : s.enter c =
      { s with
        stateTimer := if c.dynamicAftr then some .refresh else none
        b4PollTimer := armed
        postponed := []
        queue := s.queue ++ q
        cutOver := false } := by
    simp only [System.enter, System.redeliver, hentry]
    rw [hfold]
    simp only [hphase, if_true]
  rw [henter]
  refine ⟨hphase, rfl, rfl, rfl, rfl, .steady, rfl, by simp [hasync], ?_, by simp, by simp, by simp⟩
  refine .quiet (Or.inl rfl) hM ?_
  intro i hi
  rcases List.mem_append.mp hi with hi | hi
  · exact hq i hi
  · exact hq' i hi

/-- An event that keeps the phase. -/
theorem dispatch_of_stay {ev : StatemEvent} {d : Data} {e : List Effect}
    (ht : c.handleEvent s.phase s.data ev = ⟨s.phase, d, e⟩)
    (hphase : (e.foldl (System.perform ev) { s with data := d }).phase = s.phase) :
    s.dispatch c ev = e.foldl (System.perform ev) { s with data := d } := by
  have hhandle : s.handle c ev = e.foldl (System.perform ev) { s with data := d } := by
    simp [System.handle, ht]
  rw [System.dispatch, hhandle, if_pos hphase]

/-- An event that changes the phase. -/
theorem dispatch_of_change {ev : StatemEvent} {t : Transition}
    (ht : c.handleEvent s.phase s.data ev = t) (hne : t.phase ≠ s.phase)
    (hphase : (t.effects.foldl (System.perform ev)
      { s with phase := t.phase, data := t.data, stateTimer := none }).phase = t.phase) :
    s.dispatch c ev = System.enter c (t.effects.foldl (System.perform ev)
      { s with phase := t.phase, data := t.data, stateTimer := none }) := by
  have hhandle : s.handle c ev = t.effects.foldl (System.perform ev)
      { s with phase := t.phase, data := t.data, stateTimer := none } := by
    simp [System.handle, ht, hne]
  rw [System.dispatch, hhandle, if_neg (by rw [hphase]; exact hne)]

/-- The phases without an entry action. -/
theorem enter_of_plain (hphase : s.phase = .discovering ∨ s.phase = .priming ∨ s.phase = .switching)
    (hpostponed : s.postponed = []) : s.enter c = s := by
  obtain ⟨inc, phase, data, timer, poll, cap, async, postponed, M, q, sw, w, cut⟩ := s
  obtain rfl : postponed = [] := hpostponed
  rcases hphase with rfl | rfl | rfl <;> rfl

/-- A live controller with nothing but polls in flight and nothing to wait for yet. -/
structure Bare (Q : Addr → Prop) (s : System) : Prop where
  phase : s.phase.closing = false
  timer : s.stateTimer = none
  async : s.async = none
  mail : ∀ r ∈ s.mailbox, r.isPoll s.data.gen Q
  queue : ∀ i ∈ s.queue, i.isPoll s.incarnation s.data.gen
  postponed : s.postponed = []

namespace Bare

theorem not_recovering (h : Bare Q s) : s.phase ≠ .recovering := by
  intro hs
  have hclosing := h.phase
  rw [hs] at hclosing
  cases hclosing

theorem ask (h : Bare Q s) {d : Data} {req : Request} (hasks : s.phase.asks d req)
    (hgen : d.gen = s.data.gen) :
    Abstracts c Q
      { s with data := d, queue := s.queue ++ [⟨s.incarnation, ⟨req.op, s.data.gen⟩, req⟩] }
      ⟨s.phase, d, [], .asked req, s.softwire, s.world, s.cutOver⟩ := by
  refine ⟨rfl, rfl, rfl, rfl, rfl, .asked hasks, ?_, by simp [h.async], ?_, fun _ => h.postponed,
    by simp [h.postponed], fun hr => absurd hr h.not_recovering⟩
  · change s.stateTimer = _
    rw [h.timer]
    cases s.phase <;> rfl
  · rw [h.phase, ← hgen]
    exact .asked (by rw [hgen]; exact h.mail) (by rw [hgen]; exact h.queue) (by simp)

theorem idle (h : Bare Q s) {d : Data} {msg : StateMsg} (hawaited : awaited c s.phase .idle = some msg)
    (hfits : Fits d s.phase .idle) (hgen : d.gen = s.data.gen) {cap : Option ℕ} :
    Abstracts c Q { s with data := d, stateTimer := some msg, drainCapTimer := cap }
      ⟨s.phase, d, [], .idle, s.softwire, s.world, s.cutOver⟩ := by
  refine ⟨rfl, rfl, rfl, rfl, rfl, hfits, hawaited.symm, by simp [h.async], ?_,
    fun _ => h.postponed, by simp [h.postponed], fun hr => absurd hr h.not_recovering⟩
  rw [h.phase]
  exact .quiet (Or.inl rfl) (by rw [hgen]; exact h.mail) (by rw [hgen]; exact h.queue)

/-- The phase becomes steady, with no other effect than to cancel a timer. -/
theorem settle (h : Bare Q s) {d : Data} (hgen : d.gen = s.data.gen) {cap : Option ℕ} :
    Abstracts c Q (System.enter c
        { s with phase := .steady, data := d, stateTimer := none, drainCapTimer := cap })
      ⟨.steady, d, [], .idle, s.softwire, s.world, false⟩ := by
  refine abstracts_enter_steady rfl rfl h.async ?_ ?_ ?_
  · change ∀ r ∈ s.mailbox, r.isPoll d.gen Q
    rw [hgen]
    exact h.mail
  · change ∀ i ∈ s.queue, i.isPoll s.incarnation d.gen
    rw [hgen]
    exact h.queue
  · change ∀ msg ∈ s.postponed, _
    rw [h.postponed]
    simp

def view (s : System) (p : Pending) : View :=
  ⟨s.phase, s.data, [], p, s.softwire, s.world, s.cutOver⟩

end Bare

def answer (s : System) (req : Request) (rep : Reply) : StatemEvent :=
  .response ⟨⟨req.op, s.data.gen⟩, some rep, none⟩

variable {s₀ : System}

theorem deliver_begin (h : Bare Q s) (hphase : s.phase = .priming) (ep : Endpoints) (k : Counts)
    (err : Option String) :
    ∃ v, Abstracts c Q (s.dispatch c (answer s (.beginReq ep) (.countsRep k err))) v ∧
      Move c Q s₀ (Bare.view s (.answered (.beginReq ep) (.countsRep k err))) .deliver v := by
  cases err with
  | none =>
    refine ⟨_, ?_, .begun ep k hphase rfl⟩
    rw [dispatch_of_stay (d := { s.data with baseline := k })
      (e := [.startStateTimeout primingDuration .primed])
      (by simp [answer, Controller.handleEvent, Controller.response, Request.op, onBegin,
        Response.counts]) rfl]
    exact h.idle (d := { s.data with baseline := k }) (by rw [hphase]; rfl)
      (by rw [hphase]; exact .priming) rfl
  | some err =>
    refine ⟨_, ?_, .beginFailed ep k err hphase rfl⟩
    rw [dispatch_of_change (t := migrationFailed s.data)
      (by simp [answer, Controller.handleEvent, Controller.response, Request.op, onBegin,
        Response.counts]) (by simp [migrationFailed, hphase]) rfl]
    exact h.settle (d := (migrationFailed s.data).data) rfl

theorem deliver_counts (h : Bare Q s) (hphase : s.phase = .priming) (k : Counts)
    (err : Option String) :
    ∃ v, Abstracts c Q (s.dispatch c (answer s .countsReq (.countsRep k err))) v ∧
      Move c Q s₀ (Bare.view s (.answered .countsReq (.countsRep k err))) .deliver v := by
  have habort : ∀ why, c.handleEvent s.phase s.data (answer s .countsReq (.countsRep k err)) =
      abort s.data why →
      ∃ v, Abstracts c Q (s.dispatch c (answer s .countsReq (.countsRep k err))) v ∧
        Move c Q s₀ (Bare.view s (.answered .countsReq (.countsRep k err))) .deliver v := by
    intro why ht
    refine ⟨_, ?_, .abandoned _ why hphase rfl⟩
    rw [dispatch_of_stay (by rw [ht, hphase]; rfl) rfl]
    exact h.ask (d := { s.data with abortWhy := why })
      (by rw [hphase]; exact Or.inr (Or.inr (Or.inr rfl))) rfl
  cases err with
  | some err =>
    exact habort ("reading datapath stats: " ++ err) (by
      simp [answer, Controller.handleEvent, Controller.response, Request.op, onCounts,
        Response.counts])
  | none =>
    by_cases hlost : k.affinityInsertFail - s.data.baseline.affinityInsertFail > 0
    · exact habort "" (by
        simp only [answer, Controller.handleEvent, Controller.response, Request.op, onCounts,
          Response.counts, ne_eq, not_true_eq_false, if_false, Option.or, hlost, if_true])
    · refine ⟨_, ?_, .sampled k hphase rfl (by
        change k.affinityInsertFail - s.data.baseline.affinityInsertFail = 0
        omega)⟩
      rw [dispatch_of_stay (d := { s.data with
          recorded := k.affinityInsert - s.data.baseline.affinityInsert })
        (e := [softwire .cutover s.data.gen .cutoverReq])
        (by simp only [answer, Controller.handleEvent, Controller.response, Request.op, onCounts,
          Response.counts, ne_eq, not_true_eq_false, if_false, Option.or, hlost]) rfl]
      exact h.ask (d := { s.data with
          recorded := k.affinityInsert - s.data.baseline.affinityInsert })
        (by rw [hphase]; exact Or.inr (Or.inr (Or.inl rfl))) rfl

theorem deliver_cutover (h : Bare Q s) (hphase : s.phase = .priming) (err : Option String) :
    ∃ v, Abstracts c Q (s.dispatch c (answer s .cutoverReq (.doneRep err))) v ∧
      Move c Q s₀ (Bare.view s (.answered .cutoverReq (.doneRep err))) .deliver v := by
  cases err with
  | some err =>
    refine ⟨_, ?_, .cutoverFailed err hphase rfl⟩
    rw [dispatch_of_stay (d := { s.data with abortWhy := err })
      (e := [softwire .abort s.data.gen .abortReq])
      (by simp [answer, Controller.handleEvent, Controller.response, Request.op, onCutover,
        Response.done, abort, hphase]) rfl]
    exact h.ask (d := { s.data with abortWhy := err })
      (by rw [hphase]; exact Or.inr (Or.inr (Or.inr rfl))) rfl
  | none =>
    refine ⟨_, ?_, .cutOver hphase rfl⟩
    rw [dispatch_of_change (t := ⟨.draining, s.data, []⟩)
      (by simp [answer, Controller.handleEvent, Controller.response, Request.op, onCutover,
        Response.done]) (by simp [hphase]) rfl]
    have henter : System.enter c { s with phase := .draining, stateTimer := none } =
        { s with
          phase := .draining
          data := { s.data with capReached := false }
          stateTimer := some .drainTick
          drainCapTimer := some s.data.migration } := by
      simp [System.enter, System.redeliver, System.handle, Controller.handleEvent,
        Controller.enter, System.perform, h.postponed]
    have hbare : Bare Q { s with phase := .draining, stateTimer := none } :=
      ⟨rfl, rfl, h.async, h.mail, h.queue, h.postponed⟩
    change Abstracts c Q (System.enter c { s with phase := .draining, stateTimer := none }) _
    rw [henter]
    exact hbare.idle (d := { s.data with capReached := false }) rfl .draining rfl

theorem deliver_abort (h : Bare Q s) (hphase : s.phase = .priming) (err : Option String) :
    ∃ v, Abstracts c Q (s.dispatch c (answer s .abortReq (.doneRep err))) v ∧
      Move c Q s₀ (Bare.view s (.answered .abortReq (.doneRep err))) .deliver v := by
  have hsettle : ∀ next, c.handleEvent s.phase s.data (answer s .abortReq (.doneRep err)) =
      ⟨.steady, { s.data with next := next, wait := switchRetry }, []⟩ →
      ∃ v, Abstracts c Q (s.dispatch c (answer s .abortReq (.doneRep err))) v ∧
        Move c Q s₀ (Bare.view s (.answered .abortReq (.doneRep err))) .deliver v := by
    intro next ht
    refine ⟨_, ?_, .aborted err next hphase rfl⟩
    rw [dispatch_of_change ht (by simp [hphase]) rfl]
    exact h.settle (d := { s.data with next := next, wait := switchRetry }) rfl
  cases err with
  | some err =>
    exact hsettle {} (by
      simp [answer, Controller.handleEvent, Controller.response, Request.op, onAbort,
        Response.done, migrationFailed])
  | none =>
    by_cases hwhy : s.data.abortWhy = ""
    · exact hsettle s.data.next (by
        simp [answer, Controller.handleEvent, Controller.response, Request.op, onAbort,
          Response.done, hwhy])
    · exact hsettle {} (by
        simp [answer, Controller.handleEvent, Controller.response, Request.op, onAbort,
          Response.done, migrationFailed, hwhy])

/-- The drain goes on: its next tick is armed. -/
theorem deliver_undrained (h : Bare Q s) (hphase : s.phase = .draining) {req : Request} {rep : Reply}
    (hrep : rep ≠ .doneRep none)
    (ht : c.handleEvent s.phase s.data (answer s req rep) =
      ⟨s.phase, s.data, [.startStateTimeout drainInterval .drainTick]⟩) :
    ∃ v, Abstracts c Q (s.dispatch c (answer s req rep)) v ∧
      Move c Q s₀ (Bare.view s (.answered req rep)) .deliver v := by
  refine ⟨_, ?_, .undrained req rep hphase rfl hrep⟩
  rw [dispatch_of_stay ht rfl]
  exact h.idle (d := s.data) (by rw [hphase]; rfl) (by rw [hphase]; exact .draining) rfl

theorem deliver_gc (h : Bare Q s) (hphase : s.phase = .draining) (n : ℕ) (err : Option String) :
    ∃ v, Abstracts c Q (s.dispatch c (answer s .gcReq (.gcRep n err))) v ∧
      Move c Q s₀ (Bare.view s (.answered .gcReq (.gcRep n err))) .deliver v := by
  cases err with
  | some err =>
    exact deliver_undrained h hphase (by simp) (by
      simp [answer, Controller.handleEvent, Controller.response, Request.op, onGc, Response.gc])
  | none =>
    by_cases hleft : 0 < n ∧ s.data.capReached = false
    · exact deliver_undrained h hphase (by simp) (by
        simp [answer, Controller.handleEvent, Controller.response, Request.op, onGc, Response.gc,
          hleft])
    · refine ⟨_, ?_, .drained n hphase rfl⟩
      rw [dispatch_of_stay (d := s.data) (e := [softwire .complete s.data.gen .completeReq])
        (by simp only [answer, Controller.handleEvent, Controller.response, Request.op, onGc,
          Response.gc, ne_eq, not_true_eq_false, if_false, Option.or, hleft]) rfl]
      exact h.ask (d := s.data) (by rw [hphase]; exact Or.inr rfl) rfl

theorem deliver_complete (h : Bare Q s) (hphase : s.phase = .draining) (err : Option String) :
    ∃ v, Abstracts c Q (s.dispatch c (answer s .completeReq (.doneRep err))) v ∧
      Move c Q s₀ (Bare.view s (.answered .completeReq (.doneRep err))) .deliver v := by
  cases err with
  | some err =>
    exact deliver_undrained h hphase (by simp) (by
      simp [answer, Controller.handleEvent, Controller.response, Request.op, onComplete,
        Response.done])
  | none =>
    refine ⟨_, ?_, .completed hphase rfl⟩
    rw [dispatch_of_change (t := ⟨.steady, { s.data with
        current := s.data.next, next := {}, wait := nextRefreshWait s.data.next.refresh },
      [.cancelTimeout .drainCapTimer]⟩)
      (by simp [answer, Controller.handleEvent, Controller.response, Request.op, onComplete,
        Response.done]) (by simp [hphase]) rfl]
    exact h.settle (d := { s.data with
      current := s.data.next, next := {}, wait := nextRefreshWait s.data.next.refresh }) rfl

/-- The answer that a live phase waits for is delivered. -/
theorem deliver_answered (h : Bare Q s) {req : Request} {rep : Reply}
    (hfits : Fits s.data s.phase (.answered req rep)) :
    ∃ v, Abstracts c Q (s.dispatch c (answer s req rep)) v ∧
      Move c Q s₀ (Bare.view s (.answered req rep)) .deliver v := by
  have hlive := h.phase
  obtain ⟨hasks, hrep⟩ := hfits.of_answered
  cases hphase : s.phase with
  | recovering => rw [hphase] at hlive; cases hlive
  | switching => rw [hphase] at hlive; cases hlive
  | steady => rw [hphase] at hasks; exact hasks.elim
  | discovering => rw [hphase] at hasks; exact hasks.elim
  | priming =>
    rw [hphase] at hasks
    rcases hasks with rfl | rfl | rfl | rfl <;> cases rep <;> try exact hrep.elim
    · exact deliver_begin h hphase _ _ _
    · exact deliver_counts h hphase _ _
    · exact deliver_cutover h hphase _
    · exact deliver_abort h hphase _
  | draining =>
    rw [hphase] at hasks
    rcases hasks with rfl | rfl <;> cases rep <;> try exact hrep.elim
    · exact deliver_gc h hphase _ _
    · exact deliver_complete h hphase _

end Runtime

/-- Every request is answered in kind. -/
theorem Softwire.handle_fits (sw : Softwire) (m : Maps) (a : Answers) (req : Request) :
    (sw.handle m a req).reply.fits req := by
  cases req <;> simp only [Softwire.handle, Softwire.call] <;> split <;> try trivial
  all_goals split <;> trivial

def Action.Reports (Q : Addr → Prop) : Action → Prop
  | .serve a => a.sourceErr = none → a.sourceOk = true → Q a.source
  | _ => True

theorem Action.reports_true (act : Action) : act.Reports fun _ => True := by
  cases act with
  | serve a => exact fun _ _ => trivial
  | _ => trivial

/-- The answer to a poll is a poll's. -/
theorem isPoll_handle {Q : Addr → Prop} {item : Item} {inc gen : ℕ} {sw : Softwire} {m : Maps}
    {a : Answers} (hpoll : item.isPoll inc gen) (hreports : Action.Reports Q (.serve a)) :
    Response.isPoll ⟨item.tag, some (sw.handle m a item.req).reply, none⟩ gen Q := by
  obtain ⟨owner, tag, req⟩ := item
  obtain ⟨-, rfl, hsource⟩ := hpoll
  refine ⟨rfl, ?_⟩
  cases req <;> try cases hsource
  cases hrouter : sw.hasRouter
  · simp [Softwire.handle, hrouter, Response.source]
  · simpa [Softwire.handle, hrouter, Response.source, Action.Reports] using hreports

def System.Along (c : Controller) (ok : System → Action → Prop) : System → List Action → Prop
  | _, [] => True
  | s, act :: actions => ok s act ∧ System.Along c ok (s.step c act) actions

/-- A condition on the actions alone. -/
theorem System.along_of_forall (c : Controller) (s : System) {P : Action → Prop}
    {actions : List Action} (h : ∀ act ∈ actions, P act) : s.Along c (fun _ => P) actions := by
  induction actions generalizing s with
  | nil => trivial
  | cons act actions ih =>
    rw [List.forall_mem_cons] at h
    exact ⟨h.1, ih _ h.2⟩

/-- The B4 changes to a usable source only. -/
theorem nextB4_changed {current queried : Addr} {ok : Bool} (h : (nextB4 current queried ok).2 = true) :
    ok = true ∧ usableB4 queried = true ∧ queried ≠ current ∧
      (nextB4 current queried ok).1 = queried := by
  simp only [nextB4] at h ⊢
  split_ifs at h ⊢ with hsame
  simp only [Bool.or_eq_true, not_or, Bool.not_eq_true', Bool.not_eq_false, beq_iff_eq] at hsame
  exact ⟨hsame.1.1, hsame.1.2, hsame.2, rfl⟩

section Step
variable {c : Controller} {Q : Addr → Prop} {s : System} {v : View}

theorem abstracts_spawn {inc : ℕ} {st : List Request}
    (hflight : InFlight inc 0 Q true [] (s.queue ++ [⟨inc, ⟨.recover, 0⟩, .recoverReq⟩]) st
      (.asked .recoverReq)) :
    Abstracts c Q (s.spawn inc)
      ⟨.recovering, {}, st, .asked .recoverReq, s.softwire, s.world, false⟩ :=
  ⟨rfl, rfl, rfl, rfl, rfl, .asked rfl, rfl, by simp [System.spawn], hflight, fun _ => rfl,
    by simp [System.spawn], fun _ => rfl⟩

namespace Abstracts

theorem packet (h : Abstracts c Q s v) (p : Packet) :
    Abstracts c Q (s.step c (.packet p)) { v with world := v.world.step (.packet p) } :=
  ⟨h.phase, h.data, h.softwire, congrArg (fun w => w.step (.packet p)) h.world, h.cutOver, h.fits,
    h.timer, h.async, h.flight, h.postponed, h.polls, h.unarmed⟩

theorem crash (h : Abstracts c Q s v) (s' : System) (hinc : s'.incarnation = s.incarnation)
    (hqueue : s'.queue = s.queue) (hsoftwire : s'.softwire = s.softwire)
    (hworld : s'.world = s.world) :
    Abstracts c Q (s'.spawn (s'.incarnation + 1))
      ⟨.recovering, {}, v.stale ++ v.pending.request, .asked .recoverReq, v.softwire, v.world,
        false⟩ := by
  rw [← h.softwire, ← h.world, ← hsoftwire, ← hworld]
  refine abstracts_spawn ?_
  rw [hqueue, hinc]
  exact h.flight.crash h.fits.not_source

/-- The drain cap of this migration is noted; that of an earlier one is ignored. -/
theorem drainCap (h : Abstracts c Q s v) :
    ∃ v', Abstracts c Q (s.step c .drainCap) v' ∧ (v' = v ∨ Move c Q s v .drainCap v') := by
  cases hcap : s.drainCapTimer with
  | none =>
    have hstep : s.step c .drainCap = s := by simp only [System.step, hcap]
    rw [hstep]
    exact ⟨v, h, Or.inl rfl⟩
  | some n =>
    have hstep : s.step c .drainCap = { s with
        drainCapTimer := none
        data := if n = s.data.migration then { s.data with capReached := true } else s.data } := by
      simp only [System.step, hcap]
      rw [dispatch_of_stay (s := { s with drainCapTimer := none }) rfl rfl]
      rfl
    rw [hstep]
    split_ifs
    · refine ⟨_, ?_, Or.inr .cap⟩
      rw [h.data]
      exact ⟨h.phase, rfl, h.softwire, h.world, h.cutOver, h.fits.capReached true, h.timer, h.async,
        h.flight,
        h.postponed, h.polls, h.unarmed⟩
    · exact ⟨v, ⟨h.phase, h.data, h.softwire, h.world, h.cutOver, h.fits, h.timer, h.async, h.flight,
        h.postponed, h.polls, h.unarmed⟩, Or.inl rfl⟩

/-- A poll asks for the source, or waits for a switch to end. -/
theorem b4Poll (h : Abstracts c Q s v) : Abstracts c Q (s.step c .b4Poll) v := by
  cases harmed : s.b4PollTimer with
  | false =>
    have hstep : s.step c .b4Poll = s := by simp [System.step, harmed]
    rw [hstep]
    exact h
  | true =>
    by_cases hswitching : s.phase = .switching
    · have hstep : s.step c .b4Poll =
          { s with b4PollTimer := false, postponed := s.postponed ++ [.b4Poll] } := by
        simp only [System.step, harmed, if_true]
        rw [dispatch_of_stay (s := { s with b4PollTimer := false }) (d := s.data)
          (e := [.postpone]) (by simp [Controller.handleEvent, hswitching]) rfl]
        rfl
      rw [hstep]
      refine ⟨h.phase, h.data, h.softwire, h.world, h.cutOver, h.fits, h.timer, h.async, h.flight,
        fun hne => absurd (h.phase.symm.trans hswitching) hne, ?_, fun _ => rfl⟩
      rw [List.forall_mem_append, List.forall_mem_singleton]
      exact ⟨h.polls, rfl⟩
    · have hstep : s.step c .b4Poll =
          { s with
            b4PollTimer := true
            queue := s.queue ++ [⟨s.incarnation, ⟨.source, s.data.gen⟩,
              .sourceReq s.data.current.aftr⟩] } := by
        simp only [System.step, harmed, if_true]
        rw [System.dispatch, handle_b4Poll (s := { s with b4PollTimer := false }) hswitching,
          if_pos rfl]
      have hlive : v.phase.closing = false := by
        have hrecovering : v.phase ≠ .recovering := fun hr =>
          Bool.noConfusion ((h.unarmed hr).symm.trans harmed)
        rw [h.phase] at hswitching
        cases hv : v.phase <;> simp_all [Phase.closing]
      have hflight := h.flight
      rw [hlive] at hflight
      rw [hstep]
      refine ⟨h.phase, h.data, h.softwire, h.world, h.cutOver, h.fits, h.timer, h.async, ?_,
        h.postponed, h.polls, ?_⟩
      · rw [hlive, h.data]
        exact hflight.poll ⟨rfl, rfl, rfl⟩
      · intro hr
        rw [hr] at hlive
        cases hlive

/-- A controller that waits for a timeout or a discovery is bare once that has come. -/
theorem bare (h : Abstracts c Q s v) (hp : v.pending = .idle ∨ v.pending = .async) :
    v.stale = [] ∧ Bare Q { s with stateTimer := none, async := none } := by
  obtain ⟨hlive, hstale, hM, hq⟩ := h.flight.of_quiet hp
  refine ⟨hstale, by rw [h.phase]; exact hlive, rfl, rfl, by rw [h.data]; exact hM,
    by rw [h.data]; exact hq, h.postponed ?_⟩
  intro hs
  rw [hs] at hlive
  cases hlive

theorem eq_view (h : Abstracts c Q s v) (hstale : v.stale = []) : v = Bare.view s v.pending := by
  obtain ⟨phase, data, stale, pending, softwire, world, cutOver⟩ := v
  obtain rfl : s.phase = phase := h.phase
  obtain rfl : s.data = data := h.data
  obtain rfl : s.softwire = softwire := h.softwire
  obtain rfl : s.world = world := h.world
  obtain rfl : s.cutOver = cutOver := h.cutOver
  obtain rfl : stale = [] := hstale
  rfl

theorem stateTimeout (h : Abstracts c Q s v) :
    ∃ v', Abstracts c Q (s.step c .stateTimeout) v' ∧
      (v' = v ∨ Move c Q s v .stateTimeout v') := by
  cases htimer : s.stateTimer with
  | none =>
    have hstep : s.step c .stateTimeout = s := by simp only [System.step, htimer]
    rw [hstep]
    exact ⟨v, h, Or.inl rfl⟩
  | some msg =>
    have hstep : s.step c .stateTimeout =
        System.dispatch c { s with stateTimer := none } (.stateTimeout msg) := by
      simp only [System.step, htimer]
    have hawaited : awaited c v.phase v.pending = some msg := h.timer.symm.trans htimer
    have hidle : v.pending = .idle := by
      revert hawaited
      cases v.phase <;> cases v.pending <;> simp [awaited]
    obtain ⟨hstale, hbare⟩ := h.bare (Or.inl hidle)
    have hasync : s.async = none := by
      cases hs : s.async with
      | none => rfl
      | some token => cases hidle.symm.trans (h.async.mp (by rw [hs]; rfl))
    have hsame : ({ s with stateTimer := none, async := none } : System) =
        { s with stateTimer := none } := by rw [← hasync]
    rw [hsame] at hbare
    have hview := h.eq_view hstale
    have hfits := h.fits
    rw [hidle] at hfits hawaited hview
    rw [hstep, hview]
    rcases hfits.of_idle with hphase | hphase | hphase
    · rw [hphase, awaited] at hawaited
      obtain rfl : msg = .refresh := by
        split_ifs at hawaited
        exact (Option.some.inj hawaited).symm
      have hs : s.phase = .steady := h.phase.trans hphase
      refine ⟨_, ?_, Or.inr (.refresh hs)⟩
      rw [dispatch_of_change (s := { s with stateTimer := none })
        (t := ⟨.discovering, s.data, [.async s.data.current.hb46ppToken]⟩) rfl
        (by simp [hs]) rfl]
      change Abstracts c Q (System.enter c { s with
        phase := .discovering, stateTimer := none, async := some s.data.current.hb46ppToken }) _
      rw [enter_of_plain (s := { s with
        phase := .discovering, stateTimer := none, async := some s.data.current.hb46ppToken })
        (Or.inl rfl) hbare.postponed]
      refine ⟨rfl, rfl, rfl, rfl, rfl, .discovering, rfl, by simp, ?_,
        fun _ => hbare.postponed, by simp [show s.postponed = [] from hbare.postponed], by simp⟩
      exact .quiet (Or.inr rfl) hbare.mail hbare.queue
    · rw [hphase] at hawaited
      obtain rfl : msg = .primed := (Option.some.inj hawaited).symm
      have hs : s.phase = .priming := h.phase.trans hphase
      refine ⟨_, ?_, Or.inr (.primed hs rfl)⟩
      rw [dispatch_of_stay (s := { s with stateTimer := none }) (d := s.data)
        (e := [Control.softwire .counts s.data.gen .countsReq]) rfl rfl]
      exact hbare.ask (d := s.data) (by change s.phase.asks _ _; rw [hs]; exact Or.inr (Or.inl rfl)) rfl
    · rw [hphase] at hawaited
      obtain rfl : msg = .drainTick := (Option.some.inj hawaited).symm
      have hs : s.phase = .draining := h.phase.trans hphase
      refine ⟨_, ?_, Or.inr (.tick hs rfl)⟩
      rw [dispatch_of_stay (s := { s with stateTimer := none }) (d := s.data)
        (e := [Control.softwire .gc s.data.gen .gcReq]) rfl rfl]
      exact hbare.ask (d := s.data) (by change s.phase.asks _ _; rw [hs]; exact Or.inl rfl) rfl

/-- A discovery attempt that has come back leaves the controller bare. -/
theorem bare_async (h : Abstracts c Q s v) {token : String} (htoken : s.async = some token) :
    v = Bare.view s .async ∧ s.phase = .discovering ∧ Bare Q { s with async := none } := by
  have hasync : v.pending = .async := h.async.mp (by rw [htoken]; rfl)
  obtain ⟨hstale, hbare⟩ := h.bare (Or.inr hasync)
  have hview := h.eq_view hstale
  have hfits := h.fits
  rw [hasync] at hview hfits
  have htimer : s.stateTimer = none := by
    rw [h.timer, hasync]
    cases v.phase <;> rfl
  have hsame : ({ s with stateTimer := none, async := none } : System) =
      { s with async := none } := by rw [← htimer]
  rw [hsame] at hbare
  exact ⟨hview, h.phase.trans hfits.of_async, hbare⟩

/-- A discovery attempt that changes nothing leads back to the steady phase. -/
theorem discovery_kept (hphase : s.phase = .discovering) (hbare : Bare Q { s with async := none })
    (act : Action) {ev : StatemEvent} {d : Data}
    (ht : c.handleEvent s.phase s.data ev = ⟨.steady, d, []⟩) (hb4 : d.b4 = s.data.b4)
    (haftr : d.current.aftr = s.data.current.aftr) (hgen : d.gen = s.data.gen) :
    ∃ v', Abstracts c Q (System.dispatch c { s with async := none } ev) v' ∧
      Move c Q s (Bare.view s .async) act v' := by
  refine ⟨_, ?_, .kept act d hphase hb4 haftr hgen⟩
  rw [dispatch_of_change (s := { s with async := none }) ht (by simp [hphase]) rfl]
  exact hbare.settle (d := d) hgen

theorem discoverFailed (h : Abstracts c Q s v) (err : String) :
    ∃ v', Abstracts c Q (s.step c (.discoverFailed err)) v' ∧
      (v' = v ∨ Move c Q s v (.discoverFailed err) v') := by
  cases htoken : s.async with
  | none =>
    have hstep : s.step c (.discoverFailed err) = s := by simp only [System.step, htoken]
    rw [hstep]
    exact ⟨v, h, Or.inl rfl⟩
  | some token =>
    obtain ⟨rfl, hphase, hbare⟩ := h.bare_async htoken
    have hstep : s.step c (.discoverFailed err) =
        System.dispatch c { s with async := none } (.asyncResult none (some err)) := by
      simp only [System.step, htoken]
    rw [hstep]
    have ht : c.handleEvent s.phase s.data (.asyncResult none (some err)) =
        ⟨.steady, { s.data with
          current := { s.data.current with refresh := 0 }
          wait := nextRefreshWait 0 }, []⟩ := rfl
    obtain ⟨v', hv', hmove⟩ := discovery_kept hphase hbare (.discoverFailed err) ht rfl rfl rfl
    exact ⟨v', hv', Or.inr hmove⟩

/-- The end of a discovery attempt: another AFTR starts a migration. -/
theorem discovered (h : Abstracts c Q s v) (disc : Discovery) (err : Option String) (retryIn : ℤ) :
    ∃ v', Abstracts c Q (s.step c (.discovered disc err retryIn)) v' ∧
      (v' = v ∨ Move c Q s v (.discovered disc err retryIn) v') := by
  cases htoken : s.async with
  | none =>
    have hstep : s.step c (.discovered disc err retryIn) = s := by simp only [System.step, htoken]
    rw [hstep]
    exact ⟨v, h, Or.inl rfl⟩
  | some token =>
    obtain ⟨rfl, hphase, hbare⟩ := h.bare_async htoken
    have hstep : s.step c (.discovered disc err retryIn) = System.dispatch c { s with async := none }
        (.asyncResult (some (.discoverRep disc err retryIn)) none) := by
      simp only [System.step, htoken]
    rw [hstep]
    have hkept : ∀ d, c.handleEvent s.phase s.data
        (.asyncResult (some (.discoverRep disc err retryIn)) none) = ⟨.steady, d, []⟩ →
        d.b4 = s.data.b4 → d.current.aftr = s.data.current.aftr → d.gen = s.data.gen →
        ∃ v', Abstracts c Q (System.dispatch c { s with async := none }
          (.asyncResult (some (.discoverRep disc err retryIn)) none)) v' ∧
          (v' = Bare.view s .async ∨
            Move c Q s (Bare.view s .async) (.discovered disc err retryIn) v') := by
      intro d ht hb4 haftr hgen
      obtain ⟨v', hv', hmove⟩ := discovery_kept hphase hbare (.discovered disc err retryIn) ht hb4
        haftr hgen
      exact ⟨v', hv', Or.inr hmove⟩
    cases err with
    | some err =>
      exact hkept { s.data with
        current := { s.data.current with refresh := retryIn }
        wait := nextRefreshWait retryIn } rfl rfl rfl rfl
    | none =>
      by_cases haftr : disc.aftr = s.data.current.aftr
      · refine hkept { s.data with current := disc, wait := nextRefreshWait disc.refresh } ?_ rfl
          haftr rfl
        simp [Controller.handleEvent, Controller.response, onDiscover, Response.discover, haftr]
      · refine ⟨_, ?_, Or.inr (.migrate disc retryIn hphase haftr)⟩
        have ht : c.handleEvent s.phase s.data
            (.asyncResult (some (.discoverRep disc none retryIn)) none) =
            ⟨.priming, { s.data with next := disc, migration := s.data.migration + 1 },
              [Control.softwire .begin s.data.gen (.beginReq ⟨s.data.b4, disc.aftr⟩)]⟩ := by
          simp [Controller.handleEvent, Controller.response, onDiscover, Response.discover, haftr]
        have hprimed : Bare Q { s with phase := .priming, stateTimer := none, async := none } :=
          ⟨rfl, rfl, rfl, hbare.mail, hbare.queue, hbare.postponed⟩
        rw [dispatch_of_change (s := { s with async := none }) ht (by simp [hphase]) rfl]
        change Abstracts c Q (System.enter c { s with
          phase := .priming
          data := { s.data with next := disc, migration := s.data.migration + 1 }
          stateTimer := none
          async := none
          queue := s.queue ++ [⟨s.incarnation, ⟨.begin, s.data.gen⟩,
            .beginReq ⟨s.data.b4, disc.aftr⟩⟩] }) _
        rw [enter_of_plain (Or.inr (Or.inl rfl)) (by exact hbare.postponed)]
        exact hprimed.ask (d := { s.data with next := disc, migration := s.data.migration + 1 })
          (Or.inl rfl) rfl

/-- A request is served: the server, the datapath and the messages change, nothing else does. -/
theorem served (h : Abstracts c Q s v) {a : Answers} {item : Item} {rest : List Item}
    (hqueue : s.queue = item :: rest) {st : List Request} {p : Pending}
    (hfits : Fits v.data v.phase p) (htimer : awaited c v.phase p = awaited c v.phase v.pending)
    (hasync : p = .async ↔ v.pending = .async)
    (hflight : InFlight s.incarnation v.data.gen Q v.phase.closing
      (if item.owner = s.incarnation then
        s.mailbox ++ [⟨item.tag, some (v.softwire.handle v.world.maps a item.req).reply, none⟩]
        else s.mailbox) rest st p) :
    Abstracts c Q (s.step c (.serve a)) { v.serve a item.req with stale := st, pending := p } := by
  have hstep : s.step c (.serve a) =
      { s with
        queue := rest
        softwire := (s.softwire.handle s.world.maps a item.req).softwire
        world := worldAfter s.world (s.softwire.handle s.world.maps a item.req).event
        mailbox := if item.owner = s.incarnation then
          s.mailbox ++ [⟨item.tag, some (s.softwire.handle s.world.maps a item.req).reply, none⟩]
          else s.mailbox
        cutOver := s.cutOver ||
          (item.req == .cutoverReq &&
            (s.softwire.handle s.world.maps a item.req).reply.isDone) } := by
    simp only [System.step, System.serve, hqueue]
  rw [hstep, h.softwire, h.world, h.cutOver]
  exact ⟨h.phase, h.data, rfl, rfl, rfl, hfits, h.timer.trans htimer.symm, h.async.trans hasync.symm,
    hflight, h.postponed, h.polls, h.unarmed⟩

/-- A poll is served without touching the softwire. -/
theorem serve_source {a : Answers} {req : Request} (hreq : req.isSource = true) :
    v.serve a req = v := by
  cases req <;> try cases hreq
  obtain ⟨ph, d, st, p, ⟨active, target, migrating, hasRouter⟩, w, cut⟩ := v
  cases hasRouter <;> simp [View.serve, Softwire.handle, worldAfter]

theorem serve (h : Abstracts c Q s v) {a : Answers} (hreports : Action.Reports Q (.serve a)) :
    ∃ v', Abstracts c Q (s.step c (.serve a)) v' ∧ (v' = v ∨ Move c Q s v (.serve a) v') := by
  have hflight := h.flight
  cases hqueue : s.queue with
  | nil =>
    have hstep : s.step c (.serve a) = s := by simp only [System.step, System.serve, hqueue]
    rw [hstep]
    exact ⟨v, h, Or.inl rfl⟩
  | cons item rest =>
    rw [hqueue] at hflight
    have hasked : ∀ req, v.pending = .asked req → v.stale = [] →
        item = ⟨s.incarnation, ⟨req.op, v.data.gen⟩, req⟩ →
        (∀ rep, InFlight s.incarnation v.data.gen Q v.phase.closing
          (s.mailbox ++ [⟨⟨req.op, v.data.gen⟩, some rep, none⟩]) rest [] (.answered req rep)) →
        ∃ v', Abstracts c Q (s.step c (.serve a)) v' ∧ (v' = v ∨ Move c Q s v (.serve a) v') := by
      rintro req hp hstale rfl hnext
      have hfits := h.fits
      rw [hp] at hfits
      refine ⟨_, h.served hqueue (p := .answered req (v.softwire.handle v.world.maps a req).reply)
        (.answered hfits.of_asked (Softwire.handle_fits _ _ _ _)) ?_ (by simp [hp]) ?_,
        Or.inr (.serve a req rest hstale hp hqueue)⟩
      · rw [hp]
        cases v.phase <;> rfl
      · rw [if_pos rfl]
        change InFlight _ _ _ _ _ _ v.stale _
        rw [hstale]
        exact hnext _
    cases hclosing : v.phase.closing with
    | false =>
      rw [hclosing] at hflight hasked
      rcases hflight.serve_live with ⟨hpoll, hnext⟩ | ⟨req, hp, hitem, hstale, hnext⟩
      · have hserved := h.served hqueue (a := a) h.fits rfl Iff.rfl (by
          rw [if_pos hpoll.1, hclosing]
          exact hnext _ (isPoll_handle hpoll hreports))
        rw [serve_source hpoll.2.2] at hserved
        exact ⟨v, hserved, Or.inl rfl⟩
      · exact hasked req hp hstale hitem hnext
    | true =>
      rw [hclosing] at hflight hasked
      rcases hflight.serve_closing with ⟨hgen, hnext⟩ | ⟨req, hp, hitem, hstale, hnext⟩
      · have hmail : ∀ {st : List Request}, (∀ M', (∀ r ∈ M', r.tag.gen ≠ v.data.gen) →
            InFlight s.incarnation v.data.gen Q true (s.mailbox ++ M') rest st v.pending) →
            InFlight s.incarnation v.data.gen Q v.phase.closing
              (if item.owner = s.incarnation then s.mailbox ++
                [⟨item.tag, some (v.softwire.handle v.world.maps a item.req).reply, none⟩]
                else s.mailbox) rest st v.pending := by
          intro st hnext
          rw [hclosing]
          split_ifs with howner
          · exact hnext _ (by simpa using hgen howner)
          · rw [← List.append_nil s.mailbox]
            exact hnext [] (by simp)
        rcases hnext with ⟨hsource, hnext⟩ | ⟨-, orphans, hst, hnext⟩
        · have hserved := h.served hqueue (a := a) h.fits rfl Iff.rfl (hmail hnext)
          rw [serve_source hsource] at hserved
          exact ⟨v, hserved, Or.inl rfl⟩
        · exact ⟨_, h.served hqueue (a := a) h.fits rfl Iff.rfl (hmail hnext),
            Or.inr (.stale a item rest orphans hqueue hst)⟩
      · exact hasked req hp hstale hitem hnext

/-- A poll's answer to a live controller: another usable source starts a hard switch. -/
theorem deliver_poll (h : Abstracts c Q s v) {r : Response} {M : List Response}
    (hmail : s.mailbox = r :: M) (hlive : v.phase.closing = false) (hpoll : r.isPoll v.data.gen Q)
    (hflight : InFlight s.incarnation v.data.gen Q false M s.queue v.stale v.pending) :
    ∃ v', Abstracts c Q (s.step c .deliver) v' ∧ (v' = v ∨ Move c Q s v .deliver v') := by
  have hstep : s.step c .deliver = System.dispatch c { s with mailbox := M } (.response r) := by
    simp only [System.step, hmail]
  have hevent : c.handleEvent s.phase s.data (.response r) = onSource s.phase s.data r := by
    simp [Controller.handleEvent, Controller.response, hpoll.1, h.data]
  have hstay : onSource s.phase s.data r = ⟨s.phase, s.data, []⟩ →
      ∃ v', Abstracts c Q (s.step c .deliver) v' ∧ (v' = v ∨ Move c Q s v .deliver v') := by
    intro hsource
    rw [hstep, dispatch_of_stay (s := { s with mailbox := M }) (hevent.trans hsource) rfl]
    exact ⟨v, ⟨h.phase, h.data, h.softwire, h.world, h.cutOver, h.fits, h.timer, h.async,
      by rw [hlive]; exact hflight, h.postponed, h.polls, h.unarmed⟩, Or.inl rfl⟩
  cases herr : r.source.2 with
  | some err => exact hstay (by simp [onSource, herr])
  | none =>
    by_cases hchanged : (nextB4 s.data.b4 r.source.1.1 r.source.1.2).2 = true
    · obtain ⟨hok, husable, hne, hb4⟩ := nextB4_changed hchanged
      have hswitch : c.handleEvent s.phase s.data (.response r) =
          Control.hardSwitch s.phase s.data r.source.1.1 := by
        simp [hevent, onSource, herr, hchanged, hb4]
      refine ⟨_, ?_, Or.inr (.hardSwitch r.source.1.1 hlive husable (hpoll.2 herr hok)
        (by rw [← h.data]; exact hne))⟩
      have hasync : s.phase ≠ .discovering → s.async = none := by
        intro hne
        cases hs : s.async with
        | none => rfl
        | some token =>
          have hfits := h.fits
          rw [h.async.mp (by rw [hs]; rfl)] at hfits
          exact absurd (h.phase.trans hfits.of_async) hne
      have hperformed : (Control.hardSwitch s.phase s.data r.source.1.1).effects.foldl
          (System.perform (.response r)) { s with
            phase := .switching
            data := (Control.hardSwitch s.phase s.data r.source.1.1).data
            stateTimer := none
            mailbox := M } =
          { s with
            phase := .switching
            data := (Control.hardSwitch s.phase s.data r.source.1.1).data
            stateTimer := none
            async := none
            mailbox := M
            queue := s.queue ++ [⟨s.incarnation, ⟨.switch, s.data.gen + 1⟩, .switchReq
              ⟨r.source.1.1,
                (Control.hardSwitch s.phase s.data r.source.1.1).data.switchTo.aftr⟩⟩] } := by
        by_cases hdisc : s.phase = .discovering
        · simp [Control.hardSwitch, hdisc, Control.softwire, System.perform]
        · simp [Control.hardSwitch, hdisc, Control.softwire, System.perform, hasync hdisc]
      have hne : s.phase ≠ .switching := by
        intro hs
        rw [← h.phase, hs] at hlive
        cases hlive
      rw [hstep, dispatch_of_change (s := { s with mailbox := M }) hswitch
        (by simpa [Control.hardSwitch] using hne.symm)
        (by exact congrArg System.phase hperformed)]
      change Abstracts c Q (System.enter c (List.foldl _ { s with
        phase := .switching
        data := (Control.hardSwitch s.phase s.data r.source.1.1).data
        stateTimer := none
        mailbox := M } _)) _
      rw [hperformed, enter_of_plain (Or.inr (Or.inr rfl))
        (by exact h.postponed (by rw [← h.phase]; exact hne))]
      rw [← h.phase, ← h.data]
      rw [← h.data] at hflight
      refine ⟨rfl, rfl, h.softwire, h.world, h.cutOver, .asked rfl, rfl, by simp, ?_,
        fun hne => absurd rfl hne, h.polls, by simp⟩
      exact hflight.hardSwitch h.fits.not_source _
    · exact hstay (by simp [onSource, herr, hchanged])

/-- The answer that closes a recovery or a hard switch. -/
theorem deliver_last (h : Abstracts c Q s v) {req : Request} {rep : Reply}
    (hp : v.pending = .answered req rep) (hclosing : v.phase.closing = true)
    (hmail : s.mailbox = [⟨⟨req.op, v.data.gen⟩, some rep, none⟩]) (hqueue : s.queue = [])
    (hstale : v.stale = []) :
    ∃ v', Abstracts c Q (s.step c .deliver) v' ∧ (v' = v ∨ Move c Q s v .deliver v') := by
  have hview := h.eq_view hstale
  have hfits := h.fits
  rw [hp] at hview hfits
  have hasync : s.async = none := by
    cases hs : s.async with
    | none => rfl
    | some token => cases hp.symm.trans (h.async.mp (by rw [hs]; rfl))
  have hstep : s.step c .deliver = System.dispatch c { s with mailbox := [] } (answer s req rep) := by
    simp only [System.step, hmail, answer, h.data]
  have hsettle : ∀ (d : Data) (armed : Bool), Abstracts c Q
      (System.enter c { s with
        phase := .steady, data := d, stateTimer := none, b4PollTimer := armed, mailbox := [] })
      ⟨.steady, d, [], .idle, s.softwire, s.world, false⟩ := fun d armed =>
    abstracts_enter_steady rfl rfl hasync (by simp) (by simp [hqueue]) h.polls
  obtain ⟨hasks, hrep⟩ := hfits.of_answered
  rw [← h.phase] at hclosing hasks
  cases hphase : s.phase with
  | steady => rw [hphase] at hclosing; cases hclosing
  | discovering => rw [hphase] at hclosing; cases hclosing
  | priming => rw [hphase] at hclosing; cases hclosing
  | draining => rw [hphase] at hclosing; cases hclosing
  | recovering =>
    rw [hphase] at hasks
    obtain rfl : req = .recoverReq := hasks
    cases rep <;> try exact hrep.elim
    rename_i ep err
    cases err with
    | some err =>
      refine ⟨_, ?_, Or.inr (.crash .deliver)⟩
      rw [hstep, dispatch_of_stay (s := { s with mailbox := [] }) (d := s.data) (e := [.stop err])
        (by simp [answer, Controller.handleEvent, Controller.response, Request.op,
          Controller.onRecover, Response.recovered]) hphase.symm]
      exact h.crash { s with mailbox := [] } rfl rfl rfl rfl
    | none =>
      rw [hview]
      refine ⟨_, ?_, Or.inr (.recovered ep hphase rfl)⟩
      rw [hstep, dispatch_of_change (s := { s with mailbox := [] }) (t := c.recovered s.data ep)
        (by simp [answer, Controller.handleEvent, Controller.response, Request.op,
          Controller.onRecover, Response.recovered])
        (by simp [Controller.recovered, hphase])
        (by cases hdyn : c.dynamicB4 <;> simp [Controller.recovered, hdyn, System.perform])]
      cases hdyn : c.dynamicB4 with
      | false =>
        rw [show (c.recovered s.data ep).effects = [] by simp [Controller.recovered, hdyn]]
        exact hsettle (c.recovered s.data ep).data s.b4PollTimer
      | true =>
        rw [show (c.recovered s.data ep).effects = [.startTimeout b4PollInterval .b4Poll] by
          simp [Controller.recovered, hdyn]]
        exact hsettle (c.recovered s.data ep).data true
  | switching =>
    rw [hphase] at hasks
    obtain rfl : req = _ := hasks
    cases rep <;> try exact hrep.elim
    rename_i err
    rw [hview]
    cases err with
    | some err =>
      refine ⟨_, ?_, Or.inr (.switchFailed _ err hphase rfl)⟩
      rw [hstep, dispatch_of_change (s := { s with mailbox := [] })
        (t := ⟨.steady, { s.data with wait := switchRetry }, []⟩)
        (by simp [answer, Controller.handleEvent, Controller.response, Request.op, onSwitch,
          Response.done]) (by simp [hphase]) rfl]
      exact hsettle { s.data with wait := switchRetry } s.b4PollTimer
    | none =>
      refine ⟨_, ?_, Or.inr (.switched _ hphase rfl)⟩
      rw [hstep, dispatch_of_change (s := { s with mailbox := [] })
        (t := ⟨.steady, { s.data with
          b4 := s.data.switchB4, current := s.data.switchTo, wait := 0 }, []⟩)
        (by simp [answer, Controller.handleEvent, Controller.response, Request.op, onSwitch,
          Response.done]) (by simp [hphase]) rfl]
      exact hsettle { s.data with b4 := s.data.switchB4, current := s.data.switchTo, wait := 0 }
        s.b4PollTimer

theorem deliver (h : Abstracts c Q s v) :
    ∃ v', Abstracts c Q (s.step c .deliver) v' ∧ (v' = v ∨ Move c Q s v .deliver v') := by
  have hflight := h.flight
  cases hmail : s.mailbox with
  | nil =>
    have hstep : s.step c .deliver = s := by simp only [System.step, hmail]
    rw [hstep]
    exact ⟨v, h, Or.inl rfl⟩
  | cons r M =>
    have hstep : s.step c .deliver = System.dispatch c { s with mailbox := M } (.response r) := by
      simp only [System.step, hmail]
    rw [hmail] at hflight
    cases hclosing : v.phase.closing with
    | false =>
      rw [hclosing] at hflight
      rcases hflight.deliver_live with ⟨hpoll, hnext⟩ | ⟨req, rep, hp, rfl, hstale, hM, hq⟩
      · exact h.deliver_poll hmail hclosing hpoll hnext
      · have hview := h.eq_view hstale
        have hfits := h.fits
        rw [hp] at hview hfits
        have hbare : Bare Q { s with mailbox := M } := by
          refine ⟨by rw [h.phase]; exact hclosing, ?_, ?_, by rw [h.data]; exact hM,
            by rw [h.data]; exact hq, ?_⟩
          · change s.stateTimer = none
            rw [h.timer, hp]
            cases v.phase <;> rfl
          · cases hs : s.async with
            | none => rfl
            | some token => cases hp.symm.trans (h.async.mp (by rw [hs]; rfl))
          · refine h.postponed fun hs => ?_
            rw [hs] at hclosing
            cases hclosing
        rw [← h.phase, ← h.data] at hfits
        have hdelivered : ∃ v', Abstracts c Q _ v' ∧ Move c Q s _ .deliver v' :=
          deliver_answered hbare hfits
        obtain ⟨v', hv', hmove⟩ := hdelivered
        rw [hstep, hview]
        exact ⟨v', hv', Or.inr hmove⟩
    | true =>
      rw [hclosing] at hflight
      rcases hflight.deliver_closing with ⟨hgen, hnext⟩ | ⟨req, rep, hp, rfl, hstale, rfl, hqueue⟩
      · rw [hstep, dispatch_of_stay (s := { s with mailbox := M }) (d := s.data) (e := [])
          (by simp [Controller.handleEvent, h.data, hgen]) rfl]
        exact ⟨v, ⟨h.phase, h.data, h.softwire, h.world, h.cutOver, h.fits, h.timer, h.async,
          by rw [hclosing]; exact hnext, h.postponed, h.polls, h.unarmed⟩, Or.inl rfl⟩
      · exact h.deliver_last hp hclosing hmail hqueue hstale

/-- Every action is a move, or leaves what the controller waits for as it is. -/
theorem step (h : Abstracts c Q s v) {act : Action} (hreports : act.Reports Q) :
    ∃ v', Abstracts c Q (s.step c act) v' ∧ (v' = v ∨ Move c Q s v act v') := by
  cases act with
  | packet p => exact ⟨_, h.packet p, Or.inr (.packet p)⟩
  | serve a => exact h.serve hreports
  | deliver => exact h.deliver
  | stateTimeout => exact h.stateTimeout
  | b4Poll => exact ⟨v, h.b4Poll, Or.inl rfl⟩
  | drainCap => exact h.drainCap
  | discovered disc err retryIn => exact h.discovered disc err retryIn
  | discoverFailed err => exact h.discoverFailed err
  | crash => exact ⟨_, h.crash s rfl rfl rfl rfl, Or.inr (.crash .crash)⟩

/-- What holds at first and is kept by every move holds along a run. -/
theorem run {I : View → Prop} {ok : System → Action → Prop} (h : Abstracts c Q s v) (hI : I v)
    (hmove : ∀ {s v act v'}, Abstracts c Q s v → I v → ok s act → Move c Q s v act v' → I v')
    {actions : List Action} (hreports : ∀ act ∈ actions, act.Reports Q)
    (hok : s.Along c ok actions) :
    ∃ v', Abstracts c Q (s.run c actions) v' ∧ I v' := by
  induction actions generalizing s v with
  | nil => exact ⟨v, h, hI⟩
  | cons act actions ih =>
    rw [List.forall_mem_cons] at hreports
    obtain ⟨v', hv', hchange⟩ := h.step hreports.1
    refine ih hv' ?_ hreports.2 hok.2
    rcases hchange with rfl | hchange
    · exact hI
    · exact hmove h hI hok.1 hchange

end Abstracts

theorem System.Boots.abstracts {cfg : B4ConfigArgs} (h : System.Boots cfg s) :
    Abstracts c Q s ⟨.recovering, {}, [], .asked .recoverReq, s.softwire, s.world, false⟩ := by
  cases h with
  | mk hasRouter hun hempty hexec =>
    exact abstracts_spawn (@InFlight.askedLast 0 0 Q [] [] .recoverReq (by simp) (by simp) (by simp))

end Step

end Minuteman.Control
