import Minuteman.Control.System

/-!
# What the controller waits for

The messages in flight, read as one pending continuation of the controller's
phase: a timeout, a discovery, a request not yet served, or an answer not yet
delivered. Source polls run beside it, and the requests that a hard switch or
a crash has orphaned stand in front of it.
-/
namespace Minuteman.Control
open Library Datapath Loader Migration Prog

def Request.op : Request → Op
  | .recoverReq => .recover
  | .sourceReq _ => .source
  | .switchReq _ => .switch
  | .beginReq _ => .begin
  | .countsReq => .counts
  | .abortReq => .abort
  | .cutoverReq => .cutover
  | .gcReq => .gc
  | .completeReq => .complete

def Request.isSource : Request → Bool
  | .sourceReq _ => true
  | _ => false

def Reply.fits : Reply → Request → Prop
  | .recovered _ _, .recoverReq => True
  | .sourceRep _ _ _, .sourceReq _ => True
  | .countsRep _ _, .beginReq _ => True
  | .countsRep _ _, .countsReq => True
  | .gcRep _ _, .gcReq => True
  | .doneRep _, .switchReq _ => True
  | .doneRep _, .abortReq => True
  | .doneRep _, .cutoverReq => True
  | .doneRep _, .completeReq => True
  | _, _ => False

def work (q : List Item) : List Request := (q.map Item.req).filter fun r => !r.isSource

inductive Pending
  | idle
  | async
  | asked (req : Request)
  | answered (req : Request) (rep : Reply)

def Pending.request : Pending → List Request
  | .asked req => [req]
  | _ => []

def awaited (c : Controller) : Phase → Pending → Option StateMsg
  | .steady, .idle => if c.dynamicAftr then some .refresh else none
  | .priming, .idle => some .primed
  | .draining, .idle => some .drainTick
  | _, _ => none

def Phase.asks (d : Data) : Phase → Request → Prop
  | .recovering, r => r = .recoverReq
  | .priming, r =>
    r = .beginReq ⟨d.b4, d.next.aftr⟩ ∨ r = .countsReq ∨ r = .cutoverReq ∨ r = .abortReq
  | .draining, r => r = .gcReq ∨ r = .completeReq
  | .switching, r => r = .switchReq ⟨d.switchB4, d.switchTo.aftr⟩
  | _, _ => False

theorem Phase.asks.not_source {d : Data} {ph : Phase} {req : Request} (h : ph.asks d req) :
    req.isSource = false := by
  cases ph with
  | recovering => rw [show req = _ from h]; rfl
  | steady => exact h.elim
  | discovering => exact h.elim
  | priming => rcases h with rfl | rfl | rfl | rfl <;> rfl
  | draining => rcases h with rfl | rfl <;> rfl
  | switching => rw [show req = _ from h]; rfl

/-- A phase with something it can wait for. -/
inductive Fits (d : Data) : Phase → Pending → Prop
  | steady : Fits d .steady .idle
  | discovering : Fits d .discovering .async
  | priming : Fits d .priming .idle
  | draining : Fits d .draining .idle
  | asked {ph : Phase} {req : Request} (h : ph.asks d req) : Fits d ph (.asked req)
  | answered {ph : Phase} {req : Request} {rep : Reply} (h : ph.asks d req) (hrep : rep.fits req) :
      Fits d ph (.answered req rep)

theorem Fits.of_answered {d : Data} {ph : Phase} {req : Request} {rep : Reply}
    (h : Fits d ph (.answered req rep)) : ph.asks d req ∧ rep.fits req := by
  cases h with
  | answered hasks hrep => exact ⟨hasks, hrep⟩

theorem Fits.of_asked {d : Data} {ph : Phase} {req : Request} (h : Fits d ph (.asked req)) :
    ph.asks d req := by
  cases h with
  | asked hasks => exact hasks

theorem Fits.capReached {d : Data} {ph : Phase} {p : Pending} (h : Fits d ph p) (b : Bool) :
    Fits { d with capReached := b } ph p := by
  cases h with
  | steady => exact .steady
  | discovering => exact .discovering
  | priming => exact .priming
  | draining => exact .draining
  | asked hasks => exact .asked (by revert hasks; cases ph <;> exact id)
  | answered hasks hrep => exact .answered (by revert hasks; cases ph <;> exact id) hrep

theorem Fits.not_source {d : Data} {ph : Phase} {p : Pending} (h : Fits d ph p) :
    ∀ req, p = .asked req → req.isSource = false := by
  rintro req rfl
  exact h.of_asked.not_source

theorem Fits.of_idle {d : Data} {ph : Phase} (h : Fits d ph .idle) :
    ph = .steady ∨ ph = .priming ∨ ph = .draining := by
  cases h with
  | steady => exact Or.inl rfl
  | priming => exact Or.inr (Or.inl rfl)
  | draining => exact Or.inr (Or.inr rfl)

theorem Fits.of_async {d : Data} {ph : Phase} (h : Fits d ph .async) : ph = .discovering := by
  cases h
  rfl

def Phase.closing : Phase → Bool
  | .recovering => true
  | .switching => true
  | _ => false

def Item.isPoll (i : Item) (inc gen : ℕ) : Prop :=
  i.owner = inc ∧ i.tag = ⟨.source, gen⟩ ∧ i.req.isSource = true

/-- An answered poll; `Q` holds of every source the kernel reported. -/
def Response.isPoll (r : Response) (gen : ℕ) (Q : Addr → Prop) : Prop :=
  r.tag = ⟨.source, gen⟩ ∧ (r.source.2 = none → r.source.1.2 = true → Q r.source.1.1)

/-- The messages in flight of a controller that waits for `p`. -/
inductive InFlight (inc gen : ℕ) (Q : Addr → Prop) :
    Bool → List Response → List Item → List Request → Pending → Prop
  | quiet {M : List Response} {q : List Item} {p : Pending} (hp : p = .idle ∨ p = .async)
      (hM : ∀ r ∈ M, r.isPoll gen Q) (hq : ∀ i ∈ q, i.isPoll inc gen) :
      InFlight inc gen Q false M q [] p
  | asked {M : List Response} {q₁ q₂ : List Item} {req : Request}
      (hM : ∀ r ∈ M, r.isPoll gen Q) (hq₁ : ∀ i ∈ q₁, i.isPoll inc gen)
      (hq₂ : ∀ i ∈ q₂, i.isPoll inc gen) :
      InFlight inc gen Q false M (q₁ ++ ⟨inc, ⟨req.op, gen⟩, req⟩ :: q₂) [] (.asked req)
  | answered {M₁ M₂ : List Response} {q : List Item} {req : Request} {rep : Reply}
      (hM₁ : ∀ r ∈ M₁, r.isPoll gen Q) (hM₂ : ∀ r ∈ M₂, r.isPoll gen Q)
      (hq : ∀ i ∈ q, i.isPoll inc gen) :
      InFlight inc gen Q false (M₁ ++ ⟨⟨req.op, gen⟩, some rep, none⟩ :: M₂) q []
        (.answered req rep)
  | askedLast {M : List Response} {q : List Item} {req : Request}
      (hM : ∀ r ∈ M, r.tag.gen ≠ gen) (hq : ∀ i ∈ q, i.owner = inc → i.tag.gen ≠ gen)
      (howner : ∀ i ∈ q, i.owner ≤ inc) :
      InFlight inc gen Q true M (q ++ [⟨inc, ⟨req.op, gen⟩, req⟩]) (work q) (.asked req)
  | answeredLast {M : List Response} {req : Request} {rep : Reply}
      (hM : ∀ r ∈ M, r.tag.gen ≠ gen) :
      InFlight inc gen Q true (M ++ [⟨⟨req.op, gen⟩, some rep, none⟩]) [] [] (.answered req rep)

theorem work_append (q q' : List Item) : work (q ++ q') = work q ++ work q' := by
  simp [work]

theorem work_polls {q : List Item} {inc gen : ℕ} (hq : ∀ i ∈ q, i.isPoll inc gen) :
    work q = [] := by
  rw [work, List.filter_eq_nil_iff]
  intro r hr
  obtain ⟨i, hi, rfl⟩ := List.mem_map.mp hr
  simp [(hq i hi).2.2]

theorem work_cons {i : Item} (q : List Item) (h : i.req.isSource = false) :
    work (i :: q) = i.req :: work q := by
  simp [work, h]

namespace InFlight
variable {inc gen : ℕ} {Q : Addr → Prop} {b : Bool} {M : List Response} {q : List Item}
  {st : List Request} {p : Pending}

/-- The work in the queue: what was orphaned, then what is waited for. -/
theorem work_eq (h : InFlight inc gen Q b M q st p)
    (hp : ∀ req, p = .asked req → req.isSource = false) : work q = st ++ p.request := by
  cases h with
  | quiet hp _ hq =>
    rw [work_polls hq]
    rcases hp with rfl | rfl <;> rfl
  | asked _ hq₁ hq₂ =>
    rw [work_append, work_polls hq₁, work_cons _ (hp _ rfl), work_polls hq₂]
    rfl
  | answered _ _ hq =>
    rw [work_polls hq]
    rfl
  | askedLast =>
    rw [work_append, work_cons _ (hp _ rfl)]
    rfl
  | answeredLast => rfl

theorem owner_le (h : InFlight inc gen Q b M q st p) : ∀ i ∈ q, i.owner ≤ inc := by
  have hpoll : ∀ {q : List Item}, (∀ i ∈ q, i.isPoll inc gen) → ∀ i ∈ q, i.owner ≤ inc :=
    fun hq i hi => (hq i hi).1.le
  cases h with
  | quiet _ _ hq => exact hpoll hq
  | asked _ hq₁ hq₂ =>
    rw [List.forall_mem_append, List.forall_mem_cons]
    exact ⟨hpoll hq₁, le_rfl, hpoll hq₂⟩
  | answered _ _ hq => exact hpoll hq
  | askedLast _ _ howner =>
    rw [List.forall_mem_append, List.forall_mem_singleton]
    exact ⟨howner, le_rfl⟩
  | answeredLast => simp

theorem gen_live (h : InFlight inc gen Q false M q st p) :
    (∀ r ∈ M, r.tag.gen = gen) ∧ ∀ i ∈ q, i.tag.gen = gen := by
  have hmail : ∀ {M : List Response}, (∀ r ∈ M, r.isPoll gen Q) → ∀ r ∈ M, r.tag.gen = gen :=
    fun hM r hr => by rw [(hM r hr).1]
  have hpoll : ∀ {q : List Item}, (∀ i ∈ q, i.isPoll inc gen) → ∀ i ∈ q, i.tag.gen = gen :=
    fun hq i hi => by rw [(hq i hi).2.1]
  cases h with
  | quiet _ hM hq => exact ⟨hmail hM, hpoll hq⟩
  | asked hM hq₁ hq₂ =>
    rw [List.forall_mem_append, List.forall_mem_cons]
    exact ⟨hmail hM, hpoll hq₁, rfl, hpoll hq₂⟩
  | answered hM₁ hM₂ hq =>
    rw [List.forall_mem_append, List.forall_mem_cons]
    exact ⟨⟨hmail hM₁, rfl, hmail hM₂⟩, hpoll hq⟩

/-- Nothing is asked for: only polls are in flight. -/
theorem of_quiet (h : InFlight inc gen Q b M q st p) (hp : p = .idle ∨ p = .async) :
    b = false ∧ st = [] ∧ (∀ r ∈ M, r.isPoll gen Q) ∧ ∀ i ∈ q, i.isPoll inc gen := by
  cases h with
  | quiet _ hM hq => exact ⟨rfl, rfl, hM, hq⟩
  | asked => rcases hp with hp | hp <;> cases hp
  | answered => rcases hp with hp | hp <;> cases hp
  | askedLast => rcases hp with hp | hp <;> cases hp
  | answeredLast => rcases hp with hp | hp <;> cases hp

/-- A hard switch starts a generation: everything in flight is stale. -/
theorem hardSwitch (h : InFlight inc gen Q false M q st p)
    (hp : ∀ req, p = .asked req → req.isSource = false) (ep : Endpoints) :
    InFlight inc (gen + 1) Q true M (q ++ [⟨inc, ⟨.switch, gen + 1⟩, .switchReq ep⟩]) p.request
      (.asked (.switchReq ep)) := by
  obtain ⟨hM, hq⟩ := h.gen_live
  have hwork : work q = p.request := by
    have heq := h.work_eq hp
    cases h <;> exact heq
  rw [← hwork]
  refine @askedLast _ _ _ _ _ (.switchReq ep) (fun r hr => ?_) (fun i hi _ => ?_) h.owner_le
  · rw [hM r hr]
    omega
  · rw [hq i hi]
    omega

/-- A new incarnation hears of nothing sent before it. -/
theorem crash (h : InFlight inc gen Q b M q st p)
    (hp : ∀ req, p = .asked req → req.isSource = false) :
    InFlight (inc + 1) 0 Q true [] (q ++ [⟨inc + 1, ⟨.recover, 0⟩, .recoverReq⟩]) (st ++ p.request)
      (.asked .recoverReq) := by
  rw [← h.work_eq hp]
  refine @askedLast _ _ _ _ _ .recoverReq (by simp) (fun i hi howner => ?_) (fun i hi => ?_)
  · have hle := h.owner_le i hi
    omega
  · exact (h.owner_le i hi).trans (Nat.le_succ inc)

/-- A poll is sent. -/
theorem poll (h : InFlight inc gen Q false M q st p) {i : Item} (hi : i.isPoll inc gen) :
    InFlight inc gen Q false M (q ++ [i]) st p := by
  cases h with
  | quiet hp hM hq =>
    refine .quiet hp hM ?_
    rw [List.forall_mem_append, List.forall_mem_singleton]
    exact ⟨hq, hi⟩
  | asked hM hq₁ hq₂ =>
    rw [List.append_assoc, List.cons_append]
    refine .asked hM hq₁ ?_
    rw [List.forall_mem_append, List.forall_mem_singleton]
    exact ⟨hq₂, hi⟩
  | answered hM₁ hM₂ hq =>
    refine .answered hM₁ hM₂ ?_
    rw [List.forall_mem_append, List.forall_mem_singleton]
    exact ⟨hq, hi⟩

/-- The next answer to a live controller: a poll's, or the one it waits for. -/
theorem deliver_live {r : Response} (h : InFlight inc gen Q false (r :: M) q st p) :
    (r.isPoll gen Q ∧ InFlight inc gen Q false M q st p) ∨
      ∃ req rep, p = .answered req rep ∧ r = ⟨⟨req.op, gen⟩, some rep, none⟩ ∧ st = [] ∧
        (∀ r ∈ M, r.isPoll gen Q) ∧ ∀ i ∈ q, i.isPoll inc gen := by
  generalize hmail : r :: M = mail at h
  cases h with
  | quiet hp hM hq =>
    subst hmail
    rw [List.forall_mem_cons] at hM
    exact Or.inl ⟨hM.1, .quiet hp hM.2 hq⟩
  | asked hM hq₁ hq₂ =>
    subst hmail
    rw [List.forall_mem_cons] at hM
    exact Or.inl ⟨hM.1, .asked hM.2 hq₁ hq₂⟩
  | @answered M₁ M₂ _ req rep hM₁ hM₂ hq =>
    cases M₁ with
    | nil =>
      obtain ⟨rfl, rfl⟩ := List.cons.inj hmail
      exact Or.inr ⟨req, rep, rfl, rfl, rfl, hM₂, hq⟩
    | cons r₁ M₁ =>
      obtain ⟨rfl, rfl⟩ := List.cons.inj hmail
      rw [List.forall_mem_cons] at hM₁
      exact Or.inl ⟨hM₁.1, .answered hM₁.2 hM₂ hq⟩

/-- The next answer in a closing phase: a stale one, or the last. -/
theorem deliver_closing {r : Response} (h : InFlight inc gen Q true (r :: M) q st p) :
    (r.tag.gen ≠ gen ∧ InFlight inc gen Q true M q st p) ∨
      ∃ req rep, p = .answered req rep ∧ r = ⟨⟨req.op, gen⟩, some rep, none⟩ ∧ st = [] ∧
        M = [] ∧ q = [] := by
  generalize hmail : r :: M = mail at h
  cases h with
  | askedLast hM hq howner =>
    subst hmail
    rw [List.forall_mem_cons] at hM
    exact Or.inl ⟨hM.1, .askedLast hM.2 hq howner⟩
  | @answeredLast M₁ req rep hM =>
    cases M₁ with
    | nil =>
      obtain ⟨rfl, rfl⟩ := List.cons.inj hmail
      exact Or.inr ⟨req, rep, rfl, rfl, rfl, rfl, rfl⟩
    | cons r₁ M₁ =>
      obtain ⟨rfl, rfl⟩ := List.cons.inj hmail
      rw [List.forall_mem_cons] at hM
      exact Or.inl ⟨hM.1, .answeredLast hM.2⟩

/-- The next request of a live controller: a poll, or the one it waits for. -/
theorem serve_live {i : Item} (h : InFlight inc gen Q false M (i :: q) st p) :
    (i.isPoll inc gen ∧ ∀ r : Response, r.isPoll gen Q → InFlight inc gen Q false (M ++ [r]) q st p) ∨
      ∃ req, p = .asked req ∧ i = ⟨inc, ⟨req.op, gen⟩, req⟩ ∧ st = [] ∧
        ∀ rep, InFlight inc gen Q false (M ++ [⟨⟨req.op, gen⟩, some rep, none⟩]) q []
          (.answered req rep) := by
  generalize hqueue : i :: q = queue at h
  have hmail : ∀ {M : List Response} {r : Response}, (∀ r ∈ M, r.isPoll gen Q) → r.isPoll gen Q →
      ∀ r' ∈ M ++ [r], r'.isPoll gen Q := by
    intro M r hM hr
    rw [List.forall_mem_append, List.forall_mem_singleton]
    exact ⟨hM, hr⟩
  cases h with
  | quiet hp hM hq =>
    subst hqueue
    rw [List.forall_mem_cons] at hq
    exact Or.inl ⟨hq.1, fun r hr => .quiet hp (hmail hM hr) hq.2⟩
  | @asked _ q₁ q₂ req hM hq₁ hq₂ =>
    cases q₁ with
    | nil =>
      obtain ⟨rfl, rfl⟩ := List.cons.inj hqueue
      exact Or.inr ⟨req, rfl, rfl, rfl, fun rep => .answered hM (by simp) hq₂⟩
    | cons i₁ q₁ =>
      obtain ⟨rfl, rfl⟩ := List.cons.inj hqueue
      rw [List.forall_mem_cons] at hq₁
      exact Or.inl ⟨hq₁.1, fun r hr => .asked (hmail hM hr) hq₁.2 hq₂⟩
  | @answered M₁ M₂ _ req rep hM₁ hM₂ hq =>
    subst hqueue
    rw [List.forall_mem_cons] at hq
    refine Or.inl ⟨hq.1, fun r hr => ?_⟩
    rw [List.append_assoc, List.cons_append]
    exact .answered hM₁ (hmail hM₂ hr) hq.2

/-- The next request in a closing phase: an orphan, whose answer is not heard, or the last. -/
theorem serve_closing {i : Item} (h : InFlight inc gen Q true M (i :: q) st p) :
    ((i.owner = inc → i.tag.gen ≠ gen) ∧
      ((i.req.isSource = true ∧ ∀ M', (∀ r ∈ M', r.tag.gen ≠ gen) →
          InFlight inc gen Q true (M ++ M') q st p) ∨
        (i.req.isSource = false ∧ ∃ rest, st = i.req :: rest ∧
          ∀ M', (∀ r ∈ M', r.tag.gen ≠ gen) → InFlight inc gen Q true (M ++ M') q rest p))) ∨
      ∃ req, p = .asked req ∧ i = ⟨inc, ⟨req.op, gen⟩, req⟩ ∧ st = [] ∧
        ∀ rep, InFlight inc gen Q true (M ++ [⟨⟨req.op, gen⟩, some rep, none⟩]) q []
          (.answered req rep) := by
  generalize hqueue : i :: q = queue at h
  cases h with
  | @askedLast _ q₁ req hM hq howner =>
    cases q₁ with
    | nil =>
      obtain ⟨rfl, rfl⟩ := List.cons.inj hqueue
      exact Or.inr ⟨req, rfl, rfl, rfl, fun rep => .answeredLast hM⟩
    | cons i₁ q₁ =>
      obtain ⟨rfl, rfl⟩ := List.cons.inj hqueue
      rw [List.forall_mem_cons] at hq howner
      have hrest : ∀ M', (∀ r ∈ M', r.tag.gen ≠ gen) → InFlight inc gen Q true (M ++ M')
          (q₁ ++ [⟨inc, ⟨req.op, gen⟩, req⟩]) (work q₁) (.asked req) := by
        intro M' hM'
        refine .askedLast ?_ hq.2 howner.2
        rw [List.forall_mem_append]
        exact ⟨hM, hM'⟩
      refine Or.inl ⟨hq.1, ?_⟩
      cases hsource : i.req.isSource with
      | true =>
        have hwork : work (i :: q₁) = work q₁ := by simp [work, hsource]
        rw [hwork]
        exact Or.inl ⟨rfl, hrest⟩
      | false => exact Or.inr ⟨rfl, work q₁, work_cons q₁ hsource, hrest⟩
  | answeredLast => cases hqueue

end InFlight

/-- A system with its messages read as what the controller waits for. -/
structure View where
  phase : Phase
  data : Data
  stale : List Request
  pending : Pending
  softwire : Softwire
  world : Monitored
  cutOver : Bool

/-- `v` is how the system `s` stands. -/
structure Abstracts (c : Controller) (Q : Addr → Prop) (s : System) (v : View) : Prop where
  phase : s.phase = v.phase
  data : s.data = v.data
  softwire : s.softwire = v.softwire
  world : s.world = v.world
  cutOver : s.cutOver = v.cutOver
  fits : Fits v.data v.phase v.pending
  timer : s.stateTimer = awaited c v.phase v.pending
  async : s.async.isSome = true ↔ v.pending = .async
  flight : InFlight s.incarnation v.data.gen Q v.phase.closing s.mailbox s.queue v.stale v.pending
  postponed : v.phase ≠ .switching → s.postponed = []
  polls : ∀ msg ∈ s.postponed, msg = .b4Poll
  unarmed : v.phase = .recovering → s.b4PollTimer = false

def View.serve (v : View) (a : Answers) (req : Request) : View :=
  { v with
    softwire := (v.softwire.handle v.world.maps a req).softwire
    world := worldAfter v.world (v.softwire.handle v.world.maps a req).event
    cutOver := v.cutOver ||
      (req == .cutoverReq && (v.softwire.handle v.world.maps a req).reply.isDone) }

def View.settle (v : View) (d : Data) : View :=
  { v with phase := .steady, data := d, pending := .idle, cutOver := false }

def View.ask (v : View) (d : Data) (req : Request) : View :=
  { v with data := d, pending := .asked req }

/-- Everything an action can do to what the controller waits for. -/
inductive Move (c : Controller) (Q : Addr → Prop) (s : System) (v : View) : Action → View → Prop
  | packet (p : Packet) : Move c Q s v (.packet p) { v with world := v.world.step (.packet p) }
  | cap : Move c Q s v .drainCap { v with data := { v.data with capReached := true } }
  | stale (a : Answers) (item : Item) (q : List Item) (rest : List Request)
      (hhead : s.queue = item :: q) (h : v.stale = item.req :: rest) :
      Move c Q s v (.serve a) { v.serve a item.req with stale := rest }
  | serve (a : Answers) (req : Request) (rest : List Item) (hstale : v.stale = [])
      (hp : v.pending = .asked req)
      (hhead : s.queue = ⟨s.incarnation, ⟨req.op, v.data.gen⟩, req⟩ :: rest) :
      Move c Q s v (.serve a)
        { v.serve a req with
          pending := .answered req (v.softwire.handle v.world.maps a req).reply }
  | refresh (hphase : v.phase = .steady) :
      Move c Q s v .stateTimeout { v with phase := .discovering, pending := .async }
  | kept (act : Action) (d : Data) (hphase : v.phase = .discovering) (hb4 : d.b4 = v.data.b4)
      (haftr : d.current.aftr = v.data.current.aftr) (hgen : d.gen = v.data.gen) :
      Move c Q s v act (v.settle d)
  | migrate (disc : Discovery) (retryIn : ℤ) (hphase : v.phase = .discovering)
      (hne : disc.aftr ≠ v.data.current.aftr) :
      Move c Q s v (.discovered disc none retryIn)
        { v.ask { v.data with next := disc, migration := v.data.migration + 1 }
          (.beginReq ⟨v.data.b4, disc.aftr⟩) with phase := .priming }
  | begun (ep : Endpoints) (k : Counts) (hphase : v.phase = .priming)
      (hp : v.pending = .answered (.beginReq ep) (.countsRep k none)) :
      Move c Q s v .deliver { v with data := { v.data with baseline := k }, pending := .idle }
  | beginFailed (ep : Endpoints) (k : Counts) (err : String) (hphase : v.phase = .priming)
      (hp : v.pending = .answered (.beginReq ep) (.countsRep k (some err))) :
      Move c Q s v .deliver (v.settle { v.data with next := {}, wait := switchRetry })
  | primed (hphase : v.phase = .priming) (hp : v.pending = .idle) :
      Move c Q s v .stateTimeout (v.ask v.data .countsReq)
  | sampled (k : Counts) (hphase : v.phase = .priming)
      (hp : v.pending = .answered .countsReq (.countsRep k none))
      (hlost : k.affinityInsertFail - v.data.baseline.affinityInsertFail = 0) :
      Move c Q s v .deliver
        (v.ask { v.data with recorded := k.affinityInsert - v.data.baseline.affinityInsert }
          .cutoverReq)
  | abandoned (rep : Reply) (why : String) (hphase : v.phase = .priming)
      (hp : v.pending = .answered .countsReq rep) :
      Move c Q s v .deliver (v.ask { v.data with abortWhy := why } .abortReq)
  | cutOver (hphase : v.phase = .priming)
      (hp : v.pending = .answered .cutoverReq (.doneRep none)) :
      Move c Q s v .deliver
        { v with phase := .draining, data := { v.data with capReached := false }, pending := .idle }
  | cutoverFailed (err : String) (hphase : v.phase = .priming)
      (hp : v.pending = .answered .cutoverReq (.doneRep (some err))) :
      Move c Q s v .deliver (v.ask { v.data with abortWhy := err } .abortReq)
  | aborted (err : Option String) (next : Discovery) (hphase : v.phase = .priming)
      (hp : v.pending = .answered .abortReq (.doneRep err)) :
      Move c Q s v .deliver (v.settle { v.data with next := next, wait := switchRetry })
  | tick (hphase : v.phase = .draining) (hp : v.pending = .idle) :
      Move c Q s v .stateTimeout (v.ask v.data .gcReq)
  | undrained (req : Request) (rep : Reply) (hphase : v.phase = .draining)
      (hp : v.pending = .answered req rep) (hrep : rep ≠ .doneRep none) :
      Move c Q s v .deliver { v with pending := .idle }
  | drained (n : ℕ) (hphase : v.phase = .draining) (hp : v.pending = .answered .gcReq (.gcRep n none)) :
      Move c Q s v .deliver (v.ask v.data .completeReq)
  | completed (hphase : v.phase = .draining)
      (hp : v.pending = .answered .completeReq (.doneRep none)) :
      Move c Q s v .deliver (v.settle
        { v.data with current := v.data.next, next := {}
                      wait := nextRefreshWait v.data.next.refresh })
  | hardSwitch (b4 : Addr) (hphase : v.phase.closing = false) (husable : usableB4 b4 = true)
      (hQ : Q b4) (hne : b4 ≠ v.data.b4) :
      Move c Q s v .deliver
        { v with
          phase := .switching
          data := (hardSwitch v.phase v.data b4).data
          stale := v.pending.request
          pending := .asked (.switchReq ⟨b4, (hardSwitch v.phase v.data b4).data.switchTo.aftr⟩) }
  | switched (ep : Endpoints) (hphase : v.phase = .switching)
      (hp : v.pending = .answered (.switchReq ep) (.doneRep none)) :
      Move c Q s v .deliver
        (v.settle { v.data with b4 := v.data.switchB4, current := v.data.switchTo, wait := 0 })
  | switchFailed (ep : Endpoints) (err : String) (hphase : v.phase = .switching)
      (hp : v.pending = .answered (.switchReq ep) (.doneRep (some err))) :
      Move c Q s v .deliver (v.settle { v.data with wait := switchRetry })
  | recovered (ep : Endpoints) (hphase : v.phase = .recovering)
      (hp : v.pending = .answered .recoverReq (.recovered ep none)) :
      Move c Q s v .deliver (v.settle (c.recovered v.data ep).data)
  | crash (act : Action) :
      Move c Q s v act
        { v with
          phase := .recovering
          data := {}
          stale := v.stale ++ v.pending.request
          pending := .asked .recoverReq
          cutOver := false }

end Minuteman.Control
