import Minuteman.NdProxy.State

/-!
# The ND proxy and its routes

`internal/ndppd`: the proxy process turns the packets of the WAN and the LANs
and its sweep timer into decisions of the state, sends what they call for and
casts the routes they change to the routes process, which handles its casts in
order.
-/
namespace Minuteman.NdProxy
open Library

inductive Cast
  | install (target : Addr) (iface : String)
  | remove (target : Addr) (iface : String)

/-- `Install` replaces a route to the target, `Remove` deletes the one it names. -/
def Cast.apply (routes : Addr → Option String) : Cast → Addr → Option String
  | .install target iface => Function.update routes target (some iface)
  | .remove target iface =>
    if routes target = some iface then Function.update routes target none else routes

/-- What happened. A probe round is one solicitation out of every LAN. -/
inductive Entry
  | solicited (t : ℤ) (target solicitor : Addr)
  | confirmed (t : ℤ) (target : Addr) (iface : String)
  | pended (target : Addr)
  | probed (target : Addr)
  | advertised (t : ℤ) (target solicitor : Addr)

/-- The two processes, the routing table and what happened so far, the latest first. -/
structure World where
  now : ℤ
  state : State
  casts : List Cast
  routes : Addr → Option String
  log : List Entry

def World.initial (now : ℤ) : World := ⟨now, newState, [], fun _ => none, []⟩

/-- The messages of the two processes. Time passes before each by `after`; a packet that does not
parse is none. The entries of a map are visited in any order, which a sweep is given. -/
inductive Event
  | wan (after : ℕ) (parsed : Option (Addr × Addr))
  | lan (after : ℕ) (iface : String) (parsed : Option Addr)
  | sweep (after : ℕ) (retransmit : List Addr) (expired : List Expired)
  | cast

def Reply.entries (reply : Option Reply) (t : ℤ) : List Entry :=
  reply.toList.map fun r => .advertised t r.target r.solicitor

namespace World

def solicited (w : World) (t : ℤ) (target source : Addr) : World :=
  let r := w.state.onWANSolicit t target source
  let pended := (w.state.pending.get target).isNone && (r.1.pending.get target).isSome
  { w with
    now := t
    state := r.1
    log := Reply.entries r.2.1 t ++ ((if r.2.2 then [.probed target] else []) ++
      ((if pended then [.pended target] else []) ++ .solicited t target source :: w.log)) }

def advertised (w : World) (t : ℤ) (iface : String) (target : Addr) : World :=
  let r := w.state.onLANAdvert t iface target
  let confirmed := if (w.state.pending.get target).isSome then [.confirmed t target iface] else []
  { w with
    now := t
    state := r.1
    casts := w.casts ++ r.2.toList.map fun reply => .install reply.target reply.iface
    log := Reply.entries r.2 t ++ (confirmed ++ w.log) }

/-- `swept`, with its lists in the order given. -/
def swept (w : World) (t : ℤ) (retransmit : List Addr) (expired : List Expired) : World :=
  { w with
    now := t
    state := (w.state.sweep t).state
    casts := w.casts ++ expired.map fun e => .remove e.target e.iface
    log := retransmit.map .probed ++ w.log }

/-- A sweep in an order that the state does not allow is none. -/
def step (w : World) : Event → World
  | .wan after none => { w with now := w.now + after }
  | .wan after (some (target, source)) => w.solicited (w.now + after) target source
  | .lan after _ none => { w with now := w.now + after }
  | .lan after iface (some target) => w.advertised (w.now + after) iface target
  | .sweep after retransmit expired =>
    let r := w.state.sweep (w.now + after)
    if retransmit.Perm r.retransmit ∧ expired.Perm r.expired then
      w.swept (w.now + after) retransmit expired
    else w
  | .cast =>
    match w.casts with
    | [] => w
    | c :: casts => { w with casts, routes := c.apply w.routes }

end World

def latestSolicitor (target : Addr) : List Entry → Option Addr
  | [] => none
  | .solicited _ asked solicitor :: past =>
    if asked = target then some solicitor else latestSolicitor target past
  | _ :: past => latestSolicitor target past

def rounds (target : Addr) : List Entry → ℕ
  | [] => 0
  | .pended pending :: past => if pending = target then 0 else rounds target past
  | .probed probed :: past => (if probed = target then 1 else 0) + rounds target past
  | _ :: past => rounds target past

/-- The WAN was only told what a LAN had confirmed not long before, it was told to the one that
asked last, and no target was probed more often than allowed. -/
def Truthful : List Entry → Prop
  | [] => True
  | .advertised t target solicitor :: past =>
    (∃ confirmedAt iface, .confirmed confirmedAt target iface ∈ past ∧ confirmedAt ≤ t ∧
      t - confirmedAt < activeTTL) ∧
    latestSolicitor target past = some solicitor ∧ Truthful past
  | .probed target :: past => rounds target past < maxMulticastSolicit ∧ Truthful past
  | _ :: past => Truthful past

/-- The state tells what the log shows. -/
structure Remembers (w : World) : Prop where
  pending : ∀ target p, w.state.pending.get target = some p →
    latestSolicitor target w.log = some p.solicitor ∧ rounds target w.log = p.attempts
  active : ∀ target a, w.state.active.get target = some a →
    .confirmed a.confirmedAt target a.iface ∈ w.log ∧ a.confirmedAt ≤ w.now
  apart : ∀ target p a, w.state.pending.get target = some p → w.state.active.get target = some a →
    a.fresh w.now = false
  truthful : Truthful w.log

theorem fresh_eq_true {a : ActiveEntry} {now : ℤ} :
    a.fresh now = true ↔ now - a.confirmedAt < activeTTL := by simp [ActiveEntry.fresh]

theorem not_fresh_later {a : ActiveEntry} {now t : ℤ} (h : a.fresh now = false) (ht : now ≤ t) :
    a.fresh t = false := by
  simp only [ActiveEntry.fresh, decide_eq_false_iff_not, not_lt] at h ⊢
  omega

namespace Remembers
variable {w : World}

theorem initial (now : ℤ) : Remembers (World.initial now) where
  pending target p h := by cases h
  active target a h := by cases h
  apart target p a h := by cases h
  truthful := trivial

theorem elapse (h : Remembers w) (after : ℕ) : Remembers { w with now := w.now + after } where
  pending := h.pending
  active target a ha := ⟨(h.active target a ha).1, (h.active target a ha).2.trans (by simp)⟩
  apart target p a hp ha := not_fresh_later (h.apart target p a hp ha) (by simp)
  truthful := h.truthful

variable {t : ℤ} {target source : Addr}

/-- A target confirmed not long before is not being probed. -/
theorem pending_eq_none (h : Remembers w) (ht : w.now ≤ t) {a : ActiveEntry}
    (hactive : w.state.active.get target = some a) (hfresh : a.fresh t = true) :
    w.state.pending.get target = none := by
  by_contra hsome
  obtain ⟨p, hp⟩ := Option.ne_none_iff_exists'.mp hsome
  have hold := not_fresh_later (h.apart target p a hp hactive) ht
  rw [hold] at hfresh
  cases hfresh

theorem active_later (h : Remembers w) (ht : w.now ≤ t) {a : ActiveEntry}
    (hactive : w.state.active.get target = some a) : a.confirmedAt ≤ t :=
  (h.active target a hactive).2.trans ht

/-- The WAN is answered at once. -/
theorem answered (h : Remembers w) (ht : w.now ≤ t) {a : ActiveEntry}
    (hactive : w.state.active.get target = some a) (hfresh : a.fresh t = true) :
    Remembers { w with now := t,
                       log := .advertised t target source :: .solicited t target source :: w.log } where
  pending target' p hp := by
    have hne : target ≠ target' := by
      rintro rfl
      cases (h.pending_eq_none ht hactive hfresh).symm.trans hp
    simpa [latestSolicitor, rounds, hne] using h.pending target' p hp
  active target' a' ha' := ⟨by simp [(h.active target' a' ha').1], h.active_later ht ha'⟩
  apart target' p a' hp ha' := not_fresh_later (h.apart target' p a' hp ha') ht
  truthful := by
    refine ⟨⟨a.confirmedAt, a.iface, ?_, h.active_later ht hactive, fresh_eq_true.mp hfresh⟩, ?_,
      h.truthful⟩
    · simp [(h.active target a hactive).1]
    · simp [latestSolicitor]

/-- The probe under way is for another solicitor now, or a first probe is sent. -/
theorem asked (h : Remembers w) (ht : w.now ≤ t) {p : PendingProbe} {log : List Entry}
    (hstale : ∀ a, w.state.active.get target = some a → a.fresh t = false)
    (hsolicitor : ∀ target', latestSolicitor target' log =
      if target = target' then some p.solicitor else latestSolicitor target' w.log)
    (hrounds : ∀ target', rounds target' log =
      if target = target' then p.attempts else rounds target' w.log)
    (hold : ∀ e ∈ w.log, e ∈ log) (htruthful : Truthful log) :
    Remembers { w with now := t, log,
                       state := { w.state with pending := w.state.pending.set target p } } where
  pending target' p' hp' := by
    dsimp only at hp' ⊢
    rw [FiniteMap.get_set] at hp'
    rw [hsolicitor, hrounds]
    split_ifs at hp' with hsame
    · subst hsame
      cases hp'
      simp
    · rw [if_neg (Ne.symm hsame), if_neg (Ne.symm hsame)]
      exact h.pending target' p' hp'
  active target' a' ha' := ⟨hold _ (h.active target' a' ha').1, h.active_later ht ha'⟩
  apart target' p' a' hp' ha' := by
    by_cases hsame : target' = target
    · subst hsame
      exact hstale a' ha'
    · dsimp only at hp'
      rw [FiniteMap.get_set, if_neg hsame] at hp'
      exact not_fresh_later (h.apart target' p' a' hp' ha') ht
  truthful := htruthful

theorem solicited (h : Remembers w) (ht : w.now ≤ t) : Remembers (w.solicited t target source) := by
  unfold World.solicited State.onWANSolicit
  cases hfresh : (w.state.active.get target).filter (·.fresh t) with
  | some a =>
    obtain ⟨hactive, hyoung⟩ := Option.filter_eq_some_iff.mp hfresh
    simp only [h.pending_eq_none ht hactive hyoung]
    exact h.answered ht hactive hyoung
  | none =>
    have hstale : ∀ a, w.state.active.get target = some a → a.fresh t = false := by
      intro a ha
      rw [ha] at hfresh
      simpa using hfresh
    cases hpending : w.state.pending.get target with
    | some p =>
      refine h.asked ht hstale (fun target' => ?_) (fun target' => ?_) ?_ ?_
      · simp [Reply.entries, latestSolicitor]
      · by_cases hsame : target = target'
        · subst hsame
          simp [Reply.entries, rounds, (h.pending target p hpending).2]
        · simp [Reply.entries, rounds, hsame]
      · exact fun e he => by simp [Reply.entries, he]
      · simpa [Reply.entries, Truthful] using h.truthful
    | none =>
      refine h.asked ht hstale (fun target' => ?_) (fun target' => ?_) ?_ ?_
      · simp [Reply.entries, FiniteMap.get_set, latestSolicitor]
      · by_cases hsame : target = target'
        · subst hsame
          simp [Reply.entries, FiniteMap.get_set, rounds]
        · simp [Reply.entries, FiniteMap.get_set, rounds, hsame]
      · exact fun e he => by simp [Reply.entries, FiniteMap.get_set, he]
      · simpa [Reply.entries, FiniteMap.get_set, Truthful, rounds, maxMulticastSolicit]
          using h.truthful

/-- A LAN advertises a target. -/
theorem advertised (h : Remembers w) (ht : w.now ≤ t) (iface : String) :
    Remembers (w.advertised t iface target) := by
  unfold World.advertised State.onLANAdvert
  cases hpending : w.state.pending.get target with
  | none =>
    exact
      { pending := h.pending
        active := fun target' a' ha' => ⟨(h.active target' a' ha').1, h.active_later ht ha'⟩
        apart := fun target' p a' hp ha' => not_fresh_later (h.apart target' p a' hp ha') ht
        truthful := h.truthful }
  | some p =>
    obtain ⟨hsolicitor, -⟩ := h.pending target p hpending
    constructor
    · intro target' p' hp'
      dsimp only at hp'
      rw [FiniteMap.get_erase] at hp'
      split_ifs at hp'
      exact h.pending target' p' hp'
    · intro target' a' ha'
      dsimp only at ha'
      rw [FiniteMap.get_set] at ha'
      split_ifs at ha' with hsame
      · subst hsame
        cases ha'
        exact ⟨by simp [Reply.entries], le_rfl⟩
      · exact ⟨by simp [Reply.entries, (h.active target' a' ha').1], h.active_later ht ha'⟩
    · intro target' p' a' hp' ha'
      dsimp only at hp' ha'
      rw [FiniteMap.get_erase] at hp'
      split_ifs at hp' with hsame
      rw [FiniteMap.get_set, if_neg hsame] at ha'
      exact not_fresh_later (h.apart target' p' a' hp' ha') ht
    · refine ⟨⟨t, iface, by simp, le_rfl, ?_⟩, hsolicitor, h.truthful⟩
      simp [activeTTL, second]

/-- Probing each target of a list once more leaves the rest of the log as it is. -/
theorem latestSolicitor_probed (target : Addr) (probed : List Addr) (log : List Entry) :
    latestSolicitor target (probed.map .probed ++ log) = latestSolicitor target log := by
  induction probed with
  | nil => rfl
  | cons a rest ih => exact ih

theorem rounds_probed (target : Addr) (probed : List Addr) (log : List Entry) :
    rounds target (probed.map .probed ++ log) = probed.count target + rounds target log := by
  induction probed with
  | nil => simp
  | cons a rest ih =>
    rw [List.map_cons, List.cons_append, rounds, ih, List.count_cons]
    simp only [beq_iff_eq]
    omega

theorem truthful_probed {probed : List Addr} {log : List Entry} (hnodup : probed.Nodup)
    (hfew : ∀ target ∈ probed, rounds target log < maxMulticastSolicit) (h : Truthful log) :
    Truthful (probed.map .probed ++ log) := by
  induction probed with
  | nil => exact h
  | cons a rest ih =>
    obtain ⟨hnew, hrest⟩ := List.nodup_cons.mp hnodup
    refine ⟨?_, ih hrest fun target htarget => hfew target (List.mem_cons_of_mem _ htarget)⟩
    have hrounds := rounds_probed a rest log
    rw [List.count_eq_zero_of_not_mem hnew, zero_add] at hrounds
    exact hrounds.trans_lt (hfew a List.mem_cons_self)

theorem retransmits_sweptProbe {now : ℤ} {p q : PendingProbe} (h : State.sweptProbe now p = some q) :
    q.solicitor = p.solicitor ∧
      q.attempts = (if State.retransmits now p then 1 else 0) + p.attempts := by
  unfold State.sweptProbe at h
  unfold State.retransmits
  split_ifs at h with hearly hlast
  · cases h
    simp [hearly]
  · cases h
    simp [hearly, hlast, Nat.add_comm]

theorem swept (h : Remembers w) (ht : w.now ≤ t) {retransmit : List Addr} {expired : List Expired}
    (horder : retransmit.Perm (w.state.sweep t).retransmit) :
    Remembers (w.swept t retransmit expired) where
  pending target q hq := by
    obtain ⟨p, hp, hswept⟩ := Option.bind_eq_some_iff.mp hq
    obtain ⟨hsolicitor, hrounds⟩ := h.pending target p hp
    obtain ⟨hsame, hattempts⟩ := retransmits_sweptProbe hswept
    have hcount : retransmit.count target = if State.retransmits t p then 1 else 0 := by
      rw [(horder.nodup_iff.mpr (FiniteMap.nodup_keysWith _ _)).count]
      congr 1
      rw [horder.mem_iff, State.sweep, FiniteMap.mem_keysWith, hp]
      simp
    constructor
    · rw [World.swept, latestSolicitor_probed, hsolicitor, hsame]
    · rw [World.swept, rounds_probed, hcount, hrounds, hattempts]
  active target a ha := by
    obtain ⟨hactive, -⟩ := State.sweep_active.mp ha
    exact ⟨List.mem_append_right _ (h.active target a hactive).1, h.active_later ht hactive⟩
  apart target q a hq ha := by
    obtain ⟨p, hp, -⟩ := Option.bind_eq_some_iff.mp hq
    obtain ⟨hactive, -⟩ := State.sweep_active.mp ha
    exact not_fresh_later (h.apart target p a hp hactive) ht
  truthful := by
    apply truthful_probed
    · exact horder.nodup_iff.mpr (FiniteMap.nodup_keysWith _ _)
    · intro target htarget
      obtain ⟨p, hp, hsent⟩ := FiniteMap.mem_keysWith.mp (horder.mem_iff.mp htarget)
      rw [(h.pending target p hp).2]
      simp only [State.retransmits, Bool.and_eq_true, Bool.not_eq_true',
        decide_eq_false_iff_not] at hsent
      omega
    · exact h.truthful

theorem step (h : Remembers w) (ev : Event) : Remembers (w.step ev) := by
  cases ev with
  | wan after parsed =>
    cases parsed with
    | none => exact h.elapse after
    | some packet => exact h.solicited (by simp)
  | lan after iface parsed =>
    cases parsed with
    | none => exact h.elapse after
    | some target => exact h.advertised (by simp) iface
  | sweep after retransmit expired =>
    rw [World.step]
    split_ifs with horder
    · exact h.swept (by simp) horder.1
    · exact h
  | cast =>
    rw [World.step]
    split
    · exact h
    · exact ⟨h.pending, h.active, h.apart, h.truthful⟩

end Remembers

/-- In every run of the proxy the WAN is told the truth. -/
theorem proxy_truthful (now : ℤ) (events : List Event) :
    Truthful (events.foldl World.step (World.initial now)).log := by
  have hrun : Remembers (events.foldl World.step (World.initial now)) :=
    List.foldlRecOn events World.step (Remembers.initial now) fun _ h ev _ => h.step ev
  exact hrun.truthful

/-- The routes once the casts waiting are handled. -/
def World.settled (w : World) : Addr → Option String := w.casts.foldl Cast.apply w.routes

/-- The active table, as routes. -/
def State.hosts (s : State) (target : Addr) : Option String := (s.active.get target).map (·.iface)

/-- Removing routes that are there, or gone, leaves the others. -/
theorem foldl_remove {expired : List Expired} {routes : Addr → Option String}
    (h : ∀ e ∈ expired, routes e.target = none ∨ routes e.target = some e.iface) (target : Addr) :
    (expired.map fun e => Cast.remove e.target e.iface).foldl Cast.apply routes target =
      if target ∈ expired.map Expired.target then none else routes target := by
  induction expired generalizing routes with
  | nil => simp
  | cons e rest ih =>
    have hfirst : Cast.apply routes (.remove e.target e.iface) =
        Function.update routes e.target none := by
      rw [Cast.apply]
      rcases h e List.mem_cons_self with hnone | hsome
      · rw [if_neg (by simp [hnone]), ← hnone, Function.update_eq_self]
      · rw [if_pos hsome]
    rw [List.map_cons, List.foldl_cons, hfirst, ih]
    · by_cases hsame : target = e.target
      · simp [hsame]
      · simp [hsame]
    · intro e' he'
      by_cases hsame : e'.target = e.target
      · simp [hsame]
      · simpa [hsame] using h e' (List.mem_cons_of_mem _ he')

/-- A sweep takes out of the table what it reports expired. -/
theorem hosts_sweep {s : State} {now : ℤ} {expired : List Expired}
    (horder : expired.Perm (s.sweep now).expired) (target : Addr) :
    (s.sweep now).state.hosts target =
      if target ∈ expired.map Expired.target then none else s.hosts target := by
  have hmem : target ∈ expired.map Expired.target ↔
      ∃ a, s.active.get target = some a ∧ a.fresh now = false := by
    rw [List.mem_map]
    constructor
    · rintro ⟨e, he, rfl⟩
      obtain ⟨a, ha, hstale, -⟩ := State.mem_expired.mp (horder.mem_iff.mp he)
      exact ⟨a, ha, hstale⟩
    · rintro ⟨a, ha, hstale⟩
      exact ⟨⟨target, a.iface⟩, horder.mem_iff.mpr (State.mem_expired.mpr ⟨a, ha, hstale, rfl⟩), rfl⟩
  simp only [hmem, State.hosts, State.sweep, FiniteMap.get_sweep]
  cases s.active.get target with
  | none => simp
  | some a => cases hfresh : a.fresh now <;> simp [hfresh]

theorem settled_step {w : World} (h : w.settled = w.state.hosts) (ev : Event) :
    (w.step ev).settled = (w.step ev).state.hosts := by
  cases ev with
  | wan after parsed =>
    cases parsed with
    | none => exact h
    | some packet =>
      have hactive : (w.state.onWANSolicit (w.now + after) packet.1 packet.2).1.active =
          w.state.active := by
        unfold State.onWANSolicit
        split
        · rfl
        split
        · rfl
        · rfl
      rw [World.step, World.solicited]
      funext target
      rw [State.hosts]
      dsimp only
      rw [hactive]
      exact congrFun h target
  | lan after iface parsed =>
    cases parsed with
    | none => exact h
    | some target =>
      rw [World.step, World.advertised, State.onLANAdvert]
      cases w.state.pending.get target with
      | none => simpa [World.settled] using h
      | some p =>
        have hcasts : (w.casts ++ [Cast.install target iface]).foldl Cast.apply w.routes =
            Function.update w.state.hosts target (some iface) := by
          rw [List.foldl_append, ← h]
          rfl
        funext target'
        refine (congrFun hcasts target').trans ?_
        rw [State.hosts, FiniteMap.get_set, Function.update_apply]
        split_ifs
        · rfl
        · rfl
  | sweep after retransmit expired =>
    rw [World.step]
    split_ifs with horder
    · funext target
      have hmatch : ∀ e ∈ expired, w.settled e.target = none ∨ w.settled e.target = some e.iface := by
        intro e he
        obtain ⟨a, ha, -, hiface⟩ := State.mem_expired.mp (horder.2.mem_iff.mp he)
        rw [h, State.hosts, ha, ← hiface]
        exact Or.inr rfl
      have hcasts : (w.swept (w.now + after) retransmit expired).settled target =
          if target ∈ expired.map Expired.target then none else w.settled target := by
        rw [World.settled, World.swept, List.foldl_append]
        exact foldl_remove hmatch target
      rw [hcasts, h]
      exact (hosts_sweep horder.2 target).symm
    · exact h
  | cast =>
    rw [World.step]
    split
    · exact h
    · next c casts hcasts =>
      rw [World.settled, hcasts] at h
      exact h

/-- Once all casts are handled the host routes are the active table. -/
theorem routes_follow_hosts (now : ℤ) (events : List Event)
    (hcasts : (events.foldl World.step (World.initial now)).casts = []) :
    (events.foldl World.step (World.initial now)).routes =
      (events.foldl World.step (World.initial now)).state.hosts := by
  have hsettled : (events.foldl World.step (World.initial now)).settled =
      (events.foldl World.step (World.initial now)).state.hosts :=
    @List.foldlRecOn _ _ (fun w => w.settled = w.state.hosts) events World.step _ rfl
      fun _ h ev _ => settled_step h ev
  rw [World.settled, hcasts] at hsettled
  exact hsettled

/-- A host is confirmed behind one LAN and, its entry aged but not swept, behind another. -/
def movingHost (target source : Addr) : List Event :=
  [.wan 0 (some (target, source)), .lan 0 "lan0" (some target), .cast,
    .wan 300000000000 (some (target, source)), .lan 0 "lan1" (some target),
    .sweep 0 [] [], .cast]

theorem routes_follow_hosts_moving :
    ((movingHost default default).foldl World.step (World.initial 0)).routes default =
      some "lan1" := by
  have hcasts : ((movingHost default default).foldl World.step (World.initial 0)).casts = [] := by
    decide +kernel
  rw [routes_follow_hosts 0 _ hcasts]
  decide +kernel

end Minuteman.NdProxy
