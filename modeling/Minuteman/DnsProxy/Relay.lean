import Minuteman.DnsProxy.Listener

/-!
# The DNS proxy's TCP relay

One accepted connection: the upstreams are dialled in order, and the bytes of
each side are copied to the other by a goroutine of its own. What the two peers
send, when they close, how much each read and each write moves, which of them
fails and when the process dies are arbitrary.
-/
namespace Minuteman.DnsProxy
open Library

/-- A direction not started, in `io.Copy`, about to half-close its destination, over. -/
inductive CopyPhase where
  | waiting
  | copying
  | closing
  | done
  deriving DecidableEq

/-- One direction. `input` is all its source has sent and `unread` the part not read; `buffer` is
read and not written. `fin` says that the source has closed its side, `failed` that a read or a
write returned an error. -/
structure Copy where
  phase : CopyPhase
  input : Bytes
  fin : Bool
  unread : Bytes
  buffer : Bytes
  written : Bytes
  failed : Bool

/-- What the source does, `sends` and `finishes`, and what the goroutine does. -/
inductive CopyEvent where
  | sends (b : Bytes)
  | finishes
  | read (n : ℕ)
  | write (n : ℕ)
  | eof
  | fault
  | closeWrite

namespace Copy

def initial : Copy := ⟨.waiting, [], false, [], [], [], false⟩

/-- `io.Copy` reads again once all it read is written. On closed connections every read and write
fails. -/
def step (closed : Bool) (c : Copy) : CopyEvent → Copy
  | .sends b => if c.fin then c else { c with input := c.input ++ b, unread := c.unread ++ b }
  | .finishes => { c with fin := true }
  | .read n =>
    if c.phase = .copying ∧ closed = false ∧ c.buffer = [] then
      { c with buffer := c.unread.take n, unread := c.unread.drop n }
    else c
  | .write n =>
    if c.phase = .copying ∧ closed = false then
      { c with written := c.written ++ c.buffer.take n, buffer := c.buffer.drop n }
    else c
  | .eof =>
    if c.phase = .copying ∧ closed = false ∧ c.buffer = [] ∧ c.fin ∧ c.unread = [] then
      { c with phase := .closing }
    else c
  | .fault => if c.phase = .copying then { c with phase := .closing, failed := true } else c
  | .closeWrite => if c.phase = .closing then { c with phase := .done } else c

/-- A direction passes on what its source sent, in order, and is over only after all of it or after
an error. -/
structure Verbatim (c : Copy) : Prop where
  input : c.input = c.written ++ c.buffer ++ c.unread
  waiting : c.phase = .waiting → c.written = []
  ended : c.phase = .closing ∨ c.phase = .done →
    c.failed = true ∨ c.fin = true ∧ c.written = c.input

theorem Verbatim.initial : Verbatim initial := ⟨rfl, fun _ => rfl, by decide⟩

theorem Verbatim.step {c : Copy} (h : Verbatim c) (closed : Bool) (ev : CopyEvent) :
    Verbatim (c.step closed ev) := by
  cases ev with
  | sends b =>
    rw [Copy.step]
    split_ifs with hfin
    · exact h
    · refine ⟨?_, h.waiting, fun hphase => ?_⟩
      · rw [h.input, List.append_assoc]
      · exact .inl ((h.ended hphase).resolve_right fun hright => hfin hright.1)
  | finishes =>
    exact ⟨h.input, h.waiting,
      fun hphase => (h.ended hphase).imp_right fun hright => ⟨rfl, hright.2⟩⟩
  | read n =>
    rw [Copy.step]
    split_ifs with hread
    · refine ⟨?_, h.waiting, h.ended⟩
      rw [h.input, hread.2.2, List.append_nil, List.append_assoc, List.take_append_drop]
    · exact h
  | write n =>
    rw [Copy.step]
    split_ifs with hwrite
    · obtain ⟨hphase, -⟩ := hwrite
      refine ⟨?_, fun hwaiting => ?_, fun hended => ?_⟩
      · change c.input = c.written ++ c.buffer.take n ++ c.buffer.drop n ++ c.unread
        rw [List.append_assoc c.written, List.take_append_drop, h.input]
      · exact absurd (hphase.symm.trans hwaiting) (by decide)
      · simp [hphase] at hended
    · exact h
  | eof =>
    rw [Copy.step]
    split_ifs with heof
    · obtain ⟨-, -, hbuffer, hfin, hunread⟩ := heof
      refine ⟨h.input, fun hwaiting => absurd hwaiting (by simp), fun _ => .inr ⟨hfin, ?_⟩⟩
      have hinput := h.input
      rw [hbuffer, hunread, List.append_nil, List.append_nil] at hinput
      exact hinput.symm
    · exact h
  | fault =>
    rw [Copy.step]
    split_ifs
    · exact ⟨h.input, fun hwaiting => absurd hwaiting (by simp), fun _ => .inl rfl⟩
    · exact h
  | closeWrite =>
    rw [Copy.step]
    split_ifs with hphase
    · exact ⟨h.input, fun hwaiting => absurd hwaiting (by simp), fun _ => h.ended (.inl hphase)⟩
    · exact h

/-- How far a direction may have come from one state to a later one. -/
structure Follows (c c' : Copy) : Prop where
  waiting : c.phase = .waiting → c'.phase = .waiting
  started : c.phase ≠ .waiting → c'.phase ≠ .waiting
  done : c.phase = .done → c'.phase = .done

theorem Follows.refl (c : Copy) : Follows c c := ⟨id, id, id⟩

theorem Follows.step (c : Copy) (closed : Bool) (ev : CopyEvent) :
    Follows c (c.step closed ev) := by
  cases ev <;> rw [Copy.step]
  case finishes => exact ⟨id, id, id⟩
  all_goals
    split_ifs
    · constructor <;> simp_all
    · exact ⟨id, id, id⟩

/-- What the goroutine still does by itself once the connections are closed. -/
def owed (c : Copy) : List CopyEvent :=
  match c.phase with
  | .copying => [.fault, .closeWrite]
  | .closing => [.closeWrite]
  | _ => []

theorem owed_eq_nil {c : Copy} (h : c.owed = []) : c.phase = .waiting ∨ c.phase = .done := by
  cases hphase : c.phase <;> simp_all [owed]

theorem owed_step (c : Copy) (closed : Bool) (ev : CopyEvent) :
    List.Sublist (c.step closed ev).owed c.owed := by
  cases ev <;> rw [step]
  case finishes => exact List.Sublist.refl _
  all_goals
    split_ifs with h
    · simp [owed, h]
    · exact List.Sublist.refl _

theorem owed_step_of_cons {c : Copy} {ev : CopyEvent} {rest : List CopyEvent}
    (h : c.owed = ev :: rest) (closed : Bool) : (c.step closed ev).owed = rest := by
  cases hphase : c.phase with
  | waiting => simp [owed, hphase] at h
  | done => simp [owed, hphase] at h
  | copying =>
    simp only [owed, hphase, List.cons.injEq] at h
    obtain ⟨rfl, rfl⟩ := h
    simp [step, hphase, owed]
  | closing =>
    simp only [owed, hphase, List.cons.injEq] at h
    obtain ⟨rfl, rfl⟩ := h
    simp [step, hphase, owed]

theorem step_written (c : Copy) (ev : CopyEvent) : (c.step true ev).written = c.written := by
  cases ev <;> simp only [step, Bool.true_eq_false, false_and, and_false, if_false]
  all_goals split_ifs <;> rfl

end Copy

/-- Where `relay` is: `dialing` the rest of the upstreams, copying, or back. -/
inductive RelayPhase where
  | dialing (rest : List AddrPort)
  | relaying (upstream : AddrPort)
  | returned (upstream : Option AddrPort)

/-- `refused` are the upstreams that did not accept, in the order they were dialled. Once the
process died or `relay` returned, the connections are `closed`. -/
structure Relay where
  phase : RelayPhase
  refused : List AddrPort
  up : Copy
  down : Copy
  closed : Bool

inductive RelayEvent where
  | dialed
  | refuses
  | up (ev : CopyEvent)
  | down (ev : CopyEvent)
  | die
  | return_

namespace Relay

/-- The loop over the upstreams, with those still to dial. -/
def dial (r : Relay) : List AddrPort → Relay
  | [] => { r with phase := .returned none, closed := true }
  | rest => { r with phase := .dialing rest }

def initial (upstreams : List AddrPort) : Relay :=
  dial ⟨.returned none, [], .initial, .initial, false⟩ upstreams

def step (r : Relay) : RelayEvent → Relay
  | .dialed =>
    match r.phase with
    | .dialing (u :: _) =>
      if r.closed then r
      else
        { r with
          phase := .relaying u
          up := { r.up with phase := .copying }
          down := { r.down with phase := .copying } }
    | _ => r
  | .refuses =>
    match r.phase with
    | .dialing (u :: rest) => { r with refused := r.refused ++ [u] }.dial rest
    | _ => r
  | .up ev => { r with up := r.up.step r.closed ev }
  | .down ev => { r with down := r.down.step r.closed ev }
  | .die => { r with closed := true }
  | .return_ =>
    match r.phase with
    | .relaying u =>
      if r.up.phase = .done ∧ r.down.phase = .done then
        { r with phase := .returned (some u), closed := true }
      else r
    | _ => r

def run (r : Relay) (evs : List RelayEvent) : Relay := evs.foldl step r

/-- What `relay` has come to: the upstream it relays to is the first that accepted, and it is back
only once both directions are over, or once every upstream refused and neither began. -/
inductive Stage (upstreams refused : List AddrPort) (up down : Copy) (closed : Bool) :
    RelayPhase → Prop where
  | dialing (rest : List AddrPort) : upstreams = refused ++ rest → rest ≠ [] →
      up.phase = .waiting → down.phase = .waiting →
      Stage upstreams refused up down closed (.dialing rest)
  | relaying (u : AddrPort) (rest : List AddrPort) : upstreams = refused ++ u :: rest →
      up.phase ≠ .waiting → down.phase ≠ .waiting →
      Stage upstreams refused up down closed (.relaying u)
  | refused : upstreams = refused → closed = true → up.phase = .waiting → down.phase = .waiting →
      Stage upstreams refused up down closed (.returned none)
  | finished (u : AddrPort) (rest : List AddrPort) : upstreams = refused ++ u :: rest →
      closed = true → up.phase = .done → down.phase = .done →
      Stage upstreams refused up down closed (.returned (some u))

structure Faithful (upstreams : List AddrPort) (r : Relay) : Prop where
  up : r.up.Verbatim
  down : r.down.Verbatim
  stage : Stage upstreams r.refused r.up r.down r.closed r.phase

section Steps
variable {upstreams refused : List AddrPort} {up down : Copy} {closed : Bool} {r : Relay}

theorem Faithful.dial {rest : List AddrPort} (hup : r.up.Verbatim)
    (hdown : r.down.Verbatim) (hsplit : upstreams = r.refused ++ rest)
    (hupWaits : r.up.phase = .waiting) (hdownWaits : r.down.phase = .waiting) :
    Faithful upstreams (r.dial rest) := by
  cases rest with
  | nil =>
    rw [List.append_nil] at hsplit
    exact ⟨hup, hdown, .refused hsplit rfl hupWaits hdownWaits⟩
  | cons u rest =>
    exact ⟨hup, hdown, .dialing _ hsplit (List.cons_ne_nil u rest) hupWaits hdownWaits⟩

theorem Faithful.initial (upstreams : List AddrPort) : Faithful upstreams (initial upstreams) :=
  .dial .initial .initial rfl rfl rfl

theorem Stage.copied {up' down' : Copy} {phase : RelayPhase}
    (h : Stage upstreams refused up down closed phase) (hup : up.Follows up')
    (hdown : down.Follows down') : Stage upstreams refused up' down' closed phase := by
  cases h with
  | dialing rest hsplit hne hu hd =>
    exact .dialing rest hsplit hne (hup.waiting hu) (hdown.waiting hd)
  | relaying u rest hsplit hu hd =>
    exact .relaying u rest hsplit (hup.started hu) (hdown.started hd)
  | refused hsplit hclosed hu hd =>
    exact .refused hsplit hclosed (hup.waiting hu) (hdown.waiting hd)
  | finished u rest hsplit hclosed hu hd =>
    exact .finished u rest hsplit hclosed (hup.done hu) (hdown.done hd)

theorem Stage.close {phase : RelayPhase} (h : Stage upstreams refused up down closed phase) :
    Stage upstreams refused up down true phase := by
  cases h with
  | dialing rest hsplit hne hu hd => exact .dialing rest hsplit hne hu hd
  | relaying u rest hsplit hu hd => exact .relaying u rest hsplit hu hd
  | refused hsplit hclosed hu hd => exact .refused hsplit rfl hu hd
  | finished u rest hsplit hclosed hu hd => exact .finished u rest hsplit rfl hu hd

theorem Stage.of_dialing {rest : List AddrPort}
    (h : Stage upstreams refused up down closed (.dialing rest)) :
    upstreams = refused ++ rest ∧ up.phase = .waiting ∧ down.phase = .waiting := by
  cases h with
  | dialing _ hsplit _ hu hd => exact ⟨hsplit, hu, hd⟩

theorem Stage.of_relaying {u : AddrPort}
    (h : Stage upstreams refused up down closed (.relaying u)) :
    (∃ rest, upstreams = refused ++ u :: rest) ∧ up.phase ≠ .waiting ∧ down.phase ≠ .waiting := by
  cases h with
  | relaying _ rest hsplit hu hd => exact ⟨⟨rest, hsplit⟩, hu, hd⟩

theorem Faithful.dialed (h : Faithful upstreams r) : Faithful upstreams (r.step .dialed) := by
  rw [step]
  split
  · next u rest hphase =>
    split_ifs
    · exact h
    · obtain ⟨hsplit, hup, hdown⟩ := (hphase ▸ h.stage).of_dialing
      exact ⟨⟨h.up.input, by simp, by simp⟩, ⟨h.down.input, by simp, by simp⟩,
        .relaying u rest hsplit (by simp) (by simp)⟩
  · exact h

theorem Faithful.refuses (h : Faithful upstreams r) : Faithful upstreams (r.step .refuses) := by
  rw [step]
  split
  · next u rest hphase =>
    obtain ⟨hsplit, hup, hdown⟩ := (hphase ▸ h.stage).of_dialing
    exact .dial h.up h.down (by rw [hsplit, List.append_assoc]; rfl) hup hdown
  · exact h

theorem Faithful.return_ (h : Faithful upstreams r) : Faithful upstreams (r.step .return_) := by
  rw [step]
  split
  · next u hphase =>
    split_ifs with hdone
    · obtain ⟨⟨rest, hsplit⟩, -⟩ := (hphase ▸ h.stage).of_relaying
      exact ⟨h.up, h.down, .finished u rest hsplit rfl hdone.1 hdone.2⟩
    · exact h
  · exact h

theorem Faithful.step (h : Faithful upstreams r) (ev : RelayEvent) :
    Faithful upstreams (r.step ev) := by
  cases ev with
  | dialed => exact h.dialed
  | refuses => exact h.refuses
  | up ev => exact ⟨h.up.step r.closed ev, h.down, h.stage.copied (.step _ _ ev) (.refl _)⟩
  | down ev => exact ⟨h.up, h.down.step r.closed ev, h.stage.copied (.refl _) (.step _ _ ev)⟩
  | die => exact ⟨h.up, h.down, h.stage.close⟩
  | return_ => exact h.return_

theorem Faithful.run (h : Faithful upstreams r) (evs : List RelayEvent) :
    Faithful upstreams (r.run evs) :=
  List.foldlRecOn (motive := Faithful upstreams) evs _ h fun _ hr ev _ => hr.step ev

end Steps

/-! ## After the process died -/

inductive Side where
  | up
  | down

def Side.event : Side → CopyEvent → RelayEvent
  | .up => .up
  | .down => .down

def copy (r : Relay) : Side → Copy
  | .up => r.up
  | .down => r.down

def undialed (r : Relay) : List RelayEvent :=
  match r.phase with
  | .dialing rest => rest.map fun _ => .refuses
  | _ => []

/-- In `evs` each party does, among anything else, what it still has to do by itself: `relay` has
its dials fail, a goroutine has its copy fail and half-closes its destination. -/
structure WindsUp (r : Relay) (evs : List RelayEvent) : Prop where
  dials : List.Sublist r.undialed evs
  goroutines : ∀ side, List.Sublist ((r.copy side).owed.map side.event) evs

section Closed
variable {upstreams : List AddrPort} {r : Relay} {ev : RelayEvent} {evs : List RelayEvent}

theorem copy_step_own (r : Relay) (side : Side) (ev : CopyEvent) :
    (r.step (side.event ev)).copy side = (r.copy side).step r.closed ev := by
  cases side <;> rfl

theorem step_dialed (hclosed : r.closed = true) : r.step .dialed = r := by
  rw [step]
  split
  · rw [if_pos hclosed]
  · rfl

theorem step_closed (hclosed : r.closed = true) (ev : RelayEvent) : (r.step ev).closed = true := by
  cases ev with
  | dialed => rw [step_dialed hclosed, hclosed]
  | refuses =>
    rw [step]
    split
    · next u rest _ => cases rest <;> simp [dial, hclosed]
    · exact hclosed
  | up ev => exact hclosed
  | down ev => exact hclosed
  | die => rfl
  | return_ =>
    rw [step]
    repeat' split
    all_goals first | rfl | exact hclosed

theorem copy_step_other (hclosed : r.closed = true) {side : Side}
    (hev : ∀ ev', ev ≠ side.event ev') : (r.step ev).copy side = r.copy side := by
  cases ev with
  | dialed => rw [step_dialed hclosed]
  | refuses =>
    rw [step]
    split
    · next u rest _ => cases side <;> cases rest <;> rfl
    · rfl
  | up ev' =>
    cases side with
    | up => exact absurd rfl (hev ev')
    | down => rfl
  | down ev' =>
    cases side with
    | up => rfl
    | down => exact absurd rfl (hev ev')
  | die => cases side <;> rfl
  | return_ =>
    rw [step]
    repeat' split
    all_goals cases side <;> rfl

theorem written_step (hclosed : r.closed = true) (ev : RelayEvent) (side : Side) :
    ((r.step ev).copy side).written = (r.copy side).written := by
  by_cases hown : ∃ ev', ev = side.event ev'
  · obtain ⟨ev', rfl⟩ := hown
    rw [copy_step_own, hclosed, Copy.step_written]
  · rw [copy_step_other hclosed (not_exists.mp hown)]

theorem written_run (hclosed : r.closed = true) (evs : List RelayEvent) (side : Side) :
    ((r.run evs).copy side).written = (r.copy side).written := by
  induction evs generalizing r with
  | nil => rfl
  | cons ev evs ih => exact (ih (step_closed hclosed ev)).trans (written_step hclosed ev side)

/-- What is left of `l` after `ev` is found in the rest, if `ev` takes away what it is. -/
theorem sublist_of_cons {l l' : List RelayEvent} (h : List.Sublist l (ev :: evs))
    (hsub : List.Sublist l' l) (hcons : ∀ rest, l = ev :: rest → l' = rest) :
    List.Sublist l' evs := by
  cases h with
  | cons _ h => exact hsub.trans h
  | cons_cons _ h => exact hcons _ rfl ▸ h

theorem undialed_step (hclosed : r.closed = true) (h : List.Sublist r.undialed (ev :: evs)) :
    List.Sublist (r.step ev).undialed evs := by
  by_cases hev : ev = .refuses
  · subst hev
    cases hphase : r.phase with
    | dialing rest =>
      cases rest with
      | nil => simp [step, undialed, hphase]
      | cons u rest =>
        simp only [undialed, hphase, List.map_cons, List.cons_sublist_cons] at h
        cases rest with
        | nil => simp [step, hphase, dial, undialed]
        | cons v rest => simpa [step, hphase, dial, undialed] using h
    | relaying u => simp [step, undialed, hphase]
    | returned upstream => simp [step, undialed, hphase]
  · have hsub : List.Sublist (r.step ev).undialed r.undialed := by
      cases ev with
      | dialed => rw [step_dialed hclosed]
      | refuses => exact absurd rfl hev
      | up ev => exact List.Sublist.refl _
      | down ev => exact List.Sublist.refl _
      | die => exact List.Sublist.refl _
      | return_ =>
        rw [step]
        repeat' split
        all_goals first | exact List.nil_sublist _ | exact List.Sublist.refl _
    refine sublist_of_cons h hsub fun rest hrest => absurd ?_ hev
    unfold undialed at hrest
    split at hrest
    · obtain ⟨-, -, -, heq, -⟩ := List.map_eq_cons_iff.mp hrest
      exact heq.symm
    · cases hrest

theorem WindsUp.step (hclosed : r.closed = true) (h : WindsUp r (ev :: evs)) :
    WindsUp (r.step ev) evs := by
  constructor
  · exact undialed_step hclosed h.dials
  · intro side
    by_cases hown : ∃ ev', ev = side.event ev'
    · obtain ⟨ev', rfl⟩ := hown
      rw [copy_step_own]
      refine sublist_of_cons (h.goroutines side) ((Copy.owed_step ..).map _) ?_
      intro rest hrest
      obtain ⟨ev, owed, howed, heq, rfl⟩ := List.map_eq_cons_iff.mp hrest
      have heq : ev = ev' := by cases side <;> cases heq <;> rfl
      rw [← heq, Copy.owed_step_of_cons howed]
    · rw [copy_step_other hclosed (not_exists.mp hown)]
      refine sublist_of_cons (h.goroutines side) (List.Sublist.refl _) ?_
      intro rest hrest
      obtain ⟨ev', -, -, heq, -⟩ := List.map_eq_cons_iff.mp hrest
      exact absurd ⟨ev', heq.symm⟩ hown

/-- Once all that is done, the relay returns. -/
theorem WindsUp.returns (hr : Faithful upstreams r) (h : WindsUp r []) :
    ∃ upstream, (r.step .return_).phase = .returned upstream := by
  have hover : ∀ side, (r.copy side).phase = .waiting ∨ (r.copy side).phase = .done := fun side =>
    Copy.owed_eq_nil (List.map_eq_nil_iff.mp (List.sublist_nil.mp (h.goroutines side)))
  cases hphase : r.phase with
  | returned upstream => exact ⟨upstream, by simp [Relay.step, hphase]⟩
  | dialing rest =>
    have hstage := hphase ▸ hr.stage
    have hdials := h.dials
    cases hstage with
    | dialing _ _ hne _ _ => simp [undialed, hphase, hne] at hdials
  | relaying u =>
    obtain ⟨-, hup, hdown⟩ := (hphase ▸ hr.stage).of_relaying
    have hdone : r.up.phase = .done ∧ r.down.phase = .done :=
      ⟨(hover .up).resolve_left hup, (hover .down).resolve_left hdown⟩
    refine ⟨some u, ?_⟩
    simp only [Relay.step, hphase]
    rw [if_pos hdone]

theorem step_returned {upstream : Option AddrPort} (h : r.phase = .returned upstream)
    (ev : RelayEvent) : (r.step ev).phase = .returned upstream := by
  cases ev <;> simp [step, h]

theorem WindsUp.run (hr : Faithful upstreams r) (hclosed : r.closed = true) (h : WindsUp r evs)
    (more : List RelayEvent) :
    ∃ upstream, (r.run (evs ++ .return_ :: more)).phase = .returned upstream := by
  induction evs generalizing r with
  | nil =>
    obtain ⟨upstream, hreturned⟩ := h.returns hr
    exact ⟨upstream, List.foldlRecOn (motive := fun r : Relay => r.phase = .returned upstream)
      more _ hreturned fun _ h ev _ => step_returned h ev⟩
  | cons ev evs ih => exact ih (hr.step ev) (step_closed hclosed ev) (h.step hclosed)

end Closed

/-- In any order of reads, writes, errors and closes on either side: the bytes written to one side
are always a first part of those the other sent, a side is half-closed only after all the other sent
before closing or after an error, the upstream is the first that accepted, and the relay is back
only once both directions are over. Once the process died nothing more is written, and the relay has
returned as soon as each party did what it does by itself, whatever the peers do. -/
theorem relay_faithful (upstreams : List AddrPort) (evs : List RelayEvent) :
    let r := (initial upstreams).run evs
    (∀ side, (r.copy side).written <+: (r.copy side).input ∧
      ((r.copy side).phase = .done → (r.copy side).failed = true ∨
        (r.copy side).fin = true ∧ (r.copy side).written = (r.copy side).input)) ∧
    Stage upstreams r.refused r.up r.down r.closed r.phase ∧
    (∀ tail side, (((r.step .die).run tail).copy side).written = (r.copy side).written) ∧
    ∀ tail more, WindsUp (r.step .die) tail →
      ∃ upstream, ((r.step .die).run (tail ++ .return_ :: more)).phase = .returned upstream := by
  intro r
  have hr : Faithful upstreams r := (Faithful.initial upstreams).run evs
  refine ⟨?_, hr.stage, ?_, ?_⟩
  · intro side
    have hcopy : (r.copy side).Verbatim := by
      cases side with
      | up => exact hr.up
      | down => exact hr.down
    refine ⟨⟨(r.copy side).buffer ++ (r.copy side).unread, ?_⟩, ?_⟩
    · rw [hcopy.input, List.append_assoc]
    · exact fun hdone => hcopy.ended (.inr hdone)
  · intro tail side
    rw [written_run (r := r.step .die) rfl]
    cases side <;> rfl
  · intro tail more htail
    exact htail.run (hr.step .die) rfl more

end Relay
end Minuteman.DnsProxy
