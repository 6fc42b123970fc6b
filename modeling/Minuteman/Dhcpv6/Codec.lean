import Minuteman.Dhcpv6.Messages

/-!
# DHCPv6 encoding and decoding are inverse

Options that each fit their 16-bit length decode to what was encoded, and
what decodes is the encoding of what it decodes to.
-/
namespace Minuteman.Dhcpv6
open Library ByteString

def Options.Fit (o : Options) : Prop := ∀ opt ∈ o, opt.data.length ≤ 65535

@[simp] theorem fit_nil : Options.Fit [] := by simp [Options.Fit]

@[simp] theorem fit_cons {opt : DhcpOption} {o : Options} :
    Options.Fit (opt :: o) ↔ opt.data.length ≤ 65535 ∧ o.Fit := List.forall_mem_cons

/-- A message fits if the options of its exchange do. -/
theorem Exchange.message_fit {x : Exchange} (h : x.options.Fit) {clientID : Duid}
    (hclient : clientID.length ≤ 65535) (xid : TransactionID) (elapsed : ℤ) :
    (x.message xid clientID elapsed).options.Fit := by
  have helapsed : (newElapsedTimeOption elapsed).data.length = 2 := rfl
  intro opt hopt
  simp only [Exchange.message, List.mem_append, List.mem_singleton] at hopt
  rcases hopt with (rfl | hopt) | rfl
  · exact hclient
  · exact h opt hopt
  · omega

theorem marshal_cons (opt : DhcpOption) (o : Options) : Options.marshal (opt :: o) =
    be16 opt.code ++ (be16 (UInt16.ofNat opt.data.length) ++ (opt.data ++ Options.marshal o)) := by
  simp [Options.marshal]

theorem marshal_length_cons (opt : DhcpOption) (o : Options) :
    (Options.marshal (opt :: o)).length = 4 + opt.data.length + (Options.marshal o).length := by
  simp only [marshal_cons, List.length_append, be16_length]
  omega

theorem parseOptionsFrom_succ {b : Bytes} (hb : b ≠ []) (fuel : ℕ) :
    parseOptionsFrom (fuel + 1) b =
      if b.length < 4 then .error (.truncatedHeader b.length)
      else if b.length < 4 + (be16At b 2).toNat then
        .error (.lengthExceeds (be16At b 0) (be16At b 2).toNat (b.length - 4))
      else (parseOptionsFrom fuel (b.drop (4 + (be16At b 2).toNat))).map
        (⟨be16At b 0, (b.drop 4).take (be16At b 2).toNat⟩ :: ·) := by
  cases b with
  | nil => exact absurd rfl hb
  | cons x b =>
    rw [parseOptionsFrom]
    dsimp only
    split_ifs
    · rfl
    · rfl
    · cases parseOptionsFrom fuel (List.drop (4 + (be16At (x :: b) 2).toNat) (x :: b)) <;> rfl

/-- The first option of an encoding is read off it. -/
theorem parseOptionsFrom_cons {opt : DhcpOption} (h : opt.data.length ≤ 65535) (rest : Bytes)
    (fuel : ℕ) :
    parseOptionsFrom (fuel + 1)
        (be16 opt.code ++ (be16 (UInt16.ofNat opt.data.length) ++ (opt.data ++ rest))) =
      (parseOptionsFrom fuel rest).map (opt :: ·) := by
  generalize hb : be16 opt.code ++ (be16 (UInt16.ofNat opt.data.length) ++ (opt.data ++ rest)) = b
  have hcode : be16At b 0 = opt.code := hb ▸ be16At_be16 _ _
  have hlength : (be16At b 2).toNat = opt.data.length := by
    have hread : be16At b 2 = UInt16.ofNat opt.data.length := hb ▸ be16At_be16 _ (opt.data ++ rest)
    exact hread ▸ UInt16.toNat_ofNat_of_lt' (Nat.lt_succ_of_le h)
  have hsize : b.length = 4 + opt.data.length + rest.length := by
    rw [← hb]
    simp only [List.length_append, be16_length]
    omega
  have hdrop : b.drop 4 = opt.data ++ rest := hb ▸ rfl
  have hne : b ≠ [] := by
    rintro rfl
    simp only [List.length_nil] at hsize
    omega
  rw [parseOptionsFrom_succ hne, hcode, hlength, if_neg (by omega), if_neg (by omega),
    ← List.drop_drop, hdrop, List.drop_left, List.take_left]

theorem parseOptionsFrom_marshal {o : Options} (h : o.Fit) {fuel : ℕ}
    (hfuel : (Options.marshal o).length ≤ fuel) :
    parseOptionsFrom fuel (Options.marshal o) = .ok o := by
  induction o generalizing fuel with
  | nil =>
    cases fuel <;> rfl
  | cons opt o ih =>
    rw [marshal_length_cons] at hfuel
    cases fuel with
    | zero => omega
    | succ fuel =>
      rw [fit_cons] at h
      rw [marshal_cons, parseOptionsFrom_cons h.1, ih h.2 (by omega)]
      rfl

/-- What decodes is the encoding of the options read, which fit. -/
theorem marshal_of_parseOptionsFrom {o : Options} {fuel : ℕ} {b : Bytes} (hfuel : b.length ≤ fuel)
    (h : parseOptionsFrom fuel b = .ok o) : o.marshal = b ∧ o.Fit := by
  induction fuel generalizing b o with
  | zero =>
    cases List.eq_nil_of_length_eq_zero (Nat.le_zero.mp hfuel)
    cases h
    exact ⟨rfl, fit_nil⟩
  | succ fuel ih =>
    by_cases hb : b = []
    · subst hb
      cases h
      exact ⟨rfl, fit_nil⟩
    · rw [parseOptionsFrom_succ hb] at h
      split_ifs at h with hshort hover
      cases hrest : parseOptionsFrom fuel (b.drop (4 + (be16At b 2).toNat)) with
      | error e =>
        rw [hrest] at h
        cases h
      | ok rest =>
        rw [hrest] at h
        cases h
        have hlt := (be16At b 2).toNat_lt
        have hdata : ((b.drop 4).take (be16At b 2).toNat).length = (be16At b 2).toNat := by
          simp only [List.length_take, List.length_drop]
          omega
        obtain ⟨hmarshal, hfit⟩ := ih (by rw [List.length_drop]; omega) hrest
        constructor
        · rw [marshal_cons, hmarshal]
          dsimp only
          rw [hdata, UInt16.ofNat_toNat, ← take_drop_eq_be16 (by omega),
            ← take_drop_eq_be16 (by omega), ← List.drop_drop, List.take_append_drop]
          have htail := List.take_append_drop 2 (b.drop 2)
          rw [List.drop_drop] at htail
          rw [htail, List.drop_zero, List.take_append_drop]
        · rw [fit_cons, hdata]
          exact ⟨by omega, hfit⟩

theorem parseMessage_marshalBinary {m : Message} (h : m.options.Fit) :
    parseMessage m.marshalBinary = .ok m := by
  have hdrop : m.marshalBinary.drop 4 = m.options.marshal := by
    rw [Message.marshalBinary]
    exact List.drop_left' (by simp)
  have hsize : ¬ m.marshalBinary.length < 4 := by
    simp [Message.marshalBinary]
  have hxid : FixedBytes.read 3 (m.marshalBinary.drop 1) = m.xid :=
    m.xid.read_append m.options.marshal
  rw [parseMessage, if_neg hsize, hdrop, parseOptions, parseOptionsFrom_marshal h le_rfl, hxid]
  rfl

theorem marshalBinary_of_parseMessage {b : Bytes} {m : Message} (h : parseMessage b = .ok m) :
    m.marshalBinary = b ∧ m.options.Fit := by
  rw [parseMessage] at h
  split_ifs at h with hshort
  cases hopts : parseOptions (b.drop 4) with
  | error e =>
    rw [hopts] at h
    cases h
  | ok opts =>
    rw [hopts] at h
    cases h
    obtain ⟨hmarshal, hfit⟩ := marshal_of_parseOptionsFrom le_rfl hopts
    refine ⟨?_, hfit⟩
    cases b with
    | nil => exact absurd (by decide) hshort
    | cons x b =>
      rw [List.length_cons] at hshort
      rw [Message.marshalBinary, hmarshal]
      change [x] ++ (FixedBytes.read 3 b).bytes ++ b.drop 3 = x :: b
      rw [FixedBytes.read, dif_pos (by omega), List.append_assoc, List.take_append_drop]
      rfl

end Minuteman.Dhcpv6
