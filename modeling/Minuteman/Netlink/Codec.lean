import Minuteman.Netlink.Wire

/-!
# What the netlink parsers read is what was encoded

Every walk over the attributes of a message visits those that were encoded, in
their order, and stays inside the buffer whatever is in it. Splitting a buffer
gives back the messages it was put together from.
-/
namespace Minuteman.Netlink.Wire
open Library ByteString Checked Loader

/-- An attribute that fits its 16-bit length. -/
structure Attr where
  type : UInt16
  payload : Bytes
  fits : payload.length ≤ 65531

def encodeAttrs (o : ByteOrder) (as : List Attr) : Bytes :=
  as.flatMap fun a => encodeRtAttr o a.type a.payload

section Walk
variable {o : ByteOrder} {σ ρ : Type} {visit : σ → Bytes → UInt16 → ℕ → Checked (Visit σ ρ)}
  {spec : σ → UInt16 → Bytes → Visit σ ρ}

/-- A visit reads nothing but the type and the value of the attribute, inside the buffer. -/
def Sees (visit : σ → Bytes → UInt16 → ℕ → Checked (Visit σ ρ))
    (spec : σ → UInt16 → Bytes → Visit σ ρ) : Prop :=
  ∀ (s : σ) (attrs : Bytes) (attrType : UInt16) (attrLen : ℕ), sizeofRtAttr ≤ attrLen →
    attrLen ≤ attrs.length →
    visit s attrs attrType attrLen = .ok (spec s attrType ((attrs.take attrLen).drop sizeofRtAttr))

def visitAll (spec : σ → UInt16 → Bytes → Visit σ ρ) : σ → List Attr → Visit σ ρ
  | s, [] => .next s
  | s, a :: as =>
    match spec s a.type a.payload with
    | .done r => .done r
    | .next s => visitAll spec s as

theorem walkAttrs_short {attrs : Bytes} (h : attrs.length < sizeofRtAttr) (s : σ) :
    walkAttrs o visit s attrs = .ok (.next s) := by
  rw [walkAttrs, if_pos h]

/-- One round of the walk. -/
theorem walkAttrs_round (hsees : Sees visit spec) {attrs : Bytes} (h : sizeofRtAttr ≤ attrs.length)
    (s : σ) :
    walkAttrs o visit s attrs =
      let attrLen := (o.at16 attrs).toNat
      if attrLen < sizeofRtAttr ∨ attrLen > attrs.length then .ok (.next s)
      else
        match spec s (o.at16 (attrs.drop 2)) ((attrs.take attrLen).drop sizeofRtAttr) with
        | .done r => .ok (.done r)
        | .next s =>
          if nlmsgAlign attrLen > attrs.length then .ok (.next s)
          else walkAttrs o visit s (attrs.drop (nlmsgAlign attrLen)) := by
  have hlen : (slice attrs 0 2 >>= o.uint16) = .ok (o.at16 attrs) :=
    ByteOrder.slice_uint16 (i := 0) (le_trans (by decide) h)
  have htype : (slice attrs 2 4 >>= o.uint16) = .ok (o.at16 (attrs.drop 2)) :=
    ByteOrder.slice_uint16 (i := 2) h
  rw [walkAttrs, if_neg (not_lt.mpr h), hlen, ok_bind, htype, ok_bind]
  dsimp only
  by_cases hbad : (o.at16 attrs).toNat < sizeofRtAttr ∨ (o.at16 attrs).toNat > attrs.length
  · rw [if_pos hbad, if_pos hbad]
  · rw [if_neg hbad, if_neg hbad, hsees _ _ _ _ (by omega) (by omega), ok_bind]
    cases spec s (o.at16 (attrs.drop 2)) ((attrs.take (o.at16 attrs).toNat).drop sizeofRtAttr) with
    | done r => rfl
    | next s =>
      dsimp only
      by_cases hnext : nlmsgAlign (o.at16 attrs).toNat > attrs.length
      · rw [if_pos hnext, if_pos hnext]
      · rw [if_neg hnext, if_neg hnext]
        split
        · next e he =>
          rw [sliceFrom_eq (not_lt.mp hnext)] at he
          cases he
        · next rest hrest =>
          obtain ⟨-, rfl⟩ := sliceFrom_ok hrest
          rfl

/-- A walk whose visits stay inside the buffer returns. -/
theorem walkAttrs_returns (hsees : Sees visit spec) (s : σ) (attrs : Bytes) :
    ∃ v, walkAttrs o visit s attrs = .ok v := by
  induction hn : attrs.length using Nat.strong_induction_on generalizing s attrs with
  | _ n ih =>
    subst hn
    by_cases hshort : attrs.length < sizeofRtAttr
    · exact ⟨_, walkAttrs_short hshort s⟩
    · rw [walkAttrs_round hsees (not_lt.mp hshort)]
      dsimp only
      by_cases hbad : (o.at16 attrs).toNat < sizeofRtAttr ∨ (o.at16 attrs).toNat > attrs.length
      · rw [if_pos hbad]
        exact ⟨_, rfl⟩
      · rw [if_neg hbad]
        split
        · exact ⟨_, rfl⟩
        · split_ifs
          · exact ⟨_, rfl⟩
          · have halign := le_nlmsgAlign (o.at16 attrs).toNat
            have hpos : 0 < sizeofRtAttr := by decide
            refine ih _ ?_ _ _ rfl
            rw [List.length_drop]
            omega

theorem encodeRtAttr_length (attrType : UInt16) (payload : Bytes) :
    (encodeRtAttr o attrType payload).length = nlmsgAlign (sizeofRtAttr + payload.length) := by
  have halign := le_nlmsgAlign (sizeofRtAttr + payload.length)
  simp only [encodeRtAttr, List.length_append, ByteOrder.put16_length, List.length_replicate]
  simp only [sizeofRtAttr] at *
  omega

/-- A walk reads the first attribute and goes on behind it. -/
theorem walkAttrs_cons (hsees : Sees visit spec) (s : σ) (a : Attr) (rest : Bytes) :
    walkAttrs o visit s (encodeRtAttr o a.type a.payload ++ rest) =
      match spec s a.type a.payload with
      | .done r => .ok (.done r)
      | .next s => walkAttrs o visit s rest := by
  have hfits := a.fits
  generalize hattrs : encodeRtAttr o a.type a.payload ++ rest = attrs
  have hsize : attrs.length = nlmsgAlign (sizeofRtAttr + a.payload.length) + rest.length := by
    rw [← hattrs, List.length_append, encodeRtAttr_length]
  have halign := le_nlmsgAlign (sizeofRtAttr + a.payload.length)
  have hlen : (o.at16 attrs).toNat = sizeofRtAttr + a.payload.length := by
    rw [← hattrs, encodeRtAttr]
    simp only [List.append_assoc, ByteOrder.at16_put16, UInt16.toNat_ofNat']
    simp only [sizeofRtAttr]
    omega
  have htype : o.at16 (attrs.drop 2) = a.type := by
    rw [← hattrs, encodeRtAttr]
    simp only [List.append_assoc, List.drop_left' (ByteOrder.put16_length _), ByteOrder.at16_put16]
  have hvalue : (attrs.take (sizeofRtAttr + a.payload.length)).drop sizeofRtAttr = a.payload := by
    have hheader : (o.put16 (UInt16.ofNat (sizeofRtAttr + a.payload.length)) ++
        o.put16 a.type).length = sizeofRtAttr := by
      rw [List.length_append, ByteOrder.put16_length, ByteOrder.put16_length]
      rfl
    rw [List.drop_take, Nat.add_sub_cancel_left, ← hattrs, encodeRtAttr]
    simp only [List.append_assoc _ a.payload]
    rw [List.append_assoc, List.drop_left' hheader, List.append_assoc, List.take_left]
  have hrest : attrs.drop (nlmsgAlign (sizeofRtAttr + a.payload.length)) = rest := by
    rw [← hattrs]
    exact List.drop_left' (encodeRtAttr_length a.type a.payload)
  rw [walkAttrs_round hsees (by omega)]
  dsimp only
  rw [hlen, htype, hvalue, if_neg (by omega)]
  cases spec s a.type a.payload with
  | done r => rfl
  | next s =>
    dsimp only
    rw [if_neg (by omega), hrest]

/-- A walk visits the attributes encoded. -/
theorem walkAttrs_encodeAttrs (hsees : Sees visit spec) (s : σ) (as : List Attr) :
    walkAttrs o visit s (encodeAttrs o as) = .ok (visitAll spec s as) := by
  induction as generalizing s with
  | nil =>
    have hempty : (encodeAttrs o []).length < sizeofRtAttr := Nat.zero_lt_succ 3
    exact walkAttrs_short hempty s
  | cons a as ih =>
    have hcons : encodeAttrs o (a :: as) = encodeRtAttr o a.type a.payload ++ encodeAttrs o as := rfl
    rw [hcons, walkAttrs_cons hsees, visitAll]
    cases spec s a.type a.payload with
    | done r => rfl
    | next s => exact ih s

/-- A walk that looks at every attribute. -/
theorem visitAll_next (step : σ → UInt16 → Bytes → σ) (s : σ) (as : List Attr) :
    visitAll (ρ := ρ) (fun s t v => .next (step s t v)) s as =
      .next (as.foldl (fun s a => step s a.type a.payload) s) := by
  induction as generalizing s with
  | nil => rfl
  | cons a as ih => exact ih _

end Walk

def lastAttr (attrType : UInt16) (as : List Attr) : Option Attr :=
  as.reverse.find? (·.type = attrType)

/-- What is set from each attribute of a type is set from the last. -/
theorem foldl_lastAttr {σ β : Type} {step : σ → UInt16 → Bytes → σ} (get : σ → β) (ty : UInt16)
    (read : Bytes → β) (hstep : ∀ s t v, get (step s t v) = if t = ty then read v else get s)
    (s : σ) (as : List Attr) :
    get (as.foldl (fun s a => step s a.type a.payload) s) =
      ((lastAttr ty as).map fun a => read a.payload).getD (get s) := by
  induction as using List.reverseRecOn with
  | nil => rfl
  | append_singleton as a ih =>
    rw [List.foldl_append, List.foldl_cons, List.foldl_nil, hstep, lastAttr, List.reverse_append,
      List.reverse_singleton, List.singleton_append, List.find?_cons]
    by_cases hty : a.type = ty
    · simp [hty]
    · simp [hty, ih, lastAttr]

namespace Header
variable {n : ℕ} (hdr : FixedBytes n) (rest : Bytes)

theorem le_length : n ≤ (hdr.bytes ++ rest).length := by
  rw [List.length_append, hdr.size]
  exact Nat.le_add_right _ _

theorem byteAt_append {i : ℕ} (h : i < n) :
    byteAt (hdr.bytes ++ rest) i = byteAt hdr.bytes i :=
  byteAt_append_left (h.trans_eq hdr.size.symm)

theorem drop_append : (hdr.bytes ++ rest).drop n = rest := List.drop_left' hdr.size

end Header

section Prefsrc

def specPrefsrc (_ : Unit) (attrType : UInt16) (value : Bytes) : Visit Unit Addr :=
  if attrType = rtaPrefsrc then
    match addrFromSlice value with
    | some addr => .done addr
    | none => .next ()
  else .next ()

theorem sees_visitPrefsrc : Sees visitPrefsrc specPrefsrc := by
  intro s attrs attrType attrLen hlow hhigh
  rw [visitPrefsrc, specPrefsrc, slice_eq hlow hhigh, ok_bind]
  split_ifs
  · cases addrFromSlice ((attrs.take attrLen).drop sizeofRtAttr) <;> rfl
  · rfl

/-- The first preferred source that is an address. -/
def prefsrcOf (as : List Attr) : Option Addr :=
  as.findSome? fun a => if a.type = rtaPrefsrc then addrFromSlice a.payload else none

theorem visitAll_specPrefsrc (as : List Attr) :
    visitAll specPrefsrc () as =
      match prefsrcOf as with
      | some addr => .done addr
      | none => .next () := by
  induction as with
  | nil => rfl
  | cons a as ih =>
    rw [visitAll, prefsrcOf, List.findSome?_cons, specPrefsrc]
    by_cases htype : a.type = rtaPrefsrc
    · rw [if_pos htype, if_pos htype]
      cases addrFromSlice a.payload with
      | none => exact ih
      | some addr => rfl
    · rw [if_neg htype, if_neg htype]
      exact ih

def Visit.result : Visit Unit Addr → Option Addr
  | .done addr => some addr
  | .next _ => none

theorem parseRoutePrefsrc_eq {o : ByteOrder} {payload : Bytes}
    (h : sizeofRtMsg ≤ payload.length) :
    parseRoutePrefsrc o payload =
      if byteAt payload 0 = afInet6 then
        (walkAttrs o visitPrefsrc () (payload.drop sizeofRtMsg)).map Visit.result
      else .ok none := by
  rw [parseRoutePrefsrc, if_neg (not_lt.mpr h), index_eq (lt_of_lt_of_le (by decide) h), ok_bind]
  by_cases hv6 : byteAt payload 0 = afInet6
  · rw [if_neg (not_not_intro hv6), if_pos hv6, sliceFrom_eq h, ok_bind]
    obtain ⟨v, hv⟩ := walkAttrs_returns (o := o) sees_visitPrefsrc () (payload.drop sizeofRtMsg)
    rw [hv, ok_bind]
    cases v <;> rfl
  · rw [if_pos hv6, if_neg hv6]

theorem parseRoutePrefsrc_returns (o : ByteOrder) (payload : Bytes) :
    ∃ r, parseRoutePrefsrc o payload = .ok r := by
  by_cases hshort : payload.length < sizeofRtMsg
  · rw [parseRoutePrefsrc, if_pos hshort]
    exact ⟨_, rfl⟩
  · obtain ⟨v, hv⟩ := walkAttrs_returns (o := o) sees_visitPrefsrc () (payload.drop sizeofRtMsg)
    rw [parseRoutePrefsrc_eq (not_lt.mp hshort), hv]
    split_ifs <;> exact ⟨_, rfl⟩

theorem parseRoutePrefsrc_encodeAttrs (o : ByteOrder) (hdr : FixedBytes sizeofRtMsg)
    (as : List Attr) :
    parseRoutePrefsrc o (hdr.bytes ++ encodeAttrs o as) =
      .ok (if byteAt hdr.bytes 0 = afInet6 then prefsrcOf as else none) := by
  rw [parseRoutePrefsrc_eq (Header.le_length hdr _), Header.byteAt_append hdr _ (by decide),
    Header.drop_append, walkAttrs_encodeAttrs sees_visitPrefsrc, visitAll_specPrefsrc]
  split_ifs
  · cases prefsrcOf as <;> rfl
  · rfl

end Prefsrc

section IfAddr

def stepIfAddr (s : IfAddrs) (attrType : UInt16) (value : Bytes) : IfAddrs :=
  if attrType = ifaAddress then { s with address := (addrFromSlice value).getD .invalid }
  else if attrType = ifaLocal then { s with local_ := (addrFromSlice value).getD .invalid }
  else s

theorem sees_visitIfAddr : Sees visitIfAddr fun s t v => .next (stepIfAddr s t v) := by
  intro s attrs attrType attrLen hlow hhigh
  rw [visitIfAddr, slice_eq hlow hhigh, ok_bind]
  dsimp only [stepIfAddr]
  split_ifs <;> rfl

theorem stepIfAddr_address (s : IfAddrs) (t : UInt16) (v : Bytes) : (stepIfAddr s t v).address =
    if t = ifaAddress then (addrFromSlice v).getD .invalid else s.address := by
  unfold stepIfAddr
  split_ifs <;> rfl

theorem stepIfAddr_local (s : IfAddrs) (t : UInt16) (v : Bytes) : (stepIfAddr s t v).local_ =
    if t = ifaLocal then (addrFromSlice v).getD .invalid else s.local_ := by
  unfold stepIfAddr
  split_ifs with haddress hlocal
  · exact absurd (haddress.symm.trans hlocal) (by decide)
  · rfl
  · rfl
  · rfl

def addrOf (attrType : UInt16) (as : List Attr) : Addr :=
  ((lastAttr attrType as).map fun a => (addrFromSlice a.payload).getD .invalid).getD .invalid

theorem foldl_stepIfAddr (as : List Attr) :
    as.foldl (fun s a => stepIfAddr s a.type a.payload) ⟨.invalid, .invalid⟩ =
      ⟨addrOf ifaAddress as, addrOf ifaLocal as⟩ :=
  congrArg₂ IfAddrs.mk
    (foldl_lastAttr IfAddrs.address _ _ stepIfAddr_address ⟨.invalid, .invalid⟩ as)
    (foldl_lastAttr IfAddrs.local_ _ _ stepIfAddr_local ⟨.invalid, .invalid⟩ as)

/-- The prefix that addresses spell with a length. -/
def IfAddrs.spelled (s : IfAddrs) (bits : ℕ) : Option Prefix :=
  let addr := if s.address = .invalid then s.local_ else s.address
  if addr = .invalid then none else some (prefixFrom addr bits)

/-- An address message that is about the interface, and about a global address. -/
def Wanted (o : ByteOrder) (payload : Bytes) (wantIfindex : ℤ) : Prop :=
  byteAt payload 0 = afInet6 ∧ ((o.at32 (payload.drop 4)).toNat : ℤ) = wantIfindex ∧
    byteAt payload 3 = rtScopeUniverse

instance (o : ByteOrder) (payload : Bytes) (wantIfindex : ℤ) :
    Decidable (Wanted o payload wantIfindex) :=
  inferInstanceAs (Decidable (_ ∧ _ ∧ _))

def Visit.state {σ : Type} : Visit σ Empty → σ
  | .next s => s

theorem parseIfAddrMsg_eq {o : ByteOrder} {payload : Bytes} (h : sizeofIfAddrmsg ≤ payload.length)
    (wantIfindex : ℤ) :
    parseIfAddrMsg o payload wantIfindex =
      if Wanted o payload wantIfindex then
        (walkAttrs o visitIfAddr ⟨.invalid, .invalid⟩ (payload.drop sizeofIfAddrmsg)).map fun v =>
          v.state.spelled (byteAt payload 1).toNat
      else .ok none := by
  have hindex : ∀ i < 8, index payload i = .ok (byteAt payload i) := fun i hi =>
    index_eq (lt_of_lt_of_le hi h)
  have hifindex : (slice payload 4 8 >>= o.uint32) = .ok (o.at32 (payload.drop 4)) :=
    ByteOrder.slice_uint32 (i := 4) h
  rw [parseIfAddrMsg, if_neg (not_lt.mpr h), hindex 0 (by decide), ok_bind, hindex 1 (by decide),
    ok_bind, hindex 3 (by decide), ok_bind, hifindex, ok_bind]
  have hother : (byteAt payload 0 ≠ afInet6 ∨ ((o.at32 (payload.drop 4)).toNat : ℤ) ≠ wantIfindex ∨
      byteAt payload 3 ≠ rtScopeUniverse) ↔ ¬ Wanted o payload wantIfindex := by
    simp only [Wanted, not_and_or, ne_eq]
  by_cases hwanted : Wanted o payload wantIfindex
  · rw [if_neg (mt hother.mp (not_not_intro hwanted)), if_pos hwanted, sliceFrom_eq h, ok_bind]
    obtain ⟨v, hv⟩ := walkAttrs_returns (o := o) sees_visitIfAddr ⟨.invalid, .invalid⟩
      (payload.drop sizeofIfAddrmsg)
    rw [hv, ok_bind]
    cases v with
    | next s =>
      exact (apply_ite Except.ok _ none _).symm
    | done r => cases r
  · rw [if_pos (hother.mpr hwanted), if_neg hwanted]

theorem parseIfAddrMsg_returns (o : ByteOrder) (payload : Bytes) (wantIfindex : ℤ) :
    ∃ r, parseIfAddrMsg o payload wantIfindex = .ok r := by
  by_cases hshort : payload.length < sizeofIfAddrmsg
  · rw [parseIfAddrMsg, if_pos hshort]
    exact ⟨_, rfl⟩
  · obtain ⟨v, hv⟩ := walkAttrs_returns (o := o) sees_visitIfAddr ⟨.invalid, .invalid⟩
      (payload.drop sizeofIfAddrmsg)
    rw [parseIfAddrMsg_eq (not_lt.mp hshort), hv]
    split_ifs <;> exact ⟨_, rfl⟩

theorem parseIfAddrMsg_encodeAttrs (o : ByteOrder) (hdr : FixedBytes sizeofIfAddrmsg)
    (as : List Attr) (wantIfindex : ℤ) :
    parseIfAddrMsg o (hdr.bytes ++ encodeAttrs o as) wantIfindex =
      .ok (if Wanted o hdr.bytes wantIfindex then
        IfAddrs.spelled ⟨addrOf ifaAddress as, addrOf ifaLocal as⟩ (byteAt hdr.bytes 1).toNat
      else none) := by
  have hwanted : Wanted o (hdr.bytes ++ encodeAttrs o as) wantIfindex ↔
      Wanted o hdr.bytes wantIfindex := by
    have hifindex : 4 ≤ (hdr.bytes.drop 4).length := by
      rw [List.length_drop, hdr.size]
      decide
    rw [Wanted, Wanted, Header.byteAt_append hdr _ (by decide), Header.byteAt_append hdr _ (by decide),
      List.drop_append_of_le_length (by rw [hdr.size]; decide), ByteOrder.at32_append hifindex]
  rw [parseIfAddrMsg_eq (Header.le_length hdr _), Header.byteAt_append hdr _ (by decide),
    Header.drop_append, walkAttrs_encodeAttrs sees_visitIfAddr, visitAll_next, foldl_stepIfAddr]
  simp only [hwanted]
  split_ifs <;> rfl

end IfAddr

section IfInfo

def untilNul (value : Bytes) : Bytes := value.takeWhile (· ≠ 0)

def specXDPProgID (o : ByteOrder) (_ : Unit) (attrType : UInt16) (value : Bytes) :
    Visit Unit UInt32 :=
  if attrType = iflaXdpProgId ∧ 4 ≤ value.length then .done (o.at32 value) else .next ()

theorem sees_visitXDPProgID (o : ByteOrder) : Sees (visitXDPProgID o) (specXDPProgID o) := by
  intro s attrs attrType attrLen hlow hhigh
  have hvalue : ((attrs.take attrLen).drop sizeofRtAttr).length = attrLen - sizeofRtAttr := by
    rw [List.length_drop, List.length_take, min_eq_left hhigh]
  have hiff : (attrType = iflaXdpProgId ∧ attrLen ≥ sizeofRtAttr + 4) ↔
      (attrType = iflaXdpProgId ∧ 4 ≤ ((attrs.take attrLen).drop sizeofRtAttr).length) := by
    rw [hvalue]
    refine and_congr_right fun _ => ?_
    omega
  rw [visitXDPProgID, specXDPProgID]
  by_cases hid : attrType = iflaXdpProgId ∧ attrLen ≥ sizeofRtAttr + 4
  · have hsplit : attrs.drop sizeofRtAttr =
        (attrs.take attrLen).drop sizeofRtAttr ++ attrs.drop attrLen := by
      rw [← List.drop_append_of_le_length (by rw [List.length_take, min_eq_left hhigh]; exact hlow),
        List.take_append_drop]
    rw [if_pos hid, if_pos (hiff.mp hid), ByteOrder.slice_uint32 (hid.2.trans hhigh), ok_bind, hsplit,
      ByteOrder.at32_append (hiff.mp hid).2]
  · rw [if_neg hid, if_neg (mt hiff.mpr hid)]

def progIDOf (o : ByteOrder) (as : List Attr) : UInt32 :=
  (as.findSome? fun a => if a.type = iflaXdpProgId ∧ 4 ≤ a.payload.length then
    some (o.at32 a.payload) else none).getD 0

def Visit.id : Visit Unit UInt32 → UInt32
  | .done id => id
  | .next _ => 0

theorem parseXDPProgID_eq (o : ByteOrder) (attrs : Bytes) :
    parseXDPProgID o attrs = (walkAttrs o (visitXDPProgID o) () attrs).map Visit.id := by
  rw [parseXDPProgID]
  obtain ⟨v, hv⟩ := walkAttrs_returns (o := o) (sees_visitXDPProgID o) () attrs
  rw [hv, ok_bind]
  cases v <;> rfl

theorem visitAll_specXDPProgID (o : ByteOrder) (as : List Attr) :
    (visitAll (specXDPProgID o) () as).id = progIDOf o as := by
  induction as with
  | nil => rfl
  | cons a as ih =>
    rw [visitAll, progIDOf, List.findSome?_cons, specXDPProgID]
    by_cases hid : a.type = iflaXdpProgId ∧ 4 ≤ a.payload.length
    · rw [if_pos hid, if_pos hid]
      rfl
    · rw [if_neg hid, if_neg hid]
      exact ih

theorem parseXDPProgID_encodeAttrs (o : ByteOrder) (as : List Attr) :
    parseXDPProgID o (encodeAttrs o as) = .ok (progIDOf o as) := by
  rw [parseXDPProgID_eq, walkAttrs_encodeAttrs (sees_visitXDPProgID o), Except.map,
    visitAll_specXDPProgID]

/-- What `parseXDPProgID` returns, as it always does. -/
def progID (o : ByteOrder) (value : Bytes) : UInt32 := (parseXDPProgID o value).toOption.getD 0

theorem parseXDPProgID_returns (o : ByteOrder) (value : Bytes) :
    parseXDPProgID o value = .ok (progID o value) := by
  obtain ⟨v, hv⟩ := walkAttrs_returns (o := o) (sees_visitXDPProgID o) () value
  rw [progID, parseXDPProgID_eq, hv]
  rfl

def stepIfInfo (o : ByteOrder) (link : Link) (attrType : UInt16) (value : Bytes) : Link :=
  if attrType = iflaIfname then { link with name := untilNul value }
  else if attrType = iflaXdp then { link with xdpProgID := progID o value }
  else link

theorem take_idxOf (value : Bytes) : value.take (value.idxOf 0) = untilNul value := by
  induction value with
  | nil => rfl
  | cons b value ih =>
    by_cases hb : b = 0
    · simp [untilNul, hb]
    · rw [List.idxOf_cons_ne value hb, List.take_succ_cons, ih, untilNul, untilNul,
        List.takeWhile_cons_of_pos (by simpa using hb)]

theorem cutName_eq (value : Bytes) : cutName value = .ok (untilNul value) := by
  rw [cutName, ← take_idxOf]
  split_ifs with hnul
  · rw [slice_eq (Nat.zero_le _) hnul.le, List.drop_zero]
  · rw [List.take_of_length_le (not_lt.mp hnul)]

theorem sees_visitIfInfo (o : ByteOrder) :
    Sees (visitIfInfo o) fun s t v => .next (stepIfInfo o s t v) := by
  intro s attrs attrType attrLen hlow hhigh
  rw [visitIfInfo, slice_eq hlow hhigh, ok_bind, cutName_eq, parseXDPProgID_returns]
  dsimp only [stepIfInfo]
  split_ifs <;> rfl

def linkOf (o : ByteOrder) (index : ℕ) (as : List Attr) : Link where
  index := index
  name := ((lastAttr iflaIfname as).map fun a => untilNul a.payload).getD []
  xdpProgID := ((lastAttr iflaXdp as).map fun a => progID o a.payload).getD 0

theorem stepIfInfo_name (o : ByteOrder) (s : Link) (t : UInt16) (v : Bytes) :
    (stepIfInfo o s t v).name = if t = iflaIfname then untilNul v else s.name := by
  unfold stepIfInfo
  split_ifs <;> rfl

theorem stepIfInfo_xdpProgID (o : ByteOrder) (s : Link) (t : UInt16) (v : Bytes) :
    (stepIfInfo o s t v).xdpProgID = if t = iflaXdp then progID o v else s.xdpProgID := by
  unfold stepIfInfo
  split_ifs with hname hxdp
  · exact absurd (hname.symm.trans hxdp) (by decide)
  · rfl
  · rfl
  · rfl

theorem foldl_stepIfInfo (o : ByteOrder) (index : ℕ) (as : List Attr) :
    as.foldl (fun s a => stepIfInfo o s a.type a.payload) ⟨index, [], 0⟩ = linkOf o index as := by
  have hindex : (as.foldl (fun s a => stepIfInfo o s a.type a.payload) ⟨index, [], 0⟩).index =
      index := by
    refine List.foldlRecOn (motive := fun s : Link => s.index = index) as _ rfl ?_
    intro s hs a _
    unfold stepIfInfo
    split_ifs <;> exact hs
  have hname := foldl_lastAttr Link.name _ _ (stepIfInfo_name o) ⟨index, [], 0⟩ as
  have hxdp := foldl_lastAttr Link.xdpProgID _ _ (stepIfInfo_xdpProgID o) ⟨index, [], 0⟩ as
  exact Link.ext hindex hname hxdp

/-- A link without an index or a name is none. -/
def Link.named (link : Link) : Option Link :=
  if link.index = 0 ∨ link.name = [] then none else some link

theorem parseIfInfoMsg_eq {o : ByteOrder} {payload : Bytes}
    (h : sizeofIfInfomsg ≤ payload.length) :
    parseIfInfoMsg o payload =
      (walkAttrs o (visitIfInfo o) ⟨(o.at32 (payload.drop 4)).toNat, [], 0⟩
        (payload.drop sizeofIfInfomsg)).map fun v => v.state.named := by
  have hifindex : (slice payload 4 8 >>= o.uint32) = .ok (o.at32 (payload.drop 4)) :=
    ByteOrder.slice_uint32 (i := 4) (le_trans (by decide) h)
  rw [parseIfInfoMsg, if_neg (not_lt.mpr h), hifindex, ok_bind, sliceFrom_eq h, ok_bind]
  obtain ⟨v, hv⟩ := walkAttrs_returns (o := o) (sees_visitIfInfo o)
    ⟨(o.at32 (payload.drop 4)).toNat, [], 0⟩ (payload.drop sizeofIfInfomsg)
  rw [hv, ok_bind]
  cases v with
  | next link => exact (apply_ite Except.ok _ none _).symm
  | done r => cases r

theorem parseIfInfoMsg_returns (o : ByteOrder) (payload : Bytes) :
    ∃ r, parseIfInfoMsg o payload = .ok r := by
  by_cases hshort : payload.length < sizeofIfInfomsg
  · rw [parseIfInfoMsg, if_pos hshort]
    exact ⟨_, rfl⟩
  · obtain ⟨v, hv⟩ := walkAttrs_returns (o := o) (sees_visitIfInfo o)
      ⟨(o.at32 (payload.drop 4)).toNat, [], 0⟩ (payload.drop sizeofIfInfomsg)
    rw [parseIfInfoMsg_eq (not_lt.mp hshort), hv]
    exact ⟨_, rfl⟩

theorem parseIfInfoMsg_encodeAttrs (o : ByteOrder) (hdr : FixedBytes sizeofIfInfomsg)
    (as : List Attr) :
    parseIfInfoMsg o (hdr.bytes ++ encodeAttrs o as) =
      .ok (linkOf o (o.at32 (hdr.bytes.drop 4)).toNat as).named := by
  have hifindex : 4 ≤ (hdr.bytes.drop 4).length := by
    rw [List.length_drop, hdr.size]
    decide
  rw [parseIfInfoMsg_eq (Header.le_length hdr _), Header.drop_append,
    walkAttrs_encodeAttrs (sees_visitIfInfo o), visitAll_next, foldl_stepIfInfo,
    List.drop_append_of_le_length (by rw [hdr.size]; decide), ByteOrder.at32_append hifindex]
  rfl

end IfInfo

section Messages

/-- What `buildMessage` is called with, for a message of a whole number of words that its 32-bit
length can tell. -/
structure Msg where
  rtmType : UInt16
  flags : UInt16
  seq : UInt32
  body : Bytes
  aligned : 4 ∣ sizeofNlMsghdr + body.length
  fits : sizeofNlMsghdr + body.length < 2 ^ 32

def Msg.build (o : ByteOrder) (m : Msg) : Bytes := buildMessage o m.rtmType m.flags m.seq m.body

theorem buildMessage_length (o : ByteOrder) (rtmType flags : UInt16) (seq : UInt32) (body : Bytes) :
    (buildMessage o rtmType flags seq body).length = sizeofNlMsghdr + body.length := by
  simp only [buildMessage, List.length_append, ByteOrder.put16_length, ByteOrder.put32_length]
  rfl

theorem nlmsgAlign_of_dvd {n : ℕ} (h : 4 ∣ n) : nlmsgAlign n = n := by
  rw [nlmsgAlign]
  omega

/-- One round of the loop. -/
theorem walkMessagesFrom_round {o : ByteOrder} {buf : Bytes} (h : sizeofNlMsghdr ≤ buf.length)
    (msgs : List RawMsg) :
    walkMessagesFrom o msgs buf =
      if (o.at32 buf).toNat < sizeofNlMsghdr ∨ (o.at32 buf).toNat > buf.length then
        .ok (.error (.malformed (o.at32 buf) buf.length))
      else
        walkMessagesFrom o (msgs ++ [⟨o.at16 (buf.drop 4), buf.take (o.at32 buf).toNat⟩])
          (buf.drop (min (nlmsgAlign (o.at32 buf).toNat) buf.length)) := by
  have hpos : 0 < sizeofNlMsghdr := by decide
  have hlen : (slice buf 0 4 >>= o.uint32) = .ok (o.at32 buf) :=
    ByteOrder.slice_uint32 (i := 0) (le_trans (by decide) h)
  have htype : (slice buf 4 6 >>= o.uint16) = .ok (o.at16 (buf.drop 4)) :=
    ByteOrder.slice_uint16 (i := 4) (le_trans (by decide) h)
  rw [walkMessagesFrom, if_neg (by omega), if_neg (by omega), hlen, ok_bind, htype, ok_bind]
  by_cases hbad : (o.at32 buf).toNat < sizeofNlMsghdr ∨ (o.at32 buf).toNat > buf.length
  · rw [if_pos hbad, if_pos hbad]
  · rw [if_neg hbad, if_neg hbad, slice_eq (Nat.zero_le _) (by omega), ok_bind, List.drop_zero]
    split
    · next e he =>
      rw [sliceFrom_eq (min_le_right _ _)] at he
      cases he
    · next rest hrest =>
      obtain ⟨-, rfl⟩ := sliceFrom_ok hrest
      rfl

theorem walkMessagesFrom_nil {o : ByteOrder} (msgs : List RawMsg) :
    walkMessagesFrom o msgs [] = .ok (.ok msgs) := by
  rw [walkMessagesFrom, if_pos (by decide)]

theorem walkMessagesFrom_returns (o : ByteOrder) (msgs : List RawMsg) (buf : Bytes) :
    ∃ r, walkMessagesFrom o msgs buf = .ok r := by
  induction hn : buf.length using Nat.strong_induction_on generalizing msgs buf with
  | _ n ih =>
    subst hn
    by_cases hshort : buf.length < sizeofNlMsghdr
    · rw [walkMessagesFrom]
      split_ifs
      · exact ⟨_, rfl⟩
      · exact ⟨_, rfl⟩
    · rw [walkMessagesFrom_round (not_lt.mp hshort)]
      split_ifs with hbad
      · exact ⟨_, rfl⟩
      · have hpos : 0 < sizeofNlMsghdr := by decide
        have halign := le_nlmsgAlign (o.at32 buf).toNat
        refine ih _ ?_ _ _ rfl
        rw [List.length_drop]
        omega

/-- The loop splits off the first message. -/
theorem walkMessagesFrom_cons (o : ByteOrder) (msgs : List RawMsg) (m : Msg) (rest : Bytes) :
    walkMessagesFrom o msgs (m.build o ++ rest) =
      walkMessagesFrom o (msgs ++ [⟨m.rtmType, m.build o⟩]) rest := by
  have hfits := m.fits
  have hlength : (m.build o).length = sizeofNlMsghdr + m.body.length :=
    buildMessage_length o m.rtmType m.flags m.seq m.body
  have hlen : (o.at32 (m.build o ++ rest)).toNat = (m.build o).length := by
    rw [hlength, Msg.build, buildMessage]
    simp only [List.append_assoc, ByteOrder.at32_put32, UInt32.toNat_ofNat']
    exact Nat.mod_eq_of_lt hfits
  have htype : o.at16 ((m.build o ++ rest).drop 4) = m.rtmType := by
    rw [Msg.build, buildMessage]
    simp only [List.append_assoc, List.drop_left' (ByteOrder.put32_length _), ByteOrder.at16_put16]
  have halign : nlmsgAlign (m.build o).length = (m.build o).length :=
    nlmsgAlign_of_dvd (hlength ▸ m.aligned)
  have htotal : (m.build o ++ rest).length = (m.build o).length + rest.length := List.length_append
  rw [walkMessagesFrom_round (by omega), hlen, htype, if_neg (by omega), halign,
    min_eq_left (by omega), List.take_left, List.drop_left]

theorem walkMessagesFrom_build (o : ByteOrder) (msgs : List RawMsg) (ms : List Msg) :
    walkMessagesFrom o msgs (ms.flatMap (Msg.build o)) =
      .ok (.ok (msgs ++ ms.map fun m => ⟨m.rtmType, m.build o⟩)) := by
  induction ms generalizing msgs with
  | nil => rw [List.flatMap_nil, walkMessagesFrom_nil, List.map_nil, List.append_nil]
  | cons m ms ih =>
    rw [List.flatMap_cons, walkMessagesFrom_cons, ih, List.map_cons, List.append_assoc,
      List.singleton_append]

end Messages

section Addresses

theorem addrFromSlice_as16 (a : FixedBytes 16) : addrFromSlice a.bytes = some (.v6 a "") := by
  have hne : ¬ a.bytes.length = 4 := by
    rw [a.size]
    decide
  rw [addrFromSlice, dif_neg hne, dif_pos a.size]

/-- What is read of an address message, whatever it was built for. -/
theorem parseIfAddrMsg_addrMessageBody (o : ByteOrder) (ifindex : ℤ) (addr : Addr) (prefixLen : ℤ)
    (wantIfindex : ℤ) :
    parseIfAddrMsg o (addrMessageBody o ifindex addr prefixLen) wantIfindex =
      .ok (if ((UInt32.ofInt ifindex).toNat : ℤ) = wantIfindex then
        some (prefixFrom (.v6 addr.as16 "") (UInt8.ofInt prefixLen).toNat)
      else none) := by
  have hfits : addr.as16.bytes.length ≤ 65531 := by
    rw [addr.as16.size]
    decide
  let hdr : FixedBytes sizeofIfAddrmsg :=
    ⟨[afInet6, UInt8.ofInt prefixLen, 0, 0] ++ o.put32 (UInt32.ofInt ifindex), by
      rw [List.length_append, ByteOrder.put32_length]
      rfl⟩
  let as : List Attr := [⟨ifaLocal, addr.as16.bytes, hfits⟩, ⟨ifaAddress, addr.as16.bytes, hfits⟩]
  have hbody : addrMessageBody o ifindex addr prefixLen = hdr.bytes ++ encodeAttrs o as := by
    simp [addrMessageBody, encodeAttrs, hdr, as]
  have hifindex : o.at32 (hdr.bytes.drop 4) = UInt32.ofInt ifindex := by
    have hput := ByteOrder.at32_put32 (o := o) (UInt32.ofInt ifindex) []
    rw [List.append_nil] at hput
    exact hput
  have hwanted : Wanted o hdr.bytes wantIfindex ↔
      ((UInt32.ofInt ifindex).toNat : ℤ) = wantIfindex := by
    rw [← hifindex]
    exact ⟨fun h => h.2.1, fun h => ⟨rfl, h, rfl⟩⟩
  have hlast : lastAttr ifaAddress as = some ⟨ifaAddress, addr.as16.bytes, hfits⟩ := rfl
  have haddress : addrOf ifaAddress as = .v6 addr.as16 "" := by
    rw [addrOf, hlast, Option.map_some, Option.getD_some, addrFromSlice_as16, Option.getD_some]
  rw [hbody, parseIfAddrMsg_encodeAttrs, haddress]
  simp only [hwanted]
  rfl

/-- An address message is read back for the interface it was built for. -/
theorem parseIfAddrMsg_buildAddrMessage (o : ByteOrder) (rtmType flags : UInt16) (seq : UInt32)
    {ifindex : ℤ} (hlow : 0 ≤ ifindex) (hhigh : ifindex < 2 ^ 32) (a : FixedBytes 16)
    {prefixLen : ℕ} (hbits : prefixLen ≤ 128) :
    parseIfAddrMsg o
        ((buildAddrMessage o rtmType flags seq ifindex (.v6 a "") prefixLen).drop sizeofNlMsghdr)
        ifindex =
      .ok (some ⟨.v6 a "", some prefixLen⟩) := by
  have hbody : (buildAddrMessage o rtmType flags seq ifindex (.v6 a "") prefixLen).drop
      sizeofNlMsghdr = addrMessageBody o ifindex (.v6 a "") prefixLen := by
    rw [buildAddrMessage, buildMessage]
    refine List.drop_left' ?_
    simp only [List.length_append, ByteOrder.put16_length, ByteOrder.put32_length]
    rfl
  have hifindex : ((UInt32.ofInt ifindex).toNat : ℤ) = ifindex := by
    rw [UInt32.ofInt, UInt32.toNat_ofNat']
    omega
  have hlen : (UInt8.ofInt prefixLen).toNat = prefixLen := by
    rw [UInt8.ofInt, UInt8.toNat_ofNat']
    omega
  rw [hbody, parseIfAddrMsg_addrMessageBody, if_pos hifindex, hlen, prefixFrom, if_pos ⟨by simp, hbits⟩]
  rfl

end Addresses

/-- What the parsers of a byte order make of what its encoders wrote, and that they return on every
byte string. -/
structure Inverts (o : ByteOrder) : Prop where
  prefsrc : ∀ (hdr : FixedBytes sizeofRtMsg) (as : List Attr),
    parseRoutePrefsrc o (hdr.bytes ++ encodeAttrs o as) =
      .ok (if byteAt hdr.bytes 0 = afInet6 then prefsrcOf as else none)
  ifAddr : ∀ (hdr : FixedBytes sizeofIfAddrmsg) (as : List Attr) (wantIfindex : ℤ),
    parseIfAddrMsg o (hdr.bytes ++ encodeAttrs o as) wantIfindex =
      .ok (if Wanted o hdr.bytes wantIfindex then
        IfAddrs.spelled ⟨addrOf ifaAddress as, addrOf ifaLocal as⟩ (byteAt hdr.bytes 1).toNat
      else none)
  ifInfo : ∀ (hdr : FixedBytes sizeofIfInfomsg) (as : List Attr),
    parseIfInfoMsg o (hdr.bytes ++ encodeAttrs o as) =
      .ok (linkOf o (o.at32 (hdr.bytes.drop 4)).toNat as).named
  nested : ∀ (attrType : UInt16) (as : List Attr),
    encodeNestedAttr o attrType (as.map fun a => encodeRtAttr o a.type a.payload) =
        encodeRtAttr o attrType (encodeAttrs o as) ∧
      parseXDPProgID o (encodeAttrs o as) = .ok (progIDOf o as)
  address : ∀ (rtmType flags : UInt16) (seq : UInt32) (ifindex : ℤ) (a : FixedBytes 16)
    (prefixLen : ℕ), 0 ≤ ifindex → ifindex < 2 ^ 32 → prefixLen ≤ 128 →
    parseIfAddrMsg o
        ((buildAddrMessage o rtmType flags seq ifindex (.v6 a "") prefixLen).drop sizeofNlMsghdr)
        ifindex =
      .ok (some ⟨.v6 a "", some prefixLen⟩)
  messages : ∀ ms : List Msg, walkMessages o (ms.flatMap (Msg.build o)) =
    .ok (.ok (ms.map fun m => ⟨m.rtmType, m.build o⟩))
  inBounds : ∀ b : Bytes, (∃ r, parseRoutePrefsrc o b = .ok r) ∧
    (∀ wantIfindex, ∃ r, parseIfAddrMsg o b wantIfindex = .ok r) ∧
    (∃ r, parseIfInfoMsg o b = .ok r) ∧ (∃ r, parseXDPProgID o b = .ok r) ∧
    ∃ r, walkMessages o b = .ok r

theorem codec_inverts (o : ByteOrder) : Inverts o where
  prefsrc := parseRoutePrefsrc_encodeAttrs o
  ifAddr := parseIfAddrMsg_encodeAttrs o
  ifInfo := parseIfInfoMsg_encodeAttrs o
  nested attrType as := by
    refine ⟨?_, parseXDPProgID_encodeAttrs o as⟩
    rw [encodeNestedAttr, encodeAttrs, List.flatMap_def]
  address rtmType flags seq ifindex a prefixLen hlow hhigh hbits :=
    parseIfAddrMsg_buildAddrMessage o rtmType flags seq hlow hhigh a hbits
  messages := walkMessagesFrom_build o []
  inBounds b := ⟨parseRoutePrefsrc_returns o b, parseIfAddrMsg_returns o b,
    parseIfInfoMsg_returns o b, ⟨_, parseXDPProgID_returns o b⟩, walkMessagesFrom_returns o [] b⟩

/-- A message of four gibibytes has the length zero in its header. -/
theorem walkMessages_overlong {o : ByteOrder} {body : Bytes}
    (h : sizeofNlMsghdr + body.length = 2 ^ 32) (rtmType flags : UInt16) (seq : UInt32) :
    walkMessages o (buildMessage o rtmType flags seq body) =
      .ok (.error (.malformed 0 (2 ^ 32))) := by
  have hlength := (buildMessage_length o rtmType flags seq body).trans h
  have hlen : o.at32 (buildMessage o rtmType flags seq body) = 0 := by
    rw [buildMessage, h]
    simp only [List.append_assoc, ByteOrder.at32_put32]
    rfl
  rw [walkMessages, walkMessagesFrom_round (by rw [hlength]; decide), hlen, hlength,
    if_pos (Or.inl (by decide))]

theorem overlong_message_not_split : ∃ body : Bytes, 4 ∣ sizeofNlMsghdr + body.length ∧
    walkMessages .little (buildMessage .little 16 0 1 body) ≠
      .ok (.ok [⟨16, buildMessage .little 16 0 1 body⟩]) := by
  have hlength : sizeofNlMsghdr + (List.replicate (2 ^ 32 - 16) (0 : UInt8)).length = 2 ^ 32 := by
    rw [List.length_replicate]
    rfl
  refine ⟨List.replicate (2 ^ 32 - 16) 0, ?_, ?_⟩
  · rw [hlength]
    decide
  · rw [walkMessages_overlong hlength]
    exact nofun

end Minuteman.Netlink.Wire
