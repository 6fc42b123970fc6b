import Minuteman.Dhcpv4.Wire

/-!
# DHCPv4 messages decode to what was encoded

Encoding splits the data of an option, decoding does not put it together: what
is kept is the data of each code, in order, and the options themselves if none
was split.
-/
namespace Minuteman.Dhcpv4
open Library ByteString Checked

def chunks : (turns : ℕ) → Bytes → List Bytes
  | turns + 1, data =>
    data.take (min data.length 255) ::
      (if 0 < (data.drop (min data.length 255)).length then
        chunks turns (data.drop (min data.length 255)) else [])
  | 0, _ => []

namespace DhcpOption

def instances (opt : DhcpOption) : Options :=
  (chunks (opt.data.length + 1) opt.data).map fun data => ⟨opt.code, data⟩

def encoding (opt : DhcpOption) : Bytes := [opt.code, UInt8.ofNat opt.data.length] ++ opt.data

/-- An option that is sent in one instance. -/
structure Sendable (opt : DhcpOption) : Prop where
  notPad : opt.code ≠ optPad
  notEnd : opt.code ≠ optEnd
  fits : opt.data.length ≤ 255

end DhcpOption

theorem chunks_length_le {turns : ℕ} {data c : Bytes} (hc : c ∈ chunks turns data) :
    c.length ≤ 255 := by
  induction turns generalizing data with
  | zero => cases hc
  | succ turns ih =>
    rw [chunks] at hc
    rcases List.mem_cons.mp hc with rfl | hc
    · rw [List.length_take]
      omega
    · split at hc
      · exact ih hc
      · cases hc

theorem chunks_flatten {turns : ℕ} {data : Bytes} (h : data.length < turns) :
    (chunks turns data).flatten = data := by
  induction turns generalizing data with
  | zero => omega
  | succ turns ih =>
    rw [chunks, List.flatten_cons]
    split
    case isTrue hmore =>
      rw [ih (by rw [List.length_drop] at hmore ⊢; omega), List.take_append_drop]
    case isFalse hdone =>
      rw [List.flatten_nil, List.append_nil]
      apply List.take_of_length_le
      rw [List.length_drop] at hdone
      omega

theorem chunks_of_length_le {data : Bytes} (h : data.length ≤ 255) (turns : ℕ) :
    chunks (turns + 1) data = [data] := by
  have hmin : min data.length 255 = data.length := min_eq_left h
  rw [chunks, hmin, List.take_length, List.drop_length]
  rfl

theorem marshalData_eq (code : OptionCode) (turns : ℕ) (data : Bytes) :
    marshalData code turns data =
      ((chunks turns data).map fun c => (⟨code, c⟩ : DhcpOption)).flatMap DhcpOption.encoding := by
  induction turns generalizing data with
  | zero => rfl
  | succ turns ih =>
    have hlen : (data.take (min data.length 255)).length = min data.length 255 := by
      rw [List.length_take]
      omega
    rw [marshalData, chunks, List.map_cons, List.flatMap_cons, DhcpOption.encoding]
    dsimp only
    rw [hlen, ih]
    congr 1
    split <;> rfl

theorem marshal_eq (o : Options) :
    o.marshal = (o.flatMap DhcpOption.instances).flatMap DhcpOption.encoding := by
  rw [Options.marshal, List.flatMap_assoc]
  congr 1
  funext opt
  exact marshalData_eq opt.code (opt.data.length + 1) opt.data

theorem DhcpOption.instances_sendable (opt : DhcpOption)
    (hcode : 1 ≤ opt.code.toNat ∧ opt.code.toNat ≤ 254) {part : DhcpOption}
    (h : part ∈ opt.instances) : part.Sendable := by
  obtain ⟨data, hdata, rfl⟩ := List.mem_map.mp h
  refine ⟨?_, ?_, chunks_length_le hdata⟩
  · rintro hpad
    have hzero : opt.code.toNat = 0 := congrArg UInt8.toNat hpad
    omega
  · rintro hend
    have hlast : opt.code.toNat = 255 := congrArg UInt8.toNat hend
    omega

/-- An instance is read back. -/
theorem parseOptionsFrom_encoding {opt : DhcpOption} (h : opt.Sendable) (rest : Bytes)
    (turns : ℕ) : parseOptionsFrom (turns + 1) (opt.encoding ++ rest) =
      (parseOptionsFrom turns rest).map fun r => r.map (opt :: ·) := by
  have hlength : (UInt8.ofNat opt.data.length).toNat = opt.data.length :=
    UInt8.toNat_ofNat_of_lt' (Nat.lt_succ_of_le h.fits)
  have hsize : (opt.encoding ++ rest).length = 2 + opt.data.length + rest.length := by
    simp [DhcpOption.encoding]
    omega
  have hcode : byteAt (opt.encoding ++ rest) 0 = opt.code := rfl
  have hlen : (byteAt (opt.encoding ++ rest) 1).toNat = opt.data.length := hlength
  have henc : opt.encoding.length = 2 + opt.data.length := by
    simp [DhcpOption.encoding]
    omega
  rw [parseOptionsFrom_succ (by omega), hcode, hlen, if_neg h.notPad, if_neg h.notEnd,
    if_neg (by omega), if_neg (by omega), List.drop_left' henc, List.take_left' henc]
  rfl

theorem parseOptionsFrom_encodings {o : Options} (h : ∀ opt ∈ o, opt.Sendable) (rest : Bytes)
    {turns : ℕ} (hturns : (o.flatMap DhcpOption.encoding).length < turns) :
    parseOptionsFrom turns (o.flatMap DhcpOption.encoding ++ optEnd :: rest) = .ok (.ok o) := by
  induction o generalizing turns with
  | nil =>
    obtain ⟨turns, rfl⟩ := Nat.exists_eq_succ_of_ne_zero (by omega : turns ≠ 0)
    have hend : byteAt (optEnd :: rest) 0 = optEnd := rfl
    rw [List.flatMap_nil, List.nil_append, parseOptionsFrom_succ (by simp), hend,
      if_neg (by decide), if_pos rfl]
  | cons opt o ih =>
    obtain ⟨turns, rfl⟩ := Nat.exists_eq_succ_of_ne_zero (by omega : turns ≠ 0)
    rw [List.flatMap_cons, List.length_append] at hturns
    have hpos : 0 < opt.encoding.length := by simp [DhcpOption.encoding]
    rw [List.flatMap_cons, List.append_assoc, parseOptionsFrom_encoding (h opt (by simp)),
      ih (fun opt' hopt => h opt' (by simp [hopt])) (by omega)]
    rfl

theorem field_length (n : ℕ) (w : Bytes) : (field n w).length = n := by
  simp only [field, List.length_append, List.length_take, List.length_replicate]
  omega

theorem field_of_length_le {n : ℕ} {w : Bytes} (h : w.length ≤ n) :
    field n w = w ++ List.replicate (n - w.length) 0 := by
  rw [field, List.take_of_length_le h]

/-- A string without a NUL is read back from its field. -/
theorem cstr_field {n : ℕ} {w : Bytes} (h : w.length ≤ n) (hnul : 0 ∉ w) : cstr (field n w) = w := by
  have hall : ∀ a ∈ w, decide (a ≠ 0) = true := by
    intro a ha
    simp only [decide_eq_true_eq]
    rintro rfl
    exact hnul ha
  rw [field_of_length_le h, cstr, List.takeWhile_append_of_pos hall]
  cases n - w.length <;> simp [List.replicate_succ]

/-- What a message must be to be decoded as it was. -/
structure Message.Encodable (m : Message) : Prop where
  chaddr : m.chaddr.length = m.hlen.toNat
  hlen : m.hlen.toNat ≤ 16
  sname : m.sname.length ≤ 64 ∧ 0 ∉ m.sname
  file : m.file.length ≤ 128 ∧ 0 ∉ m.file
  codes : ∀ opt ∈ m.options, 1 ≤ opt.code.toNat ∧ opt.code.toNat ≤ 254

namespace Message

def front (m : Message) : Bytes :=
  [m.op, m.htype, m.hlen, m.hops] ++ (be32 m.xid ++ (be16 m.secs ++ (be16 m.flags ++
    (putAddr4 m.ciaddr ++ (putAddr4 m.yiaddr ++ (putAddr4 m.siaddr ++ putAddr4 m.giaddr))))))

theorem marshal_split (m : Message) : ∃ pads, m.marshal =
    m.front ++ (field 16 m.chaddr ++ (field 64 m.sname ++ (field 128 m.file ++
      (magicCookie ++ (m.options.marshal ++ optEnd :: pads))))) := by
  simp only [marshal, front, List.append_assoc, List.singleton_append]
  exact ⟨_, rfl⟩

/-- The numbers in the front of a message are read back. -/
theorem front_fields (m : Message) (rest : Bytes) :
    be32At (m.front ++ rest) 4 = m.xid ∧ be16At (m.front ++ rest) 8 = m.secs ∧
    be16At (m.front ++ rest) 10 = m.flags ∧ be32At (m.front ++ rest) 12 = m.ciaddr.getD 0 ∧
    be32At (m.front ++ rest) 16 = m.yiaddr.getD 0 ∧ be32At (m.front ++ rest) 20 = m.siaddr.getD 0 ∧
    be32At (m.front ++ rest) 24 = m.giaddr.getD 0 :=
  ⟨be32At_be32 m.xid [], be16At_be16 m.secs [], be16At_be16 m.flags [],
    be32At_be32 (m.ciaddr.getD 0) [], be32At_be32 (m.yiaddr.getD 0) [],
    be32At_be32 (m.siaddr.getD 0) [], be32At_be32 (m.giaddr.getD 0) []⟩

/-- Where the fields behind the front start. -/
theorem drop_fields {m : Message} {b rest : Bytes}
    (h : b = m.front ++ (field 16 m.chaddr ++ (field 64 m.sname ++ (field 128 m.file ++ rest)))) :
    b.drop 28 = field 16 m.chaddr ++ (field 64 m.sname ++ (field 128 m.file ++ rest)) ∧
    b.drop 44 = field 64 m.sname ++ (field 128 m.file ++ rest) ∧
    b.drop 108 = field 128 m.file ++ rest ∧ b.drop 236 = rest := by
  have h28 : b.drop 28 =
      field 16 m.chaddr ++ (field 64 m.sname ++ (field 128 m.file ++ rest)) := h ▸ rfl
  have h44 : b.drop 44 = field 64 m.sname ++ (field 128 m.file ++ rest) := by
    rw [← List.drop_drop (i := 16) (j := 28), h28, List.drop_left' (field_length 16 m.chaddr)]
  have h108 : b.drop 108 = field 128 m.file ++ rest := by
    rw [← List.drop_drop (i := 64) (j := 44), h44, List.drop_left' (field_length 64 m.sname)]
  refine ⟨h28, h44, h108, ?_⟩
  rw [← List.drop_drop (i := 128) (j := 108), h108, List.drop_left' (field_length 128 m.file)]

theorem marshal_length (m : Message) : 300 ≤ m.marshal.length := by
  simp only [marshal]
  rw [List.length_append, List.length_replicate, minMessageLen]
  omega

/-- What the header of an encoded message decodes to. -/
theorem header_marshal {m : Message} (h : m.Encodable) : header m.marshal =
    { m with
      ciaddr := some (m.ciaddr.getD 0)
      yiaddr := some (m.yiaddr.getD 0)
      siaddr := some (m.siaddr.getD 0)
      giaddr := some (m.giaddr.getD 0)
      options := [] } := by
  obtain ⟨pads, hsplit⟩ := m.marshal_split
  generalize m.marshal = b at hsplit
  generalize magicCookie ++ (m.options.marshal ++ optEnd :: pads) = rest at hsplit
  obtain ⟨hdrop28, hdrop44, hdrop108, -⟩ := drop_fields hsplit
  have hhlen : byteAt b 2 = m.hlen := hsplit ▸ rfl
  have hchaddr : (b.take (28 + min (byteAt b 2).toNat 16)).drop 28 = m.chaddr := by
    rw [hhlen, min_eq_left h.hlen, List.drop_take, hdrop28, Nat.add_sub_cancel_left,
      field_of_length_le (h.chaddr.trans_le h.hlen), List.append_assoc, List.take_left' h.chaddr]
  have hsname : cstr ((b.take 108).drop 44) = m.sname := by
    rw [List.drop_take, hdrop44, List.take_left' (field_length 64 m.sname),
      cstr_field h.sname.1 h.sname.2]
  have hfile : cstr ((b.take 236).drop 108) = m.file := by
    rw [List.drop_take, hdrop108, List.take_left' (field_length 128 m.file),
      cstr_field h.file.1 h.file.2]
  obtain ⟨hxid, hsecs, hflags, hciaddr, hyiaddr, hsiaddr, hgiaddr⟩ := hsplit ▸ m.front_fields _
  rw [header, hchaddr, hsname, hfile, hxid, hsecs, hflags, hciaddr, hyiaddr, hsiaddr, hgiaddr,
    hhlen, hsplit]
  rfl

/-- An encoded message decodes, its options to the instances they were sent in. -/
theorem parse_marshal {m : Message} (h : m.Encodable) : parse m.marshal = .ok (.ok
    { m with
      ciaddr := some (m.ciaddr.getD 0)
      yiaddr := some (m.yiaddr.getD 0)
      siaddr := some (m.siaddr.getD 0)
      giaddr := some (m.giaddr.getD 0)
      options := m.options.flatMap DhcpOption.instances }) := by
  have hlen := m.marshal_length
  obtain ⟨pads, hsplit⟩ := m.marshal_split
  obtain ⟨-, -, -, hdrop⟩ := drop_fields hsplit
  have hcookie : (m.marshal.take 240).drop 236 = magicCookie := by
    rw [List.drop_take, hdrop]
    rfl
  have hoptions : m.marshal.drop 240 = m.options.marshal ++ optEnd :: pads := by
    rw [← List.drop_drop (i := 4) (j := 236), hdrop]
    rfl
  have hsendable : ∀ opt ∈ m.options.flatMap DhcpOption.instances, opt.Sendable := by
    intro opt hopt
    obtain ⟨whole, hwhole, hmem⟩ := List.mem_flatMap.mp hopt
    exact whole.instances_sendable (h.codes whole hwhole) hmem
  rw [parse_eq (by omega) hcookie, header_marshal h, hoptions, marshal_eq, parseOptions,
    parseOptionsFrom_encodings hsendable pads (by simp)]
  rfl

end Message

def Options.dataOf (o : Options) (code : OptionCode) : Bytes :=
  (o.filter fun opt => opt.code = code).flatMap DhcpOption.data

theorem dataOf_cons (opt : DhcpOption) (o : Options) (code : OptionCode) :
    Options.dataOf (opt :: o) code = (if opt.code = code then opt.data else []) ++ o.dataOf code := by
  by_cases hcode : opt.code = code <;> simp [Options.dataOf, hcode]

theorem dataOf_append (o o' : Options) (code : OptionCode) :
    Options.dataOf (o ++ o') code = o.dataOf code ++ o'.dataOf code := by
  simp [Options.dataOf]

/-- The instances of an option carry its data. -/
theorem DhcpOption.dataOf_instances (opt : DhcpOption) (code : OptionCode) :
    Options.dataOf opt.instances code = if opt.code = code then opt.data else [] := by
  have hflatten := chunks_flatten (Nat.lt_succ_self opt.data.length)
  rw [DhcpOption.instances]
  generalize chunks (opt.data.length + 1) opt.data = parts at hflatten
  rw [← hflatten]
  clear hflatten
  induction parts with
  | nil => simp [Options.dataOf]
  | cons part parts ih =>
    rw [List.map_cons, dataOf_cons, ih]
    split <;> simp

theorem dataOf_flatMap_instances (o : Options) (code : OptionCode) :
    Options.dataOf (o.flatMap DhcpOption.instances) code = o.dataOf code := by
  induction o with
  | nil => rfl
  | cons opt o ih =>
    rw [List.flatMap_cons, dataOf_append, ih, opt.dataOf_instances, dataOf_cons]

theorem flatMap_instances_of_length_le {o : Options} (h : ∀ opt ∈ o, opt.data.length ≤ 255) :
    o.flatMap DhcpOption.instances = o := by
  induction o with
  | nil => rfl
  | cons opt o ih =>
    rw [List.flatMap_cons, DhcpOption.instances, chunks_of_length_le (h opt (by simp)),
      ih fun opt' hopt => h opt' (by simp [hopt])]
    rfl

/-- Decoding gives back the header of what was encoded and, code by code, the data of its
options. -/
theorem parse_marshal_inverse (m : Message) (h : m.Encodable) :
    300 ≤ m.marshal.length ∧ ∃ opts : Options,
      parse m.marshal = .ok (.ok
        { m with
          ciaddr := some (m.ciaddr.getD 0)
          yiaddr := some (m.yiaddr.getD 0)
          siaddr := some (m.siaddr.getD 0)
          giaddr := some (m.giaddr.getD 0)
          options := opts }) ∧
      (∀ code, opts.dataOf code = m.options.dataOf code) ∧
      ((∀ opt ∈ m.options, opt.data.length ≤ 255) → opts = m.options) :=
  ⟨m.marshal_length, _, Message.parse_marshal h, dataOf_flatMap_instances m.options,
    flatMap_instances_of_length_le⟩

def longMessage : Message where
  op := opBootReply
  htype := hardwareTypeEthernet
  hlen := 6
  hops := 0
  xid := 0x01020304
  secs := 0
  flags := flagBroadcast
  ciaddr := none
  yiaddr := some 0xC0A80102
  siaddr := none
  giaddr := none
  chaddr := [2, 0, 0, 0, 0, 1]
  sname := []
  file := [0x61]
  options := [⟨80, []⟩, ⟨optDNSServers, List.replicate 510 7⟩]

theorem parse_marshal_inverse_long : ∃ opts : Options,
    parse longMessage.marshal = .ok (.ok
      { longMessage with
        ciaddr := some 0
        siaddr := some 0
        giaddr := some 0
        options := opts }) ∧
    opts.dataOf optDNSServers = List.replicate 510 7 := by
  have h : longMessage.Encodable := ⟨rfl, by decide, by decide, by decide, by decide⟩
  obtain ⟨-, opts, hparse, hdata, -⟩ := parse_marshal_inverse longMessage h
  have hsent : longMessage.options.dataOf optDNSServers = List.replicate 510 7 := by
    simp [-List.reduceReplicate, longMessage, Options.dataOf, optDNSServers]
  exact ⟨opts, hparse, (hdata optDNSServers).trans hsent⟩

end Minuteman.Dhcpv4
