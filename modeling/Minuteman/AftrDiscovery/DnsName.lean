import Minuteman.Library.ByteString

/-!
# The AFTR name as a domain name

`pkg/aftrdiscovery/dnsname.go`: the data of OPTION_AFTR_NAME is one uncompressed
domain name, its labels each after their length and a zero byte at the end. The
limit of 255 octets counts that zero byte, and `decodeDNSName` does not.
-/
namespace Minuteman.AftrDiscovery
open Library ByteString

def maxDomainNameLength : ℕ := 255

inductive NameError where
  | truncated
  | invalidLabelLength (b : UInt8)
  | runsPastEnd (n : ℕ)
  | trailing (n : ℕ)
  | tooLong (limit : ℕ)
  deriving DecidableEq

structure Scanned where
  labels : List Bytes
  nameLen : ℕ
  i : ℕ
  deriving DecidableEq

def scanLabels (data : Bytes) (labels : List Bytes) (nameLen i : ℕ) : Except NameError Scanned :=
  if data.length ≤ i then .error .truncated
  else
    let n := (byteAt data i).toNat
    if n &&& 0xC0 ≠ 0 then .error (.invalidLabelLength (byteAt data i))
    else if n = 0 then .ok ⟨labels, nameLen, i + 1⟩
    else if data.length < i + 1 + n then .error (.runsPastEnd n)
    else scanLabels data (labels ++ [(data.drop (i + 1)).take n]) (nameLen + (n + 1)) (i + 1 + n)
termination_by data.length - i

def dot : UInt8 := 0x2e

def joinLabels (labels : List Bytes) : Bytes :=
  labels.zipIdx.foldl (fun name l => (if 0 < l.2 then name ++ [dot] else name) ++ l.1) []

def decodeDNSName (data : Bytes) : Except NameError Bytes :=
  match scanLabels data [] 0 0 with
  | .error e => .error e
  | .ok s =>
    if s.i ≠ data.length then .error (.trailing (data.length - s.i))
    else if maxDomainNameLength < s.nameLen then .error (.tooLong maxDomainNameLength)
    else .ok (joinLabels s.labels)

/-- A label of a domain name (RFC 1035, section 3.1). -/
structure Label where
  bytes : Bytes
  nonempty : 1 ≤ bytes.length
  short : bytes.length ≤ 63

def encodeLabels (labels : List Label) : Bytes :=
  labels.flatMap fun l => UInt8.ofNat l.bytes.length :: l.bytes

def encodeName (labels : List Label) : Bytes := encodeLabels labels ++ [0]

/-- One uncompressed domain name, of any length. -/
def Uncompressed (data : Bytes) : Prop := ∃ labels, encodeName labels = data

/-- One uncompressed domain name within the limit of RFC 1035, which counts every octet. -/
def IsDomainName (data : Bytes) : Prop := Uncompressed data ∧ data.length ≤ 255

@[simp] theorem encodeLabels_nil : encodeLabels [] = [] := rfl

@[simp] theorem encodeLabels_cons (l : Label) (labels : List Label) :
    encodeLabels (l :: labels) = UInt8.ofNat l.bytes.length :: (l.bytes ++ encodeLabels labels) :=
  rfl

theorem encodeName_length (labels : List Label) :
    (encodeName labels).length = (encodeLabels labels).length + 1 := by
  rw [encodeName, List.length_append, List.length_singleton]

/-- The two top bits are clear exactly in the lengths of labels. -/
theorem and_C0_eq_zero_iff : ∀ n < 256, (n &&& 0xC0 = 0 ↔ n ≤ 63) := by
  decide +kernel

theorem intercalate_dot (l : Bytes) (labels : List Bytes) :
    [dot].intercalate (l :: labels) = l ++ labels.flatMap (dot :: ·) := by
  induction labels generalizing l with
  | nil => simp [List.intercalate]
  | cons l' labels ih =>
    rw [List.intercalate_cons_cons, ih]
    simp

/-- After the first label every label is put after a dot. -/
theorem joinLabels_later (labels : List Bytes) (name : Bytes) (k : ℕ) :
    (labels.zipIdx (k + 1)).foldl
        (fun name l => (if 0 < l.2 then name ++ [dot] else name) ++ l.1) name =
      name ++ labels.flatMap (dot :: ·) := by
  induction labels generalizing name k with
  | nil => simp
  | cons l labels ih =>
    rw [List.zipIdx_cons, List.foldl_cons, ih, if_pos (Nat.succ_pos k)]
    simp

theorem joinLabels_eq (labels : List Bytes) : joinLabels labels = [dot].intercalate labels := by
  cases labels with
  | nil => rfl
  | cons l labels =>
    rw [joinLabels, List.zipIdx_cons, List.foldl_cons, joinLabels_later, intercalate_dot]
    rfl

/-- The loop reads labels that are there, up to the zero byte. -/
theorem scanLabels_complete {data tail : Bytes} (names : List Label) {labels : List Bytes}
    {nameLen i : ℕ} (h : data.drop i = encodeLabels names ++ 0 :: tail) :
    scanLabels data labels nameLen i =
      .ok ⟨labels ++ names.map Label.bytes, nameLen + (encodeLabels names).length,
        i + (encodeLabels names).length + 1⟩ := by
  induction names generalizing labels nameLen i with
  | nil =>
    obtain ⟨hlt, hzero, -⟩ := read_of_drop h
    rw [scanLabels, if_neg (by omega), hzero]
    simp
  | cons l names ih =>
    have hshort := l.short
    have hnonempty := l.nonempty
    rw [encodeLabels_cons, List.cons_append, List.append_assoc] at h
    obtain ⟨hlt, hbyte, hrest⟩ := read_of_drop h
    have hn : (byteAt data i).toNat = l.bytes.length := by
      rw [hbyte, UInt8.toNat_ofNat']
      omega
    have hin : i + 1 + l.bytes.length ≤ data.length := by
      have hlength := congrArg List.length hrest
      simp only [List.length_drop, List.length_append] at hlength
      omega
    have hnext : data.drop (i + 1 + l.bytes.length) = encodeLabels names ++ 0 :: tail := by
      rw [← List.drop_drop, hrest, List.drop_left]
    have hclear := (and_C0_eq_zero_iff l.bytes.length (by omega)).mpr hshort
    rw [scanLabels, if_neg (by omega)]
    dsimp only
    rw [hn, if_neg (not_not_intro hclear), if_neg (by omega), if_neg (by omega), ih hnext, hrest,
      List.take_left]
    simp only [List.map_cons, encodeLabels_cons, List.length_cons, List.length_append,
      List.append_assoc, List.singleton_append, Except.ok.injEq, Scanned.mk.injEq, true_and]
    omega

/-- What the loop gets past is the labels it returns and the zero byte. -/
theorem scanLabels_sound {data : Bytes} {labels : List Bytes} {nameLen i : ℕ} {s : Scanned}
    (h : scanLabels data labels nameLen i = .ok s) :
    ∃ names : List Label, data.drop i = encodeLabels names ++ 0 :: data.drop s.i := by
  fun_induction scanLabels data labels nameLen i with
  | case1 => cases h
  | case2 => cases h
  | case3 labels nameLen i hin n hclear hzero =>
    cases h
    refine ⟨[], ?_⟩
    have hbyte : byteAt data i = 0 := UInt8.toNat_inj.mp hzero
    rw [drop_eq_byteAt_cons (not_le.mp hin), hbyte]
    rfl
  | case4 => cases h
  | case5 labels nameLen i hin n hclear hzero hpast ih =>
    obtain ⟨names, hnames⟩ := ih h
    have hlength : ((data.drop (i + 1)).take n).length = n := by
      rw [List.length_take, List.length_drop]
      omega
    have hshort := (and_C0_eq_zero_iff n (UInt8.toNat_lt _)).mp (not_not.mp hclear)
    obtain ⟨l, hl⟩ : ∃ l : Label, l.bytes = (data.drop (i + 1)).take n :=
      ⟨⟨_, by omega, by omega⟩, rfl⟩
    have hbyte : UInt8.ofNat l.bytes.length = byteAt data i := by
      rw [hl, hlength, UInt8.ofNat_toNat]
    have hsplit := List.take_append_drop n (data.drop (i + 1))
    rw [List.drop_drop] at hsplit
    refine ⟨l :: names, ?_⟩
    rw [drop_eq_byteAt_cons (not_le.mp hin), encodeLabels_cons, hbyte, List.cons_append,
      List.append_assoc, ← hnames, hl, hsplit]

/-- The names accepted may have one octet more than the limit. -/
theorem decodeDNSName_encodeName (labels : List Label) :
    decodeDNSName (encodeName labels) =
      if (encodeName labels).length ≤ 256 then .ok ([dot].intercalate (labels.map Label.bytes))
      else .error (.tooLong maxDomainNameLength) := by
  have hname : (encodeName labels).drop 0 = encodeLabels labels ++ 0 :: [] := rfl
  have hlength := encodeName_length labels
  rw [decodeDNSName, scanLabels_complete labels hname]
  simp only [List.nil_append, Nat.zero_add, joinLabels_eq, maxDomainNameLength]
  rw [if_neg (not_not_intro hlength.symm)]
  split_ifs
  · omega
  · rfl
  · rfl
  · omega

theorem uncompressed_of_decode {data name : Bytes} (h : decodeDNSName data = .ok name) :
    Uncompressed data := by
  rw [decodeDNSName] at h
  cases hscan : scanLabels data [] 0 0 with
  | error e =>
    rw [hscan] at h
    cases h
  | ok s =>
    rw [hscan] at h
    dsimp only at h
    split_ifs at h with hend
    obtain ⟨names, hnames⟩ := scanLabels_sound hscan
    rw [not_not.mp hend, List.drop_length, List.drop_zero] at hnames
    exact ⟨names, hnames.symm⟩

/-- `decodeDNSName` accepts exactly the domain names and returns their labels joined by dots, save
that it also accepts those with one octet too many. -/
theorem decodes_domain_names_iff (data : Bytes) :
    (((∃ name, decodeDNSName data = .ok name) ↔ IsDomainName data) ∧
      ∀ labels : List Label, encodeName labels = data → data.length ≤ 255 →
        decodeDNSName data = .ok ([dot].intercalate (labels.map Label.bytes))) ↔
      ¬ (Uncompressed data ∧ data.length = 256) := by
  constructor
  · rintro ⟨hiff, -⟩ ⟨⟨labels, hlabels⟩, hlength⟩
    have hdecode := decodeDNSName_encodeName labels
    rw [hlabels, if_pos hlength.le] at hdecode
    have hlimit := (hiff.mp ⟨_, hdecode⟩).2
    omega
  · intro hnot
    have hdecode : ∀ labels : List Label, encodeName labels = data → data.length ≤ 255 →
        decodeDNSName data = .ok ([dot].intercalate (labels.map Label.bytes)) := by
      rintro labels rfl hlength
      rw [decodeDNSName_encodeName, if_pos (by omega)]
    refine ⟨⟨?_, ?_⟩, hdecode⟩
    · rintro ⟨name, hname⟩
      obtain ⟨labels, rfl⟩ := uncompressed_of_decode hname
      rw [decodeDNSName_encodeName] at hname
      split_ifs at hname with hlength
      have hne : (encodeName labels).length ≠ 256 := fun h => hnot ⟨⟨labels, rfl⟩, h⟩
      exact ⟨⟨labels, rfl⟩, by omega⟩
    · rintro ⟨⟨labels, hlabels⟩, hlength⟩
      exact ⟨_, hdecode labels hlabels hlength⟩

/-- Three labels of 63 bytes and one of 62: 255 octets before the zero byte. -/
def longName : List Label :=
  [⟨List.replicate 63 0x61, by decide, by decide⟩, ⟨List.replicate 63 0x61, by decide, by decide⟩,
    ⟨List.replicate 63 0x61, by decide, by decide⟩, ⟨List.replicate 62 0x61, by decide, by decide⟩]

theorem longName_accepted : (encodeName longName).length = 256 ∧
    (∃ name, decodeDNSName (encodeName longName) = .ok name) ∧
      ¬ IsDomainName (encodeName longName) := by
  have hlength : (encodeName longName).length = 256 := by decide +kernel
  have hdecode := decodeDNSName_encodeName longName
  rw [if_pos hlength.le] at hdecode
  refine ⟨hlength, ⟨_, hdecode⟩, fun hname => ?_⟩
  have hlimit := hname.2
  omega

end Minuteman.AftrDiscovery
