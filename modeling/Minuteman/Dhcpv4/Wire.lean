import Minuteman.Dhcpv4.Messages
import Minuteman.Library.Checked

/-!
# The DHCPv4 wire format

`Marshal` and `Parse` of `pkg/dhcpv4/message.go` and `options.go`. Data longer
than the 255 bytes an option has room for is sent in several instances of it.
-/
namespace Minuteman.Dhcpv4
open Library ByteString Checked

def optPad : OptionCode := 0
def optEnd : OptionCode := 255

def bootpFixedLen : ℕ := 236

def magicCookie : Bytes := [0x63, 0x82, 0x53, 0x63]

def minMessageLen : ℕ := 300

/-- The instances the data of an option is sent in, one at least. `turns` bounds how many. -/
def marshalData (code : OptionCode) : (turns : ℕ) → Bytes → Bytes
  | turns + 1, data =>
    let n := min data.length 255
    [code, UInt8.ofNat n] ++ data.take n ++
      (if 0 < (data.drop n).length then marshalData code turns (data.drop n) else [])
  | 0, _ => []

def Options.marshal (o : Options) : Bytes :=
  o.flatMap fun opt => marshalData opt.code (opt.data.length + 1) opt.data

def field (n : ℕ) (w : Bytes) : Bytes := w.take n ++ List.replicate (n - w.length) 0

/-- The four bytes of an address, all zero for one that is not set. -/
def putAddr4 (a : Option Addr) : Bytes := be32 (a.getD 0)

def Message.marshal (m : Message) : Bytes :=
  let b := [m.op, m.htype, m.hlen, m.hops] ++ be32 m.xid ++ be16 m.secs ++ be16 m.flags ++
    putAddr4 m.ciaddr ++ putAddr4 m.yiaddr ++ putAddr4 m.siaddr ++ putAddr4 m.giaddr ++
    field 16 m.chaddr ++ field 64 m.sname ++ field 128 m.file
  let b := b ++ magicCookie ++ m.options.marshal ++ [optEnd]
  b ++ List.replicate (minMessageLen - b.length) optPad

inductive OptionsError where
  | truncatedHeader (code : OptionCode)
  | lengthExceeds (code : OptionCode) (length : ℕ)
  deriving DecidableEq

/-- The loop of `parseOptions`, on the bytes from its index on. -/
def parseOptionsFrom : (turns : ℕ) → Bytes → Checked (Except OptionsError Options)
  | turns + 1, b =>
    if ¬ 0 < b.length then .ok (.ok [])
    else do
      let code ← index b 0
      if code = optPad then parseOptionsFrom turns (← sliceFrom b 1)
      else if code = optEnd then .ok (.ok [])
      else if 1 ≥ b.length then .ok (.error (.truncatedHeader code))
      else
        let optLen := (← index b 1).toNat
        if 2 + optLen > b.length then .ok (.error (.lengthExceeds code optLen))
        else
          let data ← slice b 2 (2 + optLen)
          let rest ← parseOptionsFrom turns (← sliceFrom b (2 + optLen))
          .ok (rest.map (⟨code, data⟩ :: ·))
  | 0, _ => .ok (.ok [])

def parseOptions (b : Bytes) : Checked (Except OptionsError Options) := parseOptionsFrom b.length b

def cstr (b : Bytes) : Bytes := b.takeWhile (· ≠ 0)

inductive ParseError where
  | tooShort (length : ℕ)
  | badMagicCookie
  | options (e : OptionsError)
  deriving DecidableEq

def parse (b : Bytes) : Checked (Except ParseError Message) :=
  if b.length < bootpFixedLen + magicCookie.length then .ok (.error (.tooShort b.length))
  else do
    if (← slice b bootpFixedLen (bootpFixedLen + 4)) ≠ magicCookie then
      .ok (.error .badMagicCookie)
    else
      let hlen ← index b 2
      let m : Message :=
        { op := ← index b 0
          htype := ← index b 1
          hlen := hlen
          hops := ← index b 3
          xid := ← getUint32 b 4
          secs := ← getUint16 b 8
          flags := ← getUint16 b 10
          ciaddr := some (← getUint32 b 12)
          yiaddr := some (← getUint32 b 16)
          siaddr := some (← getUint32 b 20)
          giaddr := some (← getUint32 b 24)
          chaddr := ← slice b 28 (28 + min hlen.toNat 16)
          sname := cstr (← slice b 44 108)
          file := cstr (← slice b 108 236)
          options := [] }
      match ← parseOptions (← sliceFrom b (bootpFixedLen + 4)) with
      | .error e => .ok (.error (.options e))
      | .ok opts => .ok (.ok { m with options := opts })

/-- A turn of the loop. All its accesses are inside the buffer. -/
theorem parseOptionsFrom_succ {b : Bytes} (hb : 0 < b.length) (turns : ℕ) :
    parseOptionsFrom (turns + 1) b =
      if byteAt b 0 = optPad then parseOptionsFrom turns (b.drop 1)
      else if byteAt b 0 = optEnd then .ok (.ok [])
      else if b.length ≤ 1 then .ok (.error (.truncatedHeader (byteAt b 0)))
      else if b.length < 2 + (byteAt b 1).toNat then
        .ok (.error (.lengthExceeds (byteAt b 0) (byteAt b 1).toNat))
      else (parseOptionsFrom turns (b.drop (2 + (byteAt b 1).toNat))).map fun rest =>
        rest.map (⟨byteAt b 0, (b.take (2 + (byteAt b 1).toNat)).drop 2⟩ :: ·) := by
  rw [parseOptionsFrom, if_neg (not_not.mpr hb), index_eq hb, ok_bind]
  by_cases hpad : byteAt b 0 = optPad
  · rw [if_pos hpad, if_pos hpad, sliceFrom_eq hb, ok_bind]
  rw [if_neg hpad, if_neg hpad]
  by_cases hend : byteAt b 0 = optEnd
  · rw [if_pos hend, if_pos hend]
  rw [if_neg hend, if_neg hend]
  by_cases hone : b.length ≤ 1
  · rw [if_pos hone, if_pos hone]
  rw [if_neg hone, if_neg hone, index_eq (not_le.mp hone), ok_bind]
  by_cases hover : b.length < 2 + (byteAt b 1).toNat
  · rw [if_pos hover, if_pos hover]
  · have hin := not_lt.mp hover
    rw [if_neg hover, if_neg hover, slice_eq (by omega) hin, ok_bind, sliceFrom_eq hin, ok_bind]
    cases parseOptionsFrom turns (b.drop (2 + (byteAt b 1).toNat)) <;> rfl

theorem parseOptionsFrom_returns (turns : ℕ) (b : Bytes) :
    ∃ r, parseOptionsFrom turns b = .ok r := by
  induction turns generalizing b with
  | zero => exact ⟨_, rfl⟩
  | succ turns ih =>
    by_cases hb : 0 < b.length
    · rw [parseOptionsFrom_succ hb]
      split_ifs
      · exact ih _
      · exact ⟨_, rfl⟩
      · exact ⟨_, rfl⟩
      · exact ⟨_, rfl⟩
      · obtain ⟨rest, hrest⟩ := ih (b.drop (2 + (byteAt b 1).toNat))
        rw [hrest]
        exact ⟨_, rfl⟩
    · rw [parseOptionsFrom, if_pos hb]
      exact ⟨_, rfl⟩

/-- The message the fixed header of `b` spells, without options. -/
def header (b : Bytes) : Message where
  op := byteAt b 0
  htype := byteAt b 1
  hlen := byteAt b 2
  hops := byteAt b 3
  xid := be32At b 4
  secs := be16At b 8
  flags := be16At b 10
  ciaddr := some (be32At b 12)
  yiaddr := some (be32At b 16)
  siaddr := some (be32At b 20)
  giaddr := some (be32At b 24)
  chaddr := (b.take (28 + min (byteAt b 2).toNat 16)).drop 28
  sname := cstr ((b.take 108).drop 44)
  file := cstr ((b.take 236).drop 108)
  options := []

/-- All accesses to the header are inside it. -/
theorem parse_eq {b : Bytes} (hb : 240 ≤ b.length)
    (hcookie : (b.take 240).drop 236 = magicCookie) :
    parse b = (parseOptions (b.drop 240)).map fun r =>
      (r.mapError .options).map fun opts => { header b with options := opts } := by
  have hshort : ¬ b.length < bootpFixedLen + magicCookie.length := not_lt.mpr hb
  have hindex : ∀ i < 240, index b i = .ok (byteAt b i) := fun i hi => index_eq (by omega)
  have huint16 : ∀ i < 239, getUint16 b i = .ok (be16At b i) := fun i hi => getUint16_eq (by omega)
  have huint32 : ∀ i < 237, getUint32 b i = .ok (be32At b i) := fun i hi => getUint32_eq (by omega)
  have hslice : ∀ i j, i ≤ j → j ≤ 240 → slice b i j = .ok ((b.take j).drop i) :=
    fun i j hij hj => slice_eq hij (by omega)
  have hchaddr := hslice 28 (28 + min (byteAt b 2).toNat 16) (by omega) (by omega)
  rw [parse, if_neg hshort]
  simp only [bootpFixedLen, hslice 236 240 (by decide) le_rfl, hcookie, ok_bind, ne_eq,
    not_true_eq_false, if_false, hindex 0 (by decide), hindex 1 (by decide), hindex 2 (by decide),
    hindex 3 (by decide), huint32 4 (by decide), huint16 8 (by decide), huint16 10 (by decide),
    huint32 12 (by decide), huint32 16 (by decide), huint32 20 (by decide), huint32 24 (by decide),
    hchaddr, hslice 44 108 (by decide) (by decide), hslice 108 236 (by decide) (by decide),
    sliceFrom_eq hb]
  obtain ⟨r, hr⟩ := parseOptionsFrom_returns (b.drop 240).length (b.drop 240)
  rw [parseOptions, hr]
  cases r <;> rfl

/-- Why a buffer is refused before its options are looked at. -/
theorem parse_refused {b : Bytes} (h : ¬ (240 ≤ b.length ∧ (b.take 240).drop 236 = magicCookie)) :
    ∃ e, parse b = .ok (.error e) := by
  have hmin : bootpFixedLen + magicCookie.length = 240 := rfl
  by_cases hb : b.length < 240
  · rw [parse, hmin, if_pos hb]
    exact ⟨_, rfl⟩
  · have hcookie : (b.take 240).drop 236 ≠ magicCookie := fun hc => h ⟨not_lt.mp hb, hc⟩
    have hslice : slice b bootpFixedLen (bootpFixedLen + 4) = .ok ((b.take 240).drop 236) :=
      slice_eq (by decide) (not_lt.mp hb)
    rw [parse, hmin, if_neg hb, hslice, ok_bind, if_pos hcookie]
    exact ⟨_, rfl⟩

/-- Parsing returns, and what it accepts has the header of the buffer. -/
theorem parse_returns (b : Bytes) : (∃ e, parse b = .ok (.error e)) ∨
    ∃ opts, parse b = .ok (.ok { header b with options := opts }) := by
  by_cases h : 240 ≤ b.length ∧ (b.take 240).drop 236 = magicCookie
  · obtain ⟨r, hr⟩ := parseOptionsFrom_returns (b.drop 240).length (b.drop 240)
    rw [parse_eq h.1 h.2, parseOptions, hr]
    cases r with
    | error e => exact .inl ⟨_, rfl⟩
    | ok opts => exact .inr ⟨_, rfl⟩
  · exact .inl (parse_refused h)

end Minuteman.Dhcpv4
