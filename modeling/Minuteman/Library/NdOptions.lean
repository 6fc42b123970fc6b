import Minuteman.Library.ByteString

/-!
# Options of Neighbor Discovery messages

An option is a type, its length in units of eight bytes, and what fills them.
A receiver reads the options one after the other; one whose length is zero, or
more than what is left, makes the message invalid.
-/
namespace Minuteman.Library
open ByteString

structure NdOption where
  kind : UInt8
  body : Bytes
  aligned : (body.length + 2) % 8 = 0
  bounded : body.length + 2 < 2048

namespace NdOption

def units (o : NdOption) : ℕ := (o.body.length + 2) / 8

def encode (o : NdOption) : Bytes := o.kind :: UInt8.ofNat o.units :: o.body

theorem encode_length (o : NdOption) : o.encode.length = 8 * o.units := by
  have haligned := o.aligned
  rw [encode, List.length_cons, List.length_cons, units]
  omega

theorem units_pos (o : NdOption) : 0 < o.units := by
  have haligned := o.aligned
  rw [units]
  omega

theorem toNat_units (o : NdOption) : (UInt8.ofNat o.units).toNat = o.units := by
  have hbounded := o.bounded
  rw [UInt8.toNat_ofNat', units]
  omega

end NdOption

/-- The options of a message, each with its type and what fills it. -/
def readNdOptions (b : Bytes) : Option (List (UInt8 × Bytes)) :=
  if b = [] then some []
  else
    let size := 8 * (byteAt b 1).toNat
    if size = 0 then none
    else if b.length < size then none
    else (readNdOptions (b.drop size)).map ((byteAt b 0, (b.take size).drop 2) :: ·)
termination_by b.length
decreasing_by
  rw [List.length_drop]
  omega

theorem readNdOptions_nil : readNdOptions [] = some [] := by
  rw [readNdOptions, if_pos rfl]

theorem readNdOptions_cons (o : NdOption) (rest : Bytes) :
    readNdOptions (o.encode ++ rest) = (readNdOptions rest).map ((o.kind, o.body) :: ·) := by
  have hlength := o.encode_length
  have hpos := o.units_pos
  have hsize : (byteAt (o.encode ++ rest) 1).toNat = o.units := o.toNat_units
  have hbody : ((o.encode ++ rest).take (8 * o.units)).drop 2 = o.body := by
    rw [List.take_left' hlength]
    rfl
  rw [readNdOptions, if_neg (by simp [NdOption.encode])]
  dsimp only
  rw [hsize, if_neg (by omega), if_neg (by rw [List.length_append]; omega), hbody,
    List.drop_left' hlength]
  rfl

/-- Well-formed options are read back. -/
theorem readNdOptions_flatMap (os : List NdOption) :
    readNdOptions (os.flatMap NdOption.encode) = some (os.map fun o => (o.kind, o.body)) := by
  induction os with
  | nil => exact readNdOptions_nil
  | cons o rest ih => rw [List.flatMap_cons, readNdOptions_cons, ih, List.map_cons, Option.map_some]

end Minuteman.Library
