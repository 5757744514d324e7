import CausalWeave.Blake3
import CausalWeave.Json.Printer
import CausalWeave.Weave

namespace CausalWeave

/-- The lowest bytes of a number, the lowest one first. -/
def littleEndian : Nat → Nat → List UInt8
  | 0, _ => []
  | width + 1, value => UInt8.ofNat (value % 256) :: littleEndian width (value / 256)

theorem length_littleEndian (width value : Nat) : (littleEndian width value).length = width := by
  induction width generalizing value with
  | zero => rfl
  | succ width ih => simp [littleEndian, ih]

/-- The bytes of an id: length and bytes of the site's name, timestamp and priority. -/
def AtomId.digestBytes (id : AtomId) : List UInt8 :=
  let name := id.site.name.toUTF8.toList
  littleEndian 8 name.length ++ name ++ littleEndian 8 id.timestamp.toNat ++
    littleEndian 4 id.priority.toUInt32.toNat

def hexText (bytes : List UInt8) : List Char :=
  bytes.flatMap fun byte => [Json.hexDigit (byte.toNat / 16), Json.hexDigit (byte.toNat % 16)]

def digestOfIds (ids : List AtomId) : String :=
  let bytes := ids.flatMap AtomId.digestBytes
  "blake3:" ++ String.ofList (hexText (Blake3.hash (ByteArray.mk bytes.toArray)))

def Weave.digest (weave : Weave) : String :=
  digestOfIds (weave.toList.map (·.id))

end CausalWeave
