namespace Turnpike.Random

/-- The 64-bit FNV-1a hash of some bytes, going on from a hash of those before. -/
def fnv (bytes : List UInt8) (hash : UInt64 := 0xcbf29ce484222325) : UInt64 :=
  bytes.foldl (fun h b => (h ^^^ b.toUInt64) * 0x100000001b3) hash

def utf8 (s : String) : List UInt8 := s.toUTF8.toList

def littleEndian (w : UInt64) : List UInt8 :=
  (List.range 8).map fun i => (w >>> UInt64.ofNat (8 * i)).toUInt8

def rotateRight32 (x n : UInt32) : UInt32 := (x >>> n) ||| (x <<< ((32 - n) % 32))

def advance (s : UInt64) : UInt64 := s * 6364136223846793005 + 11634580027462260723

def mixed (s : UInt64) : UInt32 :=
  rotateRight32 ((((s >>> 18) ^^^ s) >>> 27).toUInt32) (s >>> 59).toUInt32

def spread : Nat → UInt64 → List UInt32
  | 0, _ => []
  | n + 1, s => mixed (advance s) :: spread n (advance s)

end Turnpike.Random
