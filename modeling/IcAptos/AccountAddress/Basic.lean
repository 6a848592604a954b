import IcAptos.Hex

namespace IcAptos

inductive AccountAddressParseError where
  | incorrectNumberOfBytes
  | invalidHexChars (e : FromHexError)
  | tooShort
  | tooLong
  | leadingZeroXRequired
  | longFormRequiredUnlessSpecial
  | invalidPaddingZeroes
  deriving DecidableEq, Repr

def AccountAddress.length : Nat := 32

structure AccountAddress where
  bytes : List UInt8
  length_eq : bytes.length = AccountAddress.length
  deriving DecidableEq

def BigUint.fromBytesBe (bytes : List UInt8) : Nat := bytes.foldl (fun n b => 256 * n + b.toNat) 0

def fmt02x (b : UInt8) : List Char :=
  let digits := Nat.toDigits 16 b.toNat
  List.replicate (2 - digits.length) '0' ++ digits

def fmt02X (b : UInt8) : List Char := (fmt02x b).map Char.toUpper

namespace AccountAddress

def zero : AccountAddress := ⟨List.replicate 32 0, rfl⟩

instance : LT AccountAddress := ⟨fun a b => List.lt a.bytes b.bytes⟩

def isSpecial (a : AccountAddress) : Bool :=
  (a.bytes.take (length - 1)).all (· == 0) && decide (a.bytes.getD (length - 1) 0 < 0b10000)

def toCanonicalString (a : AccountAddress) : List Char := Hex.encode a.bytes

def shortStrLossless (a : AccountAddress) : List Char :=
  let hexStr := (Hex.encode a.bytes).dropWhile (· == '0')
  if hexStr.isEmpty then ['0'] else hexStr

def toStandardString (a : AccountAddress) : List Char :=
  let suffix := if a.isSpecial then a.shortStrLossless else a.toCanonicalString
  ['0', 'x'] ++ suffix

def toBigUint (a : AccountAddress) : Nat := BigUint.fromBytesBe a.bytes

def toVec (a : AccountAddress) : List UInt8 := a.bytes

theorem length_of_decodeToSlice {hex bytes : List UInt8}
    (h : Hex.decodeToSlice hex length = .ok bytes) : bytes.length = length := by
  obtain ⟨hl, hd⟩ := Hex.decodeToSlice_eq_ok.1 h
  rw [Hex.decodePairs_length hd, hl]
  simp

def fromHex (hex : List UInt8) : Except AccountAddressParseError AccountAddress :=
  match h : Hex.decodeToSlice hex length with
  | .ok bytes => .ok ⟨bytes, length_of_decodeToSlice h⟩
  | .error e => .error (.invalidHexChars e)

def fromHexLiteral (literal : List Char) : Option (Except AccountAddressParseError AccountAddress) :=
  if !Str.startsWith literal ['0', 'x'] then some (.error .leadingZeroXRequired)
  else do
    let hexLen ← usizeSub (Str.len literal) 2
    if hexLen < length * 2 then
      let padding ← usizeSub (length * 2) hexLen
      let rest ← Str.sliceFrom 2 literal
      return fromHex (Str.asBytes (List.replicate padding '0' ++ rest))
    else
      let rest ← Str.sliceFrom 2 literal
      return fromHex (Str.asBytes rest)

def toHexLiteral (a : AccountAddress) : List Char := ['0', 'x'] ++ a.shortStrLossless

def lowerHex (a : AccountAddress) (alternate : Bool) : List Char :=
  (if alternate then ['0', 'x'] else []) ++ a.bytes.flatMap fmt02x

def upperHex (a : AccountAddress) (alternate : Bool) : List Char :=
  (if alternate then ['0', 'x'] else []) ++ a.bytes.flatMap fmt02X

def toHex (a : AccountAddress) : List Char := a.lowerHex false

def fromStr (s : List Char) : Option (Except AccountAddressParseError AccountAddress) :=
  if !Str.startsWith s ['0', 'x'] then
    if s.isEmpty then some (.error .tooShort)
    else fromHexLiteral (['0', 'x'] ++ s)
  else
    if Str.len s == 2 then some (.error .tooShort)
    else fromHexLiteral s

def fromStrStrict (s : List Char) : Option (Except AccountAddressParseError AccountAddress) :=
  if !Str.startsWith s ['0', 'x'] then some (.error .leadingZeroXRequired)
  else (fromStr s).map fun r => r.bind fun address =>
    if Str.len s ≠ length * 2 + 2 then
      if !address.isSpecial then .error .longFormRequiredUnlessSpecial
      else if Str.len s ≠ 3 then .error .invalidPaddingZeroes
      else .ok address
    else .ok address

def display (a : AccountAddress) : List Char := a.toStandardString

def debug (a : AccountAddress) : List Char := a.lowerHex false

def stringFrom (a : AccountAddress) : List Char := Hex.encode a.bytes

def tryFromString (s : List Char) : Option (Except AccountAddressParseError AccountAddress) := fromStr s

def serializeHumanReadable (a : AccountAddress) : List Char := a.toHex

def deserializeHumanReadable (s : List Char) : Option (Except AccountAddressParseError AccountAddress) :=
  fromStr s

end AccountAddress

end IcAptos
