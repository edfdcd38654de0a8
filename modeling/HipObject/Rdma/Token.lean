import HipObject.Codec.Digits

/-!
# RDMA tokens

The token that a client advertises and a server answers with: its fields, the
writer and reader of its packed binary form, and the hexadecimal encoding that
travels in the `x-amz-rdma-token` header. The definitions follow
`rdma/token.h` and `rdma/token.cpp`; the layout of the binary form is stated a
second time from `docs/interop.rst`, byte by byte, so that the two can be
compared.
-/

namespace HipObject

open Codec

/-- Hex digits in an encoded token: two for each of its 44 bytes. -/
def kRdmaTokenHexLen : Nat := 88

/-- Bytes in a GID. -/
def kGidLen : Nat := 16

/-- A RoCE or InfiniBand GID, with its bytes in the order they have in a token. -/
abbrev Gid := Vector Byte 16

/-- The token's transport byte on the wire. The enumeration has a fixed
underlying type, so a value can be any byte, also one that names no enumerator. -/
structure TransportType where
  byte : Byte
  deriving DecidableEq

namespace TransportType

def DC : TransportType := ⟨0x00⟩
def RC : TransportType := ⟨0x01⟩

end TransportType

/-- An RDMA token. -/
structure RdmaToken where
  qpNum : BitVec 32
  gid : Gid
  rkey : BitVec 32
  remoteAddr : BitVec 64
  length : BitVec 64
  transport : TransportType
  portNum : BitVec 8
  lid : BitVec 16
  deriving DecidableEq

/-- The length of the binary form: `transport`, `qpNum`, `gid`, `rkey`,
`remoteAddr`, `length`, `portNum` and `lid`, with no padding. -/
def kTokenBinaryLen : Nat := 1 + 4 + kGidLen + 4 + 8 + 8 + 1 + 2

/-! ### The binary form -/

/-- Writes a token's binary form front to back: what has been written of the
buffer, and what is left of it. -/
structure TokenWriter where
  written : List Byte
  rest : List Byte

/-- `TokenWriter::put(std::span)` copies bytes as they are. -/
def TokenWriter.putBytes (out : TokenWriter) (bytes : List Byte) : TokenWriter :=
  ⟨out.written ++ bytes, out.rest.drop bytes.length⟩

/-- `TokenWriter::put(T)` writes an integer little-endian on any host. -/
def TokenWriter.put {w : Nat} (out : TokenWriter) (value : BitVec w) : TokenWriter :=
  out.putBytes (bytesOf value)

/-- Reads a token's binary form front to back, the way `TokenWriter` writes it. -/
structure TokenReader where
  rest : List Byte

/-- `TokenReader::get<T>()` for an unsigned type of `w` bits. -/
def TokenReader.get (w : Nat) (inp : TokenReader) : BitVec w × TokenReader :=
  (ofBytes w inp.rest, ⟨inp.rest.drop (w / 8)⟩)

/-- The first 16 of `bytes`. -/
def gidOfBytes (bytes : List Byte) : Gid := Vector.ofFn fun i => bytes.getD i 0

/-- `TokenReader::get(std::span)` into a GID. -/
def TokenReader.getGid (inp : TokenReader) : Gid × TokenReader :=
  (gidOfBytes inp.rest, ⟨inp.rest.drop kGidLen⟩)

/-- The binary form that `encodeRdmaTokenHex` writes before it prints it. -/
def tokenBinary (token : RdmaToken) : List Byte :=
  let out : TokenWriter := ⟨[], List.replicate kTokenBinaryLen 0⟩
  let out := out.put token.transport.byte
  let out := out.put token.qpNum
  let out := out.putBytes token.gid.toList
  let out := out.put token.rkey
  let out := out.put token.remoteAddr
  let out := out.put token.length
  let out := out.put token.portNum
  let out := out.put token.lid
  out.written ++ out.rest

/-- An encoded token: `kRdmaTokenHexLen` hex digits and a terminating NUL. -/
def encodeRdmaTokenHex (token : RdmaToken) : List Byte :=
  writePairs (tokenBinary token) ++ [0]

/-- `encodeRdmaToken` leaves the NUL out. -/
def encodeRdmaToken (token : RdmaToken) : List Byte :=
  (encodeRdmaTokenHex token).take kRdmaTokenHexLen

/-- The fields after the transport byte, in the order `decodeRdmaTokenHex`
reads them. -/
def readTokenFields (transport : TransportType) (inp : TokenReader) : RdmaToken :=
  let (qpNum, inp) := inp.get 32
  let (gid, inp) := inp.getGid
  let (rkey, inp) := inp.get 32
  let (remoteAddr, inp) := inp.get 64
  let (length, inp) := inp.get 64
  let (portNum, inp) := inp.get 8
  let (lid, _) := inp.get 16
  { qpNum, gid, rkey, remoteAddr, length, transport, portNum, lid }

/-- The token in a binary form, or nothing when its transport byte names no
`TransportType`. -/
def readTokenBinary (buf : List Byte) : Option RdmaToken :=
  let (byte, inp) := TokenReader.get 8 ⟨buf⟩
  let transport : TransportType := ⟨byte⟩
  if transport ≠ .DC ∧ transport ≠ .RC then none
  else some (readTokenFields transport inp)

/-- Decodes exactly `kRdmaTokenHexLen` hex digits. -/
def decodeRdmaTokenHex (tokenHex : List Byte) : Option RdmaToken :=
  if tokenHex.length ≠ kRdmaTokenHexLen then none
  else (parsePairs kTokenBinaryLen tokenHex).bind readTokenBinary

/-! ### The documented layout -/

/-- Byte `i` of a little-endian integer. -/
def leByte {w : Nat} (value : BitVec w) (i : Nat) : Byte := BitVec.ofNat 8 (value.toNat / 256 ^ i)

/-- Byte `i` of a token as `docs/interop.rst` lays it out. -/
def RdmaToken.wireByte (token : RdmaToken) (i : Nat) : Byte :=
  if i < 1 then token.transport.byte
  else if i < 5 then leByte token.qpNum (i - 1)
  else if i < 21 then token.gid.toList.getD (i - 5) 0
  else if i < 25 then leByte token.rkey (i - 21)
  else if i < 33 then leByte token.remoteAddr (i - 25)
  else if i < 41 then leByte token.length (i - 33)
  else if i < 42 then token.portNum
  else leByte token.lid (i - 42)

/-- A token whose transport is one of the enumerators. -/
def RdmaToken.HasTransport (token : RdmaToken) : Prop :=
  token.transport = .DC ∨ token.transport = .RC

instance (token : RdmaToken) : Decidable token.HasTransport :=
  inferInstanceAs (Decidable (_ ∨ _))

/-! ### The binary form and its layout agree -/

/-- The fields one after the other, which is what the writer leaves behind. -/
def RdmaToken.fields (token : RdmaToken) : List Byte :=
  bytesOf token.transport.byte ++ (bytesOf token.qpNum ++ (token.gid.toList ++
    (bytesOf token.rkey ++ (bytesOf token.remoteAddr ++ (bytesOf token.length ++
      (bytesOf token.portNum ++ bytesOf token.lid))))))

@[simp] theorem RdmaToken.length_fields (token : RdmaToken) :
    token.fields.length = kTokenBinaryLen := by
  simp [fields, kTokenBinaryLen, kGidLen]

/-- The eight fields fill the buffer, so nothing of its zeros is left. -/
theorem tokenBinary_eq (token : RdmaToken) : tokenBinary token = token.fields := by
  simp [tokenBinary, TokenWriter.put, TokenWriter.putBytes, RdmaToken.fields, kTokenBinaryLen,
    kGidLen]

@[simp] theorem length_tokenBinary (token : RdmaToken) :
    (tokenBinary token).length = kTokenBinaryLen := by
  rw [tokenBinary_eq, RdmaToken.length_fields]

theorem bytesOf_eq_leBytes {w : Nat} (value : BitVec w) :
    bytesOf value = (List.range (w / 8)).map (leByte value) := by
  apply List.map_congr_left
  intro i _
  apply BitVec.eq_of_toNat_eq
  rw [leByte, BitVec.toNat_setWidth, BitVec.toNat_ushiftRight, BitVec.toNat_ofNat,
    Nat.shiftRight_eq_div_pow, Nat.pow_mul]

/-- The bytes of a one-byte field are the field. -/
theorem bytesOf_byte (value : Byte) : bytesOf value = [value] := by
  rw [bytesOf_eq_leBytes]
  simp [leByte]

theorem tokenBinary_eq_wireBytes (token : RdmaToken) :
    tokenBinary token = (List.range kTokenBinaryLen).map token.wireByte := by
  have hgid : token.gid.toList = (List.range 16).map fun i => token.gid.toList.getD i 0 := by
    apply List.ext_getElem
    · simp
    · intro i hi _
      have hi' : i < 16 := by simpa using hi
      simp [List.getD_eq_getElem?_getD, hi']
  rw [tokenBinary_eq, RdmaToken.fields, bytesOf_byte, bytesOf_byte, hgid]
  simp only [bytesOf_eq_leBytes]
  rfl

/-! ### Reading a binary form -/

@[simp] theorem gidOfBytes_append (gid : Gid) (rest : List Byte) :
    gidOfBytes (gid.toList ++ rest) = gid := by
  apply Vector.ext
  intro i hi
  simp only [gidOfBytes, Vector.getElem_ofFn, List.getD_eq_getElem?_getD]
  rw [List.getElem?_append_left (by simpa using hi)]
  simp [hi]

theorem toList_gidOfBytes {bytes : List Byte} (hlen : 16 ≤ bytes.length) :
    (gidOfBytes bytes).toList = bytes.take 16 := by
  apply List.ext_getElem
  · simp [hlen]
  · intro i hi _
    have hi' : i < 16 := by simpa using hi
    simp [gidOfBytes, List.getD_eq_getElem?_getD, show i < bytes.length by omega]

theorem drop_bytesOf_append {w : Nat} (value : BitVec w) (rest : List Byte) :
    (bytesOf value ++ rest).drop (w / 8) = rest :=
  List.drop_left' (by simp)

theorem drop_gid_append (gid : Gid) (rest : List Byte) :
    (gid.toList ++ rest).drop kGidLen = rest :=
  List.drop_left' (by simp [kGidLen])

theorem readTokenBinary_eq (buf : List Byte) :
    readTokenBinary buf =
      if (⟨ofBytes 8 buf⟩ : TransportType) ≠ .DC ∧ (⟨ofBytes 8 buf⟩ : TransportType) ≠ .RC then none
      else some (readTokenFields ⟨ofBytes 8 buf⟩ ⟨buf.drop 1⟩) := rfl

/-- The first byte decides whether a binary form is read. -/
theorem readTokenBinary_eq_some_iff (buf : List Byte) (token : RdmaToken) :
    readTokenBinary buf = some token ↔
      (ofBytes 8 buf = 0 ∨ ofBytes 8 buf = 1) ∧
        readTokenFields ⟨ofBytes 8 buf⟩ ⟨buf.drop 1⟩ = token := by
  rw [readTokenBinary_eq]
  by_cases hdc : (⟨ofBytes 8 buf⟩ : TransportType) = .DC
  · have hzero : ofBytes 8 buf = 0 := congrArg TransportType.byte hdc
    rw [if_neg (fun h => h.1 hdc), Option.some.injEq]
    exact ⟨fun h => ⟨.inl hzero, h⟩, fun h => h.2⟩
  · by_cases hrc : (⟨ofBytes 8 buf⟩ : TransportType) = .RC
    · have hone : ofBytes 8 buf = 1 := congrArg TransportType.byte hrc
      rw [if_neg (fun h => h.2 hrc), Option.some.injEq]
      exact ⟨fun h => ⟨.inr hone, h⟩, fun h => h.2⟩
    · rw [if_pos ⟨hdc, hrc⟩]
      refine ⟨fun h => (Option.some_ne_none _ h.symm).elim, ?_⟩
      rintro ⟨hzero | hone, -⟩
      · exact absurd (congrArg TransportType.mk hzero) hdc
      · exact absurd (congrArg TransportType.mk hone) hrc

/-- What was written is read back, field by field. -/
theorem readTokenBinary_tokenBinary {token : RdmaToken} (htransport : token.HasTransport) :
    readTokenBinary (tokenBinary token) = some token := by
  have hbyte : ofBytes 8 (tokenBinary token) = token.transport.byte := by
    rw [tokenBinary_eq, RdmaToken.fields, ofBytes_bytesOf_append (by decide)]
  have hrest : (tokenBinary token).drop 1 = token.fields.drop 1 := by rw [tokenBinary_eq]
  have hlid : ofBytes 16 (bytesOf token.lid) = token.lid := by
    simpa using ofBytes_bytesOf_append (by decide) token.lid []
  rw [readTokenBinary_eq_some_iff, hbyte, hrest]
  refine ⟨?_, ?_⟩
  · exact htransport.imp (congrArg TransportType.byte) (congrArg TransportType.byte)
  · rw [RdmaToken.fields, drop_bytesOf_append (w := 8)]
    simp only [readTokenFields, TokenReader.get, TokenReader.getGid, gidOfBytes_append,
      drop_gid_append, drop_bytesOf_append, hlid, ofBytes_bytesOf_append (w := 8) (by decide),
      ofBytes_bytesOf_append (w := 32) (by decide), ofBytes_bytesOf_append (w := 64) (by decide)]

/-- A binary form that is read is the binary form of the token it gives. -/
theorem tokenBinary_of_readTokenBinary {buf : List Byte} {token : RdmaToken}
    (hlen : buf.length = kTokenBinaryLen) (h : readTokenBinary buf = some token) :
    tokenBinary token = buf := by
  have hlen' : buf.length = 44 := hlen
  obtain ⟨-, rfl⟩ := (readTokenBinary_eq_some_iff buf token).mp h
  rw [tokenBinary_eq, RdmaToken.fields]
  simp only [readTokenFields, TokenReader.get, TokenReader.getGid, kGidLen]
  rw [bytesOf_ofBytes (by decide) (by simp [hlen']),
    bytesOf_ofBytes (by decide) (by simp [hlen']), toList_gidOfBytes (by simp [hlen']),
    bytesOf_ofBytes (by decide) (by simp [hlen']),
    bytesOf_ofBytes (by decide) (by simp [hlen']),
    bytesOf_ofBytes (by decide) (by simp [hlen']),
    bytesOf_ofBytes (by decide) (by simp [hlen']),
    bytesOf_ofBytes (by decide) (by simp [hlen'])]
  -- The last field takes all that is left, so the pieces join up again.
  rw [List.take_of_length_le (i := 16 / 8) (by simp [hlen'])]
  simp only [Nat.reduceDiv, List.take_append_drop]

end HipObject
