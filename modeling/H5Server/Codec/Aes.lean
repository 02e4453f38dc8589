import H5Server.Codec.Base64

/-! # The block cipher (`AES_ECB_Cipher`)

The forward direction keeps the state with rows and columns exchanged, the inverse direction does not. Each
has its own routines for shifting, mixing and adding the round key.
-/

namespace H5Server.Codec.AES

/-! ## Tables -/

def scSbox : List Byte :=
  [0x63, 0x7c, 0x77, 0x7b, 0xf2, 0x6b, 0x6f, 0xc5, 0x30, 0x01, 0x67, 0x2b, 0xfe, 0xd7, 0xab, 0x76,
    0xca, 0x82, 0xc9, 0x7d, 0xfa, 0x59, 0x47, 0xf0, 0xad, 0xd4, 0xa2, 0xaf, 0x9c, 0xa4, 0x72, 0xc0,
    0xb7, 0xfd, 0x93, 0x26, 0x36, 0x3f, 0xf7, 0xcc, 0x34, 0xa5, 0xe5, 0xf1, 0x71, 0xd8, 0x31, 0x15,
    0x04, 0xc7, 0x23, 0xc3, 0x18, 0x96, 0x05, 0x9a, 0x07, 0x12, 0x80, 0xe2, 0xeb, 0x27, 0xb2, 0x75,
    0x09, 0x83, 0x2c, 0x1a, 0x1b, 0x6e, 0x5a, 0xa0, 0x52, 0x3b, 0xd6, 0xb3, 0x29, 0xe3, 0x2f, 0x84,
    0x53, 0xd1, 0x00, 0xed, 0x20, 0xfc, 0xb1, 0x5b, 0x6a, 0xcb, 0xbe, 0x39, 0x4a, 0x4c, 0x58, 0xcf,
    0xd0, 0xef, 0xaa, 0xfb, 0x43, 0x4d, 0x33, 0x85, 0x45, 0xf9, 0x02, 0x7f, 0x50, 0x3c, 0x9f, 0xa8,
    0x51, 0xa3, 0x40, 0x8f, 0x92, 0x9d, 0x38, 0xf5, 0xbc, 0xb6, 0xda, 0x21, 0x10, 0xff, 0xf3, 0xd2,
    0xcd, 0x0c, 0x13, 0xec, 0x5f, 0x97, 0x44, 0x17, 0xc4, 0xa7, 0x7e, 0x3d, 0x64, 0x5d, 0x19, 0x73,
    0x60, 0x81, 0x4f, 0xdc, 0x22, 0x2a, 0x90, 0x88, 0x46, 0xee, 0xb8, 0x14, 0xde, 0x5e, 0x0b, 0xdb,
    0xe0, 0x32, 0x3a, 0x0a, 0x49, 0x06, 0x24, 0x5c, 0xc2, 0xd3, 0xac, 0x62, 0x91, 0x95, 0xe4, 0x79,
    0xe7, 0xc8, 0x37, 0x6d, 0x8d, 0xd5, 0x4e, 0xa9, 0x6c, 0x56, 0xf4, 0xea, 0x65, 0x7a, 0xae, 0x08,
    0xba, 0x78, 0x25, 0x2e, 0x1c, 0xa6, 0xb4, 0xc6, 0xe8, 0xdd, 0x74, 0x1f, 0x4b, 0xbd, 0x8b, 0x8a,
    0x70, 0x3e, 0xb5, 0x66, 0x48, 0x03, 0xf6, 0x0e, 0x61, 0x35, 0x57, 0xb9, 0x86, 0xc1, 0x1d, 0x9e,
    0xe1, 0xf8, 0x98, 0x11, 0x69, 0xd9, 0x8e, 0x94, 0x9b, 0x1e, 0x87, 0xe9, 0xce, 0x55, 0x28, 0xdf,
    0x8c, 0xa1, 0x89, 0x0d, 0xbf, 0xe6, 0x42, 0x68, 0x41, 0x99, 0x2d, 0x0f, 0xb0, 0x54, 0xbb, 0x16]

def scRsbox : List Byte :=
  [0x52, 0x09, 0x6a, 0xd5, 0x30, 0x36, 0xa5, 0x38, 0xbf, 0x40, 0xa3, 0x9e, 0x81, 0xf3, 0xd7, 0xfb,
    0x7c, 0xe3, 0x39, 0x82, 0x9b, 0x2f, 0xff, 0x87, 0x34, 0x8e, 0x43, 0x44, 0xc4, 0xde, 0xe9, 0xcb,
    0x54, 0x7b, 0x94, 0x32, 0xa6, 0xc2, 0x23, 0x3d, 0xee, 0x4c, 0x95, 0x0b, 0x42, 0xfa, 0xc3, 0x4e,
    0x08, 0x2e, 0xa1, 0x66, 0x28, 0xd9, 0x24, 0xb2, 0x76, 0x5b, 0xa2, 0x49, 0x6d, 0x8b, 0xd1, 0x25,
    0x72, 0xf8, 0xf6, 0x64, 0x86, 0x68, 0x98, 0x16, 0xd4, 0xa4, 0x5c, 0xcc, 0x5d, 0x65, 0xb6, 0x92,
    0x6c, 0x70, 0x48, 0x50, 0xfd, 0xed, 0xb9, 0xda, 0x5e, 0x15, 0x46, 0x57, 0xa7, 0x8d, 0x9d, 0x84,
    0x90, 0xd8, 0xab, 0x00, 0x8c, 0xbc, 0xd3, 0x0a, 0xf7, 0xe4, 0x58, 0x05, 0xb8, 0xb3, 0x45, 0x06,
    0xd0, 0x2c, 0x1e, 0x8f, 0xca, 0x3f, 0x0f, 0x02, 0xc1, 0xaf, 0xbd, 0x03, 0x01, 0x13, 0x8a, 0x6b,
    0x3a, 0x91, 0x11, 0x41, 0x4f, 0x67, 0xdc, 0xea, 0x97, 0xf2, 0xcf, 0xce, 0xf0, 0xb4, 0xe6, 0x73,
    0x96, 0xac, 0x74, 0x22, 0xe7, 0xad, 0x35, 0x85, 0xe2, 0xf9, 0x37, 0xe8, 0x1c, 0x75, 0xdf, 0x6e,
    0x47, 0xf1, 0x1a, 0x71, 0x1d, 0x29, 0xc5, 0x89, 0x6f, 0xb7, 0x62, 0x0e, 0xaa, 0x18, 0xbe, 0x1b,
    0xfc, 0x56, 0x3e, 0x4b, 0xc6, 0xd2, 0x79, 0x20, 0x9a, 0xdb, 0xc0, 0xfe, 0x78, 0xcd, 0x5a, 0xf4,
    0x1f, 0xdd, 0xa8, 0x33, 0x88, 0x07, 0xc7, 0x31, 0xb1, 0x12, 0x10, 0x59, 0x27, 0x80, 0xec, 0x5f,
    0x60, 0x51, 0x7f, 0xa9, 0x19, 0xb5, 0x4a, 0x0d, 0x2d, 0xe5, 0x7a, 0x9f, 0x93, 0xc9, 0x9c, 0xef,
    0xa0, 0xe0, 0x3b, 0x4d, 0xae, 0x2a, 0xf5, 0xb0, 0xc8, 0xeb, 0xbb, 0x3c, 0x83, 0x53, 0x99, 0x61,
    0x17, 0x2b, 0x04, 0x7e, 0xba, 0x77, 0xd6, 0x26, 0xe1, 0x69, 0x14, 0x63, 0x55, 0x21, 0x0c, 0x7d]

def scRcon : List Byte :=
  [0x8d, 0x01, 0x02, 0x04, 0x08, 0x10, 0x20, 0x40, 0x80, 0x1b, 0x36, 0x6c, 0xd8, 0xab, 0x4d, 0x9a,
    0x2f, 0x5e, 0xbc, 0x63, 0xc6, 0x97, 0x35, 0x6a, 0xd4, 0xb3, 0x7d, 0xfa, 0xef, 0xc5, 0x91, 0x39,
    0x72, 0xe4, 0xd3, 0xbd, 0x61, 0xc2, 0x9f, 0x25, 0x4a, 0x94, 0x33, 0x66, 0xcc, 0x83, 0x1d, 0x3a,
    0x74, 0xe8, 0xcb, 0x8d, 0x01, 0x02, 0x04, 0x08, 0x10, 0x20, 0x40, 0x80, 0x1b, 0x36, 0x6c, 0xd8,
    0xab, 0x4d, 0x9a, 0x2f, 0x5e, 0xbc, 0x63, 0xc6, 0x97, 0x35, 0x6a, 0xd4, 0xb3, 0x7d, 0xfa, 0xef,
    0xc5, 0x91, 0x39, 0x72, 0xe4, 0xd3, 0xbd, 0x61, 0xc2, 0x9f, 0x25, 0x4a, 0x94, 0x33, 0x66, 0xcc,
    0x83, 0x1d, 0x3a, 0x74, 0xe8, 0xcb, 0x8d, 0x01, 0x02, 0x04, 0x08, 0x10, 0x20, 0x40, 0x80, 0x1b,
    0x36, 0x6c, 0xd8, 0xab, 0x4d, 0x9a, 0x2f, 0x5e, 0xbc, 0x63, 0xc6, 0x97, 0x35, 0x6a, 0xd4, 0xb3,
    0x7d, 0xfa, 0xef, 0xc5, 0x91, 0x39, 0x72, 0xe4, 0xd3, 0xbd, 0x61, 0xc2, 0x9f, 0x25, 0x4a, 0x94,
    0x33, 0x66, 0xcc, 0x83, 0x1d, 0x3a, 0x74, 0xe8, 0xcb, 0x8d, 0x01, 0x02, 0x04, 0x08, 0x10, 0x20,
    0x40, 0x80, 0x1b, 0x36, 0x6c, 0xd8, 0xab, 0x4d, 0x9a, 0x2f, 0x5e, 0xbc, 0x63, 0xc6, 0x97, 0x35,
    0x6a, 0xd4, 0xb3, 0x7d, 0xfa, 0xef, 0xc5, 0x91, 0x39, 0x72, 0xe4, 0xd3, 0xbd, 0x61, 0xc2, 0x9f,
    0x25, 0x4a, 0x94, 0x33, 0x66, 0xcc, 0x83, 0x1d, 0x3a, 0x74, 0xe8, 0xcb, 0x8d, 0x01, 0x02, 0x04,
    0x08, 0x10, 0x20, 0x40, 0x80, 0x1b, 0x36, 0x6c, 0xd8, 0xab, 0x4d, 0x9a, 0x2f, 0x5e, 0xbc, 0x63,
    0xc6, 0x97, 0x35, 0x6a, 0xd4, 0xb3, 0x7d, 0xfa, 0xef, 0xc5, 0x91, 0x39, 0x72, 0xe4, 0xd3, 0xbd,
    0x61, 0xc2, 0x9f, 0x25, 0x4a, 0x94, 0x33, 0x66, 0xcc, 0x83, 0x1d, 0x3a, 0x74, 0xe8, 0xcb]

def getSBoxValue (num : Byte) : Byte := scSbox.getD num.toNat 0

def getSBoxInvert (num : Byte) : Byte := scRsbox.getD num.toNat 0

def xtime (x : Byte) : Byte := (x <<< 1) ^^^ (((x >>> 7) &&& 1#8) * 0x1b#8)

def multiply (x y : Byte) : Byte :=
  ((y &&& 1#8) * x) ^^^ (((y >>> 1) &&& 1#8) * xtime x) ^^^ (((y >>> 2) &&& 1#8) * xtime (xtime x))
    ^^^ (((y >>> 3) &&& 1#8) * xtime (xtime (xtime x))) ^^^ (((y >>> 4) &&& 1#8) * xtime (xtime (xtime (xtime x))))

/-! ## The state -/

/-- `state_t`, with `sij` for `[i][j]`. -/
@[ext] structure State where
  (s00 s01 s02 s03 : Byte)
  (s10 s11 s12 s13 : Byte)
  (s20 s21 s22 s23 : Byte)
  (s30 s31 s32 s33 : Byte)
  deriving DecidableEq

namespace State

/-- Rows and columns exchanged. -/
def transpose (s : State) : State :=
  ⟨s.s00, s.s10, s.s20, s.s30,
    s.s01, s.s11, s.s21, s.s31,
    s.s02, s.s12, s.s22, s.s32,
    s.s03, s.s13, s.s23, s.s33⟩

def map (f : Byte → Byte) (s : State) : State :=
  ⟨f s.s00, f s.s01, f s.s02, f s.s03,
    f s.s10, f s.s11, f s.s12, f s.s13,
    f s.s20, f s.s21, f s.s22, f s.s23,
    f s.s30, f s.s31, f s.s32, f s.s33⟩

/-- A round key is added to the state, four bytes to a row. -/
def addRows (s : State) (key : ℕ → Byte) : State :=
  ⟨s.s00 ^^^ key 0, s.s01 ^^^ key 1, s.s02 ^^^ key 2, s.s03 ^^^ key 3,
    s.s10 ^^^ key 4, s.s11 ^^^ key 5, s.s12 ^^^ key 6, s.s13 ^^^ key 7,
    s.s20 ^^^ key 8, s.s21 ^^^ key 9, s.s22 ^^^ key 10, s.s23 ^^^ key 11,
    s.s30 ^^^ key 12, s.s31 ^^^ key 13, s.s32 ^^^ key 14, s.s33 ^^^ key 15⟩

/-- A block, four bytes to a row. -/
def ofBlock (block : List Byte) : State :=
  ⟨block.getD 0 0, block.getD 1 0, block.getD 2 0, block.getD 3 0,
    block.getD 4 0, block.getD 5 0, block.getD 6 0, block.getD 7 0,
    block.getD 8 0, block.getD 9 0, block.getD 10 0, block.getD 11 0,
    block.getD 12 0, block.getD 13 0, block.getD 14 0, block.getD 15 0⟩

def toBlock (s : State) : List Byte :=
  [s.s00, s.s01, s.s02, s.s03,
    s.s10, s.s11, s.s12, s.s13,
    s.s20, s.s21, s.s22, s.s23,
    s.s30, s.s31, s.s32, s.s33]

end State

/-! ## Round keys -/

/-- The word before word `i`, changed at every fourth one. -/
def expandWord (roundKey : List Byte) (i : ℕ) : ℕ → Byte :=
  let temp (j : ℕ) := roundKey.getD ((i - 1) * 4 + j) 0
  if i % 4 = 0 then
    fun j => if j = 0 then getSBoxValue (temp 1) ^^^ scRcon.getD (i / 4) 0 else getSBoxValue (temp ((j + 1) % 4))
  else temp

/-- `KeyExpansion` -/
def keyExpansion (key : List Byte) : List Byte :=
  (List.range' 4 40).foldl (fun roundKey i =>
    roundKey ++ (List.range 4).map fun j => roundKey.getD ((i - 4) * 4 + j) 0 ^^^ expandWord roundKey i j) (key.take 16)

/-- The bytes of one round key. -/
def roundBytes (roundKey : List Byte) (round : ℕ) (i : ℕ) : Byte := roundKey.getD (round * 16 + i) 0

/-! ## The forward direction -/

/-- `AddRoundKey`: the state has rows and columns exchanged. -/
def addRoundKey (roundKey : List Byte) (round : ℕ) (s : State) : State :=
  (s.transpose.addRows (roundBytes roundKey round)).transpose

def subBytes (s : State) : State := s.map getSBoxValue

def shiftRows (s : State) : State :=
  ⟨s.s00, s.s01, s.s02, s.s03,
    s.s11, s.s12, s.s13, s.s10,
    s.s22, s.s23, s.s20, s.s21,
    s.s33, s.s30, s.s31, s.s32⟩

/-- One byte of a mixed column: the column from this byte on, once around. -/
def mixByte (a b c d : Byte) : Byte := a ^^^ (xtime (a ^^^ b) ^^^ (a ^^^ b ^^^ c ^^^ d))

def mixColumns (s : State) : State :=
  ⟨mixByte s.s00 s.s10 s.s20 s.s30, mixByte s.s01 s.s11 s.s21 s.s31, mixByte s.s02 s.s12 s.s22 s.s32,
    mixByte s.s03 s.s13 s.s23 s.s33,
    mixByte s.s10 s.s20 s.s30 s.s00, mixByte s.s11 s.s21 s.s31 s.s01, mixByte s.s12 s.s22 s.s32 s.s02,
    mixByte s.s13 s.s23 s.s33 s.s03,
    mixByte s.s20 s.s30 s.s00 s.s10, mixByte s.s21 s.s31 s.s01 s.s11, mixByte s.s22 s.s32 s.s02 s.s12,
    mixByte s.s23 s.s33 s.s03 s.s13,
    mixByte s.s30 s.s00 s.s10 s.s20, mixByte s.s31 s.s01 s.s11 s.s21, mixByte s.s32 s.s02 s.s12 s.s22,
    mixByte s.s33 s.s03 s.s13 s.s23⟩

/-- One of the first nine rounds. -/
def cipherRound (roundKey : List Byte) (s : State) (round : ℕ) : State :=
  addRoundKey roundKey round (mixColumns (shiftRows (subBytes s)))

/-- `Cipher` -/
def cipher (roundKey : List Byte) (s : State) : State :=
  let s := (List.range' 1 9).foldl (cipherRound roundKey) (addRoundKey roundKey 0 s)
  addRoundKey roundKey 10 (shiftRows (subBytes s))

/-- `AES128_ECB_encrypt` -/
def encryptBlock (key input : List Byte) : List Byte :=
  (cipher (keyExpansion key) (State.ofBlock input).transpose).transpose.toBlock

/-! ## The inverse direction -/

def invAddRoundKey (roundKey : List Byte) (round : ℕ) (s : State) : State := s.addRows (roundBytes roundKey round)

def invSubBytes (s : State) : State := s.map getSBoxInvert

def invShiftRows (s : State) : State :=
  ⟨s.s00, s.s31, s.s22, s.s13,
    s.s10, s.s01, s.s32, s.s23,
    s.s20, s.s11, s.s02, s.s33,
    s.s30, s.s21, s.s12, s.s03⟩

/-- One byte of a row, from this byte on, once around. -/
def invMixByte (a b c d : Byte) : Byte := multiply a 0x0e ^^^ multiply b 0x0b ^^^ multiply c 0x0d ^^^ multiply d 0x09

def invMixColumns (s : State) : State :=
  ⟨invMixByte s.s00 s.s01 s.s02 s.s03, invMixByte s.s01 s.s02 s.s03 s.s00, invMixByte s.s02 s.s03 s.s00 s.s01,
    invMixByte s.s03 s.s00 s.s01 s.s02,
    invMixByte s.s10 s.s11 s.s12 s.s13, invMixByte s.s11 s.s12 s.s13 s.s10, invMixByte s.s12 s.s13 s.s10 s.s11,
    invMixByte s.s13 s.s10 s.s11 s.s12,
    invMixByte s.s20 s.s21 s.s22 s.s23, invMixByte s.s21 s.s22 s.s23 s.s20, invMixByte s.s22 s.s23 s.s20 s.s21,
    invMixByte s.s23 s.s20 s.s21 s.s22,
    invMixByte s.s30 s.s31 s.s32 s.s33, invMixByte s.s31 s.s32 s.s33 s.s30, invMixByte s.s32 s.s33 s.s30 s.s31,
    invMixByte s.s33 s.s30 s.s31 s.s32⟩

/-- One of the nine rounds between. -/
def invCipherRound (roundKey : List Byte) (s : State) (round : ℕ) : State :=
  invMixColumns (invAddRoundKey roundKey round (invSubBytes (invShiftRows s)))

/-- `InvCipher` -/
def invCipher (roundKey : List Byte) (s : State) : State :=
  let s := (List.range' 1 9).reverse.foldl (invCipherRound roundKey) (invAddRoundKey roundKey 10 s)
  invAddRoundKey roundKey 0 (invSubBytes (invShiftRows s))

/-- `AES128_ECB_decrypt` -/
def decryptBlock (key input : List Byte) : List Byte :=
  (invCipher (keyExpansion key) (State.ofBlock input)).toBlock

end H5Server.Codec.AES
