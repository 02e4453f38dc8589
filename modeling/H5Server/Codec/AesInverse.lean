import H5Server.Codec.Aes
import Mathlib.Data.List.GetD
import Mathlib.Tactic.IntervalCases

/-! # The inverse direction undoes the forward direction

Each routine of the inverse direction undoes one of the forward direction on the state with rows and columns
exchanged. Mixing is linear, so it is enough to look at one byte of a column at a time.
-/

namespace H5Server.Codec.AES

/-! ## Bytes -/

theorem getSBoxInvert_getSBoxValue : ∀ num : Byte, getSBoxInvert (getSBoxValue num) = num := by decide +kernel

/-- A bit times a byte. -/
theorem bit_mul_xor {bit : Byte} (small : bit = 0 ∨ bit = 1) (x y : Byte) :
    bit * (x ^^^ y) = (bit * x) ^^^ (bit * y) := by
  rcases small with rfl | rfl
  · simp
  · simp

theorem xor_bit_mul {bit bit' : Byte} (small : bit = 0 ∨ bit = 1) (small' : bit' = 0 ∨ bit' = 1) (x : Byte) :
    (bit ^^^ bit') * x = (bit * x) ^^^ (bit' * x) := by
  rcases small with rfl | rfl
  · simp
  · rcases small' with rfl | rfl
    · simp
    · simp

theorem low_bit : ∀ x : Byte, x &&& 1#8 = 0 ∨ x &&& 1#8 = 1 := by decide +kernel

theorem low_bit_xor (x y : Byte) : (x ^^^ y) &&& 1#8 = (x &&& 1#8) ^^^ (y &&& 1#8) := by
  ext i inside
  simp only [BitVec.getElem_and, BitVec.getElem_xor, Bool.and_xor_distrib_right]

theorem xtime_xor (x y : Byte) : xtime (x ^^^ y) = xtime x ^^^ xtime y := by
  rw [xtime, xtime, xtime, BitVec.shiftLeft_xor_distrib, BitVec.ushiftRight_xor_distrib, low_bit_xor,
    xor_bit_mul (low_bit _) (low_bit _)]
  ac_rfl

theorem multiply_xor (x x' y : Byte) : multiply (x ^^^ x') y = multiply x y ^^^ multiply x' y := by
  simp only [multiply, xtime_xor, bit_mul_xor (low_bit _)]
  ac_rfl

theorem mixByte_xor (a b c d a' b' c' d' : Byte) :
    mixByte (a ^^^ a') (b ^^^ b') (c ^^^ c') (d ^^^ d') = mixByte a b c d ^^^ mixByte a' b' c' d' := by
  simp only [mixByte, xtime_xor]
  ac_rfl

theorem invMixByte_xor (a b c d a' b' c' d' : Byte) :
    invMixByte (a ^^^ a') (b ^^^ b') (c ^^^ c') (d ^^^ d') = invMixByte a b c d ^^^ invMixByte a' b' c' d' := by
  simp only [invMixByte, multiply_xor]
  ac_rfl

/-- The first byte of a column that is mixed and unmixed. -/
private def mixedByte (a b c d : Byte) : Byte :=
  invMixByte (mixByte a b c d) (mixByte b c d a) (mixByte c d a b) (mixByte d a b c)

private theorem mixedByte_xor (a b c d a' b' c' d' : Byte) :
    mixedByte (a ^^^ a') (b ^^^ b') (c ^^^ c') (d ^^^ d') = mixedByte a b c d ^^^ mixedByte a' b' c' d' := by
  simp only [mixedByte, mixByte_xor, invMixByte_xor]

theorem invMixByte_mixByte (a b c d : Byte) :
    invMixByte (mixByte a b c d) (mixByte b c d a) (mixByte c d a b) (mixByte d a b c) = a := by
  have first : ∀ a : Byte, mixedByte a 0 0 0 = a := by decide +kernel
  have second : ∀ b : Byte, mixedByte 0 b 0 0 = 0 := by decide +kernel
  have third : ∀ c : Byte, mixedByte 0 0 c 0 = 0 := by decide +kernel
  have fourth : ∀ d : Byte, mixedByte 0 0 0 d = 0 := by decide +kernel
  have alone : ∀ x : Byte, x ^^^ 0 = x ∧ 0 ^^^ x = x := fun x => ⟨BitVec.xor_zero, BitVec.zero_xor⟩
  calc
    mixedByte a b c d = mixedByte (a ^^^ 0 ^^^ 0) (0 ^^^ b ^^^ 0) (0 ^^^ 0 ^^^ c) (0 ^^^ 0 ^^^ 0) ^^^ mixedByte 0 0 0 d := by
      rw [← mixedByte_xor]
      simp only [alone]
    _ = a := by
      rw [mixedByte_xor, mixedByte_xor, first, second, third, fourth]
      simp only [alone]

/-! ## Routines on the state -/

theorem invSubBytes_subBytes (s : State) : invSubBytes (subBytes s).transpose = s.transpose := by
  simp only [invSubBytes, subBytes, State.map, State.transpose, getSBoxInvert_getSBoxValue]

theorem invShiftRows_shiftRows (s : State) : invShiftRows (shiftRows s).transpose = s.transpose := rfl

theorem invMixColumns_mixColumns (s : State) : invMixColumns (mixColumns s).transpose = s.transpose := by
  simp only [invMixColumns, mixColumns, State.transpose, invMixByte_mixByte]

theorem addRows_addRows (s : State) (key : ℕ → Byte) : (s.addRows key).addRows key = s := by
  have twice : ∀ x y : Byte, x ^^^ y ^^^ y = x := fun x y => by rw [BitVec.xor_assoc, BitVec.xor_self, BitVec.xor_zero]
  simp only [State.addRows, twice]

theorem transpose_transpose (s : State) : s.transpose.transpose = s := rfl

theorem invAddRoundKey_addRoundKey (roundKey : List Byte) (round : ℕ) (s : State) :
    invAddRoundKey roundKey round (addRoundKey roundKey round s).transpose = s.transpose := by
  rw [addRoundKey, transpose_transpose, invAddRoundKey, addRows_addRows]

/-! ## The cipher -/

theorem invCipherRound_cipherRound (roundKey : List Byte) (s : State) (round : ℕ) :
    invCipherRound roundKey (shiftRows (subBytes (cipherRound roundKey s round))).transpose round =
      (shiftRows (subBytes s)).transpose := by
  rw [invCipherRound, invShiftRows_shiftRows, invSubBytes_subBytes, cipherRound, invAddRoundKey_addRoundKey,
    invMixColumns_mixColumns]

/-- The rounds of the inverse direction, from the last one back. -/
theorem foldl_invCipherRound (roundKey : List Byte) (rounds : List ℕ) (s : State) :
    rounds.reverse.foldl (invCipherRound roundKey)
        (shiftRows (subBytes (rounds.foldl (cipherRound roundKey) s))).transpose = (shiftRows (subBytes s)).transpose := by
  induction rounds generalizing s with
  | nil => rfl
  | cons round rounds ih =>
    have first : (round :: rounds).foldl (cipherRound roundKey) s =
      rounds.foldl (cipherRound roundKey) (cipherRound roundKey s round) := rfl
    rw [first, List.reverse_cons, List.foldl_append, ih, List.foldl_cons, List.foldl_nil, invCipherRound_cipherRound]

theorem invCipher_cipher (roundKey : List Byte) (s : State) : invCipher roundKey (cipher roundKey s).transpose = s.transpose := by
  rw [invCipher, cipher, invAddRoundKey_addRoundKey, foldl_invCipherRound, invShiftRows_shiftRows, invSubBytes_subBytes,
    invAddRoundKey_addRoundKey]

theorem toBlock_ofBlock {block : List Byte} (length : block.length = 16) : (State.ofBlock block).toBlock = block := by
  apply List.ext_getElem
  · exact length.symm
  · intro i inside inside'
    rw [length] at inside'
    interval_cases i <;> exact List.getD_eq_getElem block 0 _

theorem ofBlock_toBlock (s : State) : State.ofBlock s.toBlock = s := rfl

theorem toBlock_length (s : State) : s.toBlock.length = 16 := rfl

theorem decryptBlock_encryptBlock (key : List Byte) {block : List Byte} (length : block.length = 16) :
    decryptBlock key (encryptBlock key block) = block := by
  rw [decryptBlock, encryptBlock, ofBlock_toBlock, invCipher_cipher, transpose_transpose, toBlock_ofBlock length]

end H5Server.Codec.AES
