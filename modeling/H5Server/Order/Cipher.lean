import H5Server.Codec.Base64RoundTrip
import H5Server.Codec.EcbCipher

/-! # Order parameters (`Crypto::AES_ECBEncrypt`, `Crypto::AES_ECBDecrypt`)

Parameters are padded block by block, encrypted and written as Base64. The decrypting side finds the padding by
the bytes that are equal at the end, and takes what is in front of it as a C string. Lengths are `int`s: what
overflows, reads outside an array or cannot be allocated has no result.
-/

namespace H5Server.Order

open Codec

/-- `AES_encrypt` and `AES_decrypt` with the keys expanded: inverse permutations of the blocks. -/
structure BlockCipher where
  encrypt : List Byte → List Byte → List Byte
  decrypt : List Byte → List Byte → List Byte
  encrypt_length : ∀ {key block : List Byte}, key.length = 16 → block.length = 16 →
    (encrypt key block).length = 16
  decrypt_length : ∀ {key block : List Byte}, key.length = 16 → block.length = 16 →
    (decrypt key block).length = 16
  decrypt_encrypt : ∀ {key block : List Byte}, key.length = 16 → block.length = 16 →
    decrypt key (encrypt key block) = block

/-- What a C string shows of an array. -/
def cString (bytes : List Byte) : List Byte := bytes.takeWhile (· ≠ 0)

/-- `StringToHex` with `Padding`: sixteen bytes of a C string, filled up with their number. -/
def stringToHex (src : List Byte) : List Byte :=
  let copied := (cString src).take 16
  copied ++ List.replicate (16 - copied.length) (BitVec.ofNat 8 (16 - copied.length))

/-- The blocks that `AES_ECBEncrypt` encrypts. -/
def plainBlocks (data : List Byte) (srcLen destLen : ℤ) : List (List Byte) :=
  let rounds := (srcLen + 15).toNat / 16
  let parts := (List.range rounds).map fun i => stringToHex (data.drop (i * 16))
  if (rounds * 16 : ℤ) < destLen then parts ++ [stringToHex []] else parts

def ecbEncrypt (aes : BlockCipher) (data key : List Byte) : Option (List Byte) :=
  let srcLen := Int.bmod data.length (2 ^ 32)
  let destLen := srcLen.tdiv 16 * 16 + 16
  if destLen < 0 ∨ 2 ^ 31 ≤ destLen then none
  else some (base64Encode ((plainBlocks data srcLen destLen).map (aes.encrypt (stringToHex key))).flatten)

/-- The search of `ClearPadding` for the last byte that is different. -/
def clearFrom (src : List Byte) : ℕ → ℕ → Option (List Byte)
  | 0, _ => some src
  | fuel + 1, i =>
    if src.length ≤ i then none
    else if src.getD (src.length - 1) 0 ≠ src.getD (src.length - 1 - i) 0 then some (src.set (src.length - i) 0)
    else clearFrom src fuel (i + 1)

def clearPadding (src : List Byte) : Option (List Byte) :=
  let last := src.getD (src.length - 1) 0
  if last ≠ src.getD (src.length - 2) 0 then
    if last.toNat < 16 then some (src.set (src.length - 1) 0) else some src
  else clearFrom src 15 2

/-- `regexMatch` is the test for printable text, `^[ -~\u4e00-\u9fa5]+$`. -/
def ecbDecrypt (aes : BlockCipher) (regexMatch : List Byte → Bool) (data key : List Byte) : Option (List Byte) := do
  let srcHex ← base64Decode data
  if srcHex = [] then some []
  else if key.length ≠ 16 ∧ key.length ≠ 24 ∧ key.length ≠ 32 then some []
  else if srcHex.length % 16 ≠ 0 then none
  else
    let dst ← clearPadding ((AES.blocks (srcHex.length / 16) srcHex).map (aes.decrypt key)).flatten
    some (if regexMatch (cString dst) then cString dst else [])

/-- Parameters through both directions. -/
def ecbRoundTrip (aes : BlockCipher) (regexMatch : List Byte → Bool) (data key : List Byte) : Option (List Byte) :=
  (ecbEncrypt aes data key).bind fun text => ecbDecrypt aes regexMatch text key

/-! ## C strings -/

section Padding

variable {data src key : List Byte}

theorem cString_eq (text : ∀ c ∈ src, c ≠ 0) : cString src = src := by
  rw [cString, ← List.append_nil src, List.takeWhile_append_of_pos fun c present => decide_eq_true (text c present)]
  rfl

/-- The C string ends at the first byte that is zero. -/
theorem cString_set (text : ∀ c ∈ data, c ≠ 0) {pad : List Byte} (some_ : pad ≠ []) :
    cString ((data ++ pad).set data.length 0) = data := by
  obtain ⟨c, rest, rfl⟩ := List.exists_cons_of_ne_nil some_
  have first : ((data ++ c :: rest).set data.length 0) = data ++ 0 :: rest := by
    rw [List.set_append_right _ _ le_rfl, Nat.sub_self]
    rfl
  rw [first, cString, List.takeWhile_append_of_pos fun c present => decide_eq_true (text c present),
    List.takeWhile_cons_of_neg (by simp), List.append_nil]

theorem cString_length_le (src : List Byte) : (cString src).length ≤ src.length :=
  (List.takeWhile_sublist _).length_le

theorem stringToHex_length (src : List Byte) : (stringToHex src).length = 16 := by
  have few := List.length_take_le 16 (cString src)
  rw [stringToHex, List.length_append, List.length_replicate]
  omega

/-- A whole block of text is copied. -/
theorem stringToHex_long (text : ∀ c ∈ src, c ≠ 0) (long : 16 ≤ src.length) : stringToHex src = src.take 16 := by
  rw [stringToHex, cString_eq text, List.length_take_of_le long, Nat.sub_self, List.replicate_zero, List.append_nil]

/-- Less than a block is filled up as the padding of the message. -/
theorem stringToHex_short (text : ∀ c ∈ src, c ≠ 0) (short : src.length < 16) : stringToHex src = AES.padded src := by
  rw [stringToHex, cString_eq text, List.take_of_length_le short.le, AES.padded, AES.padingSize,
    Nat.mod_eq_of_lt short]

theorem stringToHex_key (text : ∀ c ∈ key, c ≠ 0) (length : key.length = 16) : stringToHex key = key := by
  rw [stringToHex_long text length.ge, List.take_of_length_le length.le]

/-! ## Blocks of a message -/

theorem padded_drop (long : 16 ≤ src.length) : (AES.padded src).drop 16 = AES.padded (src.drop 16) := by
  have size : AES.padingSize (src.drop 16) = AES.padingSize src := by
    rw [AES.padingSize, AES.padingSize, List.length_drop]
    omega
  rw [AES.padded, List.drop_append_of_le_length long, AES.padded, size]

theorem padded_take (long : 16 ≤ src.length) : (AES.padded src).take 16 = src.take 16 :=
  List.take_append_of_le_length long

/-- The loop over the C string cuts the padded message into its blocks. -/
theorem map_stringToHex (text : ∀ c ∈ data, c ≠ 0) {rounds : ℕ} (count : data.length / 16 = rounds) :
    ((List.range (rounds + 1)).map fun i => stringToHex (data.drop (i * 16)))
      = AES.blocks (rounds + 1) (AES.padded data) := by
  induction rounds generalizing data with
  | zero =>
    have short : data.length < 16 := by omega
    have whole : (AES.padded data).length = 16 := by rw [AES.padded_length]; omega
    change [stringToHex (data.drop (0 * 16))] = [(AES.padded data).take 16]
    rw [Nat.zero_mul, List.drop_zero, stringToHex_short text short, List.take_of_length_le whole.le]
  | succ rounds ih =>
    have long : 16 ≤ data.length := by omega
    have less : (data.drop 16).length / 16 = rounds := by
      rw [List.length_drop]
      omega
    have rest := ih (fun c present => text c (List.mem_of_mem_drop present)) less
    rw [List.range_succ_eq_map, List.map_cons, List.map_map, Nat.zero_mul, List.drop_zero, stringToHex_long text long,
      AES.blocks, padded_take long, padded_drop long, ← rest]
    refine congrArg (data.take 16 :: ·) (List.map_congr_left fun i _ => ?_)
    rw [Function.comp_apply, List.drop_drop, Nat.succ_mul, Nat.add_comm]

/-- Division of the source rounds to zero. -/
private theorem tdiv_sixteen (srcLen : ℤ) :
    0 ≤ srcLen ∧ srcLen.tdiv 16 = srcLen / 16
      ∨ srcLen < 0 ∧ srcLen ≤ srcLen.tdiv 16 * 16 ∧ srcLen.tdiv 16 * 16 < srcLen + 16 := by
  rcases lt_or_ge srcLen 0 with below | count
  · have size : srcLen.tdiv 16 = -(-srcLen / 16) := by
      rw [← Int.tdiv_eq_ediv_of_nonneg (by omega), Int.neg_tdiv, neg_neg]
    omega
  · exact .inl ⟨count, Int.tdiv_eq_ediv_of_nonneg count⟩

theorem plainBlocks_eq (text : ∀ c ∈ data, c ≠ 0) :
    plainBlocks data data.length ((data.length : ℤ).tdiv 16 * 16 + 16)
      = AES.blocks (data.length / 16 + 1) (AES.padded data) := by
  have count : ((data.length : ℤ) + 15).toNat / 16 = (data.length + 15) / 16 := rfl
  have size : (data.length : ℤ).tdiv 16 = data.length / 16 := Int.tdiv_eq_ediv_of_nonneg (Int.natCast_nonneg _)
  rw [plainBlocks, count, size, ← map_stringToHex text rfl]
  rcases eq_or_ne (data.length % 16) 0 with whole | part
  · have rounds : (data.length + 15) / 16 = data.length / 16 := by omega
    have beyond : data.drop (data.length / 16 * 16) = [] := List.drop_of_length_le (by omega)
    rw [rounds, if_pos (by omega), List.range_succ, List.map_append, List.map_singleton, beyond]
  · have rounds : (data.length + 15) / 16 = data.length / 16 + 1 := by omega
    rw [rounds, if_neg (by omega)]

theorem length_of_mem_plainBlocks {srcLen destLen : ℤ} :
    ∀ block ∈ plainBlocks data srcLen destLen, block.length = 16 := by
  intro block present
  have each : ∀ block ∈ (List.range ((srcLen + 15).toNat / 16)).map fun i => stringToHex (data.drop (i * 16)),
      block.length = 16 := by
    intro block present
    obtain ⟨i, -, rfl⟩ := List.mem_map.mp present
    exact stringToHex_length _
  rw [plainBlocks] at present
  split at present
  · rcases List.mem_append.mp present with first | last
    · exact each block first
    · rw [List.mem_singleton.mp last]
      exact stringToHex_length []
  · exact each block present

/-- As many bytes as were allocated, where that is not negative. -/
theorem length_plainBlocks {srcLen : ℤ} (room : 0 ≤ srcLen.tdiv 16 * 16 + 16) :
    ((plainBlocks data srcLen (srcLen.tdiv 16 * 16 + 16)).length : ℤ) * 16 = srcLen.tdiv 16 * 16 + 16 := by
  have parts := tdiv_sixteen srcLen
  rw [plainBlocks]
  split
  · rw [List.length_append, List.length_map, List.length_range, List.length_singleton]
    omega
  · rw [List.length_map, List.length_range]
    omega

/-! ## Search for the padding -/

/-- Printable ASCII. -/
def Printable (c : Byte) : Prop := 32 ≤ c.toNat ∧ c.toNat ≤ 126

instance : DecidablePred Printable := fun _ => inferInstanceAs (Decidable (_ ∧ _))

theorem Printable.ne_zero {c : Byte} (printable : Printable c) : c ≠ 0 := by
  rintro rfl
  exact absurd printable.1 (by decide)

theorem clearFrom_length {fuel i : ℕ} {dst : List Byte} (done : clearFrom src fuel i = some dst) :
    dst.length = src.length := by
  induction fuel generalizing i with
  | zero => rw [← Option.some.inj done]
  | succ fuel ih =>
    rw [clearFrom] at done
    split at done
    · exact absurd done nofun
    · split at done
      · rw [← Option.some.inj done, List.length_set]
      · exact ih done

theorem clearPadding_length {dst : List Byte} (done : clearPadding src = some dst) : dst.length = src.length := by
  rw [clearPadding] at done
  split at done
  · split at done
    all_goals rw [← Option.some.inj done]
    exact List.length_set
  · exact clearFrom_length done

theorem padingSize_pos (data : List Byte) : 0 < AES.padingSize data := Nat.sub_pos_of_lt (Nat.mod_lt _ (by decide))

theorem padingSize_le (data : List Byte) : AES.padingSize data ≤ 16 := Nat.sub_le _ _

theorem length_padded (data : List Byte) : (AES.padded data).length = data.length + AES.padingSize data := by
  rw [AES.padded, List.length_append, List.length_replicate]

theorem padded_getD {j : ℕ} (after : data.length ≤ j) (before : j < data.length + AES.padingSize data) :
    (AES.padded data).getD j 0 = BitVec.ofNat 8 (AES.padingSize data) := by
  rw [AES.padded, List.getD_append_right _ _ _ _ after, List.getD_eq_getElem?_getD,
    List.getElem?_replicate_of_lt (by omega), Option.getD_some]

/-- The last byte of the message is no padding. -/
theorem padded_getD_ne (some_ : data ≠ []) (printable : ∀ c ∈ data, Printable c) :
    BitVec.ofNat 8 (AES.padingSize data) ≠ (AES.padded data).getD (data.length - 1) 0 := by
  have inside : data.length - 1 < data.length := Nat.sub_one_lt (List.length_pos_of_ne_nil some_).ne'
  have least := (printable _ (List.getElem_mem inside)).1
  have few := padingSize_le data
  rw [AES.padded, List.getD_append _ _ _ _ inside, List.getD_eq_getElem _ _ inside]
  intro same
  rw [← same, BitVec.toNat_ofNat] at least
  omega

/-- The search stops at the message. -/
theorem clearFrom_padded (some_ : data ≠ []) (printable : ∀ c ∈ data, Printable c) {fuel i : ℕ}
    (begun : 1 ≤ i) (inside : i ≤ AES.padingSize data) (lasts : AES.padingSize data < i + fuel) :
    clearFrom (AES.padded data) fuel i = some ((AES.padded data).set data.length 0) := by
  have count : 0 < data.length := List.length_pos_of_ne_nil some_
  induction fuel generalizing i with
  | zero => omega
  | succ fuel ih =>
    rw [clearFrom, length_padded, if_neg (by omega), padded_getD (by omega) (by omega)]
    rcases eq_or_lt_of_le inside with rfl | before
    · have place : data.length + AES.padingSize data - 1 - AES.padingSize data = data.length - 1 := by omega
      rw [place, if_pos (padded_getD_ne some_ printable), Nat.add_sub_cancel]
    · rw [padded_getD (by omega) (by omega), if_neg (not_not.mpr rfl)]
      exact ih (by omega) before (by omega)

/-- The padding of a printable message is found. -/
theorem clearPadding_padded (some_ : data ≠ []) (printable : ∀ c ∈ data, Printable c) :
    clearPadding (AES.padded data) = some ((AES.padded data).set data.length 0) := by
  have count : 0 < data.length := List.length_pos_of_ne_nil some_
  have pads := padingSize_pos data
  have few := padingSize_le data
  -- One byte of padding is told by its value, more by its repetition.
  rcases eq_or_lt_of_le (Nat.succ_le_of_lt pads) with one | more
  · have second : data.length + AES.padingSize data - 2 = data.length - 1 := by omega
    have last : data.length + AES.padingSize data - 1 = data.length := by omega
    have small : (BitVec.ofNat 8 (AES.padingSize data)).toNat < 16 := by rw [← one]; decide
    rw [clearPadding, length_padded, second, last, padded_getD le_rfl (by omega),
      if_pos (padded_getD_ne some_ printable), if_pos small]
  · rw [clearPadding, length_padded, padded_getD (by omega) (by omega), padded_getD (by omega) (by omega),
      if_neg (not_not.mpr rfl)]
    exact clearFrom_padded some_ printable one_le_two more (by omega)

end Padding

/-! ## Round trips -/

section RoundTrip

variable (aes : BlockCipher) {regexMatch : List Byte → Bool} {data key : List Byte}

theorem length_of_mem_map {cipher : List Byte → List Byte}
    (keeps : ∀ block : List Byte, block.length = 16 → (cipher block).length = 16)
    {parts : List (List Byte)} (whole : ∀ block ∈ parts, block.length = 16) :
    ∀ block ∈ parts.map cipher, block.length = 16 := by
  intro block present
  obtain ⟨part, there, rfl⟩ := List.mem_map.mp present
  exact keeps part (whole part there)

theorem ecbEncrypt_eq {srcLen : ℤ} (count : Int.bmod data.length (2 ^ 32) = srcLen) :
    ecbEncrypt aes data key = if srcLen.tdiv 16 * 16 + 16 < 0 ∨ 2 ^ 31 ≤ srcLen.tdiv 16 * 16 + 16 then none
      else some (base64Encode
        ((plainBlocks data srcLen (srcLen.tdiv 16 * 16 + 16)).map (aes.encrypt (stringToHex key))).flatten) := by
  rw [← count]
  rfl

/-- A short message is decrypted to what was encrypted. -/
theorem ecbDecrypt_blocks (keyLength : key.length = 16) {parts : List (List Byte)}
    (whole : ∀ block ∈ parts, block.length = 16) (some_ : parts ≠ []) (short : parts.length * 16 ≤ 1610612733) :
    ecbDecrypt aes regexMatch (base64Encode (parts.map (aes.encrypt key)).flatten) key =
      (clearPadding parts.flatten).bind fun dst => some (if regexMatch (cString dst) then cString dst else []) := by
  have whole_ : ∀ block ∈ parts.map (aes.encrypt key), block.length = 16 :=
    length_of_mem_map (fun _ => aes.encrypt_length keyLength) whole
  have length := AES.length_flatten whole_
  have cut := AES.blocks_flatten whole_
  rw [List.length_map] at length cut
  have count : 0 < parts.length := List.length_pos_of_ne_nil some_
  have undone : (parts.map (aes.encrypt key)).map (aes.decrypt key) = parts := by
    rw [List.map_map]
    refine (List.map_congr_left fun block present => ?_).trans (List.map_id parts)
    exact aes.decrypt_encrypt keyLength (whole block present)
  rw [ecbDecrypt, (base64Decode_base64Encode_iff _).mpr (by omega)]
  change ite _ _ _ = _
  rw [if_neg (List.ne_nil_of_length_pos (by omega)), if_neg (by omega), if_neg (by omega), length,
    Nat.mul_div_cancel _ (by decide), cut, undone]
  rfl

theorem ecbRoundTrip_short (keyLength : key.length = 16) (keyText : ∀ c ∈ key, c ≠ 0) (some_ : data ≠ [])
    (printable : ∀ c ∈ data, Printable c) (matches_ : regexMatch data = true) (short : data.length ≤ 1610612719) :
    ecbRoundTrip aes regexMatch data key = some data := by
  have text : ∀ c ∈ data, c ≠ 0 := fun c present => (printable c present).ne_zero
  have srcLen : Int.bmod data.length (2 ^ 32) = data.length := by
    rw [Int.bmod_eq_iff (by decide)]
    omega
  have size : (data.length : ℤ).tdiv 16 = data.length / 16 := Int.tdiv_eq_ediv_of_nonneg (Int.natCast_nonneg _)
  have length : (AES.padded data).length = (data.length / 16 + 1) * 16 := AES.padded_length data
  rw [ecbRoundTrip, ecbEncrypt_eq aes srcLen, if_neg (by omega), Option.bind_some, plainBlocks_eq text,
    stringToHex_key keyText keyLength,
    ecbDecrypt_blocks aes keyLength (fun _ => AES.length_of_mem_blocks length) ?_ ?_, AES.flatten_blocks length,
    clearPadding_padded some_ printable, Option.bind_some, AES.padded, cString_set text, if_pos matches_]
  · exact List.ne_nil_of_length_pos (by rw [List.length_replicate]; exact padingSize_pos data)
  · exact List.ne_nil_of_length_pos (by rw [AES.length_blocks]; exact Nat.succ_pos _)
  · rw [AES.length_blocks]
    omega

/-- What comes back is no longer than the blocks that were allocated. -/
theorem length_of_ecbDecrypt (keyLength : key.length = 16) {text out : List Byte}
    (done : ecbDecrypt aes regexMatch text key = some out) :
    ∃ srcHex, base64Decode text = some srcHex ∧ out.length ≤ srcHex.length := by
  rw [ecbDecrypt] at done
  obtain ⟨srcHex, decoded, done⟩ := Option.bind_eq_some_iff.mp done
  refine ⟨srcHex, decoded, ?_⟩
  split at done
  · rw [← Option.some.inj done]
    exact Nat.zero_le _
  rw [if_neg (by omega)] at done
  split at done
  · exact absurd done nofun
  obtain ⟨dst, cleared, done⟩ := Option.bind_eq_some_iff.mp done
  have whole : srcHex.length = srcHex.length / 16 * 16 := by omega
  have length := AES.length_flatten <|
    length_of_mem_map (fun _ => aes.decrypt_length keyLength) fun _ => AES.length_of_mem_blocks whole
  rw [List.length_map, AES.length_blocks, ← whole, ← clearPadding_length cleared] at length
  rw [← Option.some.inj done]
  split
  · exact (cString_length_le dst).trans length.le
  · exact Nat.zero_le _

/-- Too little is allocated for a message that does not come back, if its text can be decoded. -/
private theorem allocated_lt {length size : ℕ} {srcLen : ℤ} (long : 1610612720 ≤ length)
    (count : Int.bmod length (2 ^ 32) = srcLen) (blocks : srcLen.tdiv 16 * 16 + 16 = (size : ℤ))
    (short : size ≤ 1610612733) (fewer : length ≤ size) : False := by
  have rest := Int.bmod_add_bdiv length (2 ^ 32)
  have parts := tdiv_sixteen srcLen
  omega

private theorem decoded_lt {size decoded : ℕ} (room : size < 2 ^ 31)
    (less : 4 * decoded + 3 * 2 ^ 32 ≤ 3 * ((size + 2) / 3 * 4)) : False := by
  omega

/-- A long message does not come back. -/
theorem ecbRoundTrip_long (keyLength : key.length = 16) (long : 1610612720 ≤ data.length) :
    ecbRoundTrip aes regexMatch data key ≠ some data := by
  intro same
  obtain ⟨srcLen, count⟩ : ∃ srcLen, Int.bmod data.length (2 ^ 32) = srcLen := ⟨_, rfl⟩
  rw [ecbRoundTrip, ecbEncrypt_eq aes count] at same
  split at same
  · exact absurd same nofun
  obtain ⟨srcHex, decoded, fewer⟩ := length_of_ecbDecrypt aes keyLength same
  have room : 0 ≤ srcLen.tdiv 16 * 16 + 16 ∧ srcLen.tdiv 16 * 16 + 16 < 2 ^ 31 := by omega
  have whole : ∀ block ∈ (plainBlocks data srcLen (srcLen.tdiv 16 * 16 + 16)).map (aes.encrypt (stringToHex key)),
      block.length = 16 :=
    length_of_mem_map (fun _ => aes.encrypt_length (stringToHex_length key)) length_of_mem_plainBlocks
  have size := AES.length_flatten whole
  rw [List.length_map] at size
  have allocated := @length_plainBlocks data _ room.1
  generalize ((plainBlocks data srcLen (srcLen.tdiv 16 * 16 + 16)).map (aes.encrypt (stringToHex key))).flatten = bytes
    at decoded size
  have text := base64Encode_length bytes
  have count_ := Int.bmod_add_bdiv data.length (2 ^ 32)
  have parts := tdiv_sixteen srcLen
  have blocks : srcLen.tdiv 16 * 16 + 16 = (bytes.length : ℤ) := by omega
  rw [blocks] at room
  rcases le_or_gt bytes.length 1610612733 with short | more
  · have same_ := (base64Decode_base64Encode_iff bytes).mpr short
    rw [Option.some.inj (decoded.symm.trans same_)] at fewer
    exact allocated_lt long count blocks short fewer
  · have fits : bytes.length % 2 ^ 32 = bytes.length := Nat.mod_eq_of_lt (by omega)
    rw [fits] at text
    have much : 2 ^ 31 ≤ (base64Encode bytes).length := by omega
    have less := base64Decode_long much decoded
    rw [← base64Encode, text] at less
    exact decoded_lt (by omega) less

end RoundTrip

/-- The cipher of the repository is one. -/
def aes128 : BlockCipher where
  encrypt := AES.encryptBlock
  decrypt := AES.decryptBlock
  encrypt_length _ _ := AES.encryptBlock_length _ _
  decrypt_length _ _ := AES.decryptBlock_length _ _
  decrypt_encrypt {key _} _ length := AES.decryptBlock_encryptBlock key length

/-- `^[ -~]+$` -/
def printableText (text : List Byte) : Bool := decide (text ≠ [] ∧ ∀ c ∈ text, Printable c)

end H5Server.Order
