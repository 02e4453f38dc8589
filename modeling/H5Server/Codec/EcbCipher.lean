import H5Server.Codec.AesInverse

/-! # Messages of the block cipher (`AES_ECB_Cipher::encrypt`, `decrypt`)

A message is padded to whole blocks. With `use_cbc` every ciphertext block is changed by a chaining block, which
is the plaintext block before it when encrypting, and the ciphertext block before it when decrypting.
-/

namespace H5Server.Codec.AES

def xorBlock (a b : List Byte) : List Byte := List.zipWith (· ^^^ ·) a b

/-- The blocks of a buffer, `KEYLEN` bytes each. -/
def blocks : ℕ → List Byte → List (List Byte)
  | 0, _ => []
  | round + 1, buf => buf.take 16 :: blocks round (buf.drop 16)

def padingSize (src : List Byte) : ℕ := 16 - src.length % 16

/-- `encode_buf` up to `encode_buf_size` -/
def padded (src : List Byte) : List Byte := src ++ List.replicate (padingSize src) (BitVec.ofNat 8 (padingSize src))

/-- The blocks of a message. -/
def messageBlocks (src : List Byte) : List (List Byte) := blocks ((padded src).length / 16) (padded src)

/-- The loop of `encrypt`, with the chaining block. -/
def encryptBlocks (key : List Byte) (useCbc : Bool) : List Byte → List (List Byte) → List (List Byte)
  | _, [] => []
  | iv, block :: rest =>
    (if useCbc then xorBlock (encryptBlock key block) iv else encryptBlock key block) :: encryptBlocks key useCbc block rest

/-- What does not fit into `encode_buf` has no result, as what is refused. -/
def encrypt (key : List Byte) (useCbc : Bool) (src : List Byte) (len : ℕ) : Option (List Byte) :=
  if len < src.length then none
  else if 1024 < (padded src).length then none
  else if (padded src).length ≤ src.length then none
  else some (encryptBlocks key useCbc key (messageBlocks src)).flatten

/-- The loop of `decrypt`, with the chaining block. -/
def decryptBlocks (key : List Byte) (useCbc : Bool) : List Byte → List (List Byte) → List (List Byte)
  | _, [] => []
  | iv, block :: rest =>
    (if useCbc then xorBlock (decryptBlock key block) iv else decryptBlock key block) :: decryptBlocks key useCbc block rest

/-- The last byte says how many bytes were added; the difference is a `uint32_t`. -/
def unpad (dest : List Byte) : Option (List Byte) :=
  let len := (dest.length + 2 ^ 32 - (dest.getD (dest.length - 1) 0).toNat) % 2 ^ 32
  if dest.length ≤ len then none else some (dest.take len)

def decrypt (key : List Byte) (useCbc : Bool) (src : List Byte) (len : ℕ) : Option (List Byte) :=
  if src.length = 0 then none
  else if len < src.length then none
  else if src.length % 16 ≠ 0 then none
  else unpad (decryptBlocks key useCbc key (blocks (src.length / 16) src)).flatten

/-- A message through both directions. -/
def roundTrip (key : List Byte) (useCbc : Bool) (src : List Byte) (len len' : ℕ) : Option (List Byte) :=
  (encrypt key useCbc src len).bind fun dest => decrypt key useCbc dest len'

/-! ## Blocks -/

theorem padded_length (src : List Byte) : (padded src).length = (src.length / 16 + 1) * 16 := by
  rw [padded, List.length_append, List.length_replicate, padingSize]
  omega

theorem flatten_blocks {round : ℕ} {buf : List Byte} (length : buf.length = round * 16) : (blocks round buf).flatten = buf := by
  induction round generalizing buf with
  | zero => exact (List.eq_nil_of_length_eq_zero (by omega)).symm
  | succ round ih => rw [blocks, List.flatten_cons, ih (by rw [List.length_drop]; omega), List.take_append_drop]

theorem length_of_mem_blocks {round : ℕ} {buf block : List Byte} (length : buf.length = round * 16)
    (present : block ∈ blocks round buf) : block.length = 16 := by
  induction round generalizing buf with
  | zero => contradiction
  | succ round ih =>
    rcases List.mem_cons.mp present with rfl | later
    · rw [List.length_take]
      omega
    · exact ih (by rw [List.length_drop]; omega) later

theorem length_blocks (round : ℕ) (buf : List Byte) : (blocks round buf).length = round := by
  induction round generalizing buf with
  | zero => rfl
  | succ round ih => exact congrArg Nat.succ (ih _)

/-- Whole blocks put together are cut at the same places. -/
theorem blocks_flatten {parts : List (List Byte)} (whole : ∀ block ∈ parts, block.length = 16) :
    blocks parts.length parts.flatten = parts := by
  induction parts with
  | nil => rfl
  | cons block parts ih =>
    have length := whole block List.mem_cons_self
    have rest := ih fun other present => whole other (List.mem_cons_of_mem block present)
    rw [List.length_cons, blocks, List.flatten_cons, ← length, List.take_left, List.drop_left, rest]

theorem length_flatten {parts : List (List Byte)} (whole : ∀ block ∈ parts, block.length = 16) :
    parts.flatten.length = parts.length * 16 := by
  induction parts with
  | nil => rfl
  | cons block parts ih =>
    have length := whole block List.mem_cons_self
    have rest := ih fun other present => whole other (List.mem_cons_of_mem block present)
    rw [List.flatten_cons, List.length_append, length, rest, List.length_cons]
    omega

theorem padded_length_div (src : List Byte) : (padded src).length = (padded src).length / 16 * 16 := by
  have length := padded_length src
  omega

theorem length_of_mem_messageBlocks {src : List Byte} : ∀ block ∈ messageBlocks src, block.length = 16 := fun _ =>
  length_of_mem_blocks (padded_length_div src)

theorem encryptBlock_length (key block : List Byte) : (encryptBlock key block).length = 16 := rfl

theorem decryptBlock_length (key block : List Byte) : (decryptBlock key block).length = 16 := rfl

section Loops

variable (key : List Byte) (useCbc : Bool) {iv : List Byte} {parts : List (List Byte)}

theorem length_encryptBlocks : (encryptBlocks key useCbc iv parts).length = parts.length := by
  induction parts generalizing iv with
  | nil => rfl
  | cons block parts ih => exact congrArg Nat.succ ih

theorem length_of_mem_encryptBlocks (start : iv.length = 16) (whole : ∀ block ∈ parts, block.length = 16) :
    ∀ block ∈ encryptBlocks key useCbc iv parts, block.length = 16 := by
  induction parts generalizing iv with
  | nil => exact fun _ impossible => absurd impossible List.not_mem_nil
  | cons block parts ih =>
    rw [List.forall_mem_cons] at whole
    rw [encryptBlocks, List.forall_mem_cons]
    refine ⟨?_, ih whole.1 whole.2⟩
    split
    · rw [xorBlock, List.length_zipWith, encryptBlock_length, start]
      rfl
    · exact encryptBlock_length key block

theorem length_decryptBlocks : (decryptBlocks key useCbc iv parts).length = parts.length := by
  induction parts generalizing iv with
  | nil => rfl
  | cons block parts ih => exact congrArg Nat.succ ih

theorem length_of_mem_decryptBlocks (start : iv.length = 16) (whole : ∀ block ∈ parts, block.length = 16) :
    ∀ block ∈ decryptBlocks key useCbc iv parts, block.length = 16 := by
  induction parts generalizing iv with
  | nil => exact fun _ impossible => absurd impossible List.not_mem_nil
  | cons block parts ih =>
    rw [List.forall_mem_cons] at whole
    rw [decryptBlocks, List.forall_mem_cons]
    refine ⟨?_, ih whole.1 whole.2⟩
    split
    · rw [xorBlock, List.length_zipWith, decryptBlock_length, start]
      rfl
    · exact decryptBlock_length key block

/-- Without chaining, every block is undone by itself. -/
theorem decryptBlocks_encryptBlocks (whole : ∀ block ∈ parts, block.length = 16) (iv' : List Byte) :
    decryptBlocks key false iv' (encryptBlocks key false iv parts) = parts := by
  induction parts generalizing iv iv' with
  | nil => rfl
  | cons block parts ih =>
    rw [List.forall_mem_cons] at whole
    rw [encryptBlocks, if_neg Bool.false_ne_true, decryptBlocks, if_neg Bool.false_ne_true,
      decryptBlock_encryptBlock key whole.1, ih whole.2]

end Loops

/-! ## Chaining -/

/-- What each block becomes: `x` is the plaintext block before it, and `y` the ciphertext block before it. -/
def chained (key : List Byte) : List Byte → List Byte → List (List Byte) → List (List Byte)
  | _, _, [] => []
  | x, y, block :: rest =>
    xorBlock (decryptBlock key (xorBlock (encryptBlock key block) x)) y
      :: chained key block (xorBlock (encryptBlock key block) x) rest

theorem decryptBlocks_chained (key x y : List Byte) (parts : List (List Byte)) :
    decryptBlocks key true y (encryptBlocks key true x parts) = chained key x y parts := by
  induction parts generalizing x y with
  | nil => rfl
  | cons block parts ih =>
    rw [encryptBlocks, if_pos rfl, decryptBlocks, if_pos rfl, chained, ih]

/-- The bytes of the message, and the one that says how many were added. -/
def Agrees (src dest : List Byte) : Prop :=
  ∀ j, j < src.length ∨ j + 1 = (padded src).length → dest.getD j 0 = (padded src).getD j 0

/-- The chaining of the two directions comes to the same. -/
def ChainsMeet (key src : List Byte) : Prop :=
  Agrees src (chained key key key (messageBlocks src)).flatten

theorem agrees_padded (src : List Byte) : Agrees src (padded src) := fun _ _ => rfl

/-! ## Padding -/

theorem padded_last (src : List Byte) :
    (padded src).getD ((padded src).length - 1) 0 = BitVec.ofNat 8 (padingSize src) := by
  have some_ : 0 < padingSize src := Nat.sub_pos_of_lt (Nat.mod_lt _ (by decide))
  have length : (padded src).length = src.length + padingSize src := by
    rw [padded, List.length_append, List.length_replicate]
  rw [length, padded, List.getD_append_right _ _ _ _ (by omega), List.getD_eq_getElem?_getD,
    List.getElem?_replicate_of_lt (by omega), Option.getD_some]

/-- What is unpadded is the message exactly if the bytes agree that count. -/
theorem unpad_eq_some_iff {src dest : List Byte} (short : src.length ≤ 1008) (same : dest.length = (padded src).length) :
    unpad dest = some src ↔ Agrees src dest := by
  have small : padingSize src < 256 := by rw [padingSize]; omega
  have some_ : 0 < padingSize src := Nat.sub_pos_of_lt (Nat.mod_lt _ (by decide))
  have length : (padded src).length = src.length + padingSize src := by
    rw [padded, List.length_append, List.length_replicate]
  have last := padded_last src
  have pad : (BitVec.ofNat 8 (padingSize src)).toNat = padingSize src := by
    rw [BitVec.toNat_ofNat, Nat.mod_eq_of_lt small]
  have byte := (dest.getD (dest.length - 1) 0).isLt
  have message : ∀ j, j < src.length → (padded src).getD j 0 = src.getD j 0 := fun j inside => by
    rw [padded, List.getD_append _ _ _ _ inside]
  constructor
  · intro done j counts
    rw [unpad] at done
    obtain ⟨less, taken⟩ := Option.ite_none_left_eq_some.mp done
    have taken := Option.some.inj taken
    have short_ := congrArg List.length taken
    rw [List.length_take] at short_
    rcases counts with inside | last_
    · rw [message j inside, ← taken, List.getD_eq_getElem?_getD, List.getD_eq_getElem?_getD, List.getElem?_take]
      rw [if_pos (by omega)]
    · obtain rfl : j = (padded src).length - 1 := by omega
      rw [last, ← same]
      apply BitVec.eq_of_toNat_eq
      rw [pad]
      omega
  · intro agrees
    have ends := agrees ((padded src).length - 1) (.inr (by omega))
    rw [last] at ends
    have cut : (dest.length + 2 ^ 32 - (dest.getD (dest.length - 1) 0).toNat) % 2 ^ 32 = src.length := by
      rw [same, ends, pad]
      omega
    rw [unpad, cut, if_neg (by omega), Option.some_inj]
    apply List.ext_getElem
    · rw [List.length_take]
      omega
    · intro j inside inside'
      have eq := agrees j (.inl inside')
      rw [message j inside', List.getD_eq_getElem _ _ (by omega), List.getD_eq_getElem _ _ inside'] at eq
      rwa [List.getElem_take]

/-! ## Round trips -/

section RoundTrip

variable {key src : List Byte} {useCbc : Bool} {len len' : ℕ}

/-- A message that fits is encrypted and decrypted to the bytes that the loops give. -/
theorem roundTrip_eq (keyLength : key.length = 16) (short : src.length ≤ 1008) (room : src.length ≤ len)
    (room' : (padded src).length ≤ len') :
    roundTrip key useCbc src len len' =
      unpad (decryptBlocks key useCbc key (encryptBlocks key useCbc key (messageBlocks src))).flatten := by
  have length := padded_length src
  have whole := length_of_mem_encryptBlocks key useCbc keyLength (@length_of_mem_messageBlocks src)
  have count : (encryptBlocks key useCbc key (messageBlocks src)).length = (padded src).length / 16 :=
    (length_encryptBlocks key useCbc).trans (length_blocks _ _)
  have size := length_flatten whole
  have cut := blocks_flatten whole
  rw [count, ← padded_length_div] at size
  rw [count] at cut
  rw [roundTrip, encrypt, if_neg (by omega), if_neg (by omega), if_neg (by omega), Option.bind_some, decrypt, size,
    if_neg (by omega), if_neg (by omega), if_neg (by omega), cut]

theorem length_decrypted (keyLength : key.length = 16) :
    (decryptBlocks key useCbc key (encryptBlocks key useCbc key (messageBlocks src))).flatten.length
      = (padded src).length := by
  have whole := length_of_mem_encryptBlocks key useCbc keyLength (@length_of_mem_messageBlocks src)
  rw [length_flatten (length_of_mem_decryptBlocks key useCbc keyLength whole), length_decryptBlocks, length_encryptBlocks,
    messageBlocks, length_blocks, ← padded_length_div]

end RoundTrip

end H5Server.Codec.AES
