import Mathlib.Data.List.Basic
import Mathlib.Data.BitVec

/-! # Base64 (`base64_encode`, `base64_decode`)

Both functions work through groups of four characters for three bytes. Lengths are machine integers: the
encoder counts down an `unsigned int`, the decoder an `int`.
-/

namespace H5Server.Codec

abbrev Byte := BitVec 8

-- Named, so that the tests of membership in all modules use the same proof.
instance lawfulBEq_byte : LawfulBEq Byte := inferInstance

/-- `base64_chars`: the capital letters, the small letters, the digits, `+` and `/`. -/
def base64Chars : List Byte :=
  (List.range' 65 26 ++ List.range' 97 26 ++ List.range' 48 10 ++ [43, 47]).map (BitVec.ofNat 8)

/-- `is_base64`, which `=` is not. -/
def isBase64 (c : Byte) : Bool := c ∈ base64Chars

/-- `base64_chars[i]` -/
def base64Char (i : Byte) : Byte := base64Chars.getD i.toNat 0

/-- `base64_chars.find`, as a byte: what is not there is at place `npos`. -/
def base64Find (c : Byte) : Byte := (base64Chars.idxOf? c).elim 0xFF (BitVec.ofNat 8)

/-- `char_array_4` from `char_array_3` -/
def charArray4 (a b c : Byte) : List Byte :=
  [(a &&& 0xFC#8) >>> 2, ((a &&& 0x03#8) <<< 4) + ((b &&& 0xF0#8) >>> 4), ((b &&& 0x0F#8) <<< 2) + ((c &&& 0xC0#8) >>> 6),
    c &&& 0x3F#8]

/-- `char_array_3` from `char_array_4` -/
def charArray3 (w x y z : Byte) : List Byte :=
  [(w <<< 2) + ((x &&& 0x30#8) >>> 4), ((x &&& 0x0F#8) <<< 4) + ((y &&& 0x3C#8) >>> 2), ((y &&& 0x03#8) <<< 6) + z]

/-- Bytes in groups of three, and what is left over filled up with zeros. -/
def encodeGroups : List Byte → List Byte
  | a :: b :: c :: rest => (charArray4 a b c).map base64Char ++ encodeGroups rest
  | [a, b] => ((charArray4 a b 0).take 3).map base64Char ++ [61]
  | [a] => ((charArray4 a 0 0).take 2).map base64Char ++ [61, 61]
  | [] => []

/-- The length is passed as an `unsigned int`. -/
def base64Encode (bytes : List Byte) : List Byte := encodeGroups (bytes.take (bytes.length % 2 ^ 32))

/-- The places of four characters in the alphabet, put together. -/
def decodeGroup (chars : List Byte) : List Byte :=
  charArray3 (base64Find (chars.getD 0 0)) (base64Find (chars.getD 1 0)) (base64Find (chars.getD 2 0))
    (base64Find (chars.getD 3 0))

/-- What is left over gives one byte less than it has characters. -/
def decodeTail (pending : List Byte) : List Byte :=
  if pending = [] then [] else (decodeGroup pending).take (pending.length - 1)

/-- The loop over the characters, with those of a group that is not full yet. The count goes down until it
is zero, and there is nothing below the least `int`. At its end the string has a zero byte. -/
def decodeLoop (inLen : ℤ) (chars pending : List Byte) : Option (List Byte) :=
  if inLen = -2 ^ 31 then none
  else if inLen = 0 then some (decodeTail pending)
  else
    match chars with
    | [] => some (decodeTail pending)
    | c :: rest =>
      if isBase64 c then
        if pending.length = 3 then (decodeLoop (inLen - 1) rest []).map (decodeGroup (pending ++ [c]) ++ ·)
        else decodeLoop (inLen - 1) rest (pending ++ [c])
      else some (decodeTail pending)

/-- The length is kept as an `int`. -/
def base64Decode (encodedString : List Byte) : Option (List Byte) :=
  decodeLoop (Int.bmod encodedString.length (2 ^ 32)) encodedString []

/-! ## Groups -/

theorem base64Find_base64Char : ∀ i : Byte, i.toNat < 64 → base64Find (base64Char i) = i := by decide +kernel

theorem isBase64_base64Char : ∀ i : Byte, i.toNat < 64 → isBase64 (base64Char i) := by decide +kernel

/-- The shifts of the encoder. -/
private theorem encoder_shifts : ∀ a : Byte,
    ((a &&& 0xFC#8) >>> 2).toNat = a.toNat / 4 ∧ ((a &&& 0x03#8) <<< 4).toNat = a.toNat % 4 * 16
      ∧ ((a &&& 0xF0#8) >>> 4).toNat = a.toNat / 16 ∧ ((a &&& 0x0F#8) <<< 2).toNat = a.toNat % 16 * 4
      ∧ ((a &&& 0xC0#8) >>> 6).toNat = a.toNat / 64 ∧ (a &&& 0x3F#8).toNat = a.toNat % 64 := by
  decide +kernel

/-- The shifts of the decoder. -/
private theorem decoder_shifts : ∀ a : Byte,
    (a <<< 2).toNat = a.toNat % 64 * 4 ∧ ((a &&& 0x30#8) >>> 4).toNat = a.toNat / 16 % 4
      ∧ ((a &&& 0x0F#8) <<< 4).toNat = a.toNat % 16 * 16 ∧ ((a &&& 0x3C#8) >>> 2).toNat = a.toNat / 4 % 16
      ∧ ((a &&& 0x03#8) <<< 6).toNat = a.toNat % 4 * 64 := by
  decide +kernel

/-- The four characters as numbers. -/
theorem charArray4_toNat (a b c : Byte) :
    (charArray4 a b c).map BitVec.toNat =
      [a.toNat / 4, a.toNat % 4 * 16 + b.toNat / 16, b.toNat % 16 * 4 + c.toNat / 64, c.toNat % 64] := by
  obtain ⟨first, high, _, _, _, _⟩ := encoder_shifts a
  obtain ⟨_, _, high', low, _, _⟩ := encoder_shifts b
  obtain ⟨_, _, _, _, low', last⟩ := encoder_shifts c
  have ha := a.isLt
  have hb := b.isLt
  have hc := c.isLt
  have second : (a.toNat % 4 * 16 + b.toNat / 16) % 2 ^ 8 = a.toNat % 4 * 16 + b.toNat / 16 := Nat.mod_eq_of_lt (by omega)
  have third : (b.toNat % 16 * 4 + c.toNat / 64) % 2 ^ 8 = b.toNat % 16 * 4 + c.toNat / 64 := Nat.mod_eq_of_lt (by omega)
  simp only [charArray4, List.map_cons, List.map_nil, BitVec.toNat_add, first, high, high', low, low', last, second, third]

/-- The three bytes as numbers. -/
theorem charArray3_toNat (w x y z : Byte) :
    (charArray3 w x y z).map BitVec.toNat =
      [(w.toNat % 64 * 4 + x.toNat / 16 % 4) % 2 ^ 8, (x.toNat % 16 * 16 + y.toNat / 4 % 16) % 2 ^ 8,
        (y.toNat % 4 * 64 + z.toNat) % 2 ^ 8] := by
  obtain ⟨first, _, _, _, _⟩ := decoder_shifts w
  obtain ⟨_, high, low, _, _⟩ := decoder_shifts x
  obtain ⟨_, _, _, middle, last⟩ := decoder_shifts y
  simp only [charArray3, List.map_cons, List.map_nil, BitVec.toNat_add, first, high, low, middle, last]

theorem charArray4_lt (a b c : Byte) : ∀ i ∈ charArray4 a b c, i.toNat < 64 := by
  intro i present
  have inside : i.toNat ∈ (charArray4 a b c).map BitVec.toNat := List.mem_map_of_mem present
  have ha := a.isLt
  have hb := b.isLt
  have hc := c.isLt
  rw [charArray4_toNat] at inside
  simp only [List.mem_cons, List.not_mem_nil, or_false] at inside
  omega

/-- Characters of the alphabet are found where they were looked up. -/
theorem map_base64Find {places : List Byte} (inside : ∀ i ∈ places, i.toNat < 64) :
    (places.map base64Char).map base64Find = places := by
  rw [List.map_map]
  exact (List.map_congr_left fun i present => base64Find_base64Char i (inside i present)).trans (List.map_id places)

/-- A group of four characters, whatever the last ones are, gives back the bytes that the others hold. -/
theorem charArray3_of_charArray4 {a b c w x y z : Byte} {count : ℕ}
    (same : [w, x, y, z].take (count + 1) = (charArray4 a b c).take (count + 1)) (some_ : count ≤ 3) :
    (charArray3 w x y z).take count = [a, b, c].take count := by
  have numbers := congrArg (List.map BitVec.toNat) same
  rw [List.map_take, List.map_take, charArray4_toNat] at numbers
  have injective : Function.Injective (List.map (BitVec.toNat (w := 8))) :=
    List.map_injective_iff.mpr fun _ _ eq => BitVec.eq_of_toNat_eq eq
  apply injective
  rw [List.map_take, List.map_take, charArray3_toNat]
  have ha := a.isLt
  have hb := b.isLt
  have hc := c.isLt
  match count, some_ with
  | 0, _ => rfl
  | 1, _ =>
    simp only [List.map_cons, List.map_nil, List.take, List.cons.injEq, and_true] at numbers ⊢
    omega
  | 2, _ =>
    simp only [List.map_cons, List.map_nil, List.take, List.cons.injEq, and_true] at numbers ⊢
    omega
  | 3, _ =>
    simp only [List.map_cons, List.map_nil, List.take, List.cons.injEq, and_true] at numbers ⊢
    omega

end H5Server.Codec
