import H5Server.Codec.Base64
import Mathlib.Tactic.Ring

/-! # Round trips of Base64

Text that is shorter than `2 ^ 31` characters is decoded to what was encoded. The count of longer text is
negative, or what is left of it after whole multiples of `2 ^ 32`: then the decoder leaves the range of its
counter, or stops early.
-/

namespace H5Server.Codec

/-! ## One step of the loop -/

theorem decodeLoop_least (chars pending : List Byte) : decodeLoop (-2 ^ 31) chars pending = none := by
  rw [decodeLoop.eq_def, if_pos rfl]

theorem decodeLoop_zero (chars pending : List Byte) : decodeLoop 0 chars pending = some (decodeTail pending) := by
  rw [decodeLoop.eq_def, if_neg (by decide), if_pos rfl]

variable {inLen : ℤ} {c : Byte} {rest pending : List Byte}

theorem decodeLoop_cons (range : inLen ≠ -2 ^ 31) (more : inLen ≠ 0) (letter : isBase64 c) (short : pending.length ≠ 3) :
    decodeLoop inLen (c :: rest) pending = decodeLoop (inLen - 1) rest (pending ++ [c]) := by
  rw [decodeLoop.eq_def, if_neg range, if_neg more]
  exact (if_pos letter).trans (if_neg short)

theorem decodeLoop_full (range : inLen ≠ -2 ^ 31) (more : inLen ≠ 0) (letter : isBase64 c) (full : pending.length = 3) :
    decodeLoop inLen (c :: rest) pending =
      (decodeLoop (inLen - 1) rest []).map (decodeGroup (pending ++ [c]) ++ ·) := by
  rw [decodeLoop.eq_def, if_neg range, if_neg more]
  exact (if_pos letter).trans (if_pos full)

theorem decodeLoop_stop (range : inLen ≠ -2 ^ 31) (other : ¬isBase64 c) :
    decodeLoop inLen (c :: rest) pending = some (decodeTail pending) := by
  rw [decodeLoop.eq_def, if_neg range]
  split
  · rfl
  · exact if_neg other

/-! ## Text of the encoder -/

/-- The characters of a group are in the alphabet. -/
theorem isBase64_of_mem_map {places : List Byte} (inside : ∀ i ∈ places, i.toNat < 64) :
    ∀ c ∈ places.map base64Char, isBase64 c := by
  intro c present
  obtain ⟨i, there, rfl⟩ := List.mem_map.mp present
  exact isBase64_base64Char i (inside i there)

/-- Characters are put aside until there are three of them. -/
theorem decodeLoop_letters {letters : List Byte} (letter : ∀ c ∈ letters, isBase64 c)
    (some_ : (letters.length : ℤ) ≤ inLen) (short : pending.length + letters.length ≤ 3) :
    decodeLoop inLen (letters ++ rest) pending = decodeLoop (inLen - letters.length) rest (pending ++ letters) := by
  induction letters generalizing inLen pending with
  | nil => simp
  | cons c letters ih =>
    rw [List.length_cons] at some_ short
    push_cast at some_
    have later := fun other present => letter other (List.mem_cons_of_mem c present)
    rw [List.cons_append, decodeLoop_cons (by omega) (by omega) (letter c List.mem_cons_self) (by omega),
      ih later (by omega) (by rw [List.length_append, List.length_singleton]; omega), List.append_assoc,
      List.length_cons]
    push_cast
    rw [show inLen - 1 - (letters.length : ℤ) = inLen - (letters.length + 1) by ring]
    rfl

/-- The first characters of a group give back the bytes that they hold. -/
theorem take_decodeGroup (a b c : Byte) {count : ℕ} (few : count ≤ 3) :
    (decodeGroup (((charArray4 a b c).take (count + 1)).map base64Char)).take count = [a, b, c].take count := by
  have found := map_base64Find (charArray4_lt a b c)
  obtain ⟨w, x, y, z, eq⟩ : ∃ w x y z, charArray4 a b c = [w, x, y, z] := ⟨_, _, _, _, rfl⟩
  rw [eq] at found ⊢
  simp only [List.map_cons, List.map_nil, List.cons.injEq, and_true] at found
  obtain ⟨fw, fx, fy, fz⟩ := found
  apply charArray3_of_charArray4 _ few
  rw [eq]
  match count, few with
  | 0, _ => exact congrArg (fun i => [i]) fw
  | 1, _ => exact congrArg₂ (fun i j => [i, j]) fw fx
  | 2, _ =>
    change [base64Find (base64Char w), base64Find (base64Char x), base64Find (base64Char y)] = [w, x, y]
    rw [fw, fx, fy]
  | 3, _ =>
    change [base64Find (base64Char w), base64Find (base64Char x), base64Find (base64Char y),
      base64Find (base64Char z)] = [w, x, y, z]
    rw [fw, fx, fy, fz]

/-- A full group. -/
theorem decodeLoop_group (some_ : 4 ≤ inLen) (a b c : Byte) (rest : List Byte) :
    decodeLoop inLen ((charArray4 a b c).map base64Char ++ rest) [] =
      (decodeLoop (inLen - 4) rest []).map ([a, b, c] ++ ·) := by
  have letters := isBase64_of_mem_map (charArray4_lt a b c)
  have group : decodeGroup ((charArray4 a b c).map base64Char) = [a, b, c] := take_decodeGroup a b c le_rfl
  obtain ⟨w, x, y, z, eq⟩ : ∃ w x y z, (charArray4 a b c).map base64Char = [w, x, y] ++ [z] := ⟨_, _, _, _, rfl⟩
  rw [eq] at letters group ⊢
  have first : ∀ c ∈ [w, x, y], isBase64 c := fun letter present => letters letter (List.mem_append_left [z] present)
  have last : isBase64 z := letters z (List.mem_append_right [w, x, y] (List.mem_singleton_self z))
  rw [List.append_assoc, decodeLoop_letters first (by simp; omega) (by simp), List.singleton_append,
    decodeLoop_full (by simp; omega) (by simp; omega) last rfl, List.nil_append, group]
  simp only [List.length_cons, List.length_nil]
  congr 2
  push_cast
  ring

/-- The last group, in which what is left over of the characters is padding. -/
theorem decodeLoop_last (some_ : 4 ≤ inLen) (a b c : Byte) {count : ℕ} (few : count ≤ 2)
    (padding : List Byte) :
    decodeLoop inLen (((charArray4 a b c).take (count + 1)).map base64Char ++ 61 :: padding) [] =
      some ([a, b, c].take count) := by
  have letters : ∀ letter ∈ ((charArray4 a b c).take (count + 1)).map base64Char, isBase64 letter :=
    isBase64_of_mem_map fun i present => charArray4_lt a b c i (List.mem_of_mem_take present)
  have length : (((charArray4 a b c).take (count + 1)).map base64Char).length = count + 1 := by
    rw [List.length_map, List.length_take_of_le]
    have four : (charArray4 a b c).length = 4 := rfl
    omega
  rw [decodeLoop_letters letters (by omega) (by rw [length, List.length_nil]; omega), List.nil_append,
    decodeLoop_stop (by omega) (by decide), decodeTail, if_neg (List.ne_nil_of_length_eq_add_one length), length,
    Nat.add_sub_cancel, take_decodeGroup a b c (few.trans (by decide))]

/-- Four characters for every three bytes that are begun. -/
theorem encodeGroups_length (bytes : List Byte) : (encodeGroups bytes).length = (bytes.length + 2) / 3 * 4 := by
  fun_induction encodeGroups bytes with
  | case1 a b c rest ih =>
    rw [List.length_append, List.length_map, ih]
    simp only [charArray4, List.length_cons, List.length_nil]
    omega
  | case2 a b => simp [charArray4]
  | case3 a => simp [charArray4]
  | case4 => rfl

/-- As long as the count lasts, text of the encoder is decoded. -/
theorem decodeLoop_encodeGroups (bytes : List Byte) (lasts : ((encodeGroups bytes).length : ℤ) ≤ inLen) :
    decodeLoop inLen (encodeGroups bytes) [] = some bytes := by
  rw [encodeGroups_length] at lasts
  fun_induction encodeGroups bytes generalizing inLen with
  | case1 a b c rest ih =>
    simp only [List.length_cons] at lasts
    rw [decodeLoop_group (by omega), ih (by omega)]
    rfl
  | case2 a b => exact decodeLoop_last (by simpa using lasts) a b 0 le_rfl []
  | case3 a => exact decodeLoop_last (by simpa using lasts) a 0 0 one_le_two [61]
  | case4 =>
    rcases eq_or_ne inLen 0 with rfl | other
    · exact decodeLoop_zero [] []
    · rw [decodeLoop.eq_def, if_neg (by simp at lasts; omega), if_neg other]
      rfl

/-- All characters but the last two are in the alphabet. -/
theorem isBase64_of_mem_encodeGroups (bytes : List Byte) :
    ∀ c ∈ (encodeGroups bytes).take ((encodeGroups bytes).length - 2), isBase64 c := by
  have letters := fun a b c => isBase64_of_mem_map (charArray4_lt a b c)
  fun_induction encodeGroups bytes with
  | case1 a b c rest ih =>
    intro letter present
    rw [List.length_append, List.take_append] at present
    rcases List.mem_append.mp present with first | later
    · exact letters a b c letter (List.mem_of_mem_take first)
    · refine ih letter (List.take_subset_take_left _ ?_ later)
      omega
  | case2 a b =>
    intro letter present
    exact letters a b 0 letter (List.take_subset 2 _ present)
  | case3 a =>
    intro letter present
    exact letters a 0 0 letter (List.take_subset 2 _ present)
  | case4 => exact fun _ impossible => absurd impossible List.not_mem_nil

/-! ## Long text -/

/-- Below zero the count goes on to the least `int`, if the characters last. -/
theorem decodeLoop_negative {chars : List Byte} (below : inLen < 0) (least : -2 ^ 31 ≤ inLen)
    (letters : ∀ c ∈ chars.take (inLen + 2 ^ 31).toNat, isBase64 c) (last : inLen + 2 ^ 31 ≤ chars.length) :
    decodeLoop inLen chars pending = none := by
  induction chars generalizing inLen pending with
  | nil =>
    rw [List.length_nil] at last
    obtain rfl : inLen = -2 ^ 31 := by push_cast at last; omega
    exact decodeLoop_least [] pending
  | cons c rest ih =>
    rcases eq_or_ne inLen (-2 ^ 31) with rfl | range
    · exact decodeLoop_least _ _
    have further : (inLen + 2 ^ 31).toNat = (inLen - 1 + 2 ^ 31).toNat + 1 := by omega
    rw [further, List.take_succ_cons, List.forall_mem_cons] at letters
    have later : ∀ pending, decodeLoop (inLen - 1) rest pending = none := fun pending =>
      ih (by omega) (by omega) letters.2 (by rw [List.length_cons] at last; push_cast at last; omega)
    rcases eq_or_ne pending.length 3 with full | short
    · rw [decodeLoop_full range below.ne letters.1 full, later, Option.map_none]
    · rw [decodeLoop_cons range below.ne letters.1 short, later]

theorem decodeGroup_length (chars : List Byte) : (decodeGroup chars).length = 3 := rfl

/-- What is decoded is no longer than the count allows. -/
theorem length_of_decodeLoop {chars bytes : List Byte} (count : 0 ≤ inLen) (few : pending.length ≤ 3)
    (decoded : decodeLoop inLen chars pending = some bytes) : 4 * bytes.length ≤ 3 * (inLen + pending.length) := by
  have tail : ∀ pending : List Byte, pending.length ≤ 3 → 4 * (decodeTail pending).length ≤ 3 * pending.length := by
    intro pending few
    rw [decodeTail]
    split
    · simp
    · rw [List.length_take, decodeGroup_length]
      omega
  induction chars generalizing inLen pending bytes with
  | nil =>
    have stopped : decodeTail pending = bytes := by
      rw [decodeLoop.eq_def, if_neg (by omega)] at decoded
      split at decoded <;> exact Option.some.inj decoded
    have := tail pending few
    rw [stopped] at this
    omega
  | cons c rest ih =>
    rcases eq_or_ne inLen 0 with rfl | more
    · rw [decodeLoop_zero] at decoded
      have := tail pending few
      rw [Option.some.inj decoded] at this
      omega
    rcases em (isBase64 c) with letter | other
    · rcases eq_or_ne pending.length 3 with full | short
      · rw [decodeLoop_full (by omega) more letter full] at decoded
        obtain ⟨later, rest_, rfl⟩ := Option.map_eq_some_iff.mp decoded
        have := ih (by omega) (by rw [List.length_nil]; omega) rest_
        rw [List.length_append, decodeGroup_length]
        simp only [List.length_nil] at this
        push_cast at this ⊢
        omega
      · rw [decodeLoop_cons (by omega) more letter short] at decoded
        have := ih (by omega) (by rw [List.length_append, List.length_singleton]; omega) decoded
        rw [List.length_append, List.length_singleton] at this
        push_cast at this
        omega
    · rw [decodeLoop_stop (by omega) other] at decoded
      have := tail pending few
      rw [Option.some.inj decoded] at this
      omega

/-! ## Round trips -/

/-- Text of less than `2 ^ 31` characters is decoded. -/
theorem base64Decode_short {bytes : List Byte} (short : (encodeGroups bytes).length < 2 ^ 31) :
    base64Decode (encodeGroups bytes) = some bytes := by
  have count : Int.bmod (encodeGroups bytes).length (2 ^ 32) = (encodeGroups bytes).length := by
    rw [Int.bmod_eq_iff (by decide)]
    omega
  rw [base64Decode, count, decodeLoop_encodeGroups bytes le_rfl]

/-- What longer text is decoded to is shorter than what was encoded. -/
theorem base64Decode_long {bytes decoded : List Byte} (long : 2 ^ 31 ≤ (encodeGroups bytes).length)
    (done : base64Decode (encodeGroups bytes) = some decoded) :
    4 * decoded.length + 3 * 2 ^ 32 ≤ 3 * (encodeGroups bytes).length := by
  rw [base64Decode] at done
  generalize count : Int.bmod (encodeGroups bytes).length (2 ^ 32) = inLen at done
  have least : -2 ^ 31 ≤ inLen := by
    have := Int.le_bmod (x := (encodeGroups bytes).length) (m := 2 ^ 32) (by decide)
    omega
  have most : inLen < 2 ^ 31 := by
    have := Int.bmod_lt (x := (encodeGroups bytes).length) (m := 2 ^ 32) (by decide)
    omega
  have rest := Int.bmod_add_bdiv (encodeGroups bytes).length (2 ^ 32)
  rw [count] at rest
  rcases lt_or_ge inLen 0 with below | count
  · have letters := isBase64_of_mem_encodeGroups bytes
    have stuck : decodeLoop inLen (encodeGroups bytes) [] = none := by
      apply decodeLoop_negative below least
      · intro c present
        refine letters c (List.take_subset_take_left _ ?_ present)
        omega
      · omega
    exact absurd (stuck.symm.trans done) nofun
  · have fewer := length_of_decodeLoop count (by simp) done
    simp only [List.length_nil] at fewer
    have more : 1 ≤ Int.bdiv (encodeGroups bytes).length (2 ^ 32) := by omega
    omega

theorem base64Encode_length (bytes : List Byte) : (base64Encode bytes).length = (bytes.length % 2 ^ 32 + 2) / 3 * 4 := by
  rw [base64Encode, encodeGroups_length, List.length_take_of_le (Nat.mod_le _ _)]

theorem base64Decode_base64Encode_iff (bytes : List Byte) :
    base64Decode (base64Encode bytes) = some bytes ↔ bytes.length ≤ 1610612733 := by
  have length := base64Encode_length bytes
  rcases lt_or_ge (base64Encode bytes).length (2 ^ 31) with short | long
  · have decoded : base64Decode (base64Encode bytes) = some (bytes.take (bytes.length % 2 ^ 32)) :=
      base64Decode_short short
    rw [decoded, Option.some_inj, List.take_eq_self_iff]
    omega
  · refine iff_of_false (fun same => ?_) (by omega)
    have fewer := base64Decode_long long same
    have fits := Nat.mod_le bytes.length (2 ^ 32)
    rw [← base64Encode] at fewer
    omega

theorem base64Encode_base64Decode_iff (bytes : List Byte) :
    (base64Decode (base64Encode bytes)).map base64Encode = some (base64Encode bytes)
      ↔ (base64Encode bytes).length < 2 ^ 31 := by
  rcases lt_or_ge (base64Encode bytes).length (2 ^ 31) with short | long
  · refine iff_of_true ?_ short
    have decoded : base64Decode (base64Encode bytes) = some (bytes.take (bytes.length % 2 ^ 32)) :=
      base64Decode_short short
    have taken : (bytes.take (bytes.length % 2 ^ 32)).length = bytes.length % 2 ^ 32 :=
      List.length_take_of_le (Nat.mod_le _ _)
    rw [decoded, Option.map_some, base64Encode, taken, List.take_of_length_le (by rw [taken, Nat.mod_mod])]
    rfl
  · refine iff_of_false (fun same => ?_) (not_lt.mpr long)
    obtain ⟨decoded, done, same⟩ := Option.map_eq_some_iff.mp same
    have fewer := base64Decode_long long done
    have again := congrArg List.length same
    rw [base64Encode_length] at again
    have fits := Nat.mod_le decoded.length (2 ^ 32)
    rw [← base64Encode] at fewer
    omega

/-- The round trip of bytes works for at most `1610612733` of them, and that of text for less than `2 ^ 31`
characters. -/
theorem base64_roundTrip (bytes : List Byte) :
    (base64Decode (base64Encode bytes) = some bytes ↔ bytes.length ≤ 1610612733)
      ∧ ((base64Decode (base64Encode bytes)).map base64Encode = some (base64Encode bytes)
        ↔ (base64Encode bytes).length < 2 ^ 31) :=
  ⟨base64Decode_base64Encode_iff bytes, base64Encode_base64Decode_iff bytes⟩

/-- The text of `3 * 2 ^ 30` zeros has `2 ^ 32` characters. -/
theorem zeros_not_decoded : ¬∀ bytes, base64Decode (base64Encode bytes) = some bytes := by
  intro all
  have short := (base64Decode_base64Encode_iff _).mp (all (List.replicate (3 * 2 ^ 30) 0))
  rw [List.length_replicate] at short
  omega

end H5Server.Codec
