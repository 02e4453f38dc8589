import H5Server.Codec.Base64

/-! # Percent encoding (`URL`)

There are two pairs of functions. `Encode` and `Decode` write every white space as `+`, and what is decoded
to a percent sign is taken for one more layer of encoding. `url_encode` and `url_decode` know one layer only.
-/

namespace H5Server.Codec.URL

/-- `isalnum` in the C locale -/
def isAlnum (c : Byte) : Bool := (48 ≤ c && c ≤ 57) || (65 ≤ c && c ≤ 90) || (97 ≤ c && c ≤ 122)

/-- `isspace` in the C locale -/
def isSpace (c : Byte) : Bool := c == 32 || (9 ≤ c && c ≤ 13)

/-- `%X` of a number below sixteen -/
def hexDigit (n : Byte) : Byte := if 9 < n then n + 55 else n + 48

/-! ## `Encode` and `Decode` -/

def encodeChar (c : Byte) : List Byte :=
  if isAlnum c then [c] else if isSpace c then [43] else [37, hexDigit (c >>> 4), hexDigit (c % 16)]

def encode (str : List Byte) : List Byte := str.flatMap encodeChar

/-- `-1` for what is not a digit -/
def charToInt (ch : Byte) : Byte :=
  if 48 ≤ ch && ch ≤ 57 then ch - 48
  else if 97 ≤ ch && ch ≤ 102 then ch - 97 + 10
  else if 65 ≤ ch && ch ≤ 70 then ch - 65 + 10
  else 0xFF

def strToBin (high low : Byte) : Byte := (charToInt high <<< 4) ||| charToInt low

/-- The result, and whether there may be further layers. At the end of the text a zero is read, and nothing can be
read behind it. -/
def decode : List Byte → Option (List Byte × Bool)
  | [] => some ([], false)
  | c :: str =>
    if c = 37 then
      match str with
      | [] => none
      | [high] => if strToBin high 0 = 37 then none else some ([strToBin high 0], false)
      | high :: low :: str =>
        if strToBin high low = 37 then
          match str with
          | [] => none
          | [high] => some ([strToBin high 0], strToBin high 0 == 37)
          | high :: low :: str =>
            (decode str).map fun (result, ret) => (strToBin high low :: result, ret || strToBin high low == 37)
        else (decode str).map fun (result, ret) => (strToBin high low :: result, ret)
    else (decode str).map fun (result, ret) => ((if c = 43 then 32 else c) :: result, ret)

/-! ## `url_encode` and `url_decode` -/

/-- The characters that stand for themselves. -/
def isPlain (c : Byte) : Bool := isAlnum c || c == 45 || c == 95 || c == 46 || c == 126

def urlEncodeChar (c : Byte) : List Byte :=
  if isPlain c then [c] else if c = 32 then [43] else [37, hexDigit (c >>> 4), hexDigit (c % 16)]

def urlEncode (d : List Byte) : List Byte := d.flatMap urlEncodeChar

/-- `__INLINE_H_2_C` -/
def hexToChar (x : Byte) : Byte :=
  if 65 ≤ x && x ≤ 90 then x - 65 + 10
  else if 97 ≤ x && x ≤ 122 then x - 97 + 10
  else if 48 ≤ x && x ≤ 57 then x - 48
  else x

/-- Where an escape is cut off, what is left is kept as it is. -/
def urlDecode : List Byte → List Byte
  | [] => []
  | c :: e =>
    if c = 43 then 32 :: urlDecode e
    else if c = 37 then
      match e with
      | high :: low :: e => (hexToChar high * 16 + hexToChar low) :: urlDecode e
      | _ => 37 :: e
    else c :: urlDecode e

/-! ## Round trips -/

/-- What both encoders write for a character, looked up for all of them at once. -/
theorem written (c : Byte) :
    (isPlain c → c ≠ 43 ∧ c ≠ 37) ∧ hexToChar (hexDigit (c >>> 4)) * 16 + hexToChar (hexDigit (c % 16)) = c
      ∧ (isAlnum c → c ≠ 43 ∧ isSpace c = false) ∧ strToBin (hexDigit (c >>> 4)) (hexDigit (c % 16)) = c
      ∧ (hexDigit (c >>> 4) ≠ 37 ∧ hexDigit (c % 16) ≠ 37)
      ∧ ((encodeChar c).head? = some 50 → c = 50) ∧ ((encodeChar c).head? = some 53 → c = 53) := by
  revert c
  decide +kernel

theorem urlDecode_urlEncodeChar (c : Byte) (e : List Byte) : urlDecode (urlEncodeChar c ++ e) = c :: urlDecode e := by
  obtain ⟨plain, digits, -⟩ := written c
  rw [urlEncodeChar]
  split
  · rename_i itself
    obtain ⟨plus, percent⟩ := plain itself
    rw [List.singleton_append, urlDecode.eq_def]
    exact (if_neg plus).trans (if_neg percent)
  · split
    · rename_i blank
      rw [blank, List.singleton_append, urlDecode.eq_def]
      exact if_pos rfl
    · rw [urlDecode.eq_def]
      change (hexToChar (hexDigit (c >>> 4)) * 16 + hexToChar (hexDigit (c % 16))) :: urlDecode e = _
      rw [digits]

theorem urlDecode_urlEncode (d : List Byte) : urlDecode (urlEncode d) = d := by
  induction d with
  | nil => rfl
  | cons c d ih =>
    rw [urlEncode, List.flatMap_cons, ← urlEncode, urlDecode_urlEncodeChar, ih]

/-- A character that is no percent sign. -/
theorem decode_cons {c : Byte} (plain : c ≠ 37) (str : List Byte) :
    (decode (c :: str)).map Prod.fst = ((decode str).map Prod.fst).map ((if c = 43 then 32 else c) :: ·) := by
  rw [decode.eq_def]
  simp only [plain, if_false, Option.map_map]
  rfl

/-- Two digits of a character that is no percent sign. -/
theorem decode_escape {high low : Byte} (once : strToBin high low ≠ 37) (str : List Byte) :
    (decode (37 :: high :: low :: str)).map Prod.fst = ((decode str).map Prod.fst).map (strToBin high low :: ·) := by
  rw [decode.eq_def]
  simp only [once, if_true, if_false, Option.map_map]
  rfl

/-- What follows an escaped percent sign is taken for two more digits. -/
theorem decode_layer (high low : Byte) (str : List Byte) :
    (decode (37 :: 50 :: 53 :: high :: low :: str)).map Prod.fst =
      ((decode str).map Prod.fst).map (strToBin high low :: ·) := by
  have percent : strToBin 50 53 = 37 := by decide
  rw [decode.eq_def]
  simp only [percent, if_true, Option.map_map]
  rfl

/-- At the end of the text a zero is read for the second digit. -/
theorem decode_layer_end (high : Byte) : (decode [37, 50, 53, high]).map Prod.fst = some [strToBin high 0] := by
  have percent : strToBin 50 53 = 37 := by decide
  rw [decode.eq_def]
  simp only [percent, if_true]
  rfl

theorem decode_encodeChar {c : Byte} (percent : c ≠ 37) (str : List Byte) :
    (decode (encodeChar c ++ str)).map Prod.fst =
      ((decode str).map Prod.fst).map ((if isSpace c then 32 else c) :: ·) := by
  obtain ⟨-, -, alnum, digits, -⟩ := written c
  rw [encodeChar]
  split
  · rename_i itself
    obtain ⟨plus, space⟩ := alnum itself
    rw [List.singleton_append, decode_cons percent, if_neg plus, space]
    rfl
  · split
    · rw [List.singleton_append, decode_cons (by decide), if_pos rfl]
    · have once : strToBin (hexDigit (c >>> 4)) (hexDigit (c % 16)) ≠ 37 := by rwa [digits]
      rw [List.cons_append, List.cons_append, List.cons_append, List.nil_append, decode_escape once, digits]

/-- What is decoded to itself: no percent sign, and no white space but the blank. -/
def IsKept (c : Byte) : Prop := c ≠ 37 ∧ (isSpace c → c = 32)

theorem decode_encode {str : List Byte} (kept : ∀ c ∈ str, IsKept c) :
    (decode (encode str)).map Prod.fst = some str := by
  induction str with
  | nil => rfl
  | cons c str ih =>
    obtain ⟨percent, blank⟩ := kept c List.mem_cons_self
    have later := ih fun other present => kept other (List.mem_cons_of_mem c present)
    have same : (if isSpace c then 32 else c) = c := by
      split
      · rename_i space
        exact (blank space).symm
      · rfl
    rw [encode, List.flatMap_cons, ← encode, decode_encodeChar percent, later, same]
    rfl

/-! ## What is lost -/

theorem encode_cons (c : Byte) (str : List Byte) : encode (c :: str) = encodeChar c ++ encode str := List.flatMap_cons

/-- A character is written as itself or as an escape. -/
theorem encodeChar_shape (c : Byte) :
    (∃ d, encodeChar c = [d]) ∨ ∃ high low, encodeChar c = [37, high, low] ∧ high ≠ 37 ∧ low ≠ 37 := by
  obtain ⟨-, -, -, -, digits, -⟩ := written c
  rw [encodeChar]
  split
  · exact .inl ⟨c, rfl⟩
  · split
    · exact .inl ⟨43, rfl⟩
    · exact .inr ⟨_, _, rfl, digits⟩

/-- What is decoded, if anything is, has at most so many characters. -/
def Within (decoded : Option (List Byte)) (count : ℕ) : Prop := ∀ result, decoded = some result → result.length ≤ count

theorem Within.cons {decoded : Option (List Byte)} {count : ℕ} (within : Within decoded count) (c : Byte) :
    Within (decoded.map (c :: ·)) (count + 1) := by
  intro result done
  obtain ⟨rest, inner, rfl⟩ := Option.map_eq_some_iff.mp done
  exact Nat.succ_le_succ (within rest inner)

theorem Within.mono {decoded : Option (List Byte)} {count count' : ℕ} (within : Within decoded count)
    (fewer : count ≤ count') : Within decoded count' := fun result done => (within result done).trans fewer

/-- What is decoded has no more characters than what was encoded. -/
theorem within_decode_encode (str : List Byte) : Within ((decode (encode str)).map Prod.fst) str.length := by
  induction length : str.length using Nat.strong_induction_on generalizing str with
  | _ n ih =>
    have shorter : ∀ rest : List Byte, rest.length < n → Within ((decode (encode rest)).map Prod.fst) rest.length :=
      fun rest less => ih rest.length less rest rfl
    match str, length with
    | [], rfl => exact fun result done => (Option.some.inj done) ▸ le_rfl
    | c :: t, rfl =>
      rcases ne_or_eq c 37 with percent | rfl
      · rw [encode_cons, decode_encodeChar percent]
        exact (shorter t (Nat.lt_succ_self _)).cons _
      have escaped : encodeChar 37 = [37, 50, 53] := by decide
      rw [encode_cons, escaped]
      -- The layer that is undone takes two characters, which may be those of one or of two others.
      match t with
      | [] => exact fun result none_ => absurd none_ nofun
      | x :: t =>
        rcases encodeChar_shape x with ⟨d, single⟩ | ⟨high, low, escape, plain⟩
        · match t with
          | [] =>
            rw [encode_cons, single]
            change Within ((decode [37, 50, 53, d]).map Prod.fst) _
            rw [decode_layer_end]
            exact fun result done => (Option.some.inj done) ▸ Nat.le_add_left 1 1
          | y :: t =>
            have rest := shorter t (by simp only [List.length_cons]; omega)
            rcases encodeChar_shape y with ⟨d', single'⟩ | ⟨high, low, escape, plain⟩
            · rw [encode_cons, encode_cons, single, single']
              change Within ((decode (37 :: 50 :: 53 :: d :: d' :: encode t)).map Prod.fst) _
              rw [decode_layer]
              exact (rest.cons _).mono (by simp only [List.length_cons]; omega)
            · rw [encode_cons, encode_cons, single, escape]
              change Within ((decode (37 :: 50 :: 53 :: d :: 37 :: high :: low :: encode t)).map Prod.fst) _
              rw [decode_layer, decode_cons plain.1, decode_cons plain.2]
              exact ((rest.cons _).cons _).cons _
        · have rest := shorter t (by simp only [List.length_cons]; omega)
          rw [encode_cons, escape]
          change Within ((decode (37 :: 50 :: 53 :: 37 :: high :: low :: encode t)).map Prod.fst) _
          rw [decode_layer, decode_cons plain.2]
          exact (rest.cons _).cons _

/-- Digits that stand for the percent sign. -/
theorem eq_of_strToBin_eq {high low : Byte} (percent : strToBin high low = 37) : high = 50 ∧ low = 53 := by
  have digits : ∀ c : Byte, charToInt c < 16 ∨ charToInt c = 0xFF := by decide +kernel
  have two : ∀ c : Byte, charToInt c = 2 → c = 50 := by decide +kernel
  have five : ∀ c : Byte, charToInt c = 5 → c = 53 := by decide +kernel
  have parts : ∀ i < 16, ∀ j < 16, (BitVec.ofNat 8 i <<< 4) ||| BitVec.ofNat 8 j = 37 → i = 2 ∧ j = 5 := by decide
  have low_ : ∀ i : Byte, (i <<< 4) ||| 0xFF ≠ 37 := by decide +kernel
  have high_ : ∀ j : Byte, ((0xFF : Byte) <<< 4) ||| j ≠ 37 := by decide +kernel
  rw [strToBin] at percent
  rcases digits high with small | large
  · rcases digits low with small' | large'
    · have number : ∀ c : Byte, BitVec.ofNat 8 c.toNat = c := fun c => BitVec.ofNat_toNat 8 c |>.trans (BitVec.setWidth_eq c)
      obtain ⟨h, l⟩ := parts (charToInt high).toNat small (charToInt low).toNat small' (by rwa [number, number])
      exact ⟨two high (BitVec.eq_of_toNat_eq h), five low (BitVec.eq_of_toNat_eq l)⟩
    · exact absurd (large' ▸ percent) (low_ _)
  · exact absurd (large ▸ percent) (high_ _)

/-- Text that starts like two digits of the encoder holds these digits. -/
theorem eq_of_encode_eq {str rest : List Byte} (eq : encode str = 50 :: 53 :: rest) :
    ∃ t, str = 50 :: 53 :: t ∧ rest = encode t := by
  have first : ∀ c : Byte, (encodeChar c).head? = some 50 → c = 50 := fun c => (written c).2.2.2.2.2.1
  have second : ∀ c : Byte, (encodeChar c).head? = some 53 → c = 53 := fun c => (written c).2.2.2.2.2.2
  have some_ : ∀ c str, (encode (c :: str)).head? = (encodeChar c).head? := by
    intro c str
    rw [encode_cons]
    rcases encodeChar_shape c with ⟨d, single⟩ | ⟨high, low, escape, _⟩
    · rw [single]
      rfl
    · rw [escape]
      rfl
  have alone : encodeChar 50 = [50] ∧ encodeChar 53 = [53] := by decide
  match str with
  | [] => contradiction
  | c :: str =>
    obtain rfl := first c ((some_ c str).symm.trans (congrArg List.head? eq))
    rw [encode_cons, alone.1] at eq
    have eq := (List.cons.inj eq).2
    match str with
    | [] => contradiction
    | d :: t =>
      obtain rfl := second d ((some_ d t).symm.trans (congrArg List.head? eq))
      change encode (53 :: t) = 53 :: rest at eq
      rw [encode_cons, alone.2] at eq
      exact ⟨t, rfl, (List.cons.inj eq).2.symm⟩

/-- Nothing else is decoded to itself. -/
theorem decode_encode_iff (str : List Byte) :
    (decode (encode str)).map Prod.fst = some str ↔ ∀ c ∈ str, IsKept c := by
  refine ⟨fun same => ?_, decode_encode⟩
  induction str with
  | nil => exact fun _ impossible => absurd impossible List.not_mem_nil
  | cons c str ih =>
    rcases ne_or_eq c 37 with percent | rfl
    · rw [encode_cons, decode_encodeChar percent] at same
      obtain ⟨rest, later, eq⟩ := Option.map_eq_some_iff.mp same
      obtain ⟨first, rfl⟩ := List.cons.inj eq
      refine List.forall_mem_cons.mpr ⟨⟨percent, fun space => ?_⟩, ih later⟩
      rw [if_pos space] at first
      exact first.symm
    · exfalso
      have escaped : encodeChar 37 = [37, 50, 53] := by decide
      rw [encode_cons, escaped] at same
      match text : encode str with
      | [] =>
        rw [text] at same
        contradiction
      | [d] =>
        rw [text] at same
        change (decode [37, 50, 53, d]).map Prod.fst = _ at same
        rw [decode_layer_end] at same
        exact absurd (eq_of_strToBin_eq (List.cons.inj (Option.some.inj same)).1).2 (by decide)
      | high :: low :: rest =>
        rw [text] at same
        change (decode (37 :: 50 :: 53 :: high :: low :: rest)).map Prod.fst = _ at same
        rw [decode_layer] at same
        obtain ⟨result, later, eq⟩ := Option.map_eq_some_iff.mp same
        obtain ⟨first, rfl⟩ := List.cons.inj eq
        obtain ⟨rfl, rfl⟩ := eq_of_strToBin_eq first
        obtain ⟨t, rfl, rfl⟩ := eq_of_encode_eq text
        have fewer := within_decode_encode t _ later
        simp only [List.length_cons] at fewer
        omega

end H5Server.Codec.URL
