import H5Server.Codec.Url
import Mathlib.Logic.Function.Iterate

/-! # Layers of percent encoding (`URL::MultipleDecode`)

`Decode` looks four characters ahead, whatever is left of the text. Each layer that it reports makes the text shorter,
and without a percent sign nothing is left to undo.
-/

namespace H5Server.Codec.URL

/-- `isDigit16Char` -/
def isDigit16Char (c : Byte) : Bool := (48 ≤ c && c ≤ 57) || (65 ≤ c && c ≤ 70) || (97 ≤ c && c ≤ 102)

/-- `dontNeedEncoding` -/
def dontNeedEncoding (c : Byte) : Bool :=
  (97 ≤ c && c ≤ 122) || (65 ≤ c && c ≤ 90) || (48 ≤ c && c ≤ 57) || c == 43 || c == 45 || c == 95 || c == 46 || c == 42

/-- There is an escape, where two characters behind a percent sign are left out even if they are no digits. -/
def hasUrlEncoded : List Byte → Bool
  | [] => false
  | c :: str =>
    if dontNeedEncoding c then hasUrlEncoded str
    else if c = 37 then
      match str with
      | c₁ :: c₂ :: str => if isDigit16Char c₁ && isDigit16Char c₂ then true else hasUrlEncoded str
      | str => hasUrlEncoded str
    else hasUrlEncoded str

/-! ## One layer -/

/-- What is read at once. -/
inductive Piece where
  | plain (c : Byte) (percent : c ≠ 37)
  | escape (high low : Byte) (once : strToBin high low ≠ 37)
  | layer (high low : Byte)

namespace Piece

def text : Piece → List Byte
  | plain c _ => [c]
  | escape high low _ => [37, high, low]
  | layer high low => [37, 50, 53, high, low]

/-- What is written for the piece. -/
def value : Piece → Byte
  | plain c _ => if c = 43 then 32 else c
  | escape high low _ => strToBin high low
  | layer high low => strToBin high low

end Piece

/-- Behind whole pieces there is nothing but a percent sign, or an escaped one. -/
def BreaksOff (str : List Byte) : Prop :=
  ∃ pieces : List Piece, str = pieces.flatMap Piece.text ++ [37] ∨ str = pieces.flatMap Piece.text ++ [37, 50, 53]

theorem BreaksOff.cons (piece : Piece) {str : List Byte} (breaks : BreaksOff str) : BreaksOff (piece.text ++ str) := by
  obtain ⟨pieces, rfl | rfl⟩ := breaks
  · exact ⟨piece :: pieces, .inl (by simp)⟩
  · exact ⟨piece :: pieces, .inr (by simp)⟩

theorem BreaksOff.percent_mem {str : List Byte} (breaks : BreaksOff str) : 37 ∈ str := by
  obtain ⟨pieces, rfl | rfl⟩ := breaks <;> simp

/-- A text is whole pieces, behind which an escape can be cut off. -/
theorem pieces_induction {motive : List Byte → Prop} (nil : motive []) (percent : motive [37])
    (digit : ∀ high, motive [37, high]) (layer_percent : motive [37, 50, 53])
    (layer_digit : ∀ high, motive [37, 50, 53, high])
    (piece : ∀ (piece : Piece) (str : List Byte), motive str → motive (piece.text ++ str)) (str : List Byte) :
    motive str := by
  induction length : str.length using Nat.strong_induction_on generalizing str with
  | _ n ih =>
    have shorter (rest : List Byte) (less : rest.length < n) : motive rest := ih rest.length less rest rfl
    match str, length with
    | [], _ => exact nil
    | c :: str, length =>
      rcases ne_or_eq c 37 with plain | rfl
      · exact piece (.plain c plain) str (shorter str (by rw [← length]; exact Nat.lt_succ_self _))
      match str, length with
      | [], _ => exact percent
      | [high], _ => exact digit high
      | high :: low :: str, length =>
        rcases ne_or_eq (strToBin high low) 37 with once | twice
        · exact piece (.escape high low once) str (shorter str (by rw [← length]; simp only [List.length_cons]; omega))
        obtain ⟨rfl, rfl⟩ := eq_of_strToBin_eq twice
        match str, length with
        | [], _ => exact layer_percent
        | [high], _ => exact layer_digit high
        | high :: low :: str, length =>
          exact piece (.layer high low) str (shorter str (by rw [← length]; simp only [List.length_cons]; omega))

/-- A piece is written, and a percent sign among what is written is taken for one more layer. -/
theorem decode_piece (piece : Piece) (str : List Byte) :
    decode (piece.text ++ str) =
      (decode str).map fun (result, ret) => (piece.value :: result, ret || piece.value == 37) := by
  cases piece with
  | plain c percent =>
    have other : ((if c = 43 then 32 else c) == (37 : Byte)) = false := by
      rw [beq_eq_false_iff_ne]
      split
      · decide
      · exact percent
    rw [Piece.text, List.singleton_append, decode.eq_def]
    simp only [percent, if_false, Piece.value, other, Bool.or_false]
  | escape high low once =>
    rw [Piece.text, decode.eq_def]
    simp only [List.cons_append, List.nil_append, once, if_true, if_false, Piece.value, beq_eq_false_iff_ne.mpr once,
      Bool.or_false]
  | layer high low =>
    have twice : strToBin 50 53 = 37 := by decide
    rw [Piece.text, decode.eq_def]
    simp only [List.cons_append, List.nil_append, twice, if_true, Piece.value]

theorem strToBin_zero (high : Byte) : strToBin high 0 ≠ 37 := fun percent =>
  absurd (eq_of_strToBin_eq percent).2 (by decide)

theorem decode_digit (high : Byte) : decode [37, high] = some ([strToBin high 0], false) := by
  rw [decode.eq_def]
  simp only [if_true, strToBin_zero, if_false]

theorem decode_layer_digit (high : Byte) : decode [37, 50, 53, high] = some ([strToBin high 0], false) := by
  have twice : strToBin 50 53 = 37 := by decide
  rw [decode.eq_def]
  simp only [if_true, twice, beq_eq_false_iff_ne.mpr (strToBin_zero high)]

theorem decode_eq_none_iff (str : List Byte) : decode str = none ↔ BreaksOff str := by
  constructor
  · induction str using pieces_induction with
    | nil => exact nofun
    | percent => exact fun _ => ⟨[], .inl rfl⟩
    | digit high => exact fun reads => absurd ((decode_digit high).symm.trans reads) nofun
    | layer_percent => exact fun _ => ⟨[], .inr rfl⟩
    | layer_digit high => exact fun reads => absurd ((decode_layer_digit high).symm.trans reads) nofun
    | piece piece str ih =>
      intro breaks
      rw [decode_piece, Option.map_eq_none_iff] at breaks
      exact (ih breaks).cons piece
  · rintro ⟨pieces, rfl | rfl⟩
    all_goals
      induction pieces with
      | nil => decide
      | cons piece pieces ih => rw [List.flatMap_cons, List.append_assoc, decode_piece, ih, Option.map_none]

/-- What one layer leaves. -/
structure Undone (str result : List Byte) (ret : Bool) : Prop where
  percent : ret = true ↔ 37 ∈ result
  shorter : result.length ≤ str.length
  more : ret = true → result.length + 4 ≤ str.length
  found : ret = true → hasUrlEncoded str = true

theorem hasUrlEncoded_piece (piece : Piece) (str : List Byte) :
    hasUrlEncoded (piece.text ++ str) = (hasUrlEncoded str || match piece with
      | .plain .. => false
      | .escape high low _ => isDigit16Char high && isDigit16Char low
      | .layer .. => true) := by
  cases piece with
  | plain c percent =>
    rw [Piece.text, List.singleton_append, hasUrlEncoded.eq_def, Bool.or_false]
    dsimp only
    rw [if_neg percent, ite_self]
  | escape high low once =>
    have percent : dontNeedEncoding 37 = false := by decide
    rw [Piece.text, hasUrlEncoded.eq_def]
    simp only [List.cons_append, List.nil_append, percent, Bool.false_eq_true, if_false, if_true]
    cases isDigit16Char high && isDigit16Char low <;> simp
  | layer high low =>
    rw [Piece.text, Bool.or_true]
    rfl

theorem percent_mem_of_hasUrlEncoded {str : List Byte} (found : hasUrlEncoded str = true) : 37 ∈ str := by
  induction str using pieces_induction with
  | nil => exact absurd found Bool.false_ne_true
  | percent | digit | layer_percent | layer_digit => exact List.mem_cons_self
  | piece piece str ih =>
    rw [hasUrlEncoded_piece, Bool.or_eq_true] at found
    rcases found with later | here
    · exact List.mem_append_right _ (ih later)
    · cases piece with
      | plain c percent => exact absurd here Bool.false_ne_true
      | escape | layer => exact List.mem_append_left _ List.mem_cons_self

theorem undone_of_decode {str result : List Byte} {ret : Bool} (done : decode str = some (result, ret)) :
    Undone str result ret := by
  induction str using pieces_induction generalizing result ret with
  | nil =>
    cases done
    exact ⟨by simp, le_rfl, nofun, nofun⟩
  | percent => exact absurd done nofun
  | digit high =>
    rw [decode_digit] at done
    cases done
    exact ⟨by simpa using (strToBin_zero high).symm, by simp, nofun, nofun⟩
  | layer_percent => exact absurd done nofun
  | layer_digit high =>
    rw [decode_layer_digit] at done
    cases done
    exact ⟨by simpa using (strToBin_zero high).symm, by simp, nofun, nofun⟩
  | piece piece str ih =>
    rw [decode_piece, Option.map_eq_some_iff] at done
    obtain ⟨⟨rest, ret⟩, done, eq⟩ := done
    obtain ⟨rfl, rfl⟩ := Prod.ext_iff.mp eq
    obtain ⟨percent, shorter, more, found⟩ := ih done
    have width : 1 ≤ piece.text.length ∧ (piece.value = 37 → 5 ≤ piece.text.length) := by
      cases piece with
      | plain c plain =>
        refine ⟨le_rfl, fun same => absurd same ?_⟩
        rw [Piece.value]
        split
        · decide
        · exact plain
      | escape high low once => exact ⟨by simp [Piece.text], fun same => absurd same once⟩
      | layer high low => exact ⟨by simp [Piece.text], fun _ => le_rfl⟩
    refine ⟨?_, ?_, ?_, ?_⟩
    · rw [Bool.or_eq_true, percent, beq_iff_eq, List.mem_cons, eq_comm, or_comm]
    · rw [List.length_cons, List.length_append]
      omega
    · rw [Bool.or_eq_true, beq_iff_eq, List.length_cons, List.length_append]
      rintro (later | here)
      · have := more later
        omega
      · have := width.2 here
        omega
    · rw [hasUrlEncoded_piece, Bool.or_eq_true, Bool.or_eq_true, beq_iff_eq]
      rintro (later | here)
      · exact .inl (found later)
      · refine .inr ?_
        cases piece with
        | plain c plain => exact absurd (width.2 here) (by simp [Piece.text])
        | escape high low once => exact absurd here once
        | layer high low => rfl

/-! ## All layers -/

/-- The loop of `MultipleDecode`: the last text that was written, once no further layer is reported. -/
def decodeLayers (str : List Byte) : Option (List Byte) :=
  match _layer : decode str with
  | none => none
  | some (result, false) => some result
  | some (result, true) => decodeLayers result
termination_by str.length
decreasing_by exact Nat.lt_of_lt_of_le (Nat.lt_add_of_pos_right (by decide)) ((undone_of_decode _layer).more rfl)

/-- There is none where a text is read beyond its end. -/
def multipleDecode (str : List Byte) : Option (List Byte) :=
  if hasUrlEncoded str then decodeLayers str else some str

/-- The text that one layer leaves. -/
def peel (str : List Byte) : List Byte := ((decode str).map Prod.fst).getD []

theorem decodeLayers_of_more {str result : List Byte} (layer : decode str = some (result, true)) :
    decodeLayers str = decodeLayers result := by
  rw [decodeLayers]
  split <;> simp_all

theorem decodeLayers_of_last {str result : List Byte} (layer : decode str = some (result, false)) :
    decodeLayers str = some result := by
  rw [decodeLayers]
  split <;> simp_all

theorem decodeLayers_of_none {str : List Byte} (layer : decode str = none) : decodeLayers str = none := by
  rw [decodeLayers]
  split <;> simp_all

theorem peel_of_decode {str result : List Byte} {ret : Bool} (layer : decode str = some (result, ret)) :
    peel str = result := by
  rw [peel, layer]
  rfl

/-- Without a percent sign nothing breaks off, now or later. -/
theorem not_breaksOff_iterate {str : List Byte} (plain : 37 ∉ str) (k : ℕ) : ¬BreaksOff (peel^[k] str) := by
  induction k generalizing str with
  | zero => exact fun breaks => plain breaks.percent_mem
  | succ k ih =>
    rw [Function.iterate_succ_apply]
    refine ih ?_
    rcases layer : decode str with _ | ⟨result, ret⟩
    · exact absurd ((decode_eq_none_iff str).mp layer).percent_mem plain
    · rw [peel_of_decode layer]
      intro percent
      have undone := undone_of_decode layer
      exact plain (percent_mem_of_hasUrlEncoded (undone.found (undone.percent.mpr percent)))

/-- The layers are undone to the end if none of their texts breaks off. -/
theorem decodeLayers_spec (str : List Byte) :
    (decodeLayers str = none ∧ ∃ k, BreaksOff (peel^[k] str))
      ∨ ∃ result, decodeLayers str = some result ∧ 37 ∉ result ∧ ∀ k, ¬BreaksOff (peel^[k] str) := by
  induction length : str.length using Nat.strong_induction_on generalizing str with
  | _ n ih =>
    rcases layer : decode str with _ | ⟨result, _ | _⟩
    · exact .inl ⟨decodeLayers_of_none layer, 0, (decode_eq_none_iff str).mp layer⟩
    · have plain : 37 ∉ result := mt (undone_of_decode layer).percent.mpr Bool.false_ne_true
      refine .inr ⟨result, decodeLayers_of_last layer, plain, fun k => ?_⟩
      cases k with
      | zero => exact fun breaks => absurd (((decode_eq_none_iff str).mpr breaks).symm.trans layer) nofun
      | succ k =>
        rw [Function.iterate_succ_apply, peel_of_decode layer]
        exact not_breaksOff_iterate plain k
    · have shorter := (undone_of_decode layer).more rfl
      rw [decodeLayers_of_more layer]
      rcases ih result.length (by omega) result rfl with ⟨none_, k, breaks⟩ | ⟨last, done, plain, none_⟩
      · refine .inl ⟨none_, k + 1, ?_⟩
        rwa [Function.iterate_succ_apply, peel_of_decode layer]
      · refine .inr ⟨last, done, plain, fun k => ?_⟩
        cases k with
        | zero => exact fun breaks => absurd (((decode_eq_none_iff str).mpr breaks).symm.trans layer) nofun
        | succ k =>
          rw [Function.iterate_succ_apply, peel_of_decode layer]
          exact none_ k

end H5Server.Codec.URL
