import Mathlib.Algebra.BigOperators.Group.List.Basic
import Mathlib.Algebra.GroupWithZero.Nat
import Mathlib.Data.List.Infix

/-! # Entities (`HTML::Encode` and `HTML::Decode`)

Both functions replace four times. `find_first_of` looks for any character of the text that is to be replaced, so
that decoding takes every `a`, `m`, `p` or semicolon for the begin of `&amp;`.
-/

namespace H5Server.Codec.HTML

/-- `replace_t` -/
structure Code where
  src : List Char
  dst : List Char

def codes : List Code :=
  [⟨['&'], ['&', 'a', 'm', 'p', ';']⟩, ⟨['<'], ['&', 'l', 't', ';']⟩, ⟨['>'], ['&', 'g', 't', ';']⟩,
    ⟨['"'], ['&', 'q', 'u', 'o', 't', ';']⟩]

/-- `std::string::find_first_of` -/
def findFirstOf (rs src : List Char) (start : ℕ) : Option ℕ :=
  ((rs.drop start).findIdx? fun c => src.contains c).map (start + ·)

/-- `std::string::replace`, which ends at the end of the string. -/
def replace (rs : List Char) (start count : ℕ) (dst : List Char) : List Char :=
  rs.take start ++ dst ++ rs.drop (start + count)

theorem findFirstOf_eq_some {rs src : List Char} {start i : ℕ} (found : findFirstOf rs src start = some i) :
    start ≤ i ∧ i < rs.length ∧ 0 < src.length := by
  obtain ⟨k, first, rfl⟩ := Option.map_eq_some_iff.mp found
  obtain ⟨inside, here, -⟩ := List.findIdx?_eq_some_iff_getElem.mp first
  rw [List.length_drop] at inside
  refine ⟨by omega, by omega, ?_⟩
  rw [List.contains_iff_mem] at here
  exact List.length_pos_of_mem here

/-- The loop of both functions over `rs`, from `start` on. -/
def substitute (src dst rs : List Char) (start : ℕ) : List Char :=
  match _found : findFirstOf rs src start with
  | none => rs
  | some i => substitute src dst (replace rs i src.length dst) (i + dst.length)
termination_by rs.length - start
decreasing_by
  obtain ⟨from_, inside, positive⟩ := findFirstOf_eq_some ‹_›
  rw [replace, List.length_append, List.length_append, List.length_take, List.length_drop]
  omega

def encode (s : List Char) : List Char := codes.foldl (fun rs code => substitute code.src code.dst rs 0) s

def decode (s : List Char) : List Char := codes.foldl (fun rs code => substitute code.dst code.src rs 0) s

/-! ## One pass -/

/-- What a loop makes of a text, where `skip` characters still belong to what was replaced last. -/
def pass (src dst : List Char) : ℕ → List Char → List Char
  | _, [] => []
  | skip + 1, _ :: rest => pass src dst skip rest
  | 0, c :: rest => if c ∈ src then dst ++ pass src dst (src.length - 1) rest else c :: pass src dst 0 rest

variable {src dst : List Char} {c d : Char} {s e rest : List Char}

theorem pass_eq_drop (skip : ℕ) (e : List Char) : pass src dst skip e = pass src dst 0 (e.drop skip) := by
  induction skip generalizing e with
  | zero => rfl
  | succ skip ih =>
    cases e with
    | nil => rfl
    | cons c rest => exact ih rest

theorem pass_of_mem (present : c ∈ src) :
    pass src dst 0 (c :: rest) = dst ++ pass src dst 0 (rest.drop (src.length - 1)) := by
  rw [pass, if_pos present, pass_eq_drop]

theorem pass_of_not_mem (absent : c ∉ src) : pass src dst 0 (c :: rest) = c :: pass src dst 0 rest := by
  rw [pass, if_neg absent]

theorem pass_append (absent : ∀ c ∈ s, c ∉ src) (e : List Char) : pass src dst 0 (s ++ e) = s ++ pass src dst 0 e := by
  induction s with
  | nil => rfl
  | cons c rest ih =>
    rw [List.cons_append, pass_of_not_mem (absent c List.mem_cons_self),
      ih fun a present => absent a (List.mem_cons_of_mem _ present), List.cons_append]

theorem substitute_none {rs : List Char} {start : ℕ} (missing : findFirstOf rs src start = none) :
    substitute src dst rs start = rs := by
  rw [substitute]
  split
  · rfl
  · rename_i i found
    rw [missing] at found
    cases found

theorem substitute_some {rs : List Char} {start i : ℕ} (found : findFirstOf rs src start = some i) :
    substitute src dst rs start = substitute src dst (replace rs i src.length dst) (i + dst.length) := by
  rw [substitute]
  split
  · rename_i missing
    rw [missing] at found
    cases found
  · rename_i k found'
    cases found.symm.trans found'
    rfl

/-- The loop replaces in one pass over the rest of the text. -/
theorem substitute_eq (passed e : List Char) :
    substitute src dst (passed ++ e) passed.length = passed ++ pass src dst 0 e := by
  induction n : e.length using Nat.strongRecOn generalizing passed e with
  | ind n ih =>
    have searched : findFirstOf (passed ++ e) src passed.length
        = (e.findIdx? fun c => src.contains c).map (passed.length + ·) := by
      rw [findFirstOf, List.drop_left]
    cases first : e.findIdx? fun c => src.contains c with
    | none =>
      rw [first] at searched
      have absent : ∀ c ∈ e, c ∉ src := by
        intro c present
        have other := List.findIdx?_eq_none_iff.mp first c present
        rwa [List.contains_eq_mem, decide_eq_false_iff_not] at other
      have unchanged : pass src dst 0 (e ++ []) = _ := pass_append absent []
      rw [List.append_nil, pass, List.append_nil] at unchanged
      rw [substitute_none searched, unchanged]
    | some i =>
      rw [first] at searched
      obtain ⟨inside, here, before⟩ := List.findIdx?_eq_some_iff_getElem.mp first
      rw [List.contains_iff_mem] at here
      -- the text up to the first character that is replaced
      have split : e = e.take i ++ e[i] :: e.drop (i + 1) := by
        rw [← List.drop_eq_getElem_cons inside, List.take_append_drop]
      have absent : ∀ c ∈ e.take i, c ∉ src := by
        intro c present inSrc
        obtain ⟨k, bound, rfl⟩ := List.getElem_of_mem present
        rw [List.length_take] at bound
        rw [List.getElem_take] at inSrc
        exact before k (by omega) (List.contains_iff_mem.mpr inSrc)
      have length : (e.take i).length = i := by
        rw [List.length_take]
        omega
      have positive := List.length_pos_of_mem here
      have replaced : replace (passed ++ e) (passed.length + i) src.length dst
          = (passed ++ e.take i ++ dst) ++ e.drop (i + src.length) := by
        rw [replace, List.take_length_add_append, Nat.add_assoc, List.drop_length_add_append]
      rw [substitute_some searched, replaced]
      have next : passed.length + i + dst.length = (passed ++ e.take i ++ dst).length := by
        rw [List.length_append, List.length_append, length]
      rw [next, ih (e.drop (i + src.length)).length (by rw [List.length_drop]; omega) _ _ rfl]
      conv_rhs => rw [split, pass_append absent _, pass_of_mem here, List.drop_drop]
      rw [show i + 1 + (src.length - 1) = i + src.length by omega]
      simp only [List.append_assoc]

theorem substitute_zero (e : List Char) : substitute src dst e 0 = pass src dst 0 e := substitute_eq [] e

/-- Nothing that is replaced is left, unless it is put in. -/
theorem of_mem_pass (present : c ∈ pass src [d] 0 e) : c = d ∨ c ∉ src ∧ c ∈ e := by
  induction n : e.length using Nat.strongRecOn generalizing e with
  | ind n ih =>
    cases e with
    | nil => cases present
    | cons a rest =>
      rw [List.length_cons] at n
      rcases Classical.em (a ∈ src) with here | other
      · rw [pass_of_mem here, List.singleton_append] at present
        rcases List.mem_cons.mp present with same | later
        · exact Or.inl same
        · exact (ih (rest.drop (src.length - 1)).length (by rw [List.length_drop]; omega) later rfl).imp_right fun ⟨absent, inside⟩ =>
            ⟨absent, List.mem_cons_of_mem _ (List.mem_of_mem_drop inside)⟩
      · rw [pass_of_not_mem other] at present
        rcases List.mem_cons.mp present with same | later
        · exact Or.inr ⟨same ▸ other, same ▸ List.mem_cons_self⟩
        · exact (ih rest.length (by omega) later rfl).imp_right fun ⟨absent, inside⟩ =>
            ⟨absent, List.mem_cons_of_mem _ inside⟩

/-- To skip characters of the result is to skip at least as many of the text. -/
theorem exists_drop_pass (src : List Char) (d : Char) (i : ℕ) (e : List Char) :
    ∃ j, i ≤ j ∧ (pass src [d] 0 e).drop i = pass src [d] 0 (e.drop j) := by
  induction i generalizing e with
  | zero => exact ⟨0, Nat.le_refl 0, rfl⟩
  | succ i ih =>
    cases e with
    | nil => exact ⟨i + 1, Nat.le_refl _, rfl⟩
    | cons c rest =>
      rcases Classical.em (c ∈ src) with here | other
      · obtain ⟨j, more, same⟩ := ih (rest.drop (src.length - 1))
        refine ⟨src.length - 1 + j + 1, by omega, ?_⟩
        rw [pass_of_mem here, List.singleton_append, List.drop_succ_cons, same, List.drop_succ_cons, List.drop_drop]
      · obtain ⟨j, more, same⟩ := ih rest
        refine ⟨j + 1, by omega, ?_⟩
        rw [pass_of_not_mem other, List.drop_succ_cons, same, List.drop_succ_cons]

/-! ## Encoding -/

/-- What stands for a character. -/
def entity (c : Char) : List Char :=
  match c with
  | '&' => ['&', 'a', 'm', 'p', ';']
  | '<' => ['&', 'l', 't', ';']
  | '>' => ['&', 'g', 't', ';']
  | '"' => ['&', 'q', 'u', 'o', 't', ';']
  | c => [c]

theorem entity_of_not_mem (other : c ∉ ['&', '<', '>', '"']) : entity c = [c] := by
  rw [entity]
  · rintro rfl; exact other (by decide)
  · rintro rfl; exact other (by decide)
  · rintro rfl; exact other (by decide)
  · rintro rfl; exact other (by decide)

/-- A pass that replaces a single character. -/
theorem pass_singleton (d : Char) (e : List Char) : pass [d] dst 0 e = e.flatMap fun c => if c = d then dst else [c] := by
  induction e with
  | nil => rfl
  | cons c rest ih =>
    rw [pass, List.flatMap_cons, List.length_singleton, ih]
    rcases eq_or_ne c d with rfl | other
    · rw [if_pos (List.mem_singleton_self c), if_pos rfl]
    · rw [if_neg fun present => other (List.mem_singleton.mp present), if_neg other, List.singleton_append]

theorem encode_eq (s : List Char) : encode s = s.flatMap entity := by
  have passes : encode s = ((((s.flatMap fun c => if c = '&' then ['&', 'a', 'm', 'p', ';'] else [c]).flatMap
      fun c => if c = '<' then ['&', 'l', 't', ';'] else [c]).flatMap
      fun c => if c = '>' then ['&', 'g', 't', ';'] else [c]).flatMap
      fun c => if c = '"' then ['&', 'q', 'u', 'o', 't', ';'] else [c]) := by
    rw [encode, codes]
    simp only [List.foldl_cons, List.foldl_nil, substitute_zero, pass_singleton]
  rw [passes, List.flatMap_assoc, List.flatMap_assoc, List.flatMap_assoc]
  apply List.flatMap_congr
  intro c _
  rcases Classical.em (c ∈ ['&', '<', '>', '"']) with special | other
  · rw [List.mem_cons, List.mem_cons, List.mem_cons, List.mem_singleton] at special
    rcases special with rfl | rfl | rfl | rfl <;> rfl
  · rw [entity_of_not_mem other]
    rw [List.mem_cons, List.mem_cons, List.mem_cons, List.mem_singleton] at other
    push Not at other
    obtain ⟨amp, lt, gt, quot⟩ := other
    simp only [if_neg amp, if_neg lt, if_neg gt, if_neg quot, List.flatMap_cons, List.flatMap_nil, List.append_nil]

/-! ## Decoding -/

/-- The text after the first two and after the first three replacements. -/
def pass2 (e : List Char) : List Char :=
  pass ['&', 'l', 't', ';'] ['<'] 0 (pass ['&', 'a', 'm', 'p', ';'] ['&'] 0 e)

def pass3 (e : List Char) : List Char := pass ['&', 'g', 't', ';'] ['>'] 0 (pass2 e)

theorem decode_eq (e : List Char) : decode e = pass ['&', 'q', 'u', 'o', 't', ';'] ['"'] 0 (pass3 e) := by
  rw [decode, codes]
  simp only [List.foldl_cons, List.foldl_nil, substitute_zero]
  rfl

theorem exists_drop_pass2 (i : ℕ) (e : List Char) : ∃ j, i ≤ j ∧ (pass2 e).drop i = pass2 (e.drop j) := by
  obtain ⟨k, more, same⟩ := exists_drop_pass _ _ i (pass ['&', 'a', 'm', 'p', ';'] ['&'] 0 e)
  obtain ⟨j, more', same'⟩ := exists_drop_pass _ _ k e
  refine ⟨j, Nat.le_trans more more', ?_⟩
  rw [pass2, same, same']
  rfl

theorem exists_drop_pass3 (i : ℕ) (e : List Char) : ∃ j, i ≤ j ∧ (pass3 e).drop i = pass3 (e.drop j) := by
  obtain ⟨k, more, same⟩ := exists_drop_pass _ _ i (pass2 e)
  obtain ⟨j, more', same'⟩ := exists_drop_pass2 k e
  refine ⟨j, Nat.le_trans more more', ?_⟩
  rw [pass3, same, same']
  rfl

/-- The characters that no text keeps. -/
def lost : List Char := ['&', 'a', 'm', 'p', ';', 'l', 't', 'g', 'q', 'u', 'o']

/-- The characters that stay as they are. -/
def IsPlain (c : Char) : Prop := c ∉ lost ∧ c ∉ ['<', '>', '"']

theorem not_mem_of_subset {l : List Char} (subset : l ⊆ lost) (absent : c ∉ lost) : c ∉ l := fun present =>
  absent (subset present)

theorem decode_plain (plain : c ∉ lost) (e : List Char) : decode (c :: e) = c :: decode e := by
  rw [decode_eq, decode_eq, pass3, pass3, pass2, pass2, pass_of_not_mem (not_mem_of_subset (by decide) plain),
    pass_of_not_mem (not_mem_of_subset (by decide) plain), pass_of_not_mem (not_mem_of_subset (by decide) plain),
    pass_of_not_mem (not_mem_of_subset (by decide) plain)]

theorem decode_plain_append (plain : ∀ c ∈ s, c ∉ lost) (e : List Char) : decode (s ++ e) = s ++ decode e := by
  induction s with
  | nil => rfl
  | cons c rest ih =>
    rw [List.cons_append, decode_plain (plain c List.mem_cons_self),
      ih fun a present => plain a (List.mem_cons_of_mem _ present), List.cons_append]

theorem decode_nil : decode [] = [] := by
  rw [decode_eq]
  rfl

/-- Decoding destroys every character of an entity. -/
theorem not_mem_lost_of_mem_decode (present : c ∈ decode e) : c ∉ lost := by
  rw [decode_eq] at present
  rcases of_mem_pass present with rfl | ⟨quot, present⟩
  · decide
  rcases of_mem_pass present with rfl | ⟨gt, present⟩
  · decide
  rcases of_mem_pass present with rfl | ⟨lt, present⟩
  · decide
  rcases of_mem_pass present with rfl | ⟨amp, -⟩
  · exact absurd List.mem_cons_self lt
  · intro inside
    have spread : lost ⊆ ['&', 'a', 'm', 'p', ';'] ++ (['&', 'l', 't', ';'] ++ (['&', 'g', 't', ';']
        ++ ['&', 'q', 'u', 'o', 't', ';'])) := by decide
    rcases List.mem_append.mp (spread inside) with here | inside
    · exact amp here
    rcases List.mem_append.mp inside with here | inside
    · exact lt here
    rcases List.mem_append.mp inside with here | here
    · exact gt here
    · exact quot here

/-! ### What becomes of an entity -/

/-- An ampersand or a semicolon takes seven more characters with it. -/
theorem pass2_amp (begins : c = '&' ∨ c = ';') (cs : List Char) :
    ∃ j, 7 ≤ j ∧ pass2 (c :: cs) = '<' :: pass2 (cs.drop j) := by
  obtain ⟨j, more, same⟩ := exists_drop_pass ['&', 'a', 'm', 'p', ';'] '&' 3 (cs.drop 4)
  refine ⟨4 + j, by omega, ?_⟩
  have first : pass ['&', 'a', 'm', 'p', ';'] ['&'] 0 (c :: cs)
      = '&' :: pass ['&', 'a', 'm', 'p', ';'] ['&'] 0 (cs.drop 4) := by
    apply pass_of_mem
    rcases begins with rfl | rfl <;> decide
  rw [pass2, first, pass_of_mem (by decide)]
  show '<' :: pass _ _ 0 (List.drop 3 _) = _
  rw [same, List.drop_drop]
  rfl

theorem pass2_t (cs : List Char) : ∃ j, 6 ≤ j ∧ pass2 ('t' :: ';' :: cs) = '<' :: pass2 (cs.drop j) := by
  obtain ⟨j, more, same⟩ := exists_drop_pass ['&', 'a', 'm', 'p', ';'] '&' 2 (cs.drop 4)
  refine ⟨4 + j, by omega, ?_⟩
  rw [pass2, pass_of_not_mem (by decide), pass_of_mem (by decide), pass_of_mem (by decide)]
  show '<' :: pass _ _ 0 (List.drop 2 (pass _ _ 0 (List.drop 4 cs))) = _
  rw [same, List.drop_drop]
  rfl

theorem pass2_lt (cs : List Char) : ∃ j, 5 ≤ j ∧ pass2 ('l' :: 't' :: ';' :: cs) = '<' :: pass2 (cs.drop j) := by
  obtain ⟨j, more, same⟩ := exists_drop_pass ['&', 'a', 'm', 'p', ';'] '&' 1 (cs.drop 4)
  refine ⟨4 + j, by omega, ?_⟩
  have first : pass ['&', 'a', 'm', 'p', ';'] ['&'] 0 ('l' :: 't' :: ';' :: cs)
      = 'l' :: 't' :: '&' :: pass ['&', 'a', 'm', 'p', ';'] ['&'] 0 (cs.drop 4) := by
    rw [pass_of_not_mem (by decide), pass_of_not_mem (by decide), pass_of_mem (by decide)]
    rfl
  rw [pass2, first, pass_of_mem (by decide)]
  show '<' :: pass _ _ 0 (List.drop 1 (pass _ _ 0 (List.drop 4 cs))) = _
  rw [same, List.drop_drop]
  rfl

theorem pass2_of_not_mem (absent : c ∉ ['&', 'a', 'm', 'p', ';'] ∧ c ∉ ['&', 'l', 't', ';']) (cs : List Char) :
    pass2 (c :: cs) = c :: pass2 cs := by
  rw [pass2, pass_of_not_mem absent.1, pass_of_not_mem absent.2]
  rfl

theorem pass3_of_pass2 {x y : List Char} (same : pass2 x = '<' :: pass2 y) : pass3 x = '<' :: pass3 y := by
  rw [pass3, same, pass_of_not_mem (by decide)]
  rfl

theorem decode_of_pass3 {x y : List Char} (same : pass3 x = c :: pass3 y) (absent : c ∉ ['&', 'q', 'u', 'o', 't', ';']) :
    decode x = c :: decode y := by
  rw [decode_eq, same, pass_of_not_mem absent, decode_eq]

theorem decode_lt {x y : List Char} (same : pass2 x = '<' :: pass2 y) : decode x = '<' :: decode y :=
  decode_of_pass3 (pass3_of_pass2 same) (by decide)

theorem decode_gt (cs : List Char) : ∃ j, 8 ≤ j ∧ decode ('g' :: 't' :: ';' :: cs) = '>' :: decode (cs.drop j) := by
  obtain ⟨j, more, same⟩ := pass2_t cs
  obtain ⟨k, more', same'⟩ := exists_drop_pass2 2 (cs.drop j)
  refine ⟨j + k, by omega, ?_⟩
  apply decode_of_pass3
  · rw [pass3, pass2_of_not_mem (by decide), same, pass_of_mem (by decide)]
    show '>' :: pass _ _ 0 (List.drop 2 (pass2 (List.drop j cs))) = _
    rw [same', List.drop_drop]
    rfl
  · decide

theorem pass3_letter (letter : c ∈ ['q', 'u', 'o']) (x : List Char) : pass3 (c :: x) = c :: pass3 x := by
  have absent : (c ∉ ['&', 'a', 'm', 'p', ';'] ∧ c ∉ ['&', 'l', 't', ';']) ∧ c ∉ ['&', 'g', 't', ';'] := by
    rw [List.mem_cons, List.mem_cons, List.mem_singleton] at letter
    rcases letter with rfl | rfl | rfl <;> decide
  rw [pass3, pass2_of_not_mem absent.1, pass_of_not_mem absent.2]
  rfl

theorem decode_letter (letter : c ∈ ['q', 'u', 'o']) (x : List Char) :
    decode (c :: x) = '"' :: pass ['&', 'q', 'u', 'o', 't', ';'] ['"'] 0 ((pass3 x).drop 5) := by
  have present : c ∈ ['&', 'q', 'u', 'o', 't', ';'] := by
    rw [List.mem_cons, List.mem_cons, List.mem_singleton] at letter
    rcases letter with rfl | rfl | rfl <;> decide
  rw [decode_eq, pass3_letter letter, pass_of_mem present]
  rfl

/-- A letter of a quotation mark takes what is left of it and the next characters with it. -/
theorem decode_quot (letter : c ∈ ['q', 'u', 'o']) (letters : List Char) (few : letters.length ≤ 2)
    (same : ∀ x, pass3 (letters ++ x) = letters ++ pass3 x) (cs : List Char) :
    ∃ j, 8 ≤ j ∧ decode (c :: (letters ++ 't' :: ';' :: cs)) = '"' :: decode (cs.drop j) := by
  obtain ⟨j, more, bracket⟩ := pass2_t cs
  obtain ⟨k, more', dropped⟩ := exists_drop_pass3 (4 - letters.length) (cs.drop j)
  refine ⟨j + k, by omega, ?_⟩
  have behind : (letters ++ '<' :: pass3 (cs.drop j)).drop 5 = (pass3 (cs.drop j)).drop (4 - letters.length) := by
    rw [List.drop_append, List.drop_eq_nil_of_le (by omega), List.nil_append,
      show 5 - letters.length = 4 - letters.length + 1 by omega, List.drop_succ_cons]
  rw [decode_letter letter, same, pass3_of_pass2 bracket, behind, dropped, List.drop_drop, decode_eq]

/-- What may be left of an entity when the characters before it have been replaced. -/
def parts : List (List Char) :=
  [[';'], ['t', ';'], ['l', 't', ';'], ['g', 't', ';'], ['o', 't', ';'], ['u', 'o', 't', ';'], ['q', 'u', 'o', 't', ';'],
    ['&', 'l', 't', ';'], ['&', 'g', 't', ';'], ['&', 'q', 'u', 'o', 't', ';']]

/-- A part of an entity becomes one character, together with what follows up to at least eight characters. -/
theorem decode_part {part : List Char} (isPart : part ∈ parts) (cs : List Char) :
    ∃ d ∈ ['<', '>', '"'], ∃ n, 8 ≤ n ∧ decode (part ++ cs) = d :: decode ((part ++ cs).drop n) := by
  have amp : ∀ c, c = '&' ∨ c = ';' → ∀ x, ∃ d ∈ ['<', '>', '"'], ∃ n, 8 ≤ n ∧ decode (c :: x) = d :: decode ((c :: x).drop n) := by
    intro c begins x
    obtain ⟨j, more, same⟩ := pass2_amp begins x
    exact ⟨'<', by decide, j + 1, by omega, decode_lt same⟩
  rw [parts] at isPart
  simp only [List.mem_cons, List.not_mem_nil, or_false] at isPart
  rcases isPart with rfl | rfl | rfl | rfl | rfl | rfl | rfl | rfl | rfl | rfl
  · exact amp _ (Or.inr rfl) _
  · obtain ⟨j, more, same⟩ := pass2_t cs
    exact ⟨'<', by decide, j + 2, by omega, decode_lt same⟩
  · obtain ⟨j, more, same⟩ := pass2_lt cs
    exact ⟨'<', by decide, j + 3, by omega, decode_lt same⟩
  · obtain ⟨j, more, same⟩ := decode_gt cs
    exact ⟨'>', by decide, j + 3, by omega, same⟩
  · obtain ⟨j, more, same⟩ := decode_quot (c := 'o') (by decide) [] (by decide) (fun _ => rfl) cs
    exact ⟨'"', by decide, j + 3, by omega, same⟩
  · obtain ⟨j, more, same⟩ := decode_quot (c := 'u') (by decide) ['o'] (by decide)
      (fun x => pass3_letter (by decide) x) cs
    exact ⟨'"', by decide, j + 4, by omega, same⟩
  · obtain ⟨j, more, same⟩ := decode_quot (c := 'q') (by decide) ['u', 'o'] (by decide)
      (fun x => (pass3_letter (by decide) _).trans (congrArg _ (pass3_letter (by decide) x))) cs
    exact ⟨'"', by decide, j + 5, by omega, same⟩
  · exact amp _ (Or.inl rfl) _
  · exact amp _ (Or.inl rfl) _
  · exact amp _ (Or.inl rfl) _

/-! ## The round trip -/

theorem entity_plain (plain : IsPlain c) : entity c = [c] := by
  apply entity_of_not_mem
  intro special
  rcases List.mem_cons.mp special with rfl | inside
  · exact plain.1 (by decide)
  · exact plain.2 inside

theorem encode_plain (plain : ∀ c ∈ s, IsPlain c) : encode s = s := by
  rw [encode_eq]
  induction s with
  | nil => rfl
  | cons c rest ih =>
    rw [List.flatMap_cons, entity_plain (plain c List.mem_cons_self),
      ih fun a present => plain a (List.mem_cons_of_mem _ present), List.singleton_append]

theorem encode_append (s e : List Char) : encode (s ++ e) = encode s ++ encode e := by
  rw [encode_eq, encode_eq, encode_eq, List.flatMap_append]

theorem encode_cons (c : Char) (e : List Char) : encode (c :: e) = entity c ++ encode e := by
  rw [encode_eq, encode_eq, List.flatMap_cons]

theorem encode_special (special : c ∈ ['<', '>', '"']) : entity c ∈ parts := by
  rw [List.mem_cons, List.mem_cons, List.mem_singleton] at special
  rcases special with rfl | rfl | rfl <;> decide

theorem mem_parts_of_suffix {part : List Char} (special : c ∈ ['<', '>', '"']) (suffix : part <:+ entity c)
    (left : part ≠ []) : part ∈ parts := by
  rw [List.mem_cons, List.mem_cons, List.mem_singleton] at special
  have inside := (List.mem_tails _ _).mpr suffix
  rcases special with rfl | rfl | rfl
  · have all : ∀ part ∈ (entity '<').tails, part ≠ [] → part ∈ parts := by decide
    exact all part inside left
  · have all : ∀ part ∈ (entity '>').tails, part ≠ [] → part ∈ parts := by decide
    exact all part inside left
  · have all : ∀ part ∈ (entity '"').tails, part ≠ [] → part ∈ parts := by decide
    exact all part inside left

/-- The end of a code begins with a plain character or with what is left of an entity. -/
theorem cases_of_suffix (kept : ∀ c ∈ s, c ∉ lost) (suffix : e <:+ encode s) :
    e = [] ∨ (∃ c x, e = c :: x ∧ IsPlain c) ∨ ∃ part ∈ parts, ∃ x, e = part ++ x := by
  induction s with
  | nil =>
    rw [encode_eq, List.flatMap_nil] at suffix
    exact Or.inl (List.suffix_nil.mp suffix)
  | cons a rest ih =>
    rw [encode_cons] at suffix
    obtain ⟨passed, same⟩ := suffix
    rcases List.append_eq_append_iff.mp same with ⟨part, whole, behind⟩ | ⟨more, -, within⟩
    · cases part with
      | nil => exact ih (fun b present => kept b (List.mem_cons_of_mem _ present)) (behind ▸ List.suffix_rfl)
      | cons c part =>
        right
        rcases Classical.em (a ∈ ['<', '>', '"']) with special | other
        · exact Or.inr ⟨c :: part, mem_parts_of_suffix special ⟨passed, whole.symm⟩ (List.cons_ne_nil _ _), _, behind⟩
        · have plain : IsPlain a := ⟨kept a List.mem_cons_self, other⟩
          have present : c ∈ entity a := by
            rw [whole]
            exact List.mem_append_right _ List.mem_cons_self
          rw [entity_plain plain, List.mem_singleton] at present
          exact Or.inl ⟨c, part ++ encode rest, behind, present ▸ plain⟩
    · exact ih (fun b present => kept b (List.mem_cons_of_mem _ present)) ⟨more, within.symm⟩

/-- A bracket or a quotation mark stands for at least eight characters. -/
def weight (c : Char) : ℕ := if c ∈ ['<', '>', '"'] then 8 else 1

theorem weight_decode (kept : ∀ c ∈ s, c ∉ lost) (suffix : e <:+ encode s) :
    ((decode e).map weight).sum ≤ e.length + 7 := by
  induction n : e.length using Nat.strongRecOn generalizing e with
  | ind n ih =>
    rcases cases_of_suffix kept suffix with rfl | ⟨c, x, rfl, plain⟩ | ⟨part, isPart, x, rfl⟩
    · rw [decode_nil]
      exact Nat.zero_le _
    · rw [List.length_cons] at n
      have rest := ih x.length (by omega) ((List.suffix_cons c x).trans suffix) rfl
      rw [decode_plain plain.1, List.map_cons, List.sum_cons, weight, if_neg plain.2]
      omega
    · obtain ⟨d, special, k, more, same⟩ := decode_part isPart x
      have nonempty : 0 < (part ++ x).length := by
        have all : ∀ part ∈ parts, 0 < part.length := by decide
        have := all part isPart
        rw [List.length_append]
        omega
      rw [same, List.map_cons, List.sum_cons, weight, if_pos special]
      rcases Nat.lt_or_ge k (part ++ x).length with long | short
      · have rest := ih ((part ++ x).drop k).length (by rw [List.length_drop]; omega)
          ((List.drop_suffix _ _).trans suffix) rfl
        rw [List.length_drop] at rest
        omega
      · rw [List.drop_eq_nil_of_le short, decode_nil, List.map_nil, List.sum_nil]
        omega

theorem weight_plain (plain : ∀ c ∈ s, IsPlain c) : (s.map weight).sum = s.length := by
  induction s with
  | nil => rfl
  | cons a rest ih =>
    rw [List.map_cons, List.sum_cons, ih fun b present => plain b (List.mem_cons_of_mem _ present), weight,
      if_neg (plain a List.mem_cons_self).2, List.length_cons, Nat.add_comm]

theorem length_encode (kept : ∀ c ∈ s, c ∉ lost) : (encode s).length ≤ (s.map weight).sum := by
  induction s with
  | nil =>
    rw [encode_eq]
    exact Nat.zero_le _
  | cons a rest ih =>
    have behind := ih fun b present => kept b (List.mem_cons_of_mem _ present)
    rw [encode_cons, List.length_append, List.map_cons, List.sum_cons]
    apply Nat.add_le_add ?_ behind
    rcases Classical.em (a ∈ ['<', '>', '"']) with special | other
    · rw [List.mem_cons, List.mem_cons, List.mem_singleton] at special
      rcases special with rfl | rfl | rfl <;> decide
    · rw [entity_plain ⟨kept a List.mem_cons_self, other⟩, weight, if_neg other]
      exact Nat.le_refl 1

/-- The first character that is not plain. -/
theorem plain_or_split (kept : ∀ c ∈ s, c ∉ lost) :
    (∀ c ∈ s, IsPlain c) ∨ ∃ w c rest, s = w ++ c :: rest ∧ (∀ a ∈ w, IsPlain a) ∧ c ∈ ['<', '>', '"'] := by
  induction s with
  | nil => exact Or.inl fun c absent => by cases absent
  | cons a rest ih =>
    rcases Classical.em (a ∈ ['<', '>', '"']) with special | other
    · exact Or.inr ⟨[], a, rest, rfl, (fun c absent => by cases absent), special⟩
    · have plain : IsPlain a := ⟨kept a List.mem_cons_self, other⟩
      rcases ih fun b present => kept b (List.mem_cons_of_mem _ present) with all | ⟨w, c, rest', same, before, special⟩
      · exact Or.inl (List.forall_mem_cons.mpr ⟨plain, all⟩)
      · exact Or.inr ⟨a :: w, c, rest', by rw [same, List.cons_append], List.forall_mem_cons.mpr ⟨plain, before⟩, special⟩

theorem decode_amp (x : List Char) : ∃ j, 7 ≤ j ∧ decode ('&' :: x) = '<' :: decode (x.drop j) := by
  obtain ⟨j, more, same⟩ := pass2_amp (Or.inl rfl) x
  exact ⟨j, more, decode_lt same⟩

theorem entity_special (special : c ∈ ['<', '>', '"']) : ∃ name, entity c = '&' :: name := by
  rw [List.mem_cons, List.mem_cons, List.mem_singleton] at special
  rcases special with rfl | rfl | rfl <;> exact ⟨_, rfl⟩

/-- Behind a bracket that is decoded as it was nothing else is. -/
theorem eq_nil_of_decode_drop {m : ℕ} (kept : ∀ c ∈ s, c ∉ lost) (more : 4 ≤ m) (same : decode ((encode s).drop m) = s) :
    s = [] := by
  by_contra nonempty
  have long : m < (encode s).length := by
    by_contra short
    rw [List.drop_eq_nil_of_le (by omega), decode_nil] at same
    exact nonempty same.symm
  have weights := weight_decode kept (List.drop_suffix m (encode s))
  rw [same, List.length_drop] at weights
  rcases plain_or_split kept with plain | ⟨u, d, v, split, before, special⟩
  · -- nothing is replaced, but something is skipped
    rw [encode_plain plain, ← List.append_nil (s.drop m), decode_plain_append fun c present =>
      (plain c (List.mem_of_mem_drop present)).1, decode_nil, List.append_nil] at same
    have lengths := congrArg List.length same
    rw [encode_plain plain] at long
    rw [List.length_drop] at lengths
    omega
  subst split
  have keptV : ∀ c ∈ v, c ∉ lost := fun c present =>
    kept c (List.mem_append_right _ (List.mem_cons_of_mem _ present))
  have lengthV := length_encode keptV
  have code : encode (u ++ d :: v) = u ++ (entity d ++ encode v) := by
    rw [encode_append, encode_plain before, encode_cons]
  rw [code, List.map_append, List.sum_append, weight_plain before, List.map_cons, List.sum_cons, weight,
    if_pos special, List.length_append, List.length_append] at weights
  obtain ⟨rfl, few⟩ : d = '"' ∧ m ≤ 5 := by
    rw [code, List.length_append, List.length_append] at long
    rw [List.mem_cons, List.mem_cons, List.mem_singleton] at special
    rcases special with rfl | rfl | rfl
    · change _ ≤ u.length + (4 + (encode v).length) - m + 7 at weights
      change m < u.length + (4 + (encode v).length) at long
      omega
    · change _ ≤ u.length + (4 + (encode v).length) - m + 7 at weights
      change m < u.length + (4 + (encode v).length) at long
      omega
    · change _ ≤ u.length + (6 + (encode v).length) - m + 7 at weights
      change m < u.length + (6 + (encode v).length) at long
      exact ⟨rfl, by omega⟩
  rw [code] at same
  rcases Nat.lt_or_ge u.length m with beyond | within
  · -- the quotation mark is skipped in part
    have part : (u ++ (entity '"' ++ encode v)).drop m = (entity '"').drop (m - u.length) ++ encode v := by
      rw [List.drop_append, List.drop_eq_nil_of_le (by omega), List.nil_append,
        List.drop_append_of_le_length (show m - u.length ≤ 6 by omega)]
    have isPart : ∀ k, 1 ≤ k → k ≤ 5 → (entity '"').drop k ∈ parts := by decide
    rw [part] at same
    cases u with
    | nil =>
      have either : m = 4 ∨ m = 5 := by omega
      rcases either with rfl | rfl
      · obtain ⟨j, -, bracket⟩ := pass2_t (encode v)
        have begins := (decode_lt bracket).symm.trans same
        exact absurd (List.cons.inj begins).1 (by decide)
      · obtain ⟨j, -, bracket⟩ := pass2_amp (Or.inr rfl) (encode v)
        have begins := (decode_lt bracket).symm.trans same
        exact absurd (List.cons.inj begins).1 (by decide)
    | cons a u =>
      obtain ⟨d, isSpecial, n, -, begins⟩ := decode_part
        (isPart (m - (a :: u).length) (by omega) (by omega)) (encode v)
      rw [begins] at same
      obtain ⟨first, -⟩ := List.cons.inj same
      exact (before a List.mem_cons_self).2 (first ▸ isSpecial)
  · -- the bracket that it becomes stands where a plain character was
    obtain ⟨j, -, bracket⟩ := decode_amp (['q', 'u', 'o', 't', ';'] ++ encode v)
    rw [List.drop_append_of_le_length within, decode_plain_append fun c present =>
      (before c (List.mem_of_mem_drop present)).1] at same
    have behind := same
    rw [show entity '"' ++ encode v = '&' :: (['q', 'u', 'o', 't', ';'] ++ encode v) from rfl, bracket] at behind
    have here := congrArg (fun l => l[u.length - m]?) behind
    rw [List.getElem?_append_right (by rw [List.length_drop]), List.length_drop, Nat.sub_self,
      List.getElem?_cons_zero, List.getElem?_append_left (by omega)] at here
    exact (before '<' (List.mem_of_getElem? here.symm)).2 (by decide)

/-- Decoding gives back a text exactly when it has none of the characters of an entity and no bracket or quotation
mark but a left bracket at its end. -/
theorem decode_encode_eq_self_iff (s : List Char) :
    decode (encode s) = s ↔ ∃ w, (s = w ∨ s = w ++ ['<']) ∧ ∀ c ∈ w, IsPlain c := by
  constructor
  · intro same
    have kept : ∀ c ∈ s, c ∉ lost := fun c present => not_mem_lost_of_mem_decode (same ▸ present)
    rcases plain_or_split kept with plain | ⟨w, c, rest, split, before, special⟩
    · exact ⟨s, Or.inl rfl, plain⟩
    · subst split
      obtain ⟨name, begins⟩ := entity_special special
      obtain ⟨j, more, bracket⟩ := decode_amp (name ++ encode rest)
      rw [encode_append, encode_plain before, encode_cons, begins, List.cons_append,
        decode_plain_append (fun a present => (before a present).1), bracket] at same
      obtain ⟨first, behind⟩ := List.cons.inj (List.append_cancel_left same)
      subst first
      cases begins
      refine ⟨w, Or.inr ?_, before⟩
      have keptRest : ∀ a ∈ rest, a ∉ lost := fun a present =>
        kept a (List.mem_append_right _ (List.mem_cons_of_mem _ present))
      have skipped : (['l', 't', ';'] ++ encode rest).drop j = (encode rest).drop (j - 3) := by
        rw [List.drop_append, List.drop_eq_nil_of_le (show 3 ≤ j by omega), List.nil_append]
        rfl
      rw [skipped] at behind
      rw [eq_nil_of_decode_drop keptRest (show 4 ≤ j - 3 by omega) behind]
  · rintro ⟨w, rfl | rfl, plain⟩
    · have unchanged := decode_plain_append (fun c present => (plain c present).1) []
      rw [encode_plain plain]
      rwa [List.append_nil, decode_nil, List.append_nil] at unchanged
    · rw [encode_append, encode_plain plain, decode_plain_append fun c present => (plain c present).1]
      congr 1
      rw [encode_eq, decode_eq]
      decide

/-- Decoding takes the letter for the begin of an ampersand, and the ampersand for the begin of a bracket. -/
theorem decode_encode_a : decode (encode ['a']) = ['<'] ∧ decode (encode ['a']) ≠ ['a'] := by
  rw [encode_eq, decode_eq]
  decide

end H5Server.Codec.HTML
