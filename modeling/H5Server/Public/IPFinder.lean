import Mathlib.Data.Nat.Basic
import Mathlib.Tactic.SplitIfs
import Mathlib.Order.Basic

/-! # The IP database (`IPFinder.cpp`)

An index of seven-byte entries, each a start address and the offset of a record. A record names a country and an area,
which may stand elsewhere in the file.
-/

namespace H5Server.Public

abbrev Byte := BitVec 8

/-- `m_fpIpDataFile` with the offsets that `Open` reads from its first eight bytes. -/
structure IpFinder where
  file : List Byte
  indexStart : Nat
  indexEnd : Nat

def indexLength : Nat := 7

def ipLength : Nat := 4

def redirectMode1 : Nat := 1

def redirectMode2 : Nat := 2

/-- `fgetc(..) & 0xFF`: behind the end of the file it is `EOF`. -/
def fgetc (file : List Byte) (pos : Nat) : Nat := (file[pos]?.map BitVec.toNat).getD 255

def getValue3 (file : List Byte) (indexStart : Nat) : Nat :=
  [2, 1, 0].foldl (fun value j => value * 0x100 + fgetc file (indexStart + j)) 0

def getValue4 (file : List Byte) (indexStart : Nat) : Nat :=
  [3, 2, 1, 0].foldl (fun value j => value * 0x100 + fgetc file (indexStart + j)) 0

def IpFinder.open_ (file : List Byte) : IpFinder := ⟨file, getValue4 file 0, getValue4 file 4⟩

/-! ## Search -/

/-- Divided before multiplied, so that it points at a whole entry. -/
def middle (left right : Nat) : Nat := (right - left) / indexLength / 2 * indexLength + left

theorem middle_le {left right : Nat} (le : left ≤ right) : middle left right ≤ right := by
  rw [middle, indexLength]
  omega

/-- The loop of `SearchIp`, from two bounds with their middle. -/
def searchLoop (file : List Byte) (ipValue left right : Nat) : Nat :=
  let mid := middle left right
  if ipValue < getValue4 file mid then
    if left < middle left mid then searchLoop file ipValue left mid else middle left mid
  else
    if mid < middle mid right then searchLoop file ipValue mid right else middle mid right
termination_by right - left
decreasing_by
  all_goals
    have mid_eq : mid = (right - left) / 7 / 2 * 7 + left := rfl
    simp only [middle, indexLength] at *
    omega

/-- `SearchIp` with default bounds. -/
def IpFinder.searchIp (finder : IpFinder) (ipValue : Nat) : Nat :=
  searchLoop finder.file ipValue finder.indexStart finder.indexEnd

/-! ## Addresses -/

/-- `GetString`: the bytes up to a zero, and their number with it. Without a zero the loop reads `EOF` for ever. -/
def getString (file : List Byte) (indexStart : Nat) : Option (List Byte × Nat) :=
  let rest := file.drop indexStart
  if rest.contains 0 then some (rest.takeWhile (· ≠ 0), (rest.takeWhile (· ≠ 0)).length + 1) else none

/-- The country of a record, and where its area stands. -/
def readCountry (file : List Byte) (offset : Nat) : Option (List Byte × Nat) :=
  let val := fgetc file offset
  if val = redirectMode1 then
    let redirect := getValue3 file (offset + 1)
    if fgetc file redirect = redirectMode2 then
      (getString file (getValue3 file (redirect + 1))).map fun (country, _) => (country, redirect + 4)
    else (getString file redirect).map fun (country, count) => (country, redirect + count)
  else if val = redirectMode2 then
    (getString file (getValue3 file (offset + 1))).map fun (country, _) => (country, offset + 4)
  else (getString file offset).map fun (country, count) => (country, offset + count)

/-- Where the area is read: each test of the mode reads a byte of its own. -/
def locationOffset (file : List Byte) (offset : Nat) : Nat :=
  if fgetc file offset = redirectMode2 ∨ fgetc file (offset + 1) = redirectMode1 then getValue3 file (offset + 1)
  else offset

/-- `GetAddressByOffset`: country and area, or nothing when a read never ends. -/
def getAddressByOffset (file : List Byte) (offset : Nat) : Option (List Byte × List Byte) := do
  let (country, location) ← readCountry file (offset + ipLength)
  let (area, _) ← getString file (locationOffset file location)
  return (country, area)

/-! ## The search is exact below the last entry -/

section Search

variable {finder : IpFinder} {ipValue : Nat}

/-- The start address of an entry. -/
def IpFinder.header (finder : IpFinder) (i : Nat) : Nat := getValue4 finder.file (finder.indexStart + indexLength * i)

/-- An index of so many entries, sorted by their start addresses. -/
structure IpFinder.Indexed (finder : IpFinder) (n : Nat) : Prop where
  pos : 0 < n
  end_eq : finder.indexEnd = finder.indexStart + indexLength * (n - 1)
  increasing : ∀ i j, i < j → j < n → finder.header i < finder.header j

/-- The offset of the last entry whose start address is not above the value. -/
def IpFinder.IsLastBelow (finder : IpFinder) (n ipValue offset : Nat) : Prop :=
  ∃ k < n, offset = finder.indexStart + indexLength * k ∧ finder.header k ≤ ipValue ∧
    ∀ j, k < j → j < n → ipValue < finder.header j

theorem middle_entry (start a b : Nat) (le : a ≤ b) :
    middle (start + indexLength * a) (start + indexLength * b) = start + indexLength * (a + (b - a) / 2) := by
  simp only [middle, indexLength]
  omega

/-- Between two entries the loop finds the last one not above the value, but never the upper one. -/
theorem searchLoop_spec {n : Nat} (indexed : finder.Indexed n) (width a b : Nat) (width_eq : b - a = width) (le : a ≤ b)
    (bound : b < n) (low : finder.header a ≤ ipValue) :
    ∃ k, searchLoop finder.file ipValue (finder.indexStart + indexLength * a) (finder.indexStart + indexLength * b) =
        finder.indexStart + indexLength * k ∧ a ≤ k ∧ (k < b ∨ a = b ∧ k = b) ∧ finder.header k ≤ ipValue ∧
      ∀ j, k < j → j < b → ipValue < finder.header j := by
  induction width using Nat.strong_induction_on generalizing a b with
  | _ width ih =>
    rw [searchLoop, middle_entry _ _ _ le]
    obtain ⟨m, m_eq⟩ : ∃ m, m = a + (b - a) / 2 := ⟨_, rfl⟩
    rw [← m_eq]
    change ∃ k, (if ipValue < finder.header m then _ else _) = _ ∧ _
    rcases lt_or_ge ipValue (finder.header m) with above | below
    · have upper : a < m := by
        rcases Nat.eq_or_lt_of_le (show a ≤ m by omega) with same | less
        · rw [← same] at above
          omega
        · exact less
      have later : ∀ j, m ≤ j → j < b → ipValue < finder.header j := by
        intro j from_ inside
        rcases Nat.eq_or_lt_of_le from_ with rfl | less
        · exact above
        · exact above.trans (indexed.increasing m j less (by omega))
      rw [if_pos above, middle_entry _ _ _ upper.le]
      split_ifs with shrinks
      · obtain ⟨k, found, from_, inside, under, none_⟩ := ih (m - a) (by omega) a m rfl upper.le (by omega) low
        refine ⟨k, found, from_, .inl (by omega), under, fun j behind inside => ?_⟩
        rcases lt_or_ge j m with first | second
        · exact none_ j behind first
        · exact later j second inside
      · refine ⟨a, ?_, le_rfl, .inl (by omega), low, fun j behind inside => later j ?_ inside⟩
        · simp only [indexLength] at shrinks ⊢
          omega
        · simp only [indexLength] at shrinks
          omega
    · have within : m ≤ b := by omega
      rw [if_neg below.not_gt, middle_entry _ _ _ within]
      split_ifs with shrinks
      · simp only [indexLength] at shrinks
        obtain ⟨k, found, from_, inside, under, none_⟩ := ih (b - m) (by omega) m b rfl within bound below
        exact ⟨k, found, by omega, by omega, under, none_⟩
      · simp only [indexLength] at shrinks
        refine ⟨m, ?_, by omega, by omega, below, fun j behind inside => by omega⟩
        simp only [indexLength]
        omega

/-- The search is exact unless the last entry is wanted among several. -/
theorem searchIp_iff {n : Nat} (indexed : finder.Indexed n) (low : finder.header 0 ≤ ipValue) :
    finder.IsLastBelow n ipValue (finder.searchIp ipValue) ↔ n = 1 ∨ ipValue < finder.header (n - 1) := by
  have pos := indexed.pos
  obtain ⟨k, found, -, inside, under, none_⟩ :=
    searchLoop_spec indexed (n - 1 - 0) 0 (n - 1) rfl (Nat.zero_le _) (by omega) low
  have result : finder.searchIp ipValue = finder.indexStart + indexLength * k := by
    rw [IpFinder.searchIp, indexed.end_eq, ← found]
    rfl
  constructor
  · rintro ⟨last, bound, same, -, above⟩
    rw [result] at same
    simp only [indexLength] at same
    obtain rfl : k = last := by omega
    rcases inside with before | ⟨single, -⟩
    · exact .inr (above (n - 1) before (by omega))
    · exact .inl (by omega)
  · intro either
    refine ⟨k, by omega, result, under, fun j behind bound => ?_⟩
    rcases Nat.lt_or_ge j (n - 1) with before | last
    · exact none_ j behind before
    · obtain rfl : j = n - 1 := by omega
      exact either.resolve_left (by omega)

/-- Two entries at offset eight, for addresses from 0 and from 1 on. -/
def twoEntries : IpFinder := .open_ [8, 0, 0, 0, 15, 0, 0, 0, 0, 0, 0, 0, 0, 0, 0, 1, 0, 0, 0, 0, 0, 0]

theorem indexed_twoEntries : twoEntries.Indexed 2 where
  pos := by decide
  end_eq := by decide
  increasing i j less bound := by
    obtain rfl : i = 0 := by omega
    obtain rfl : j = 1 := by omega
    decide

/-- The last entry is not found for its own start address. -/
theorem searchIp_last : twoEntries.Indexed 2 ∧ twoEntries.header 0 ≤ 1 ∧
    ¬twoEntries.IsLastBelow 2 1 (twoEntries.searchIp 1) := by
  refine ⟨indexed_twoEntries, by decide, ?_⟩
  have result : twoEntries.searchIp 1 = 8 := by
    rw [IpFinder.searchIp, searchLoop]
    decide
  rw [result]
  rintro ⟨k, bound, same, -, above⟩
  have start : twoEntries.indexStart = 8 := by decide
  simp only [start, indexLength] at same
  obtain rfl : k = 0 := by omega
  exact absurd (above 1 (by decide) (by decide)) (by decide)

theorem searchIp_first : twoEntries.IsLastBelow 2 0 (twoEntries.searchIp 0) :=
  (searchIp_iff indexed_twoEntries (by decide)).mpr (.inr (by decide))

end Search

/-! ## Records -/

section Records

variable {file : List Byte} {offset location : Nat} {country area : List Byte}

/-- A string up to its zero, and where the bytes behind it begin. -/
def StringAt (file : List Byte) (offset : Nat) (text : List Byte) (next : Nat) : Prop :=
  ∃ rest, file.drop offset = text ++ 0 :: rest ∧ 0 ∉ text ∧ next = offset + text.length + 1

/-- How a country is stored: in place, or behind a redirection, which the area may follow on either side. -/
inductive CountryAt (file : List Byte) (offset : Nat) (country : List Byte) : Nat → Prop
  | direct {next : Nat} (mode1 : fgetc file offset ≠ redirectMode1) (mode2 : fgetc file offset ≠ redirectMode2)
      (text : StringAt file offset country next) : CountryAt file offset country next
  | moved {next : Nat} (mode1 : fgetc file offset = redirectMode1)
      (mode2 : fgetc file (getValue3 file (offset + 1)) ≠ redirectMode2)
      (text : StringAt file (getValue3 file (offset + 1)) country next) : CountryAt file offset country next
  | movedTwice {next : Nat} (mode1 : fgetc file offset = redirectMode1)
      (mode2 : fgetc file (getValue3 file (offset + 1)) = redirectMode2)
      (text : StringAt file (getValue3 file (getValue3 file (offset + 1) + 1)) country next) :
      CountryAt file offset country (getValue3 file (offset + 1) + 4)
  | apart {next : Nat} (mode2 : fgetc file offset = redirectMode2)
      (text : StringAt file (getValue3 file (offset + 1)) country next) : CountryAt file offset country (offset + 4)

/-- How an area is stored: in place, or behind a redirection of either mode. -/
inductive AreaAt (file : List Byte) (offset : Nat) (area : List Byte) : Prop
  | direct {next : Nat} (mode1 : fgetc file offset ≠ redirectMode1) (mode2 : fgetc file offset ≠ redirectMode2)
      (text : StringAt file offset area next)
  | moved {next : Nat} (mode : fgetc file offset = redirectMode1 ∨ fgetc file offset = redirectMode2)
      (text : StringAt file (getValue3 file (offset + 1)) area next)

theorem StringAt.getString {text : List Byte} {next : Nat} (stored : StringAt file offset text next) :
    getString file offset = some (text, text.length + 1) ∧ next = offset + (text.length + 1) := by
  obtain ⟨rest, eq, none_, rfl⟩ := stored
  have taken : (text ++ 0 :: rest).takeWhile (· ≠ 0) = text := by
    rw [List.takeWhile_append_of_pos]
    · simp
    · intro c present
      simpa using fun same : c = 0 => none_ (same ▸ present)
  refine ⟨?_, Nat.add_assoc _ _ _⟩
  rw [Public.getString, eq, if_pos (by simp), taken]

theorem CountryAt.readCountry (stored : CountryAt file offset country location) :
    readCountry file offset = some (country, location) := by
  rw [Public.readCountry]
  cases stored with
  | direct mode1 mode2 text =>
    obtain ⟨read, rfl⟩ := text.getString
    dsimp only
    rw [if_neg mode1, if_neg mode2, read]
    rfl
  | moved mode1 mode2 text =>
    obtain ⟨read, rfl⟩ := text.getString
    dsimp only
    rw [if_pos mode1, if_neg mode2, read]
    rfl
  | movedTwice mode1 mode2 text =>
    dsimp only
    rw [if_pos mode1, if_pos mode2, text.getString.1]
    rfl
  | apart mode2 text =>
    dsimp only
    rw [if_neg (by rw [mode2]; decide), if_pos mode2, text.getString.1]
    rfl

/-- A record is decoded as it is stored exactly when its area is tested as it is stored, or both places of the area
hold the same. -/
theorem getAddressByOffset_iff (stored : CountryAt file (offset + ipLength) country location)
    (area_ : AreaAt file location area) : getAddressByOffset file offset = some (country, area) ↔
      fgetc file location = redirectMode2 ∨
        (fgetc file location = redirectMode1 ↔ fgetc file (location + 1) = redirectMode1) ∨
        (getString file location).map Prod.fst = (getString file (getValue3 file (location + 1))).map Prod.fst := by
  have decoded : getAddressByOffset file offset = some (country, area) ↔
      (getString file (locationOffset file location)).map Prod.fst = some area := by
    rw [getAddressByOffset, stored.readCountry]
    dsimp only [Option.bind_eq_bind, Option.bind_some]
    cases getString file (locationOffset file location) <;> simp
  rw [decoded, locationOffset]
  cases area_ with
  | direct mode1 mode2 text =>
    have here : (getString file location).map Prod.fst = some area := by rw [text.getString.1]; rfl
    split_ifs with moved
    · have other := moved.resolve_left mode2
      simp [mode1, mode2, other, here, eq_comm]
    · obtain ⟨-, other⟩ := not_or.mp moved
      simp [mode1, other, here]
  | moved mode text =>
    have there : (getString file (getValue3 file (location + 1))).map Prod.fst = some area := by
      rw [text.getString.1]; rfl
    split_ifs with moved
    · rcases moved with mode2 | next
      · simp [mode2, there]
      · rcases mode with mode1 | mode2
        · simp [mode1, next, there]
        · simp [mode2, there]
    · obtain ⟨mode2, other⟩ := not_or.mp moved
      have mode1 := mode.resolve_right mode2
      simp [mode1, other, there, show redirectMode1 ≠ redirectMode2 by decide]

/-- A record at offset zero with the country in place and the area behind a redirection of some mode. -/
def movedArea (mode : Byte) : List Byte := [0, 0, 0, 0, 65, 0, mode, 10, 0, 0, 66, 0]

theorem countryAt_movedArea (mode : Byte) : CountryAt (movedArea mode) (0 + ipLength) [65] 6 :=
  .direct (by decide +revert) (by decide +revert) ⟨[mode, 10, 0, 0, 66, 0], rfl, by decide, rfl⟩

theorem areaAt_movedArea {mode : Byte} (redirects : mode = 1 ∨ mode = 2) : AreaAt (movedArea mode) 6 [66] := by
  rcases redirects with rfl | rfl
  · exact @AreaAt.moved _ _ _ 12 (.inl (by decide)) ⟨[], rfl, by decide, rfl⟩
  · exact @AreaAt.moved _ _ _ 12 (.inr (by decide)) ⟨[], rfl, by decide, rfl⟩

/-- An area behind a redirection of mode 1 is read where the redirection stands. -/
theorem getAddressByOffset_moved : CountryAt (movedArea 1) (0 + ipLength) [65] 6 ∧ AreaAt (movedArea 1) 6 [66] ∧
    getAddressByOffset (movedArea 1) 0 = some ([65], [1, 10]) ∧ getAddressByOffset (movedArea 1) 0 ≠ some ([65], [66]) :=
  ⟨countryAt_movedArea 1, areaAt_movedArea (.inl rfl), by decide, by decide⟩

theorem getAddressByOffset_mode2 : getAddressByOffset (movedArea 2) 0 = some ([65], [66]) :=
  (getAddressByOffset_iff (countryAt_movedArea 2) (areaAt_movedArea (.inr rfl))).mpr (.inl (by decide))

end Records

end H5Server.Public
