import H5Server.Ddz.Search
import Mathlib.Data.List.SplitBy
import Mathlib.Tactic.SplitIfs

/-! # Suggestions show cards of the hand

The search may suggest a card more often than the hand has it, but never a card that the hand does not
have, and in particular never a zero.
-/

namespace H5Server.Ddz

open Lib

theorem sortCardList_perm (cards : List ℕ) : (sortCardList cards).Perm cards := List.perm_insertionSort _ _

theorem sortCardList_subset (cards : List ℕ) : sortCardList cards ⊆ cards := (sortCardList_perm cards).subset

theorem subset_of_mem_sameBlocks {cards block : List ℕ} (found : block ∈ sameBlocks cards) : block ⊆ cards := by
  intro card present
  have all := List.flatten_splitBy (fun card card' => getCardLogicValue card == getCardLogicValue card') cards
  rw [← all]
  exact List.mem_flatten_of_mem found present

theorem subset_of_mem_analyse {cards block : List ℕ} {size : ℕ} (found : block ∈ analysebCardData cards size) :
    block ⊆ cards := by
  rw [analysebCardData] at found
  split_ifs at found
  · exact absurd found List.not_mem_nil
  · exact subset_of_mem_sameBlocks (List.mem_of_mem_filter found)

theorem subset_of_mem_blocksFrom {cards block : List ℕ} {size : ℕ} (found : block ∈ blocksFrom cards size) :
    block ⊆ cards := by
  obtain ⟨size', _, found⟩ := List.mem_flatMap.mp found
  exact subset_of_mem_analyse (List.mem_reverse.mp found)

theorem subset_of_mem_searchSameCard {handCard cards : List ℕ} {referCard sameCount : ℕ}
    (found : cards ∈ searchSameCard handCard referCard sameCount) : cards ⊆ handCard := by
  obtain ⟨block, whole, rfl⟩ := List.mem_map.mp found
  have inside := subset_of_mem_blocksFrom (List.mem_of_mem_filter whole)
  exact fun card present => sortCardList_subset handCard (inside (List.take_subset _ _ present))

theorem subset_of_takeCards {handCard cards same : List ℕ} {takeCardCount needCount : ℕ} {blocks : List (List ℕ)}
    (inside : ∀ block ∈ blocks, block ⊆ handCard) (held : same ⊆ handCard)
    (taken : takeCards takeCardCount needCount same blocks = some cards) : cards ⊆ handCard := by
  induction blocks generalizing same with
  | nil => contradiction
  | cons block blocks ih =>
    have later := fun other present => inside other (List.mem_cons_of_mem block present)
    have more : same ++ block.take takeCardCount ⊆ handCard :=
      List.append_subset.mpr ⟨held, List.Subset.trans (List.take_subset _ _) (inside block List.mem_cons_self)⟩
    rw [takeCards] at taken
    split_ifs at taken
    · exact ih later held taken
    · exact ih later more taken
    · exact (Option.some.inj taken) ▸ more

theorem subset_of_mem_searchTakeCardType {handCard cards : List ℕ} {referCard sameCount takeCardCount : ℕ}
    (found : cards ∈ searchTakeCardType handCard referCard sameCount takeCardCount) : cards ⊆ handCard := by
  rw [searchTakeCardType] at found
  dsimp only at found
  split_ifs at found
  · exact absurd found List.not_mem_nil
  all_goals
    obtain ⟨same, found, taken⟩ := List.mem_filterMap.mp found
    refine List.Subset.trans (subset_of_takeCards (fun block => subset_of_mem_blocksFrom) ?_ taken)
      (sortCardList_subset handCard)
    exact subset_of_mem_searchSameCard found

theorem lineCards_subset (cards : List ℕ) (blockCount valueIndex : ℕ) : lineCards cards blockCount valueIndex ⊆ cards := by
  intro card present
  obtain ⟨colorIndex, _, found⟩ := List.mem_flatMap.mp (List.take_subset _ _ present)
  obtain ⟨some_, rfl⟩ := List.mem_replicate.mp found
  exact List.count_pos_iff.mp (Nat.pos_of_ne_zero some_)

theorem lineFrom_subset (cards : List ℕ) (blockCount start length : ℕ) : lineFrom cards blockCount start length ⊆ cards := by
  intro card present
  obtain ⟨valueIndex, _, found⟩ := List.mem_flatMap.mp present
  exact lineCards_subset cards blockCount valueIndex found

/-- Every line found so far shows cards of the hand. -/
theorem linkValue_subset {cards : List ℕ} {blockCount lineCount less : ℕ} {found : ℕ × List (List ℕ)} {valueIndex : ℕ}
    (inside : ∀ line ∈ found.2, line ⊆ cards) :
    ∀ line ∈ (linkValue cards blockCount lineCount less found valueIndex).2, line ⊆ cards := by
  have more : ∀ start length, ∀ line ∈ found.2 ++ [lineFrom cards blockCount start length], line ⊆ cards := by
    intro start length line present
    rcases List.mem_append.mp present with old | new
    · exact inside line old
    · exact List.mem_singleton.mp new ▸ lineFrom_subset cards blockCount start length
  rw [linkValue]
  split_ifs
  · exact inside
  · exact more _ _
  · exact inside
  · exact more _ _

theorem foldl_linkValue_subset {cards : List ℕ} {blockCount lineCount less : ℕ} (values : List ℕ)
    {found : ℕ × List (List ℕ)} (inside : ∀ line ∈ found.2, line ⊆ cards) :
    ∀ line ∈ (values.foldl (linkValue cards blockCount lineCount less) found).2, line ⊆ cards := by
  induction values generalizing found with
  | nil => exact inside
  | cons value values ih => exact ih (linkValue_subset inside)

theorem subset_of_mem_searchLineCardType {handCard cards : List ℕ} {referCard blockCount lineCount : ℕ}
    (found : cards ∈ searchLineCardType handCard referCard blockCount lineCount) : cards ⊆ handCard := by
  refine List.Subset.trans ?_ (sortCardList_subset handCard)
  have lines := @foldl_linkValue_subset (sortCardList handCard) blockCount lineCount (lessLineCount blockCount lineCount)
    (List.range' (referIndex referCard (lessLineCount blockCount lineCount))
      (13 - referIndex referCard (lessLineCount blockCount lineCount)))
    (0, []) (fun _ impossible => absurd impossible List.not_mem_nil)
  rw [searchLineCardType] at found
  dsimp only at found
  split_ifs at found with none last ace
  · exact absurd found List.not_mem_nil
  · rcases List.mem_append.mp found with old | new
    · exact lines cards old
    · rw [List.mem_singleton.mp new]
      exact List.append_subset.mpr ⟨lineFrom_subset _ _ _ _, lineCards_subset _ _ _⟩
  · rcases List.mem_append.mp found with old | new
    · exact lines cards old
    · rw [List.mem_singleton.mp new]
      exact List.append_subset.mpr ⟨lineFrom_subset _ _ _ _, List.nil_subset _⟩
  · exact lines cards found

theorem distill_subset {cards wings : List ℕ} {takeCardCount lineCount : ℕ}
    (found : distill cards takeCardCount lineCount = some wings) : wings ⊆ cards := by
  rw [distill] at found
  dsimp only at found
  split_ifs at found
  · obtain rfl := Option.some.inj found
    intro card present
    obtain ⟨block, inside, held⟩ := List.mem_flatten.mp present
    exact subset_of_mem_analyse (List.drop_subset _ _ inside) held
  · obtain rfl := Option.some.inj found
    intro card present
    obtain ⟨block, inside, held⟩ := List.mem_flatten.mp present
    obtain ⟨whole, found', rfl⟩ := List.mem_map.mp (List.take_subset _ _ inside)
    exact subset_of_mem_blocksFrom found' (List.take_subset _ _ held)

/-! ## Planes -/

theorem removeCardList_getD_subset (removeCard cards : List ℕ) : (removeCardList removeCard cards).getD cards ⊆ cards := by
  rw [removeCardList]
  cases struck : strikeAll 0 cards removeCard with
  | none => exact List.Subset.refl _
  | some rest =>
    have left := strikeAll_subset struck
    exact fun card present => List.mem_of_mem_filter (left present)

theorem shorten_subset (line : List ℕ) (delCount : ℕ) : shorten line delCount ⊆ line :=
  List.Subset.trans (List.take_subset _ _) (removeCardList_getD_subset _ _)

theorem singleLineOf_subset {handCount : ℕ} {line short : List ℕ} (found : singleLineOf handCount line = some short) :
    short ⊆ line := by
  rw [singleLineOf] at found
  dsimp only at found
  split_ifs at found
  · exact (Option.some.inj found) ▸ shorten_subset _ _
  · exact (Option.some.inj found) ▸ List.Subset.refl _

theorem doubleLineOf_subset {handCard line short left : List ℕ} (found : doubleLineOf handCard line = some (short, left)) :
    short ⊆ line ∧ left ⊆ handCard := by
  rw [doubleLineOf] at found
  dsimp only at found
  split_ifs at found
  · obtain ⟨rfl, rfl⟩ := Prod.mk.inj (Option.some.inj found)
    exact ⟨shorten_subset _ _, List.take_subset _ _⟩
  · obtain ⟨rfl, rfl⟩ := Prod.mk.inj (Option.some.inj found)
    exact ⟨List.Subset.refl _, List.Subset.trans (List.take_subset _ _) (removeCardList_getD_subset _ _)⟩

theorem singleWing_subset {handCard line : List ℕ} (held : line ⊆ handCard) : singleWing handCard line ⊆ handCard :=
  List.append_subset.mpr
    ⟨held, fun _ present =>
      removeCardList_getD_subset _ _ (List.take_subset _ _ (List.drop_subset _ _ present))⟩

theorem doubleWing_subset {handCard line wing : List ℕ} (held : line ⊆ handCard)
    (found : doubleWing handCard line = some wing) : wing ⊆ handCard := by
  obtain ⟨⟨short, left⟩, lines, found⟩ := Option.bind_eq_some_iff.mp found
  obtain ⟨wings, distilled, found⟩ := Option.bind_eq_some_iff.mp found
  obtain rfl := Option.some.inj found
  obtain ⟨inside, behind⟩ := doubleLineOf_subset lines
  exact List.append_subset.mpr ⟨List.Subset.trans inside held, List.Subset.trans (distill_subset distilled) behind⟩

/-- The first slot is that of the first line, or shows nothing. -/
theorem wingSlots_take_one (wings : List (Option (List ℕ))) {cards : List ℕ} (found : cards ∈ (wingSlots wings).take 1) :
    cards = [] ∨ ∃ rest, wings = some cards :: rest := by
  cases wings with
  | nil => contradiction
  | cons first rest =>
    cases first with
    | some wing =>
      have same : cards = wing := by
        simpa [wingSlots, List.mapIdx_cons] using found
      exact .inr ⟨rest, by rw [same]⟩
    | none =>
      left
      rw [wingSlots] at found
      cases shown : (none :: rest).filterMap id with
      | nil =>
        rw [shown] at found
        contradiction
      | cons wing others =>
        rw [shown] at found
        simpa [List.mapIdx_cons] using found

theorem searchThreeTwoLine_take_one_subset {hand cards : List ℕ} (found : cards ∈ (searchThreeTwoLine hand).take 1) :
    cards ⊆ hand := by
  have held : ∀ line short, line ∈ searchLineCardType hand 0 3 0 → singleLineOf hand.length line = some short →
      short ⊆ hand := fun line short present shortened =>
    List.Subset.trans (singleLineOf_subset shortened) (subset_of_mem_searchLineCardType present)
  rw [searchThreeTwoLine] at found
  rw [List.take_append] at found
  rcases List.mem_append.mp found with double | single
  · rcases wingSlots_take_one _ double with rfl | ⟨rest, slots⟩
    · exact List.nil_subset hand
    · have first : some cards ∈ (some cards :: rest) := List.mem_cons_self
      rw [← slots, List.map_map] at first
      obtain ⟨line, present, winged⟩ := List.mem_map.mp first
      obtain ⟨short, shortened, winged⟩ := Option.bind_eq_some_iff.mp winged
      exact doubleWing_subset (held line short present shortened) winged
  · rcases wingSlots_take_one _ (List.take_subset_take_left _ (Nat.sub_le 1 _) single) with rfl | ⟨rest, slots⟩
    · exact List.nil_subset hand
    · have first : some cards ∈ (some cards :: rest) := List.mem_cons_self
      rw [← slots, List.map_map] at first
      obtain ⟨line, present, winged⟩ := List.mem_map.mp first
      obtain ⟨short, shortened, rfl⟩ := Option.map_eq_some_iff.mp winged
      exact singleWing_subset (held line short present shortened)

/-! ## All suggestions -/

theorem smallestSame_subset (hand : List ℕ) : smallestSame hand ⊆ hand := by
  rw [smallestSame]
  split_ifs
  · intro card present
    exact List.mem_reverse.mp (List.takeWhile_subset _ present)
  · exact List.nil_subset hand

/-- The rocket is suggested where it is in front. -/
theorem missile_subset {hand cards : List ℕ}
    (found : cards ∈ if hand.take 2 = [0x4F, 0x4E] then [[0x4F, 0x4E]] else []) : cards ⊆ hand := by
  split_ifs at found with front
  · rw [List.mem_singleton.mp found, ← front]
    exact List.take_subset 2 hand
  · exact absurd found List.not_mem_nil

theorem subset_of_mem_searchLead {hand cards : List ℕ} (found : cards ∈ searchLead hand) : cards ⊆ hand := by
  have other : ∀ {count cards'}, cards' ∈ (if (smallestSame hand).length = count then []
      else (searchSameCard hand 0 count).take 1) → cards' ⊆ hand := by
    intro count cards' found
    split_ifs at found
    · exact absurd found List.not_mem_nil
    · exact subset_of_mem_searchSameCard (List.take_subset _ _ found)
  rw [searchLead] at found
  simp only [List.mem_append, or_assoc] at found
  rcases found with whole | same | single | double | three | takeOne | takeTwo | line | line | line | plane | four | missile
  · split_ifs at whole
    · exact (List.mem_singleton.mp whole) ▸ List.Subset.refl hand
    · exact absurd whole List.not_mem_nil
  · split_ifs at same
    · exact (List.mem_singleton.mp same) ▸ smallestSame_subset hand
    · exact absurd same List.not_mem_nil
  · exact other single
  · exact other double
  · exact other three
  · exact subset_of_mem_searchTakeCardType (List.take_subset _ _ takeOne)
  · exact subset_of_mem_searchTakeCardType (List.take_subset _ _ takeTwo)
  · exact subset_of_mem_searchLineCardType (List.take_subset _ _ line)
  · exact subset_of_mem_searchLineCardType (List.take_subset _ _ line)
  · exact subset_of_mem_searchLineCardType (List.take_subset _ _ line)
  · exact searchThreeTwoLine_take_one_subset plane
  · exact other four
  · exact missile_subset missile

theorem subset_of_mem_searchPlane {hand turnCard cards : List ℕ} {takeCardCount : ℕ}
    (found : cards ∈ searchPlane hand turnCard takeCardCount) : cards ⊆ hand := by
  obtain ⟨line, present, winged⟩ := List.mem_filterMap.mp found
  obtain ⟨wings, distilled, rfl⟩ := Option.map_eq_some_iff.mp winged
  exact List.append_subset.mpr ⟨subset_of_mem_searchLineCardType present,
    List.Subset.trans (distill_subset distilled) (List.take_subset _ _)⟩

theorem subset_of_mem_searchThreeTake {hand turnCard cards : List ℕ} {takeCardCount : ℕ}
    (found : cards ∈ searchThreeTake hand turnCard takeCardCount) : cards ⊆ hand := by
  rw [searchThreeTake] at found
  split_ifs at found
  · exact absurd found List.not_mem_nil
  · exact subset_of_mem_searchTakeCardType found
  · exact subset_of_mem_searchPlane found

theorem subset_of_mem_searchSameType {hand turnCard cards : List ℕ} (found : cards ∈ searchSameType hand turnCard) :
    cards ⊆ hand := by
  rw [searchSameType] at found
  split at found
  case h_1 | h_2 | h_3 => exact subset_of_mem_searchSameCard found
  case h_4 | h_5 | h_6 => exact subset_of_mem_searchLineCardType found
  case h_7 | h_8 => exact subset_of_mem_searchThreeTake found
  case h_9 | h_10 => exact subset_of_mem_searchTakeCardType found
  case h_11 => exact absurd found List.not_mem_nil

theorem subset_of_mem_searchBombs {hand turnCard cards : List ℕ} (found : cards ∈ searchBombs hand turnCard) :
    cards ⊆ hand := by
  rw [searchBombs] at found
  split at found
  · exact absurd found List.not_mem_nil
  · rcases List.mem_append.mp found with four | missile
    · split at four
      · exact subset_of_mem_searchSameCard four
      · exact absurd four List.not_mem_nil
    · exact missile_subset missile

/-- Whatever is suggested shows cards of the hand only. -/
theorem subset_of_mem_searchOutCard {hand turnCard cards : List ℕ} (found : cards ∈ searchOutCard hand turnCard) :
    cards ⊆ hand := by
  refine List.Subset.trans ?_ (sortCardList_subset hand)
  rw [searchOutCard] at found
  split_ifs at found
  · exact subset_of_mem_searchLead found
  · rcases List.mem_append.mp found with same | bomb
    · exact subset_of_mem_searchSameType same
    · exact subset_of_mem_searchBombs bomb

end H5Server.Ddz
