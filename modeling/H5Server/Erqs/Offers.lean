import H5Server.Erqs.Actions

/-! # Offers

What the searches put on offer: the shape of an offered meld, the tiles it takes from the hand, and
the option bits that announce it.
-/

namespace H5Server.Erqs

/-! ## Shapes -/

def isClaimType (type : MjType) : Bool := isChiType type || type == .peng || type == .dianGang

namespace CPG

/-- The tiles of a meld of this type. -/
def WellFormed (cpg : CPG) : Prop :=
  match cpg.type with
  | .leftChi | .centerChi | .rightChi => cpg.cards.count cpg.targetCard = 1 ∧ cpg.cards.length = 3
  | .peng => cpg.cards = List.replicate 3 cpg.targetCard
  | .anGang | .dianGang | .jiaGang => cpg.cards = List.replicate 4 cpg.targetCard
  | .ting | .hu => False

/-- The tiles the meld takes from the hand. -/
def taken (cpg : CPG) : List Int :=
  match cpg.type with
  | .leftChi | .centerChi | .rightChi => cpg.cards.filter (· ≠ cpg.targetCard)
  | .peng => List.replicate 2 cpg.targetCard
  | .anGang => List.replicate 4 cpg.targetCard
  | .dianGang => List.replicate 3 cpg.targetCard
  | .jiaGang => [cpg.targetCard]
  | .ting | .hu => []

/-- A claimed meld consists of the tiles taken from the hand and the claimed tile. -/
theorem WellFormed.count_claim {cpg : CPG} (formed : cpg.WellFormed) (claim : isClaimType cpg.type = true)
    (tile : Int) :
    cpg.cards.count tile = cpg.taken.count tile + if tile = cpg.targetCard then 1 else 0 := by
  have chi : cpg.cards.count cpg.targetCard = 1 → cpg.cards.count tile =
      (cpg.cards.filter (· ≠ cpg.targetCard)).count tile + if tile = cpg.targetCard then 1 else 0 := by
    intro one
    split
    · next same =>
      subst same
      have gone : (cpg.cards.filter (· ≠ cpg.targetCard)).count cpg.targetCard = 0 := by
        simp only [List.count_eq_zero, List.mem_filter, ne_eq, not_true_eq_false, decide_false,
          Bool.false_eq_true, and_false, not_false_eq_true]
      omega
    · next other => rw [List.count_filter (by simpa using other), Nat.add_zero]
  obtain ⟨type, cards, targetCard, chair⟩ := cpg
  cases type
  case leftChi | centerChi | rightChi => exact chi formed.1
  case peng | dianGang =>
    simp only [WellFormed, taken] at formed ⊢
    subst formed
    simp only [List.count_replicate, beq_iff_eq, eq_comm (a := targetCard)]
    split <;> rfl
  all_goals exact absurd claim Bool.false_ne_true

theorem WellFormed.length_taken_chi {cpg : CPG} (formed : cpg.WellFormed) (chi : isChiType cpg.type = true) :
    cpg.taken.length = 2 := by
  have shape : cpg.cards.count cpg.targetCard = 1 ∧ cpg.cards.length = 3 →
      (cpg.cards.filter (· ≠ cpg.targetCard)).length = 2 := by
    rintro ⟨one, three⟩
    have parts := cpg.cards.length_eq_countP_add_countP (· == cpg.targetCard)
    rw [← List.countP_eq_length_filter]
    simp only [List.count, beq_iff_eq, decide_not] at one parts ⊢
    omega
  obtain ⟨type, cards, targetCard, chair⟩ := cpg
  cases type
  case leftChi | centerChi | rightChi => exact shape formed
  all_goals cases chi

end CPG

/-! ## The search -/

/-- The next rank of a suit is the next index. -/
private theorem getCardIdx_succ {card : Int} (valid : isValidCard card = true) (suit : card ≤ 0x29)
    (rank : getCardValue card ≤ 8) :
    isValidCard (card + 1) = true ∧ getCardIdx (card + 1) = getCardIdx card + 1 ∧
      getCardValue (card + 1) = getCardValue card + 1 := by
  simp only [isValidCard, decide_eq_true_eq, getCardValue] at valid rank ⊢
  refine ⟨by omega, ?_, by omega⟩
  unfold getCardIdx
  repeat' split
  all_goals omega

private theorem getCardIdx_pred {card : Int} (valid : isValidCard card = true) (suit : card ≤ 0x29)
    (rank : 2 ≤ getCardValue card) :
    isValidCard (card - 1) = true ∧ getCardIdx (card - 1) = getCardIdx card - 1 ∧
      getCardValue (card - 1) = getCardValue card - 1 := by
  simp only [isValidCard, decide_eq_true_eq, getCardValue] at valid rank ⊢
  refine ⟨by omega, ?_, by omega⟩
  unfold getCardIdx
  repeat' split
  all_goals omega

/-- A valid tile with copies in the table. -/
def InTable (table : Table) (card : Int) : Prop :=
  isValidCard card = true ∧ 0 < table.get (getCardIdx card)

/-- A chi takes the two other tiles of the straight, which the table holds. -/
theorem findChiInTable_spec {table : Table} {targetCard : Int} {cpg : CPG}
    (found : cpg ∈ findChiInTable table targetCard) :
    isChiType cpg.type = true ∧ cpg.targetCard = targetCard ∧ cpg.WellFormed ∧
      ∃ first second, cpg.taken = [first, second] ∧ first ≠ second ∧
        (isValidCard targetCard = true → InTable table first ∧ InTable table second) := by
  unfold findChiInTable at found
  split at found
  · exact absurd found List.not_mem_nil
  split at found
  · exact absurd found List.not_mem_nil
  next suit =>
  have suit : targetCard ≤ 0x29 := Int.not_lt.mp suit
  simp only [List.mem_append] at found
  obtain (found | found) | found := found
  all_goals
    split at found
    on_goal 2 => exact absurd found List.not_mem_nil
    rw [List.mem_singleton] at found
    subst found
    refine ⟨rfl, rfl, ?_, ?_⟩
  · simp [CPG.WellFormed]
  · next held =>
    obtain ⟨rank, near, far⟩ := held
    refine ⟨targetCard + 1, targetCard + 2, by simp [CPG.taken], by omega, fun valid => ?_⟩
    obtain ⟨valid₁, idx₁, rank₁⟩ := getCardIdx_succ valid suit (by omega)
    obtain ⟨valid₂, idx₂, -⟩ := getCardIdx_succ valid₁
      (by simp only [isValidCard, decide_eq_true_eq, getCardValue] at valid₁ rank; omega) (by omega)
    rw [Int.add_assoc, show (1 + 1 : Int) = 2 from rfl] at valid₂ idx₂
    exact ⟨⟨valid₁, idx₁ ▸ near⟩, ⟨valid₂, by rw [idx₂, idx₁]; exact far⟩⟩
  · simp [CPG.WellFormed]
  · next held =>
    obtain ⟨notOne, notNine, near, far⟩ := held
    refine ⟨targetCard - 1, targetCard + 1, by simp [CPG.taken], by omega, fun valid => ?_⟩
    have ranks : 2 ≤ getCardValue targetCard ∧ getCardValue targetCard ≤ 8 := by
      simp only [isValidCard, decide_eq_true_eq, getCardValue] at valid notOne notNine ⊢
      omega
    obtain ⟨valid₁, idx₁, -⟩ := getCardIdx_pred valid suit ranks.1
    obtain ⟨valid₂, idx₂, -⟩ := getCardIdx_succ valid suit ranks.2
    exact ⟨⟨valid₁, idx₁ ▸ near⟩, ⟨valid₂, idx₂ ▸ far⟩⟩
  · simp [CPG.WellFormed]
  · next held =>
    obtain ⟨rank, near, far⟩ := held
    refine ⟨targetCard - 2, targetCard - 1, by simp [CPG.taken], by omega, fun valid => ?_⟩
    obtain ⟨valid₁, idx₁, rank₁⟩ := getCardIdx_pred valid suit (by omega)
    obtain ⟨valid₂, idx₂, -⟩ := getCardIdx_pred valid₁ (by omega) (by omega)
    rw [Int.sub_sub, show (1 + 1 : Int) = 2 from rfl] at valid₂ idx₂
    exact ⟨⟨valid₂, by rw [idx₂, idx₁, Nat.sub_sub]; exact far⟩, ⟨valid₁, idx₁ ▸ near⟩⟩

/-- What every meld found by the search satisfies. -/
structure FoundFrom (cards : List Int) (cpgs : List CPG) (targetCard : Int) (cpg : CPG) : Prop where
  formed : cpg.WellFormed
  claim : isClaimType cpg.type = true → cpg.targetCard = targetCard ∧ targetCard ≠ gameInvalidCard
  kong : cpg.type = .jiaGang → ∃ meld ∈ cpgs, meld.type = .peng ∧ meld.targetCard = cpg.targetCard
  own : cpg.type = .anGang → isValidCard cpg.targetCard = true
  enough : (∀ card ∈ cards, isValidCard card = true) → isValidCard cpg.targetCard = true →
    ∀ tile, cpg.taken.count tile ≤ cards.count tile

private theorem count_replicate_le {cards : List Int} {card : Int} {num : Nat}
    (enough : num ≤ cards.count card) (tile : Int) :
    (List.replicate num card).count tile ≤ cards.count tile := by
  rw [List.count_replicate]
  split
  · next same => exact beq_iff_eq.mp same ▸ enough
  · exact Nat.zero_le _

private theorem InTable.count_pos {cards : List Int} (allValid : ∀ card ∈ cards, isValidCard card = true)
    {card : Int} (held : InTable (cardsToTable cards) card) : 0 < cards.count card := by
  rw [← cardsToTable_get_card allValid held.1]
  exact held.2

private theorem found_chi {cards : List Int} {cpgs : List CPG} {targetCard : Int} {cpg : CPG}
    (real : targetCard ≠ gameInvalidCard) (found : cpg ∈ findChiInTable (cardsToTable cards) targetCard) :
    FoundFrom cards cpgs targetCard cpg := by
  obtain ⟨chi, target, formed, first, second, taken, ne, held⟩ := findChiInTable_spec found
  refine ⟨formed, fun _ => ⟨target, real⟩, fun jia => absurd chi (by rw [jia]; decide),
    fun an => absurd chi (by rw [an]; decide), fun allValid valid tile => ?_⟩
  obtain ⟨left, right⟩ := held (target ▸ valid)
  have firstHeld := left.count_pos allValid
  have secondHeld := right.count_pos allValid
  rw [taken]
  simp only [List.count_cons, List.count_nil, beq_iff_eq]
  split
  · next same => subst same; simp only [ne, ↓reduceIte]; omega
  · split
    · next same => subst same; omega
    · omega

private theorem found_peng {cards : List Int} {cpgs : List CPG} {targetCard : Int} {cpg : CPG}
    (real : targetCard ≠ gameInvalidCard) (found : cpg ∈ findPengInTable (cardsToTable cards) targetCard) :
    FoundFrom cards cpgs targetCard cpg := by
  simp only [findPengInTable, real, ↓reduceIte, List.mem_ite_nil_right, List.mem_singleton] at found
  obtain ⟨held, rfl⟩ := found
  refine ⟨rfl, fun _ => ⟨rfl, real⟩, nofun, nofun, fun allValid valid tile => count_replicate_le ?_ tile⟩
  rw [cardsToTable_get_card allValid valid] at held
  exact held.1

private theorem found_dianGang {cards : List Int} {cpgs : List CPG} {targetCard : Int} {cpg : CPG}
    (real : targetCard ≠ gameInvalidCard)
    (found : cpg ∈ findDianGangInTable (cardsToTable cards) targetCard) :
    FoundFrom cards cpgs targetCard cpg := by
  simp only [findDianGangInTable, real, ↓reduceIte, List.mem_ite_nil_right, List.mem_singleton] at found
  obtain ⟨held, rfl⟩ := found
  refine ⟨rfl, fun _ => ⟨rfl, real⟩, nofun, nofun, fun allValid valid tile => count_replicate_le ?_ tile⟩
  rw [cardsToTable_get_card allValid valid] at held
  exact held.ge

private theorem found_anGang {cards : List Int} {cpgs : List CPG} {targetCard : Int} {cpg : CPG}
    (found : cpg ∈ findAnGangInTable (cardsToTable cards)) : FoundFrom cards cpgs targetCard cpg := by
  simp only [findAnGangInTable, List.mem_flatMap, List.mem_range, List.mem_ite_nil_right,
    List.mem_singleton] at found
  obtain ⟨k, bound, held, rfl⟩ := found
  have idx : isValidCard (getCardByIdx (k + 1)) = true ∧ getCardIdx (getCardByIdx (k + 1)) = k + 1 :=
    getCardByIdx_valid (Nat.le_add_left ..) (by omega)
  refine ⟨rfl, nofun, nofun, fun _ => idx.1, fun allValid valid tile => count_replicate_le ?_ tile⟩
  rw [← cardsToTable_get_card allValid valid, idx.2]
  exact held.ge

private theorem found_jiaGang {cards : List Int} {cpgs : List CPG} {targetCard : Int} {cpg : CPG}
    (found : cpg ∈ findJiaGangInTable (cardsToTable cards) cpgs) : FoundFrom cards cpgs targetCard cpg := by
  simp only [findJiaGangInTable, List.mem_flatMap, List.mem_ite_nil_right, List.mem_singleton] at found
  obtain ⟨meld, present, ⟨peng, held⟩, rfl⟩ := found
  refine ⟨rfl, nofun, fun _ => ⟨meld, present, peng, rfl⟩, nofun, fun allValid valid tile => ?_⟩
  have one : 1 ≤ cards.count meld.targetCard := by
    rw [← cardsToTable_get_card allValid valid]
    exact held.ge
  exact count_replicate_le one tile

theorem findOptionalCpgs_found {cards : List Int} {cpgs : List CPG} {targetCard : Int}
    {findOption : Nat} {cpg : CPG} (found : cpg ∈ findOptionalCpgs cards cpgs targetCard findOption) :
    FoundFrom cards cpgs targetCard cpg := by
  simp only [findOptionalCpgs, List.mem_append, List.mem_ite_nil_right] at found
  obtain (⟨real, (⟨-, chi⟩ | ⟨-, peng⟩) | ⟨-, dian⟩⟩ | ⟨-, an⟩) | ⟨-, jia⟩ := found
  · exact found_chi real chi
  · exact found_peng real peng
  · exact found_dianGang real dian
  · exact found_anGang an
  · exact found_jiaGang jia

/-- A search without kongs of the own hand finds claims only. -/
theorem findOptionalCpgs_claim {cards : List Int} {cpgs : List CPG} {targetCard : Int} {findOption : Nat}
    (noAn : hasType findOption .anGang = false) (noJia : hasType findOption .jiaGang = false) {cpg : CPG}
    (found : cpg ∈ findOptionalCpgs cards cpgs targetCard findOption) : isClaimType cpg.type = true := by
  simp only [findOptionalCpgs, noAn, noJia, Bool.false_eq_true, ↓reduceIte, List.append_nil, List.mem_append,
    List.mem_ite_nil_right] at found
  obtain ⟨-, (⟨-, chi⟩ | ⟨-, peng⟩) | ⟨-, dian⟩⟩ := found
  · simp only [isClaimType, (findChiInTable_spec chi).1, Bool.true_or]
  · simp only [findPengInTable, List.mem_ite_nil_right, List.mem_ite_nil_left, List.mem_singleton] at peng
    rw [peng.2.2]
    rfl
  · simp only [findDianGangInTable, List.mem_ite_nil_right, List.mem_ite_nil_left, List.mem_singleton] at dian
    rw [dian.2.2]
    rfl

namespace GamePlayer

private theorem mem_of_mem_ite_filter {keep : Bool} {test : CPG → Bool} {cpgs : List CPG} {cpg : CPG}
    (present : cpg ∈ if keep then cpgs else cpgs.filter test) : cpg ∈ cpgs := by
  cases keep
  · exact List.mem_of_mem_filter present
  · exact present

private theorem mem_of_mem_ite_ting {player : GamePlayer} {cpgs : List CPG} {cpg : CPG}
    (present : cpg ∈ if player.ting then updateCpgsAfterTing player.handCards player.tingInfos cpgs else cpgs) :
    cpg ∈ cpgs := by
  cases ting : player.ting <;> rw [ting] at present
  · exact present
  · exact List.mem_of_mem_filter present

/-- `UpdateOption` stores melds that the search found, with the chair they are claimed from. -/
theorem offeredCpgs_mem {player : GamePlayer} {chair : Fin 2} {targetCard : Int}
    {targetChair : Option (Fin 2)} {canGang : Bool} {update : Nat} {cpg : CPG}
    (offered : cpg ∈ player.offeredCpgs chair targetCard targetChair canGang update) :
    ∃ found ∈ findOptionalCpgs player.handCards player.cpgs targetCard update, cpg = { found with targetChair } := by
  simp only [offeredCpgs, List.mem_map] at offered
  obtain ⟨found, kept, rfl⟩ := offered
  refine ⟨found, ?_, rfl⟩
  have fromLeft := mem_of_mem_ite_filter (mem_of_mem_ite_ting kept)
  cases targetChair with
  | none => exact fromLeft
  | some target => exact List.mem_of_mem_filter fromLeft

theorem offeredCpgs_found {player : GamePlayer} {chair : Fin 2} {targetCard : Int}
    {targetChair : Option (Fin 2)} {canGang : Bool} {update : Nat} {cpg : CPG}
    (offered : cpg ∈ player.offeredCpgs chair targetCard targetChair canGang update) :
    FoundFrom player.handCards player.cpgs targetCard cpg := by
  obtain ⟨found, present, rfl⟩ := offeredCpgs_mem offered
  obtain ⟨formed, claim, kong, own, enough⟩ := findOptionalCpgs_found present
  exact ⟨formed, claim, kong, own, enough⟩

end GamePlayer

end H5Server.Erqs
