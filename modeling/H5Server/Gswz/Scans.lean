import H5Server.Gswz.GameProcess

/-! # The scans over the chairs

The hand that gets the turn is held by a player, and the limit found is the smallest balance of the
players as long as these are positive.
-/

namespace H5Server.Gswz

section Scans

variable {beats : Chair → Chair → Bool} {playStatus : Chair → Bool} {source : Chair → ℤ}

private theorem better_plays {best : Option Chair} (plays : ∀ c ∈ best, playStatus c) (i : Chair) :
    ∀ c ∈ better beats playStatus best i, playStatus c := by
  unfold better
  rcases turn : playStatus i with _ | _
  · exact plays
  · rcases best with _ | b
    · intro c same
      obtain rfl := Option.some.inj same
      exact turn
    · simp only [Bool.not_true, Bool.false_eq_true, if_false]
      split
      · intro c same
        obtain rfl := Option.some.inj same
        exact turn
      · exact plays

private theorem better_isSome {best : Option Chair} {i : Chair} (someone : best.isSome ∨ playStatus i) :
    (better beats playStatus best i).isSome := by
  unfold better
  rcases turn : playStatus i with _ | _
  · rw [turn] at someone
    exact someone.resolve_right Bool.false_ne_true
  · rcases best with _ | b
    · rfl
    · simp only [Bool.not_true, Bool.false_eq_true, if_false]
      split <;> rfl

private theorem foldl_better_isSome (beats : Chair → Chair → Bool) (chairs : List Chair) (best : Option Chair)
    (someone : best.isSome ∨ ∃ i ∈ chairs, playStatus i) :
    (chairs.foldl (better beats playStatus) best).isSome := by
  induction chairs generalizing best with
  | nil =>
    rcases someone with given | ⟨i, inside, -⟩
    · exact given
    · exact absurd inside List.not_mem_nil
  | cons i rest ih =>
    apply ih
    rcases someone with given | ⟨j, inside, plays⟩
    · exact Or.inl (better_isSome (Or.inl given))
    · rcases List.mem_cons.mp inside with rfl | later
      · exact Or.inl (better_isSome (Or.inr plays))
      · exact Or.inr ⟨j, later, plays⟩

/-- Where somebody plays there is a best hand, and it is held by a player. -/
theorem bestOf_spec (beats : Chair → Chair → Bool) (someone : ∃ i, playStatus i) :
    ∃ c, bestOf beats playStatus = some c ∧ playStatus c := by
  obtain ⟨i, plays⟩ := someone
  have found := foldl_better_isSome beats (List.finRange 5) none (Or.inr ⟨i, List.mem_finRange i, plays⟩)
  obtain ⟨c, best⟩ := Option.isSome_iff_exists.mp found
  have held : ∀ c ∈ bestOf beats playStatus, playStatus c := by
    apply List.foldlRecOn (motive := fun best => ∀ c ∈ best, playStatus c)
    · intro c impossible
      contradiction
    · intro best plays i _
      exact better_plays plays i
  exact ⟨c, best, held c best⟩

private theorem lower_of_plays (positive : ∀ i, playStatus i → 0 < source i) {limit : ℤ} (nonneg : 0 ≤ limit)
    {i : Chair} (plays : playStatus i) :
    0 < lower source playStatus limit i ∧ lower source playStatus limit i ≤ source i := by
  have own := positive i plays
  rw [lower, if_pos plays]
  split_ifs <;> omega

private theorem lower_of_pos (positive : ∀ i, playStatus i → 0 < source i) {limit : ℤ} (set : 0 < limit) (i : Chair) :
    0 < lower source playStatus limit i ∧ lower source playStatus limit i ≤ limit := by
  rw [lower]
  split_ifs with plays
  · omega
  · have own := positive i plays
    omega
  · omega
  · omega

private theorem lower_nonneg (positive : ∀ i, playStatus i → 0 < source i) {limit : ℤ} (nonneg : 0 ≤ limit) (i : Chair) :
    0 ≤ lower source playStatus limit i := by
  rcases plays : playStatus i with _ | _
  · rw [lower, plays]
    exact nonneg
  · exact (lower_of_plays positive nonneg plays).1.le

/-- The limit found is a positive balance, and no playing chair has a smaller one. -/
private theorem foldl_lower (positive : ∀ i, playStatus i → 0 < source i) (chairs : List Chair) {limit : ℤ}
    (nonneg : 0 ≤ limit) :
    (∀ i ∈ chairs, playStatus i → 0 < chairs.foldl (lower source playStatus) limit ∧
        chairs.foldl (lower source playStatus) limit ≤ source i) ∧
      (0 < limit → 0 < chairs.foldl (lower source playStatus) limit ∧
        chairs.foldl (lower source playStatus) limit ≤ limit) := by
  induction chairs generalizing limit with
  | nil => exact ⟨fun i inside => absurd inside List.not_mem_nil, fun set => ⟨set, le_rfl⟩⟩
  | cons i rest ih =>
    obtain ⟨below, stays⟩ := ih (lower_nonneg positive nonneg i)
    rw [List.foldl_cons]
    constructor
    · intro j inside plays
      rcases List.mem_cons.mp inside with rfl | later
      · have first := lower_of_plays positive nonneg plays
        have last := stays first.1
        exact ⟨last.1, last.2.trans first.2⟩
      · exact below j later plays
    · intro set
      have first := lower_of_pos positive set i
      have last := stays first.1
      exact ⟨last.1, last.2.trans first.2⟩

private theorem lower_attained {limit : ℤ} (attained : limit = 0 ∨ ∃ i, playStatus i ∧ limit = source i) (i : Chair) :
    lower source playStatus limit i = 0 ∨ ∃ j, playStatus j ∧ lower source playStatus limit i = source j := by
  rw [lower]
  split_ifs with plays
  · exact Or.inr ⟨i, plays, rfl⟩
  · exact Or.inr ⟨i, plays, rfl⟩
  · exact attained
  · exact attained

variable (positive : ∀ i, playStatus i → 0 < source i)

include positive

theorem allInScoreOf_le {i : Chair} (plays : playStatus i) : allInScoreOf source playStatus ≤ source i :=
  ((foldl_lower positive (List.finRange 5) le_rfl).1 i (List.mem_finRange i) plays).2

theorem le_allInScoreOf (someone : ∃ i, playStatus i) {m : ℤ} (bound : ∀ i, playStatus i → m ≤ source i) :
    m ≤ allInScoreOf source playStatus := by
  obtain ⟨i, plays⟩ := someone
  have set := ((foldl_lower positive (List.finRange 5) le_rfl).1 i (List.mem_finRange i) plays).1
  have attained : allInScoreOf source playStatus = 0 ∨ ∃ j, playStatus j ∧ allInScoreOf source playStatus = source j := by
    apply List.foldlRecOn (motive := fun limit => limit = 0 ∨ ∃ j, playStatus j ∧ limit = source j)
    · exact Or.inl rfl
    · intro limit attained j _
      exact lower_attained attained j
  rcases attained with zero | ⟨j, playing, same⟩
  · exact absurd zero set.ne'
  · rw [same]
    exact bound j playing

omit positive

end Scans

end H5Server.Gswz
