import H5Server.S13s.Messages
import Mathlib.Data.List.Perm.Subperm

/-! # What a player's arrangements keep

The manual arrangement is laid out dun by dun: each dun is empty, or complete with cards of the hand,
and larger than no later one. Complete as a whole it is the last of the groups. Automatic arrangements
never change, so that a choice of one of them is kept by whatever is done by hand.
-/

namespace H5Server.S13s

/-- A dun in front of another must not be larger. -/
def DunTy.before : DunTy → DunTy → Bool
  | .dunFirst, .dunSecond | .dunFirst, .dunLast | .dunSecond, .dunLast => true
  | _, _ => false

/-- Straights and flushes count only behind the front. -/
def placedTy (dt : DunTy) (ty : HandTy) : HandTy := if dt = .dunFirst then headTy ty else ty

variable (rules : CardRules) (hand : List ℕ)

/-- The dun at `a` is larger than the dun at `b`. -/
def GroupDun.Inverts (g : GroupDun) (a b : DunTy) : Prop :=
  rules.exceeds (g.duns a).cards (placedTy a (g.duns a).ty) (g.duns b) = true

instance (g : GroupDun) (a b : DunTy) : Decidable (g.Inverts rules a b) := inferInstanceAs (Decidable (_ = true))

/-- An arrangement of the whole hand. -/
structure GroupDun.Valid (g : GroupDun) : Prop where
  sizes : ∀ dt, (g.duns dt).cards.length = dt.needC
  uses : g.cards.Perm hand
  upright : ∀ a b, a.before b → ¬g.Inverts rules a b

/-- A complete dun of cards of the hand. -/
structure Dun.Laid (dt : DunTy) (dun : Dun) : Prop where
  size : dun.cards.length = dt.needC
  held : ∀ card ∈ dun.cards, card ∈ hand
  nodup : dun.cards.Nodup

/-- An arrangement as it comes about by hand. -/
structure GroupDun.Manual (g : GroupDun) : Prop where
  duns : ∀ dt, g.duns dt = .empty ∨ (g.duns dt).Laid hand dt
  front : headTy (g.duns .dunFirst).ty = (g.duns .dunFirst).ty
  upright : ∀ a b, a.before b → g.needC a = 0 → g.needC b = 0 → ¬g.Inverts rules a b

namespace HandInfo

/-- The automatic arrangements. -/
def autos (h : HandInfo) : List GroupDun := h.specGroups ++ h.enumGroups

/-- The manual arrangement is the last of the groups if it is complete, and else not among them. -/
def Joined (h : HandInfo) : Prop :=
  h.manualGroupIndex = h.autos.length ∧ h.groups = h.autos.map .auto ++ [.manual]
      ∧ (∀ dt, (h.manualGroup.duns dt).Laid hand dt)
    ∨ h.manualGroupIndex = -1 ∧ h.groups = h.autos.map .auto ∧ ∃ dt, h.manualGroup.duns dt = .empty

/-- The choice is an arrangement that can be compared. -/
def Chosen (h : HandInfo) : Prop :=
  h.selectGroupIndex = -1 ∨ (0 ≤ h.selectGroupIndex ∧ h.selectGroupIndex < h.autos.length)
    ∨ h.isManualSelected ∧ h.manualGroup.cards.Nodup

structure Sound (h : HandInfo) : Prop where
  special : h.specGroups.length ≤ 1
  solved : 0 < h.enumGroups.length
  autos : ∀ g ∈ h.autos, g.Valid rules hand
  manual : h.manualGroup.Manual rules hand
  joined : h.Joined hand
  chosen : h.Chosen

/-- The choice made, if any, stays. -/
def Keeps (h h' : HandInfo) : Prop :=
  h.hasSelected → h'.hasSelected ∧ h'.getSelected = h.getSelected

theorem Keeps.refl (h : HandInfo) : h.Keeps h := fun selected => ⟨selected, rfl⟩

theorem Keeps.trans {h h' h'' : HandInfo} (first : h.Keeps h') (second : h'.Keeps h'') : h.Keeps h'' := by
  intro selected
  obtain ⟨still, same⟩ := first selected
  obtain ⟨always, same'⟩ := second still
  exact ⟨always, same'.trans same⟩

/-- What is done by hand changes neither the choice nor what it stands for. -/
structure Worked (h h' : HandInfo) : Prop where
  sound : h'.Sound rules hand
  choice : h'.selectGroupIndex = h.selectGroupIndex
  keeps : h.Keeps h'

end HandInfo

variable {rules hand}

/-! ## Duns laid out by hand -/

theorem Dun.Laid.ne_empty {dt : DunTy} {dun : Dun} (laid : dun.Laid hand dt) : dun ≠ .empty := by
  rintro rfl
  have size := laid.size
  cases dt <;> exact absurd size (by decide)

theorem GroupDun.needC_eq_zero {g : GroupDun} {dt : DunTy} : g.needC dt = 0 ↔ (g.duns dt).cards.length = dt.needC := by
  rw [GroupDun.needC]
  omega

theorem DunTy.needC_pos (dt : DunTy) : 0 < dt.needC := by cases dt <;> decide

theorem GroupDun.Manual.laid_of_needC {g : GroupDun} (manual : g.Manual rules hand) {dt : DunTy}
    (complete : g.needC dt = 0) : (g.duns dt).Laid hand dt := by
  rcases manual.duns dt with empty | laid
  · have size := GroupDun.needC_eq_zero.mp complete
    rw [empty] at size
    exact absurd size dt.needC_pos.ne
  · exact laid

theorem GroupDun.Manual.empty_of_needC {g : GroupDun} (manual : g.Manual rules hand) {dt : DunTy}
    (open_ : g.needC dt ≠ 0) : g.duns dt = .empty := by
  rcases manual.duns dt with empty | laid
  · exact empty
  · exact absurd (GroupDun.needC_eq_zero.mpr laid.size) open_

@[simp]
theorem GroupDun.setDun_self (g : GroupDun) (dt : DunTy) (dun : Dun) : (g.setDun dt dun).duns dt = dun :=
  Function.update_self ..

theorem GroupDun.setDun_of_ne (g : GroupDun) {dt other : DunTy} (dun : Dun) (apart : other ≠ dt) :
    (g.setDun dt dun).duns other = g.duns other := Function.update_of_ne apart ..

theorem GroupDun.reset_manual : GroupDun.reset.Manual rules hand where
  duns _ := .inl rfl
  front := rfl
  upright a _ _ complete _ := absurd (GroupDun.needC_eq_zero.mp complete) a.needC_pos.ne

theorem GroupDun.Manual.takeBack {g : GroupDun} (manual : g.Manual rules hand) (dt : DunTy) :
    (g.setDun dt .empty).Manual rules hand where
  duns other := by
    rcases eq_or_ne other dt with rfl | apart
    · exact .inl (g.setDun_self other .empty)
    · rw [g.setDun_of_ne .empty apart]
      exact manual.duns other
  front := by
    rcases eq_or_ne .dunFirst dt with rfl | apart
    · rw [g.setDun_self]; rfl
    · rw [g.setDun_of_ne .empty apart]
      exact manual.front
  upright a b before complete complete' := by
    have apart : ∀ other, (g.setDun dt .empty).needC other = 0 → other ≠ dt := by
      rintro other full rfl
      have size := GroupDun.needC_eq_zero.mp full
      rw [g.setDun_self] at size
      exact absurd size other.needC_pos.ne
    have first := g.setDun_of_ne .empty (apart a complete)
    have second := g.setDun_of_ne .empty (apart b complete')
    rw [GroupDun.Inverts, first, second]
    apply manual.upright a b before
    · rwa [GroupDun.needC, first] at complete
    · rwa [GroupDun.needC, second] at complete'

/-! ## A dun that is not inverted -/

theorem CardRules.fallsBelow_eq (rules : CardRules) (src : List ℕ) (ty : HandTy) (dst : Dun) :
    rules.fallsBelow src ty dst = rules.exceeds dst.cards dst.ty ⟨ty, src⟩ := by
  rw [CardRules.fallsBelow, CardRules.exceeds]
  rcases eq_or_ne ty dst.ty with same | other
  · rw [if_neg (not_not.mpr same), if_neg (not_not.mpr same.symm), same, decide_eq_decide]
    exact (rules.compareCards_swap dst.cards src dst.ty).symm
  · rw [if_pos other, if_pos other.symm]

theorem headTy_headTy (ty : HandTy) : headTy (headTy ty) = headTy ty := by cases ty <;> rfl

theorem headTy_placedTy (ty : HandTy) : headTy (placedTy .dunFirst ty) = placedTy .dunFirst ty := headTy_headTy ty

/-- The type of a dun laid out by hand is the type that its place gives it. -/
theorem Table.manualTy_eq (dt : DunTy) (cards : List ℕ) :
    Table.manualTy rules dt cards = placedTy dt (rules.getDunCardHandTy dt cards) := rfl

/-- Every dun can be compared at its place. -/
theorem isInverted_isSome (dt : DunTy) (cards : List ℕ) (g : GroupDun) :
    (rules.isInverted dt cards (Table.manualTy rules dt cards) g).isSome := by
  cases dt with
  | dunFirst =>
    have front := rules.front cards
    simp only [List.mem_cons, List.not_mem_nil, or_false] at front
    rw [Table.manualTy_eq, CardRules.isInverted, headTy_placedTy]
    exact if_pos front ▸ rfl
  | dunSecond => rfl
  | dunLast => rfl

/-- A dun that is not inverted is larger than no complete dun behind it. -/
theorem exceeds_of_isInverted {dt b : DunTy} {cards : List ℕ} {ty : HandTy} {g : GroupDun}
    (placed : placedTy dt ty = ty) (fits : rules.isInverted dt cards ty g = some false) (before : dt.before b)
    (complete : g.needC b = 0) : ¬rules.exceeds cards ty (g.duns b) = true := by
  cases dt with
  | dunFirst =>
    change headTy ty = ty at placed
    rw [CardRules.isInverted, placed] at fits
    split_ifs at fits
    have none := Bool.or_eq_false_iff.mp (Option.some.inj fits)
    cases b with
    | dunFirst => contradiction
    | dunSecond => simpa [complete] using none.1
    | dunLast => simpa [complete] using none.2
  | dunSecond =>
    have none := Bool.or_eq_false_iff.mp (Option.some.inj fits)
    cases b with
    | dunLast => simpa [complete] using none.2
    | _ => contradiction
  | dunLast => cases b <;> contradiction

/-- A dun that is not inverted is smaller than no complete dun in front of it. -/
theorem exceeded_of_isInverted {a dt : DunTy} {cards : List ℕ} {ty : HandTy} {g : GroupDun}
    (fits : rules.isInverted dt cards ty g = some false) (before : a.before dt) (complete : g.needC a = 0) :
    ¬rules.exceeds (g.duns a).cards (g.duns a).ty ⟨ty, cards⟩ = true := by
  rw [← CardRules.fallsBelow_eq]
  cases dt with
  | dunFirst => cases a <;> contradiction
  | dunSecond =>
    have none := Bool.or_eq_false_iff.mp (Option.some.inj fits)
    cases a with
    | dunFirst => simpa [complete] using none.1
    | _ => contradiction
  | dunLast =>
    have none := Bool.or_eq_false_iff.mp (Option.some.inj fits)
    cases a with
    | dunFirst => simpa [complete] using none.1
    | dunSecond => simpa [complete] using none.2
    | dunLast => contradiction

theorem GroupDun.Manual.placed {g : GroupDun} (manual : g.Manual rules hand) (dt : DunTy) :
    placedTy dt (g.duns dt).ty = (g.duns dt).ty := by
  cases dt with
  | dunFirst => exact manual.front
  | dunSecond => rfl
  | dunLast => rfl

theorem GroupDun.needC_setDun_of_ne (g : GroupDun) {dt other : DunTy} (dun : Dun) (apart : other ≠ dt) :
    (g.setDun dt dun).needC other = g.needC other := by
  rw [GroupDun.needC, GroupDun.needC, g.setDun_of_ne dun apart]

theorem DunTy.ne_of_before {a b : DunTy} (before : a.before b) : a ≠ b := by
  rintro rfl
  cases a <;> contradiction

/-- A dun that fits can be laid. -/
theorem GroupDun.Manual.lay {g : GroupDun} (manual : g.Manual rules hand) {dt : DunTy} {cards : List ℕ} {ty : HandTy}
    (placed : placedTy dt ty = ty) (laid : Dun.Laid hand dt ⟨ty, cards⟩)
    (fits : rules.isInverted dt cards ty g = some false) : (g.setDun dt ⟨ty, cards⟩).Manual rules hand where
  duns other := by
    rcases eq_or_ne other dt with rfl | apart
    · rw [g.setDun_self]
      exact .inr laid
    · rw [g.setDun_of_ne _ apart]
      exact manual.duns other
  front := by
    rcases eq_or_ne .dunFirst dt with rfl | apart
    · rw [g.setDun_self]
      exact placed
    · rw [g.setDun_of_ne _ apart]
      exact manual.front
  upright a b before complete complete' := by
    rw [GroupDun.Inverts]
    rcases eq_or_ne a dt with rfl | apart
    · have behind := (DunTy.ne_of_before before).symm
      rw [g.needC_setDun_of_ne _ behind] at complete'
      rw [g.setDun_self, g.setDun_of_ne _ behind, placed]
      exact exceeds_of_isInverted placed fits before complete'
    rw [g.needC_setDun_of_ne _ apart] at complete
    rw [g.setDun_of_ne _ apart]
    rcases eq_or_ne b dt with rfl | apart'
    · rw [g.setDun_self, manual.placed a]
      exact exceeded_of_isInverted fits before complete
    · rw [g.needC_setDun_of_ne _ apart'] at complete'
      rw [g.setDun_of_ne _ apart']
      exact manual.upright a b before complete complete'

/-- Three complete duns without a common card arrange the hand. -/
theorem GroupDun.Manual.valid {g : GroupDun} (manual : g.Manual rules hand)
    (complete : ∀ dt, (g.duns dt).Laid hand dt) (apart : g.cards.Nodup) (thirteen : hand.length = 13) :
    g.Valid rules hand where
  sizes dt := (complete dt).size
  uses := by
    have held : g.cards ⊆ hand := by
      intro card present
      rw [GroupDun.cards, List.mem_append, List.mem_append] at present
      rcases present with (first | second) | last
      · exact (complete .dunFirst).held card first
      · exact (complete .dunSecond).held card second
      · exact (complete .dunLast).held card last
    have all : g.cards.length = 13 := by
      rw [GroupDun.cards, List.length_append, List.length_append, (complete .dunFirst).size,
        (complete .dunSecond).size, (complete .dunLast).size]
      rfl
    exact (List.subperm_of_subset apart held).perm_of_length_le (by rw [all, thirteen])
  upright a b before := manual.upright a b before (GroupDun.needC_eq_zero.mpr (complete a).size)
    (GroupDun.needC_eq_zero.mpr (complete b).size)

/-! ## What is done by hand -/

namespace HandInfo.Sound

variable {h : HandInfo} (sound : h.Sound rules hand)

include sound

theorem index_cases : h.manualGroupIndex = h.autos.length ∨ h.manualGroupIndex = -1 := by
  rcases sound.joined with ⟨joined, _⟩ | ⟨apart, _⟩
  · exact .inl joined
  · exact .inr apart

theorem leaveGroups_eq : h.leaveGroups = { h with groups := h.autos.map .auto, manualGroupIndex := -1 } := by
  rcases sound.joined with ⟨index, groups, _⟩ | ⟨index, groups, _⟩
  · rw [HandInfo.leaveGroups, if_pos (by omega), groups, List.dropLast_concat]
  · rw [HandInfo.leaveGroups, if_neg (by omega), ← groups, ← index]

/-- The choice is an automatic arrangement as long as it is not the manual one. -/
theorem auto_of_chosen (selected : h.hasSelected) (own : ¬h.isManualSelected) :
    0 ≤ h.selectGroupIndex ∧ h.selectGroupIndex < h.autos.length := by
  rcases sound.chosen with none | auto | manual
  · exact absurd none (bne_iff_ne.mp selected)
  · exact auto
  · exact absurd manual.1 own

omit sound in
theorem getElem?_groups {groups : List GroupRef} {rest : List GroupRef} (eq : groups = h.autos.map .auto ++ rest)
    {i : ℕ} (auto : i < h.autos.length) : groups[i]? = some (.auto h.autos[i]) := by
  rw [eq, List.getElem?_append_left (by rwa [List.length_map]), List.getElem?_map, List.getElem?_eq_getElem auto]
  rfl

theorem groups_eq : ∃ rest, h.groups = h.autos.map .auto ++ rest := by
  rcases sound.joined with ⟨_, groups, _⟩ | ⟨_, groups, _⟩
  · exact ⟨_, groups⟩
  · exact ⟨[], by rw [groups, List.append_nil]⟩

omit sound in
theorem getSelected_of_groups {rest : List GroupRef} (eq : h.groups = h.autos.map .auto ++ rest)
    (nonneg : 0 ≤ h.selectGroupIndex) (auto : h.selectGroupIndex.toNat < h.autos.length) :
    h.getSelected = some h.autos[h.selectGroupIndex.toNat] := by
  rw [HandInfo.getSelected, if_pos nonneg, getElem?_groups eq auto]
  rfl

theorem getSelected_manual (own : h.isManualSelected) : h.getSelected = some h.manualGroup := by
  obtain ⟨selected, index⟩ := Bool.and_eq_true_iff.mp own
  have index := beq_iff_eq.mp index
  rcases sound.joined with ⟨joined, groups, _⟩ | ⟨apart, _⟩
  · rw [HandInfo.getSelected, if_pos (by omega), groups, index, joined, Int.toNat_natCast,
      List.getElem?_append_right (by rw [List.length_map]), List.length_map, Nat.sub_self]
    rfl
  · exact absurd (index.trans apart) (bne_iff_ne.mp selected)

/-- Who has chosen can be asked for the choice, which arranges the hand. -/
theorem getSelected_valid (thirteen : hand.length = 13) (selected : h.hasSelected) :
    ∃ g, h.getSelected = some g ∧ g.Valid rules hand := by
  rcases sound.chosen with none | ⟨nonneg, auto⟩ | ⟨own, apart⟩
  · exact absurd none (bne_iff_ne.mp selected)
  · obtain ⟨rest, eq⟩ := sound.groups_eq
    refine ⟨_, getSelected_of_groups eq nonneg (by omega), sound.autos _ (List.getElem_mem _)⟩
  · refine ⟨_, sound.getSelected_manual own, ?_⟩
    rcases sound.joined with ⟨_, _, complete⟩ | ⟨index, _⟩
    · exact sound.manual.valid complete apart thirteen
    · obtain ⟨_, same⟩ := Bool.and_eq_true_iff.mp own
      exact absurd ((beq_iff_eq.mp same).trans index) (bne_iff_ne.mp selected)

/-- An automatic choice stays where it is, whatever follows the automatic arrangements. -/
theorem keeps_of_autos {h' : HandInfo} {rest : List GroupRef} (own : ¬h.isManualSelected)
    (autos : h'.autos = h.autos) (groups : h'.groups = h.autos.map .auto ++ rest)
    (choice : h'.selectGroupIndex = h.selectGroupIndex) : h.Keeps h' := by
  intro selected
  refine ⟨by rwa [HandInfo.hasSelected, choice], ?_⟩
  obtain ⟨nonneg, auto⟩ := sound.auto_of_chosen selected own
  obtain ⟨rest', eq⟩ := sound.groups_eq
  rw [getSelected_of_groups eq nonneg (by omega),
    getSelected_of_groups (autos ▸ groups) (choice ▸ nonneg) (by rw [autos]; omega)]
  simp only [autos, choice]

/-- The manual arrangement, unless it is the choice, may be replaced by one that is not complete. -/
theorem layOpen (own : ¬h.isManualSelected) {g : GroupDun} (manual : g.Manual rules hand)
    (open_ : ∃ dt, g.duns dt = .empty) {h' : HandInfo}
    (eq : h' = { h with groups := h.autos.map .auto, manualGroupIndex := -1, manualGroup := g }) :
    h.Worked rules hand h' := by
  subst eq
  refine ⟨⟨sound.special, sound.solved, sound.autos, manual, .inr ⟨rfl, rfl, open_⟩, ?_⟩, rfl,
    sound.keeps_of_autos own rfl (List.append_nil _).symm rfl⟩
  rcases sound.chosen with none | auto | chosen
  · exact .inl none
  · exact .inr (.inl auto)
  · exact absurd chosen.1 own

theorem resetManual (own : ¬h.isManualSelected) : h.Worked rules hand h.resetManual := by
  apply sound.layOpen own GroupDun.reset_manual ⟨.dunFirst, rfl⟩
  rw [HandInfo.resetManual, sound.leaveGroups_eq]

theorem resetManualDun (own : ¬h.isManualSelected) (dt : DunTy) :
    h.Worked rules hand (h.resetManualDun dt) := by
  rw [HandInfo.resetManualDun, sound.leaveGroups_eq]
  split_ifs with complete
  · exact sound.layOpen own (sound.manual.takeBack dt) ⟨dt, h.manualGroup.setDun_self dt .empty⟩ rfl
  · exact sound.layOpen own sound.manual ⟨dt, sound.manual.empty_of_needC complete⟩ rfl

/-- A manual arrangement that was not complete joins the groups as soon as it is. -/
theorem join {g : GroupDun} (manual : g.Manual rules hand) (index : h.manualGroupIndex = -1) :
    h.Worked rules hand (joinGroups { h with manualGroup := g }) := by
  have groups : h.groups = h.autos.map .auto := by
    rcases sound.joined with ⟨joined, _⟩ | ⟨_, groups, _⟩
    · omega
    · exact groups
  have own : ¬h.isManualSelected := by
    intro own
    obtain ⟨selected, same⟩ := Bool.and_eq_true_iff.mp own
    exact bne_iff_ne.mp selected ((beq_iff_eq.mp same).trans index)
  unfold joinGroups
  split_ifs with complete
  · obtain ⟨_, first, second, last⟩ := complete
    have joined : ∀ dt, (g.duns dt).Laid hand dt := by
      intro dt
      apply manual.laid_of_needC
      rw [GroupDun.needC_eq_zero]
      cases dt with
      | dunFirst => exact first
      | dunSecond => exact second
      | dunLast => exact last
    refine ⟨⟨sound.special, sound.solved, sound.autos, manual, .inl ⟨?_, ?_, joined⟩, ?_⟩, rfl,
      sound.keeps_of_autos own rfl (congrArg (· ++ [.manual]) groups) rfl⟩
    · show (h.groups.length : ℤ) = h.autos.length
      rw [groups, List.length_map]
    · exact congrArg (· ++ [.manual]) groups
    · rcases sound.chosen with none | auto | chosen
      · exact .inl none
      · exact .inr (.inl auto)
      · exact absurd chosen.1 own
  · refine sound.layOpen own manual ?_ (by rw [← groups, ← index])
    by_contra full
    have size : ∀ dt, (g.duns dt).cards.length = dt.needC := by
      intro dt
      rcases manual.duns dt with none | laid
      · exact absurd ⟨dt, none⟩ full
      · exact laid.size
    exact complete ⟨index, size .dunFirst, size .dunSecond, size .dunLast⟩

theorem index_of_empty {dt : DunTy} (empty : h.manualGroup.duns dt = .empty) : h.manualGroupIndex = -1 := by
  rcases sound.joined with ⟨_, _, complete⟩ | ⟨index, _⟩
  · exact absurd empty (complete dt).ne_empty
  · exact index

/-- A dun that fits is laid, unless its place is taken. -/
theorem selectAs {dt : DunTy} {cards : List ℕ} {ty : HandTy} (placed : placedTy dt ty = ty)
    (laid : Dun.Laid hand dt ⟨ty, cards⟩) (fits : rules.isInverted dt cards ty h.manualGroup = some false) :
    ∃ h', h.selectAs dt cards ty = some h' ∧ h.Worked rules hand h' := by
  rw [HandInfo.selectAs]
  split_ifs with filled
  · exact ⟨h, rfl, sound, rfl, .refl h⟩
  have empty : h.manualGroup.duns dt = .empty := by
    rcases sound.manual.duns dt with empty | full
    · exact empty
    · exact absurd (full.size ▸ dt.needC_pos) filled
  have assigned : h.manualGroup.assign dt ty cards = some (h.manualGroup.setDun dt ⟨ty, cards⟩) := by
    apply if_pos
    have size : cards.length = dt.needC := laid.size
    rw [empty]
    exact ⟨size ▸ dt.needC_pos, size.le, rfl, rfl⟩
  exact ⟨_, congrArg _ assigned, sound.join (sound.manual.lay placed laid fits) (sound.index_of_empty empty)⟩

theorem length_le (dt : DunTy) : (h.manualGroup.duns dt).cards.length ≤ dt.needC := by
  rcases sound.manual.duns dt with empty | laid
  · rw [empty]
    exact Nat.zero_le _
  · exact laid.size.le

/-- Without a complete manual arrangement there are cards left to lay. -/
theorem getC_lt (apart : ¬h.hasManualGroup) : h.manualGroup.getC < 13 := by
  rcases sound.joined with ⟨joined, _⟩ | ⟨_, _, dt, empty⟩
  · have index : h.manualGroupIndex ≠ -1 := by omega
    exact absurd (bne_iff_ne.mpr index) apart
  have first : _ ≤ 3 := sound.length_le .dunFirst
  have second : _ ≤ 5 := sound.length_le .dunSecond
  have last : _ ≤ 5 := sound.length_le .dunLast
  have none : (h.manualGroup.duns dt).cards.length = 0 := by rw [empty]; rfl
  rw [GroupDun.getC]
  cases dt <;> omega

end HandInfo.Sound

/-! ## The choice -/

namespace HandInfo

/-- The index is that of an arrangement, and the manual one uses no card twice. -/
def CanSelect (h : HandInfo) (groupindex : ℤ) : Prop :=
  (0 ≤ groupindex ∧ groupindex < h.autos.length)
    ∨ groupindex < 0 ∧ h.hasManualGroup ∧ h.manualGroup.cards.Nodup

theorem Sound.select_auto {h : HandInfo} (sound : h.Sound rules hand) {groupindex : ℤ} (nonneg : 0 ≤ groupindex)
    (within : groupindex < h.autos.length) :
    h.select groupindex = some { h with selectGroupIndex := groupindex, manual := false } := by
  have total : h.autos.length = h.specGroups.length + h.enumGroups.length := List.length_append
  have special := sound.special
  have solved := sound.solved
  rw [HandInfo.select, if_pos nonneg]
  split_ifs with spec fits fits
  · rfl
  · obtain ⟨rest, groups⟩ := sound.groups_eq
    have present : 0 < h.groups.length := by
      rw [groups, List.length_append, List.length_map]
      omega
    exact absurd ⟨by omega, solved, by omega, present⟩ fits
  · rfl
  · exact absurd ⟨solved, by omega⟩ fits

theorem Sound.select_manual {h : HandInfo} (sound : h.Sound rules hand) {groupindex : ℤ} (negative : groupindex < 0)
    (joined : h.hasManualGroup) :
    h.select groupindex = some { h with selectGroupIndex := h.manualGroupIndex, manual := true } := by
  have index : h.manualGroupIndex ≠ -1 := bne_iff_ne.mp joined
  rw [HandInfo.select, if_neg (by omega), if_pos]
  refine ⟨index, ?_⟩
  rcases sound.joined with ⟨_, _, complete⟩ | ⟨apart, _⟩
  · rw [GroupDun.getC, (complete .dunFirst).size, (complete .dunSecond).size, (complete .dunLast).size]
    rfl
  · exact absurd apart index

/-- An arrangement that may be chosen is chosen. -/
theorem Sound.select {h : HandInfo} (sound : h.Sound rules hand) {groupindex : ℤ} (can : h.CanSelect groupindex) :
    ∃ h', h.select groupindex = some h' ∧ h'.Sound rules hand ∧ h'.hasSelected := by
  rcases can with ⟨nonneg, within⟩ | ⟨negative, joined, apart⟩
  · exact ⟨_, sound.select_auto nonneg within, { sound with chosen := .inr (.inl ⟨nonneg, within⟩) },
      bne_iff_ne.mpr (show groupindex ≠ -1 by omega)⟩
  · have selected : ({ h with selectGroupIndex := h.manualGroupIndex, manual := true } : HandInfo).hasSelected := joined
    exact ⟨_, sound.select_manual negative joined,
      { sound with chosen := .inr (.inr ⟨Bool.and_eq_true_iff.mpr ⟨joined, beq_self_eq_true _⟩, apart⟩) }, selected⟩

end HandInfo

end H5Server.S13s
