import H5Server.Lib.Runs
import H5Server.S13s.Checks

/-! # The arrangement protocol of thirteen water

Whoever has confirmed keeps an arrangement of the whole hand, and `selectcount` counts them, as long as
nobody names an arrangement that does not exist, confirms a manual one with a card in two duns, or
gives up the manual one confirmed.
-/

namespace H5Server.S13s

open Lib

variable {rules : CardRules}

namespace Table

variable (rules) in
/-- Every choice is counted and arranges a hand. -/
structure Sound (t : Table) : Prop where
  deal : ∀ i ∈ t.chairIDs, IsHand (t.handCards i)
  hands : ∀ i ∈ t.chairIDs, (t.handInfos i).Sound rules (t.handCards i)
  count : t.selectcount = t.chairIDs.countP fun i => (t.handInfos i).hasSelected
  compared : t.isCompareCards → ∀ i ∈ t.chairIDs, (t.handInfos i).hasSelected

/-- The same players with the same cards, who keep what they chose. -/
structure Keeps (t t' : Table) : Prop where
  chairs : t'.chairIDs = t.chairIDs
  cards : t'.handCards = t.handCards
  choices : ∀ i ∈ t.chairIDs, (t.handInfos i).Keeps (t'.handInfos i)

theorem Keeps.refl (t : Table) : t.Keeps t := ⟨rfl, rfl, fun i _ => .refl (t.handInfos i)⟩

theorem Keeps.trans {t t' t'' : Table} (first : t.Keeps t') (second : t'.Keeps t'') : t.Keeps t'' where
  chairs := second.chairs.trans first.chairs
  cards := second.cards.trans first.cards
  choices i present := (first.choices i present).trans (second.choices i (first.chairs ▸ present))

variable (rules) in
/-- A step that can be taken, and keeps what players chose. -/
def Goes (t : Table) (next : Option Table) : Prop := ∃ u, next = some u ∧ u.Sound rules ∧ t.Keeps u

theorem Goes.stay {t : Table} (sound : t.Sound rules) : t.Goes rules (some t) := ⟨t, rfl, sound, .refl t⟩

theorem Goes.of_keeps {t t' : Table} {next : Option Table} (keeps : t.Keeps t') (goes : t'.Goes rules next) :
    t.Goes rules next := by
  obtain ⟨u, taken, sound, keeps'⟩ := goes
  exact ⟨u, taken, sound, keeps.trans keeps'⟩

theorem chairIDs_nodup (t : Table) : t.chairIDs.Nodup := List.nodup_range.filter _

/-! ## One player's arrangements -/

theorem setHand_self (t : Table) (c : ℕ) (h : HandInfo) : (t.setHand c h).handInfos c = h := Function.update_self ..

theorem setHand_of_ne (t : Table) {c i : ℕ} (h : HandInfo) (apart : i ≠ c) :
    (t.setHand c h).handInfos i = t.handInfos i := Function.update_of_ne apart ..

theorem Keeps.setHand (t : Table) {c : ℕ} {h : HandInfo} (keeps : (t.handInfos c).Keeps h) : t.Keeps (t.setHand c h) where
  chairs := rfl
  cards := rfl
  choices i _ := by
    rcases eq_or_ne i c with rfl | apart
    · rwa [t.setHand_self]
    · rw [t.setHand_of_ne h apart]
      exact .refl _

theorem Sound.setHands {t : Table} (sound : t.Sound rules) {c : ℕ} {h : HandInfo}
    (hand : h.Sound rules (t.handCards c)) :
    ∀ i ∈ t.chairIDs, ((t.setHand c h).handInfos i).Sound rules (t.handCards i) := by
  intro i present
  rcases eq_or_ne i c with rfl | apart
  · rwa [t.setHand_self]
  · rw [t.setHand_of_ne h apart]
    exact sound.hands i present

/-- What is done by hand leaves the table sound. -/
theorem Sound.work {t : Table} (sound : t.Sound rules) {c : ℕ} {h : HandInfo}
    (worked : (t.handInfos c).Worked rules (t.handCards c) h) : t.Goes rules (some (t.setHand c h)) := by
  have selected : ∀ i, ((t.setHand c h).handInfos i).hasSelected = (t.handInfos i).hasSelected := by
    intro i
    rcases eq_or_ne i c with rfl | apart
    · rw [t.setHand_self, HandInfo.hasSelected, worked.choice]
      rfl
    · rw [t.setHand_of_ne h apart]
  refine ⟨_, rfl, ⟨sound.deal, sound.setHands worked.sound, ?_, ?_⟩, .setHand t worked.keeps⟩
  · show t.selectcount = t.chairIDs.countP fun i => ((t.setHand c h).handInfos i).hasSelected
    simp only [selected]
    exact sound.count
  · intro compared i present
    rw [selected]
    exact sound.compared compared i present

/-- A count grows by one where one more of different things counts. -/
theorem countP_add_one {l : List ℕ} (nodup : l.Nodup) {c : ℕ} (present : c ∈ l) {p q : ℕ → Bool}
    (others : ∀ i, i ≠ c → q i = p i) (before : p c = false) (after : q c = true) :
    l.countP q = l.countP p + 1 := by
  have perm := List.perm_cons_erase present
  have rest : (l.erase c).countP q = (l.erase c).countP p := by
    apply List.countP_congr
    intro i other
    rw [others i ((nodup.mem_erase_iff.mp other).1)]
  rw [perm.countP_eq, perm.countP_eq, List.countP_cons, List.countP_cons, rest, before, after]
  rfl

/-- The table after a player who had not chosen has. -/
def choose (t : Table) (c : ℕ) (h : HandInfo) : Table := { t.setHand c h with selectcount := t.selectcount + 1 }

theorem Sound.choose {t : Table} (sound : t.Sound rules) {c : ℕ} (seated : c ∈ t.chairIDs)
    (fresh : ¬(t.handInfos c).hasSelected) {h : HandInfo} (hand : h.Sound rules (t.handCards c))
    (selected : h.hasSelected) : (t.choose c h).Sound rules ∧ t.Keeps (t.choose c h) := by
  have keeps := Keeps.setHand t (show (t.handInfos c).Keeps h from fun chosen => absurd chosen fresh)
  refine ⟨⟨sound.deal, sound.setHands hand, ?_, ?_⟩, keeps.chairs, keeps.cards, keeps.choices⟩
  · show t.selectcount + 1 = t.chairIDs.countP fun i => ((t.setHand c h).handInfos i).hasSelected
    rw [sound.count]
    symm
    apply countP_add_one t.chairIDs_nodup seated
    · intro i apart
      rw [t.setHand_of_ne h apart]
    · exact Bool.eq_false_iff.mpr fresh
    · rwa [t.setHand_self]
  · exact fun compared => absurd (sound.compared compared c seated) fresh

/-! ## Comparing -/

theorem Sound.startCompareCards {t : Table} (sound : t.Sound rules)
    (all : ∀ i ∈ t.chairIDs, (t.handInfos i).hasSelected) : t.Goes rules t.startCompareCards := by
  rw [Table.startCompareCards]
  split_ifs with compared known
  · exact .stay sound
  · exact ⟨_, rfl, ⟨sound.deal, sound.hands, sound.count, fun _ => all⟩, ⟨rfl, rfl, (Keeps.refl t).choices⟩⟩
  · refine absurd (fun i seated => ?_) known
    obtain ⟨g, chosen, _⟩ := (sound.hands i seated).getSelected_valid (sound.deal i seated).thirteen (all i seated)
    exact chosen ▸ rfl

/-- The default choice of one player. -/
theorem Sound.selectDefault {t : Table} (sound : t.Sound rules) {c : ℕ} (seated : c ∈ t.chairIDs) :
    ∃ u, t.selectDefault c = some u ∧ u.Sound rules ∧ t.Keeps u ∧ (u.handInfos c).hasSelected := by
  rw [Table.selectDefault]
  split_ifs with chosen
  · exact ⟨t, rfl, sound, .refl t, chosen⟩
  have hand := sound.hands c seated
  have first : (t.handInfos c).CanSelect 0 := by
    refine .inl ⟨le_rfl, ?_⟩
    have total : (t.handInfos c).autos.length = (t.handInfos c).specGroups.length + (t.handInfos c).enumGroups.length :=
      List.length_append
    have solved := hand.solved
    omega
  obtain ⟨h, selects, hand', selected⟩ := hand.select first
  obtain ⟨g, known, _⟩ := hand'.getSelected_valid (sound.deal c seated).thirteen selected
  obtain ⟨sound', keeps⟩ := sound.choose seated chosen hand' selected
  refine ⟨t.choose c h, ?_, sound', keeps, ?_⟩
  · rw [selects, Option.bind_eq_bind, Option.bind_some, known]
    rfl
  · exact (t.setHand_self c h).symm ▸ selected

/-- All players of a list have chosen after the timer went through it. -/
theorem Sound.selectDefaults {t : Table} (sound : t.Sound rules) {chairs : List ℕ}
    (seated : ∀ i ∈ chairs, i ∈ t.chairIDs) :
    ∃ u, chairs.foldlM Table.selectDefault t = some u ∧ u.Sound rules ∧ t.Keeps u
      ∧ ∀ i ∈ chairs, (u.handInfos i).hasSelected := by
  induction chairs generalizing t with
  | nil => exact ⟨t, rfl, sound, .refl t, fun _ impossible => absurd impossible List.not_mem_nil⟩
  | cons c rest ih =>
    have first := seated c List.mem_cons_self
    obtain ⟨t', taken, sound', keeps, selected⟩ := sound.selectDefault first
    obtain ⟨u, tail, sound'', keeps', others⟩ :=
      ih sound' fun i present => keeps.chairs ▸ seated i (List.mem_cons_of_mem _ present)
    refine ⟨u, ?_, sound'', keeps.trans keeps', ?_⟩
    · rw [List.foldlM_cons, taken]
      exact tail
    · intro i present
      rcases List.mem_cons.mp present with rfl | present
      · exact (keeps'.choices i (keeps.chairs ▸ first) selected).1
      · exact others i present

theorem Sound.onTimerGroupOver {t : Table} (sound : t.Sound rules) : t.Goes rules t.onTimerGroupOver := by
  rw [Table.onTimerGroupOver]
  split_ifs with compared
  · exact .stay sound
  · obtain ⟨u, taken, sound', keeps, all⟩ := sound.selectDefaults fun _ => id
    rw [taken]
    exact .of_keeps keeps (sound'.startCompareCards (keeps.chairs ▸ all))

/-- The last to confirm starts the comparison. -/
theorem Sound.confirmed {t : Table} (sound : t.Sound rules) {c : ℕ} (seated : c ∈ t.chairIDs)
    (fresh : ¬(t.handInfos c).hasSelected) {h : HandInfo} (hand : h.Sound rules (t.handCards c))
    (selected : h.hasSelected) : t.Goes rules (t.setHand c h).confirmed := by
  obtain ⟨sound', keeps⟩ := sound.choose seated fresh hand selected
  rw [Table.confirmed]
  dsimp only
  split_ifs with waits
  · exact ⟨_, rfl, sound', keeps⟩
  · apply Goes.of_keeps keeps
    apply sound'.startCompareCards
    have most := @List.countP_le_length _ (fun i => ((t.choose c h).handInfos i).hasSelected) t.chairIDs
    have count := sound'.count
    apply List.countP_eq_length.mp
    exact le_antisymm most (count ▸ not_lt.mp waits)

/-! ## The messages -/

/-- The manual arrangement is reset by a dun that is empty or inverted. -/
def GivesUp (rules : CardRules) (t : Table) (chairId : ℕ) (dt : ℤ) (cards : List ℕ) : Prop :=
  t.playing ∧ ∃ dun, dunTyOf dt = some dun ∧ t.acceptsDun chairId dun cards
    ∧ (0 < cards.length → rules.isInverted dun (sortCards cards) (manualTy rules dun (sortCards cards))
      (t.handInfos chairId).manualGroup = some true)

/-- A confirmed manual arrangement is not given up, and only arrangements that exist are confirmed, the
manual one if its duns have no card in common. -/
def Careful (rules : CardRules) (t : Table) : Message → Prop
  | .manualCards chairId dt cards =>
    (t.handInfos chairId).isManualSelected → ¬GivesUp rules t chairId dt cards
  | .cancelCards chairId dt => (t.handInfos chairId).isManualSelected → dunTyOf dt = none
  | .makesureDunHandTy chairId groupindex =>
    (t.handInfos chairId).hasSelected ∨ (groupindex = -1 ∧ ¬(t.handInfos chairId).hasManualGroup)
      ∨ (t.handInfos chairId).CanSelect groupindex
  | .timerGroupOver => True

/-- Only those at the table send messages. -/
def FromPlayer (t : Table) : Message → Prop
  | .manualCards chairId _ _ | .cancelCards chairId _ | .makesureDunHandTy chairId _ => chairId ∈ t.chairIDs
  | .timerGroupOver => True

theorem Sound.layDun {t : Table} (sound : t.Sound rules) {c : ℕ} (seated : c ∈ t.chairIDs) {dun : DunTy} {cards : List ℕ}
    (accepted : t.acceptsDun c dun cards) (some_ : 0 < cards.length)
    (kept : (t.handInfos c).isManualSelected →
      rules.isInverted dun (sortCards cards) (manualTy rules dun (sortCards cards)) (t.handInfos c).manualGroup ≠ some true) :
    t.Goes rules ((Table.layDun rules (t.handInfos c) dun (sortCards cards)).map (t.setHand c)) := by
  have hand := sound.hands c seated
  have total := @isInverted_isSome rules dun (sortCards cards) (t.handInfos c).manualGroup
  obtain ⟨inverted, compares⟩ := Option.isSome_iff_exists.mp total
  rw [Table.layDun, compares]
  cases inverted with
  | true => exact sound.work (hand.resetManual fun own => kept own compares)
  | false =>
    have placed : placedTy dun (manualTy rules dun (sortCards cards)) = manualTy rules dun (sortCards cards) := by
      rw [manualTy_eq]
      cases dun with
      | dunFirst => exact headTy_headTy _
      | _ => rfl
    obtain ⟨h, lays, worked⟩ :=
      hand.selectAs placed (laid_of_acceptsDun (sound.deal c seated) accepted some_) compares
    show t.Goes rules (((t.handInfos c).selectAs dun (sortCards cards) _).map _)
    rw [lays]
    exact sound.work worked

theorem Sound.onManualCards {t : Table} (sound : t.Sound rules) {c : ℕ} (seated : c ∈ t.chairIDs) {dt : ℤ}
    {cards : List ℕ} (careful : (t.handInfos c).isManualSelected → ¬GivesUp rules t c dt cards) :
    t.Goes rules (t.onManualCards rules c dt cards) := by
  rw [Table.onManualCards]
  split
  · exact .stay sound
  rename_i playing
  split
  · exact .stay sound
  rename_i dun named
  split
  · exact .stay sound
  rename_i accepted
  split
  · rename_i nonempty
    apply sound.layDun seated (not_not.mp accepted) nonempty
    intro own inverted
    exact careful own ⟨not_not.mp playing, dun, named, not_not.mp accepted, fun _ => inverted⟩
  · rename_i empty
    apply sound.work
    apply (sound.hands c seated).resetManual
    intro own
    exact careful own ⟨not_not.mp playing, dun, named, not_not.mp accepted, fun nonempty => absurd nonempty empty⟩

theorem Sound.onCancelCards {t : Table} (sound : t.Sound rules) {c : ℕ} (seated : c ∈ t.chairIDs) {dt : ℤ}
    (careful : (t.handInfos c).isManualSelected → dunTyOf dt = none) : t.Goes rules (t.onCancelCards c dt) := by
  rw [Table.onCancelCards]
  split
  · exact .stay sound
  · rename_i dun named
    apply sound.work
    apply (sound.hands c seated).resetManualDun
    intro own
    exact absurd (named.symm.trans (careful own)) (by simp)

theorem Sound.onMakesureDunHandTy {t : Table} (sound : t.Sound rules) {c : ℕ} (seated : c ∈ t.chairIDs)
    {groupindex : ℤ} (careful : (t.handInfos c).hasSelected ∨ (groupindex = -1 ∧ ¬(t.handInfos c).hasManualGroup)
      ∨ (t.handInfos c).CanSelect groupindex) : t.Goes rules (t.onMakesureDunHandTy c groupindex) := by
  have hand := sound.hands c seated
  rw [Table.onMakesureDunHandTy]
  dsimp only
  split_ifs with chosen apart few
  · exact .stay sound
  · exact .stay sound
  · exact absurd (hand.getC_lt apart.2) few
  have can := (careful.resolve_left chosen).resolve_left apart
  obtain ⟨h, selects, hand', selected⟩ := hand.select can
  obtain ⟨g, known, valid⟩ := hand'.getSelected_valid (sound.deal c seated).thirteen selected
  obtain ⟨right, held⟩ := valid.checks (sound.deal c seated)
  rw [selects, Option.bind_eq_bind, Option.bind_some, if_neg (not_not.mpr selected), known, Option.bind_eq_bind,
    Option.bind_some, if_neg (not_not.mpr right), if_neg]
  · exact sound.confirmed seated chosen hand' selected
  · exact not_not.mpr held

/-- A careful message of a player is answered. -/
theorem Sound.onGameMessage {t : Table} (sound : t.Sound rules) {message : Message} (player : t.FromPlayer message)
    (careful : Careful rules t message) : t.Goes rules (onGameMessage rules t message) := by
  cases message with
  | manualCards chairId dt cards =>
    have seated : chairId ∈ t.chairIDs := player
    rw [Table.onGameMessage, if_pos seated]
    exact sound.onManualCards seated careful
  | cancelCards chairId dt =>
    have seated : chairId ∈ t.chairIDs := player
    rw [Table.onGameMessage, if_pos seated]
    exact sound.onCancelCards seated careful
  | makesureDunHandTy chairId groupindex =>
    have seated : chairId ∈ t.chairIDs := player
    rw [Table.onGameMessage, if_pos seated]
    exact sound.onMakesureDunHandTy seated careful
  | timerGroupOver => exact sound.onTimerGroupOver

theorem fromPlayer_of_taken {t u : Table} {message : Message} (taken : onGameMessage rules t message = some u) :
    t.FromPlayer message := by
  cases message with
  | timerGroupOver => trivial
  | _ => exact (Option.ite_none_right_eq_some.mp taken).1

theorem Sound.next {t u : Table} (sound : t.Sound rules) {message : Message} (careful : Careful rules t message)
    (taken : Table.onGameMessage rules t message = some u) : u.Sound rules ∧ t.Keeps u := by
  obtain ⟨v, taken', sound', keeps⟩ := sound.onGameMessage (fromPlayer_of_taken taken) careful
  obtain rfl := Option.some.inj (taken.symm.trans taken')
  exact ⟨sound', keeps⟩

/-! ## Runs -/

theorem Sound.run {t u : Table} (sound : t.Sound rules) {messages : List Message}
    (run : Run (Table.onGameMessage rules) (Careful rules) t messages u) : u.Sound rules ∧ t.Keeps u := by
  induction run with
  | nil t => exact ⟨sound, .refl t⟩
  | cons careful taken _ ih =>
    obtain ⟨sound', keeps⟩ := sound.next careful taken
    obtain ⟨sound'', keeps'⟩ := ih sound'
    exact ⟨sound'', keeps.trans keeps'⟩

variable (rules) in
/-- Who has confirmed has an arrangement of the hand, and all of them are counted. -/
structure Arranged (t : Table) : Prop where
  choices : ∀ i ∈ t.chairIDs, (t.handInfos i).hasSelected →
    ∃ g, (t.handInfos i).getSelected = some g ∧ g.Valid rules (t.handCards i)
  count : t.selectcount = t.chairIDs.countP fun i => (t.handInfos i).hasSelected
  compared : t.isCompareCards → ∀ i ∈ t.chairIDs, (t.handInfos i).hasSelected

theorem Sound.arranged {t : Table} (sound : t.Sound rules) : t.Arranged rules where
  choices i seated selected :=
    (sound.hands i seated).getSelected_valid (sound.deal i seated).thirteen selected
  count := sound.count
  compared := sound.compared

variable (rules) in
/-- The table as the cards are dealt, with automatic arrangements of every hand. -/
structure Dealt (t : Table) : Prop where
  deal : ∀ i ∈ t.chairIDs, IsHand (t.handCards i)
  special : ∀ i ∈ t.chairIDs, (t.handInfos i).specGroups.length ≤ 1
  solved : ∀ i ∈ t.chairIDs, 0 < (t.handInfos i).enumGroups.length
  valid : ∀ i ∈ t.chairIDs, ∀ g ∈ (t.handInfos i).autos, g.Valid rules (t.handCards i)
  groups : ∀ i ∈ t.chairIDs, (t.handInfos i).groups = (t.handInfos i).autos.map .auto
  manual : ∀ i ∈ t.chairIDs, (t.handInfos i).manualGroup = .reset ∧ (t.handInfos i).manualGroupIndex = -1
  choice : ∀ i ∈ t.chairIDs, (t.handInfos i).selectGroupIndex = -1
  count : t.selectcount = 0
  waiting : t.isCompareCards = false

theorem Dealt.sound {t : Table} (dealt : t.Dealt rules) : t.Sound rules where
  deal := dealt.deal
  hands i seated := by
    obtain ⟨manual, index⟩ := dealt.manual i seated
    refine ⟨dealt.special i seated, dealt.solved i seated, dealt.valid i seated, manual ▸ GroupDun.reset_manual,
      .inr ⟨index, dealt.groups i seated, .dunFirst, by rw [manual]; rfl⟩, .inl (dealt.choice i seated)⟩
  count := by
    rw [dealt.count, eq_comm, List.countP_eq_zero]
    intro i seated
    rw [HandInfo.hasSelected, dealt.choice i seated]
    decide
  compared started := absurd (dealt.waiting.symm.trans started) Bool.false_ne_true

/-- In every state that is reached, choices are arrangements of the hand and are counted, messages are
answered, and choices stay. -/
def ArrangementKept (rules : CardRules) (allowed : Table → Message → Prop) (start : Table) : Prop :=
  ∀ messages t, Run (onGameMessage rules) allowed start messages t →
    t.Arranged rules
      ∧ (∀ message, t.FromPlayer message → allowed t message → (onGameMessage rules t message).isSome)
      ∧ ∀ later u, Run (onGameMessage rules) allowed t later u → t.Keeps u

/-- Careful messages keep the arrangements. -/
theorem arrangementKept {start : Table} (dealt : start.Dealt rules) :
    ArrangementKept rules (Careful rules) start := by
  intro messages t run
  have sound := (dealt.sound.run run).1
  refine ⟨sound.arranged, fun message player careful => ?_, fun later u after => (sound.run after).2⟩
  obtain ⟨u, taken, _⟩ := sound.onGameMessage player careful
  exact taken ▸ rfl

/-! ## Two players -/

/-- Flushes, pairs and single cards, which is all that the duns below are. -/
def flushOrPair : CardRules where
  getDunCardHandTy _ cards :=
    if cards.all fun card => getCardColor card == getCardColor (cards.headD 0) then .tysc
    else if (cards.map getCardValue).Nodup then .tysp
    else .ty20
  compareCards _ _ _ := 0
  compareCards_swap _ _ _ := by decide
  front cards := by split_ifs <;> decide

def twoArrangements : ℕ → GroupDun
  | 0 => ⟨.tysp, fun
    | .dunFirst => ⟨.tysp, [0x12, 0x24, 0x36]⟩
    | .dunSecond => ⟨.ty20, [0x13, 0x23, 0x35, 0x17, 0x29]⟩
    | .dunLast => ⟨.tysc, [0x42, 0x44, 0x46, 0x48, 0x4A]⟩⟩
  | _ => ⟨.tysp, fun
    | .dunFirst => ⟨.tysp, [0x18, 0x2A, 0x3C]⟩
    | .dunSecond => ⟨.ty20, [0x11, 0x25, 0x1B, 0x2B, 0x3D]⟩
    | .dunLast => ⟨.tysc, [0x43, 0x45, 0x47, 0x49, 0x4B]⟩⟩

/-- Every player has one automatic arrangement. -/
def twoPlayers : Table where
  gamePlayer := 4
  isExistUser i := i < 2
  playing := true
  handCards i := (twoArrangements i).cards
  handInfos i := ⟨[], [twoArrangements i], .reset, -1, -1, [.auto (twoArrangements i)], false⟩
  selectcount := 0
  isCompareCards := false

theorem twoArrangements_isHand (i : ℕ) : IsHand (twoArrangements i).cards := by
  cases i with
  | zero => exact ⟨by decide, by decide, by decide +kernel⟩
  | succ i =>
    show IsHand (twoArrangements 1).cards
    exact ⟨by decide, by decide, by decide +kernel⟩

theorem twoArrangements_valid (i : ℕ) : (twoArrangements i).Valid flushOrPair (twoArrangements i).cards where
  sizes dt := by cases i <;> cases dt <;> rfl
  uses := .refl _
  upright a b before := by
    cases i with
    | zero => cases a <;> cases b <;> first | contradiction | decide
    | succ i =>
      show ¬(twoArrangements 1).Inverts flushOrPair a b
      cases a <;> cases b <;> first | contradiction | decide

theorem twoPlayers_dealt : twoPlayers.Dealt flushOrPair where
  deal i _ := twoArrangements_isHand i
  special _ _ := Nat.zero_le 1
  solved _ _ := Nat.zero_lt_one
  valid i _ g own := by
    obtain rfl := List.mem_singleton.mp own
    exact twoArrangements_valid i
  groups _ _ := rfl
  manual _ _ := ⟨rfl, rfl⟩
  choice _ _ := rfl
  count := rfl
  waiting := rfl

theorem arrangementKept_two : ArrangementKept flushOrPair (Careful flushOrPair) twoPlayers :=
  arrangementKept twoPlayers_dealt

/-- The first player lays out the hand, confirms it and takes the front back. -/
def takenBack : List Message :=
  [.manualCards 0 0 [0x12, 0x24, 0x36], .manualCards 0 1 [0x13, 0x23, 0x35, 0x17, 0x29],
    .manualCards 0 2 [0x42, 0x44, 0x46, 0x48, 0x4A], .makesureDunHandTy 0 (-1), .cancelCards 0 0]

/-- Whoever takes back a dun that is confirmed has no arrangement any more. -/
theorem takenBack_lost :
    ¬∀ (rules : CardRules) (start : Table), start.Dealt rules → ArrangementKept rules (fun _ _ => True) start := by
  intro claim
  have kept := claim flushOrPair twoPlayers twoPlayers_dealt
  have outcome : (replay (onGameMessage flushOrPair) twoPlayers takenBack).map
      (fun t => ((t.handInfos 0).hasSelected, (t.handInfos 0).getSelected.isSome)) = some (true, false) := by
    decide +kernel
  obtain ⟨t, reached, lost⟩ := Option.map_eq_some_iff.mp outcome
  obtain ⟨selected, gone⟩ := Prod.mk.inj lost
  have run := run_of_replay reached
  have seated : 0 ∈ t.chairIDs := by
    have chairs : (replay (onGameMessage flushOrPair) twoPlayers takenBack).map Table.chairIDs = some [0, 1] := by
      decide +kernel
    rw [reached] at chairs
    rw [Option.some.inj chairs]
    exact List.mem_cons_self
  obtain ⟨g, known, _⟩ := (kept takenBack t run).1.choices 0 seated selected
  rw [known] at gone
  cases gone

end Table

end H5Server.S13s
