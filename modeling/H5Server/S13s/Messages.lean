import H5Server.S13s.HandInfo

/-! # The messages of thirteen water (`CGameProcess::OnGameMessage`)

Players lay out a dun by hand, take one back, and confirm an arrangement. The timer confirms the
first automatic arrangement for those who have not. What is sent back to the players is left out.
-/

namespace H5Server.S13s

/-! ## Checks on cards -/

def getCardColor (card : ℕ) : ℕ := card &&& 0xF0

def getCardValue (card : ℕ) : ℕ := card &&& 0x0F

/-- `(GetCardColor(card) >> 4) - 1` as a byte -/
def cardColorIndex (card : ℕ) : ℕ := (getCardColor card / 16 + 255) % 256

/-- `byCardValueColorLL` -/
def byCardValueColor (card1 card2 : ℕ) : Prop :=
  getCardValue card1 < getCardValue card2
    ∨ getCardValue card1 = getCardValue card2 ∧ getCardColor card1 ≤ getCardColor card2

instance : DecidableRel byCardValueColor := fun card1 card2 =>
  inferInstanceAs (Decidable (getCardValue card1 < getCardValue card2
    ∨ getCardValue card1 = getCardValue card2 ∧ getCardColor card1 ≤ getCardColor card2))

def sortCards (cards : List ℕ) : List ℕ := cards.insertionSort byCardValueColor

def bCheckCardIsValid (clientcards : List ℕ) : Bool :=
  clientcards.all fun card => card != 0 && cardColorIndex card ≤ 3 && getCardValue card ≤ 0x0D

/-- The pairs of equal cards are as many as the client's cards. -/
def compareAllCardsSame (handcards clientcards : List ℕ) : Bool :=
  (handcards.map fun card => clientcards.count card).sum == clientcards.length

/-- The loop that counts in `handCardColorIndex`, of which `seen` are the entries that are not zero. -/
def noRepeats : List ℕ → List (ℕ × ℕ) → Bool
  | [], _ => true
  | card :: cards, seen =>
    if card = 0 then false
    else if cardColorIndex card < 4 then
      if (cardColorIndex card, getCardValue card) ∈ seen then false
      else noRepeats cards ((cardColorIndex card, getCardValue card) :: seen)
    else noRepeats cards seen

def bCheckCard (handcards clientcards : List ℕ) : Bool :=
  clientcards.length ≤ 13 && clientcards.all (handcards.contains ·) && noRepeats clientcards []

/-- The dun that a client names. -/
def dunTyOf : ℤ → Option DunTy
  | 0 => some .dunFirst
  | 1 => some .dunSecond
  | 2 => some .dunLast
  | _ => none

/-! ## The table -/

structure Table where
  gamePlayer : ℕ
  isExistUser : ℕ → Bool
  playing : Bool
  handCards : ℕ → List ℕ
  handInfos : ℕ → HandInfo
  selectcount : ℕ
  isCompareCards : Bool

inductive Message where
  | manualCards (chairId : ℕ) (dt : ℤ) (cards : List ℕ)
  | cancelCards (chairId : ℕ) (dt : ℤ)
  | makesureDunHandTy (chairId : ℕ) (groupindex : ℤ)
  | timerGroupOver

namespace Table

variable (t : Table)

def chairIDs : List ℕ := (List.range t.gamePlayer).filter t.isExistUser

def setHand (chairId : ℕ) (h : HandInfo) : Table := { t with handInfos := Function.update t.handInfos chairId h }

/-- `StartCompareCards` asks every player for the arrangement chosen. -/
def startCompareCards : Option Table :=
  if t.isCompareCards then some t
  else if ∀ i ∈ t.chairIDs, (t.handInfos i).getSelected.isSome then some { t with isCompareCards := true }
  else none

/-- The cards for a dun pass all checks. -/
def acceptsDun (chairId : ℕ) (dt : DunTy) (cards : List ℕ) : Bool :=
  (cards.length == 0 || cards.length == dt.needC) && bCheckCardIsValid cards
    && compareAllCardsSame (t.handCards chairId) cards && bCheckCard (t.handCards chairId) cards

/-- The type of a dun laid out by hand. -/
def manualTy (rules : CardRules) (dt : DunTy) (cards : List ℕ) : HandTy :=
  if dt = .dunFirst then headTy (rules.getDunCardHandTy dt cards) else rules.getDunCardHandTy dt cards

/-- `SUB_C_MANUALCARDS` of a dun -/
def layDun (rules : CardRules) (h : HandInfo) (dt : DunTy) (cards : List ℕ) : Option HandInfo := do
  let ty := manualTy rules dt cards
  let inverted ← rules.isInverted dt cards ty h.manualGroup
  if inverted then some h.resetManual else h.selectAs dt cards ty

def onManualCards (rules : CardRules) (chairId : ℕ) (dt : ℤ) (cards : List ℕ) : Option Table :=
  if ¬t.playing then some t
  else match dunTyOf dt with
    | none => some t
    | some dt =>
      if ¬t.acceptsDun chairId dt cards then some t
      else if 0 < cards.length then
        (layDun rules (t.handInfos chairId) dt (sortCards cards)).map (t.setHand chairId)
      else some (t.setHand chairId (t.handInfos chairId).resetManual)

def onCancelCards (chairId : ℕ) (dt : ℤ) : Option Table :=
  match dunTyOf dt with
  | none => some t
  | some dt => some (t.setHand chairId ((t.handInfos chairId).resetManualDun dt))

/-- One more player has confirmed. -/
def confirmed : Option Table :=
  let t' := { t with selectcount := t.selectcount + 1 }
  if t'.selectcount < t.chairIDs.length then some t' else t'.startCompareCards

def onMakesureDunHandTy (chairId : ℕ) (groupindex : ℤ) : Option Table :=
  let h := t.handInfos chairId
  if h.hasSelected then some t
  else if groupindex = -1 ∧ ¬h.hasManualGroup then
    if h.manualGroup.getC < 13 then some t else none
  else do
    let h ← h.select groupindex
    let t := t.setHand chairId h
    if ¬h.hasSelected then some t
    else
      let g ← h.getSelected
      if ¬bCheckCardIsValid g.cards then some t
      else if ¬bCheckCard (t.handCards chairId) g.cards then some t
      else t.confirmed

/-- The first arrangement for a player who has not confirmed. -/
def selectDefault (chairId : ℕ) : Option Table :=
  if (t.handInfos chairId).hasSelected then some t
  else do
    let h ← (t.handInfos chairId).select 0
    let _ ← h.getSelected
    some { t.setHand chairId h with selectcount := t.selectcount + 1 }

def onTimerGroupOver : Option Table :=
  if t.isCompareCards then some t
  else do
    let t ← t.chairIDs.foldlM selectDefault t
    t.startCompareCards

/-- A message of a player at the table. -/
def onGameMessage (rules : CardRules) (t : Table) : Message → Option Table
  | .manualCards chairId dt cards => if chairId ∈ t.chairIDs then t.onManualCards rules chairId dt cards else none
  | .cancelCards chairId dt => if chairId ∈ t.chairIDs then t.onCancelCards chairId dt else none
  | .makesureDunHandTy chairId groupindex =>
    if chairId ∈ t.chairIDs then t.onMakesureDunHandTy chairId groupindex else none
  | .timerGroupOver => t.onTimerGroupOver

end Table

end H5Server.S13s
