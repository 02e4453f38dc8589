import H5Server.S13s.Compare
import Mathlib.Data.List.Sort
import Mathlib.Tactic.SplitIfs

/-! # The arrangements of one player (`CGameLogic::handinfo_t`)

A player chooses one of `groups` by its index. The automatic arrangements come first, and the manual
one follows as long as it is complete. Assertions that fail are `none`.
-/

namespace H5Server.S13s

/-- How single duns are typed, and compared where they have the same type. -/
structure CardRules where
  getDunCardHandTy : DunTy → List ℕ → HandTy
  compareCards : List ℕ → List ℕ → HandTy → ℤ
  compareCards_swap : ∀ src dst ty, 0 < compareCards src dst ty ↔ compareCards dst src ty < 0
  front : ∀ cards, headTy (getDunCardHandTy .dunFirst cards) ∈ [HandTy.tysp, .ty20, .ty30]

/-- `dundata_t::Reset` -/
def Dun.empty : Dun := ⟨.tysp, []⟩

namespace GroupDun

def reset : GroupDun := ⟨.tysp, fun _ => .empty⟩

def getC (g : GroupDun) : ℕ :=
  (g.duns .dunFirst).cards.length + (g.duns .dunSecond).cards.length + (g.duns .dunLast).cards.length

def needC (g : GroupDun) (dt : DunTy) : ℤ := dt.needC - (g.duns dt).cards.length

def setDun (g : GroupDun) (dt : DunTy) (dun : Dun) : GroupDun := { g with duns := Function.update g.duns dt dun }

def assign (g : GroupDun) (dt : DunTy) (ty : HandTy) (src : List ℕ) : Option GroupDun :=
  if 0 < src.length ∧ src.length ≤ dt.needC ∧ (g.duns dt).ty = .tysp ∧ (g.duns dt).cards = [] then
    some (g.setDun dt ⟨ty, src⟩)
  else none

/-- The cards of the three duns. -/
def cards (g : GroupDun) : List ℕ :=
  (g.duns .dunFirst).cards ++ (g.duns .dunSecond).cards ++ (g.duns .dunLast).cards

end GroupDun

/-- A pointer in `groups`. -/
inductive GroupRef where
  | auto (g : GroupDun)
  | manual

structure HandInfo where
  specGroups : List GroupDun
  enumGroups : List GroupDun
  manualGroup : GroupDun
  manualGroupIndex : ℤ
  selectGroupIndex : ℤ
  groups : List GroupRef
  manual : Bool

namespace CardRules

variable (rules : CardRules)

/-- The cards are larger than another dun. -/
def exceeds (src : List ℕ) (ty : HandTy) (dst : Dun) : Bool :=
  if ty ≠ dst.ty then dst.ty.rank < ty.rank else 0 < rules.compareCards src dst.cards ty

/-- The cards are smaller than another dun. -/
def fallsBelow (src : List ℕ) (ty : HandTy) (dst : Dun) : Bool :=
  if ty ≠ dst.ty then ty.rank < dst.ty.rank else rules.compareCards src dst.cards ty < 0

def isInverted (dt : DunTy) (src : List ℕ) (ty : HandTy) (dst : GroupDun) : Option Bool :=
  match dt with
  | .dunFirst =>
    if headTy ty = .tysp ∨ headTy ty = .ty20 ∨ headTy ty = .ty30 then
      some (dst.needC .dunSecond == 0 && rules.exceeds src (headTy ty) (dst.duns .dunSecond)
        || dst.needC .dunLast == 0 && rules.exceeds src (headTy ty) (dst.duns .dunLast))
    else none
  | .dunSecond =>
    some (dst.needC .dunFirst == 0 && rules.fallsBelow src ty (dst.duns .dunFirst)
      || dst.needC .dunLast == 0 && rules.exceeds src ty (dst.duns .dunLast))
  | .dunLast =>
    some (dst.needC .dunFirst == 0 && rules.fallsBelow src ty (dst.duns .dunFirst)
      || dst.needC .dunSecond == 0 && rules.fallsBelow src ty (dst.duns .dunSecond))

end CardRules

namespace HandInfo

variable (h : HandInfo)

def hasSelected : Bool := h.selectGroupIndex != -1

def hasManualGroup : Bool := h.manualGroupIndex != -1

def isManualSelected : Bool := h.selectGroupIndex != -1 && h.selectGroupIndex == h.manualGroupIndex

/-- The complete manual arrangement joins the groups once. -/
def joinGroups : HandInfo :=
  if h.manualGroupIndex = -1 ∧ (h.manualGroup.duns .dunFirst).cards.length = 3
      ∧ (h.manualGroup.duns .dunSecond).cards.length = 5 ∧ (h.manualGroup.duns .dunLast).cards.length = 5 then
    { h with groups := h.groups ++ [.manual], manualGroupIndex := h.groups.length }
  else h

def selectAs (dt : DunTy) (src : List ℕ) (ty : HandTy) : Option HandInfo :=
  if 0 < (h.manualGroup.duns dt).cards.length then some h
  else (h.manualGroup.assign dt ty src).map fun g => joinGroups { h with manualGroup := g }

/-- The manual arrangement leaves the groups. -/
def leaveGroups : HandInfo :=
  if h.manualGroupIndex ≠ -1 then { h with groups := h.groups.dropLast, manualGroupIndex := -1 } else h

def resetManual : HandInfo := { h.leaveGroups with manualGroup := .reset }

/-- `ResetManual` of one dun, of which only complete ones are emptied. -/
def resetManualDun (dt : DunTy) : HandInfo :=
  if h.manualGroup.needC dt = 0 then
    { h.leaveGroups with manualGroup := h.manualGroup.setDun dt .empty }
  else h.leaveGroups

def select (groupindex : ℤ) : Option HandInfo :=
  if 0 ≤ groupindex then
    if 0 < h.specGroups.length then
      if h.specGroups.length = 1 ∧ 0 < h.enumGroups.length
          ∧ groupindex < h.specGroups.length + h.enumGroups.length ∧ 0 < h.groups.length then
        some { h with selectGroupIndex := groupindex, manual := false }
      else none
    else if 0 < h.enumGroups.length ∧ groupindex < h.enumGroups.length then
      some { h with selectGroupIndex := groupindex, manual := false }
    else none
  else if h.manualGroupIndex ≠ -1 ∧ h.manualGroup.getC = 13 then
    some { h with selectGroupIndex := h.manualGroupIndex, manual := true }
  else none

def deref : GroupRef → GroupDun
  | .auto g => g
  | .manual => h.manualGroup

def getSelected : Option GroupDun :=
  if 0 ≤ h.selectGroupIndex then (h.groups[h.selectGroupIndex.toNat]?).map h.deref else none

end HandInfo

end H5Server.S13s
