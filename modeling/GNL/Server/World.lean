import GNL.Common.NetPacket
import Mathlib.Data.List.AList

/-! # Characters and the world (`Character.h`, `World.h`)

A character has a 16-bit ID. The world keeps the characters under 32-bit keys.
-/

namespace GNL

/-- `Character`; `m_World` says whether the pointer is set, and there is only
one world it can point to. -/
structure Character where
  m_TCPConnection : Option ConnRef
  m_ID : UInt16
  pos : Double × Double
  m_World : Bool
  deriving DecidableEq

namespace Character

instance : Inhabited Character := ⟨⟨none, 0, (Double.zero, Double.zero), false⟩⟩

def SetID (cha : Character) (id : UInt16) : Character := { cha with m_ID := id }

def GetID (cha : Character) : UInt16 := cha.m_ID

def SetTCPConnection (cha : Character) (ptr : Option ConnRef) : Character :=
  { cha with m_TCPConnection := ptr }

def GetTCPConnection (cha : Character) : Option ConnRef := cha.m_TCPConnection

def SetWorld (cha : Character) : Character := { cha with m_World := true }

def GetPosX (cha : Character) : Double := cha.pos.1

def GetPosY (cha : Character) : Double := cha.pos.2

end Character

/-- `std::unordered_map<uint32_t, Character>`. -/
abbrev ChaMap := AList fun _ : UInt32 => Character

abbrev ChaEntry := Sigma fun _ : UInt32 => Character

namespace ChaMap

/-- `unordered_map::insert` leaves an entry that is already there as it is. -/
def AddChaToWorld (m_chaMap : ChaMap) (chaID : UInt32) (cha : Character) : ChaMap :=
  if chaID ∈ m_chaMap then m_chaMap else m_chaMap.insert chaID cha

def RemoveChaFromWorld (m_chaMap : ChaMap) (chaID : UInt32) : ChaMap :=
  m_chaMap.erase chaID

theorem mem_of_lookup {m_chaMap : ChaMap} {key : UInt32} {cha : Character}
    (found : m_chaMap.lookup key = some cha) : key ∈ m_chaMap := by
  rw [← AList.lookup_isSome, found]
  rfl

theorem lookup_AddChaToWorld_ne (m_chaMap : ChaMap) {chaID key : UInt32} (cha : Character)
    (different : key ≠ chaID) :
    (m_chaMap.AddChaToWorld chaID cha).lookup key = m_chaMap.lookup key := by
  unfold AddChaToWorld
  split
  · rfl
  · exact AList.lookup_insert_ne different

theorem lookup_AddChaToWorld_of_mem {m_chaMap : ChaMap} {chaID : UInt32} (cha : Character)
    (present : chaID ∈ m_chaMap) :
    (m_chaMap.AddChaToWorld chaID cha).lookup chaID = m_chaMap.lookup chaID := by
  rw [AddChaToWorld, if_pos present]

theorem lookup_AddChaToWorld_of_notMem {m_chaMap : ChaMap} {chaID : UInt32} (cha : Character)
    (absent : chaID ∉ m_chaMap) :
    (m_chaMap.AddChaToWorld chaID cha).lookup chaID = some cha := by
  rw [AddChaToWorld, if_neg absent, AList.lookup_insert]

theorem lookup_AddChaToWorld {m_chaMap : ChaMap} {chaID key : UInt32} {cha found : Character}
    (lookup : (m_chaMap.AddChaToWorld chaID cha).lookup key = some found) :
    m_chaMap.lookup key = some found ∨ key = chaID ∧ found = cha := by
  by_cases same : key = chaID
  · subst same
    by_cases present : key ∈ m_chaMap
    · rw [lookup_AddChaToWorld_of_mem cha present] at lookup
      exact .inl lookup
    · rw [lookup_AddChaToWorld_of_notMem cha present] at lookup
      exact .inr ⟨rfl, (Option.some.inj lookup).symm⟩
  · rw [lookup_AddChaToWorld_ne m_chaMap cha same] at lookup
    exact .inl lookup

theorem lookup_AddChaToWorld_of_some {m_chaMap : ChaMap} {chaID key : UInt32}
    {cha found : Character} (lookup : m_chaMap.lookup key = some found) :
    (m_chaMap.AddChaToWorld chaID cha).lookup key = some found := by
  by_cases same : key = chaID
  · subst same
    rw [lookup_AddChaToWorld_of_mem cha (mem_of_lookup lookup), lookup]
  · rw [lookup_AddChaToWorld_ne m_chaMap cha same, lookup]

theorem lookup_RemoveChaFromWorld {m_chaMap : ChaMap} {chaID key : UInt32} :
    (m_chaMap.RemoveChaFromWorld chaID).lookup key =
      if key = chaID then none else m_chaMap.lookup key := by
  split
  next same => rw [same, RemoveChaFromWorld, AList.lookup_erase]
  next different => exact AList.lookup_erase_ne different

end ChaMap

end GNL
