import Mathlib.Logic.Function.Basic
import PqcTpm.NvDynamic

/-!
# Object slots

`Object.c` and the part of `Entity.c` that finds entities: three slots for objects and
sequences, transient handles that are slot numbers, and the loading of persistent
objects into slots for the time of one command.
-/
namespace PqcTpm
open ByteCodec

/-- `MAX_LOADED_OBJECTS` is 3. -/
abbrev SlotIndex := Fin 3

instance SlotIndex.neZero : NeZero 3 := ⟨by decide⟩

/-- An entry of `s_objects`. A `HASH_OBJECT` is shorter than an `OBJECT` and ends before
`OBJECT.hierarchy`. -/
inductive Slot (σ : Type)
  | vacant
  | object (o : Object)
  | sequence (s : HashObject σ) (hierarchy : Hierarchy)

/-- What the HMAC over a saved context depends on beside the context itself. -/
structure ContextIntegrity where
  proof : Bytes
  totalResetCount : Nat
  clearCount : Nat
  deriving DecidableEq

/-- `TPMS_CONTEXT` of an object, with the blob in the clear. The encryption and the HMAC are taken to
do what they are for: a context that was not given out like this does not pass. -/
structure SavedContext where
  savedHandle : TpmHandle
  hierarchy : Hierarchy
  blob : Bytes
  integrity : ContextIntegrity
  deriving DecidableEq

/-- The state that commands on other entities than slots may change as well. -/
structure Surroundings where
  nv : NvState := {}
  /-- `NV_IS_ORDERLY`. -/
  orderly : Bool := false
  disableClear : Bool := false
  failedTries : Nat := 0
  recoveryTime : Nat := 1000
  lockOutAuthEnabled : Bool := true

structure TpmState (σ : Type) extends Surroundings where
  slots : SlotIndex → Slot σ := fun _ => .vacant
  /-- The contexts that the TPM has given out. -/
  contexts : List SavedContext := []
  phEnable : Bool := true
  shEnable : Bool := true
  ehEnable : Bool := true
  proof : Hierarchy → Bytes := fun _ => []
  totalResetCount : Nat := 0
  clearCount : Nat := 0
  /-- `g_DRTMHandle`. -/
  drtm : Option SlotIndex := none
  inFailureMode : Bool := false

/-- What the machine is built over: the state codec of the crypto library, the layout of plain
objects and the profile. -/
structure Platform (σ : Type) where
  hs : HashStateCodec σ
  layout : RawLayout
  profile : RuntimeProfile

namespace Slot
variable {σ : Type}

def attributes : Slot σ → ObjectAttributes
  | .vacant => {}
  | .object o => o.attributes
  | .sequence s _ => s.attributes

def occupied : Slot σ → Bool
  | .vacant => false
  | .object _ | .sequence _ _ => true

def isSequence : Slot σ → Bool
  | .sequence _ _ => true
  | .vacant | .object _ => false

/-- `OBJECT.hierarchy`. -/
def hierarchy : Slot σ → Hierarchy
  | .vacant => .null
  | .object o => o.hierarchy
  | .sequence _ h => h

/-- `publicArea.objectAttributes`, which a `HASH_OBJECT` has at the same place. -/
def objectAttributes : Slot σ → TpmaObject
  | .vacant => {}
  | .object o => o.publicArea.objectAttributes
  | .sequence s _ => s.objectAttributes

/-- What `ANY_OBJECT_Unmarshal` leaves in a slot whose hierarchy was `TPM_RH_NULL`. -/
def ofAnyObject : AnyObject σ → Slot σ
  | .object o => .object o
  | .sequence s => .sequence s .null
  | .vacant _ => .vacant

/-- What `ANY_OBJECT_Marshal` is given. -/
def toAnyObject : Slot σ → AnyObject σ
  | .vacant => .vacant {}
  | .object o => .object o
  | .sequence s _ => .sequence s

end Slot

/-! ## Handles -/

section
variable {σ : Type}

/-- The slot of a transient handle. -/
def slotOf (handle : TpmHandle) : Option SlotIndex :=
  if h : (handle - TpmHandle.transientFirst).toNat < 3 then some ⟨_, h⟩ else none

def slotHandle (i : SlotIndex) : TpmHandle := TpmHandle.transientFirst + UInt32.ofNat i.val

@[simp] theorem slotOf_slotHandle (i : SlotIndex) : slotOf (slotHandle i) = some i := by
  revert i
  decide

theorem slotHandle_transient (i : SlotIndex) : (slotHandle i).getType = TpmHandle.htTransient := by
  revert i
  decide

theorem slotHandle_not_permanent (i : SlotIndex) : (slotHandle i).getType ≠ TpmHandle.htPermanent := by
  revert i
  decide

/-- The handles that `HandleToObject` and `IsDAExempted` set apart are those of no slot. -/
theorem slotHandle_not_reserved (i : SlotIndex) :
    ¬ (0x80FF0000 ≤ slotHandle i ∧ slotHandle i ≤ 0x80FF00FF) := by
  revert i
  decide

theorem slotHandle_of_slotOf {handle : TpmHandle} {i : SlotIndex} (h : slotOf handle = some i) :
    handle = slotHandle i := by
  unfold slotOf at h
  split at h
  · cases h
    have hback : UInt32.ofNat (handle - TpmHandle.transientFirst).toNat =
        handle - TpmHandle.transientFirst := UInt32.ofNat_toNat
    rw [slotHandle, hback, UInt32.add_comm, UInt32.sub_add_cancel]
  · cases h

namespace TpmState

def setSlot (s : TpmState σ) (i : SlotIndex) (x : Slot σ) : TpmState σ :=
  { s with slots := Function.update s.slots i x }

@[simp] theorem setSlot_same (s : TpmState σ) (i : SlotIndex) (x : Slot σ) :
    (s.setSlot i x).slots i = x := by
  unfold setSlot
  exact Function.update_self i x s.slots

theorem setSlot_other (s : TpmState σ) {i j : SlotIndex} (x : Slot σ) (h : j ≠ i) :
    (s.setSlot i x).slots j = s.slots j := by
  unfold setSlot
  exact Function.update_of_ne h x s.slots

theorem setSlot_slots (s : TpmState σ) (i j : SlotIndex) (x : Slot σ) :
    (s.setSlot i x).slots j = if j = i then x else s.slots j := by
  by_cases h : j = i
  · rw [if_pos h, h, setSlot_same]
  · rw [if_neg h, setSlot_other s x h]

/-- `IsObjectPresent`. -/
def isObjectPresent (s : TpmState σ) (handle : TpmHandle) : Bool :=
  (slotOf handle).any fun i => (s.slots i).occupied

/-- `HandleToObject`: no object for a permanent handle, an assertion for an empty slot. -/
def handleToObject (s : TpmState σ) (handle : TpmHandle) : Except Fault (Option SlotIndex) :=
  if handle.getType = TpmHandle.htPermanent then .ok none
  else if 0x80FF0000 ≤ handle ∧ handle ≤ 0x80FF00FF then .ok none
  else match slotOf handle with
    | none => .error .failureMode
    | some i => if (s.slots i).occupied then .ok (some i) else .error .failureMode

/-- `FindEmptyObjectSlot`: the first one that is free. -/
def findEmptyObjectSlot (s : TpmState σ) : Option SlotIndex :=
  (List.finRange 3).find? fun i => !(s.slots i).occupied

theorem findEmptyObjectSlot_vacant {s : TpmState σ} {i : SlotIndex} (h : s.findEmptyObjectSlot = some i) :
    s.slots i = .vacant := by
  have hfree := List.find?_some h
  cases hx : s.slots i with
  | vacant => rfl
  | object o => simp [hx, Slot.occupied] at hfree
  | sequence q hierarchy => simp [hx, Slot.occupied] at hfree

/-- `FlushObject`. -/
def flushObject (s : TpmState σ) (i : SlotIndex) : TpmState σ := s.setSlot i .vacant

/-- Slots that `p` selects are freed. -/
def freeSlots (s : TpmState σ) (p : Slot σ → Bool) : TpmState σ :=
  { s with slots := fun i => if p (s.slots i) then .vacant else s.slots i }

/-- `ObjectCleanupEvict`. -/
def objectCleanupEvict (s : TpmState σ) : TpmState σ := s.freeSlots fun x => x.attributes.evict

/-- `ObjectFlushHierarchy`. -/
def objectFlushHierarchy (s : TpmState σ) (h : Hierarchy) : TpmState σ :=
  s.freeSlots fun x => x.attributes.inHierarchy h

/-- `ValidateHierarchy` for the permanent handles that name a hierarchy. -/
def hierarchyIsEnabled (s : TpmState σ) : Hierarchy → Bool
  | .platform => s.phEnable
  | .owner => s.shEnable
  | .endorsement => s.ehEnable
  | .null => true

/-! ## Persistent objects -/

def findEvict (s : TpmState σ) (handle : TpmHandle) : Option Bytes :=
  s.nv.user.findSome? fun e =>
    match e with
    | .evict h record => if h = handle then some record else none
    | .index _ _ => none

/-- The object behind a persistent handle, marked for the cleanup at the end of the command. -/
def nvGetEvictObject (P : Platform σ) (s : TpmState σ) (handle : TpmHandle) : Except Fault Object :=
  match s.findEvict handle with
  | none => .error (.of .handle)
  | some record =>
      match nvReadObject P.hs P.layout P.profile {} record with
      | .ok (.object o) => .ok { o with attributes := { o.attributes with evict := true } }
      -- only objects are ever written
      | .ok _ => .error .failureMode
      | .error e => .error e

/-- The upper half of the persistent handles belongs to the platform. -/
def persistentEnabled (s : TpmState σ) (handle : TpmHandle) : Bool :=
  if 0x81800000 ≤ handle then s.phEnable else s.shEnable

/-- `ObjectLoadEvict`. A slot that was taken before a failure is free again after the command. -/
def objectLoadEvict (P : Platform σ) (isEvictControl : Bool) (s : TpmState σ) (handle : TpmHandle) :
    Except Fault (TpmHandle × TpmState σ) :=
  if !s.persistentEnabled handle then .error (.of .handle)
  else match s.findEmptyObjectSlot with
    | none => .error (.of .objectMemory)
    | some i =>
        match s.nvGetEvictObject P handle with
        | .error e => .error e
        | .ok o =>
            if o.hierarchy = .endorsement ∧ s.ehEnable = false ∧ isEvictControl = false then
              .error (.of .handle)
            else .ok (slotHandle i, s.setSlot i (.object o))

/-- A round of `EntityGetLoadStatus`. Handles of other types than the two that are about slots are
checked by their own subsystems. -/
def entityLoad (P : Platform σ) (isEvictControl : Bool) (s : TpmState σ) (handle : TpmHandle) :
    Except Fault (TpmHandle × TpmState σ) :=
  if handle.getType = TpmHandle.htTransient then
    if s.isObjectPresent handle then .ok (handle, s) else .error (.of .referenceH0)
  else if handle.getType = TpmHandle.htPersistent then s.objectLoadEvict P isEvictControl handle
  else .ok (handle, s)

/-- `EntityGetLoadStatus`: the handles of a command, those of persistent objects replaced. -/
def entityGetLoadStatus (P : Platform σ) (isEvictControl : Bool) :
    TpmState σ → List TpmHandle → Except Fault (List TpmHandle × TpmState σ)
  | s, [] => .ok ([], s)
  | s, handle :: rest =>
      match s.entityLoad P isEvictControl handle with
      | .error e => .error e
      | .ok (handle', s') =>
          match entityGetLoadStatus P isEvictControl s' rest with
          | .error e => .error e
          | .ok (rest', s'') => .ok (handle' :: rest', s'')

/-- Loading a persistent object fills a free slot with an object that is marked `evict`. -/
theorem objectLoadEvict_ok {P : Platform σ} {b : Bool} {s s' : TpmState σ} {handle handle' : TpmHandle}
    (h : s.objectLoadEvict P b handle = .ok (handle', s')) :
    ∃ i o, s.findEmptyObjectSlot = some i ∧ s.nvGetEvictObject P handle = .ok o ∧
      handle' = slotHandle i ∧ s' = s.setSlot i (.object o) := by
  unfold objectLoadEvict at h
  split at h
  · cases h
  · split at h
    · cases h
    · rename_i i hi
      split at h
      · cases h
      · rename_i o ho
        split at h
        · cases h
        · cases h
          exact ⟨i, o, hi, ho, rfl, rfl⟩

theorem nvGetEvictObject_evict {P : Platform σ} {s : TpmState σ} {handle : TpmHandle} {o : Object}
    (h : s.nvGetEvictObject P handle = .ok o) : o.attributes.evict = true := by
  unfold nvGetEvictObject at h
  split at h
  · cases h
  · split at h
    · cases h
      rfl
    · cases h
    · cases h

end TpmState
end
end PqcTpm
