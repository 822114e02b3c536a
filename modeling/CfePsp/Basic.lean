import Mathlib.Data.Int.Notation
import Mathlib.Data.Nat.Notation
import Mathlib.Tactic.Common
import CfePsp.Lib.Fields

set_option relaxedAutoImplicit false
set_option autoImplicit false

/-!
# Types and codes shared by the PSP modules

The fixed-width types of the sources and the return codes of `cfe_psp_error.h` that the
modelled functions use. An `int32` status is an integer; the unsigned words are bit vectors,
whose arithmetic wraps as the C arithmetic does.

## Main definitions

* `CfePsp.Uint32`, `CfePsp.Uint16` — the unsigned words.
* `CfePsp.Status` — the return codes.
* `CfePsp.Start`, `CfePsp.RstSubtype` — how the start-up code of a port starts cFE.
* `CfePsp.Osal` — the OSAL constants that the object ids of the PSP are built from.
-/

namespace CfePsp

/-- `uint32`. -/
abbrev Uint32 := BitVec 32

/-- `uint16`. -/
abbrev Uint16 := BitVec 16

/-! ## Return codes (`cfe_psp_error.h`) -/

namespace Status

/-- `CFE_PSP_SUCCESS`. -/
def success : ℤ := 0
/-- `CFE_PSP_ERROR`. -/
def error : ℤ := -1
/-- `CFE_PSP_ERROR_ADDRESS_MISALIGNED`. -/
def errorAddressMisaligned : ℤ := -3
/-- `CFE_PSP_INVALID_MEM_ADDR`. -/
def invalidMemAddr : ℤ := -21
/-- `CFE_PSP_INVALID_MEM_TYPE`. -/
def invalidMemType : ℤ := -22
/-- `CFE_PSP_INVALID_MEM_RANGE`. -/
def invalidMemRange : ℤ := -23
/-- `CFE_PSP_INVALID_MEM_WORDSIZE`. -/
def invalidMemWordsize : ℤ := -24
/-- `CFE_PSP_INVALID_MEM_ATTR`. -/
def invalidMemAttr : ℤ := -26
/-- `CFE_PSP_ERROR_NOT_IMPLEMENTED`. -/
def errorNotImplemented : ℤ := -27
/-- `CFE_PSP_INVALID_MODULE_NAME`. -/
def invalidModuleName : ℤ := -28
/-- `CFE_PSP_INVALID_MODULE_ID`. -/
def invalidModuleId : ℤ := -29
/-- `CFE_PSP_NO_EXCEPTION_DATA`. -/
def noExceptionData : ℤ := -30
/-- `OS_SUCCESS`, of the OSAL. -/
def osSuccess : ℤ := 0
/-- `OS_ERROR`, of the OSAL. -/
def osError : ℤ := -1

end Status

/-! ## Starts of cFE (`cfe_psp.h`) -/

namespace RstSubtype

/-- `CFE_PSP_RST_SUBTYPE_POWER_CYCLE`. -/
def powerCycle : Uint32 := 1
/-- `CFE_PSP_RST_SUBTYPE_PUSH_BUTTON`. -/
def pushButton : Uint32 := 2
/-- `CFE_PSP_RST_SUBTYPE_HW_WATCHDOG`. -/
def hwWatchdog : Uint32 := 4
/-- `CFE_PSP_RST_SUBTYPE_RESET_COMMAND`. -/
def resetCommand : Uint32 := 5
/-- `CFE_PSP_RST_SUBTYPE_UNDEFINED_RESET`. -/
def undefinedReset : Uint32 := 7

end RstSubtype

/-- The reset type and subtype that `CFE_PSP_MAIN_FUNCTION` is called with. -/
structure Start where
  resetType : Uint32
  resetSubtype : Uint32
  deriving DecidableEq

/-! ## OSAL object ids -/

/-- `OS_OBJECT_INDEX_MASK`: the low half of an object id is its index. -/
def osObjectIndexMask : Uint32 := 0xFFFF

/-- `OS_OBJECT_TYPE_SHIFT`: the high half of an object id is its type. -/
def osObjectTypeShift : ℕ := 16

/-- `OS_OBJECT_ID_UNDEFINED`, the integer value of the undefined `osal_id_t`. -/
def osObjectIdUndefined : Uint32 := 0

/-- The index of an id. -/
lemma toNat_and_indexMask (id : Uint32) : (id &&& osObjectIndexMask).toNat = id.toNat % 2 ^ 16 :=
  Window.toNat_and_mask (w := 32) (k := 16) (by omega) id

/-- An id without its index. -/
lemma toNat_and_not_indexMask (id : Uint32) :
    (id &&& ~~~osObjectIndexMask).toNat = id.toNat - id.toNat % 2 ^ 16 :=
  Field.toNat_and_not_mask (w := 32) (k := 16) (by omega) id

/-- An object type has an index of zero. -/
lemma toNat_shiftLeft_typeShift (objectType : Uint32) :
    (objectType <<< osObjectTypeShift).toNat % 2 ^ 16 = 0 := by
  simp only [osObjectTypeShift, BitVec.toNat_shiftLeft, Nat.shiftLeft_eq]
  omega

/-- The OSAL supplies the first user object type; the PSP takes the types `0x100` and `0x101`
above it for its modules and its exception entries. The type of the exception entries does not
wrap round to zero. -/
structure Osal where
  /-- `OS_OBJECT_TYPE_USER`. -/
  osObjectTypeUser : Uint32
  exceptionType_ne : (osObjectTypeUser + 0x101) <<< osObjectTypeShift ≠ 0

end CfePsp
