/-
`dae-core-types/src/outbound.rs`: the outbound byte of a match set.

Ids 0 and 1 are built in, ids from 2 to 0xFB are the configured groups in order.
The four values above are not destinations: `must_rules` sets a flag and falls
through, 0xFD hands a packet to the control plane, and the two logical markers
say that a rule goes on in the next match set.
-/
import Mathlib.Logic.Basic

set_option autoImplicit false

namespace DaeNext.CoreTypes

/-- `OutboundIndex`, a newtype of `u8`. -/
structure OutboundIndex where
  value : UInt8
  deriving DecidableEq

namespace OutboundIndex

def DIRECT : OutboundIndex := ⟨0⟩
def BLOCK : OutboundIndex := ⟨1⟩
def USER_DEFINED_MIN : OutboundIndex := ⟨2⟩
def MUST_RULES : OutboundIndex := ⟨0xFC⟩
def CONTROL_PLANE_ROUTING : OutboundIndex := ⟨0xFD⟩
def LOGICAL_OR : OutboundIndex := ⟨0xFE⟩
def LOGICAL_AND : OutboundIndex := ⟨0xFF⟩
def LOGICAL_MASK : OutboundIndex := ⟨0xFE⟩
def USER_DEFINED_MAX : OutboundIndex := ⟨MUST_RULES.value - 1⟩

/-- The test both evaluators make for a match set that ends a rule. -/
def ends_rule (outbound : OutboundIndex) : Bool :=
  outbound.value &&& LOGICAL_MASK.value != LOGICAL_MASK.value

theorem ends_rule_iff (outbound : OutboundIndex) :
    outbound.ends_rule = true ↔ outbound ≠ LOGICAL_OR ∧ outbound ≠ LOGICAL_AND := by
  obtain ⟨v⟩ := outbound
  simp only [ends_rule, bne_iff_ne, ne_eq, LOGICAL_OR, LOGICAL_AND, LOGICAL_MASK,
    OutboundIndex.mk.injEq]
  have key : ∀ b : BitVec 8, b &&& 0xFE#8 = 0xFE#8 ↔ b = 0xFE#8 ∨ b = 0xFF#8 := by decide
  have hv : v &&& 0xFE = 0xFE ↔ v = 0xFE ∨ v = 0xFF := by
    simpa [← UInt8.toBitVec_inj] using key v.toBitVec
  rw [hv, not_or]

end OutboundIndex

end DaeNext.CoreTypes
