/-
VLESS Vision padding (`dae-resident-transport/src/vision/padding.rs` and `vision/unpadder.rs`).

A padded stream is a sequence of blocks: a command, the lengths of content and padding, the content,
the padding. The user's id stands before the first block. The last block carries `end` or `direct`;
what follows it is not padded.

Random numbers are arguments: `secure_random_range(bound)` is `random % bound`.
-/
import DaeNext.LibNet

set_option autoImplicit false

namespace DaeNext.Vision

def VISION_COMMAND_CONTINUE : UInt8 := 0

def VISION_COMMAND_END : UInt8 := 1

def VISION_COMMAND_DIRECT : UInt8 := 2

/-! ## Padding -/

def vision_padding_len (content_len : Nat) (long_padding : Bool) (random : Nat) : Nat :=
  if content_len < 900 ∧ long_padding = true then 900 - content_len + random % 500 else random % 256

/-- The block and `uuid_sent`; `padding_len` is what `vision_padding_len` gave. -/
def vision_padding_block (payload : List UInt8) (command : UInt8) (user_uuid : Vector UInt8 16)
    (uuid_sent : Bool) (padding_len : Nat) : List UInt8 × Bool :=
  let content_len := min payload.length 65535
  ((if uuid_sent then [] else user_uuid.toList) ++ command ::
      (Net.be_bytes 2 (BitVec.ofNat 16 content_len) ++ Net.be_bytes 2 (BitVec.ofNat 16 padding_len) ++
        payload.take content_len ++ List.replicate padding_len 0),
    true)

/-! ## Unpadding -/

theorem header_cases (pending : List UInt8) :
    pending.length < 5 ∨ ∃ command c₁ c₀ p₁ p₀ rest, pending = command :: c₁ :: c₀ :: p₁ :: p₀ :: rest := by
  rcases Nat.lt_or_ge pending.length 5 with hshort | hlong
  · exact .inl hshort
  · match pending, hlong with
    | command :: c₁ :: c₀ :: p₁ :: p₀ :: rest, _ => exact .inr ⟨_, _, _, _, _, _, rfl⟩

inductive VisionUnpadState where
  | Initial
  | BlockHeader
  | BlockPayload (command : UInt8) (remaining_content remaining_padding : Nat)
  | Raw
deriving DecidableEq, Repr

structure VisionUnpadder where
  user_uuid : Vector UInt8 16
  pending : List UInt8
  state : VisionUnpadState
  completed_blocks : Nat
  direct_command_seen : Bool
deriving DecidableEq

def VisionUnpadState.weight : VisionUnpadState → Nat
  | .BlockPayload .. => 1
  | _ => 0

namespace VisionUnpadder

def new (user_uuid : Vector UInt8 16) : VisionUnpadder where
  user_uuid
  pending := []
  state := .Initial
  completed_blocks := 0
  direct_command_seen := false

/-- The loop of `consume`; `pending` is what is behind the cursor. -/
def unpad (self : VisionUnpadder) (out : List UInt8) : Except String (List UInt8) × VisionUnpadder :=
  match _hstate : self.state with
  | .Initial =>
    if _hshort : self.pending.length < 21 then (.ok out, self)
    else if self.pending.take 16 ≠ self.user_uuid.toList then
      (.ok (out ++ self.pending), { self with state := .Raw, pending := [] })
    else unpad { self with state := .BlockHeader, pending := self.pending.drop 16 } out
  | .BlockHeader =>
    match _hpending : self.pending with
    | command :: c₁ :: c₀ :: p₁ :: p₀ :: rest =>
      if command = VISION_COMMAND_CONTINUE ∨ command = VISION_COMMAND_END ∨
          command = VISION_COMMAND_DIRECT then
        unpad
          { self with
            state := .BlockPayload command (Net.from_be_bytes [c₁, c₀]) (Net.from_be_bytes [p₁, p₀])
            pending := rest }
          out
      else (.error s!"unexpected VLESS Vision command: {command}", self)
    | _ => (.ok out, self)
  | .BlockPayload command remaining_content remaining_padding =>
    let take := min remaining_content self.pending.length
    let out := out ++ self.pending.take take
    if 0 < remaining_content - take then
      (.ok out, { self with
        state := .BlockPayload command (remaining_content - take) remaining_padding
        pending := self.pending.drop take })
    else
      let pending := self.pending.drop take
      let take := min remaining_padding pending.length
      if 0 < remaining_padding - take then
        (.ok out, { self with
          state := .BlockPayload command 0 (remaining_padding - take)
          pending := pending.drop take })
      else if command = VISION_COMMAND_CONTINUE then
        unpad
          { self with
            state := .BlockHeader
            pending := pending.drop take
            completed_blocks := self.completed_blocks + 1 }
          out
      else if command = VISION_COMMAND_END then
        (.ok (out ++ pending.drop take), { self with
          state := .Raw
          pending := []
          completed_blocks := self.completed_blocks + 1 })
      else
        (.ok (out ++ pending.drop take), { self with
          state := .Raw
          pending := []
          completed_blocks := self.completed_blocks + 1
          direct_command_seen := true })
  | .Raw => (.ok (out ++ self.pending), { self with pending := [] })
termination_by 2 * self.pending.length + self.state.weight
decreasing_by
  all_goals simp_all [VisionUnpadState.weight]
  all_goals omega

/-- `consume`, and `consume_shared`, which differs in who owns the bytes. -/
def consume (self : VisionUnpadder) (input : List UInt8) :
    Except String (List UInt8) × VisionUnpadder :=
  if self.state = .Raw then (.ok input, self)
  else { self with pending := self.pending ++ input }.unpad []

end VisionUnpadder

end DaeNext.Vision
