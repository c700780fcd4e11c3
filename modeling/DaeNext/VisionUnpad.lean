/-
Unpadding undoes padding, however the stream is cut.

The loop of the unpadder has one rule for each way a turn can go. From the rules: the unpadder is
seamless, so a cut of the stream makes no difference; a block is taken off the front of the stream;
and the first part of a block only moves the unpadder within the block.
-/
import DaeNext.LibSegments
import DaeNext.VisionPadding

set_option autoImplicit false

namespace DaeNext.Vision

open Net VisionUnpadder
open List (append_assoc append_nil cons_append length_append length_cons length_drop nil_append)

namespace VisionUnpadder

/-! ## The rules of the loop -/

/-- The rules, one for each way a turn can go. -/
inductive Unpads : VisionUnpadder → List UInt8 → Except String (List UInt8) × VisionUnpadder → Prop
  | initial_short {user_uuid pending blocks direct out} (h : pending.length < 21) :
      Unpads ⟨user_uuid, pending, .Initial, blocks, direct⟩ out
        (.ok out, ⟨user_uuid, pending, .Initial, blocks, direct⟩)
  | initial_other {user_uuid pending blocks direct out} (h : 21 ≤ pending.length)
      (hother : pending.take 16 ≠ user_uuid.toList) :
      Unpads ⟨user_uuid, pending, .Initial, blocks, direct⟩ out
        (.ok (out ++ pending), ⟨user_uuid, [], .Raw, blocks, direct⟩)
  | initial_user {user_uuid pending blocks direct out result} (h : 21 ≤ pending.length)
      (huser : pending.take 16 = user_uuid.toList)
      (hrest : Unpads ⟨user_uuid, pending.drop 16, .BlockHeader, blocks, direct⟩ out result) :
      Unpads ⟨user_uuid, pending, .Initial, blocks, direct⟩ out result
  | header_short {user_uuid pending blocks direct out} (h : pending.length < 5) :
      Unpads ⟨user_uuid, pending, .BlockHeader, blocks, direct⟩ out
        (.ok out, ⟨user_uuid, pending, .BlockHeader, blocks, direct⟩)
  | header {user_uuid command c₁ c₀ p₁ p₀ rest blocks direct out result}
      (h : command = VISION_COMMAND_CONTINUE ∨ command = VISION_COMMAND_END ∨
        command = VISION_COMMAND_DIRECT)
      (hrest : Unpads ⟨user_uuid, rest, .BlockPayload command (from_be_bytes [c₁, c₀])
        (from_be_bytes [p₁, p₀]), blocks, direct⟩ out result) :
      Unpads ⟨user_uuid, command :: c₁ :: c₀ :: p₁ :: p₀ :: rest, .BlockHeader, blocks, direct⟩ out result
  | header_invalid {user_uuid command c₁ c₀ p₁ p₀ rest blocks direct out}
      (h : ¬ (command = VISION_COMMAND_CONTINUE ∨ command = VISION_COMMAND_END ∨
        command = VISION_COMMAND_DIRECT)) :
      Unpads ⟨user_uuid, command :: c₁ :: c₀ :: p₁ :: p₀ :: rest, .BlockHeader, blocks, direct⟩ out
        (.error s!"unexpected VLESS Vision command: {command}",
          ⟨user_uuid, command :: c₁ :: c₀ :: p₁ :: p₀ :: rest, .BlockHeader, blocks, direct⟩)
  | payload_short {user_uuid pending command content padding blocks direct out}
      (h : pending.length < content + padding) :
      Unpads ⟨user_uuid, pending, .BlockPayload command content padding, blocks, direct⟩ out
        (.ok (out ++ pending.take content), ⟨user_uuid, [], .BlockPayload command
          (content - pending.length) (padding - (pending.length - content)), blocks, direct⟩)
  | continue_ {user_uuid pending content padding blocks direct out result}
      (h : content + padding ≤ pending.length)
      (hrest : Unpads ⟨user_uuid, pending.drop (content + padding), .BlockHeader, blocks + 1, direct⟩
        (out ++ pending.take content) result) :
      Unpads ⟨user_uuid, pending, .BlockPayload VISION_COMMAND_CONTINUE content padding, blocks, direct⟩
        out result
  | terminal {user_uuid pending command content padding blocks direct out}
      (hcommand : command ≠ VISION_COMMAND_CONTINUE) (h : content + padding ≤ pending.length) :
      Unpads ⟨user_uuid, pending, .BlockPayload command content padding, blocks, direct⟩ out
        (.ok (out ++ pending.take content ++ pending.drop (content + padding)),
          ⟨user_uuid, [], .Raw, blocks + 1, direct || command != VISION_COMMAND_END⟩)
  | raw {user_uuid pending blocks direct out} :
      Unpads ⟨user_uuid, pending, .Raw, blocks, direct⟩ out
        (.ok (out ++ pending), ⟨user_uuid, [], .Raw, blocks, direct⟩)

variable {self : VisionUnpadder} {out : List UInt8} {result : Except String (List UInt8) × VisionUnpadder}

theorem Unpads.unpad_eq (h : Unpads self out result) : self.unpad out = result := by
  induction h with
  | initial_short h =>
    rw [unpad]
    rw [dif_pos h]
  | initial_other h hother =>
    rw [unpad]
    rw [dif_neg (Nat.not_lt.mpr h), if_pos hother]
  | initial_user h huser _ ih =>
    rw [unpad]
    rw [dif_neg (Nat.not_lt.mpr h), if_neg (not_not.mpr huser), ih]
  | header_short h =>
    rw [unpad]
    dsimp only
    split
    · simp only [length_cons] at h
      omega
    · rfl
  | header h _ ih =>
    rw [unpad]
    dsimp only
    rw [if_pos h, ih]
  | header_invalid h =>
    rw [unpad]
    dsimp only
    rw [if_neg h]
  | @payload_short user_uuid pending command content padding blocks direct out h =>
    rw [unpad]
    dsimp only
    rcases Nat.lt_or_ge pending.length content with hshort | hcontent
    · rw [Nat.min_eq_right (Nat.le_of_lt hshort), List.take_length, List.drop_length, if_pos (by omega),
        List.take_of_length_le (Nat.le_of_lt hshort), Nat.sub_eq_zero_of_le (Nat.le_of_lt hshort)]
      rfl
    · have hrest : (pending.drop content).length ≤ padding := by
        rw [length_drop]
        omega
      rw [Nat.min_eq_left hcontent, if_neg (by omega), Nat.min_eq_right hrest, List.drop_length,
        length_drop, if_pos (by omega), Nat.sub_eq_zero_of_le hcontent]
  | @continue_ user_uuid pending content padding blocks direct out result h _ ih =>
    have hrest : padding ≤ (pending.drop content).length := by
      rw [length_drop]
      omega
    rw [unpad]
    dsimp only
    rw [Nat.min_eq_left (by omega), if_neg (by omega), Nat.min_eq_left hrest, if_neg (by omega),
      if_pos rfl, List.drop_drop, ih]
  | @terminal user_uuid pending command content padding blocks direct out hcommand h =>
    have hrest : padding ≤ (pending.drop content).length := by
      rw [length_drop]
      omega
    rw [unpad]
    dsimp only
    rw [Nat.min_eq_left (by omega), if_neg (by omega), Nat.min_eq_left hrest, if_neg (by omega),
      if_neg hcommand, List.drop_drop]
    by_cases hend : command = VISION_COMMAND_END
    · rw [if_pos hend, hend]
      simp
    · simp [hend]
  | raw => rw [unpad]

/-- The induction is on what is left to do: the bytes, and whether a block is open. -/
theorem exists_unpads (n : Nat) : ∀ (self : VisionUnpadder) (out : List UInt8),
    2 * self.pending.length + self.state.weight < n → ∃ result, Unpads self out result := by
  induction n with
  | zero => exact fun _ _ hlt => absurd hlt (Nat.not_lt_zero _)
  | succ n ih =>
    rintro ⟨user_uuid, pending, state, blocks, direct⟩ out hlt
    cases state with
    | Initial =>
      rcases Nat.lt_or_ge pending.length 21 with hshort | hlong
      · exact ⟨_, .initial_short hshort⟩
      · by_cases huser : pending.take 16 = user_uuid.toList
        · refine (ih _ _ ?_).imp fun _ => .initial_user hlong huser
          simp only [VisionUnpadState.weight, length_drop] at hlt ⊢
          omega
        · exact ⟨_, .initial_other hlong huser⟩
    | BlockHeader =>
      obtain hshort | ⟨command, c₁, c₀, p₁, p₀, rest, rfl⟩ := header_cases pending
      · exact ⟨_, .header_short hshort⟩
      · by_cases hcommand : command = VISION_COMMAND_CONTINUE ∨ command = VISION_COMMAND_END ∨
          command = VISION_COMMAND_DIRECT
        · refine (ih _ _ ?_).imp fun _ => .header hcommand
          simp only [VisionUnpadState.weight, length_cons] at hlt ⊢
          omega
        · exact ⟨_, .header_invalid hcommand⟩
    | BlockPayload command content padding =>
      rcases Nat.lt_or_ge pending.length (content + padding) with hshort | hdone
      · exact ⟨_, .payload_short hshort⟩
      · by_cases hcommand : command = VISION_COMMAND_CONTINUE
        · subst hcommand
          refine (ih _ _ ?_).imp fun _ => .continue_ hdone
          simp only [VisionUnpadState.weight, length_drop] at hlt ⊢
          omega
        · exact ⟨_, .terminal hcommand hdone⟩
    | Raw => exact ⟨_, .raw⟩

theorem unpads (self : VisionUnpadder) (out : List UInt8) : Unpads self out (self.unpad out) := by
  obtain ⟨result, h⟩ := exists_unpads _ self out (Nat.lt_succ_self _)
  rw [h.unpad_eq]
  exact h

variable {user_uuid : Vector UInt8 16} {blocks : Nat} {direct : Bool} {command : UInt8} {content padding : Nat}

/-- The first bytes of an open block only move the unpadder within the block. -/
theorem unpad_payload_append {first : List UInt8} (more : List UInt8)
    (hfirst : first.length ≤ content + padding) :
    unpad ⟨user_uuid, first ++ more, .BlockPayload command content padding, blocks, direct⟩ out
      = unpad ⟨user_uuid, more,
          .BlockPayload command (content - first.length) (padding - (first.length - content)),
          blocks, direct⟩ (out ++ first.take content) := by
  have hlen : (first ++ more).length = first.length + more.length := length_append
  have htake : (first ++ more).take content = first.take content ++ more.take (content - first.length) :=
    List.take_append
  rcases Nat.lt_or_ge (first ++ more).length (content + padding) with hshort | hdone
  · rw [(Unpads.payload_short hshort).unpad_eq, (Unpads.payload_short (by omega)).unpad_eq, htake,
      append_assoc, hlen]
    congr 3
    · omega
    · omega
  · have hdrop : (first ++ more).drop (content + padding)
        = more.drop (content - first.length + (padding - (first.length - content))) := by
      rw [List.drop_append, List.drop_eq_nil_of_le hfirst, nil_append]
      congr 1
      omega
    by_cases hcommand : command = VISION_COMMAND_CONTINUE
    · subst hcommand
      rw [(Unpads.continue_ hdone (unpads _ _)).unpad_eq,
        (Unpads.continue_ (by omega) (unpads _ _)).unpad_eq, htake, hdrop, append_assoc]
    · rw [(Unpads.terminal hcommand hdone).unpad_eq, (Unpads.terminal hcommand (by omega)).unpad_eq, htake,
        hdrop]
      simp only [append_assoc]

/-! ## Cuts -/

/-- What a result of the loop says of more input: after a result it goes on from there, an error
stays. Bytes that need no unpadding are never kept. -/
def Extends (self : VisionUnpadder) (out more : List UInt8) :
    Except String (List UInt8) × VisionUnpadder → Prop
  | (.ok result, next) =>
    unpad { self with pending := self.pending ++ more } out
        = unpad { next with pending := next.pending ++ more } result ∧
      (next.state = .Raw → next.pending = [])
  | (.error error, _) => (unpad { self with pending := self.pending ++ more } out).1 = .error error

theorem Unpads.extends (more : List UInt8) (h : Unpads self out result) :
    Extends self out more result := by
  induction h with
  | initial_short h | header_short h => exact ⟨rfl, nofun⟩
  | @initial_other user_uuid pending blocks direct out h hother =>
    refine ⟨?_, fun _ => rfl⟩
    rw [← List.take_append_of_le_length (by omega)] at hother
    rw [(Unpads.initial_other (by rw [length_append]; omega) hother).unpad_eq, nil_append,
      Unpads.raw.unpad_eq, append_assoc]
  | @initial_user user_uuid pending blocks direct out result h huser _ ih =>
    rw [← List.take_append_of_le_length (by omega)] at huser
    rw [Extends.eq_def] at ih ⊢
    rw [(Unpads.initial_user (by rw [length_append]; omega) huser (unpads _ _)).unpad_eq,
      List.drop_append_of_le_length (by omega)]
    exact ih
  | header h _ ih =>
    rw [Extends.eq_def] at ih ⊢
    dsimp only [cons_append] at ih ⊢
    rw [(Unpads.header h (unpads _ _)).unpad_eq]
    exact ih
  | header_invalid h =>
    dsimp only [Extends, cons_append]
    rw [(Unpads.header_invalid h).unpad_eq]
  | payload_short h =>
    refine ⟨?_, nofun⟩
    rw [unpad_payload_append more (Nat.le_of_lt h)]
    rfl
  | @continue_ user_uuid pending content padding blocks direct out result h _ ih =>
    rw [Extends.eq_def] at ih ⊢
    dsimp only at ih ⊢
    rw [(Unpads.continue_ (by rw [length_append]; omega) (unpads _ _)).unpad_eq,
      List.take_append_of_le_length (by omega), List.drop_append_of_le_length h]
    exact ih
  | @terminal user_uuid pending command content padding blocks direct out hcommand h =>
    refine ⟨?_, fun _ => rfl⟩
    dsimp only
    rw [(Unpads.terminal hcommand (by rw [length_append]; omega)).unpad_eq,
      List.take_append_of_le_length (by omega), List.drop_append_of_le_length h, nil_append, Unpads.raw.unpad_eq, append_assoc, append_assoc, append_assoc]
  | raw =>
    refine ⟨?_, fun _ => rfl⟩
    rw [Unpads.raw.unpad_eq, nil_append, Unpads.raw.unpad_eq, append_assoc]

theorem Unpads.unpad_out (h : Unpads self out result) (before : List UInt8) :
    self.unpad (before ++ out) = (result.1.map (before ++ ·), result.2) := by
  induction h with
  | initial_short h => exact (Unpads.initial_short h).unpad_eq
  | initial_other h hother =>
    rw [(Unpads.initial_other h hother).unpad_eq, append_assoc]
    rfl
  | initial_user h huser _ ih => exact (Unpads.initial_user h huser (unpads _ _)).unpad_eq.trans ih
  | header_short h => exact (Unpads.header_short h).unpad_eq
  | header h _ ih => exact (Unpads.header h (unpads _ _)).unpad_eq.trans ih
  | header_invalid h => exact (Unpads.header_invalid h).unpad_eq
  | payload_short h =>
    rw [(Unpads.payload_short h).unpad_eq, append_assoc]
    rfl
  | continue_ h _ ih =>
    rw [(Unpads.continue_ h (unpads _ _)).unpad_eq, append_assoc]
    exact ih
  | terminal hcommand h =>
    rw [(Unpads.terminal hcommand h).unpad_eq, append_assoc, append_assoc]
    simp only [Except.map, append_assoc]
  | raw =>
    rw [Unpads.raw.unpad_eq, append_assoc]
    rfl

/-- Cuts make no difference. -/
theorem seamless : Segments.Seamless consume where
  ok := by
    intro self next segment out more hconsume
    rw [consume] at hconsume ⊢
    split_ifs at hconsume with hraw
    · obtain ⟨hout, rfl⟩ := Prod.mk.inj hconsume
      cases hout
      rw [if_pos hraw, consume, if_pos hraw]
      rfl
    · have hunpads := unpads { self with pending := self.pending ++ segment } []
      rw [hconsume] at hunpads
      obtain ⟨hmore, hkept⟩ := hunpads.extends more
      rw [if_neg hraw, ← append_assoc, hmore, consume]
      split_ifs with hnext
      · obtain ⟨user_uuid, pending, state, blocks, direct⟩ := next
        dsimp only at hnext hkept ⊢
        subst hnext
        rw [hkept rfl, nil_append, Unpads.raw.unpad_eq]
        rfl
      · have hunpads := unpads { next with pending := next.pending ++ more } []
        have hout := hunpads.unpad_out out
        rw [append_nil] at hout
        exact hout
  error := by
    intro self next segment error more hconsume
    rw [consume] at hconsume ⊢
    split_ifs at hconsume with hraw
    · cases (Prod.mk.inj hconsume).1
    · have hunpads := unpads { self with pending := self.pending ++ segment } []
      rw [hconsume] at hunpads
      have hmore := hunpads.extends more
      rw [if_neg hraw, ← append_assoc]
      exact hmore

theorem Unpads.direct_command_seen (h : Unpads self out result)
    (hseen : self.direct_command_seen = true) : result.2.direct_command_seen = true := by
  induction h with
  | initial_short h | initial_other h hother | header_short h | header_invalid h
  | payload_short h | raw => exact hseen
  | initial_user h huser hnext ih | header h hnext ih | continue_ h hnext ih => exact ih hseen
  | terminal hcommand h =>
    dsimp only at hseen ⊢
    rw [hseen, Bool.true_or]

theorem consume_direct_command_seen {next : VisionUnpadder} {input : List UInt8}
    {result : Except String (List UInt8)} (h : self.consume input = (result, next))
    (hseen : self.direct_command_seen = true) : next.direct_command_seen = true := by
  rw [consume] at h
  split_ifs at h with hraw
  · rw [← (Prod.mk.inj h).2]
    exact hseen
  · have hunpads := unpads { self with pending := self.pending ++ input } []
    rw [h] at hunpads
    exact hunpads.direct_command_seen hseen

end VisionUnpadder

/-! ## Blocks -/

/-- What a block can carry. -/
structure VisionBlock where
  content : List UInt8
  padding_len : Nat
  content_fits : content.length ≤ 65535
  padding_fits : padding_len ≤ 65535

/-- The commands of a last block. -/
inductive VisionTerminal where
  | end_
  | direct
deriving DecidableEq

def VisionTerminal.command : VisionTerminal → UInt8
  | .end_ => VISION_COMMAND_END
  | .direct => VISION_COMMAND_DIRECT

theorem VisionTerminal.command_known (terminal : VisionTerminal) :
    terminal.command = VISION_COMMAND_CONTINUE ∨ terminal.command = VISION_COMMAND_END ∨
      terminal.command = VISION_COMMAND_DIRECT := by
  cases terminal with
  | end_ => exact .inr (.inl rfl)
  | direct => exact .inr (.inr rfl)

namespace VisionBlock

def bytes (block : VisionBlock) (command : UInt8) (user_uuid : Vector UInt8 16) (uuid_sent : Bool) :
    List UInt8 :=
  (vision_padding_block block.content command user_uuid uuid_sent block.padding_len).1

def continued (user_uuid : Vector UInt8 16) : Bool → List VisionBlock → List UInt8
  | _, [] => []
  | uuid_sent, block :: blocks =>
    block.bytes VISION_COMMAND_CONTINUE user_uuid uuid_sent ++ continued user_uuid true blocks

def stream (user_uuid : Vector UInt8 16) (blocks : List VisionBlock) (last : VisionBlock)
    (terminal : VisionTerminal) : List UInt8 :=
  continued user_uuid false blocks ++ last.bytes terminal.command user_uuid (!blocks.isEmpty)

def contents (blocks : List VisionBlock) : List UInt8 := blocks.flatMap content

end VisionBlock

theorem be_bytes_two {n : Nat} (h : n ≤ 65535) :
    ∃ hi lo, be_bytes 2 (BitVec.ofNat 16 n) = [hi, lo] ∧ from_be_bytes [hi, lo] = n := by
  refine ⟨_, _, rfl, (from_be_bytes_be_bytes 2 (BitVec.ofNat 16 n)).trans ?_⟩
  rw [BitVec.toNat_ofNat]
  omega

namespace VisionBlock

variable (block : VisionBlock) (command : UInt8) (user_uuid : Vector UInt8 16)

theorem bytes_sent : ∃ c₁ c₀ p₁ p₀, block.bytes command user_uuid true
      = command :: c₁ :: c₀ :: p₁ :: p₀ :: (block.content ++ List.replicate block.padding_len 0) ∧
    from_be_bytes [c₁, c₀] = block.content.length ∧
    from_be_bytes [p₁, p₀] = block.padding_len := by
  obtain ⟨c₁, c₀, hcontent, hcontent_len⟩ := be_bytes_two block.content_fits
  obtain ⟨p₁, p₀, hpadding, hpadding_len⟩ := be_bytes_two block.padding_fits
  refine ⟨c₁, c₀, p₁, p₀, ?_, hcontent_len, hpadding_len⟩
  rw [bytes, vision_padding_block]
  rw [Nat.min_eq_left block.content_fits, hcontent, hpadding, List.take_length]
  rfl

theorem bytes_first :
    block.bytes command user_uuid false = user_uuid.toList ++ block.bytes command user_uuid true := rfl

theorem length_bytes_sent :
    (block.bytes command user_uuid true).length = 5 + block.content.length + block.padding_len := by
  obtain ⟨c₁, c₀, p₁, p₀, hbytes, _⟩ := block.bytes_sent command user_uuid
  rw [hbytes]
  simp only [length_cons, length_append, List.length_replicate]
  omega

theorem take_payload (rest : List UInt8) :
    (block.content ++ List.replicate block.padding_len 0 ++ rest).take block.content.length
      = block.content := by
  rw [append_assoc, List.take_left]

theorem drop_payload (rest : List UInt8) :
    (block.content ++ List.replicate block.padding_len 0 ++ rest).drop
      (block.content.length + block.padding_len) = rest := by
  apply List.drop_left'
  rw [length_append, List.length_replicate]

theorem payload_le (rest : List UInt8) : block.content.length + block.padding_len
    ≤ (block.content ++ List.replicate block.padding_len 0 ++ rest).length := by
  simp only [length_append, List.length_replicate]
  omega

end VisionBlock

namespace VisionUnpadder

variable {user_uuid : Vector UInt8 16} {blocks : Nat} {direct : Bool} {out : List UInt8}

/-! ### A block at the front -/

variable (block : VisionBlock)

theorem unpad_block_header {command : UInt8}
    (hcommand : command = VISION_COMMAND_CONTINUE ∨ command = VISION_COMMAND_END ∨
      command = VISION_COMMAND_DIRECT) (rest : List UInt8) :
    unpad ⟨user_uuid, block.bytes command user_uuid true ++ rest, .BlockHeader, blocks, direct⟩ out
      = unpad ⟨user_uuid, block.content ++ List.replicate block.padding_len 0 ++ rest,
          .BlockPayload command block.content.length block.padding_len, blocks, direct⟩ out := by
  obtain ⟨c₁, c₀, p₁, p₀, hbytes, hcontent, hpadding⟩ := block.bytes_sent command user_uuid
  rw [hbytes]
  simp only [cons_append]
  rw [(Unpads.header hcommand (unpads _ _)).unpad_eq, hcontent, hpadding]

theorem unpad_block_continue (rest : List UInt8) :
    unpad ⟨user_uuid, block.bytes VISION_COMMAND_CONTINUE user_uuid true ++ rest, .BlockHeader, blocks,
        direct⟩ out
      = unpad ⟨user_uuid, rest, .BlockHeader, blocks + 1, direct⟩ (out ++ block.content) := by
  rw [unpad_block_header _ (.inl rfl), (Unpads.continue_ (block.payload_le rest) (unpads _ _)).unpad_eq,
    block.take_payload, block.drop_payload]

theorem unpad_block_terminal (terminal : VisionTerminal) (rest : List UInt8) :
    unpad ⟨user_uuid, block.bytes terminal.command user_uuid true ++ rest, .BlockHeader, blocks,
        direct⟩ out
      = (.ok (out ++ block.content ++ rest),
          ⟨user_uuid, [], .Raw, blocks + 1, direct || terminal = .direct⟩) := by
  have hlast : terminal.command ≠ VISION_COMMAND_CONTINUE := by
    cases terminal with
    | end_ | direct => decide
  rw [unpad_block_header _ terminal.command_known, (Unpads.terminal hlast (block.payload_le rest)).unpad_eq,
    block.take_payload, block.drop_payload]
  cases terminal with
  | end_ | direct => rfl

variable {rest part : List UInt8}

theorem unpad_block_part {command : UInt8}
    (hcommand : command = VISION_COMMAND_CONTINUE ∨ command = VISION_COMMAND_END ∨
      command = VISION_COMMAND_DIRECT)
    (hpart : part ++ rest = block.bytes command user_uuid true) (hrest : rest ≠ []) :
    (unpad ⟨user_uuid, part, .BlockHeader, blocks, direct⟩ out).2.direct_command_seen = direct := by
  have hlen := congrArg List.length hpart
  rw [length_append, block.length_bytes_sent] at hlen
  have hpos := List.length_pos_of_ne_nil hrest
  obtain hshort | ⟨command', c₁, c₀, p₁, p₀, more, rfl⟩ := header_cases part
  · rw [(Unpads.header_short hshort).unpad_eq]
  · obtain ⟨d₁, d₀, q₁, q₀, hbytes, hcontent, hpadding⟩ := block.bytes_sent command user_uuid
    rw [hbytes] at hpart
    simp only [cons_append, List.cons.injEq] at hpart
    obtain ⟨rfl, rfl, rfl, rfl, rfl, _⟩ := hpart
    simp only [length_cons] at hlen
    rw [(Unpads.header hcommand (unpads _ _)).unpad_eq, hcontent, hpadding,
      (Unpads.payload_short (by omega)).unpad_eq]

/-! ### Blocks at the front -/

variable (list : List VisionBlock)

theorem unpad_continued (rest : List UInt8) :
    unpad ⟨user_uuid, VisionBlock.continued user_uuid true list ++ rest, .BlockHeader, blocks, direct⟩ out
      = unpad ⟨user_uuid, rest, .BlockHeader, blocks + list.length, direct⟩
          (out ++ VisionBlock.contents list) := by
  induction list generalizing blocks out with
  | nil => simp [VisionBlock.continued, VisionBlock.contents]
  | cons block list ih =>
    rw [VisionBlock.continued, append_assoc, unpad_block_continue, ih]
    simp only [VisionBlock.contents, List.flatMap_cons, append_assoc, length_cons]
    congr 2
    omega

variable (last : VisionBlock)

/-- The first part of a stream of blocks does not complete the last of them. -/
theorem unpad_stream_part {terminal : VisionTerminal} (hpart : part ++ rest
      = VisionBlock.continued user_uuid true list ++ last.bytes terminal.command user_uuid true)
    (hrest : rest ≠ []) :
    (unpad ⟨user_uuid, part, .BlockHeader, blocks, direct⟩ out).2.direct_command_seen = direct := by
  induction list generalizing blocks out part with
  | nil => exact unpad_block_part last terminal.command_known hpart hrest
  | cons block list ih =>
    rw [VisionBlock.continued, append_assoc] at hpart
    obtain ⟨inside, hblock, _⟩ | ⟨beyond, rfl, hbeyond⟩ := List.append_eq_append_iff.mp hpart
    · by_cases hinside : inside = []
      · subst hinside
        rw [append_nil] at hblock
        have hfront := @unpad_block_continue user_uuid blocks direct out block []
        rw [append_nil] at hfront
        rw [← hblock, hfront, (Unpads.header_short (by decide)).unpad_eq]
      · exact unpad_block_part block (.inl rfl) hblock.symm hinside
    · rw [unpad_block_continue]
      exact ih hbeyond.symm

/-! ### The whole stream -/

theorem unpad_initial_append (h : 5 ≤ rest.length) :
    unpad ⟨user_uuid, user_uuid.toList ++ rest, .Initial, blocks, direct⟩ out
      = unpad ⟨user_uuid, rest, .BlockHeader, blocks, direct⟩ out := by
  have huuid : user_uuid.toList.length = 16 := user_uuid.length_toList
  have hlen : 21 ≤ (user_uuid.toList ++ rest).length := by
    rw [length_append, huuid]
    omega
  rw [(Unpads.initial_user hlen (List.take_left' huuid) (unpads _ _)).unpad_eq, List.drop_left' huuid]

variable (user_uuid)

theorem stream_eq (terminal : VisionTerminal) :
    VisionBlock.stream user_uuid list last terminal = user_uuid.toList ++
      (VisionBlock.continued user_uuid true list ++ last.bytes terminal.command user_uuid true) := by
  cases list with
  | nil => rfl
  | cons block list =>
    rw [VisionBlock.stream, VisionBlock.continued, VisionBlock.continued, block.bytes_first]
    simp only [append_assoc]
    rfl

theorem consume_stream (terminal : VisionTerminal) (raw : List UInt8) :
    (new user_uuid).consume (VisionBlock.stream user_uuid list last terminal ++ raw)
      = (.ok (VisionBlock.contents list ++ last.content ++ raw),
          ⟨user_uuid, [], .Raw, list.length + 1, terminal = .direct⟩) := by
  have hlast := last.length_bytes_sent terminal.command user_uuid
  rw [consume, if_neg nofun, stream_eq, new]
  rw [nil_append, append_assoc, append_assoc, unpad_initial_append, unpad_continued,
    unpad_block_terminal]
  · simp
  · simp only [length_append]
    omega

theorem consume_new_nil : (new user_uuid).consume [] = (.ok [], new user_uuid) := by
  exact (Unpads.initial_short (by simp [new])).unpad_eq

theorem consume_continued :
    ((new user_uuid).consume (VisionBlock.continued user_uuid false list)).1
      = .ok (VisionBlock.contents list) := by
  cases list with
  | nil =>
    rw [VisionBlock.continued, consume_new_nil]
    rfl
  | cons block list =>
    have hblock := block.length_bytes_sent VISION_COMMAND_CONTINUE user_uuid
    have hall := @unpad_continued user_uuid 0 false [] (block :: list) []
    rw [append_nil] at hall
    have hfirst : VisionBlock.continued user_uuid false (block :: list)
        = user_uuid.toList ++ VisionBlock.continued user_uuid true (block :: list) := by
      rw [VisionBlock.continued, block.bytes_first, append_assoc]
      rfl
    rw [consume, if_neg nofun, hfirst, new]
    rw [nil_append, unpad_initial_append, hall, (Unpads.header_short (by decide)).unpad_eq]
    · rfl
    · rw [VisionBlock.continued, length_append]
      omega

theorem consume_part {terminal : VisionTerminal}
    (hpart : part ++ rest = VisionBlock.stream user_uuid list last terminal) (hrest : rest ≠ []) :
    ((new user_uuid).consume part).2.direct_command_seen = false := by
  rw [consume, if_neg nofun, new]
  rw [nil_append]
  rcases Nat.lt_or_ge part.length 21 with hshort | hlong
  · rw [(Unpads.initial_short hshort).unpad_eq]
  · rw [stream_eq] at hpart
    have huuid : user_uuid.toList.length = 16 := user_uuid.length_toList
    obtain ⟨inside, hinside, _⟩ | ⟨beyond, rfl, hbeyond⟩ := List.append_eq_append_iff.mp hpart
    · have hlen := congrArg List.length hinside
      rw [length_append] at hlen
      omega
    · rw [length_append] at hlong
      rw [unpad_initial_append (by omega)]
      exact unpad_stream_part list last hbeyond.symm hrest

end VisionUnpadder

/-- Every cut of a padded stream, with raw bytes behind it, gives the contents and the raw bytes; the
direct command is seen from the call on that takes the last byte of a last block that carries it. -/
theorem unpadding_inverts_padding (user_uuid : Vector UInt8 16) (blocks : List VisionBlock)
    (last : VisionBlock) (terminal : VisionTerminal) (raw : List UInt8) (segments : List (List UInt8))
    (hcut : segments.flatten = VisionBlock.stream user_uuid blocks last terminal ++ raw) :
    (Segments.feed_all VisionUnpadder.consume (VisionUnpadder.new user_uuid) segments).1
      = .ok (VisionBlock.contents blocks ++ last.content ++ raw) ∧
    ∀ calls : Nat,
      ((Segments.feed_all VisionUnpadder.consume (VisionUnpadder.new user_uuid)
          (segments.take calls)).2.direct_command_seen = true ↔
        terminal = .direct ∧ (VisionBlock.stream user_uuid blocks last terminal).length
          ≤ (segments.take calls).flatten.length) := by
  have hnil := consume_new_nil user_uuid
  have hall := consume_stream user_uuid blocks last terminal raw
  have hseamless := seamless
  constructor
  · rw [← hcut] at hall
    rw [(hseamless.feed_all_eq_iff segments hnil).mpr hall]
  · intro calls
    -- the calls so far are one call on what they took
    have hsplit : (segments.take calls).flatten ++ (segments.drop calls).flatten
        = VisionBlock.stream user_uuid blocks last terminal ++ raw := by
      rw [← List.flatten_append, List.take_append_drop, hcut]
    rw [← hsplit] at hall
    obtain ⟨first, middle, hfirst⟩ := hseamless.ok_of_append hall
    rw [(hseamless.feed_all_eq_iff _ hnil).mpr hfirst]
    have hmiddle : middle = ((new user_uuid).consume (segments.take calls).flatten).2 := by
      rw [hfirst]
    rw [hmiddle]
    obtain ⟨rest, hstream, _⟩ | ⟨beyond, htaken, _⟩ := List.append_eq_append_iff.mp hsplit
    · by_cases hrest : rest = []
      · subst hrest
        rw [append_nil] at hstream
        have hwhole := consume_stream user_uuid blocks last terminal []
        rw [append_nil] at hwhole
        rw [← hstream, hwhole]
        simp
      · rw [consume_part user_uuid blocks last hstream.symm hrest]
        have hlen := congrArg List.length hstream
        have hpos := List.length_pos_of_ne_nil hrest
        rw [length_append] at hlen
        constructor
        · nofun
        · omega
    · rw [htaken, consume_stream, length_append]
      simp

theorem unpadding_inverts_padding_cut :
    (Segments.feed_all VisionUnpadder.consume (VisionUnpadder.new (Vector.replicate 16 7))
        [List.replicate 16 7 ++ [2, 0], [1, 0, 1, 5], [0, 9]]).1 = .ok [5, 9] ∧
    ∀ calls : Nat,
      ((Segments.feed_all VisionUnpadder.consume (VisionUnpadder.new (Vector.replicate 16 7))
          ([List.replicate 16 7 ++ [2, 0], [1, 0, 1, 5], [0, 9]].take calls)).2.direct_command_seen = true ↔
        VisionTerminal.direct = .direct ∧
          (VisionBlock.stream (Vector.replicate 16 7) [] ⟨[5], 1, by decide, by decide⟩ .direct).length
            ≤ ([List.replicate 16 (7 : UInt8) ++ [2, 0], [1, 0, 1, 5], [0, 9]].take calls).flatten.length) :=
  unpadding_inverts_padding (Vector.replicate 16 7) [] ⟨[5], 1, by decide, by decide⟩ .direct [9]
    [List.replicate 16 7 ++ [2, 0], [1, 0, 1, 5], [0, 9]] (by decide +kernel)

end DaeNext.Vision
