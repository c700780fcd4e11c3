/-
What the queued writes carry.

The writes are blocks; then, once a block had a terminal command, the bytes as they are. `Queued` is
that form with the bytes in it. A block has room for 65535 bytes. Only the very first block can be
asked to carry more: what waits afterwards is less than one record, and a read adds at most the
relay's buffer.
-/
import DaeNext.LibFallible
import DaeNext.VisionUnpad
import DaeNext.VisionUplink

set_option autoImplicit false

namespace DaeNext.Vision

open Fallible VisionBlock VisionUplink
open List (append_assoc append_nil)

def VisionTerminal.state : VisionTerminal → VisionUplinkState
  | .end_ => .PlainOverlay
  | .direct => .DirectPass

def VisionTerminal.mode : VisionTerminal → VisionUplinkWriteMode
  | .end_ => .PlainOverlay
  | .direct => .DirectPass

theorem VisionTerminal.state_ne (terminal : VisionTerminal) : terminal.state ≠ .Padding := by
  cases terminal <;> nofun

theorem VisionTerminal.state_inj {terminal other : VisionTerminal} (h : terminal.state = other.state) :
    terminal = other := by
  cases terminal <;> cases other <;> first | rfl | cases h

/-- Blocks with `continue`, a write each. -/
def block_writes (user_uuid : Vector UInt8 16) : Bool → List VisionBlock → List VisionUplinkWrite
  | _, [] => []
  | uuid_sent, block :: blocks =>
    ⟨.PlainOverlay, block.bytes VISION_COMMAND_CONTINUE user_uuid uuid_sent⟩ ::
      block_writes user_uuid true blocks

variable (user_uuid : Vector UInt8 16) (uuid_sent : Bool) (blocks : List VisionBlock)

theorem block_writes_concat (block : VisionBlock) :
    block_writes user_uuid uuid_sent (blocks ++ [block]) = block_writes user_uuid uuid_sent blocks ++
      [⟨.PlainOverlay, block.bytes VISION_COMMAND_CONTINUE user_uuid (uuid_sent || !blocks.isEmpty)⟩] := by
  induction blocks generalizing uuid_sent with
  | nil => simp [block_writes]
  | cons first blocks ih =>
    rw [List.cons_append, block_writes, ih, block_writes]
    simp

/-- The form of the queue, and the bytes in it. -/
inductive Queued (user_uuid : Vector UInt8 16) : VisionUplink → List UInt8 → Prop
  | padding {self : VisionUplink} (blocks : List VisionBlock) (hstate : self.state = .Padding)
      (huuid : self.uuid_sent = !blocks.isEmpty) (hfirst : self.first_block = blocks.isEmpty)
      (hwrites : self.writes = block_writes user_uuid false blocks) :
      Queued user_uuid self (VisionBlock.contents blocks)
  | terminal {self : VisionUplink} (terminal : VisionTerminal) (blocks : List VisionBlock)
      (last : VisionBlock) (raws : List (List UInt8)) (hstate : self.state = terminal.state)
      (hblocks : blocks ≠ [])
      (hwrites : self.writes = block_writes user_uuid false blocks ++
        ⟨.PlainOverlay, last.bytes terminal.command user_uuid true⟩ ::
          raws.map fun raw => ⟨terminal.mode, raw⟩) :
      Queued user_uuid self (VisionBlock.contents blocks ++ last.content ++ raws.flatten)

/-! ## One block -/

theorem vision_padding_len_le (content_len : Nat) (long_padding : Bool) (random : Nat) :
    vision_padding_len content_len long_padding random ≤ 65535 := by
  rw [vision_padding_len]
  split_ifs with hlong
  · omega
  · omega

def block_of (payload : List UInt8) (long_padding : Bool) (random : Nat) : VisionBlock where
  content := payload.take 65535
  padding_len := vision_padding_len payload.length long_padding random
  content_fits := by rw [List.length_take]; omega
  padding_fits := vision_padding_len_le _ _ _

theorem block_of_bytes (payload : List UInt8) (command : UInt8) (user_uuid : Vector UInt8 16)
    (uuid_sent long_padding : Bool) (random : Nat) :
    (vision_padding_block payload command user_uuid uuid_sent
        (vision_padding_len payload.length long_padding random)).1
      = (block_of payload long_padding random).bytes command user_uuid uuid_sent := by
  have hlen : min (payload.take 65535).length 65535 = min payload.length 65535 := by
    rw [List.length_take]
    omega
  have htake : (payload.take 65535).take (min payload.length 65535)
      = payload.take (min payload.length 65535) := by
    rw [List.take_take]
    congr 1
    omega
  rw [bytes, vision_padding_block, vision_padding_block, block_of]
  rw [hlen, htake]

namespace VisionUplink

variable (user_uuid : Vector UInt8 16) (random : Nat → Nat) (self : VisionUplink)

theorem queue_block_eq (payload : List UInt8) (command : UInt8) (long_padding : Bool) :
    self.queue_block user_uuid random payload command long_padding =
      { self with
        writes := self.writes ++ [⟨.PlainOverlay,
          (block_of payload long_padding (random self.drawn)).bytes command user_uuid self.uuid_sent⟩]
        uuid_sent := true
        drawn := self.drawn + 1 } := by
  have hbytes := block_of_bytes payload command user_uuid self.uuid_sent long_padding
    (random self.drawn)
  have hne : (block_of payload long_padding (random self.drawn)).bytes command user_uuid
      self.uuid_sent ≠ [] := by
    rw [← hbytes, vision_padding_block]
    simp
  rw [queue_block]
  dsimp only
  rw [queue_vision_write, hbytes, if_neg hne]
  rfl

end VisionUplink

variable {self next : VisionUplink} {sent : List UInt8}

namespace Queued

variable {user_uuid : Vector UInt8 16} (h : Queued user_uuid self sent)

include h

theorem congr (hstate : next.state = self.state) (huuid : next.uuid_sent = self.uuid_sent)
    (hfirst : next.first_block = self.first_block) (hwrites : next.writes = self.writes) :
    Queued user_uuid next sent := by
  cases h with
  | padding blocks hstate' huuid' hfirst' hwrites' =>
    exact .padding blocks (hstate.trans hstate') (huuid.trans huuid') (hfirst.trans hfirst')
      (hwrites.trans hwrites')
  | terminal terminal blocks last raws hstate' hblocks hwrites' =>
    exact .terminal terminal blocks last raws (hstate.trans hstate') hblocks (hwrites.trans hwrites')

theorem continue_ (hstate : self.state = .Padding) (block : VisionBlock)
    (hnext : next.state = .Padding) (huuid : next.uuid_sent = true)
    (hfirst : next.first_block = false) (hwrites : next.writes = self.writes ++
      [⟨.PlainOverlay, block.bytes VISION_COMMAND_CONTINUE user_uuid self.uuid_sent⟩]) :
    Queued user_uuid next (sent ++ block.content) := by
  cases h with
  | padding blocks _ huuid' _ hwrites' =>
    have hcontents : contents (blocks ++ [block])
        = contents blocks ++ block.content := by
      simp [contents]
    rw [← hcontents]
    refine .padding (blocks ++ [block]) hnext ?_ ?_ ?_
    · rw [huuid]
      simp
    · rw [hfirst]
      simp
    · rw [hwrites, hwrites', huuid', block_writes_concat, Bool.false_or]
  | terminal terminal blocks last raws hstate' _ _ =>
    exact absurd (hstate'.symm.trans hstate) terminal.state_ne

/-- The block with the terminal command. It is not the first one. -/
theorem terminate (hstate : self.state = .Padding) (hfirst : self.first_block = false)
    (block : VisionBlock) (terminal : VisionTerminal) (hnext : next.state = terminal.state)
    (hwrites : next.writes = self.writes ++
      [⟨.PlainOverlay, block.bytes terminal.command user_uuid self.uuid_sent⟩]) :
    Queued user_uuid next (sent ++ block.content) := by
  cases h with
  | padding blocks _ huuid' hfirst' hwrites' =>
    have hblocks : blocks ≠ [] := by
      rintro rfl
      rw [hfirst'] at hfirst
      cases hfirst
    have huuid : self.uuid_sent = true := by
      rw [huuid']
      simp [hblocks]
    have hsent : contents blocks ++ block.content
        = contents blocks ++ block.content ++ ([] : List (List UInt8)).flatten := by
      simp
    rw [hsent]
    refine .terminal terminal blocks block [] hnext hblocks ?_
    rw [hwrites, hwrites', huuid]
    rfl
  | terminal terminal blocks last raws hstate' _ _ =>
    exact absurd (hstate'.symm.trans hstate) terminal.state_ne

theorem queue_pending (terminal : VisionTerminal) (hstate : self.state = terminal.state) :
    Queued user_uuid (self.queue_pending terminal.mode) (sent ++ self.pending) ∧
      (self.queue_pending terminal.mode).pending = [] := by
  rw [VisionUplink.queue_pending, VisionUplink.queue_vision_write]
  split_ifs with hempty
  · rw [hempty, append_nil]
    exact ⟨h.congr rfl rfl rfl rfl, rfl⟩
  · refine ⟨?_, rfl⟩
    cases h with
    | padding blocks hstate' _ _ _ =>
      exact absurd (hstate.symm.trans hstate') terminal.state_ne
    | terminal terminal' blocks last raws hstate' hblocks hwrites =>
      obtain rfl := VisionTerminal.state_inj (hstate'.symm.trans hstate)
      have hsent : contents blocks ++ last.content ++ raws.flatten ++ self.pending
          = contents blocks ++ last.content ++ (raws ++ [self.pending]).flatten := by
        simp
      rw [hsent]
      refine .terminal terminal' blocks last (raws ++ [self.pending]) hstate' hblocks ?_
      rw [hwrites]
      simp

end Queued

namespace VisionUplink

variable (parser : TlsParser) (user_uuid : Vector UInt8 16) (random : Nat → Nat)

def longest_record : Nat := TLS_RECORD_HEADER_LEN + TLS_RECORD_MAX_PAYLOAD_LEN

/-- The record at the front is sent with `continue`, or it is all that waits. -/
theorem record_command_cases {record_type command : UInt8} {record_len : Nat}
    (h : self.record_command record_type record_len = some command) :
    command = VISION_COMMAND_CONTINUE ∨
      record_len = self.pending.length ∧ ∃ terminal : VisionTerminal, command = terminal.command := by
  rw [record_command] at h
  split_ifs at h with hlast
  · rw [vision_uplink_command, if_neg (not_not.mpr hlast.1),
      VisionInnerTlsState.application_data_command] at h
    split at h
    · cases h
    · exact .inr ⟨hlast.2, .direct, (Option.some.inj h).symm⟩
    · exact .inr ⟨hlast.2, .end_, (Option.some.inj h).symm⟩
  · exact .inl (Option.some.inj h).symm

theorem record_command_none {record_type : UInt8} {record_len : Nat}
    (h : self.record_command record_type record_len = none) : record_len = self.pending.length := by
  rw [record_command] at h
  split_ifs at h with hlast
  exact hlast.2

theorem taken_all (h : Queued user_uuid next (sent ++ self.pending) ∧ next.pending = []) :
    ∃ taken, taken ++ next.pending = self.pending ∧ Queued user_uuid next (sent ++ taken) ∧
      next.pending.length ≤ longest_record := by
  obtain ⟨hnext, hempty⟩ := h
  refine ⟨self.pending, ?_, hnext, ?_⟩
  · rw [hempty, append_nil]
  · rw [hempty]
    exact Nat.zero_le _

/-- What goes into the queue and what stays. A turn of the loop takes a record off. -/
theorem queue_records_queued (hqueued : Queued user_uuid self sent)
    (hfirst : self.state = .Padding → self.first_block = true → self.pending = [])
    (hle : self.pending.length ≤ 65535)
    (h : self.queue_records parser user_uuid random = (.ok (), next)) :
    ∃ taken, taken ++ next.pending = self.pending ∧ Queued user_uuid next (sent ++ taken) ∧
      next.pending.length ≤ longest_record := by
  have hnot_first : ∀ {self : VisionUplink},
      (self.state = .Padding → self.first_block = true → self.pending = []) →
      self.pending ≠ [] ∧ self.state = .Padding → self.first_block = false := by
    intro self hfirst hloop
    cases hfalse : self.first_block with
    | false => rfl
    | true => exact absurd (hfirst hloop.2 hfalse) hloop.1
  have hstays : ∀ {self : VisionUplink} {sent : List UInt8}, Queued user_uuid self sent →
      self.pending.length ≤ longest_record → ∃ taken, taken ++ self.pending = self.pending ∧
        Queued user_uuid self (sent ++ taken) ∧ self.pending.length ≤ longest_record :=
    fun hqueued hshort => ⟨[], rfl, by rw [append_nil]; exact hqueued, hshort⟩
  revert h
  fun_induction queue_records parser user_uuid random self generalizing sent with
  | case1 self hloop hfilter =>
    -- not TLS: the rest ends the padding
    rintro ⟨⟩
    have hcontent : (block_of self.pending false (random self.drawn)).content = self.pending :=
      List.take_of_length_le hle
    refine @taken_all self _ sent user_uuid ⟨?_, ?_⟩
    · rw [queue_block_eq]
      nth_rewrite 2 [← hcontent]
      exact hqueued.terminate hloop.2 (hnot_first hfirst hloop) _ .end_ rfl rfl
    · rw [queue_block_eq]
  | case2 | case5 => intro h; cases (Prod.mk.inj h).1
  | case3 self hloop hfilter hpeek =>
    rintro ⟨⟩
    exact hstays hqueued (Nat.le_of_lt (length_of_peek_none hpeek))
  | case4 self hloop hfilter record_type record_len hpeek hcommand =>
    -- the filter has not decided: the record waits
    rintro ⟨⟩
    refine hstays hqueued ?_
    rw [← record_command_none hcommand]
    exact (peek_complete_tls_record_bounds hpeek).2.2
  | case6 self hloop hfilter record_type record_len hpeek command hcommand tls_state _ ih =>
    intro h
    rw [queue_block_eq] at ih h
    have hcontent : (block_of (self.pending.take record_len) true (random self.drawn)).content
        = self.pending.take record_len := by
      apply List.take_of_length_le
      rw [List.length_take]
      omega
    have hfirst' := hnot_first hfirst hloop
    have hblock := congrArg (sent ++ ·) hcontent
    obtain ⟨taken, htaken, hnext, hbound⟩ := @ih (sent ++ self.pending.take record_len)
      (by
        -- the queue with the record's block
        rw [← hblock]
        obtain rfl | ⟨_, terminal, rfl⟩ := record_command_cases hcommand
        · exact hqueued.continue_ hloop.2 _ hloop.2 rfl hfirst' rfl
        · refine hqueued.terminate hloop.2 hfirst' _ terminal ?_ rfl
          cases terminal with
          | end_ => rfl
          | direct => rfl)
      (fun _ htrue => absurd (hfirst'.symm.trans htrue) Bool.false_ne_true)
      (by rw [List.length_drop]; omega) h
    refine ⟨self.pending.take record_len ++ taken, ?_, ?_, hbound⟩
    · rw [append_assoc, htaken, List.take_append_drop]
    · rw [← append_assoc]
      exact hnext
  | case7 self hloop hstate =>
    -- no bytes
    rintro ⟨⟩
    refine hstays hqueued ?_
    rw [not_not.mp fun hpending => hloop ⟨hpending, hstate⟩]
    exact Nat.zero_le _
  | case8 self hloop hstate => rintro ⟨⟩; exact taken_all _ (hqueued.queue_pending .end_ hstate)
  | case9 self hloop hstate => rintro ⟨⟩; exact taken_all _ (hqueued.queue_pending .direct hstate)

section

variable (hqueued : Queued user_uuid self sent)
  (h : self.queue_vision_uplink parser user_uuid random = (.ok (), next))

include hqueued h

theorem queue_first_queued (hstate : self.state = .Padding)
    (hfirst : self.first_block = true) (hpending : self.pending ≠ [])
    : Queued user_uuid next (sent ++ self.pending.take 65535) ∧ next.pending = [] := by
  rw [queue_vision_uplink, hstate] at h
  dsimp only at h
  rw [if_pos ⟨hfirst, hpending⟩] at h
  split at h
  · cases (Prod.mk.inj h).1
  · obtain rfl := (Prod.mk.inj h).2
    rw [queue_block_eq]
    exact ⟨hqueued.continue_ hstate (block_of self.pending (looks_like_tls_record_start self.pending)
      (random self.drawn)) rfl rfl rfl rfl, rfl⟩

theorem queue_vision_uplink_queued (hle : self.pending.length ≤ 65535) :
    ∃ taken, taken ++ next.pending = self.pending ∧ Queued user_uuid next (sent ++ taken) ∧
      next.pending.length ≤ longest_record := by
  by_cases hfirst : self.state = .Padding ∧ self.first_block = true ∧ self.pending ≠ []
  · obtain ⟨hstate, hblock, hpending⟩ := hfirst
    obtain ⟨hnext, hempty⟩ :=
      queue_first_queued parser user_uuid random hqueued h hstate hblock hpending
    rw [List.take_of_length_le hle] at hnext
    exact taken_all user_uuid ⟨hnext, hempty⟩
  · -- in the other states the loop only does what follows it
    have hloop : self.queue_records parser user_uuid random = (.ok (), next) := by
      rw [queue_vision_uplink] at h
      cases hstate : self.state with
      | Padding =>
        rw [hstate] at h
        rw [if_neg fun hblock => hfirst ⟨hstate, hblock⟩] at h
        exact h
      | PlainOverlay | DirectPass =>
        rw [hstate] at h
        rw [queue_records, if_neg, hstate]
        · exact h
        · rintro ⟨_, hpadding⟩
          cases hstate.symm.trans hpadding
    refine queue_records_queued parser user_uuid random hqueued ?_ hle hloop
    intro hstate hblock
    by_contra hpending
    exact hfirst ⟨hstate, hblock, hpending⟩

end

end VisionUplink

/-! ## What the writes carry -/

def writes_of (mode : VisionUplinkWriteMode) (writes : List VisionUplinkWrite) : List (List UInt8) :=
  (writes.filter fun write => write.mode = mode).map VisionUplinkWrite.payload

def command_blocks (user_uuid : Vector UInt8 16) : Bool → List (UInt8 × VisionBlock) → List (List UInt8)
  | _, [] => []
  | uuid_sent, (command, block) :: blocks =>
    block.bytes command user_uuid uuid_sent :: command_blocks user_uuid true blocks

/-- The unpadded plain writes, the direct writes and the bytes that wait are the bytes accepted; plain
writes come first; at most one block has a terminal command. -/
structure Carries (user_uuid : Vector UInt8 16) (accepted : List UInt8) (uplink : VisionUplink) : Prop where
  carried : ∃ out,
    (Segments.feed_all VisionUnpadder.consume (VisionUnpadder.new user_uuid)
      (writes_of .PlainOverlay uplink.writes)).1 = .ok out ∧
    out ++ (writes_of .DirectPass uplink.writes).flatten ++ uplink.pending = accepted
  ordered : uplink.writes = (writes_of .PlainOverlay uplink.writes).map (⟨.PlainOverlay, ·⟩) ++
    (writes_of .DirectPass uplink.writes).map (⟨.DirectPass, ·⟩)
  one_terminal : ∃ blocks raws,
    writes_of .PlainOverlay uplink.writes = command_blocks user_uuid false blocks ++ raws ∧
    blocks.countP (fun block => block.1 ≠ VISION_COMMAND_CONTINUE) ≤ 1

theorem writes_of_append (mode : VisionUplinkWriteMode) (first second : List VisionUplinkWrite) :
    writes_of mode (first ++ second) = writes_of mode first ++ writes_of mode second := by
  rw [writes_of, List.filter_append, List.map_append]
  rfl

theorem writes_of_map (mode other : VisionUplinkWriteMode) (raws : List (List UInt8)) :
    writes_of mode (raws.map fun raw => ⟨other, raw⟩) = if other = mode then raws else [] := by
  rw [writes_of, List.filter_map, List.map_map]
  have hmode : ((fun write : VisionUplinkWrite => decide (write.mode = mode)) ∘
      fun raw => (⟨other, raw⟩ : VisionUplinkWrite)) = fun _ => decide (other = mode) := rfl
  split_ifs with heq
  · rw [hmode, decide_eq_true heq, List.filter_true]
    exact List.map_id _
  · rw [hmode, decide_eq_false heq, List.filter_false]
    rfl

theorem block_writes_eq :
    block_writes user_uuid uuid_sent blocks
      = (command_blocks user_uuid uuid_sent (blocks.map (VISION_COMMAND_CONTINUE, ·))).map
          (⟨.PlainOverlay, ·⟩) := by
  induction blocks generalizing uuid_sent with
  | nil => rfl
  | cons block blocks ih =>
    rw [block_writes, ih]
    rfl

theorem command_blocks_flatten :
    (command_blocks user_uuid uuid_sent (blocks.map (VISION_COMMAND_CONTINUE, ·))).flatten
      = continued user_uuid uuid_sent blocks := by
  induction blocks generalizing uuid_sent with
  | nil => rfl
  | cons block blocks ih =>
    rw [List.map_cons, command_blocks, List.flatten_cons, ih]
    rfl

theorem command_blocks_concat (blocks : List (UInt8 × VisionBlock)) (command : UInt8)
    (block : VisionBlock) (hne : blocks ≠ []) :
    command_blocks user_uuid uuid_sent (blocks ++ [(command, block)])
      = command_blocks user_uuid uuid_sent blocks ++ [block.bytes command user_uuid true] := by
  induction blocks generalizing uuid_sent with
  | nil => exact absurd rfl hne
  | cons first blocks ih =>
    rw [List.cons_append, command_blocks, command_blocks]
    by_cases hrest : blocks = []
    · subst hrest
      rfl
    · rw [ih _ hrest]
      rfl

theorem Carries.of_writes {user_uuid : Vector UInt8 16} {plain direct raws : List (List UInt8)}
    {out : List UInt8} {blocks : List (UInt8 × VisionBlock)}
    (hwrites : self.writes = plain.map (⟨.PlainOverlay, ·⟩) ++ direct.map (⟨.DirectPass, ·⟩))
    (hconsume : ((VisionUnpadder.new user_uuid).consume plain.flatten).1 = .ok out)
    (hblocks : plain = command_blocks user_uuid false blocks ++ raws)
    (hcount : blocks.countP (fun block => block.1 ≠ VISION_COMMAND_CONTINUE) ≤ 1) :
    Carries user_uuid (out ++ direct.flatten ++ self.pending) self := by
  have hplain : writes_of .PlainOverlay self.writes = plain := by
    rw [hwrites, writes_of_append, writes_of_map, writes_of_map, if_pos rfl, if_neg nofun, append_nil]
  have hdirect : writes_of .DirectPass self.writes = direct := by
    rw [hwrites, writes_of_append, writes_of_map, writes_of_map, if_neg nofun, if_pos rfl]
    rfl
  refine ⟨⟨out, ?_, by rw [hdirect]⟩, by rw [hplain, hdirect, hwrites], blocks, raws,
    hplain.trans hblocks, hcount⟩
  have hnext : (VisionUnpadder.new user_uuid).consume plain.flatten = (.ok out, _) :=
    Prod.ext hconsume rfl
  rw [hplain, (VisionUnpadder.seamless.feed_all_eq_iff _
    (VisionUnpadder.consume_new_nil user_uuid)).mpr hnext]

theorem countP_continue :
    (blocks.map (VISION_COMMAND_CONTINUE, ·)).countP
      (fun block => block.1 ≠ VISION_COMMAND_CONTINUE) = 0 := by
  rw [List.countP_map, List.countP_eq_zero]
  simp

theorem Queued.carries {user_uuid : Vector UInt8 16} (h : Queued user_uuid self sent) :
    Carries user_uuid (sent ++ self.pending) self := by
  cases h with
  | padding blocks hstate huuid hfirst hwrites =>
    have hcarries : Carries user_uuid (_ ++ ([] : List (List UInt8)).flatten ++ _) self :=
      .of_writes (by rw [hwrites, block_writes_eq, List.map_nil, append_nil])
        (by rw [command_blocks_flatten]; exact VisionUnpadder.consume_continued user_uuid blocks)
        (append_nil _).symm ((countP_continue blocks).trans_le (Nat.zero_le _))
    rwa [List.flatten_nil, append_nil] at hcarries
  | terminal terminal blocks last raws hstate hblocks hwrites =>
    have hisEmpty : blocks.isEmpty = false := by
      cases blocks with
      | nil => exact absurd rfl hblocks
      | cons => rfl
    have hcommands := command_blocks_concat user_uuid false (blocks.map (VISION_COMMAND_CONTINUE, ·))
      terminal.command last (hblocks ∘ List.map_eq_nil_iff.mp)
    have hall : self.writes = (command_blocks user_uuid false
          (blocks.map (VISION_COMMAND_CONTINUE, ·) ++ [(terminal.command, last)])).map
            (⟨.PlainOverlay, ·⟩) ++ raws.map fun raw => ⟨terminal.mode, raw⟩ := by
      rw [hwrites, hcommands, List.map_append, ← block_writes_eq, append_assoc]
      rfl
    have hstream : (command_blocks user_uuid false
          (blocks.map (VISION_COMMAND_CONTINUE, ·) ++ [(terminal.command, last)])).flatten
        = stream user_uuid blocks last terminal := by
      rw [hcommands, List.flatten_append, command_blocks_flatten, stream, hisEmpty]
      simp
    have hcount : (blocks.map (VISION_COMMAND_CONTINUE, ·) ++ [(terminal.command, last)]).countP
        (fun block => block.1 ≠ VISION_COMMAND_CONTINUE) ≤ 1 := by
      rw [List.countP_append, countP_continue, Nat.zero_add]
      exact List.countP_le_length
    cases terminal with
    | end_ =>
      dsimp only [VisionTerminal.mode] at hall
      rw [← List.map_append, ← append_nil (List.map _ (_ ++ _))] at hall
      have hconsume := VisionUnpadder.consume_stream user_uuid blocks last .end_ raws.flatten
      rw [← hstream, ← List.flatten_append] at hconsume
      have hcarries : Carries user_uuid (_ ++ ([] : List (List UInt8)).flatten ++ _) self :=
        .of_writes hall (congrArg Prod.fst hconsume) rfl hcount
      rwa [List.flatten_nil, append_nil] at hcarries
    | direct =>
      have hconsume := VisionUnpadder.consume_stream user_uuid blocks last .direct []
      rw [append_nil, append_nil, ← hstream] at hconsume
      exact .of_writes hall (congrArg Prod.fst hconsume) (append_nil _).symm hcount

/-! ## Runs -/

/-- The queue and the buffer hold the bytes, and no more waits than the longest record has. -/
def Keeps (user_uuid : Vector UInt8 16) (bytes : List UInt8) (self : VisionUplink) : Prop :=
  ∃ sent, Queued user_uuid self sent ∧ sent ++ self.pending = bytes ∧
    self.pending.length ≤ VisionUplink.longest_record

namespace VisionUplink

variable {parser : TlsParser} {user_uuid : Vector UInt8 16} {random : Nat → Nat}

theorem ok_or_end_ok {result : Except String Unit × VisionUplink} (h : ok_or_end result = .ok next) :
    result = (.ok (), next) := by
  obtain ⟨result, self⟩ := result
  cases result with
  | error error => cases h
  | ok value =>
    cases h
    rfl

variable {bytes : List UInt8}

theorem keeps_queue (hqueued : Queued user_uuid self sent) (hbytes : sent ++ self.pending = bytes)
    (hle : self.pending.length ≤ 65535)
    (h : self.queue_vision_uplink parser user_uuid random = (.ok (), next)) :
    Keeps user_uuid bytes next := by
  obtain ⟨taken, htaken, hnext, hlong⟩ :=
    queue_vision_uplink_queued parser user_uuid random hqueued h hle
  refine ⟨sent ++ taken, hnext, ?_, hlong⟩
  rw [append_assoc, htaken, hbytes]

variable {kept : List UInt8}

theorem keeps_accept_inbound (hkeeps : Keeps user_uuid kept self)
    (hbytes : bytes.length ≤ VISION_RELAY_BUFFER_SIZE)
    (h : self.accept_inbound parser user_uuid random bytes = (.ok (), next)) :
    Keeps user_uuid (kept ++ bytes) next := by
  obtain ⟨sent, hqueued, hkept, hlong⟩ := hkeeps
  rw [accept_inbound] at h
  split_ifs at h with hlimit
  · cases (Prod.mk.inj h).1
  · have hall : sent ++ (self.pending ++ bytes) = kept ++ bytes := by
      rw [← append_assoc, hkept]
    have hread : Queued user_uuid { self with pending := self.pending ++ bytes } sent :=
      hqueued.congr rfl rfl rfl rfl
    refine keeps_queue hread hall ?_ h
    rw [List.length_append]
    unfold longest_record TLS_RECORD_HEADER_LEN TLS_RECORD_MAX_PAYLOAD_LEN at hlong
    unfold VISION_RELAY_BUFFER_SIZE at hbytes
    omega

theorem keeps_handle {event : UplinkEvent} (hkeeps : Keeps user_uuid kept self)
    (h : self.handle parser user_uuid random event = (.ok (), next)) :
    Keeps user_uuid (kept ++ event.bytes) next := by
  cases event with
  | inbound_read bytes => exact keeps_accept_inbound hkeeps bytes.2 h
  | tls_filter tls_state =>
    obtain ⟨sent, hqueued, hkept, hlong⟩ := hkeeps
    have hfilter : Queued user_uuid { self with tls_state } sent := hqueued.congr rfl rfl rfl rfl
    rw [UplinkEvent.bytes, append_nil]
    refine keeps_queue hfilter hkept ?_ h
    unfold longest_record TLS_RECORD_HEADER_LEN TLS_RECORD_MAX_PAYLOAD_LEN at hlong
    dsimp only
    omega

variable {initial_payload : List UInt8}

/-- A new driver sends the first payload in one block, as far as it fits. -/
theorem keeps_new (hnew : new initial_payload = .ok self)
    (h : self.queue_vision_uplink parser user_uuid random = (.ok (), next)) :
    Keeps user_uuid (initial_payload.take 65535) next := by
  rw [new] at hnew
  split_ifs at hnew with hlimit
  cases hnew
  have hqueued : Queued user_uuid
      { pending := initial_payload, writes := [], uuid_sent := false, first_block := true
        state := .Padding, tls_state := {}, drawn := 0 } [] :=
    .padding [] rfl rfl rfl rfl
  by_cases hempty : initial_payload = []
  · subst hempty
    exact keeps_queue hqueued rfl (Nat.zero_le _) h
  · obtain ⟨hnext, hrest⟩ :=
      queue_first_queued parser user_uuid random hqueued h rfl rfl hempty
    refine ⟨_, hnext, ?_, ?_⟩
    · rw [hrest, append_nil]
      rfl
    · rw [hrest]
      exact Nat.zero_le _

theorem keeps_foldlM (events : List UplinkEvent) (hkeeps : Keeps user_uuid kept self)
    (h : events.foldlM (fun self event => ok_or_end (self.handle parser user_uuid random event))
      self = .ok next) : Keeps user_uuid (kept ++ events.flatMap UplinkEvent.bytes) next := by
  induction events generalizing self kept with
  | nil =>
    cases h
    rw [List.flatMap_nil, append_nil]
    exact hkeeps
  | cons event events ih =>
    obtain ⟨middle, hfirst, hrest⟩ := bind_ok h
    rw [List.flatMap_cons, ← append_assoc]
    exact ih (keeps_handle hkeeps (ok_or_end_ok hfirst)) hrest

theorem keeps_run {events : List UplinkEvent}
    (h : run parser user_uuid random initial_payload events = .ok self) :
    Keeps user_uuid (initial_payload.take 65535 ++ events.flatMap UplinkEvent.bytes) self := by
  obtain ⟨first, hnew, h⟩ := bind_ok h
  obtain ⟨queued, hqueue, h⟩ := bind_ok h
  exact keeps_foldlM events (keeps_new hnew (ok_or_end_ok hqueue)) h

theorem carries_iff_of_keeps (h : Keeps user_uuid (initial_payload.take 65535 ++ bytes) self) :
    Carries user_uuid (initial_payload ++ bytes) self ↔ initial_payload.length ≤ 65535 := by
  obtain ⟨sent, hqueued, hkept, _⟩ := h
  have hcarries := hqueued.carries
  rw [hkept] at hcarries
  constructor
  · -- what the writes carry is determined by them
    intro hother
    obtain ⟨out, hout, hall⟩ := hother.carried
    obtain ⟨out', hout', hall'⟩ := hcarries.carried
    rw [hout] at hout'
    obtain rfl := Except.ok.inj hout'
    rw [hall] at hall'
    have hlen := congrArg List.length hall'
    simp only [List.length_append, List.length_take] at hlen
    omega
  · intro hle
    rw [List.take_of_length_le hle] at hcarries
    exact hcarries

end VisionUplink

def no_tls : TlsParser where
  parse_tls_record_header := fun _ => .error .Failed
  parse_tls_plaintext := fun _ => none
  parse_tls_client_hello_extension := fun _ => none
  parse_tls_server_hello_extension := fun _ => none

theorem run_no_tls (initial_payload : List UInt8) (hne : initial_payload ≠ [])
    (hle : initial_payload.length ≤ VISION_PENDING_UPLINK_LIMIT) :
    ∃ self, run no_tls (Vector.replicate 16 7) (fun _ => 0) initial_payload [] = .ok self := by
  have hobserve : VisionInnerTlsState.observe_client_payload no_tls {} initial_payload = (.ok (), {}) := by
    rw [VisionInnerTlsState.observe_client_payload, observe_tls_records, observe_tls_records_from]
    rfl
  rw [run, new, if_neg (Nat.not_lt.mpr hle)]
  rw [ok_bind, queue_vision_uplink]
  rw [if_pos ⟨rfl, hne⟩, hobserve]
  exact ⟨_, rfl⟩

end DaeNext.Vision
