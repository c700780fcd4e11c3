/-
The client's bytes through a run of the driver.

The driver's queue only holds the writes that are not sent yet. Put behind the writes that are, it is
the queue of the uplink without a driver: queueing only appends. What was written to the proxy is
then the sent writes and the part of the next one up to the offset.
-/
import DaeNext.VisionDuplex
import DaeNext.VisionUplinkRun

set_option autoImplicit false

namespace DaeNext.Vision

open Fallible VisionDuplexDriver VisionRelay VisionUplink
open List (append_assoc append_nil)

namespace VisionUplink

variable (parser : TlsParser) (user_uuid : Vector UInt8 16) (random : Nat → Nat) (self : VisionUplink)
  (sent : List VisionUplinkWrite)

/-- The queue behind writes that were sent. -/
def behind : VisionUplink := { self with writes := sent ++ self.writes }

theorem queue_vision_write_behind (mode : VisionUplinkWriteMode) (payload : List UInt8) :
    (self.behind sent).queue_vision_write mode payload
      = (self.queue_vision_write mode payload).behind sent := by
  rw [queue_vision_write, queue_vision_write]
  split_ifs with hempty
  · rfl
  · rw [behind, behind, append_assoc]

theorem queue_pending_behind (mode : VisionUplinkWriteMode) :
    (self.behind sent).queue_pending mode = (self.queue_pending mode).behind sent := by
  exact queue_vision_write_behind { self with pending := [] } sent mode self.pending

variable {self}

/-- The turn of a loop that goes on, without the proof that it ends. -/
theorem queue_records_peek (hloop : self.pending ≠ [] ∧ self.state = .Padding)
    (hfilter : ¬(!should_continue_vision_tls_filtering self.pending self.tls_state) = true) :
    self.queue_records parser user_uuid random =
      match peek_complete_tls_record self.pending with
      | .error error => (.error error, self)
      | .ok none => (.ok (), self)
      | .ok (some (record_type, record_len)) =>
        match self.record_command record_type record_len with
        | none => (.ok (), self)
        | some command =>
          match self.tls_state.observe_client_payload parser (self.pending.take record_len) with
          | (.error error, tls_state) =>
            (.error error, { self with pending := self.pending.drop record_len, tls_state })
          | (.ok (), tls_state) =>
            queue_records parser user_uuid random
              { { self with pending := [], tls_state }.queue_block user_uuid random
                  (self.pending.take record_len) command true with
                pending := self.pending.drop record_len
                state := self.state_after command } := by
  rw [queue_records, if_pos hloop, if_neg hfilter]
  split <;> rename_i hpeek <;> rw [hpeek]
  all_goals rfl

theorem queue_records_behind (self : VisionUplink) :
    (self.behind sent).queue_records parser user_uuid random
      = ((self.queue_records parser user_uuid random).1,
          (self.queue_records parser user_uuid random).2.behind sent) := by
  fun_induction queue_records parser user_uuid random self with
  | case1 self hloop hother =>
    rw [queue_records]
    refine (if_pos hloop).trans ((if_pos hother).trans ?_)
    rw [queue_block_eq, queue_block_eq]
    simp only [behind, append_assoc]
  | case2 self hloop hfilter error hpeek | case3 self hloop hfilter hpeek =>
    refine (@queue_records_peek _ _ _ (self.behind sent) hloop hfilter).trans ?_
    simp only [behind, hpeek]
  | case4 self hloop hfilter record_type record_len hpeek hcommand =>
    refine (@queue_records_peek _ _ _ (self.behind sent) hloop hfilter).trans ?_
    rw [show peek_complete_tls_record (self.behind sent).pending = _ from hpeek]
    dsimp only
    rw [show (self.behind sent).record_command _ _ = _ from hcommand]
  | case5 self hloop hfilter record_type record_len hpeek command hcommand error tls_state hobserve =>
    refine (@queue_records_peek _ _ _ (self.behind sent) hloop hfilter).trans ?_
    rw [show peek_complete_tls_record (self.behind sent).pending = _ from hpeek]
    dsimp only
    rw [show (self.behind sent).record_command _ _ = _ from hcommand]
    dsimp only [behind]
    rw [hobserve]
  | case6 self hloop hfilter record_type record_len hpeek command hcommand tls_state hobserve ih =>
    refine (@queue_records_peek _ _ _ (self.behind sent) hloop hfilter).trans ?_
    rw [show peek_complete_tls_record (self.behind sent).pending = _ from hpeek]
    dsimp only
    rw [show (self.behind sent).record_command _ _ = _ from hcommand, ← ih]
    dsimp only [behind]
    rw [hobserve]
    -- the record's block goes behind both
    dsimp only
    rw [queue_block_eq, queue_block_eq, append_assoc]
    rfl
  | case7 self hloop hstate =>
    rw [queue_records]
    refine (if_neg hloop).trans ?_
    rw [show (self.behind sent).state = _ from hstate]
  | case8 self hloop hstate | case9 self hloop hstate =>
    rw [queue_records]
    refine (if_neg hloop).trans ?_
    rw [show (self.behind sent).state = _ from hstate, ← queue_pending_behind]

theorem queue_vision_uplink_behind (self : VisionUplink) :
    (self.behind sent).queue_vision_uplink parser user_uuid random
      = ((self.queue_vision_uplink parser user_uuid random).1,
          (self.queue_vision_uplink parser user_uuid random).2.behind sent) := by
  have hstate : (self.behind sent).state = self.state := rfl
  rw [queue_vision_uplink, queue_vision_uplink, hstate]
  cases self.state with
  | PlainOverlay =>
    rw [queue_pending_behind]
  | DirectPass =>
    dsimp only
    rw [queue_pending_behind]
  | Padding =>
    by_cases hblock : self.first_block = true ∧ self.pending ≠ []
    · have hblock' : (self.behind sent).first_block = true ∧ (self.behind sent).pending ≠ [] := hblock
      rw [if_pos hblock, if_pos hblock']
      dsimp only [behind]
      rcases self.tls_state.observe_client_payload parser self.pending with ⟨_ | _, tls_state⟩
      · rfl
      · dsimp only
        rw [queue_block_eq, queue_block_eq]
        simp only [append_assoc]
    · have hblock' : ¬ ((self.behind sent).first_block = true ∧ (self.behind sent).pending ≠ []) := hblock
      rw [if_neg hblock, if_neg hblock']
      exact queue_records_behind parser user_uuid random sent self

theorem accept_inbound_behind (self : VisionUplink) (bytes : List UInt8) :
    (self.behind sent).accept_inbound parser user_uuid random bytes
      = ((self.accept_inbound parser user_uuid random bytes).1,
          (self.accept_inbound parser user_uuid random bytes).2.behind sent) := by
  by_cases hlimit : VISION_PENDING_UPLINK_LIMIT < (self.pending ++ bytes).length
  · have herror : self.accept_inbound parser user_uuid random bytes
        = (.error (pending_uplink_limit_error (self.pending ++ bytes).length),
            { self with pending := self.pending ++ bytes }) := if_pos hlimit
    rw [herror]
    exact if_pos hlimit
  · have hqueue : self.accept_inbound parser user_uuid random bytes
        = { self with pending := self.pending ++ bytes }.queue_vision_uplink parser user_uuid random :=
      if_neg hlimit
    rw [hqueue, ← queue_vision_uplink_behind]
    exact if_neg hlimit

end VisionUplink

variable {bytes : List UInt8}

namespace VisionUplink

variable {parser : TlsParser} {user_uuid : Vector UInt8 16} {random : Nat → Nat}

variable {self : VisionUplink}

theorem queue_writes {next : VisionUplink}
    (h : self.queue_vision_uplink parser user_uuid random = (.ok (), next)) :
    ∃ more, next.writes = self.writes ++ more := by
  have hbehind := queue_vision_uplink_behind parser user_uuid random self.writes { self with writes := [] }
  have hself : ({ self with writes := [] } : VisionUplink).behind self.writes = self := by
    rw [behind, append_nil]
  rw [hself, h] at hbehind
  rw [(Prod.mk.inj hbehind).2]
  exact ⟨_, rfl⟩

theorem accept_writes {next : VisionUplink}
    (h : self.accept_inbound parser user_uuid random bytes = (.ok (), next)) :
    ∃ more, next.writes = self.writes ++ more := by
  rw [accept_inbound] at h
  split_ifs at h with hlimit
  · cases (Prod.mk.inj h).1
  · obtain ⟨more, hmore⟩ := queue_writes h
    exact ⟨more, hmore⟩

theorem queue_vision_uplink_nil (hempty : self.pending = []) :
    self.queue_vision_uplink parser user_uuid random = (.ok (), self) := by
  have hpending : ∀ mode, self.queue_pending mode = self := by
    intro mode
    obtain ⟨pending, writes, uuid_sent, first_block, state, tls_state, drawn⟩ := self
    subst hempty
    rfl
  rw [queue_vision_uplink]
  split
  · rw [hpending]
  · rw [hpending]
  · rename_i hstate
    rw [if_neg (fun hblock => hblock.2 hempty), queue_records, if_neg (fun hloop => hloop.1 hempty), hstate]

end VisionUplink

/-! ## The invariant -/

/-- The part of the next write that is written. -/
def VisionDuplexDriver.written (driver : VisionDuplexDriver) : List VisionUplinkWrite :=
  (driver.uplink.writes.head?.map fun write =>
    (⟨write.mode, write.payload.take driver.uplink_write_offset⟩ : VisionUplinkWrite)).toList

def bytes_of (mode : VisionUplinkWriteMode) (writes : List VisionUplinkWrite) : List UInt8 :=
  (writes_of mode writes).flatten

theorem bytes_of_append (mode : VisionUplinkWriteMode) (first second : List VisionUplinkWrite) :
    bytes_of mode (first ++ second) = bytes_of mode first ++ bytes_of mode second := by
  rw [bytes_of, writes_of_append, List.flatten_append]
  rfl

theorem bytes_of_singleton (mode : VisionUplinkWriteMode) (write : VisionUplinkWrite) :
    bytes_of mode [write] = if write.mode = mode then write.payload else [] := by
  rw [bytes_of, writes_of]
  by_cases hmode : write.mode = mode
  · simp [hmode]
  · simp [hmode]

theorem bytes_of_written_zero {driver : VisionDuplexDriver} (hoffset : driver.uplink_write_offset = 0)
    (mode : VisionUplinkWriteMode) : bytes_of mode driver.written = [] := by
  rw [written, hoffset]
  cases driver.uplink.writes with
  | nil => rfl
  | cons write writes =>
    dsimp only [List.head?, Option.map, Option.toList]
    rw [bytes_of_singleton, List.take_zero, ite_self]

theorem bytes_of_written {driver next : VisionDuplexDriver} {more : List VisionUplinkWrite}
    (hwrites : next.uplink.writes = driver.uplink.writes ++ more)
    (hoffset : next.uplink_write_offset = driver.uplink_write_offset)
    (hempty : driver.uplink.writes = [] → driver.uplink_write_offset = 0) (mode : VisionUplinkWriteMode) :
    bytes_of mode next.written = bytes_of mode driver.written := by
  cases hcases : driver.uplink.writes with
  | nil =>
    have hzero := hempty hcases
    rw [bytes_of_written_zero hzero, bytes_of_written_zero (hoffset.trans hzero)]
  | cons write writes =>
    rw [written, written, hwrites, hoffset, hcases]
    rfl

/-- `sent` are the writes that are sent, `rest` is what the client sent after the first payload. -/
structure Uploads (user_uuid : Vector UInt8 16) (initial_payload : List UInt8)
    (sent : List VisionUplinkWrite) (rest : List UInt8) (relay : VisionRelay) : Prop where
  from_client : relay.io.from_client = initial_payload ++ rest
  kept : ∃ kept, Keeps user_uuid kept (relay.driver.uplink.behind sent) ∧
    kept ++ relay.io.discarded = initial_payload.take 65535 ++ rest
  plain : relay.io.to_proxy = bytes_of .PlainOverlay (sent ++ relay.driver.written)
  raw : relay.io.to_proxy_raw = bytes_of .DirectPass (sent ++ relay.driver.written)
  offset : relay.driver.uplink.writes = [] → relay.driver.uplink_write_offset = 0
  at_open : relay.driver.inbound_closed = false → relay.io.discarded = []
  at_close : relay.driver.inbound_closed = true → relay.driver.uplink.pending = []
  shut : relay.driver.proxy_write_shutdown = true →
    relay.driver.inbound_closed = true ∧ relay.driver.uplink.writes = []

namespace Uploads

variable {parser : TlsParser} {user_uuid : Vector UInt8 16} {random : Nat → Nat}
  {initial_payload : List UInt8} {sent : List VisionUplinkWrite} {rest : List UInt8} {self : VisionRelay}
  {next : VisionRelay} (h : Uploads user_uuid initial_payload sent rest self)

include h

/-- Writes that are queued behind the others change nothing of what is sent. -/
theorem more_writes (driver : VisionDuplexDriver) {more : List VisionUplinkWrite}
    (hmore : driver.uplink.writes = self.driver.uplink.writes ++ more)
    (hoffset : driver.uplink_write_offset = self.driver.uplink_write_offset) :
    self.io.to_proxy = bytes_of .PlainOverlay (sent ++ driver.written) ∧
      self.io.to_proxy_raw = bytes_of .DirectPass (sent ++ driver.written) ∧
      (driver.uplink.writes = [] → driver.uplink_write_offset = 0) := by
  have hwritten := bytes_of_written hmore hoffset h.offset
  refine ⟨?_, ?_, ?_⟩
  · rw [bytes_of_append, hwritten, ← bytes_of_append]
    exact h.plain
  · rw [bytes_of_append, hwritten, ← bytes_of_append]
    exact h.raw
  · intro hempty
    rw [hmore, List.append_eq_nil_iff] at hempty
    exact hoffset.trans (h.offset hempty.1)

/-- Bytes of the overlay may let the filter queue what waits. -/
theorem consume_overlay {request_handoff : Bool}
    (hnext : self.consume_overlay parser user_uuid random bytes = .ok (request_handoff, next)) :
    Uploads user_uuid initial_payload sent rest next := by
  obtain ⟨_, response_stripper, payload, unpadder, _, _, ⟨_, _, rfl⟩ | ⟨_, _, tls_state, uplink, hqueue, rfl⟩⟩ :=
    consume_overlay_ok _ _ _ hnext
  · exact { h with }
  · obtain ⟨more, hqueued_more⟩ := queue_writes hqueue
    have hmore : uplink.writes = self.driver.uplink.writes ++ more := hqueued_more
    obtain ⟨kept, ⟨carried, hqueued, hbytes, hlong⟩, hall⟩ := h.kept
    -- queueing behind the writes that are sent
    have hbehind : Queued user_uuid ({ self.driver.uplink with tls_state }.behind sent) carried :=
      hqueued.congr rfl rfl rfl rfl
    have hqueue' : ({ self.driver.uplink with tls_state }.behind sent).queue_vision_uplink parser
        user_uuid random = (.ok (), uplink.behind sent) := by
      rw [queue_vision_uplink_behind, hqueue]
    have hle : ({ self.driver.uplink with tls_state }.behind sent).pending.length ≤ 65535 := by
      exact Nat.le_trans hlong (by decide)
    obtain ⟨hplain, hraw, hoffset⟩ := h.more_writes
      (self.after_payload response_stripper unpadder uplink request_handoff payload) hmore rfl
    -- after the client's close nothing waits, so nothing is queued
    have hsame : self.driver.inbound_closed = true → uplink = { self.driver.uplink with tls_state } := by
      intro hclosed
      have hempty : ({ self.driver.uplink with tls_state } : VisionUplink).pending = [] :=
        h.at_close hclosed
      rw [queue_vision_uplink_nil hempty] at hqueue
      exact (Prod.mk.inj hqueue).2.symm
    refine ⟨h.from_client, ⟨kept, ?_, hall⟩, hplain, hraw, hoffset, h.at_open, ?_, ?_⟩
    · exact keeps_queue hbehind hbytes hle hqueue'
    · intro hclosed
      have hpending := congrArg pending (hsame hclosed)
      exact hpending.trans (h.at_close hclosed)
    · intro hshut
      obtain ⟨hclosed, hempty⟩ := h.shut hshut
      have hwrites := congrArg writes (hsame hclosed)
      exact ⟨hclosed, hwrites.trans hempty⟩

theorem poll_downlink_write {answer : PollIo Nat} (hnext : self.poll_downlink_write answer = .ok next) :
    Uploads user_uuid initial_payload sent rest next := by
  revert hnext
  fun_cases self.poll_downlink_write answer with
  | case3 | case7 => intro hnext; cases hnext
  | _ => rintro ⟨⟩; exact { h with }

omit h in
theorem write_proxy (write : VisionUplinkWrite) (bytes : List UInt8) :
    (self.write_proxy write.mode bytes).to_proxy
        = self.io.to_proxy ++ bytes_of .PlainOverlay [⟨write.mode, bytes⟩] ∧
      (self.write_proxy write.mode bytes).to_proxy_raw
        = self.io.to_proxy_raw ++ bytes_of .DirectPass [⟨write.mode, bytes⟩] ∧
      (self.write_proxy write.mode bytes).from_client = self.io.from_client ∧
      (self.write_proxy write.mode bytes).discarded = self.io.discarded := by
  rw [bytes_of_singleton, bytes_of_singleton]
  cases write.mode with
  | PlainOverlay => exact ⟨rfl, (append_nil _).symm, rfl, rfl⟩
  | DirectPass => exact ⟨(append_nil _).symm, rfl, rfl, rfl⟩

/-- More of the next write is written, or it is flushed and the one behind it is next. -/
theorem poll_uplink_write {answer : PollIo Nat} {flush : PollIo Unit}
    (hnext : self.poll_uplink_write answer flush = .ok next) :
    ∃ sent, Uploads user_uuid initial_payload sent rest next := by
  -- what a further part of a write adds, also when there is none
  have hpart : ∀ {write : VisionUplinkWrite} {writes : List VisionUplinkWrite} {part : List UInt8}
      {driver : VisionDuplexDriver} {progressed : Bool}, self.driver.uplink.writes = write :: writes →
      driver.uplink = self.driver.uplink →
      write.payload.take driver.uplink_write_offset
        = write.payload.take self.driver.uplink_write_offset ++ part →
      driver.inbound_closed = self.driver.inbound_closed →
      driver.proxy_write_shutdown = self.driver.proxy_write_shutdown →
      Uploads user_uuid initial_payload sent rest
        { self with driver, io := self.write_proxy write.mode part, progressed } := by
    intro write writes part driver progressed hwrites huplink hpart hinbound hshut
    obtain ⟨hplain, hraw, hclient, hdiscarded⟩ := @write_proxy self write part
    have hwritten : ∀ mode, bytes_of mode (sent ++ driver.written)
        = bytes_of mode (sent ++ self.driver.written) ++ bytes_of mode [⟨write.mode, part⟩] := by
      intro mode
      rw [bytes_of_append, bytes_of_append, written, written,
        huplink, hwrites, append_assoc]
      congr 1
      dsimp only [List.head?, Option.map, Option.toList]
      rw [bytes_of_singleton, bytes_of_singleton, bytes_of_singleton]
      split_ifs with hmode
      · exact hpart
      · rfl
    refine ⟨hclient.trans h.from_client, ?_, ?_, ?_, ?_, ?_, ?_, ?_⟩
    · rw [huplink, hdiscarded]
      exact h.kept
    · rw [hplain, h.plain, hwritten]
    · rw [hraw, h.raw, hwritten]
    · rw [huplink, hwrites]
      nofun
    · rw [hinbound, hdiscarded]
      exact h.at_open
    · rw [hinbound, huplink]
      exact h.at_close
    · rw [hshut, hinbound, huplink]
      exact h.shut
  revert hnext
  fun_cases self.poll_uplink_write answer flush with
  | case2 _ write writes hwrites =>
    rintro ⟨⟩
    exact ⟨sent, hpart hwrites rfl (append_nil _).symm rfl rfl⟩
  | case3 | case5 | case8 => intro hnext; cases hnext
  | case4 _ write writes hwrites =>
    rintro ⟨⟩
    exact ⟨sent, hpart hwrites rfl List.take_add rfl rfl⟩
  | case7 _ write writes hwrites _ hmore =>
    -- the write is done
    rintro ⟨⟩
    have hdone : self.driver.written = [write] := by
      rw [written, hwrites]
      dsimp only [List.head?, Option.map, Option.toList]
      rw [List.take_of_length_le (Nat.not_lt.mp hmore)]
    have hbehind : ({ self.driver.uplink with writes } : VisionUplink).behind (sent ++ [write])
        = self.driver.uplink.behind sent := by
      rw [behind, behind, hwrites, append_assoc]
      rfl
    refine ⟨sent ++ [write], h.from_client, ?_, ?_, ?_, fun _ => rfl, h.at_open, h.at_close, ?_⟩
    · rw [hbehind]
      exact h.kept
    · rw [bytes_of_append, bytes_of_written_zero rfl, append_nil, h.plain, hdone]
    · rw [bytes_of_append, bytes_of_written_zero rfl, append_nil, h.raw, hdone]
    · intro hshut
      rw [(h.shut hshut).2] at hwrites
      cases hwrites
  | _ => rintro ⟨⟩; exact ⟨sent, h⟩

theorem poll_inbound_shutdown {answer : PollIo Unit}
    (hnext : self.poll_inbound_shutdown answer = .ok next) :
    Uploads user_uuid initial_payload sent rest next := by
  revert hnext
  fun_cases self.poll_inbound_shutdown answer with
  | case4 => intro hnext; cases hnext
  | _ => rintro ⟨⟩; exact { h with }

theorem begin_cycle : Uploads user_uuid initial_payload sent rest self.begin_cycle := by
  unfold VisionRelay.begin_cycle
  dsimp only
  split_ifs with hpending
  · exact { h with }
  · exact { h with }

theorem proxy_read_overlay
    (hnext : self.proxy_read_overlay parser user_uuid random bytes = .ok next) :
    Uploads user_uuid initial_payload sent rest next := by
  obtain ⟨⟨request_handoff, consumed⟩, hconsume, rfl⟩ := bind_pure_ok hnext
  have hconsumed := h.consume_overlay hconsume
  split_ifs with hrequest
  · exact { hconsumed with }
  · exact { hconsumed with }

theorem proxy_reads (hreads : VisionRelay.ProxyReads parser user_uuid random self next) :
    Uploads user_uuid initial_payload sent rest next := by
  induction hreads with
  | overlay_pending self hstate | overlay_close self hstate | overlay_failed self hstate
  | direct_close self hstate | direct_failed self hstate | direct_bytes self bytes hstate hne => exact { h with }
  | @overlay_bytes self next bytes hstate hne hnext =>
    have hpoll : Uploads user_uuid initial_payload sent rest self.poll_overlay := { h with }
    exact hpoll.proxy_read_overlay hnext
  | handoff hstate hnext ih | no_handoff hstate hnext ih => exact ih { h with }
  | direct_pending self hstate => exact h

/-- At the client's close nothing is queued, and what waits is thrown away. -/
theorem close_inbound (hopen : self.driver.inbound_closed = false)
    (hwrites : self.driver.uplink.writes = []) :
    Uploads user_uuid initial_payload sent rest self.close_inbound := by
  obtain ⟨kept, ⟨carried, hqueued, hbytes, hlong⟩, hall⟩ := h.kept
  have hclosed : Queued user_uuid ({ self.driver.uplink with pending := [] }.behind sent) carried :=
    hqueued.congr rfl rfl rfl rfl
  refine ⟨h.from_client, ⟨carried, ⟨carried, hclosed, append_nil _, Nat.zero_le _⟩, ?_⟩, h.plain, h.raw,
    h.offset, nofun, fun _ => rfl, fun _ => ⟨rfl, hwrites⟩⟩
  rw [h.at_open hopen, append_nil] at hall
  rw [← hall, ← hbytes]
  rfl

theorem inbound_read_step {answer : PollIo RelayRead}
    (hnext : self.inbound_read_step parser user_uuid random answer = .ok next) :
    ∃ rest, Uploads user_uuid initial_payload sent rest next := by
  unfold VisionRelay.inbound_read_step at hnext
  split_ifs at hnext with hready
  · obtain ⟨_, hopen, hwrites⟩ := hready
    unfold poll_inbound_read at hnext
    split at hnext
    · cases hnext
      exact ⟨rest, h⟩
    · rename_i bytes
      split_ifs at hnext with hempty
      · cases hnext
        exact ⟨rest, h.close_inbound hopen hwrites⟩
      · obtain ⟨uplink, huplink, rfl⟩ := bind_pure_ok hnext
        have haccept := ok_or_end_ok huplink
        obtain ⟨more, hmore⟩ := accept_writes haccept
        obtain ⟨kept, hkeeps, hall⟩ := h.kept
        have haccept' : (self.driver.uplink.behind sent).accept_inbound parser user_uuid random bytes
            = (.ok (), uplink.behind sent) := by
          rw [accept_inbound_behind, haccept]
        obtain ⟨hplain, hraw, hoffset⟩ := h.more_writes { self.driver with
          uplink
          stats := { self.driver.stats with
            client_to_proxy := self.driver.stats.client_to_proxy + bytes.1.length } } hmore rfl
        refine ⟨rest ++ bytes, ?_, ⟨kept ++ bytes, ?_, ?_⟩, hplain, hraw, hoffset, h.at_open, ?_, ?_⟩
        · rw [h.from_client, append_assoc]
        · exact keeps_accept_inbound hkeeps bytes.2 haccept'
        · rw [h.at_open hopen, append_nil] at hall ⊢
          rw [hall, append_assoc]
        · intro hclosed
          have hclosed' : self.driver.inbound_closed = true := hclosed
          rw [hopen] at hclosed'
          cases hclosed'
        · intro hshut
          have hclosed := (h.shut hshut).1
          rw [hopen] at hclosed
          cases hclosed
    · split_ifs at hnext with hgraceful
      cases hnext
      have hfail : Uploads user_uuid initial_payload sent rest self.fail := { h with }
      exact ⟨rest, hfail.close_inbound hopen hwrites⟩
  · cases hnext
    exact ⟨rest, h⟩

theorem poll_proxy_shutdown {answer : PollIo Unit} (hnext : self.poll_proxy_shutdown answer = .ok next) :
    Uploads user_uuid initial_payload sent rest next := by
  revert hnext
  fun_cases self.poll_proxy_shutdown answer with
  | case2 hready
  | case3 hready => rintro ⟨⟩; exact { h with shut := fun _ => ⟨hready.1, hready.2.1⟩ }
  | case4 => intro hnext; cases hnext
  | case1 | case5 => rintro ⟨⟩; exact h

variable (parser user_uuid random initial_payload)

omit h in
theorem invariant : VisionRelay.Invariant parser user_uuid random
    (fun relay => ∃ sent rest, Uploads user_uuid initial_payload sent rest relay)
    (fun relay => ∃ sent rest, Uploads user_uuid initial_payload sent rest relay) where
  begin_cycle := fun ⟨sent, rest, h⟩ => ⟨sent, rest, h.begin_cycle⟩
  poll_downlink_write := fun ⟨sent, rest, h⟩ hnext => ⟨sent, rest, h.poll_downlink_write hnext⟩
  poll_uplink_write := fun ⟨_, rest, h⟩ hnext =>
    let ⟨sent, hsent⟩ := h.poll_uplink_write hnext
    ⟨sent, rest, hsent⟩
  poll_inbound_shutdown := fun ⟨sent, rest, h⟩ hnext => ⟨sent, rest, h.poll_inbound_shutdown hnext⟩
  proxy_reads := fun ⟨sent, rest, h⟩ _ _ hreads => ⟨sent, rest, h.proxy_reads hreads⟩
  inbound_read_step := fun ⟨sent, _, h⟩ hnext => ⟨sent, h.inbound_read_step hnext⟩
  poll_proxy_shutdown := fun ⟨sent, rest, h⟩ hnext => ⟨sent, rest, h.poll_proxy_shutdown hnext⟩
  end_cycle := id

variable {parser user_uuid random initial_payload}

omit h in
theorem start {response_bytes : List UInt8} {relay : VisionRelay}
    (h : new_with_response_prefix parser user_uuid random initial_payload response_bytes
      = .ok relay) : Uploads user_uuid initial_payload [] [] relay := by
  obtain ⟨uplink, hnew, h⟩ := bind_ok h
  obtain ⟨driver, hqueue, h⟩ := bind_ok h
  obtain ⟨queued, hqueued, rfl⟩ := queue_uplink_ok _ _ _ hqueue
  have hkeeps := keeps_new hnew hqueued
  have hstart : Uploads user_uuid initial_payload [] []
      { driver :=
          { stats := { client_to_proxy := initial_payload.length }
            unpadder := VisionUnpadder.new user_uuid
            uplink := queued }
        io := { from_client := initial_payload } } := by
    refine ⟨(append_nil _).symm, ⟨_, hkeeps, rfl⟩, ?_, ?_, fun _ => rfl,
      fun _ => rfl, nofun, nofun⟩
    · exact (bytes_of_written_zero rfl _).symm
    · exact (bytes_of_written_zero rfl _).symm
  split_ifs at h with hempty
  · cases h
    exact hstart
  · obtain ⟨⟨request_handoff, consumed⟩, hconsume, rfl⟩ := bind_pure_ok h
    have hconsumed := hstart.consume_overlay hconsume
    exact { hconsumed with }

omit h in
theorem run {response_bytes : List UInt8} {cycles : List CycleIo} {relay : VisionRelay}
    (h : run parser user_uuid random initial_payload response_bytes cycles = .ok relay) :
    ∃ sent rest, Uploads user_uuid initial_payload sent rest relay := by
  exact (invariant parser user_uuid random initial_payload).run (fun hnew => ⟨[], [], start hnew⟩) h

/-- When the proxy's side is shut down, what was written to it carries all that was not thrown away. -/
theorem carried (hshut : self.driver.proxy_write_shutdown = true) :
    ∃ out, ((VisionUnpadder.new user_uuid).consume self.io.to_proxy).1 = .ok out ∧
      out ++ self.io.to_proxy_raw ++ self.io.discarded = initial_payload.take 65535 ++ rest := by
  obtain ⟨hclosed, hwrites⟩ := h.shut hshut
  obtain ⟨kept, ⟨carried, hqueued, hbytes, _⟩, hall⟩ := h.kept
  obtain ⟨out, hout, hcarried⟩ := hqueued.carries.carried
  have hsent : ∀ mode, bytes_of mode (sent ++ self.driver.written)
      = (writes_of mode (self.driver.uplink.behind sent).writes).flatten := by
    intro mode
    rw [bytes_of_append, bytes_of_written_zero (h.offset hwrites), append_nil,
      behind, hwrites, append_nil]
    rfl
  have hpending : (self.driver.uplink.behind sent).pending = [] := h.at_close hclosed
  rw [hpending, append_nil] at hcarried hbytes
  refine ⟨out, ?_, ?_⟩
  · rcases hfeed : Segments.feed_all VisionUnpadder.consume (VisionUnpadder.new user_uuid)
      (writes_of .PlainOverlay (self.driver.uplink.behind sent).writes) with ⟨result, unpadder⟩
    rw [hfeed] at hout
    subst hout
    rw [h.plain, hsent, (VisionUnpadder.seamless.feed_all_eq_iff _ (VisionUnpadder.consume_new_nil _)).mp hfeed]
  · rw [h.raw, hsent, hcarried, append_nil, hbytes, hall]

end Uploads

end DaeNext.Vision
