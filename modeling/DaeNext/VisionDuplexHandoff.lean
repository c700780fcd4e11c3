/-
The handoff of the downlink.

The handoff is requested when payload is unpadded after a direct block was completed. Bytes that
complete the block without payload, an empty content or the last of the padding, request nothing: then
the overlay is read once more. Apart from them the request comes before the next read.
-/
import DaeNext.VisionDuplex
import DaeNext.VisionUplinkRun

set_option autoImplicit false

namespace DaeNext.Vision

open Fallible VisionRelay

/-- `request` says that a request is about to be made. -/
structure HandsOff (request : Bool) (relay : VisionRelay) : Prop where
  in_time : relay.io.silent_direct = false → relay.io.late_overlay_read = false
  requested : relay.io.silent_direct = false → relay.driver.unpadder.direct_command_seen = true →
    relay.driver.downlink_state ≠ .Overlay ∧ (request = true ∨ relay.io.read_handoff_requested = true ∨
      relay.driver.outer_read_handoff_pending = true)
  late : relay.io.silent_direct = true → relay.io.late_overlay_read = true ∨
    relay.driver.unpadder.direct_command_seen = true ∧ relay.driver.downlink_state = .Overlay
  overlay : relay.driver.unpadder.direct_command_seen = false → relay.driver.downlink_state = .Overlay

/-- In a cycle no request is left over from the start. -/
def HandsOffInCycle (relay : VisionRelay) : Prop :=
  HandsOff false relay ∧ relay.driver.outer_read_handoff_pending = false

variable {parser : TlsParser} {user_uuid : Vector UInt8 16} {random : Nat → Nat}
  {next : VisionRelay}

namespace HandsOff

variable {self : VisionRelay}

/-- Payload behind a direct block requests the handoff. -/
theorem consume_overlay (h : HandsOff false self)
    (hlate : self.io.silent_direct = true → self.io.late_overlay_read = true) {bytes : List UInt8}
    {request_handoff : Bool}
    (hnext : self.consume_overlay parser user_uuid random bytes = .ok (request_handoff, next)) :
    HandsOff request_handoff next ∧
      next.driver.outer_read_handoff_pending = self.driver.outer_read_handoff_pending ∧
      next.io.late_overlay_read = self.io.late_overlay_read := by
  obtain ⟨_, response_stripper, payload, unpadder, _, hunpad, hcases⟩ :=
    consume_overlay_ok _ _ _ hnext
  have hunseen : unpadder.direct_command_seen = false →
      self.driver.unpadder.direct_command_seen = false := by
    intro hafter
    rw [← Bool.not_eq_true]
    intro hbefore
    rw [VisionUnpadder.consume_direct_command_seen hunpad hbefore] at hafter
    cases hafter
  obtain ⟨rfl, rfl, rfl⟩ | ⟨hpayload, hrequest, tls_state, uplink, _, rfl⟩ := hcases
  · -- without payload the downlink's state stays
    have hsilent : (self.after_overlay bytes [] unpadder).silent_direct = (self.io.silent_direct ||
        (unpadder.direct_command_seen && !self.driver.unpadder.direct_command_seen)) := rfl
    refine ⟨⟨?_, ?_, ?_, fun hafter => h.overlay (hunseen hafter)⟩, rfl, rfl⟩
    · intro hquiet
      exact h.in_time (Bool.or_eq_false_iff.mp (hsilent.symm.trans hquiet)).1
    · intro hquiet hseen
      obtain ⟨hbefore, hnew⟩ := Bool.or_eq_false_iff.mp (hsilent.symm.trans hquiet)
      have hseen' : unpadder.direct_command_seen = true := hseen
      rw [hseen', Bool.true_and, Bool.not_eq_false'] at hnew
      exact h.requested hbefore hnew
    · intro hloud
      have hnew := hsilent.symm.trans hloud
      cases hquiet : self.io.silent_direct with
      | true => exact .inl (hlate hquiet)
      | false =>
        rw [hquiet, Bool.false_or, Bool.and_eq_true, Bool.not_eq_true'] at hnew
        exact .inr ⟨hnew.1, h.overlay hnew.2⟩
  · have hloud : payload.isEmpty = false := by
      rw [List.isEmpty_eq_false_iff]
      exact hpayload
    have hsilent' : (self.after_overlay bytes payload unpadder).silent_direct
        = self.io.silent_direct := by
      rw [after_overlay]
      rw [hloud, Bool.false_and, Bool.false_and, Bool.or_false]
    refine ⟨⟨?_, ?_, ?_, ?_⟩, rfl, rfl⟩
    · intro hsilent
      rw [hsilent'] at hsilent
      exact h.in_time hsilent
    · intro hsilent hseen
      rw [hsilent'] at hsilent
      have hseen' : unpadder.direct_command_seen = true := hseen
      rw [hseen', Bool.true_and] at hrequest
      by_cases hstate : self.driver.downlink_state = .Overlay
      · rw [hrequest, hstate]
        exact ⟨nofun, .inl rfl⟩
      · rw [decide_eq_false hstate] at hrequest
        rw [hrequest]
        refine ⟨hstate, ?_⟩
        refine (h.requested hsilent ?_).2
        rw [← Bool.not_eq_false]
        exact fun hunseen => hstate (h.overlay hunseen)
    · intro hsilent
      rw [hsilent'] at hsilent
      exact .inl (hlate hsilent)
    · intro hafter
      have hafter' : unpadder.direct_command_seen = false := hafter
      rw [hafter', Bool.false_and] at hrequest
      rw [hrequest]
      exact h.overlay (hunseen hafter')

end HandsOff

namespace HandsOffInCycle

variable {self : VisionRelay} (h : HandsOffInCycle self)

include h

/-- The poll itself is late only after a silent direct block. -/
theorem poll_overlay :
    HandsOffInCycle self.poll_overlay ∧
      (self.io.silent_direct = true → self.poll_overlay.io.late_overlay_read = true) := by
  obtain ⟨hands, houter⟩ := h
  have hquiet : self.io.silent_direct = false → self.poll_overlay.io.late_overlay_read = false := by
    intro hsilent
    unfold VisionRelay.poll_overlay
    rw [hands.in_time hsilent, Bool.false_or]
    cases hseen : self.driver.unpadder.direct_command_seen with
    | false => rfl
    | true =>
      obtain ⟨hstate, hrequest | hrequested | hpending⟩ := hands.requested hsilent hseen
      · cases hrequest
      · rw [decide_eq_false hstate, hrequested]
        rfl
      · rw [houter] at hpending
        cases hpending
  have hloud : self.io.silent_direct = true → self.poll_overlay.io.late_overlay_read = true := by
    intro hsilent
    unfold VisionRelay.poll_overlay
    obtain hlate | ⟨hseen, hstate⟩ := hands.late hsilent
    · rw [hlate, Bool.true_or]
    · rw [hseen, decide_eq_true hstate, Bool.true_or, Bool.true_and, Bool.or_true]
  exact ⟨⟨⟨hquiet, hands.requested, fun hsilent => .inl (hloud hsilent), hands.overlay⟩, houter⟩, hloud⟩

section

variable (hlate : self.io.silent_direct = true → self.io.late_overlay_read = true)

include hlate

theorem proxy_read_overlay {bytes : List UInt8}
    (hnext : self.proxy_read_overlay parser user_uuid random bytes = .ok next) :
    HandsOffInCycle next ∧ next.io.late_overlay_read = self.io.late_overlay_read := by
  obtain ⟨⟨request_handoff, consumed⟩, hconsume, rfl⟩ := bind_pure_ok hnext
  obtain ⟨hconsumed, houter, hsame⟩ := h.1.consume_overlay hlate hconsume
  rw [h.2] at houter
  cases request_handoff with
  | true => exact ⟨⟨{ hconsumed with
      requested := fun hsilent hseen => ⟨(hconsumed.requested hsilent hseen).1, .inr (.inl rfl)⟩ }, houter⟩,
      hsame⟩
  | false => exact ⟨⟨{ hconsumed with }, houter⟩, hsame⟩

theorem activate_direct (hstate : self.driver.downlink_state = .DirectPending) :
    HandsOffInCycle self.activate_direct := by
  refine ⟨⟨h.1.in_time, ?_, fun hsilent => .inl (hlate hsilent), ?_⟩, h.2⟩
  · intro hsilent hseen
    exact ⟨nofun, (h.1.requested hsilent hseen).2⟩
  · intro hunseen
    have hoverlay := h.1.overlay hunseen
    rw [hstate] at hoverlay
    cases hoverlay

end

theorem proxy_reads (hreads : VisionRelay.ProxyReads parser user_uuid random self next) :
    HandsOffInCycle next ∧ (self.io.silent_direct = false → next.io.late_overlay_read = false) := by
  induction hreads with
  | overlay_pending self hstate =>
    have hpoll := h.poll_overlay.1
    exact ⟨hpoll, hpoll.1.in_time⟩
  | overlay_close self hstate | overlay_failed self hstate =>
    have hpoll := h.poll_overlay.1
    exact ⟨⟨{ hpoll.1 with }, hpoll.2⟩, hpoll.1.in_time⟩
  | overlay_bytes bytes hstate hne hnext =>
    obtain ⟨hpoll, hlate⟩ := h.poll_overlay
    obtain ⟨hread, hsame⟩ := hpoll.proxy_read_overlay hlate hnext
    refine ⟨hread, fun hsilent => ?_⟩
    rw [hsame]
    exact hpoll.1.in_time hsilent
  | handoff hstate hnext ih =>
    obtain ⟨hpoll, hlate⟩ := h.poll_overlay
    exact ih (hpoll.activate_direct hlate hstate)
  | no_handoff hstate hnext ih => exact ih h.poll_overlay.1
  | direct_pending self hstate => exact ⟨h, h.1.in_time⟩
  | direct_close self hstate | direct_failed self hstate
  | direct_bytes self bytes hstate hne => exact ⟨⟨{ h.1 with }, h.2⟩, h.1.in_time⟩

omit h in
theorem begin_cycle (h : HandsOff false self) : HandsOffInCycle self.begin_cycle := by
  unfold VisionRelay.begin_cycle
  dsimp only
  split_ifs with hpending
  · refine ⟨⟨h.in_time, ?_, h.late, h.overlay⟩, rfl⟩
    intro hsilent hseen
    exact ⟨(h.requested hsilent hseen).1, .inr (.inl rfl)⟩
  · exact ⟨{ h with }, Bool.not_eq_true _ ▸ hpending⟩

theorem poll_downlink_write {answer : PollIo Nat}
    (hnext : self.poll_downlink_write answer = .ok next) : HandsOffInCycle next := by
  revert hnext
  fun_cases self.poll_downlink_write answer with
  | case3 | case7 => intro hnext; cases hnext
  | _ => rintro ⟨⟩; exact ⟨{ h.1 with }, h.2⟩

variable (parser user_uuid random)

omit h in
theorem invariant : VisionRelay.Invariant parser user_uuid random (HandsOff false) HandsOffInCycle := by
  refine VisionRelay.SameDownlink.invariant begin_cycle (fun h hnext => h.poll_downlink_write hnext)
    (fun h _ _ hreads => (h.proxy_reads hreads).1) ?_ And.left
  intro self next h hsame
  rw [hsame.same]
  exact ⟨{ h.1 with }, h.2⟩

end HandsOffInCycle

namespace HandsOff

variable {initial_payload response_bytes : List UInt8} {relay : VisionRelay}

theorem start (h : new_with_response_prefix parser user_uuid random initial_payload
    response_bytes = .ok relay) : HandsOff false relay := by
  obtain ⟨uplink, _, h⟩ := bind_ok h
  obtain ⟨driver, hqueue, h⟩ := bind_ok h
  obtain ⟨queued, _, rfl⟩ := VisionDuplexDriver.queue_uplink_ok _ _ _ hqueue
  have hstart : HandsOff false
      { driver :=
          { stats := { client_to_proxy := initial_payload.length }
            unpadder := VisionUnpadder.new user_uuid
            uplink := queued }
        io := { from_client := initial_payload } } :=
    ⟨fun _ => rfl, nofun, nofun, fun _ => rfl⟩
  split_ifs at h with hempty
  · cases h
    exact hstart
  · obtain ⟨⟨request_handoff, consumed⟩, hconsume, rfl⟩ := bind_pure_ok h
    obtain ⟨hconsumed, houter, _⟩ := hstart.consume_overlay nofun hconsume
    -- the request is left to the first cycle
    refine { hconsumed with requested := ?_ }
    intro hsilent hseen
    obtain ⟨hstate, hrequest | hrequested | hpending⟩ := hconsumed.requested hsilent hseen
    · exact ⟨hstate, .inr (.inr hrequest)⟩
    · exact ⟨hstate, .inr (.inl hrequested)⟩
    · rw [houter] at hpending
      cases hpending

theorem run {cycles : List CycleIo}
    (h : run parser user_uuid random initial_payload response_bytes cycles = .ok relay) :
    HandsOff false relay := by
  exact (HandsOffInCycle.invariant parser user_uuid random).run start h

end HandsOff

/-- The overlay is not read after a direct block before the handoff is requested, exactly if no direct
block was completed by bytes that gave no payload. -/
theorem handoff_precedes_overlay_read_iff (parser : TlsParser) (user_uuid : Vector UInt8 16)
    (random : Nat → Nat) (initial_payload response_bytes : List UInt8) (cycles : List CycleIo)
    (relay : VisionRelay)
    (h : VisionRelay.run parser user_uuid random initial_payload response_bytes cycles = .ok relay) :
    relay.io.silent_direct = false ↔
      ∀ polls next, relay.begin_cycle.poll_proxy_read parser user_uuid random polls = .ok next →
        next.io.late_overlay_read = false := by
  have hands := HandsOffInCycle.begin_cycle (HandsOff.run h)
  have hsilent : relay.begin_cycle.io.silent_direct = relay.io.silent_direct := by
    unfold VisionRelay.begin_cycle
    dsimp only
    split_ifs
    · rfl
    · rfl
  constructor
  · intro hquiet polls next hnext
    exact (hands.proxy_reads (poll_proxy_read_reads polls hnext)).2 (hsilent.trans hquiet)
  · intro hnever
    rw [← Bool.not_eq_true]
    intro hloud
    rw [← hsilent] at hloud
    -- the next poll is late, if none was before
    by_cases hpass : relay.begin_cycle.driver.downlink_state = .DirectPass
    · have hlate := hnever [] _ (congrArg Except.ok (if_pos hpass))
      obtain hlate' | ⟨_, hoverlay⟩ := hands.1.late hloud
      · rw [hlate] at hlate'
        cases hlate'
      · rw [hpass] at hoverlay
        cases hoverlay
    · have hlate := hnever [] _ (congrArg Except.ok (if_neg hpass))
      rw [hands.poll_overlay.2 hloud] at hlate
      cases hlate

/-- A response that consists of one direct block with the content `hi`, then the rest of it. -/
def direct_response : List UInt8 := [0, 0] ++ List.replicate 16 7 ++ [2, 0, 2, 0, 1, 104, 105]

theorem handoff_precedes_overlay_read_iff_direct : ∃ relay,
    VisionRelay.run no_tls (Vector.replicate 16 7) (fun _ => 0) [] []
      [{ proxy_reads := [⟨.Ready ⟨direct_response ++ [0, 33], by decide⟩, false⟩] }] = .ok relay ∧
    relay.driver.unpadder.direct_command_seen = true ∧ relay.io.silent_direct = false ∧
    (relay.io.silent_direct = false ↔
      ∀ polls next, relay.begin_cycle.poll_proxy_read no_tls (Vector.replicate 16 7) (fun _ => 0) polls
        = .ok next → next.io.late_overlay_read = false) := by
  have hfacts : (run no_tls (Vector.replicate 16 7) (fun _ => 0) [] []
      [{ proxy_reads := [⟨.Ready ⟨direct_response ++ [0, 33], by decide⟩, false⟩] }]).toOption.map
        (fun relay => (relay.driver.unpadder.direct_command_seen, relay.io.silent_direct))
      = some (true, false) := by
    decide +kernel
  obtain ⟨relay, hrun, hfacts⟩ := exists_of_map_toOption hfacts
  obtain ⟨hseen, hquiet⟩ := Prod.mk.inj hfacts
  exact ⟨relay, hrun, hseen, hquiet, handoff_precedes_overlay_read_iff _ _ _ _ _ _ relay hrun⟩

/-- The last byte of the padding comes alone: the overlay is read again and no handoff was requested. -/
theorem silent_direct_block_reads_overlay :
    (VisionRelay.run no_tls (Vector.replicate 16 7) (fun _ => 0) [] []
      [{ proxy_reads := [⟨.Ready ⟨direct_response, by decide⟩, false⟩], downlink_write := .Ready 2 },
       { proxy_reads := [⟨.Ready ⟨[0], by decide⟩, false⟩], downlink_write := .Ready 2 },
       { proxy_reads := [⟨.Pending, false⟩] }]).toOption.map (fun relay =>
        (relay.driver.unpadder.direct_command_seen, relay.driver.downlink_state,
          relay.io.read_handoff_requested, relay.io.late_overlay_read))
      = some (true, .Overlay, false, true) := by
  decide +kernel

end DaeNext.Vision
