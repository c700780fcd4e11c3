/-
The proxy's bytes through a run of the driver, and what a close on either side loses.

The response header is stripped and the rest unpadded in whatever reads it comes. What went to the
client and what still waits for it is what the unpadder gave for the bytes of the overlay, then the
raw bytes. A stream that does not begin with the user id is given back as it is, but only once the
unpadder has seen 21 bytes of it.
-/
import DaeNext.VisionDuplexUplink

set_option autoImplicit false

namespace DaeNext.Vision

open Fallible VisionDuplexDriver VisionRelay VisionUnpadder
open List (append_nil length_append length_take nil_append)

/-! ## The response header -/

/-- What follows the response header: a version, a length and as many bytes. -/
def response_payload : List UInt8 → List UInt8
  | _ :: len :: rest => rest.drop len.toNat
  | _ => []

/-- The stripper after the bytes `total`. -/
inductive Stripped (total : List UInt8) : VlessResponseStripper → Prop
  | no_length (h : total.length < 2) : Stripped total ⟨total, none, false⟩
  | no_end {version len : UInt8} {rest : List UInt8} (heq : total = version :: len :: rest)
      (h : total.length < 2 + len.toNat) : Stripped total ⟨total, some (2 + len.toNat), false⟩
  | done {version len : UInt8} {rest : List UInt8} {stripper : VlessResponseStripper}
      (heq : total = version :: len :: rest) (h : 2 + len.toNat ≤ total.length)
      (hdone : stripper.done = true) : Stripped total stripper

namespace VlessResponseStripper

theorem response_payload_eq {total rest : List UInt8} {version len : UInt8}
    (h : total = version :: len :: rest) : response_payload total = total.drop (2 + len.toNat) := by
  subst h
  rw [Nat.add_comm]
  rfl

theorem response_payload_short {total : List UInt8} (h : total.length < 2) : response_payload total = [] := by
  match total, h with
  | [], _ => rfl
  | [_], _ => rfl

theorem fill_stripped {header : List UInt8} {header_len : Option Nat} {next : VlessResponseStripper}
    {version len : UInt8} {rest input out : List UInt8} (hheader : header = version :: len :: rest)
    (hle : header.length ≤ 2 + len.toNat)
    (h : fill ⟨header, header_len, false⟩ (2 + len.toNat) input = (.ok out, next)) :
    Stripped (header ++ input) next ∧ response_payload (header ++ input) = out := by
  have heq : header ++ input = version :: len :: (rest ++ input) := by
    rw [hheader]
    rfl
  rw [response_payload_eq heq]
  rw [fill] at h
  dsimp only at h
  split_ifs at h with hshort hversion
  · obtain ⟨hout, rfl⟩ := Prod.mk.inj h
    cases hout
    rw [length_append, length_take] at hshort
    -- all of the input went into the header
    have htake : min (2 + len.toNat - header.length) input.length = input.length := by omega
    have hlt : (header ++ input).length < 2 + len.toNat := by
      rw [length_append]
      omega
    rw [htake, List.take_length]
    exact ⟨.no_end heq hlt, List.drop_eq_nil_of_le (Nat.le_of_lt hlt)⟩
  · cases (Prod.mk.inj h).1
  · obtain ⟨hout, rfl⟩ := Prod.mk.inj h
    cases hout
    rw [length_append, length_take] at hshort
    have htake : min (2 + len.toNat - header.length) input.length = 2 + len.toNat - header.length := by
      omega
    refine ⟨.done heq ?_ rfl, ?_⟩
    · rw [length_append]
      omega
    · rw [htake, List.drop_append, List.drop_eq_nil_of_le hle, nil_append]

/-- The header's first two bytes do not come together in the first read. -/
theorem consume_piecewise {header input : List UInt8} (h : header = [] → input.length < 2) :
    consume ⟨header, none, false⟩ input =
      let take := min (2 - header.length) input.length
      match header ++ input.take take with
      | version :: len :: _ =>
        if version ≠ VLESS_RESPONSE_VERSION then
          (.error (version_error version), ⟨header ++ input.take take, none, false⟩)
        else fill ⟨header ++ input.take take, none, false⟩ (2 + len.toNat) (input.drop take)
      | _ => (.ok [], ⟨header ++ input.take take, none, false⟩) := by
  match header, input, h with
  | [], [], _ => rfl
  | [], [_], _ => rfl
  | [], _ :: _ :: _, h => exact absurd (h rfl) (Nat.not_lt.mpr (Nat.le_add_left _ _))
  | _ :: _, _, _ => rfl

theorem consume_stripped {self next : VlessResponseStripper} {total input out : List UInt8}
    (hstripped : Stripped total self) (h : self.consume input = (.ok out, next)) :
    Stripped (total ++ input) next ∧
      response_payload (total ++ input) = response_payload total ++ out := by
  cases hstripped with
  | no_length hshort =>
    rw [response_payload_short hshort, nil_append]
    by_cases hfirst : total = [] → input.length < 2
    · rw [consume_piecewise hfirst] at h
      dsimp only at h
      have hcut : total ++ input = total ++ input.take (min (2 - total.length) input.length)
          ++ input.drop (min (2 - total.length) input.length) := by
        rw [List.append_assoc, List.take_append_drop]
      split at h
      · rename_i version len rest hheader
        split_ifs at h with hversion
        · cases (Prod.mk.inj h).1
        · rw [hcut]
          refine fill_stripped hheader ?_ h
          rw [length_append, length_take]
          omega
      · rename_i hheader
        obtain ⟨hout, rfl⟩ := Prod.mk.inj h
        cases hout
        have hlt : (total ++ input.take (min (2 - total.length) input.length)).length < 2 := by
          rcases hcases : total ++ input.take (min (2 - total.length) input.length) with
            _ | ⟨version, _ | ⟨len, rest⟩⟩
          · exact Nat.zero_lt_succ _
          · exact Nat.lt_succ_self _
          · exact absurd hcases (hheader version len rest)
        have htake : min (2 - total.length) input.length = input.length := by
          rw [length_append, length_take] at hlt
          omega
        rw [htake, List.take_length] at hlt ⊢
        exact ⟨.no_length hlt, response_payload_short hlt⟩
    · -- the first read has the length
      obtain ⟨rfl, hlen⟩ := Classical.not_imp.mp hfirst
      match input, hlen with
      | [], hlen => exact absurd (Nat.zero_lt_succ _) hlen
      | [_], hlen => exact absurd (Nat.lt_succ_self _) hlen
      | version :: len :: rest, _ =>
        unfold consume at h
        rw [if_neg Bool.false_ne_true] at h
        dsimp only at h
        split_ifs at h with hversion hle
        · cases (Prod.mk.inj h).1
        · obtain ⟨hout, rfl⟩ := Prod.mk.inj h
          cases hout
          exact ⟨.done rfl hle rfl, response_payload_eq rfl⟩
        · obtain ⟨hout, rfl⟩ := Prod.mk.inj h
          cases hout
          have hlt := Nat.not_le.mp hle
          refine ⟨.no_end rfl hlt, ?_⟩
          rw [nil_append, response_payload_eq rfl, List.drop_eq_nil_of_le (Nat.le_of_lt hlt)]
  | @no_end version len rest heq hshort =>
    obtain ⟨hnext, hout⟩ := fill_stripped heq (Nat.le_of_lt hshort) h
    rw [response_payload_eq heq, List.drop_eq_nil_of_le (Nat.le_of_lt hshort), nil_append]
    exact ⟨hnext, hout⟩
  | @done version len rest stripper heq hle hdone =>
    unfold consume at h
    rw [if_pos hdone] at h
    obtain ⟨hout, rfl⟩ := Prod.mk.inj h
    cases hout
    have heq' : total ++ input = version :: len :: (rest ++ input) := by
      rw [heq]
      rfl
    refine ⟨.done heq' ?_ hdone, ?_⟩
    · rw [length_append]
      omega
    · rw [response_payload_eq heq, response_payload_eq heq', List.drop_append_of_le_length hle]

end VlessResponseStripper

/-! ## The invariant -/

/-- What still waits for the client. -/
def VisionDuplexDriver.unwritten (driver : VisionDuplexDriver) : List UInt8 :=
  driver.pending_downlink_bytes.drop driver.downlink_write_offset

variable {driver : VisionDuplexDriver}

theorem direct_downlink_of_empty (h : driver.pending_downlink_bytes = []) :
    driver.direct_downlink = [] := by
  rw [pending_downlink_bytes] at h
  split_ifs at h with hdirect
  · exact h
  · exact not_not.mp hdirect

theorem pending_downlink_bytes_overlay (h : driver.direct_downlink = []) :
    driver.pending_downlink_bytes = driver.pending_downlink := by
  rw [pending_downlink_bytes, if_neg (not_not.mpr h)]

theorem pending_downlink_bytes_direct (h : driver.direct_downlink ≠ []) :
    driver.pending_downlink_bytes = driver.direct_downlink := by
  rw [pending_downlink_bytes, if_pos h]

/-- `out` is what the unpadder gave so far. -/
structure Downloads (user_uuid : Vector UInt8 16) (out : List UInt8) (relay : VisionRelay) : Prop where
  stripped : Stripped relay.io.from_proxy relay.driver.response_stripper
  unpadded : (VisionUnpadder.new user_uuid).consume (response_payload relay.io.from_proxy)
    = (.ok out, relay.driver.unpadder)
  delivered : relay.io.failed = false →
    relay.io.to_client ++ relay.driver.unwritten = out ++ relay.io.from_proxy_raw
  closed : relay.driver.proxy_closed = true → relay.io.failed = false →
    relay.driver.pending_downlink_bytes = []
  direct : relay.driver.downlink_state ≠ .Overlay → relay.driver.unpadder.direct_command_seen = true
  raw : relay.io.from_proxy_raw ≠ [] → relay.driver.downlink_state = .DirectPass

variable {relay : VisionRelay}

namespace Downloads

variable {parser : TlsParser} {user_uuid : Vector UInt8 16} {random : Nat → Nat} {out : List UInt8}
  {self : VisionRelay}

section

variable (h : Downloads user_uuid out self)

include h

variable {next : VisionRelay}

theorem poll_downlink_write {answer : PollIo Nat}
    (hnext : self.poll_downlink_write answer = .ok next) : Downloads user_uuid out next := by
  revert hnext
  fun_cases self.poll_downlink_write answer with
  | case1 | case2 => rintro ⟨⟩; exact h
  | case3 | case7 => intro hnext; cases hnext
  | case4 pending offset hnone count written hzero io hall =>
    -- all of it is written
    rintro ⟨⟩
    refine { h with delivered := ?_, closed := fun _ _ => rfl }
    intro hfailed
    have hunwritten := h.delivered hfailed
    rw [← hunwritten]
    have htake : (pending.drop offset).take written = pending.drop offset := by
      apply List.take_of_length_le
      rw [List.length_drop]
      omega
    change self.io.to_client ++ (pending.drop offset).take written ++ _ = _
    rw [htake]
    exact append_nil _
  | case5 pending offset hnone count written hzero io hall =>
    rintro ⟨⟩
    refine { h with delivered := ?_, closed := h.closed }
    intro hfailed
    have hunwritten := h.delivered hfailed
    rw [← hunwritten, unwritten]
    change self.io.to_client ++ (pending.drop offset).take written ++ pending.drop (offset + written) = _
    rw [List.append_assoc]
    congr 1
    rw [← List.drop_drop]
    exact List.take_append_drop _ _
  | case6 =>
    rintro ⟨⟩
    exact { h with
      delivered := fun hok => (by cases hok), closed := fun _ hok => (by cases hok) }

section

variable (hempty : self.driver.pending_downlink_bytes = [])
  (hopen : self.driver.proxy_closed = false)

include hempty hopen

/-- With nothing waiting, the next bytes of the overlay are unpadded and wait. -/
theorem consume_overlay (hstate : self.driver.downlink_state ≠ .DirectPass)
    {bytes : List UInt8} {request_handoff : Bool}
    (hnext : self.consume_overlay parser user_uuid random bytes = .ok (request_handoff, next)) :
    ∃ out, Downloads user_uuid out
      { next with driver := { next.driver with downlink_write_offset := 0 } } := by
  obtain ⟨stripped, response_stripper, payload, unpadder, hstrip, hunpad, hcases⟩ :=
    consume_overlay_ok _ _ _ hnext
  have hmono := consume_direct_command_seen hunpad
  obtain ⟨hstripped, hpayload⟩ := VlessResponseStripper.consume_stripped h.stripped hstrip
  have hraw : self.io.from_proxy_raw = [] := by
    by_contra hne
    exact hstate (h.raw hne)
  have hdirect := direct_downlink_of_empty hempty
  -- the unpadder does not see the cut
  have hunpadded : (new user_uuid).consume (response_payload (self.io.from_proxy ++ bytes))
      = (.ok (out ++ payload), unpadder) := by
    rw [hpayload, seamless.ok stripped h.unpadded, hunpad]
    rfl
  have hclient : self.io.failed = false → self.io.to_client = out := by
    intro hfailed
    have hdelivered := h.delivered hfailed
    rw [unwritten, hempty, List.drop_nil, append_nil, hraw, append_nil]
      at hdelivered
    exact hdelivered
  have hclosed : self.driver.proxy_closed ≠ true := by
    rw [hopen]
    exact Bool.false_ne_true
  -- what waits now is the payload
  have hwaits : ∀ {driver : VisionDuplexDriver} {io : VisionIo}, driver.direct_downlink = [] →
      driver.pending_downlink = payload → driver.downlink_write_offset = 0 →
      io.to_client = self.io.to_client → io.from_proxy_raw = self.io.from_proxy_raw →
      self.io.failed = false → io.to_client ++ driver.unwritten = out ++ payload ++ io.from_proxy_raw := by
    intro driver io hnone hpending hoffset hto_client hfrom_raw hfailed
    rw [unwritten, pending_downlink_bytes_overlay hnone, hpending,
      hoffset, hto_client, hfrom_raw, hclient hfailed, hraw, append_nil]
    rfl
  obtain ⟨rfl, rfl, rfl⟩ | ⟨_, hrequest, tls_state, uplink, _, rfl⟩ := hcases
  · refine ⟨out ++ [], hstripped, hunpadded, hwaits hdirect rfl rfl rfl rfl,
      fun hproxy => absurd hproxy hclosed, fun hoverlay => hmono (h.direct hoverlay), ?_⟩
    exact fun hne => absurd hraw hne
  · refine ⟨out ++ payload, hstripped, hunpadded, hwaits hdirect rfl rfl rfl rfl,
      fun hproxy => absurd hproxy hclosed, ?_, ?_⟩
    · intro hoverlay
      cases request_handoff with
      | true => exact (Bool.and_eq_true_iff.mp hrequest.symm).1
      | false => exact hmono (h.direct hoverlay)
    · exact fun hne => absurd hraw hne

theorem proxy_reads (hreads : VisionRelay.ProxyReads parser user_uuid random self next) :
    ∃ out, Downloads user_uuid out next := by
  induction hreads with
  | overlay_pending self hstate => exact ⟨out, { h with }⟩
  | overlay_close self hstate | direct_close self hstate => exact ⟨out, { h with closed := fun _ _ => hempty }⟩
  | overlay_failed self hstate | direct_failed self hstate => exact ⟨out, { h with
        delivered := nofun, closed := nofun }⟩
  | @overlay_bytes self next bytes hstate hne hnext =>
    have hpoll : Downloads user_uuid out self.poll_overlay := { h with }
    obtain ⟨⟨request_handoff, consumed⟩, hconsume, rfl⟩ := bind_pure_ok hnext
    obtain ⟨out, hout⟩ := hpoll.consume_overlay hempty hopen hstate hconsume
    split_ifs with hrequest
    · exact ⟨out, { hout with }⟩
    · exact ⟨out, { hout with }⟩
  | handoff hstate hnext ih =>
    refine ih ?_ hempty hopen
    refine { h with direct := fun _ => ?_, raw := fun _ => rfl }
    refine h.direct ?_
    rw [hstate]
    exact nofun
  | no_handoff hstate hnext ih => exact ih { h with } hempty hopen
  | direct_pending self hstate => exact ⟨out, h⟩
  | direct_bytes self bytes hstate hne =>
    refine ⟨out, { h with delivered := ?_, closed := ?_, raw := fun _ => hstate }⟩
    · intro hfailed
      have hdelivered := h.delivered hfailed
      rw [unwritten, hempty, List.drop_nil, append_nil] at hdelivered
      rw [unwritten, pending_downlink_bytes_direct hne]
      dsimp only [proxy_read_direct]
      rw [hdelivered, List.append_assoc]
      rfl
    · intro hproxy
      have hproxy' : self.driver.proxy_closed = true := hproxy
      rw [hopen] at hproxy'
      cases hproxy'

end

end

variable (parser user_uuid random)

theorem invariant : VisionRelay.Invariant parser user_uuid random
    (fun relay => ∃ out, Downloads user_uuid out relay)
    (fun relay => ∃ out, Downloads user_uuid out relay) := by
  refine VisionRelay.SameDownlink.invariant ?_ (fun ⟨out, h⟩ hnext => ⟨out, h.poll_downlink_write hnext⟩)
    (fun ⟨_, h⟩ hopen hempty hreads => h.proxy_reads hempty hopen hreads) ?_ id
  · rintro self ⟨out, h⟩
    unfold begin_cycle
    dsimp only
    split_ifs with hpending
    · exact ⟨out, { h with }⟩
    · exact ⟨out, { h with }⟩
  · rintro self next ⟨out, h⟩ ⟨hsame, hfailed⟩
    rw [hsame]
    exact ⟨out, { h with
      delivered := fun hok => h.delivered (hfailed hok)
      closed := fun hclosed hok => h.closed hclosed (hfailed hok) }⟩

variable {parser user_uuid random}

variable {initial_payload response_bytes : List UInt8}

theorem start
    (h : new_with_response_prefix parser user_uuid random initial_payload response_bytes =
      .ok relay) : ∃ out, Downloads user_uuid out relay := by
  obtain ⟨uplink, _, h⟩ := bind_ok h
  obtain ⟨driver, hqueue, h⟩ := bind_ok h
  obtain ⟨queued, _, rfl⟩ := queue_uplink_ok _ _ _ hqueue
  have hstart : Downloads user_uuid []
      { driver :=
          { stats := { client_to_proxy := initial_payload.length }
            unpadder := new user_uuid
            uplink := queued }
        io := { from_client := initial_payload } } := by
    refine ⟨.no_length (Nat.zero_lt_succ _), consume_new_nil _, fun _ => rfl,
      nofun,      fun hoverlay => absurd rfl hoverlay, fun hne => absurd rfl hne⟩
  split_ifs at h with hempty
  · cases h
    exact ⟨[], hstart⟩
  · obtain ⟨⟨request_handoff, consumed⟩, hconsume, rfl⟩ := bind_pure_ok h
    obtain ⟨out, hout⟩ := hstart.consume_overlay rfl rfl nofun hconsume
    have hoffset : consumed.driver.downlink_write_offset = 0 := by
      obtain ⟨_, _, _, _, _, _, ⟨_, _, rfl⟩ | ⟨_, _, _, _, _, rfl⟩⟩ :=
        consume_overlay_ok _ _ _ hconsume
      · rfl
      · rfl
    have hsame : consumed.driver.unwritten = consumed.driver.pending_downlink_bytes.drop 0 := by
      rw [unwritten, hoffset]
    refine ⟨out, { hout with delivered := fun hfailed => ?_ }⟩
    exact (congrArg (consumed.io.to_client ++ ·) hsame).trans (hout.delivered hfailed)

theorem run {cycles : List CycleIo}
    (h : run parser user_uuid random initial_payload response_bytes cycles = .ok relay) :
    ∃ out, Downloads user_uuid out relay := by
  exact (invariant parser user_uuid random).run start h

end Downloads

/-! ## Half-close -/

/-- The unpadder gives a stream of another kind back once it has seen 21 bytes. -/
theorem consume_other {user_uuid : Vector UInt8 16} {stream out : List UInt8}
    {unpadder : VisionUnpadder} (hother : ¬ user_uuid.toList <+: stream)
    (h : (new user_uuid).consume stream = (.ok out, unpadder)) :
    unpadder.direct_command_seen = false ∧ out = if stream.length < 21 then [] else stream := by
  have hinitial : (new user_uuid).state ≠ .Raw := nofun
  rw [consume, if_neg hinitial] at h
  dsimp only [new] at h
  rw [nil_append] at h
  split_ifs with hshort
  · rw [(Unpads.initial_short hshort).unpad_eq] at h
    obtain ⟨hout, rfl⟩ := Prod.mk.inj h
    exact ⟨rfl, (Except.ok.inj hout).symm⟩
  · have htake : stream.take 16 ≠ user_uuid.toList := by
      intro htake
      rw [← htake] at hother
      exact hother (List.take_prefix 16 stream)
    rw [(Unpads.initial_other (Nat.not_lt.mp hshort) htake).unpad_eq] at h
    obtain ⟨hout, rfl⟩ := Prod.mk.inj h
    exact ⟨rfl, (Except.ok.inj hout).symm⟩

/-- What was written to the proxy, unpadded, is what the client sent. -/
def Uploaded (user_uuid : Vector UInt8 16) (relay : VisionRelay) : Prop :=
  ∃ out, ((VisionUnpadder.new user_uuid).consume relay.io.to_proxy).1 = .ok out ∧
    out ++ relay.io.to_proxy_raw = relay.io.from_client

theorem Uploads.uploaded_iff {user_uuid : Vector UInt8 16} {initial_payload rest : List UInt8}
    {sent : List VisionUplinkWrite} (h : Uploads user_uuid initial_payload sent rest relay)
    (hshut : relay.driver.proxy_write_shutdown = true) :
    Uploaded user_uuid relay ↔ initial_payload.length ≤ 65535 ∧ relay.io.discarded = [] := by
  obtain ⟨out, hout, hall⟩ := h.carried hshut
  rw [Uploaded, h.from_client]
  constructor
  · rintro ⟨out', hout', hall'⟩
    rw [hout] at hout'
    obtain rfl := Except.ok.inj hout'
    rw [hall'] at hall
    have hlen := congrArg List.length hall
    simp only [length_append, length_take] at hlen
    exact ⟨by omega, List.eq_nil_of_length_eq_zero (by omega)⟩
  · rintro ⟨hfits, hdiscarded⟩
    rw [hdiscarded, append_nil, List.take_of_length_le hfits] at hall
    exact ⟨out, hout, hall⟩

/-- A close loses nothing exactly if nothing waits in the filter or in the unpadder, and the first
payload fits into a block. -/
theorem half_close_lossless_iff (parser : TlsParser) (user_uuid : Vector UInt8 16) (random : Nat → Nat)
    (initial_payload response_bytes : List UInt8) (cycles : List CycleIo) (relay : VisionRelay)
    (h : VisionRelay.run parser user_uuid random initial_payload response_bytes cycles = .ok relay) :
    (relay.driver.proxy_write_shutdown = true →
      (Uploaded user_uuid relay ↔ initial_payload.length ≤ 65535 ∧ relay.io.discarded = [])) ∧
    (relay.driver.proxy_closed = true → relay.io.failed = false →
      ¬ user_uuid.toList <+: response_payload relay.io.from_proxy →
      (relay.io.to_client = response_payload relay.io.from_proxy ↔
        response_payload relay.io.from_proxy = [] ∨ 21 ≤ (response_payload relay.io.from_proxy).length)) := by
  obtain ⟨sent, rest, huploads⟩ := Uploads.run h
  obtain ⟨out, hdownloads⟩ := Downloads.run h
  refine ⟨huploads.uploaded_iff, ?_⟩
  intro hclosed hfailed hother
  obtain ⟨hunseen, hout⟩ := consume_other hother hdownloads.unpadded
  -- without a direct block there are no raw bytes
  have hraw : relay.io.from_proxy_raw = [] := by
    by_contra hne
    have hstate : relay.driver.downlink_state ≠ .Overlay := by
      rw [hdownloads.raw hne]
      exact nofun
    rw [hdownloads.direct hstate] at hunseen
    cases hunseen
  have hclient := hdownloads.delivered hfailed
  rw [unwritten, hdownloads.closed hclosed hfailed, List.drop_nil, append_nil, hraw,
    append_nil] at hclient
  rw [hclient, hout]
  split_ifs with hshort
  · constructor
    · exact fun hempty => .inl hempty.symm
    · rintro (hempty | hlong)
      · exact hempty.symm
      · exact absurd hshort (Nat.not_lt.mpr hlong)
  · exact ⟨fun _ => .inr (Nat.not_lt.mp hshort), fun _ => rfl⟩

/-- The client sends `hi` and closes; the proxy sends 21 bytes behind its header and closes. -/
def lossless_cycles : List CycleIo :=
  [{ uplink_write := .Ready 2048
     proxy_reads := [⟨.Ready ⟨[0, 0] ++ List.replicate 21 9, by decide⟩, false⟩] },
   { downlink_write := .Ready 21
     uplink_flush := .Ready ()
     inbound_read := .Ready ⟨[], by decide⟩
     proxy_shutdown := .Ready () },
   { proxy_reads := [⟨.Ready ⟨[], by decide⟩, false⟩] }]

theorem half_close_lossless_iff_hello : ∃ relay,
    VisionRelay.run no_tls (Vector.replicate 16 7) (fun _ => 0) [104, 105] [] lossless_cycles = .ok relay ∧
    (relay.driver.proxy_write_shutdown = true ∧ relay.driver.proxy_closed = true ∧
      relay.io.failed = false ∧ ¬ List.replicate 16 7 <+: response_payload relay.io.from_proxy) ∧
    ((relay.driver.proxy_write_shutdown = true → (Uploaded (Vector.replicate 16 7) relay ↔
        [(104 : UInt8), 105].length ≤ 65535 ∧ relay.io.discarded = [])) ∧
    (relay.driver.proxy_closed = true → relay.io.failed = false →
      ¬ (Vector.replicate 16 (7 : UInt8)).toList <+: response_payload relay.io.from_proxy →
      (relay.io.to_client = response_payload relay.io.from_proxy ↔
        response_payload relay.io.from_proxy = [] ∨
          21 ≤ (response_payload relay.io.from_proxy).length))) := by
  have hfacts : (run no_tls (Vector.replicate 16 7) (fun _ => 0) [104, 105] []
      lossless_cycles).toOption.map (fun relay =>
        (relay.driver.proxy_write_shutdown, relay.driver.proxy_closed, relay.io.failed,
          decide (List.replicate 16 7 <+: response_payload relay.io.from_proxy)))
      = some (true, true, false, false) := by
    decide +kernel
  obtain ⟨relay, hrun, hfacts⟩ := exists_of_map_toOption hfacts
  obtain ⟨hshut, hclosed, hfailed, hother⟩ : _ ∧ _ ∧ _ ∧ _ := by
    simpa only [Prod.mk.injEq] using hfacts
  exact ⟨relay, hrun, ⟨hshut, hclosed, hfailed, of_decide_eq_false hother⟩,
    half_close_lossless_iff _ _ _ _ _ _ relay hrun⟩

/-- A parser for which every record header is incomplete, as it is of fewer than five bytes. -/
def short_tls : TlsParser := { no_tls with parse_tls_record_header := fun _ => .error .Incomplete }

/-- The client closes inside a record header; the proxy closes after two bytes that are not padded. -/
theorem half_close_loses_bytes :
    (∃ relay, VisionRelay.run short_tls (Vector.replicate 16 7) (fun _ => 0) [22] []
      [{ uplink_write := .Ready 2048 },
       { uplink_flush := .Ready (), inbound_read := .Ready ⟨[23, 3, 3], by decide⟩ },
       { inbound_read := .Ready ⟨[], by decide⟩, proxy_shutdown := .Ready () }] = .ok relay ∧
      relay.driver.proxy_write_shutdown = true ∧ ¬ Uploaded (Vector.replicate 16 7) relay) ∧
    (VisionRelay.run no_tls (Vector.replicate 16 7) (fun _ => 0) [104] []
      [{ proxy_reads := [⟨.Ready ⟨[0, 0, 104, 105], by decide⟩, false⟩] },
       { proxy_reads := [⟨.Ready ⟨[], by decide⟩, false⟩] }]).toOption.map (fun relay =>
        (relay.driver.proxy_closed, relay.io.failed, response_payload relay.io.from_proxy, relay.io.to_client))
      = some (true, false, [104, 105], []) := by
  refine ⟨?_, by decide +kernel⟩
  have hfacts : (run short_tls (Vector.replicate 16 7) (fun _ => 0) [22] []
      [{ uplink_write := .Ready 2048 },
       { uplink_flush := .Ready (), inbound_read := .Ready ⟨[23, 3, 3], by decide⟩ },
       { inbound_read := .Ready ⟨[], by decide⟩, proxy_shutdown := .Ready () }]).toOption.map
        (fun relay => (relay.driver.proxy_write_shutdown, relay.io.discarded)) = some (true, [23, 3, 3]) := by
    decide +kernel
  obtain ⟨relay, hrun, hfacts⟩ := exists_of_map_toOption hfacts
  obtain ⟨hshut, hdiscarded⟩ := Prod.mk.inj hfacts
  obtain ⟨sent, rest, huploads⟩ := Uploads.run hrun
  refine ⟨relay, hrun, hshut, ?_⟩
  rw [huploads.uploaded_iff hshut]
  intro hlossless
  rw [hdiscarded] at hlossless
  cases hlossless.2

end DaeNext.Vision
