/-
Runs of a Shadowsocks 2022 UDP session: packets in any order, again and again, under a clock that
does not go back.

Read twice, a packet says the same, and the second reading passes the timestamp test at most the
tolerance after the timestamp. It passes the replay table at the earliest when the retention is
over, counted from the first reading. So a packet can be accepted twice exactly when the second
bound comes before the first one does.
-/
import DaeNext.Ss2022Udp

set_option autoImplicit false

namespace DaeNext.Ss2022

open List Ss2022UdpCodec Ss2022UdpDecodedPacket Ss2022UdpReplayTable
open Fallible (bind_ok)

/-! ## Timestamps -/

theorem out_of_tolerance_eq_false_iff (timestamp now : UInt64) :
    timestamp_out_of_tolerance timestamp now = false ↔
      now.toNat ≤ timestamp.toNat + 30 ∧ timestamp.toNat ≤ now.toNat + 30 := by
  have htime := timestamp.toNat_lt
  have hnow := now.toNat_lt
  have htol : TIMESTAMP_TOLERANCE_SECS.toNat = 30 := rfl
  rw [timestamp_out_of_tolerance, Bool.or_eq_false_iff, decide_eq_false_iff_not,
    decide_eq_false_iff_not, UInt64.not_lt, UInt64.not_lt, UInt64.le_iff_toNat_le,
    UInt64.le_iff_toNat_le, Saturating.toNat_add, Saturating.toNat_add, htol]
  omega

/-- A reading against the clock gives one result, with a timestamp, while the clock is within the
tolerance of it, and none otherwise. -/
def Timed {α : Type} (timestamp : α → UInt64) (read : UInt64 → Except OutboundError α) : Prop :=
  ∀ now x, read now = .ok x → ∀ now',
    (timestamp_out_of_tolerance (timestamp x) now' = false → read now' = .ok x) ∧
    (timestamp_out_of_tolerance (timestamp x) now' = true → ∀ y, read now' ≠ .ok y)

variable {now : UInt64}

namespace Timed

variable {α β : Type} {timestamp : α → UInt64} {read : UInt64 → Except OutboundError α}

theorem in_tolerance (h : Timed timestamp read) {x : α} (hx : read now = .ok x) :
    timestamp_out_of_tolerance (timestamp x) now = false := by
  rw [Bool.eq_false_iff]
  intro hout
  exact (h now x hx now).2 hout x hx

theorem unique (h : Timed timestamp read) {now' : UInt64} {x y : α} (hx : read now = .ok x)
    (hy : read now' = .ok y) : x = y := by
  cases hout : timestamp_out_of_tolerance (timestamp x) now' with
  | false => exact Except.ok.inj (((h now x hx now').1 hout).symm.trans hy)
  | true => exact absurd hy ((h now x hx now').2 hout y)

theorem of_error (h : ∀ now x, read now ≠ .ok x) : Timed timestamp read :=
  fun now x hx => absurd hx (h now x)

/-- What follows may not look at the clock, and keeps the timestamp. -/
theorem bind (h : Timed timestamp read) {next : α → Except OutboundError β}
    {timestamp' : β → UInt64} (hts : ∀ x y, next x = .ok y → timestamp' y = timestamp x) :
    Timed timestamp' (fun now => read now >>= next) := by
  intro now y hy now'
  obtain ⟨x, hx, hnext⟩ := bind_ok hy
  rw [hts x y hnext]
  obtain ⟨hin, hout⟩ := h now x hx now'
  refine ⟨?_, ?_⟩
  · intro htol
    change (read now' >>= next) = _
    rw [hin htol]
    exact hnext
  · intro htol z hz
    obtain ⟨w, hw, -⟩ := bind_ok hz
    exact hout htol w hw

end Timed

theorem timed_parse_type_timestamp (input : List UInt8) :
    Timed (fun x => x.2.1) (parse_type_timestamp input) := by
  intro now x hx now'
  rw [parse_type_timestamp] at hx ⊢
  split_ifs at hx ⊢ with hshort
  dsimp only at hx ⊢
  split_ifs at hx with htol
  cases hx
  refine ⟨?_, ?_⟩
  · intro hin
    rw [if_neg (by rw [hin]; decide)]
  · intro hout y hy
    rw [if_pos hout] at hy
    cases hy

variable {input : List UInt8}

theorem parse_message_tail_timestamp {packet_type : UInt8} {timestamp : UInt64}
    {client_session_id : Option UInt64} {offset : Nat} {m : ParsedMessage}
    (h : parse_message_tail input packet_type timestamp client_session_id offset = .ok m) :
    m.timestamp = timestamp := by
  obtain ⟨padding, -, h⟩ := bind_ok h
  obtain ⟨offset', -, h⟩ := bind_ok h
  obtain ⟨target, -, h⟩ := bind_ok h
  rw [← Except.ok.inj h]

theorem timed_parse_client_message (input : List UInt8) :
    Timed ParsedMessage.timestamp (parse_client_message input) := by
  apply (timed_parse_type_timestamp input).bind
  intro x m hm
  exact parse_message_tail_timestamp hm

theorem timed_parse_server_message (input : List UInt8) :
    Timed ParsedMessage.timestamp (parse_server_message input) := by
  apply (timed_parse_type_timestamp input).bind
  rintro ⟨packet_type, timestamp, offset⟩ m hm
  dsimp only at hm
  split_ifs at hm with hshort
  · cases hm
  · exact parse_message_tail_timestamp hm

theorem timed_parse_merged_message (message : List UInt8) :
    Timed ParsedMessage.timestamp (parse_merged_message message) := by
  cases message with
  | nil => exact Timed.of_error nofun
  | cons packet_type rest =>
    intro now x hx
    rw [parse_merged_message] at hx
    simp only [parse_merged_message]
    split_ifs at hx ⊢ with hclient hserver
    · exact timed_parse_client_message _ now x hx
    · exact timed_parse_server_message _ now x hx

/-! ## Reading a packet -/

/-- The cached cipher is the one that would be derived again. -/
def Consistent (crypto : Crypto) (conf : CipherConf2022) (upsk : List UInt8)
    (payload_cipher : Option (UInt64 × Ss2022SeparatePayloadCipher)) : Prop :=
  ∀ session_id cipher, payload_cipher = some (session_id, cipher) →
    separate_payload_cipher crypto conf upsk session_id = .ok cipher

variable {crypto : Crypto}

theorem open_separate_header_packet_eq {conf : CipherConf2022} {upsk : List UInt8}
    {payload_cipher : Option (UInt64 × Ss2022SeparatePayloadCipher)}
    (h : Consistent crypto conf upsk payload_cipher) (header sealed : List UInt8) :
    (open_separate_header_packet crypto conf upsk payload_cipher header sealed).1
        = (open_separate_header_packet crypto conf upsk none header sealed).1 ∧
      Consistent crypto conf upsk
        (open_separate_header_packet crypto conf upsk payload_cipher header sealed).2 := by
  rw [open_separate_header_packet, open_separate_header_packet]
  cases hcached : payload_cipher.filter (·.1 == u64_at header 0) with
  | some cached =>
    obtain ⟨session_id, cipher⟩ := cached
    obtain ⟨hpayload, hsession⟩ := Option.filter_eq_some_iff.mp hcached
    have hsame : session_id = u64_at header 0 := eq_of_beq hsession
    have hcipher := h session_id cipher hpayload
    rw [hsame] at hcipher
    rw [hcipher]
    dsimp only
    refine ⟨?_, h⟩
    cases cipher.decrypt crypto ((header.drop 4).take 12) sealed with
    | error err | ok payload => rfl
  | none =>
    cases hcipher : separate_payload_cipher crypto conf upsk (u64_at header 0) with
    | error err => exact ⟨rfl, h⟩
    | ok cipher =>
      dsimp only
      cases cipher.decrypt crypto ((header.drop 4).take 12) sealed with
      | error err => exact ⟨rfl, h⟩
      | ok payload =>
        refine ⟨rfl, ?_⟩
        intro session_id cipher' heq
        cases heq
        exact hcipher

/-- What a packet says to a codec without a cached cipher. -/
def reading (crypto : Crypto) (codec : Ss2022UdpCodec) (input : List UInt8) (now : UInt64) :
    Except OutboundError Ss2022UdpDecodedPacket :=
  (Ss2022UdpCodec.open_server_packet crypto { codec with server_payload_cipher := none } input now).1

variable {codec : Ss2022UdpCodec}

theorem open_server_packet_eq
    (h : Consistent crypto codec.conf codec.upsk codec.server_payload_cipher) (input : List UInt8)
    (now : UInt64) :
    (codec.open_server_packet crypto input now).1 = reading crypto codec input now ∧
      Consistent crypto codec.conf codec.upsk (codec.open_server_packet crypto input now).2 := by
  rw [reading, open_server_packet, open_server_packet]
  split_ifs with hmerged
  · exact ⟨rfl, h⟩
  · rw [decode_separate_header_server_packet, decode_separate_header_server_packet]
    split_ifs with hshort
    · exact ⟨rfl, h⟩
    · cases codec.server_header_cipher.decrypt_block crypto (input.take AES_BLOCK_LEN) with
      | error err => exact ⟨rfl, h⟩
      | ok header =>
        obtain ⟨hsame, hcons⟩ := open_separate_header_packet_eq h header (input.drop AES_BLOCK_LEN)
        refine ⟨?_, hcons⟩
        dsimp only
        rw [hsame]

theorem timed_merged (crypto : Crypto) (conf : CipherConf2022) (cipher : String)
    (upsk input : List UInt8) : Timed timestamp
      (decode_merged_header_packet crypto conf cipher upsk input) := by
  cases hopen : open_merged_header_packet crypto conf upsk input with
  | error err =>
    refine Timed.of_error fun now x hx => ?_
    obtain ⟨plain, hplain, -⟩ := bind_ok hx
    rw [hopen] at hplain
    cases hplain
  | ok plain =>
    have hread : decode_merged_header_packet crypto conf cipher upsk input = fun now =>
        parse_merged_message (plain.drop 16) now >>= fun parsed =>
          pure (decoded_packet cipher "merged-header-xchacha20-poly1305" (u64_at plain 0)
            (u64_at plain 8) parsed) := by
      funext now
      rw [decode_merged_header_packet, hopen]
      rfl
    rw [hread]
    apply (timed_parse_merged_message _).bind
    intro parsed decoded hdecoded
    rw [← Except.ok.inj hdecoded]
    rfl

theorem timed_separate (crypto : Crypto) (conf : CipherConf2022) (cipher : String)
    (upsk : List UInt8) (header_cipher : Ss2022AesBlockCipher) (input : List UInt8) :
    Timed timestamp (fun now =>
      (decode_separate_header_server_packet crypto conf cipher upsk header_cipher none input now).1) := by
  simp only [decode_separate_header_server_packet]
  by_cases hshort : input.length < AES_BLOCK_LEN
  · refine Timed.of_error fun now x hx => ?_
    rw [if_pos hshort] at hx
    cases hx
  · simp only [if_neg hshort]
    cases header_cipher.decrypt_block crypto (input.take AES_BLOCK_LEN) with
    | error err => exact Timed.of_error nofun
    | ok header =>
      dsimp only
      cases (open_separate_header_packet crypto conf upsk none header
          (input.drop AES_BLOCK_LEN)).1 with
      | error err => exact Timed.of_error nofun
      | ok payload =>
        apply (timed_parse_server_message payload).bind
        intro parsed decoded hdecoded
        rw [← Except.ok.inj hdecoded]
        rfl

theorem timed_reading (crypto : Crypto) (codec : Ss2022UdpCodec) (input : List UInt8) :
    Timed timestamp (reading crypto codec input) := by
  cases hmerged : codec.conf.packet_cipher with
  | true =>
    have hread : reading crypto codec input
        = decode_merged_header_packet crypto codec.conf codec.cipher codec.upsk input := by
      funext now
      rw [reading, open_server_packet]
      rw [hmerged, if_pos rfl]
    rw [hread]
    exact timed_merged crypto codec.conf codec.cipher codec.upsk input
  | false =>
    have hread : reading crypto codec input = fun now =>
        (decode_separate_header_server_packet crypto codec.conf codec.cipher codec.upsk
          codec.server_header_cipher none input now).1 := by
      funext now
      rw [reading, open_server_packet]
      rw [hmerged, if_neg Bool.false_ne_true]
    rw [hread]
    exact timed_separate crypto codec.conf codec.cipher codec.upsk codec.server_header_cipher input

/-! ## One packet -/

/-- A codec of the same session: what was fixed when it was made has not changed, and its state
is sound. -/
structure Session (crypto : Crypto) (start codec : Ss2022UdpCodec) : Prop where
  conf_eq : codec.conf = start.conf
  cipher_eq : codec.cipher = start.cipher
  upsk_eq : codec.upsk = start.upsk
  header_eq : codec.server_header_cipher = start.server_header_cipher
  session_eq : codec.session_id = start.session_id
  policy_eq : codec.server_replay.policy = start.server_replay.policy
  consistent : Consistent crypto codec.conf codec.upsk codec.server_payload_cipher
  table : codec.server_replay.WellFormed

variable {start : Ss2022UdpCodec}

section

theorem Session.reading_eq (h : Session crypto start codec) (input : List UInt8) (now : UInt64) :
    reading crypto codec input now = reading crypto start input now := by
  rw [reading, reading, open_server_packet, open_server_packet]
  rw [h.conf_eq, h.cipher_eq, h.upsk_eq, h.header_eq]

/-- What comes of one packet: the replay table is asked once, or not at all. -/
inductive Decoded (crypto : Crypto) (start codec : Ss2022UdpCodec) (input : List UInt8)
    (now : UInt64) : Except OutboundError Ss2022UdpDecodedPacket → Ss2022UdpReplayTable → Prop where
  | rejected (err : OutboundError) : Decoded crypto start codec input now (.error err) codec.server_replay
  | replayed (decoded : Ss2022UdpDecodedPacket) (err : OutboundError)
      (read : reading crypto start input now = .ok decoded)
      (checked : (codec.server_replay.check decoded.session_id decoded.packet_id now).1 = .error err) :
      Decoded crypto start codec input now (.error err)
        (codec.server_replay.check decoded.session_id decoded.packet_id now).2
  | accepted (decoded : Ss2022UdpDecodedPacket)
      (read : reading crypto start input now = .ok decoded)
      (valid : start.validate_server_packet decoded = .ok ())
      (checked : (codec.server_replay.check decoded.session_id decoded.packet_id now).1 = .ok ()) :
      Decoded crypto start codec input now (.ok decoded)
        (codec.server_replay.check decoded.session_id decoded.packet_id now).2

theorem Session.decode (h : Session crypto start codec) (input : List UInt8) (now : UInt64) :
    Decoded crypto start codec input now (codec.decode_server_packet crypto input now).1
        (codec.decode_server_packet crypto input now).2.server_replay ∧
      Session crypto start (codec.decode_server_packet crypto input now).2 := by
  obtain ⟨hread, hcons⟩ := open_server_packet_eq h.consistent input now
  rw [h.reading_eq] at hread
  rw [decode_server_packet]
  rcases hopen : codec.open_server_packet crypto input now with ⟨opened, payload_cipher⟩
  rw [hopen] at hread hcons
  have hsession : ∀ table : Ss2022UdpReplayTable, table.policy = start.server_replay.policy →
      table.WellFormed → Session crypto start
        { codec with server_payload_cipher := payload_cipher, server_replay := table } := by
    intro table hpolicy htable
    exact ⟨h.conf_eq, h.cipher_eq, h.upsk_eq, h.header_eq, h.session_eq, hpolicy, hcons, htable⟩
  have hsame := hsession codec.server_replay h.policy_eq h.table
  cases opened with
  | error err => exact ⟨.rejected err, hsame⟩
  | ok decoded =>
    dsimp only
    have hvalidate : validate_server_packet
        { codec with server_payload_cipher := payload_cipher } decoded
        = start.validate_server_packet decoded := by
      rw [validate_server_packet, validate_server_packet]
      rw [h.session_eq]
    rw [hvalidate]
    cases hvalid : start.validate_server_packet decoded with
    | error err => exact ⟨.rejected err, hsame⟩
    | ok u =>
      have htable := h.table.check decoded.session_id decoded.packet_id now
      have hpolicy : (codec.server_replay.check decoded.session_id decoded.packet_id now).2.policy
          = start.server_replay.policy := by
        rw [policy_check, h.policy_eq]
      refine ⟨?_, hsession _ hpolicy htable⟩
      cases hcheck : (codec.server_replay.check decoded.session_id decoded.packet_id now).1 with
      | error err => exact .replayed decoded err hread.symm hcheck
      | ok u => exact .accepted decoded hread.symm hvalid hcheck

end

/-! ## Runs -/

/-- The codec after packets, each with the time it is received at. -/
def Ss2022UdpCodec.run (crypto : Crypto) (self : Ss2022UdpCodec)
    (deliveries : List (List UInt8 × UInt64)) : Ss2022UdpCodec :=
  deliveries.foldl (fun codec delivery => (codec.decode_server_packet crypto delivery.1 delivery.2).2)
    self

variable {accepted_at : UInt64} {decoded : Ss2022UdpDecodedPacket}

section

variable (h : Session crypto start codec)

include h

theorem Session.run (deliveries : List (List UInt8 × UInt64)) :
    Session crypto start (codec.run crypto deliveries) := by
  induction deliveries generalizing codec with
  | nil => exact h
  | cons delivery deliveries ih => exact ih (h.decode delivery.1 delivery.2).2

/-- A packet that was accepted stays covered through the packets that follow. -/
theorem Session.covers_run {session_id packet_id before later : UInt64}
    (hcovers : codec.server_replay.Covers before session_id packet_id accepted_at)
    {deliveries : List (List UInt8 × UInt64)}
    (hclock : ((before :: deliveries.map Prod.snd) ++ [later]).Pairwise (· ≤ ·)) :
    (codec.run crypto deliveries).server_replay.Covers later session_id packet_id accepted_at := by
  induction deliveries generalizing codec before with
  | nil =>
    rw [map_nil, cons_append, pairwise_cons] at hclock
    exact hcovers.mono (UInt64.le_iff_toNat_le.mp (hclock.1 later (mem_singleton_self _)))
  | cons delivery deliveries ih =>
    obtain ⟨input, now⟩ := delivery
    rw [map_cons, cons_append, pairwise_cons] at hclock
    have hnow : before.toNat ≤ now.toNat :=
      UInt64.le_iff_toNat_le.mp (hclock.1 now mem_cons_self)
    obtain ⟨hdecoded, hsession⟩ := h.decode input now
    refine ih hsession ?_ hclock.2
    generalize (codec.decode_server_packet crypto input now).1 = result at hdecoded
    generalize (codec.decode_server_packet crypto input now).2.server_replay = table at hdecoded ⊢
    cases hdecoded with
    | rejected err => exact hcovers.mono hnow
    | replayed decoded err _ _ | accepted decoded _ _ _ => exact hcovers.check h.table hnow _ _

theorem Session.accepted (hok : (codec.decode_server_packet crypto input now).1 = .ok decoded) :
    reading crypto start input now = .ok decoded ∧
      start.validate_server_packet decoded = .ok () ∧
      (codec.server_replay.check decoded.session_id decoded.packet_id now).1 = .ok () ∧
      (codec.decode_server_packet crypto input now).2.server_replay
        = (codec.server_replay.check decoded.session_id decoded.packet_id now).2 := by
  have hdecoded := (h.decode input now).1
  rw [hok] at hdecoded
  generalize (codec.decode_server_packet crypto input now).2.server_replay = table at hdecoded ⊢
  cases hdecoded with
  | accepted _ hread hvalid hcheck => exact ⟨hread, hvalid, hcheck, rfl⟩

theorem Session.accepts (hread : reading crypto start input now = .ok decoded)
    (hvalid : start.validate_server_packet decoded = .ok ())
    (hcheck : (codec.server_replay.check decoded.session_id decoded.packet_id now).1 = .ok ()) :
    (codec.decode_server_packet crypto input now).1 = .ok decoded := by
  obtain ⟨hopen, -⟩ := open_server_packet_eq h.consistent input now
  rw [h.reading_eq, hread] at hopen
  rw [decode_server_packet]
  rcases hopened : codec.open_server_packet crypto input now with ⟨opened, payload_cipher⟩
  rw [hopened] at hopen
  obtain rfl : opened = .ok decoded := hopen
  have hvalidate : validate_server_packet
      { codec with server_payload_cipher := payload_cipher } decoded = .ok () := by
    rw [← hvalid, validate_server_packet, validate_server_packet]
    rw [h.session_eq]
  dsimp only
  rw [hvalidate]
  rw [hcheck]
  rfl

end

theorem session_new {cipher password : String} {session_id : UInt64} {policy : Ss2022UdpReplayPolicy}
    (h : new_with_replay_policy crypto cipher password session_id policy = .ok codec) :
    Session crypto codec codec ∧ policy.validate = .ok () ∧
      codec.server_replay = from_valid_policy policy := by
  obtain ⟨conf, -, h⟩ := bind_ok h
  obtain ⟨psk_list, -, h⟩ := bind_ok h
  cases hlast : psk_list.getLast? with
  | none =>
    rw [hlast] at h
    cases h
  | some upsk =>
    rw [hlast] at h
    obtain ⟨first, -, h⟩ := bind_ok h
    obtain ⟨header_cipher, -, h⟩ := bind_ok h
    have hmade : ∃ table, new policy = .ok table ∧ codec =
        { conf := conf, cipher := cipher, upsk := upsk, server_header_cipher := header_cipher,
          server_payload_cipher := none, session_id := session_id, server_replay := table } := by
      split_ifs at h with hseparate
      · obtain ⟨payload_cipher, -, h⟩ := bind_ok h
        obtain ⟨table, htable, h⟩ := bind_ok h
        exact ⟨table, htable, (Except.ok.inj h).symm⟩
      · obtain ⟨table, htable, h⟩ := bind_ok h
        exact ⟨table, htable, (Except.ok.inj h).symm⟩
    obtain ⟨table, htable, rfl⟩ := hmade
    obtain ⟨u, hvalid, htable⟩ := bind_ok htable
    cases htable
    obtain ⟨-, -, hretention, -⟩ := validate_ok hvalid
    refine ⟨⟨rfl, rfl, rfl, rfl, rfl, rfl, ?_, ⟨hretention, ?_, ?_⟩⟩, hvalid, rfl⟩
    · nofun
    · nofun
    · intro k _
      rfl

/-- A packet that is accepted again is so after the retention, and within the tolerance. -/
theorem Session.accepted_again (h : Session crypto start codec) {again : UInt64}
    {decoded' : Ss2022UdpDecodedPacket}
    (hfirst : (codec.decode_server_packet crypto input accepted_at).1 = .ok decoded)
    {between : List (List UInt8 × UInt64)}
    (hclock : ((accepted_at :: between.map Prod.snd) ++ [again]).Pairwise (· ≤ ·))
    (hagain : ((codec.run crypto ((input, accepted_at) :: between)).decode_server_packet crypto
      input again).1 = .ok decoded') :
    accepted_at.toNat + start.server_replay.policy.retention_secs.toNat ≤ again.toNat ∧
      again.toNat ≤ decoded.timestamp.toNat + 30 := by
  obtain ⟨hread, -, hcheck, htable⟩ := h.accepted hfirst
  have hnext := (h.decode input accepted_at).2
  have hcovers := covers_accepted h.table hcheck
  rw [← htable] at hcovers
  have hlater := hnext.run between
  obtain ⟨hread', -, hcheck', -⟩ := hlater.accepted hagain
  -- both readings say the same
  have htimed := timed_reading crypto start input
  obtain rfl := htimed.unique hread hread'
  have hover := (hnext.covers_run hcovers hclock).retention_over hlater.table
    le_rfl hcheck'
  rw [hlater.policy_eq] at hover
  exact ⟨hover, ((out_of_tolerance_eq_false_iff _ _).mp (htimed.in_tolerance hread')).1⟩

/-- When the retention is over at a time within the tolerance, the packet is accepted again then. -/
theorem accepted_after_retention {policy : Ss2022UdpReplayPolicy}
    (hsession : Session crypto codec codec) (hvalid_policy : policy.validate = .ok ())
    (htable : codec.server_replay = from_valid_policy policy) {again : UInt64}
    (haccepted : (codec.decode_server_packet crypto input accepted_at).1 = .ok decoded)
    (hagain : again.toNat = accepted_at.toNat + policy.retention_secs.toNat)
    (hlate : again.toNat ≤ decoded.timestamp.toNat + 30) :
    ((codec.decode_server_packet crypto input accepted_at).2.decode_server_packet crypto input
      again).1 = .ok decoded := by
  have hpolicy : codec.server_replay.policy = policy := by rw [htable]; rfl
  have htimed := timed_reading crypto codec input
  obtain ⟨hread, hvalid, -, hafter⟩ := hsession.accepted haccepted
  obtain ⟨-, hhigh⟩ := (out_of_tolerance_eq_false_iff _ _).mp (htimed.in_tolerance hread)
  have hread' := (htimed accepted_at decoded hread again).1
    ((out_of_tolerance_eq_false_iff _ _).mpr ⟨hlate, by omega⟩)
  obtain ⟨hempty, hexpiry⟩ := ready_new policy accepted_at
  rw [← htable] at hempty hexpiry
  obtain ⟨-, hsingle, hnext⟩ := check_of_empty hempty
    (by rw [hpolicy]; exact hvalid_policy) decoded.session_id decoded.packet_id
  rw [hexpiry, hpolicy] at hnext
  refine (hsession.decode input accepted_at).2.accepts hread' hvalid ?_
  rw [hafter]
  have hpolicy' := policy_check codec.server_replay decoded.session_id
    decoded.packet_id accepted_at
  rw [hpolicy] at hpolicy'
  -- the one session of the table is dropped at that time
  have hforgets : Ss2022UdpReplayTable.Empty ((codec.server_replay.check decoded.session_id
      decoded.packet_id accepted_at).2.ready again) := by
    refine hsingle.forgets ?_ (by rw [hpolicy']; omega)
    intro deadline hdeadline
    rw [hnext] at hdeadline
    rw [← Option.some.inj hdeadline]
    change (Saturating.add accepted_at policy.retention_secs).toNat ≤ _
    rw [Saturating.toNat_add]
    omega
  exact (check_of_empty hforgets (by rw [hpolicy']; exact hvalid_policy) _ _).1

/-- **When a packet cannot be accepted twice.** A packet that a new codec accepts at `accepted_at` is
rejected ever after, in every run that accepts it at that time, just when its timestamp leaves the
tolerance before the retention is over. -/
theorem accepted_once_iff {crypto : Crypto} {cipher password : String} {session_id : UInt64}
    {policy : Ss2022UdpReplayPolicy} {codec : Ss2022UdpCodec}
    (hnew : Ss2022UdpCodec.new_with_replay_policy crypto cipher password session_id policy
      = .ok codec)
    {input : List UInt8} {accepted_at : UInt64} {decoded : Ss2022UdpDecodedPacket}
    (haccepted : (codec.decode_server_packet crypto input accepted_at).1 = .ok decoded) :
    (∀ (before between : List (List UInt8 × UInt64)) (again : UInt64),
      ((before ++ (input, accepted_at) :: between ++ [(input, again)]).map Prod.snd).Pairwise (· ≤ ·) →
      ((codec.run crypto before).decode_server_packet crypto input accepted_at).1.isOk = true →
      ((codec.run crypto (before ++ (input, accepted_at) :: between)).decode_server_packet crypto input
        again).1.isOk = false) ↔
    min (decoded.timestamp.toNat + 30) (2 ^ 64 - 1)
      < accepted_at.toNat + policy.retention_secs.toNat := by
  obtain ⟨hsession, hvalid_policy, htable⟩ := session_new hnew
  constructor
  · intro hall
    by_contra hlate
    have hfits : accepted_at.toNat + policy.retention_secs.toNat < 2 ^ 64 := by omega
    have hagain : (UInt64.ofNat (accepted_at.toNat + policy.retention_secs.toNat)).toNat
        = accepted_at.toNat + policy.retention_secs.toNat := by
      rw [UInt64.toNat_ofNat', Nat.mod_eq_of_lt hfits]
    have hok := accepted_after_retention hsession hvalid_policy htable haccepted hagain (by omega)
    have hno := hall [] [] (UInt64.ofNat (accepted_at.toNat + policy.retention_secs.toNat)) ?_ ?_
    · rw [nil_append, run, foldl_cons, foldl_nil, hok] at hno
      cases hno
    · have hle : accepted_at ≤ UInt64.ofNat (accepted_at.toNat + policy.retention_secs.toNat) := by
        rw [UInt64.le_iff_toNat_le, hagain]
        omega
      simpa using hle
    · rw [run, foldl_nil, haccepted]
      rfl
  · intro hbound before between again hclock hfirst
    rw [Bool.eq_false_iff]
    intro hagain
    have hcodec := hsession.run before
    have hpolicy : codec.server_replay.policy = policy := by rw [htable]; rfl
    obtain ⟨first, hfirst⟩ := Fallible.exists_of_isOk hfirst
    obtain ⟨second, hagain⟩ := Fallible.exists_of_isOk hagain
    rw [run, foldl_append] at hagain
    have hclock' : ((accepted_at :: between.map Prod.snd) ++ [again]).Pairwise (· ≤ ·) := by
      rw [append_assoc, map_append, pairwise_append] at hclock
      simpa using hclock.2.1
    obtain ⟨hover, htol⟩ := hcodec.accepted_again hfirst hclock' hagain
    -- the packet reads as it does to the new codec
    obtain ⟨hread, -⟩ := hsession.accepted haccepted
    obtain ⟨hread', -⟩ := hcodec.accepted hfirst
    obtain rfl := (timed_reading crypto codec input).unique hread hread'
    have hlt := again.toNat_lt
    rw [hpolicy] at hover
    omega

/-- Crates that leave everything as it is, for keys of 32 zeros. -/
def open_crypto : Crypto where
  base64_decode _ := .ok (List.replicate 32 0)
  aes_decrypt_block _ block := block
  derive_session_subkey _ _ := List.replicate 32 0
  aes_gcm_decrypt _ _ ciphertext := some ciphertext
  xchacha_decrypt _ _ ciphertext := some ciphertext

/-- Packet 5 of server session 7 for client session 9, with the timestamp 130. -/
def packet_of_130 : List UInt8 :=
  List.replicate 24 0 ++ [0, 0, 0, 0, 0, 0, 0, 7] ++ [0, 0, 0, 0, 0, 0, 0, 5] ++
    [1] ++ [0, 0, 0, 0, 0, 0, 0, 130] ++ [0, 0, 0, 0, 0, 0, 0, 9] ++ [0, 0] ++
    [1, 127, 0, 0, 1, 0, 53] ++ [0x61]

def decoded_of_130 : Ss2022UdpDecodedPacket where
  cipher := "2022-blake3-chacha20-poly1305"
  branch := "merged-header-xchacha20-poly1305"
  packet_type := 1
  packet_id := 5
  session_id := 7
  client_session_id := some 9
  target := "127.0.0.1:53"
  target_metadata_len := 7
  padding_len := 0
  payload := [0x61]
  timestamp := 130

/-- A new codec for that client session. -/
def codec_of_9 : Ss2022UdpCodec where
  conf := { cipher := "2022-blake3-chacha20-poly1305", key_len := 32, tag_len := 16,
            packet_nonce_len := 24, packet_cipher := true }
  cipher := "2022-blake3-chacha20-poly1305"
  upsk := List.replicate 32 0
  server_header_cipher := .Aes256 (List.replicate 32 0)
  server_payload_cipher := none
  session_id := 9
  server_replay := Ss2022UdpReplayTable.from_valid_policy {}

/-- Accepted 29 seconds before its timestamp, the packet is not accepted again at the end of its
tolerance. -/
theorem accepted_once_iff_in_time :
    min ((130 : UInt64).toNat + 30) (2 ^ 64 - 1) < (101 : UInt64).toNat + 60 ∧
    ((codec_of_9.run open_crypto [(packet_of_130, 101)]).decode_server_packet open_crypto
      packet_of_130 160).1.isOk = false :=
  ⟨by decide,
    (@accepted_once_iff open_crypto "2022-blake3-chacha20-poly1305" "psk" 9 {} codec_of_9 rfl
      packet_of_130 101 decoded_of_130 (by decide +kernel)).mpr (by decide) [] [] 160 (by decide)
      (by decide +kernel)⟩

/-- Accepted 30 seconds before its timestamp, the packet is accepted again a minute later: the
session has just been forgotten, and the timestamp is just within the tolerance. -/
theorem packet_accepted_twice :
    Ss2022UdpCodec.new_with_replay_policy open_crypto "2022-blake3-chacha20-poly1305" "psk" 9 {}
      = .ok codec_of_9 ∧
    (codec_of_9.decode_server_packet open_crypto packet_of_130 100).1.isOk = true ∧
    ((codec_of_9.run open_crypto [(packet_of_130, 100)]).decode_server_packet open_crypto
      packet_of_130 160).1.isOk = true :=
  ⟨rfl, by decide +kernel, by decide +kernel⟩

end DaeNext.Ss2022
