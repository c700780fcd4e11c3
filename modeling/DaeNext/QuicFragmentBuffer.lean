/-
Reassembly of fragmented UDP datagrams over QUIC.

`QuicUdpFragmentBuffer` keeps the fragments of incomplete packets under their packet id,
within a budget of packets and one of bytes, and sets ids aside (quarantine) once their
packet was completed, expired or dropped, so that a late fragment does not start a packet
of its own. Times are nanoseconds of the monotonic clock and an argument of every call.

After the buffer come the lookups its operations leave in the two tables, and what a push
can do as a whole (`Pushed`): every fact about pushes goes by the cases of that relation.
-/
import DaeNext.LibSaturating
import DaeNext.LibTableTotal
import DaeNext.LibVec

set_option autoImplicit false

namespace DaeNext.Quic

open Table
open Std.TreeMap hiding getElem?_erase getElem?_insert

/-! ## Times and budgets -/

/-- Nanoseconds of the monotonic clock. -/
abbrev Instant := Nat

/-- The last `Instant`: its seconds are an `i64`. -/
def INSTANT_MAX : Nat := (2 ^ 63 - 1) * 1000000000 + 999999999

def Instant.checked_add (now : Instant) (ttl : Nat) : Option Instant :=
  if now + ttl ≤ INSTANT_MAX then some (now + ttl) else none

inductive ResidentRuntimeProfile where
  | LowMemory
  | Balanced
  | HighPerformance
deriving DecidableEq, Repr

structure QuicUdpDatagramResourceProfile where
  pending_fragment_packets : UInt64
  pending_fragment_bytes : UInt64
  packet_id_lease_ranges : UInt64
  pmtu_retries : UInt64
  fragment_ttl : Nat
  packet_id_lease_ttl : Nat
  fragment_quarantine_ttl : Nat
deriving DecidableEq, Repr

/-- `Duration::from_secs` in nanoseconds. -/
def from_secs (seconds : Nat) : Nat := seconds * 1000000000

def QuicUdpDatagramResourceProfile.from_runtime_profile (profile : ResidentRuntimeProfile) :
    QuicUdpDatagramResourceProfile :=
  let budgets : UInt64 × UInt64 × UInt64 × UInt64 :=
    match profile with
    | .LowMemory => (16, 128 * 1024, 256, 2)
    | .Balanced => (64, 512 * 1024, 1024, 3)
    | .HighPerformance => (256, 2 * 1024 * 1024, 4096, 4)
  { pending_fragment_packets := budgets.1
    pending_fragment_bytes := budgets.2.1
    packet_id_lease_ranges := budgets.2.2.1
    pmtu_retries := budgets.2.2.2
    fragment_ttl := from_secs 10
    packet_id_lease_ttl := from_secs 10
    fragment_quarantine_ttl := from_secs 10 }

/-! ## The buffer -/

inductive QuicUdpFragmentOutcome where
  | Pending
  | Complete (payload : List UInt8)
  | Late (payload : List UInt8)
deriving DecidableEq, Repr

structure PendingQuicUdpFragments where
  total : UInt8
  parts : Table UInt8 (List UInt8)
  bytes : Nat
  reassembly_limit : Nat
  expires_at : Instant

structure QuicUdpFragmentInput where
  packet_id : UInt16
  fragment_id : UInt8
  fragment_count : UInt8
  payload : List UInt8
deriving DecidableEq, Repr

structure QuicUdpFragmentBuffer where
  resources : QuicUdpDatagramResourceProfile
  max_reassembled_bytes : UInt64
  pending : Table UInt16 PendingQuicUdpFragments
  pending_bytes : Nat
  quarantined : Table UInt16 Instant
  next_cleanup : Option Instant
  high_water_packets : Nat
  high_water_bytes : Nat
  accepted_fragments : UInt64
  duplicate_fragments : UInt64
  expired_packets : UInt64
  late_fragments : UInt64
  rejected_fragments : UInt64
  rejected_bytes : UInt64

/-- `old.map_or(at, |old| old.min(at))` of the cached cleanup time. -/
def sooner (old : Option Instant) (expires_at : Instant) : Instant :=
  match old with
  | none => expires_at
  | some old => min old expires_at

/-- `previous.checked_sub(removed).and_then(|bytes| bytes.checked_add(added))`. -/
def checked_replace (previous removed added : Nat) : Option Nat :=
  if removed ≤ previous then
    if previous - removed + added < 2 ^ 64 then some (previous - removed + added) else none
  else none

/-- What an admitted fragment leads to. -/
structure Admission where
  reassembly_limit : Nat
  next_packet_bytes : Nat
  next_pending_bytes : Nat

namespace QuicUdpFragmentBuffer

def new (resources : QuicUdpDatagramResourceProfile) (max_reassembled_bytes : UInt64) :
    QuicUdpFragmentBuffer where
  resources
  max_reassembled_bytes
  pending := ∅
  pending_bytes := 0
  quarantined := ∅
  next_cleanup := none
  high_water_packets := 0
  high_water_bytes := 0
  accepted_fragments := 0
  duplicate_fragments := 0
  expired_packets := 0
  late_fragments := 0
  rejected_fragments := 0
  rejected_bytes := 0

variable (self : QuicUdpFragmentBuffer) (now : Instant)

def reject (bytes : Nat) : QuicUdpFragmentBuffer :=
  { self with
    rejected_fragments := Saturating.add self.rejected_fragments 1
    rejected_bytes := Saturating.add self.rejected_bytes (UInt64.ofNat bytes) }

def remove_pending (packet_id : UInt16) : QuicUdpFragmentBuffer :=
  match self.pending[packet_id]? with
  | some entry =>
    { self with
      pending := self.pending.erase packet_id
      pending_bytes := self.pending_bytes - entry.bytes }
  | none => self

/-- The quarantine table with room for one more id. -/
def make_room (packet_id : UInt16) : Table UInt16 Instant :=
  if self.quarantined.contains packet_id = false
      ∧ self.resources.pending_fragment_packets.toNat ≤ self.quarantined.size then
    match Vec.min_by_key (fun entry => (entry.2 : Int)) self.quarantined.toList with
    | some oldest => self.quarantined.erase oldest.1
    | none => self.quarantined
  else self.quarantined

def quarantine (packet_id : UInt16) : QuicUdpFragmentBuffer :=
  let expires_at := (now.checked_add self.resources.fragment_quarantine_ttl).getD now
  { self with
    quarantined := (self.make_room packet_id).insert packet_id expires_at
    next_cleanup := some (sooner self.next_cleanup expires_at) }

def expire_packet (packet_id : UInt16) : QuicUdpFragmentBuffer :=
  let self := (self.remove_pending packet_id).quarantine now packet_id
  { self with expired_packets := Saturating.add self.expired_packets 1 }

def expired : List UInt16 :=
  self.pending.toList.filterMap fun entry =>
    if entry.2.expires_at ≤ now then some entry.1 else none

/-- Drop quarantined ids past their time and look for the next expiry. -/
def retain_quarantined : QuicUdpFragmentBuffer :=
  let quarantined := self.quarantined.filter fun _ expires_at => decide (now < expires_at)
  { self with
    quarantined
    next_cleanup :=
      (self.pending.toList.map (fun entry => entry.2.expires_at)
        ++ quarantined.toList.map (fun entry => entry.2)).min? }

/-- Nothing has expired yet, by the cached time. -/
def not_due : Bool :=
  match self.next_cleanup with
  | some deadline => decide (now < deadline)
  | none => false

def expire_at : QuicUdpFragmentBuffer :=
  if self.not_due now then self
  else ((self.expired now).foldl (fun self packet_id => self.expire_packet now packet_id)
    self).retain_quarantined now

/-- Drop a packet and set its id aside, for a fragment that is rejected. -/
def discard (packet_id : UInt16) (bytes : Nat) : QuicUdpFragmentBuffer :=
  ((self.remove_pending packet_id).quarantine now packet_id).reject bytes

variable (fragment : QuicUdpFragmentInput) (label : String)

/-- The byte budgets of one packet and of the buffer. -/
def account (reassembly_limit previous_fragment_bytes previous_packet_bytes : Nat) :
    Except (String × QuicUdpFragmentBuffer) Admission :=
  let len := fragment.payload.length
  match checked_replace previous_packet_bytes previous_fragment_bytes len with
  | none => .error (s!"{label} UDP fragment byte accounting overflow", self)
  | some next_packet_bytes =>
    if reassembly_limit < next_packet_bytes then
      .error (s!"{label} UDP reassembled payload exceeds budget: {next_packet_bytes} > {reassembly_limit} bytes",
        self.discard now fragment.packet_id len)
    else
      match checked_replace self.pending_bytes previous_fragment_bytes len with
      | none => .error (s!"{label} UDP global fragment byte accounting overflow", self)
      | some next_pending_bytes =>
        let budget := self.resources.pending_fragment_bytes.toNat
        if budget < next_pending_bytes then
          .error (s!"{label} UDP fragment byte budget exceeded: {next_pending_bytes} > {budget} bytes",
            self.reject len)
        else .ok { reassembly_limit, next_packet_bytes, next_pending_bytes }

/-- The checks of a fragment of a packet that is not complete with it alone. -/
def admission (reassembly_limit : Nat) : Except (String × QuicUdpFragmentBuffer) Admission :=
  let len := fragment.payload.length
  let packet_id := fragment.packet_id
  match self.pending[packet_id]? with
  | some entry =>
    let previous := entry.total
    let fragment_count := fragment.fragment_count
    let previous_bytes := entry.bytes
    let reassembly_limit := min entry.reassembly_limit reassembly_limit
    if previous ≠ fragment_count then
      .error (s!"{label} UDP fragment count changed for packet {packet_id}: {previous} -> {fragment_count}",
        self.discard now packet_id len)
    else if reassembly_limit < previous_bytes then
      .error (s!"{label} UDP reassembly budget decreased below buffered payload: {previous_bytes} > {reassembly_limit} bytes",
        self.discard now packet_id len)
    else
      let previous_fragment_bytes := (entry.parts[fragment.fragment_id]?).elim 0 List.length
      self.account now fragment label reassembly_limit previous_fragment_bytes previous_bytes
  | none =>
    if self.resources.pending_fragment_packets.toNat ≤ self.pending.size then
      .error (s!"{label} UDP fragment packet budget is full", self.reject len)
    else self.account now fragment label reassembly_limit 0 0

/-- The entry of the fragment's packet with the fragment in it. -/
def entry_with (admission : Admission) : PendingQuicUdpFragments :=
  let entry := (self.pending[fragment.packet_id]?).getD
    { total := fragment.fragment_count
      parts := ∅
      bytes := 0
      reassembly_limit := admission.reassembly_limit
      expires_at := (now.checked_add self.resources.fragment_ttl).getD now }
  { entry with
    reassembly_limit := min entry.reassembly_limit admission.reassembly_limit
    parts := entry.parts.insert fragment.fragment_id fragment.payload
    bytes := admission.next_packet_bytes }

def store (admission : Admission) : QuicUdpFragmentBuffer :=
  let expires_at := (now.checked_add self.resources.fragment_ttl).getD now
  let duplicate := ((self.pending[fragment.packet_id]?).bind
    fun entry => entry.parts[fragment.fragment_id]?).isSome
  let pending := self.pending.insert fragment.packet_id (self.entry_with now fragment admission)
  { self with
    next_cleanup := some (sooner self.next_cleanup expires_at)
    pending
    duplicate_fragments :=
      if duplicate then Saturating.add self.duplicate_fragments 1 else self.duplicate_fragments
    pending_bytes := admission.next_pending_bytes
    accepted_fragments := Saturating.add self.accepted_fragments 1
    high_water_packets := max self.high_water_packets pending.size
    high_water_bytes := max self.high_water_bytes admission.next_pending_bytes }

def append_part (packet_id : UInt16) (entry : PendingQuicUdpFragments) (out : List UInt8)
    (id : Nat) : Except String (List UInt8) :=
  match entry.parts[UInt8.ofNat id]? with
  | some part => .ok (out ++ part)
  | none => .error s!"{label} UDP fragment packet {packet_id} missing fragment {id}"

/-- The parts of a packet in the order of their ids. -/
def concatenate (packet_id : UInt16) (entry : PendingQuicUdpFragments) :
    Except String (List UInt8) :=
  (List.range entry.total.toNat).foldlM (append_part label packet_id entry) []

def complete (packet_id : UInt16) : Except String QuicUdpFragmentOutcome × QuicUdpFragmentBuffer :=
  match self.pending[packet_id]? with
  | none => (.error s!"{label} UDP fragment packet disappeared", self)
  | some entry =>
    let self := { self with
      pending := self.pending.erase packet_id
      pending_bytes := self.pending_bytes - entry.bytes }
    ((concatenate label packet_id entry).map .Complete, self.quarantine now packet_id)

/-- A fragment of a packet of several. -/
def push_part (reassembly_limit : Nat) :
    Except String QuicUdpFragmentOutcome × QuicUdpFragmentBuffer :=
  match self.admission now fragment label reassembly_limit with
  | .error (err, self) => (.error err, self)
  | .ok admission =>
    let stored := self.store now fragment admission
    if (self.entry_with now fragment admission).parts.size = fragment.fragment_count.toNat then
      stored.complete now label fragment.packet_id
    else (.ok .Pending, stored)

/-- A well-formed fragment, after the sweep. -/
def push_valid (reassembly_limit : Nat) :
    Except String QuicUdpFragmentOutcome × QuicUdpFragmentBuffer :=
  let len := fragment.payload.length
  if reassembly_limit = 0 then
    (.error s!"{label} UDP reassembly limit is zero",
      if self.pending.contains fragment.packet_id then self.discard now fragment.packet_id len
      else self.reject len)
  else if fragment.fragment_count = 1 then
    if reassembly_limit < len then
      (.error s!"{label} UDP payload exceeds reassembly budget: {len} > {reassembly_limit} bytes",
        self.reject len)
    else (.ok (.Complete fragment.payload), self)
  else if self.quarantined.contains fragment.packet_id then
    (.ok (.Late fragment.payload),
      { self with late_fragments := Saturating.add self.late_fragments 1 })
  else self.push_part now fragment label reassembly_limit

def push_at_with_reassembly_limit (reassembly_limit : UInt64) :
    Except String QuicUdpFragmentOutcome × QuicUdpFragmentBuffer :=
  let fragment_id := fragment.fragment_id
  let fragment_count := fragment.fragment_count
  if fragment_count = 0 ∨ fragment_count ≤ fragment_id then
    (.error s!"invalid {label} UDP fragment fields: fragment_id={fragment_id} fragment_count={fragment_count}",
      self.reject fragment.payload.length)
  else if fragment.payload.isEmpty then
    (.error s!"empty {label} UDP fragment payload", self.reject 0)
  else
    (self.expire_at now).push_valid now fragment label
      (min reassembly_limit.toNat self.max_reassembled_bytes.toNat)

def clear : QuicUdpFragmentBuffer :=
  { self with pending := ∅, pending_bytes := 0, quarantined := ∅ }

/-! ## Lookups -/

variable {self now fragment label}

theorem getElem?_remove_pending (packet_id a : UInt16) :
    (self.remove_pending packet_id).pending[a]? = if a = packet_id then none else self.pending[a]? := by
  rw [remove_pending]
  cases h : self.pending[packet_id]? with
  | some entry => exact getElem?_erase _ _ _
  | none =>
    split_ifs with ha
    · rw [ha]
      exact h
    · rfl

variable (packet_id : UInt16)

theorem remove_pending_frame :
    (self.remove_pending packet_id).resources = self.resources
      ∧ (self.remove_pending packet_id).quarantined = self.quarantined
      ∧ (self.remove_pending packet_id).next_cleanup = self.next_cleanup := by
  rw [remove_pending]
  cases self.pending[packet_id]? <;> exact ⟨rfl, rfl, rfl⟩

theorem getElem?_make_room {packet_id a : UInt16} {expires_at : Instant}
    (h : (self.make_room packet_id)[a]? = some expires_at) : self.quarantined[a]? = some expires_at := by
  rw [make_room] at h
  split_ifs at h with hfull
  · cases hleast : Vec.min_by_key (fun entry => (entry.2 : Int)) self.quarantined.toList with
    | none =>
      rw [hleast] at h
      exact h
    | some oldest =>
      rw [hleast, getElem?_erase] at h
      split_ifs at h
      exact h
  · exact h

theorem getElem?_quarantine_self :
    (self.quarantine now packet_id).quarantined[packet_id]?
      = some ((now.checked_add self.resources.fragment_quarantine_ttl).getD now) := by
  rw [quarantine, getElem?_insert, if_pos rfl]

theorem getElem?_quarantine_of_ne {packet_id a : UInt16} (hne : a ≠ packet_id)
    {expires_at : Instant} (h : (self.quarantine now packet_id).quarantined[a]? = some expires_at) :
    self.quarantined[a]? = some expires_at := by
  rw [quarantine, getElem?_insert, if_neg hne] at h
  exact getElem?_make_room h

variable {limit : Nat}

theorem size_quarantine_le (hlimit : self.resources.pending_fragment_packets.toNat = limit)
    (hpos : 0 < limit) (h : self.quarantined.size ≤ limit) :
    (self.quarantine now packet_id).quarantined.size ≤ limit := by
  rw [quarantine, make_room, hlimit]
  split_ifs with hfull
  · cases hleast : Vec.min_by_key (fun entry => (entry.2 : Int)) self.quarantined.toList with
    | none =>
      -- a full table has a least entry, for the limit is not zero
      have hempty : self.quarantined.toList.length = 0 := by
        rw [Vec.min_by_key_eq_none.mp hleast]
        rfl
      rw [length_toList] at hempty
      omega
    | some oldest =>
      have hmem : oldest.1 ∈ self.quarantined :=
        mem_iff_isSome_getElem?.mpr (by
          rw [mem_toList_iff_getElem?_eq_some.mp (Vec.min_by_key_spec hleast).1]
          rfl)
      have hlt := size_erase_lt hmem
      have hle := (self.quarantined.erase oldest.1).size_insert_le (k := packet_id)
        (v := (now.checked_add self.resources.fragment_quarantine_ttl).getD now)
      dsimp only
      omega
  · by_cases hmem : self.quarantined.contains packet_id = true
    · rw [size_insert, if_pos hmem]
      exact h
    · have hroom : self.quarantined.size < limit := by
        rcases not_and_or.mp hfull with hin | hroom
        · rw [Bool.not_eq_true] at hmem
          exact absurd hmem hin
        · omega
      rw [size_insert, if_neg hmem]
      omega

theorem mem_expired {packet_id : UInt16} :
    packet_id ∈ self.expired now
      ↔ ∃ entry, self.pending[packet_id]? = some entry ∧ entry.expires_at ≤ now := by
  rw [expired, List.mem_filterMap]
  constructor
  · rintro ⟨⟨a, entry⟩, hmem, hif⟩
    split_ifs at hif with hle
    cases hif
    exact ⟨entry, mem_toList_iff_getElem?_eq_some.mp hmem, hle⟩
  · rintro ⟨entry, hget, hle⟩
    exact ⟨(packet_id, entry), mem_toList_iff_getElem?_eq_some.mpr hget, if_pos hle⟩

/-! ## What a push does -/

/-- Bytes stored of the fragment's packet. -/
def packet_bytes (self : QuicUdpFragmentBuffer) (fragment : QuicUdpFragmentInput) : Nat :=
  (self.pending[fragment.packet_id]?).elim 0 fun entry => entry.bytes

/-- Bytes of an earlier copy of the fragment. -/
def part_bytes (self : QuicUdpFragmentBuffer) (fragment : QuicUdpFragmentInput) : Nat :=
  ((self.pending[fragment.packet_id]?).bind
    fun entry => entry.parts[fragment.fragment_id]?).elim 0 List.length

/-- The least of the limits given with the fragments of the packet. -/
def limit_for (self : QuicUdpFragmentBuffer) (fragment : QuicUdpFragmentInput) (limit : Nat) : Nat :=
  (self.pending[fragment.packet_id]?).elim limit fun entry => min entry.reassembly_limit limit

/-- The fragment keeps to the total of its packet and to the budgets. -/
structure Admitted (buffer : QuicUdpFragmentBuffer) (fragment : QuicUdpFragmentInput) (limit : Nat)
    (a : Admission) : Prop where
  same_total : ∀ entry, buffer.pending[fragment.packet_id]? = some entry →
    entry.total = fragment.fragment_count
  room : buffer.pending[fragment.packet_id]? = none →
    buffer.pending.size < buffer.resources.pending_fragment_packets.toNat
  limit_eq : a.reassembly_limit = buffer.limit_for fragment limit
  kept : buffer.packet_bytes fragment ≤ a.reassembly_limit
  packet : checked_replace (buffer.packet_bytes fragment) (buffer.part_bytes fragment)
    fragment.payload.length = some a.next_packet_bytes
  packet_le : a.next_packet_bytes ≤ a.reassembly_limit
  pending : checked_replace buffer.pending_bytes (buffer.part_bytes fragment)
    fragment.payload.length = some a.next_pending_bytes
  pending_le : a.next_pending_bytes ≤ buffer.resources.pending_fragment_bytes.toNat

/-- What is left when a fragment is turned away: only counters change, or the whole packet goes. -/
inductive Refused (self : QuicUdpFragmentBuffer) (now : Instant) (fragment : QuicUdpFragmentInput) :
    QuicUdpFragmentBuffer → Prop
  | overflow : Refused self now fragment self
  | rejected (bytes : Nat) : Refused self now fragment (self.reject bytes)
  | discarded (bytes : Nat)
      (hbudget : self.pending[fragment.packet_id]? = none →
        self.pending.size < self.resources.pending_fragment_packets.toNat) :
      Refused self now fragment (self.discard now fragment.packet_id bytes)

theorem checked_replace_eq_some {previous removed added next : Nat} :
    checked_replace previous removed added = some next
      ↔ removed ≤ previous ∧ previous - removed + added < 2 ^ 64
        ∧ next = previous - removed + added := by
  rw [checked_replace]
  split_ifs with hle hlt
  · rw [Option.some.injEq]
    exact ⟨fun h => ⟨hle, hlt, h.symm⟩, fun h => h.2.2.symm⟩
  · exact ⟨nofun, fun h => absurd h.2.1 hlt⟩
  · exact ⟨nofun, fun h => absurd h.1 hle⟩

variable {a : Admission}

theorem account_ok_iff {removed previous : Nat} :
    self.account now fragment label limit removed previous = .ok a
      ↔ a.reassembly_limit = limit
        ∧ checked_replace previous removed fragment.payload.length = some a.next_packet_bytes
        ∧ a.next_packet_bytes ≤ limit
        ∧ checked_replace self.pending_bytes removed fragment.payload.length
            = some a.next_pending_bytes
        ∧ a.next_pending_bytes ≤ self.resources.pending_fragment_bytes.toNat := by
  rw [account]
  cases hpacket : checked_replace previous removed fragment.payload.length with
  | none => simp
  | some next_packet =>
    dsimp only
    split_ifs with hlimit
    · refine ⟨nofun, fun ⟨_, hnext, hle, _⟩ => ?_⟩
      rw [← Option.some.inj hnext] at hle
      omega
    · cases hpending : checked_replace self.pending_bytes removed fragment.payload.length with
      | none => simp
      | some next_pending =>
        dsimp only
        split_ifs with hbudget
        · refine ⟨nofun, fun ⟨_, _, _, hnext, hle⟩ => ?_⟩
          rw [← Option.some.inj hnext] at hle
          omega
        · rw [Except.ok.injEq]
          constructor
          · rintro rfl
            exact ⟨rfl, rfl, Nat.le_of_not_lt hlimit, rfl, Nat.le_of_not_lt hbudget⟩
          · rintro ⟨rfl, h1, -, h2, -⟩
            rw [Option.some.inj h1, Option.some.inj h2]

theorem account_error {removed previous : Nat} {err : String} {b : QuicUdpFragmentBuffer}
    (hbudget : self.pending[fragment.packet_id]? = none →
      self.pending.size < self.resources.pending_fragment_packets.toNat)
    (h : self.account now fragment label limit removed previous = .error (err, b)) :
    Refused self now fragment b := by
  revert h
  fun_cases self.account now fragment label limit removed previous with
  | case1 | case3 => rintro ⟨⟩; exact .overflow
  | case2 => rintro ⟨⟩; exact .discarded _ hbudget
  | case4 => rintro ⟨⟩; exact .rejected _
  | case5 => intro h; cases h

theorem account_ok_iff_admitted
    (htotal : ∀ entry, self.pending[fragment.packet_id]? = some entry →
      entry.total = fragment.fragment_count)
    (hroom : self.pending[fragment.packet_id]? = none →
      self.pending.size < self.resources.pending_fragment_packets.toNat)
    (hkept : self.packet_bytes fragment ≤ self.limit_for fragment limit) :
    self.account now fragment label (self.limit_for fragment limit) (self.part_bytes fragment)
      (self.packet_bytes fragment) = .ok a ↔ Admitted self fragment limit a := by
  rw [account_ok_iff]
  constructor
  · rintro ⟨h1, h2, h3, h4, h5⟩
    exact ⟨htotal, hroom, h1, h1 ▸ hkept, h2, h1 ▸ h3, h4, h5⟩
  · intro h
    exact ⟨h.limit_eq, h.packet, h.limit_eq ▸ h.packet_le, h.pending, h.pending_le⟩

theorem admission_ok_iff :
    self.admission now fragment label limit = .ok a ↔ Admitted self fragment limit a := by
  rw [admission]
  cases hentry : self.pending[fragment.packet_id]? with
  | none =>
    split_ifs with hfull
    · refine ⟨nofun, fun h => ?_⟩
      have hroom := h.room hentry
      omega
    · have hlimit : self.limit_for fragment limit = limit := by rw [limit_for, hentry]; rfl
      have hpacket : self.packet_bytes fragment = 0 := by rw [packet_bytes, hentry]; rfl
      have hpart : self.part_bytes fragment = 0 := by rw [part_bytes, hentry]; rfl
      rw [← account_ok_iff_admitted, hlimit, hpacket, hpart]
      · intro entry h
        rw [hentry] at h
        cases h
      · intro _
        omega
      · rw [hpacket]
        exact Nat.zero_le _
  | some entry =>
    dsimp only
    have hlimit : self.limit_for fragment limit = min entry.reassembly_limit limit := by
      rw [limit_for, hentry]; rfl
    have hpacket : self.packet_bytes fragment = entry.bytes := by rw [packet_bytes, hentry]; rfl
    have hpart : self.part_bytes fragment
        = (entry.parts[fragment.fragment_id]?).elim 0 List.length := by
      rw [part_bytes, hentry]; rfl
    rw [← hlimit, ← hpacket, ← hpart]
    split_ifs with htotal hless
    · exact ⟨nofun, fun h => absurd (h.same_total entry hentry) htotal⟩
    · refine ⟨nofun, fun h => ?_⟩
      have hkept := h.kept
      rw [h.limit_eq] at hkept
      omega
    · apply account_ok_iff_admitted
      · intro other h
        rw [hentry] at h
        rw [← Option.some.inj h]
        exact not_not.mp htotal
      · intro h
        rw [hentry] at h
        cases h
      · omega

theorem admission_error {err : String} {b : QuicUdpFragmentBuffer}
    (h : self.admission now fragment label limit = .error (err, b)) : Refused self now fragment b := by
  rw [admission] at h
  cases hentry : self.pending[fragment.packet_id]? with
  | none =>
    rw [hentry] at h
    split_ifs at h with hfull
    · cases h
      exact .rejected _
    · exact account_error (fun _ => by omega) h
  | some entry =>
    have hbudget : self.pending[fragment.packet_id]? = none →
        self.pending.size < self.resources.pending_fragment_packets.toNat := by
      intro hnone
      rw [hentry] at hnone
      cases hnone
    rw [hentry] at h
    dsimp only at h
    split_ifs at h
    · cases h
      exact .discarded _ hbudget
    · cases h
      exact .discarded _ hbudget
    · exact account_error hbudget h

def completed (self : QuicUdpFragmentBuffer) (now : Instant) (fragment : QuicUdpFragmentInput)
    (a : Admission) : QuicUdpFragmentBuffer :=
  let stored := self.store now fragment a
  { stored with
    pending := stored.pending.erase fragment.packet_id
    pending_bytes := a.next_pending_bytes - a.next_packet_bytes }.quarantine now fragment.packet_id

theorem complete_store (a : Admission) :
    (self.store now fragment a).complete now label fragment.packet_id
      = ((concatenate label fragment.packet_id (self.entry_with now fragment a)).map .Complete,
        self.completed now fragment a) := by
  have hget : (self.store now fragment a).pending[fragment.packet_id]?
      = some (self.entry_with now fragment a) := by
    rw [store, getElem?_insert, if_pos rfl]
  rw [complete, hget]
  rfl

/-- What a push of well-formed fields can do, from the buffer after the sweep. -/
inductive Pushed (self : QuicUdpFragmentBuffer) (now : Instant) (fragment : QuicUdpFragmentInput)
    (label : String) (limit : Nat) :
    Except String QuicUdpFragmentOutcome → QuicUdpFragmentBuffer → Prop
  | refused (err : String) {b : QuicUdpFragmentBuffer} (h : Refused self now fragment b) :
      Pushed self now fragment label limit (.error err) b
  | single (hcount : fragment.fragment_count = 1) :
      Pushed self now fragment label limit (.ok (.Complete fragment.payload)) self
  | late (hlate : self.quarantined.contains fragment.packet_id = true) :
      Pushed self now fragment label limit (.ok (.Late fragment.payload))
        { self with late_fragments := Saturating.add self.late_fragments 1 }
  | stored (a : Admission) (hnew : self.quarantined[fragment.packet_id]? = none)
      (hcount : fragment.fragment_count ≠ 1) (h : Admitted self fragment limit a)
      (hpart : (self.entry_with now fragment a).parts.size ≠ fragment.fragment_count.toNat) :
      Pushed self now fragment label limit (.ok .Pending) (self.store now fragment a)
  | completed (a : Admission) (hnew : self.quarantined[fragment.packet_id]? = none)
      (hcount : fragment.fragment_count ≠ 1) (h : Admitted self fragment limit a)
      (hpart : (self.entry_with now fragment a).parts.size = fragment.fragment_count.toNat) :
      Pushed self now fragment label limit
        ((concatenate label fragment.packet_id (self.entry_with now fragment a)).map .Complete)
        (self.completed now fragment a)

theorem push_part_eq_of_admitted (h : Admitted self fragment limit a) :
    self.push_part now fragment label limit
      = if (self.entry_with now fragment a).parts.size = fragment.fragment_count.toNat then
          ((concatenate label fragment.packet_id (self.entry_with now fragment a)).map .Complete,
            self.completed now fragment a)
        else (.ok .Pending, self.store now fragment a) := by
  rw [push_part, admission_ok_iff.mpr h]
  dsimp only
  rw [complete_store]

theorem push_valid_cases (limit : Nat) :
    Pushed self now fragment label limit (self.push_valid now fragment label limit).1
      (self.push_valid now fragment label limit).2 := by
  rw [push_valid]
  split_ifs with hzero hpending hcount hlen hlate
  · refine .refused _ (.discarded _ fun hnone => ?_)
    rw [contains_eq_isSome_getElem?, hnone] at hpending
    cases hpending
  · exact .refused _ (.rejected _)
  · exact .refused _ (.rejected _)
  · exact .single hcount
  · exact .late hlate
  · have hnew : self.quarantined[fragment.packet_id]? = none := by
      rw [contains_eq_isSome_getElem?, Bool.not_eq_true, Option.isSome_eq_false_iff,
        Option.isNone_iff_eq_none] at hlate
      exact hlate
    cases hadmission : self.admission now fragment label limit with
    | error refused =>
      obtain ⟨err, b⟩ := refused
      rw [push_part, hadmission]
      exact .refused err (admission_error hadmission)
    | ok a =>
      have h := admission_ok_iff.mp hadmission
      rw [push_part_eq_of_admitted h]
      split_ifs with hpart
      · exact .completed a hnew hcount h hpart
      · exact .stored a hnew hcount h hpart

/-- A push of ill-formed fields is rejected at once; every other one sweeps first. -/
theorem push_cases (now : Instant) (fragment : QuicUdpFragmentInput) (label : String)
    (reassembly_limit : UInt64) :
    (¬ (fragment.fragment_id < fragment.fragment_count ∧ fragment.payload ≠ []) ∧ ∃ err bytes,
        self.push_at_with_reassembly_limit now fragment label reassembly_limit
          = (.error err, self.reject bytes))
      ∨ fragment.fragment_id < fragment.fragment_count ∧ ∃ outcome b,
        self.push_at_with_reassembly_limit now fragment label reassembly_limit = (outcome, b)
          ∧ Pushed (self.expire_at now) now fragment label
            (min reassembly_limit.toNat self.max_reassembled_bytes.toNat) outcome b := by
  rw [push_at_with_reassembly_limit]
  split_ifs with hfields hempty
  · refine .inl ⟨fun h => ?_, _, _, rfl⟩
    rcases hfields with hzero | hle
    · rw [hzero] at h
      exact absurd h.1 (UInt8.not_lt.mpr (UInt8.zero_le))
    · exact absurd h.1 (UInt8.not_lt.mpr hle)
  · exact .inl ⟨fun h => h.2 (List.isEmpty_iff.mp hempty), _, _, rfl⟩
  · exact .inr ⟨UInt8.not_le.mp (not_or.mp hfields).2, _, _, rfl, push_valid_cases _⟩

/-! ### What no call changes -/

def settings (self : QuicUdpFragmentBuffer) : QuicUdpDatagramResourceProfile × UInt64 :=
  (self.resources, self.max_reassembled_bytes)

theorem settings_remove_pending : (self.remove_pending packet_id).settings = self.settings := by
  rw [remove_pending]
  cases self.pending[packet_id]? <;> rfl

theorem settings_expire_packets (packet_ids : List UInt16) :
    (packet_ids.foldl (fun self packet_id => self.expire_packet now packet_id) self).settings
      = self.settings := by
  induction packet_ids generalizing self with
  | nil => rfl
  | cons packet_id packet_ids ih =>
    rw [List.foldl_cons, ih]
    exact settings_remove_pending packet_id

theorem settings_expire_at (now : Instant) : (self.expire_at now).settings = self.settings := by
  rw [expire_at]
  split_ifs
  · rfl
  · exact settings_expire_packets _

theorem settings_push (now : Instant) (fragment : QuicUdpFragmentInput) (label : String)
    (reassembly_limit : UInt64) :
    (self.push_at_with_reassembly_limit now fragment label reassembly_limit).2.settings
      = self.settings := by
  rcases self.push_cases now fragment label reassembly_limit with
    ⟨-, err, bytes, heq⟩ | ⟨-, outcome, b, heq, hpushed⟩
  · rw [heq]
    rfl
  · rw [heq]
    refine Eq.trans ?_ (settings_expire_at now)
    cases hpushed with
    | refused err hb =>
      cases hb with
      | overflow | rejected bytes => rfl
      | discarded bytes hbudget => exact settings_remove_pending _
    | single hcount | late hlate | stored a hnew hcount ha hpart
    | completed a hnew hcount ha hpart => rfl

end QuicUdpFragmentBuffer
end DaeNext.Quic
