/-
The table of replay windows, one for each server session.

An active session has a window; when there are too many, the one used least recently is put in
quarantine, where all of its packets are rejected. A session is forgotten after `retention_secs`
without an accepted packet, or in quarantine. So a packet that was accepted is rejected while its
session is known, and the session is known for the retention after the packet: `Remembers` says
so of one packet, and `check` keeps it.
-/
import DaeNext.LibRun
import DaeNext.LibSaturating
import DaeNext.LibTableTotal
import DaeNext.LibVec
import DaeNext.Socks5Address
import DaeNext.Ss2022Window
import Mathlib.Algebra.Ring.Int.Defs

set_option autoImplicit false

namespace DaeNext.Ss2022

open Table Saturating

def DEFAULT_ACTIVE_WINDOW_LIMIT : Nat := 16
def DEFAULT_RETAINED_SESSION_LIMIT : Nat := 64
def DEFAULT_ESTIMATED_BYTE_LIMIT : Nat := 64 * 1024
def HASH_ENTRY_ESTIMATED_OVERHEAD : Nat := 2 * 8
def SERVER_SESSION_RETENTION_SECS : UInt64 := 60

/-! ## Policy -/

structure Ss2022UdpReplayPolicy where
  window_size : Nat := UDP_REPLAY_WINDOW_SIZE
  active_window_limit : Nat := DEFAULT_ACTIVE_WINDOW_LIMIT
  retained_session_limit : Nat := DEFAULT_RETAINED_SESSION_LIMIT
  estimated_byte_limit : Nat := DEFAULT_ESTIMATED_BYTE_LIMIT
  retention_secs : UInt64 := SERVER_SESSION_RETENTION_SECS
  deriving DecidableEq, Repr

def invalid_policy (message : String) : OutboundError :=
  .BadShadowsocks s!"invalid SS2022 UDP replay policy: {message}"

/-- A session id and its window take 64 octets, on a machine of 64 bits. -/
def active_window_charge (window_size : Nat) : Nat :=
  Saturating.usize_add (Saturating.usize_add 64 (Saturating.usize_mul ((window_size + 63) / 64) 8))
    HASH_ENTRY_ESTIMATED_OVERHEAD

def quarantined_session_charge : Nat := Saturating.usize_add 16 HASH_ENTRY_ESTIMATED_OVERHEAD

def estimated_table_bytes (window_size active_windows quarantined_sessions : Nat) : Nat :=
  Saturating.usize_add (Saturating.usize_mul active_windows (active_window_charge window_size))
    (Saturating.usize_mul quarantined_sessions quarantined_session_charge)

def Ss2022UdpReplayPolicy.validate (self : Ss2022UdpReplayPolicy) : Except OutboundError Unit :=
  if self.window_size = 0 then .error (invalid_policy "replay window size must be non-zero")
  else if self.active_window_limit = 0 then
    .error (invalid_policy "active replay window limit must be non-zero")
  else if self.retained_session_limit < self.active_window_limit then
    .error (invalid_policy "retained session limit must cover active replay windows")
  else if self.retention_secs = 0 then
    .error (invalid_policy "server session retention must be non-zero")
  else if self.estimated_byte_limit < active_window_charge self.window_size then
    .error (invalid_policy "estimated byte limit cannot hold one replay window")
  else .ok ()

/-! ## The table -/

structure ActiveReplayWindow where
  filter : SlidingWindowFilter
  last_valid_at : UInt64
  last_access_order : UInt64
  deriving DecidableEq, Repr

structure QuarantinedSession where
  retired_at : UInt64
  deriving DecidableEq, Repr

structure Ss2022UdpReplayMetricsSnapshot where
  active_windows : Nat := 0
  quarantined_sessions : Nat := 0
  retained_sessions : Nat := 0
  estimated_bytes : Nat := 0
  high_water_retained_sessions : Nat := 0
  high_water_estimated_bytes : Nat := 0
  replay_rejections : UInt64 := 0
  lru_evictions : UInt64 := 0
  ttl_expirations : UInt64 := 0
  saturation_rejections : UInt64 := 0
  deriving DecidableEq, Repr

/-- Session ids are eight octets, taken as a number: it has their equality and order. -/
structure Ss2022UdpReplayTable where
  policy : Ss2022UdpReplayPolicy
  active : Table UInt64 ActiveReplayWindow
  quarantined : Table UInt64 QuarantinedSession
  access_order : UInt64
  next_expiry : Option UInt64
  metrics : Ss2022UdpReplayMetricsSnapshot

def replay_error : OutboundError := .BadShadowsocks "SS2022 UDP replay attack detected"

/-- `Option::map_or` with `min`: the earlier of two deadlines. -/
def earlier (old : Option UInt64) (deadline : UInt64) : UInt64 :=
  match old with
  | none => deadline
  | some old => if old ≤ deadline then old else deadline

namespace Ss2022UdpReplayTable

def from_valid_policy (policy : Ss2022UdpReplayPolicy) : Ss2022UdpReplayTable where
  policy := policy
  active := ∅
  quarantined := ∅
  access_order := 0
  next_expiry := none
  metrics := {}

def new (policy : Ss2022UdpReplayPolicy) : Except OutboundError Ss2022UdpReplayTable := do
  policy.validate
  pure (from_valid_policy policy)

def refresh_current_metrics (self : Ss2022UdpReplayTable) : Ss2022UdpReplayTable :=
  let retained := Saturating.usize_add self.active.size self.quarantined.size
  let bytes := estimated_table_bytes self.policy.window_size self.active.size self.quarantined.size
  { self with
    metrics := { self.metrics with
      active_windows := self.active.size
      quarantined_sessions := self.quarantined.size
      retained_sessions := retained
      estimated_bytes := bytes
      high_water_retained_sessions := max self.metrics.high_water_retained_sessions retained
      high_water_estimated_bytes := max self.metrics.high_water_estimated_bytes bytes } }

def deadlines (self : Ss2022UdpReplayTable) : List UInt64 :=
  (self.active.values.map (·.last_valid_at) ++ self.quarantined.values.map (·.retired_at)).map
    (Saturating.add · self.policy.retention_secs)

def expire (self : Ss2022UdpReplayTable) (now : UInt64) : Ss2022UdpReplayTable :=
  if self.next_expiry.any (now < ·) then self
  else
    let active := self.active.filter fun _ window =>
      Saturating.sub now window.last_valid_at < self.policy.retention_secs
    let quarantined := self.quarantined.filter fun _ session =>
      Saturating.sub now session.retired_at < self.policy.retention_secs
    let expired := Saturating.usize_add (self.active.size - active.size)
      (self.quarantined.size - quarantined.size)
    let self := { self with active := active, quarantined := quarantined }
    let self := { self with
      next_expiry := self.deadlines.foldl (fun least deadline => some (earlier least deadline)) none
      metrics := { self.metrics with
        ttl_expirations := Saturating.add self.metrics.ttl_expirations (UInt64.ofNat expired) } }
    self.refresh_current_metrics

/-- A packet is rejected as a replay. -/
def reject_replay (self : Ss2022UdpReplayTable) : Except OutboundError Unit × Ss2022UdpReplayTable :=
  (.error replay_error,
    { self with
      metrics := { self.metrics with
        replay_rejections := Saturating.add self.metrics.replay_rejections 1 } })

/-- The session to make room with: the one used least recently, and of those with the same
order the one with the least id. -/
def evicted_session (self : Ss2022UdpReplayTable) : Option UInt64 :=
  if self.policy.active_window_limit ≤ self.active.size then
    (Vec.min_by_key (fun entry => (entry.2.last_access_order.toNat * 2 ^ 64 + entry.1.toNat : Int))
      self.active.toList).map Prod.fst
  else none

/-- Whether one more session fits, once `evicted` is in quarantine. -/
def is_saturated (self : Ss2022UdpReplayTable) (evicted : Option UInt64) : Bool :=
  let projected_active := self.active.size + (if evicted.isNone then 1 else 0)
  let projected_quarantined := self.quarantined.size + (if evicted.isSome then 1 else 0)
  let projected_retained := Saturating.usize_add projected_active projected_quarantined
  let projected_bytes :=
    estimated_table_bytes self.policy.window_size projected_active projected_quarantined
  self.policy.retained_session_limit < projected_retained ||
    self.policy.estimated_byte_limit < projected_bytes

def retire (self : Ss2022UdpReplayTable) (evicted : Option UInt64) (now : UInt64) :
    Ss2022UdpReplayTable :=
  match evicted with
  | none => self
  | some session =>
    { self with
      active := self.active.erase session
      quarantined := self.quarantined.insert session ⟨now⟩
      metrics := { self.metrics with
        lru_evictions := Saturating.add self.metrics.lru_evictions 1 } }

def check_active (self : Ss2022UdpReplayTable) (session_id packet_id now : UInt64)
    (window : ActiveReplayWindow) : Except OutboundError Unit × Ss2022UdpReplayTable :=
  let (accepted, filter) := window.filter.check_and_update packet_id
  let window := { window with filter := filter }
  if accepted = false then
    reject_replay { self with active := self.active.insert session_id window }
  else
    let window := { window with last_valid_at := now, last_access_order := self.access_order }
    let deadline := Saturating.add now self.policy.retention_secs
    (.ok (),
      { self with
        active := self.active.insert session_id window
        next_expiry := some (earlier self.next_expiry deadline) })

def check_new (self : Ss2022UdpReplayTable) (session_id packet_id now : UInt64) :
    Except OutboundError Unit × Ss2022UdpReplayTable :=
  let evicted := self.evicted_session
  if self.is_saturated evicted then
    let self := { self with
      metrics := { self.metrics with
        saturation_rejections := Saturating.add self.metrics.saturation_rejections 1 } }
    (.error (.BadShadowsocks "SS2022 UDP replay state is saturated"), self.refresh_current_metrics)
  else
    let self := self.retire evicted now
    let (_, filter) := (SlidingWindowFilter.new self.policy.window_size).check_and_update packet_id
    let window : ActiveReplayWindow :=
      { filter := filter, last_valid_at := now, last_access_order := self.access_order }
    let deadline := Saturating.add now self.policy.retention_secs
    let self := { self with
      active := self.active.insert session_id window
      next_expiry := some (earlier self.next_expiry deadline) }
    (.ok (), self.refresh_current_metrics)

/-- The start of a check: what is too old goes, and one more access is counted. -/
def ready (self : Ss2022UdpReplayTable) (now : UInt64) : Ss2022UdpReplayTable :=
  let self := self.expire now
  { self with access_order := Saturating.add self.access_order 1 }

def check (self : Ss2022UdpReplayTable) (session_id packet_id now : UInt64) :
    Except OutboundError Unit × Ss2022UdpReplayTable :=
  let self := self.ready now
  match self.active[session_id]? with
  | some window => self.check_active session_id packet_id now window
  | none =>
    if self.quarantined.contains session_id then self.reject_replay
    else self.check_new session_id packet_id now

/-! ## What a check does to the lookups -/

variable {window : ActiveReplayWindow}

section

variable {self : Ss2022UdpReplayTable} {session_id packet_id now : UInt64}

theorem policy_expire (self : Ss2022UdpReplayTable) (now : UInt64) :
    (self.expire now).policy = self.policy := by
  rw [expire]
  split_ifs with hlater
  · rfl
  · rfl

/-- What is dropped from a table by its age is at least as old as the retention. -/
theorem filter_age {β : Type} (t : Table UInt64 β) (last_seen : β → UInt64)
    (now retention session : UInt64) :
    (t.filter fun _ v => sub now (last_seen v) < retention)[session]? = t[session]? ∨
      ∃ v, t[session]? = some v ∧
        (t.filter fun _ v => sub now (last_seen v) < retention)[session]? = none ∧
        retention.toNat ≤ now.toNat - (last_seen v).toNat := by
  rw [getElem?_filter]
  cases hv : t[session]? with
  | none => exact Or.inl rfl
  | some v =>
    by_cases hlive : sub now (last_seen v) < retention
    · exact Or.inl (Option.filter_some_pos (decide_eq_true hlive))
    · refine Or.inr ⟨v, rfl, Option.filter_some_neg (by simpa using hlive), ?_⟩
      rw [← toNat_sub]
      exact UInt64.le_iff_toNat_le.mp (UInt64.not_lt.mp hlive)

theorem expire_active (self : Ss2022UdpReplayTable) (now session : UInt64) :
    (self.expire now).active[session]? = self.active[session]? ∨
      ∃ window, self.active[session]? = some window ∧
        (self.expire now).active[session]? = none ∧
        self.policy.retention_secs.toNat ≤ now.toNat - window.last_valid_at.toNat := by
  rw [expire]
  split_ifs with hlater
  · exact Or.inl rfl
  · exact filter_age self.active (·.last_valid_at) now self.policy.retention_secs session

theorem expire_quarantined (self : Ss2022UdpReplayTable) (now session : UInt64) :
    (self.expire now).quarantined[session]? = self.quarantined[session]? ∨
      ∃ retired, self.quarantined[session]? = some retired ∧
        (self.expire now).quarantined[session]? = none ∧
        self.policy.retention_secs.toNat ≤ now.toNat - retired.retired_at.toNat := by
  rw [expire]
  split_ifs with hlater
  · exact Or.inl rfl
  · exact filter_age self.quarantined (·.retired_at) now self.policy.retention_secs session

/-- The lookups after a check, in terms of those after the expiry. -/
inductive Checked (t t' : Ss2022UdpReplayTable) (session_id packet_id now : UInt64) :
    Except OutboundError Unit → Prop where
  /-- Nothing but counters changes. -/
  | rejected (err : OutboundError) (active : ∀ k : UInt64, t'.active[k]? = t.active[k]?)
      (quarantined : ∀ k : UInt64, t'.quarantined[k]? = t.quarantined[k]?) :
      Checked t t' session_id packet_id now (.error err)
  /-- The window of a known session accepts. -/
  | known (window : ActiveReplayWindow) (found : t.active[session_id]? = some window)
      (accepts : (window.filter.check_and_update packet_id).1 = true)
      (active : ∀ k : UInt64, t'.active[k]? = if k = session_id then
        some ⟨(window.filter.check_and_update packet_id).2, now, t.access_order⟩ else t.active[k]?)
      (quarantined : ∀ k : UInt64, t'.quarantined[k]? = t.quarantined[k]?) :
      Checked t t' session_id packet_id now (.ok ())
  /-- A session is added, and one may be put in quarantine for it. -/
  | added (evicted : Option UInt64) (unknown : t.active[session_id]? = none)
      (unretired : t.quarantined[session_id]? = none)
      (was_active : ∀ session, evicted = some session → t.active[session]? ≠ none)
      (active : ∀ k : UInt64, t'.active[k]? = if k = session_id then
        some ⟨((SlidingWindowFilter.new t.policy.window_size).check_and_update packet_id).2, now,
          t.access_order⟩ else if evicted = some k then none else t.active[k]?)
      (quarantined : ∀ k : UInt64, t'.quarantined[k]? =
        if evicted = some k then some ⟨now⟩ else t.quarantined[k]?) :
      Checked t t' session_id packet_id now (.ok ())

theorem evicted_session_active {session : UInt64} (h : self.evicted_session = some session) :
    self.active[session]? ≠ none := by
  rw [evicted_session] at h
  split_ifs at h with hfull
  obtain ⟨⟨session', window⟩, hmin, rfl⟩ := Option.map_eq_some_iff.mp h
  have hmem := (Vec.min_by_key_spec hmin).1
  rw [Std.TreeMap.mem_toList_iff_getElem?_eq_some.mp hmem]
  exact Option.some_ne_none window

theorem active_retire (self : Ss2022UdpReplayTable) (evicted : Option UInt64) (now k : UInt64) :
    (self.retire evicted now).active[k]? = if evicted = some k then none else self.active[k]? := by
  cases evicted with
  | none => rw [retire, if_neg nofun]
  | some session =>
    change (self.active.erase session)[k]? = _
    rw [getElem?_erase]
    exact if_congr (eq_comm.trans Option.some_inj.symm) rfl rfl

theorem quarantined_retire (self : Ss2022UdpReplayTable) (evicted : Option UInt64)
    (now k : UInt64) : (self.retire evicted now).quarantined[k]?
      = if evicted = some k then some ⟨now⟩ else self.quarantined[k]? := by
  cases evicted with
  | none => rw [retire, if_neg nofun]
  | some session =>
    change (self.quarantined.insert session ⟨now⟩)[k]? = _
    rw [getElem?_insert]
    exact if_congr (eq_comm.trans Option.some_inj.symm) rfl rfl

theorem retire_frame (self : Ss2022UdpReplayTable) (evicted : Option UInt64) (now : UInt64) :
    (self.retire evicted now).policy = self.policy ∧
      (self.retire evicted now).access_order = self.access_order ∧
      (self.retire evicted now).next_expiry = self.next_expiry := by
  cases evicted with
  | none | some session => exact ⟨rfl, rfl, rfl⟩

theorem checked_new (hactive : self.active[session_id]? = none)
    (hquarantined : self.quarantined[session_id]? = none) :
    Checked self (self.check_new session_id packet_id now).2 session_id packet_id now
      (self.check_new session_id packet_id now).1 := by
  rw [check_new]
  dsimp only
  split_ifs with hsaturated
  · exact .rejected _ (fun _ => rfl) (fun _ => rfl)
  · obtain ⟨hpolicy, horder, -⟩ := retire_frame self self.evicted_session now
    refine .added self.evicted_session hactive hquarantined
      (fun session h => evicted_session_active h) ?_ (fun k => quarantined_retire self _ now k)
    intro k
    change ((self.retire self.evicted_session now).active.insert session_id _)[k]? = _
    rw [getElem?_insert, active_retire, hpolicy, horder]

theorem checked_active {ids : List UInt64} (hwindow : self.active[session_id]? = some window)
    (htracks : window.filter.Tracks ids) :
    Checked self (self.check_active session_id packet_id now window).2 session_id packet_id now
      (self.check_active session_id packet_id now window).1 := by
  rw [check_active]
  rcases htracks.check_and_update packet_id with ⟨hok, -, -⟩ | ⟨heq, -⟩
  · rcases hcheck : window.filter.check_and_update packet_id with ⟨accepted, filter⟩
    rw [hcheck] at hok
    obtain rfl : accepted = true := hok
    refine .known window hwindow (by rw [hcheck]) ?_ (fun _ => rfl)
    intro k
    change (self.active.insert session_id _)[k]? = _
    rw [getElem?_insert, hcheck]
  · rw [heq]
    refine .rejected _ ?_ (fun _ => rfl)
    intro k
    change (self.active.insert session_id window)[k]? = _
    rw [getElem?_insert]
    split_ifs with hk
    · rw [hk, hwindow]
    · rfl

end

/-- Windows track what they accepted, and no session is both active and in quarantine. -/
structure WellFormed (t : Ss2022UdpReplayTable) : Prop where
  retention_pos : 0 < t.policy.retention_secs.toNat
  tracked : ∀ (k : UInt64) (window : ActiveReplayWindow), t.active[k]? = some window →
    ∃ ids, window.filter.Tracks ids
  disjoint : ∀ k : UInt64, t.quarantined[k]? ≠ none → t.active[k]? = none

variable {t : Ss2022UdpReplayTable}

theorem WellFormed.expire (h : WellFormed t) (now : UInt64) : WellFormed (t.expire now) := by
  refine ⟨by rw [policy_expire]; exact h.retention_pos, ?_, ?_⟩
  · intro k window hwindow
    rcases expire_active t now k with hsame | ⟨_, _, hnone, _⟩
    · exact h.tracked k window (hsame.symm.trans hwindow)
    · rw [hnone] at hwindow
      cases hwindow
  · intro k hq
    have hq' : t.quarantined[k]? ≠ none := by
      rcases expire_quarantined t now k with hsame | ⟨_, _, hnone, _⟩
      · rw [← hsame]
        exact hq
      · exact absurd hnone hq
    rcases expire_active t now k with hsame | ⟨_, _, hnone, _⟩
    · rw [hsame]
      exact h.disjoint k hq'
    · exact hnone

theorem WellFormed.ready (h : WellFormed t) (now : UInt64) : WellFormed (t.ready now) :=
  ⟨(h.expire now).retention_pos, (h.expire now).tracked, (h.expire now).disjoint⟩

theorem checked_check (h : WellFormed t) (session_id packet_id now : UInt64) :
    Checked (t.ready now) (t.check session_id packet_id now).2 session_id packet_id now
      (t.check session_id packet_id now).1 := by
  have hready := h.ready now
  rw [check]
  cases hwindow : (t.ready now).active[session_id]? with
  | some window =>
    obtain ⟨ids, htracks⟩ := hready.tracked session_id window hwindow
    exact checked_active hwindow htracks
  | none =>
    split_ifs with hquarantined
    · exact .rejected _ (fun _ => rfl) (fun _ => rfl)
    · apply checked_new hwindow
      rw [Std.TreeMap.contains_eq_isSome_getElem?] at hquarantined
      exact Option.not_isSome_iff_eq_none.mp hquarantined

/-! ## Packets that were accepted -/

/-- The session of a packet accepted at `accepted_at` is known, and known to have had it. -/
def Remembers (t : Ss2022UdpReplayTable) (session_id packet_id accepted_at : UInt64) : Prop :=
  (∃ window ids, t.active[session_id]? = some window ∧ window.filter.Tracks ids ∧
    packet_id ∈ ids ∧ accepted_at.toNat ≤ window.last_valid_at.toNat) ∨
  ∃ retired, t.quarantined[session_id]? = some retired ∧
    accepted_at.toNat ≤ retired.retired_at.toNat

/-- At time `now` the packet is remembered, or the retention is over. -/
structure Covers (t : Ss2022UdpReplayTable) (now session_id packet_id accepted_at : UInt64) :
    Prop where
  accepted_before : accepted_at.toNat ≤ now.toNat
  covered : Remembers t session_id packet_id accepted_at ∨
    accepted_at.toNat + t.policy.retention_secs.toNat ≤ now.toNat

section

variable {t : Ss2022UdpReplayTable} {session_id packet_id accepted_at before now : UInt64}

theorem Covers.mono (h : Covers t before session_id packet_id accepted_at)
    (hclock : before.toNat ≤ now.toNat) : Covers t now session_id packet_id accepted_at :=
  ⟨Nat.le_trans h.accepted_before hclock, h.covered.imp_right fun hover => Nat.le_trans hover hclock⟩

theorem policy_check (t : Ss2022UdpReplayTable) (session_id packet_id now : UInt64) :
    (t.check session_id packet_id now).2.policy = t.policy := by
  rw [← policy_expire t now, check]
  cases (t.ready now).active[session_id]? with
  | some window =>
    dsimp only
    rw [check_active]
    dsimp only
    split_ifs with haccepted
    · rfl
    · rfl
  | none =>
    split_ifs with hquarantined
    · rfl
    · rw [check_new]
      split_ifs with hsaturated
      · rfl
      · exact (retire_frame (t.ready now) _ now).1

/-- Time passes: a session that is dropped has been kept for the retention. -/
theorem Covers.ready (h : Covers t before session_id packet_id accepted_at)
    (hclock : before.toNat ≤ now.toNat) : Covers (t.ready now) now session_id packet_id accepted_at := by
  have hpolicy : (t.ready now).policy = t.policy := policy_expire t now
  have hbefore := h.accepted_before
  refine ⟨by omega, ?_⟩
  rw [hpolicy]
  rcases h.covered with (⟨window, ids, hwindow, htracks, hmem, hle⟩ | ⟨retired, hretired, hle⟩) | hover
  · rcases expire_active t now session_id with hsame | ⟨window', hwindow', -, hage⟩
    · exact Or.inl (Or.inl ⟨window, ids, hsame.trans hwindow, htracks, hmem, hle⟩)
    · obtain rfl := Option.some.inj (hwindow.symm.trans hwindow')
      exact Or.inr (by omega)
  · rcases expire_quarantined t now session_id with hsame | ⟨retired', hretired', -, hage⟩
    · exact Or.inl (Or.inr ⟨retired, hsame.trans hretired, hle⟩)
    · obtain rfl := Option.some.inj (hretired.symm.trans hretired')
      exact Or.inr (by omega)
  · exact Or.inr (by omega)

theorem tracks_first (window_size : Nat) (packet_id : UInt64) :
    ((SlidingWindowFilter.new window_size).check_and_update packet_id).2.Tracks [packet_id] := by
  rcases (SlidingWindowFilter.tracks_new window_size).check_and_update packet_id with
    ⟨-, -, htracks⟩ | ⟨-, hstale⟩
  · exact htracks
  · exact absurd ⟨List.not_mem_nil, nofun⟩ hstale

theorem tracks_next {ids : List UInt64} (htracks : window.filter.Tracks ids)
    (haccepts : (window.filter.check_and_update packet_id).1 = true) :
    (window.filter.check_and_update packet_id).2.Tracks (packet_id :: ids) := by
  rcases htracks.check_and_update packet_id with ⟨-, -, hnext⟩ | ⟨heq, -⟩
  · exact hnext
  · rw [heq] at haccepts
    cases haccepts

theorem WellFormed.check (hw : WellFormed t) (session_id packet_id now : UInt64) :
    WellFormed (t.check session_id packet_id now).2 := by
  have hready := hw.ready now
  have hretention : 0 < (t.check session_id packet_id now).2.policy.retention_secs.toNat := by
    rw [policy_check]
    exact hw.retention_pos
  have hchecked := checked_check hw session_id packet_id now
  generalize (t.check session_id packet_id now).1 = result at hchecked
  cases hchecked with
  | rejected err hactive hquarantined =>
    refine ⟨hretention, ?_, ?_⟩
    · intro k window hwindow
      exact hready.tracked k window ((hactive k).symm.trans hwindow)
    · intro k hq
      rw [hactive k]
      exact hready.disjoint k (by rw [← hquarantined k]; exact hq)
  | known window hfound haccepts hactive hquarantined =>
    obtain ⟨ids, htracks⟩ := hready.tracked session_id window hfound
    refine ⟨hretention, ?_, ?_⟩
    · intro k window' hwindow'
      rw [hactive k] at hwindow'
      split_ifs at hwindow' with hk
      · rw [← Option.some.inj hwindow']
        exact ⟨packet_id :: ids, tracks_next htracks haccepts⟩
      · exact hready.tracked k window' hwindow'
    · intro k hq
      rw [hquarantined k] at hq
      have hnone := hready.disjoint k hq
      rw [hactive k, if_neg ?_]
      · exact hnone
      · rintro rfl
        rw [hfound] at hnone
        cases hnone
  | added evicted hunknown hunretired hwas hactive hquarantined =>
    refine ⟨hretention, ?_, ?_⟩
    · intro k window' hwindow'
      rw [hactive k] at hwindow'
      split_ifs at hwindow' with hk hevicted
      · rw [← Option.some.inj hwindow']
        exact ⟨[packet_id], tracks_first _ packet_id⟩
      · exact hready.tracked k window' hwindow'
    · intro k hq
      rw [hquarantined k] at hq
      -- the new session was not in quarantine, and the evicted one was active
      have hk : k ≠ session_id := by
        rintro rfl
        split_ifs at hq with hevicted
        · exact hwas k hevicted hunknown
        · exact hq hunretired
      rw [hactive k, if_neg hk]
      split_ifs at hq ⊢ with hevicted
      · rfl
      · exact hready.disjoint k hq

theorem Covers.check (hw : WellFormed t) (h : Covers t before session_id packet_id accepted_at)
    (hclock : before.toNat ≤ now.toNat) (session_id' packet_id' : UInt64) :
    Covers (t.check session_id' packet_id' now).2 now session_id packet_id accepted_at := by
  have hcovers := h.ready hclock
  have hpolicy : (t.check session_id' packet_id' now).2.policy = (t.ready now).policy := by
    rw [policy_check]
    exact (policy_expire t now).symm
  have hchecked := checked_check hw session_id' packet_id' now
  have hbefore := hcovers.accepted_before
  refine ⟨hbefore, ?_⟩
  rw [hpolicy]
  rcases hcovers.covered with hremembers | hover
  swap
  · exact Or.inr hover
  refine Or.inl ?_
  generalize (t.check session_id' packet_id' now).1 = result at hchecked
  cases hchecked with
  | rejected err hactive hquarantined =>
    rw [Remembers, hactive, hquarantined]
    exact hremembers
  | known window hfound haccepts hactive hquarantined =>
    rw [Remembers, hactive, hquarantined]
    rcases hremembers with ⟨window', ids, hwindow', htracks, hmem, hle⟩ | hretired
    · refine Or.inl ?_
      by_cases hk : session_id = session_id'
      · rw [hk] at hwindow'
        obtain rfl := Option.some.inj (hfound.symm.trans hwindow')
        exact ⟨_, packet_id' :: ids, if_pos hk, tracks_next htracks haccepts,
          List.mem_cons_of_mem _ hmem, hbefore⟩
      · exact ⟨window', ids, (if_neg hk).trans hwindow', htracks, hmem, hle⟩
    · exact Or.inr hretired
  | added evicted hunknown hunretired hwas hactive hquarantined =>
    rw [Remembers, hactive, hquarantined]
    by_cases hevicted : evicted = some session_id
    · exact Or.inr ⟨⟨now⟩, if_pos hevicted, hbefore⟩
    rw [if_neg hevicted, if_neg hevicted]
    rcases hremembers with ⟨window', ids, hwindow', htracks, hmem, hle⟩ | hretired
    · refine Or.inl ⟨window', ids, ?_, htracks, hmem, hle⟩
      rw [if_neg ?_]
      · exact hwindow'
      · rintro rfl
        rw [hunknown] at hwindow'
        cases hwindow'
    · exact Or.inr hretired

theorem covers_accepted (hw : WellFormed t) (h : (t.check session_id packet_id now).1 = .ok ()) :
    Covers (t.check session_id packet_id now).2 now session_id packet_id now := by
  have hready := hw.ready now
  have hchecked := checked_check hw session_id packet_id now
  refine ⟨le_rfl, Or.inl (Or.inl ?_)⟩
  rw [h] at hchecked
  cases hchecked with
  | known window hfound haccepts hactive hquarantined =>
    obtain ⟨ids, htracks⟩ := hready.tracked session_id window hfound
    exact ⟨_, packet_id :: ids, by rw [hactive, if_pos rfl],
      tracks_next htracks haccepts, List.mem_cons_self, le_rfl⟩
  | added evicted hunknown hunretired hwas hactive hquarantined =>
    exact ⟨_, [packet_id], by rw [hactive, if_pos rfl], tracks_first _ packet_id,
      List.mem_cons_self, le_rfl⟩

/-- **A packet is accepted again only when the retention is over.** -/
theorem Covers.retention_over (hw : WellFormed t)
    (h : Covers t before session_id packet_id accepted_at) (hclock : before.toNat ≤ now.toNat)
    (hok : (t.check session_id packet_id now).1 = .ok ()) :
    accepted_at.toNat + t.policy.retention_secs.toNat ≤ now.toNat := by
  have hready := hw.ready now
  have hchecked := checked_check hw session_id packet_id now
  rw [← policy_expire t now]
  rcases (h.ready hclock).covered with hremembers | hover
  swap
  · exact hover
  exfalso
  rw [hok] at hchecked
  cases hchecked with
  | known window hfound haccepts hactive hquarantined =>
    rcases hremembers with ⟨window', ids, hwindow', htracks, hmem, -⟩ | ⟨retired, hretired, -⟩
    · obtain rfl := Option.some.inj (hfound.symm.trans hwindow')
      rcases htracks.check_and_update packet_id with ⟨-, hfresh, -⟩ | ⟨heq, -⟩
      · exact hfresh.1 hmem
      · rw [heq] at haccepts
        cases haccepts
    · have hnone := hready.disjoint session_id (by rw [hretired]; exact Option.some_ne_none _)
      rw [hfound] at hnone
      cases hnone
  | added evicted hunknown hunretired hwas hactive hquarantined =>
    rcases hremembers with ⟨window', ids, hwindow', -⟩ | ⟨retired, hretired, -⟩
    · rw [hunknown] at hwindow'
      cases hwindow'
    · rw [hunretired] at hretired
      cases hretired

/-! ## A table that has forgotten everything -/

structure Empty (t : Ss2022UdpReplayTable) : Prop where
  active : ∀ k : UInt64, t.active[k]? = none
  quarantined : ∀ k : UInt64, t.quarantined[k]? = none

theorem size_eq_zero {β : Type} {m : Table UInt64 β} (h : ∀ k : UInt64, m[k]? = none) : m.size = 0 := by
  have hempty := (isEmpty_iff m).mpr h
  rw [Std.TreeMap.isEmpty_eq_size_eq_zero] at hempty
  exact eq_of_beq hempty

theorem validate_ok {policy : Ss2022UdpReplayPolicy} (h : policy.validate = .ok ()) :
    0 < policy.active_window_limit ∧ policy.active_window_limit ≤ policy.retained_session_limit ∧
      0 < policy.retention_secs.toNat ∧
      active_window_charge policy.window_size ≤ policy.estimated_byte_limit := by
  rw [Ss2022UdpReplayPolicy.validate] at h
  split_ifs at h with hwindow hlimit hretained hretention hbytes
  refine ⟨by omega, by omega, ?_, by omega⟩
  exact Nat.pos_of_ne_zero (fun hzero => hretention (UInt64.toNat_inj.mp hzero))

/-- The table knows one session, whose last packet was accepted at `now`. -/
structure Single (t : Ss2022UdpReplayTable) (session_id now : UInt64) : Prop where
  active : ∃ window : ActiveReplayWindow, window.last_valid_at = now ∧
    ∀ k : UInt64, t.active[k]? = if k = session_id then some window else none
  quarantined : ∀ k : UInt64, t.quarantined[k]? = none

theorem check_of_empty (h : Empty (t.ready now)) (hpolicy : t.policy.validate = .ok ())
    (session_id packet_id : UInt64) : (t.check session_id packet_id now).1 = .ok () ∧
      Single (t.check session_id packet_id now).2 session_id now ∧
      (t.check session_id packet_id now).2.next_expiry
        = some (earlier (t.ready now).next_expiry (add now t.policy.retention_secs)) := by
  have hsame : (t.ready now).policy = t.policy := policy_expire t now
  obtain ⟨hlimit, hretained, -, hbytes⟩ := validate_ok hpolicy
  have hactive := size_eq_zero h.active
  have hquarantined := size_eq_zero h.quarantined
  have hevicted : (t.ready now).evicted_session = none := by
    rw [evicted_session, hactive, hsame, if_neg (by omega)]
  have hfits : (t.ready now).is_saturated none = false := by
    rw [is_saturated, hactive, hquarantined, hsame, estimated_table_bytes, usize_add,
      usize_add, usize_mul, usize_mul]
    rw [Bool.or_eq_false_iff, decide_eq_false_iff_not, decide_eq_false_iff_not]
    simp only [Option.isNone_none, Option.isSome_none, if_true, Bool.false_eq_true, if_false]
    omega
  rw [check, h.active session_id]
  rw [Std.TreeMap.contains_eq_isSome_getElem?, h.quarantined session_id, if_neg (by decide),
    check_new, hevicted, hfits, ← hsame]
  let filter := (SlidingWindowFilter.new (t.ready now).policy.window_size).check_and_update packet_id
  refine ⟨rfl, ⟨⟨⟨filter.2, now, (t.ready now).access_order⟩, rfl, ?_⟩, h.quarantined⟩, rfl⟩
  intro k
  change ((t.ready now).active.insert session_id _)[k]? = _
  rw [getElem?_insert, h.active k]
  rfl

theorem ready_new (policy : Ss2022UdpReplayPolicy) (now : UInt64) :
    Empty ((from_valid_policy policy).ready now) ∧
      ((from_valid_policy policy).ready now).next_expiry = none := by
  refine ⟨⟨?_, ?_⟩, rfl⟩
  · intro k
    rfl
  · intro k
    rfl

theorem Single.forgets (h : Single t session_id before)
    (hexpiry : ∀ deadline, t.next_expiry = some deadline → deadline.toNat ≤ now.toNat)
    (hover : before.toNat + t.policy.retention_secs.toNat ≤ now.toNat) : Empty (t.ready now) := by
  obtain ⟨window, hlast, hactive⟩ := h.active
  have hdue : (t.next_expiry.any (now < ·)) = false := by
    cases hnext : t.next_expiry with
    | none => rfl
    | some deadline =>
      have hle := hexpiry deadline hnext
      rw [Option.any_some, decide_eq_false_iff_not, UInt64.not_lt, UInt64.le_iff_toNat_le]
      exact hle
  have hold : ¬sub now window.last_valid_at < t.policy.retention_secs := by
    rw [UInt64.not_lt, UInt64.le_iff_toNat_le, toNat_sub, hlast]
    omega
  rw [ready, expire, hdue, if_neg Bool.false_ne_true]
  constructor
  · intro k
    change (t.active.filter _)[k]? = none
    rw [getElem?_filter, hactive k]
    split_ifs with hk
    · exact Option.filter_some_neg (by simpa using hold)
    · rfl
  · intro k
    change (t.quarantined.filter _)[k]? = none
    rw [getElem?_filter, h.quarantined k]
    rfl

/-! ## Budgets -/

/-- The next expiry is set, and not later than the deadline. -/
def NoLater (next_expiry : Option UInt64) (deadline : UInt64) : Prop :=
  ∃ next, next_expiry = some next ∧ next ≤ deadline

theorem noLater_earlier (old : Option UInt64) (deadline : UInt64) :
    NoLater (some (earlier old deadline)) deadline := by
  refine ⟨_, rfl, ?_⟩
  cases old with
  | none => exact UInt64.le_refl _
  | some old =>
    rw [earlier]
    split_ifs with hle
    · exact hle
    · exact UInt64.le_refl _

theorem NoLater.earlier {old : Option UInt64} {stored : UInt64} (h : NoLater old stored)
    (deadline : UInt64) : NoLater (some (earlier old deadline)) stored := by
  obtain ⟨next, rfl, hnext⟩ := h
  refine ⟨_, rfl, ?_⟩
  rw [Ss2022.earlier]
  split_ifs with hle
  · exact hnext
  · exact UInt64.le_trans (UInt64.le_of_lt (UInt64.not_le.mp hle)) hnext

theorem noLater_foldl {stored : UInt64} (deadlines : List UInt64) (old : Option UInt64)
    (h : NoLater old stored ∨ stored ∈ deadlines) :
    NoLater (deadlines.foldl (fun least deadline => some (Ss2022.earlier least deadline)) old)
      stored := by
  induction deadlines generalizing old with
  | nil => exact h.resolve_right List.not_mem_nil
  | cons deadline deadlines ih =>
    refine ih _ ?_
    rcases h with hold | hmem
    · exact .inl (hold.earlier deadline)
    · rcases List.mem_cons.mp hmem with rfl | hmem
      · exact .inl (noLater_earlier old stored)
      · exact .inr hmem

/-- These numbers of sessions are within the policy. -/
structure Fits (policy : Ss2022UdpReplayPolicy) (active_windows quarantined_sessions : Nat) :
    Prop where
  active : active_windows ≤ policy.active_window_limit
  retained : Saturating.usize_add active_windows quarantined_sessions ≤ policy.retained_session_limit
  bytes : estimated_table_bytes policy.window_size active_windows quarantined_sessions
    ≤ policy.estimated_byte_limit

/-- The sessions are within the policy, and the next expiry is not later than the deadline of
any. -/
structure Budgeted (t : Ss2022UdpReplayTable) : Prop where
  fits : Fits t.policy t.active.size t.quarantined.size
  active : ∀ (k : UInt64) (window : ActiveReplayWindow), t.active[k]? = some window →
    NoLater t.next_expiry (Saturating.add window.last_valid_at t.policy.retention_secs)
  quarantined : ∀ (k : UInt64) (retired : QuarantinedSession), t.quarantined[k]? = some retired →
    NoLater t.next_expiry (Saturating.add retired.retired_at t.policy.retention_secs)

theorem estimates_mono {active active' quarantined quarantined' : Nat} (hactive : active ≤ active')
    (hquarantined : quarantined ≤ quarantined') (window_size : Nat) :
    usize_add active quarantined ≤ usize_add active' quarantined' ∧
      estimated_table_bytes window_size active quarantined
        ≤ estimated_table_bytes window_size active' quarantined' := by
  have hwindows := Nat.mul_le_mul_right (active_window_charge window_size) hactive
  have hsessions := Nat.mul_le_mul_right quarantined_session_charge hquarantined
  simp only [estimated_table_bytes, usize_add, usize_mul]
  omega

theorem Fits.mono {policy : Ss2022UdpReplayPolicy} {active active' quarantined quarantined' : Nat}
    (h : Fits policy active' quarantined') (hactive : active ≤ active')
    (hquarantined : quarantined ≤ quarantined') : Fits policy active quarantined := by
  obtain ⟨hretained, hbytes⟩ := estimates_mono hactive hquarantined policy.window_size
  exact ⟨hactive.trans h.active, hretained.trans h.retained, hbytes.trans h.bytes⟩

theorem mem_deadlines {k last_seen : UInt64}
    (h : (∃ window, t.active[k]? = some window ∧ window.last_valid_at = last_seen) ∨
      ∃ retired, t.quarantined[k]? = some retired ∧ retired.retired_at = last_seen) :
    add last_seen t.policy.retention_secs ∈ t.deadlines := by
  refine List.mem_map.mpr ⟨last_seen, List.mem_append.mpr (h.imp ?_ ?_), rfl⟩
  · rintro ⟨window, hwindow, rfl⟩
    exact List.mem_map.mpr ⟨window, mem_values hwindow, rfl⟩
  · rintro ⟨retired, hretired, rfl⟩
    exact List.mem_map.mpr ⟨retired, mem_values hretired, rfl⟩

theorem Budgeted.expire (h : Budgeted t) (now : UInt64) : Budgeted (t.expire now) := by
  rw [Ss2022UdpReplayTable.expire]
  split_ifs with hlater
  · exact h
  · refine ⟨h.fits.mono Std.TreeMap.size_filter_le_size Std.TreeMap.size_filter_le_size, ?_, ?_⟩
    · intro k window hwindow
      exact noLater_foldl _ none (.inr (mem_deadlines (.inl ⟨window, hwindow, rfl⟩)))
    · intro k retired hretired
      exact noLater_foldl _ none (.inr (mem_deadlines (.inr ⟨retired, hretired, rfl⟩)))

theorem Budgeted.check_active (h : Budgeted t) (hwindow : t.active[session_id]? = some window) :
    Budgeted (t.check_active session_id packet_id now window).2 := by
  have hfits := fun window' => h.fits.mono (size_insert_of_some hwindow window').le le_rfl
  rw [Ss2022UdpReplayTable.check_active]
  dsimp only
  split_ifs with hrejected
  · refine ⟨hfits _, ?_, h.quarantined⟩
    exact forall_insert (h.active session_id window hwindow) h.active
  · refine ⟨hfits _, ?_, fun k retired hretired => (h.quarantined k retired hretired).earlier _⟩
    exact forall_insert (noLater_earlier _ _)
      fun k window' hwindow' => (h.active k window' hwindow').earlier _

/-- One more session fits: the active limit is kept by the eviction, the others were checked. -/
theorem Fits.retire (h : Fits t.policy t.active.size t.quarantined.size)
    (hlimit : 0 < t.policy.active_window_limit) (hroom : t.is_saturated t.evicted_session = false)
    (window : ActiveReplayWindow) :
    Fits t.policy ((t.retire t.evicted_session now).active.insert session_id window).size
      (t.retire t.evicted_session now).quarantined.size := by
  rw [is_saturated, Bool.or_eq_false_iff, decide_eq_false_iff_not, decide_eq_false_iff_not,
    Nat.not_lt, Nat.not_lt] at hroom
  cases hevicted : t.evicted_session with
  | none =>
    rw [hevicted] at hroom
    have hnotfull : t.active.size < t.policy.active_window_limit := by
      rw [evicted_session] at hevicted
      split_ifs at hevicted with hfull
      · rw [Option.map_eq_none_iff, Vec.min_by_key_eq_none] at hevicted
        rw [← Std.TreeMap.length_toList, hevicted] at hfull
        exact absurd hlimit (Nat.not_lt.mpr hfull)
      · exact Nat.lt_of_not_le hfull
    exact Fits.mono ⟨hnotfull, hroom.1, hroom.2⟩ Std.TreeMap.size_insert_le le_rfl
  | some session =>
    rw [hevicted] at hroom
    have hmem : session ∈ t.active := by
      rw [Std.TreeMap.mem_iff_isSome_getElem?]
      exact Option.isSome_iff_ne_none.mpr (evicted_session_active hevicted)
    exact Fits.mono ⟨h.active, hroom.1, hroom.2⟩
      (Std.TreeMap.size_insert_le.trans (size_erase_lt hmem))
      Std.TreeMap.size_insert_le

theorem Budgeted.check_new (h : Budgeted t) (hlimit : 0 < t.policy.active_window_limit) :
    Budgeted (t.check_new session_id packet_id now).2 := by
  obtain ⟨hpolicy, -, hexpiry⟩ := retire_frame t t.evicted_session now
  rw [Ss2022UdpReplayTable.check_new]
  split_ifs with hsaturated
  · exact { h with }
  · constructor
    · simp only [refresh_current_metrics, hpolicy]
      exact h.fits.retire hlimit (Bool.eq_false_iff.mpr hsaturated) _
    · simp only [refresh_current_metrics, hpolicy, hexpiry]
      refine forall_insert (noLater_earlier _ _) fun k window hwindow => ?_
      rw [active_retire] at hwindow
      split_ifs at hwindow with hevicted
      exact (h.active k window hwindow).earlier _
    · simp only [refresh_current_metrics, hpolicy, hexpiry]
      intro k retired hretired
      rw [quarantined_retire] at hretired
      split_ifs at hretired with hevicted
      · cases hretired
        exact noLater_earlier _ _
      · exact (h.quarantined k retired hretired).earlier _

theorem Budgeted.check (h : Budgeted t) (hlimit : 0 < t.policy.active_window_limit)
    (session_id packet_id now : UInt64) : Budgeted (t.check session_id packet_id now).2 := by
  have hready : Budgeted (t.ready now) := { h.expire now with }
  rw [Ss2022UdpReplayTable.check]
  cases hwindow : (t.ready now).active[session_id]? with
  | some window => exact hready.check_active hwindow
  | none =>
    split_ifs with hquarantined
    · exact { hready with }
    · exact hready.check_new (by rw [ready, policy_expire]; exact hlimit)

end

/-- The table after packets given by session, packet id and time. -/
def after_checks (policy : Ss2022UdpReplayPolicy) (calls : List (UInt64 × UInt64 × UInt64)) :
    Ss2022UdpReplayTable :=
  Run.after (fun t call => (t.check call.1 call.2.1 call.2.2).2) (from_valid_policy policy) calls

/-- **The sessions stay within the policy, and only an accepted packet changes them.** -/
theorem sessions_within_policy (policy : Ss2022UdpReplayPolicy) (hpolicy : policy.validate = .ok ())
    (calls : List (UInt64 × UInt64 × UInt64)) :
    (after_checks policy calls).policy = policy ∧ Budgeted (after_checks policy calls) ∧
      (∀ k : UInt64, (after_checks policy calls).quarantined[k]? = none ∨
        (after_checks policy calls).active[k]? = none) ∧
      ∀ (session_id packet_id now : UInt64) (err : OutboundError),
        ((after_checks policy calls).check session_id packet_id now).1 = .error err →
          ∀ k : UInt64,
            ((after_checks policy calls).check session_id packet_id now).2.active[k]?
              = ((after_checks policy calls).expire now).active[k]? ∧
            ((after_checks policy calls).check session_id packet_id now).2.quarantined[k]?
              = ((after_checks policy calls).expire now).quarantined[k]? := by
  obtain ⟨hlimit, -, hretention, -⟩ := validate_ok hpolicy
  have hrun : (after_checks policy calls).policy = policy ∧ Budgeted (after_checks policy calls) ∧
      WellFormed (after_checks policy calls) := by
    refine Run.invariant (P := fun _ t => t.policy = policy ∧ Budgeted t ∧ WellFormed t) ?_ ?_ calls
    · refine ⟨rfl, ⟨⟨Nat.zero_le _, Nat.zero_le _, ?_⟩, ?_, ?_⟩, hretention, ?_, ?_⟩
      · simp [from_valid_policy, estimated_table_bytes, usize_add, usize_mul]
      · exact fun k window h => absurd h empty_ne_some
      · exact fun k retired h => absurd h empty_ne_some
      · exact fun k window h => absurd h empty_ne_some
      · exact fun k _ => Std.TreeMap.getElem?_emptyc
    · rintro _ t ⟨session_id, packet_id, now⟩ ⟨rfl, hbudgeted, hwell⟩
      exact ⟨policy_check t session_id packet_id now,
        hbudgeted.check hlimit session_id packet_id now, hwell.check session_id packet_id now⟩
  obtain ⟨hsame, hbudgeted, hwell⟩ := hrun
  refine ⟨hsame, hbudgeted, ?_, ?_⟩
  · intro k
    by_cases hq : (after_checks policy calls).quarantined[k]? = none
    · exact .inl hq
    · exact .inr (hwell.disjoint k hq)
  · intro session_id packet_id now err herr k
    have hchecked := checked_check hwell session_id packet_id now
    rw [herr] at hchecked
    cases hchecked with
    | rejected _ hactive hquarantined => exact ⟨hactive k, hquarantined k⟩

theorem sessions_within_default_policy :
    (after_checks {} [(7, 1, 100), (7, 1, 101)]).active.size ≤ DEFAULT_ACTIVE_WINDOW_LIMIT := by
  obtain ⟨hsame, hbudgeted, -, -⟩ := sessions_within_policy {} rfl [(7, 1, 100), (7, 1, 101)]
  have hfits := hbudgeted.fits.active
  rw [hsame] at hfits
  exact hfits

end Ss2022UdpReplayTable

end DaeNext.Ss2022
