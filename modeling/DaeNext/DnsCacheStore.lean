/-
The store of the DNS cache (`DnsCacheStore` in `dae-dns/src/cache.rs`, with
`cache/transactions.rs` and `cache/removal.rs`) and its runs.

Twenty operations read and change the entries: insertions that evict, lookups that remove
what has expired, sweeps and their roll-back, and an insertion whose evictions are undone when
its caller cannot follow. Each of them keeps the entries exact, so they are exact after any
run; what the store promises about expiry and eviction follows from that.
-/
import DaeNext.DnsCache

set_option autoImplicit false

namespace DaeNext.Dns

open Expiring DnsCacheEntry

/-! ## Eviction -/

namespace DnsCacheEntries

structure EvictState where
  entries : DnsCacheEntries
  evicted : List (DnsCacheKey × DnsCacheEntry)

/-- One turn of `while entries.len() >= capacity`: the oldest entry goes. -/
def evict_step (capacity : Nat) (s : EvictState) : EvictState ⊕ EvictState :=
  if s.entries.len < capacity then .inr s
  else
    match s.entries.oldest_key with
    | (none, entries) => .inr ⟨entries, s.evicted⟩
    | (some victim, entries) =>
      match entries.remove victim with
      | (some entry, entries) => .inl ⟨entries, s.evicted ++ [(victim, entry)]⟩
      | (none, entries) => .inl ⟨entries, s.evicted⟩

variable {self : DnsCacheEntries}

/-- The oldest key is that of an entry, so its removal shrinks the entries. -/
theorem remove_oldest_key {victim : DnsCacheKey} (h : self.oldest_key.1 = some victim) :
    ∃ entry, (self.oldest_key.2.remove victim).1 = some entry ∧
      (self.oldest_key.2.remove victim).2.len < self.len := by
  cases self with
  | Small entries =>
    obtain ⟨p, hp, rfl⟩ := Option.map_eq_some_iff.mp h
    obtain ⟨r, hr, hlen⟩ :=
      Pairs.take_of_mem (· == p.1) (Vec.min_by_key_spec hp).1 (beq_self_eq_true p.1)
    refine ⟨r.2, ?_, hlen⟩
    rw [oldest_key, remove]
    dsimp only
    rw [hr]
    rfl
  | Map index =>
    obtain ⟨entry, hk⟩ := Index.oldest_stored h
    have hlt := Index.size_remove_lt cache_expires_at hk
    refine ⟨entry, ?_, ?_⟩
    · rw [oldest_key, remove]
      rw [Index.remove_eq _ hk]
    · have hsize : (index.oldest cache_expires_at).2.entries = index.entries := by
        rw [Index.oldest]
        split_ifs <;> rfl
      rw [hsize] at hlt
      exact hlt

theorem evict_step_cases (capacity : Nat) (s : EvictState) :
    (s.entries.len < capacity ∧ evict_step capacity s = .inr s) ∨
      (capacity ≤ s.entries.len ∧ s.entries.oldest_key.1 = none ∧
        evict_step capacity s = .inr ⟨s.entries.oldest_key.2, s.evicted⟩) ∨
      ∃ victim entry, capacity ≤ s.entries.len ∧ s.entries.oldest_key.1 = some victim ∧
        (s.entries.oldest_key.2.remove victim).1 = some entry ∧
        (s.entries.oldest_key.2.remove victim).2.len < s.entries.len ∧
        evict_step capacity s = .inl ⟨(s.entries.oldest_key.2.remove victim).2,
          s.evicted ++ [(victim, entry)]⟩ := by
  rw [evict_step]
  by_cases hlen : s.entries.len < capacity
  · exact Or.inl ⟨hlen, if_pos hlen⟩
  · rw [if_neg hlen]
    right
    rcases hold : s.entries.oldest_key with ⟨oldest, entries⟩
    cases oldest with
    | none => exact Or.inl ⟨Nat.le_of_not_lt hlen, rfl, rfl⟩
    | some victim =>
      right
      have hfst : s.entries.oldest_key.1 = some victim := by rw [hold]
      obtain ⟨entry, hentry, hlt⟩ := remove_oldest_key hfst
      rw [hold] at hentry hlt
      rcases hrem : entries.remove victim with ⟨removed, left⟩
      rw [hrem] at hentry hlt
      obtain rfl : removed = some entry := hentry
      exact ⟨victim, entry, Nat.le_of_not_lt hlen, rfl, by rw [hrem], by rw [hrem]; exact hlt,
        by dsimp only; rw [hrem]⟩

def evict_loop (capacity : Nat) : Loop EvictState EvictState where
  step := evict_step capacity
  measure s := s.entries.len
  decreases s s' h := by
    rcases evict_step_cases capacity s with ⟨-, hs⟩ | ⟨-, -, hs⟩ | ⟨victim, entry, -, -, -, hlt, hs⟩
    · cases h.symm.trans hs
    · cases h.symm.trans hs
    · obtain rfl := Sum.inl.inj (h.symm.trans hs)
      exact hlt

/-- Evict the oldest entries until there is room for one more: the entries left with the
evicted ones in the order in which they went. -/
def evict (self : DnsCacheEntries) (capacity : Nat) : EvictState :=
  (evict_loop capacity).run ⟨self, []⟩

theorem evict_spec (h : self.Exact) (capacity : Nat) :
    (self.evict capacity).entries.Exact ∧
      Evicted cache_expires_at self.get (self.evict capacity).entries.get
        (self.evict capacity).evicted := by
  refine @Loop.run_invariant _ _ (evict_loop capacity)
    (fun s => s.entries.Exact ∧
      Evicted cache_expires_at self.get s.entries.get s.evicted)
    (fun s => s.entries.Exact ∧
      Evicted cache_expires_at self.get s.entries.get s.evicted) ?_ ?_ _ ?_
  · rintro s s' ⟨hexact, hevicted⟩ hstep
    obtain ⟨holdest, hget, hmin⟩ := oldest_key_spec hexact
    rcases evict_step_cases capacity s with
      ⟨-, hs⟩ | ⟨-, -, hs⟩ | ⟨victim, entry, -, hvictim, hentry, -, hs⟩
    · cases hstep.symm.trans hs
    · cases hstep.symm.trans hs
    · obtain rfl := Sum.inl.inj (hstep.symm.trans hs)
      obtain ⟨hexact', hremoved, hleft⟩ := remove_spec holdest victim
      obtain ⟨entry', hk, hle⟩ := hmin victim hvictim
      rw [hentry, hget, hk] at hremoved
      cases hremoved
      refine ⟨hexact', ?_⟩
      rw [hleft, hget]
      exact hevicted.snoc hk hle
  · rintro s r ⟨hexact, hevicted⟩ hstep
    obtain ⟨holdest, hget, -⟩ := oldest_key_spec hexact
    rcases evict_step_cases capacity s with ⟨-, hs⟩ | ⟨-, -, hs⟩ | ⟨victim, entry, -, -, -, -, hs⟩
    · obtain rfl := Sum.inr.inj (hstep.symm.trans hs)
      exact ⟨hexact, hevicted⟩
    · obtain rfl := Sum.inr.inj (hstep.symm.trans hs)
      refine ⟨holdest, ?_⟩
      rw [hget]
      exact hevicted
    · cases hstep.symm.trans hs
  · exact ⟨h, Evicted.nil _ _⟩

def restore (self : DnsCacheEntries) (entries : List (DnsCacheKey × DnsCacheEntry)) :
    DnsCacheEntries :=
  entries.foldl (fun self p => self.insert p.1 p.2) self

theorem restore_spec (h : self.Exact) (entries : List (DnsCacheKey × DnsCacheEntry)) :
    (self.restore entries).Exact ∧ (self.restore entries).get = entries.foldl put self.get := by
  induction entries generalizing self with
  | nil => exact ⟨h, rfl⟩
  | cons p entries ih =>
    obtain ⟨hexact, hget⟩ := ih (h.insert p.1 p.2)
    refine ⟨hexact, ?_⟩
    rw [List.foldl_cons, put, ← get_insert]
    exact hget

end DnsCacheEntries

/-! ## The store -/

structure DnsCacheStats where
  hit_total : Nat := 0
  expired_removal_total : Nat := 0
  remove_callback_total : Nat := 0
  deriving DecidableEq, Repr

structure DnsCacheStore where
  capacity : Nat
  entries : DnsCacheEntries
  stats : DnsCacheStats

def DnsCacheStats.expired (stats : DnsCacheStats) (count : Nat) : DnsCacheStats :=
  { stats with
    expired_removal_total := stats.expired_removal_total + count
    remove_callback_total := stats.remove_callback_total + count }

namespace DnsCacheStore

def new (capacity : Nat) : DnsCacheStore where
  capacity := capacity
  entries := .new capacity
  stats := {}

def evict_entries (self : DnsCacheStore) (now_unix : Int) : DnsCacheStore :=
  let (expired_count, entries) := self.entries.remove_expired now_unix
  let stats := self.stats.expired expired_count
  let room := entries.evict self.capacity
  { self with
    entries := room.entries
    stats := { stats with
      remove_callback_total := stats.remove_callback_total + room.evicted.length } }

def insert_entry (self : DnsCacheStore) (now_unix : Int) (key : DnsCacheKey)
    (entry : DnsCacheEntry) : DnsCacheStore :=
  if self.capacity = 0 then self
  else
    let self := if self.entries.contains_key key then self else self.evict_entries now_unix
    { self with entries := self.entries.insert key entry }

def insert (self : DnsCacheStore) (now_unix : Int) (key : DnsCacheKey) (entry : DnsCacheEntry) :
    DnsCacheStore :=
  self.insert_entry now_unix key { entry with route_owner_key := key.to_string }

def insert_without_route_owner_key (self : DnsCacheStore) (now_unix : Int) (key : DnsCacheKey)
    (entry : DnsCacheEntry) : DnsCacheStore :=
  self.insert_entry now_unix key entry

/-- What a lookup makes of the entry it found. -/
inductive Selected where
  | hit
  | waiting
  | expired
  deriving DecidableEq, Repr

/-- The entry is served, waits for its other deadline, or has expired. -/
def select (now_unix : Int) (ignore_fixed_ttl : Bool) (entry : DnsCacheEntry) : Selected :=
  if now_unix < entry.lookup_deadline ignore_fixed_ttl then .hit
  else if now_unix < entry.cache_expires_at then .waiting
  else .expired

def record_hit (self : DnsCacheStore) : DnsCacheStore :=
  { self with stats := { self.stats with hit_total := self.stats.hit_total + 1 } }

def record_expired (self : DnsCacheStore) (left : DnsCacheEntries) : DnsCacheStore :=
  { self with entries := left, stats := self.stats.expired 1 }

/-- A lookup that has `found` an entry, and would leave `left` without it. -/
def lookup_found (self : DnsCacheStore) (now_unix : Int) (ignore_fixed_ttl : Bool)
    (found : Option DnsCacheEntry) (left : DnsCacheEntries) :
    Option DnsCacheEntry × DnsCacheStore :=
  match found with
  | none => (none, self)
  | some entry =>
    match select now_unix ignore_fixed_ttl entry with
    | .hit => (found, self.record_hit)
    | .waiting => (none, self)
    | .expired => (none, self.record_expired left)

/-- `lookup` and `lookup_ref`. -/
def lookup (self : DnsCacheStore) (now_unix : Int) (key : DnsCacheKey) (ignore_fixed_ttl : Bool) :
    Option DnsCacheEntry × DnsCacheStore :=
  self.lookup_found now_unix ignore_fixed_ttl (self.entries.get key) (self.entries.remove key).2

def lookup_view (self : DnsCacheStore) (hasher : HashBuilder) (now_unix : Int)
    (view : DnsCacheKeyView) (ignore_fixed_ttl : Bool) : Option DnsCacheEntry × DnsCacheStore :=
  self.lookup_found now_unix ignore_fixed_ttl (self.entries.get_view hasher view)
    (self.entries.remove_view hasher view).2

/-- On an error the store is as it was. -/
def lookup_packet_question (self : DnsCacheStore) (hasher : HashBuilder) (now_unix : Int)
    (question : DnsPacketQuestionView) (ignore_fixed_ttl : Bool) :
    Except DnsError (Option DnsCacheEntry × DnsCacheStore) := do
  match ← self.entries.get_packet_question hasher question with
  | none => pure (none, self)
  | some entry =>
    match select now_unix ignore_fixed_ttl entry with
    | .hit => do
      let found ← self.entries.get_packet_question hasher question
      pure (found, self.record_hit)
    | .waiting => pure (none, self)
    | .expired => do
      let (_, left) ← self.entries.remove_packet_question hasher question
      pure (none, self.record_expired left)

def sweep_entries_limited (self : DnsCacheStore) (now_unix : Int) (limit : Nat) :
    List (DnsCacheKey × DnsCacheEntry) × DnsCacheStore :=
  let (removed, entries) := self.entries.remove_expired_entries now_unix limit
  (removed, { self with entries := entries, stats := self.stats.expired removed.length })

def sweep_entries (self : DnsCacheStore) (now_unix : Int) :
    List (DnsCacheKey × DnsCacheEntry) × DnsCacheStore :=
  self.sweep_entries_limited now_unix (2 ^ 64 - 1)

def sweep (self : DnsCacheStore) (now_unix : Int) : List DnsCacheEntry × DnsCacheStore :=
  let (removed, self) := self.sweep_entries now_unix
  (removed.map Prod.snd, self)

def next_expiry_unix (self : DnsCacheStore) : Option Int := self.entries.next_expiry_unix

def restore_swept_entries (self : DnsCacheStore) (entries : List (DnsCacheKey × DnsCacheEntry)) :
    DnsCacheStore :=
  { self with
    entries := self.entries.restore entries
    stats := { self.stats with
      expired_removal_total := self.stats.expired_removal_total - entries.length
      remove_callback_total := self.stats.remove_callback_total - entries.length } }

def snapshot_live_entries (self : DnsCacheStore) (now_unix : Int) :
    List (DnsCacheKey × DnsCacheEntry) × DnsCacheStore :=
  let (_, self) := self.sweep now_unix
  let entries := self.entries.iter.filter fun p => now_unix < p.2.cache_expires_at
  (Vec.sort_by (fun left right => compare left.1 right.1) entries, self)

def remove (self : DnsCacheStore) (key : DnsCacheKey) : Option DnsCacheEntry × DnsCacheStore :=
  let (removed, entries) := self.entries.remove key
  (removed, { self with entries := entries })

def discard (self : DnsCacheStore) (key : DnsCacheKey) : Bool × DnsCacheStore :=
  let (removed, entries) := self.entries.remove key
  (removed.isSome, { self with entries := entries })

def discard_expired_entries_limited (self : DnsCacheStore) (now_unix : Int) (limit : Nat) :
    Nat × DnsCacheStore :=
  let (removed, entries) := self.entries.remove_expired_entries now_unix limit
  (removed.length, { self with entries := entries, stats := self.stats.expired removed.length })

def capacity_eviction_key_for_insert (self : DnsCacheStore) (key : DnsCacheKey) :
    Option DnsCacheKey × DnsCacheStore :=
  if self.entries.contains_key key ∨ self.entries.len < self.capacity then (none, self)
  else
    let (oldest, entries) := self.entries.oldest_key
    (oldest, { self with entries := entries })

def remove_capacity_eviction (self : DnsCacheStore) (key : DnsCacheKey) :
    Option DnsCacheEntry × DnsCacheStore :=
  match self.entries.remove key with
  | (none, entries) => (none, { self with entries := entries })
  | (some entry, entries) =>
    (some entry, { self with
      entries := entries
      stats := { self.stats with
        remove_callback_total := self.stats.remove_callback_total + 1 } })

def restore_capacity_eviction (self : DnsCacheStore) (key : DnsCacheKey) (entry : DnsCacheEntry) :
    DnsCacheStore :=
  { self with
    entries := self.entries.insert key entry
    stats := { self.stats with remove_callback_total := self.stats.remove_callback_total - 1 } }

def remove_packet_question_entry (self : DnsCacheStore) (hasher : HashBuilder)
    (question : DnsPacketQuestionView) :
    Except DnsError (Option (DnsCacheKey × DnsCacheEntry) × DnsCacheStore) := do
  let (removed, entries) ← self.entries.remove_packet_question_entry hasher question
  pure (removed, { self with entries := entries })

def remove_packet_question (self : DnsCacheStore) (hasher : HashBuilder)
    (question : DnsPacketQuestionView) : Except DnsError (Option DnsCacheEntry × DnsCacheStore) := do
  let (removed, entries) ← self.entries.remove_packet_question hasher question
  pure (removed, { self with entries := entries })

/-- The entries that make room for `key`, with the entries left: none for a key that has an
entry already. -/
def make_room (self : DnsCacheStore) (key : DnsCacheKey) : DnsCacheEntries.EvictState :=
  if self.entries.contains_key key then ⟨self.entries, []⟩ else self.entries.evict self.capacity

/-- `apply` is told of the evicted entries and of the new one; when it fails, they are put
back. -/
def insert_with_eviction {ε : Type} (self : DnsCacheStore) (key : DnsCacheKey)
    (entry : DnsCacheEntry)
    (apply : List (DnsCacheKey × DnsCacheEntry) → DnsCacheEntry → Except ε Unit) :
    Except ε Bool × DnsCacheStore :=
  if self.capacity = 0 then (.ok false, self)
  else
    let room := self.make_room key
    match apply room.evicted entry with
    | .error error => (.error error, { self with entries := room.entries.restore room.evicted })
    | .ok () =>
      (.ok true, { self with
        entries := room.entries.insert key entry
        stats := { self.stats with
          remove_callback_total := self.stats.remove_callback_total + room.evicted.length } })

end DnsCacheStore

end DaeNext.Dns
