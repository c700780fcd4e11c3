/-
Runs of the DNS cache: any sequence of its operations, with any clock.

Each operation keeps the entries exact, by one lemma for each; so they are exact after any
run from a new store. What the store promises about its next expiry, its sweeps, its lookups
and its evictions is then read off the exact entries.
-/
import DaeNext.DnsCacheStore

set_option autoImplicit false

namespace DaeNext.Dns

open Expiring Fallible DnsCacheEntries

inductive CacheOp where
  | insert (now_unix : Int) (key : DnsCacheKey) (entry : DnsCacheEntry)
  | insert_without_route_owner_key (now_unix : Int) (key : DnsCacheKey) (entry : DnsCacheEntry)
  | insert_with_eviction (key : DnsCacheKey) (entry : DnsCacheEntry)
      (apply : List (DnsCacheKey × DnsCacheEntry) → DnsCacheEntry → Except Unit Unit)
  | lookup (now_unix : Int) (key : DnsCacheKey) (ignore_fixed_ttl : Bool)
  | lookup_view (now_unix : Int) (view : DnsCacheKeyView) (ignore_fixed_ttl : Bool)
  | lookup_packet_question (now_unix : Int) (question : DnsPacketQuestionView)
      (ignore_fixed_ttl : Bool)
  | sweep (now_unix : Int)
  | sweep_entries_limited (now_unix : Int) (limit : Nat)
  | discard_expired_entries_limited (now_unix : Int) (limit : Nat)
  | snapshot_live_entries (now_unix : Int)
  | restore_swept_entries (entries : List (DnsCacheKey × DnsCacheEntry))
  | remove (key : DnsCacheKey)
  | discard (key : DnsCacheKey)
  | remove_packet_question (question : DnsPacketQuestionView)
  | remove_packet_question_entry (question : DnsPacketQuestionView)
  | capacity_eviction_key_for_insert (key : DnsCacheKey)
  | remove_capacity_eviction (key : DnsCacheKey)
  | restore_capacity_eviction (key : DnsCacheKey) (entry : DnsCacheEntry)

namespace DnsCacheStore

/-- The store after an operation that can fail; a failed one leaves it as it was. -/
def after {α : Type} (self : DnsCacheStore) (result : Except DnsError (α × DnsCacheStore)) :
    DnsCacheStore :=
  match result with
  | .ok (_, store) => store
  | .error _ => self

def step (hasher : HashBuilder) (self : DnsCacheStore) : CacheOp → DnsCacheStore
  | .insert now_unix key entry => self.insert now_unix key entry
  | .insert_without_route_owner_key now_unix key entry =>
    self.insert_without_route_owner_key now_unix key entry
  | .insert_with_eviction key entry apply => (self.insert_with_eviction key entry apply).2
  | .lookup now_unix key ignore_fixed_ttl => (self.lookup now_unix key ignore_fixed_ttl).2
  | .lookup_view now_unix view ignore_fixed_ttl =>
    (self.lookup_view hasher now_unix view ignore_fixed_ttl).2
  | .lookup_packet_question now_unix question ignore_fixed_ttl =>
    self.after (self.lookup_packet_question hasher now_unix question ignore_fixed_ttl)
  | .sweep now_unix => (self.sweep now_unix).2
  | .sweep_entries_limited now_unix limit => (self.sweep_entries_limited now_unix limit).2
  | .discard_expired_entries_limited now_unix limit =>
    (self.discard_expired_entries_limited now_unix limit).2
  | .snapshot_live_entries now_unix => (self.snapshot_live_entries now_unix).2
  | .restore_swept_entries entries => self.restore_swept_entries entries
  | .remove key => (self.remove key).2
  | .discard key => (self.discard key).2
  | .remove_packet_question question => self.after (self.remove_packet_question hasher question)
  | .remove_packet_question_entry question =>
    self.after (self.remove_packet_question_entry hasher question)
  | .capacity_eviction_key_for_insert key => (self.capacity_eviction_key_for_insert key).2
  | .remove_capacity_eviction key => (self.remove_capacity_eviction key).2
  | .restore_capacity_eviction key entry => self.restore_capacity_eviction key entry

def run (hasher : HashBuilder) (self : DnsCacheStore) (ops : List CacheOp) : DnsCacheStore :=
  ops.foldl (step hasher) self

/-! ## Every operation keeps the entries exact -/

variable {self : DnsCacheStore}

theorem exact_evict_entries (h : self.entries.Exact) (now_unix : Int) :
    (self.evict_entries now_unix).entries.Exact := by
  have hswept := (sweep_spec h now_unix none).1
  exact (evict_spec hswept self.capacity).1

theorem exact_insert_entry (h : self.entries.Exact) (now_unix : Int) (key : DnsCacheKey)
    (entry : DnsCacheEntry) : (self.insert_entry now_unix key entry).entries.Exact := by
  rw [insert_entry]
  by_cases hcap : self.capacity = 0
  · rw [if_pos hcap]
    exact h
  · rw [if_neg hcap]
    by_cases hkey : self.entries.contains_key key = true
    · rw [if_pos hkey]
      exact h.insert key entry
    · rw [if_neg hkey]
      exact (exact_evict_entries h now_unix).insert key entry

theorem make_room_spec (h : self.entries.Exact) (key : DnsCacheKey) :
    (self.make_room key).entries.Exact ∧
      Evicted DnsCacheEntry.cache_expires_at self.entries.get (self.make_room key).entries.get
        (self.make_room key).evicted := by
  rw [make_room]
  by_cases hkey : self.entries.contains_key key = true
  · rw [if_pos hkey]
    exact ⟨h, Evicted.nil _ _⟩
  · rw [if_neg hkey]
    exact evict_spec h self.capacity

/-- Both ends of an insertion with eviction, by what `apply` says of the evicted entries. -/
theorem insert_with_eviction_cases {ε : Type} (self : DnsCacheStore) (key : DnsCacheKey)
    (entry : DnsCacheEntry) (apply : List (DnsCacheKey × DnsCacheEntry) → DnsCacheEntry → Except ε Unit)
    (hcap : self.capacity ≠ 0) : (∃ error, apply (self.make_room key).evicted entry = .error error ∧
        self.insert_with_eviction key entry apply = (.error error, { self with
          entries := (self.make_room key).entries.restore (self.make_room key).evicted })) ∨
      (apply (self.make_room key).evicted entry = .ok () ∧
        self.insert_with_eviction key entry apply = (.ok true, { self with
          entries := (self.make_room key).entries.insert key entry
          stats := { self.stats with remove_callback_total :=
            self.stats.remove_callback_total + (self.make_room key).evicted.length } })) := by
  rw [insert_with_eviction, if_neg hcap]
  dsimp only
  cases happly : apply (self.make_room key).evicted entry with
  | error error => exact Or.inl ⟨error, rfl, rfl⟩
  | ok u => exact Or.inr ⟨rfl, rfl⟩

theorem exact_insert_with_eviction {ε : Type} (h : self.entries.Exact) (key : DnsCacheKey)
    (entry : DnsCacheEntry) (apply : List (DnsCacheKey × DnsCacheEntry) → DnsCacheEntry → Except ε Unit) :
    (self.insert_with_eviction key entry apply).2.entries.Exact := by
  by_cases hcap : self.capacity = 0
  · rw [insert_with_eviction, if_pos hcap]
    exact h
  · obtain ⟨hroom, -⟩ := make_room_spec h key
    rcases self.insert_with_eviction_cases key entry apply hcap with ⟨error, -, hr⟩ | ⟨-, hr⟩
    · rw [hr]
      exact (restore_spec hroom _).1
    · rw [hr]
      exact hroom.insert key entry

variable {ignore_fixed_ttl : Bool} {now_unix : Int}

theorem select_hit {entry : DnsCacheEntry} (h : select now_unix ignore_fixed_ttl entry = .hit) :
    now_unix < entry.lookup_deadline ignore_fixed_ttl := by
  by_contra hnot
  rw [select, if_neg hnot] at h
  split_ifs at h

theorem lookup_found_cases (self : DnsCacheStore) (now_unix : Int) (ignore_fixed_ttl : Bool)
    (found : Option DnsCacheEntry) (left : DnsCacheEntries) :
    self.lookup_found now_unix ignore_fixed_ttl found left = (none, self) ∨
      (∃ entry, found = some entry ∧ now_unix < entry.lookup_deadline ignore_fixed_ttl ∧
        self.lookup_found now_unix ignore_fixed_ttl found left = (some entry, self.record_hit)) ∨
      self.lookup_found now_unix ignore_fixed_ttl found left
        = (none, self.record_expired left) := by
  cases found with
  | none => exact Or.inl rfl
  | some entry =>
    rw [lookup_found]
    cases hsel : select now_unix ignore_fixed_ttl entry with
    | hit => exact Or.inr (Or.inl ⟨entry, rfl, select_hit hsel, rfl⟩)
    | waiting => exact Or.inl rfl
    | expired => exact Or.inr (Or.inr rfl)

variable {left : DnsCacheEntries}

theorem exact_lookup_found (h : self.entries.Exact) (now_unix : Int) (ignore_fixed_ttl : Bool)
    (found : Option DnsCacheEntry) (hleft : left.Exact) :
    (self.lookup_found now_unix ignore_fixed_ttl found left).2.entries.Exact := by
  rcases self.lookup_found_cases now_unix ignore_fixed_ttl found left with
    hr | ⟨entry, -, -, hr⟩ | hr
  · rw [hr]
    exact h
  · rw [hr]
    exact h
  · rw [hr]
    exact hleft

theorem lookup_found_live {found : Option DnsCacheEntry} {entry : DnsCacheEntry}
    (h : (self.lookup_found now_unix ignore_fixed_ttl found left).1 = some entry) :
    found = some entry ∧ now_unix < entry.lookup_deadline ignore_fixed_ttl := by
  rcases self.lookup_found_cases now_unix ignore_fixed_ttl found left with
    hr | ⟨entry', hfound, hlive, hr⟩ | hr
  · rw [hr] at h
    cases h
  · rw [hr] at h
    rw [← Option.some.inj h]
    exact ⟨hfound, hlive⟩
  · rw [hr] at h
    cases h

theorem remove_packet_question_ok {entries : DnsCacheEntries} (h : entries.Exact)
    {hasher : HashBuilder} {question : DnsPacketQuestionView} {removed : Option DnsCacheEntry}
    (hok : entries.remove_packet_question hasher question = .ok (removed, left)) : left.Exact := by
  obtain ⟨⟨taken, left'⟩, htaken, ⟨⟩⟩ := bind_pure_ok hok
  exact (remove_packet_question_entry_spec h htaken).1

theorem lookup_packet_question_cases {store : DnsCacheStore} {hasher : HashBuilder}
    {question : DnsPacketQuestionView} {found : Option DnsCacheEntry}
    (h : self.lookup_packet_question hasher now_unix question ignore_fixed_ttl = .ok (found, store))
    :
    (found = none ∧ store = self) ∨ (∃ entry, found = some entry ∧ store = self.record_hit ∧
        now_unix < entry.lookup_deadline ignore_fixed_ttl ∧
        self.entries.get_packet_question hasher question = .ok (some entry)) ∨
      ∃ removed left, found = none ∧ store = self.record_expired left ∧
        self.entries.remove_packet_question hasher question = .ok (removed, left) := by
  obtain ⟨selected, hget, h⟩ := bind_ok h
  cases selected with
  | none =>
    cases h
    exact Or.inl ⟨rfl, rfl⟩
  | some entry =>
    dsimp only at h
    cases hsel : select now_unix ignore_fixed_ttl entry with
    | hit =>
      rw [hsel] at h
      obtain ⟨again, hagain, h⟩ := bind_ok h
      obtain rfl := Except.ok.inj (hget.symm.trans hagain)
      cases h
      exact Or.inr (Or.inl ⟨entry, rfl, rfl, select_hit hsel, hget⟩)
    | waiting =>
      rw [hsel] at h
      cases h
      exact Or.inl ⟨rfl, rfl⟩
    | expired =>
      rw [hsel] at h
      obtain ⟨⟨removed, left⟩, hrem, ⟨⟩⟩ := bind_pure_ok h
      exact Or.inr (Or.inr ⟨removed, left, rfl, rfl, hrem⟩)

section

variable (h : self.entries.Exact)

include h

theorem exact_after {α : Type} {result : Except DnsError (α × DnsCacheStore)}
    (hok : ∀ a store, result = .ok (a, store) → store.entries.Exact) :
    (self.after result).entries.Exact := by
  rcases result with error | ⟨a, store⟩
  · exact h
  · exact hok a store rfl

variable (key : DnsCacheKey)

theorem exact_remove_capacity_eviction : (self.remove_capacity_eviction key).2.entries.Exact := by
  have hrem := (remove_spec h key).1
  rw [remove_capacity_eviction]
  rcases hr : self.entries.remove key with ⟨_ | entry, left⟩
  · rw [hr] at hrem
    exact hrem
  · rw [hr] at hrem
    exact hrem

theorem exact_capacity_eviction_key_for_insert :
    (self.capacity_eviction_key_for_insert key).2.entries.Exact := by
  rw [capacity_eviction_key_for_insert]
  split_ifs
  · exact h
  · exact (oldest_key_spec h).1

theorem exact_step (hasher : HashBuilder) (op : CacheOp) : (self.step hasher op).entries.Exact := by
  cases op with
  | insert now_unix key entry => exact exact_insert_entry h now_unix key _
  | insert_without_route_owner_key now_unix key entry => exact exact_insert_entry h now_unix key entry
  | insert_with_eviction key entry apply => exact exact_insert_with_eviction h key entry apply
  | lookup now_unix key ignore_fixed_ttl =>
    exact exact_lookup_found h _ _ _ (remove_spec h key).1
  | lookup_view now_unix view ignore_fixed_ttl =>
    exact exact_lookup_found h _ _ _ (remove_view_entry_spec h hasher view).1
  | lookup_packet_question now_unix question ignore_fixed_ttl =>
    apply exact_after h
    intro found store hok
    rcases lookup_packet_question_cases hok with
      ⟨-, rfl⟩ | ⟨entry, -, rfl, -⟩ | ⟨removed, left, -, rfl, hrem⟩
    · exact h
    · exact h
    · exact remove_packet_question_ok h hrem
  | sweep now_unix | sweep_entries_limited now_unix limit | snapshot_live_entries now_unix => exact (sweep_spec h now_unix _).1
  | discard_expired_entries_limited now_unix limit =>
    exact (sweep_spec h now_unix _).1
  | restore_swept_entries entries => exact (restore_spec h entries).1
  | remove key | discard key => exact (remove_spec h key).1
  | remove_packet_question question =>
    apply exact_after h
    intro removed store hok
    obtain ⟨⟨removed', left⟩, hrem, ⟨⟩⟩ := bind_pure_ok hok
    exact remove_packet_question_ok h hrem
  | remove_packet_question_entry question =>
    apply exact_after h
    intro removed store hok
    obtain ⟨⟨removed', left⟩, hrem, ⟨⟩⟩ := bind_pure_ok hok
    exact (remove_packet_question_entry_spec h hrem).1
  | capacity_eviction_key_for_insert key => exact exact_capacity_eviction_key_for_insert h key
  | remove_capacity_eviction key => exact exact_remove_capacity_eviction h key
  | restore_capacity_eviction key entry => exact h.insert key entry

theorem exact_run (hasher : HashBuilder) (ops : List CacheOp) : (self.run hasher ops).entries.Exact := by
  induction ops generalizing self with
  | nil => exact h
  | cons op ops ih => exact ih (exact_step h hasher op)

end

/-! ## What exact entries give -/

/-- What a store promises: exact indexes, and what follows from them for its next expiry, its
sweeps, its lookups and its evictions. -/
structure Consistent (hasher : HashBuilder) (self : DnsCacheStore) : Prop where
  keys_unique : (self.entries.iter.map Prod.fst).Nodup
  deadlines_exact : ∀ index, self.entries = .Map index → ∀ d : Deadline DnsCacheKey,
    d ∈ index.deadlines ↔
      ∃ entry, (d.key, entry) ∈ self.entries.iter ∧ entry.cache_expires_at = d.deadline
  no_expiry : self.next_expiry_unix = none ↔ self.entries.iter = []
  next_expiry : ∀ t, self.next_expiry_unix = some t ↔
    IsLeast {t | ∃ p ∈ self.entries.iter, p.2.cache_expires_at = t} t
  /-- A sweep with room for all that has expired removes exactly that. -/
  swept : ∀ now_unix limit,
    (self.entries.iter.filter fun p => p.2.cache_expires_at ≤ now_unix).length ≤ limit →
    (self.sweep_entries_limited now_unix limit).1.Perm
        (self.entries.iter.filter fun p => p.2.cache_expires_at ≤ now_unix) ∧
      ∀ p, p ∈ (self.sweep_entries_limited now_unix limit).2.entries.iter ↔
        p ∈ self.entries.iter ∧ now_unix < p.2.cache_expires_at
  lookup_live : ∀ now_unix key ignore_fixed_ttl entry,
    (self.lookup now_unix key ignore_fixed_ttl).1 = some entry →
      now_unix < entry.lookup_deadline ignore_fixed_ttl
  lookup_view_live : ∀ now_unix view ignore_fixed_ttl entry,
    (self.lookup_view hasher now_unix view ignore_fixed_ttl).1 = some entry →
      now_unix < entry.lookup_deadline ignore_fixed_ttl
  lookup_packet_question_live : ∀ now_unix question ignore_fixed_ttl entry store,
    self.lookup_packet_question hasher now_unix question ignore_fixed_ttl = .ok (some entry, store) →
      now_unix < entry.lookup_deadline ignore_fixed_ttl
  /-- A store without room for any entry evicts none. -/
  no_capacity : ∀ (ε : Type) key entry
      (apply : List (DnsCacheKey × DnsCacheEntry) → DnsCacheEntry → Except ε Unit),
    self.capacity = 0 → self.insert_with_eviction key entry apply = (.ok false, self)
  /-- The evicted entries expire first, `apply` is told of all of them, and they are back when
  it fails. -/
  evicted : ∀ (ε : Type) key entry
      (apply : List (DnsCacheKey × DnsCacheEntry) → DnsCacheEntry → Except ε Unit),
    self.capacity ≠ 0 →
    ∃ evicted left, Evicted DnsCacheEntry.cache_expires_at self.entries.get left evicted ∧
      (∀ error, apply evicted entry = .error error →
        (self.insert_with_eviction key entry apply).1 = .error error ∧
          (self.insert_with_eviction key entry apply).2.entries.get = self.entries.get ∧
          (self.insert_with_eviction key entry apply).2.stats = self.stats) ∧
      (apply evicted entry = .ok () →
        (self.insert_with_eviction key entry apply).1 = .ok true ∧
          (self.insert_with_eviction key entry apply).2.entries.get
            = Function.update left key (some entry))

theorem expiries_eq {entries : DnsCacheEntries} (h : entries.Exact) :
    entries.expiries = {t | ∃ p ∈ entries.iter, p.2.cache_expires_at = t} := by
  ext t
  constructor
  · rintro ⟨key, entry, hk, rfl⟩
    exact ⟨(key, entry), (mem_iter h key entry).mpr hk, rfl⟩
  · rintro ⟨p, hp, rfl⟩
    exact ⟨p.1, p.2, (mem_iter h p.1 p.2).mp hp, rfl⟩

theorem consistent_of_exact (h : self.entries.Exact) (hasher : HashBuilder) :
    self.Consistent hasher where
  keys_unique := iter_keys_nodup h
  deadlines_exact := by
    intro index heq d
    have hmem := mem_iter h d.key
    rw [heq] at h hmem ⊢
    rw [h d]
    refine exists_congr fun entry => ?_
    rw [hmem]
    rfl
  no_expiry := by
    rw [next_expiry_unix, next_expiry_unix_eq_none h, expiries_eq h,
      Set.eq_empty_iff_forall_notMem, List.eq_nil_iff_forall_not_mem]
    exact ⟨fun hempty p hp => hempty _ ⟨p, hp, rfl⟩, fun hnil _ ⟨p, hp, _⟩ => hnil p hp⟩
  next_expiry := by
    intro t
    rw [← expiries_eq h]
    exact next_expiry_unix_isLeast h t
  swept := by
    intro now_unix limit hroom
    obtain ⟨hexact, hswept⟩ := sweep_spec h now_unix (some limit)
    have hfits : ∀ n ∈ some limit,
        (self.entries.iter.filter fun p => p.2.cache_expires_at ≤ now_unix).length ≤ n :=
      fun n hn => Option.some.inj hn ▸ hroom
    refine ⟨hswept.complete (mem_iter h) (iter_keys_nodup h) hfits, ?_⟩
    rintro ⟨key, entry⟩
    rw [mem_iter h, ← hswept.left_iff (mem_iter h) (iter_keys_nodup h) hfits]
    exact mem_iter hexact key entry
  lookup_live _ _ _ _ hr := (lookup_found_live hr).2
  lookup_view_live _ _ _ _ hr := (lookup_found_live hr).2
  lookup_packet_question_live := by
    intro now_unix question ignore_fixed_ttl entry store hr
    rcases lookup_packet_question_cases hr with ⟨hnone, -⟩ | ⟨entry', hsome, -, hlive, -⟩ | ⟨_, _, hnone, -⟩
    · cases hnone
    · rw [Option.some.inj hsome]
      exact hlive
    · cases hnone
  no_capacity _ _ _ _ hcap := by
    rw [insert_with_eviction, if_pos hcap]
  evicted := by
    intro ε key entry apply hcap
    obtain ⟨hroom, hevicted⟩ := make_room_spec h key
    refine ⟨(self.make_room key).evicted, _, hevicted, ?_⟩
    rcases self.insert_with_eviction_cases key entry apply hcap with
      ⟨error, happly, hr⟩ | ⟨happly, hr⟩
    · rw [hr, happly]
      refine ⟨?_, nofun⟩
      intro error' herror
      obtain rfl := Except.error.inj herror
      refine ⟨rfl, ?_, rfl⟩
      exact (restore_spec hroom _).2.trans hevicted.restore
    · rw [hr, happly]
      exact ⟨nofun, fun _ => ⟨rfl, get_insert _ key entry⟩⟩

/-- After any run of a new cache, with any clock, its indexes are exact and it keeps what it
promises about expiry and eviction. -/
theorem run_consistent (hasher : HashBuilder) (capacity : Nat) (ops : List CacheOp) :
    ((new capacity).run hasher ops).Consistent hasher :=
  consistent_of_exact (exact_run (exact_new capacity) hasher ops) hasher

end DnsCacheStore

end DaeNext.Dns
