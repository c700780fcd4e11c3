/-
The DNS cache (`dae-dns/src/cache.rs`, `cache/entries.rs`, `cache/transactions.rs`,
`cache/removal.rs`).

A small cache keeps its entries in a vector, a larger one in a hash map beside an ordered
index of the times at which they expire. The hash map is searched by three forms of a key: a
key, a name with type and class, and a question of a packet. Of each form it hashes the
octets of the canonical name and asks the stored keys with that hash whether they are
equivalent. The hasher and the order in which equal hashes are tried are parameters.
-/
import DaeNext.DnsPacketView
import DaeNext.LibExpiryIndex
import Mathlib.Order.Bounds.Basic

set_option autoImplicit false

namespace DaeNext.Dns

open Expiring List Std.TreeMap Index Index.Exact
open Net (IpAddr)

/-! ## Entries -/

structure DnsCacheEntry where
  route_owner_key : String := ""
  domain_bitmap : List UInt32 := []
  ips : List IpAddr := []
  has_any_ip : Bool := false
  deadline_unix : Int
  original_deadline_unix : Int
  packed_response : List UInt8 := []
  deriving DecidableEq

namespace DnsCacheEntry

def cache_expires_at (self : DnsCacheEntry) : Int :=
  max self.deadline_unix self.original_deadline_unix

def lookup_deadline (self : DnsCacheEntry) (ignore_fixed_ttl : Bool) : Int :=
  if ignore_fixed_ttl then self.original_deadline_unix else self.deadline_unix

end DnsCacheEntry

/-- A hash function with the order in which a table tries keys of equal hash. -/
structure HashBuilder where
  finish : List HashWrite → UInt64
  probe : List DnsCacheKey → List DnsCacheKey
  probe_perm : ∀ keys, (probe keys).Perm keys

inductive DnsCacheEntries where
  | Small (entries : List (DnsCacheKey × DnsCacheEntry))
  | Map (index : Index DnsCacheKey DnsCacheEntry)

def packet_question_matches_key (question : DnsPacketQuestionView) (key : DnsCacheKey) :
    Except DnsError Bool :=
  if question.qtype ≠ key.qtype ∨ question.qclass ≠ key.qclass then .ok false
  else wire_name_eq_canonical_ignore_ascii_case question.qname_wire key.qname

namespace DnsCacheEntries

def new (capacity : Nat) : DnsCacheEntries :=
  if capacity ≤ 16 then .Small [] else .Map ⟨{}, {}⟩

def len : DnsCacheEntries → Nat
  | .Small entries => entries.length
  | .Map index => index.entries.size

def get (self : DnsCacheEntries) (key : DnsCacheKey) : Option DnsCacheEntry :=
  match self with
  | .Small entries => Pairs.get entries key
  | .Map index => index.get key

/-- The entries in the order `for_each` visits them. -/
def iter : DnsCacheEntries → List (DnsCacheKey × DnsCacheEntry)
  | .Small entries => entries
  | .Map index => index.entries.toList

def contains_key (self : DnsCacheEntries) (key : DnsCacheKey) : Bool :=
  match self with
  | .Small entries => entries.any fun p => p.1 == key
  | .Map index => index.entries.contains key

/-- The stored key that a hash map finds for another form of a key. -/
def find_equivalent (hasher : HashBuilder) (index : Index DnsCacheKey DnsCacheEntry)
    (form : List HashWrite) (equivalent : DnsCacheKey → Bool) : Option DnsCacheKey :=
  (hasher.probe index.entries.keys).find? fun key =>
    hasher.finish key.hash == hasher.finish form && equivalent key

/-- `Equivalent` of a question for the keys of a hash map. -/
def question_equivalent (question : DnsPacketQuestionView) (key : DnsCacheKey) : Bool :=
  match packet_question_matches_key question key with
  | .ok found => found
  | .error _ => false

def question_hash (question : DnsPacketQuestionView) : List HashWrite :=
  hash_dns_cache_key_wire_parts question.qname_wire question.qtype question.qclass

def get_view (self : DnsCacheEntries) (hasher : HashBuilder) (view : DnsCacheKeyView) :
    Option DnsCacheEntry :=
  match self with
  | .Small entries => (entries.find? fun p => p.1.matches_view view).map Prod.snd
  | .Map index => (find_equivalent hasher index view.hash (·.matches_view view)).bind index.get

/-- The position of the first key that a question matches; a name that cannot be read ends
the search. -/
def question_position (question : DnsPacketQuestionView) :
    List (DnsCacheKey × DnsCacheEntry) → Except DnsError (Option Nat)
  | [] => .ok none
  | (candidate, _) :: entries =>
    match packet_question_matches_key question candidate with
    | .error err => .error err
    | .ok true => .ok (some 0)
    | .ok false => (question_position question entries).map (·.map (· + 1))

def get_packet_question (self : DnsCacheEntries) (hasher : HashBuilder)
    (question : DnsPacketQuestionView) : Except DnsError (Option DnsCacheEntry) :=
  match self with
  | .Small entries => do
    let position ← question_position question entries
    pure ((position.bind fun index => entries[index]?).map Prod.snd)
  | .Map index =>
    .ok ((find_equivalent hasher index (question_hash question)
      (question_equivalent question)).bind index.get)

def insert (self : DnsCacheEntries) (key : DnsCacheKey) (entry : DnsCacheEntry) :
    DnsCacheEntries :=
  match self with
  | .Small entries => .Small (Pairs.insert entries key entry)
  | .Map index => .Map (index.insert DnsCacheEntry.cache_expires_at key entry)

def remove (self : DnsCacheEntries) (key : DnsCacheKey) :
    Option DnsCacheEntry × DnsCacheEntries :=
  match self with
  | .Small entries =>
    let (taken, entries) := Pairs.take (· == key) entries
    (taken.map Prod.snd, .Small entries)
  | .Map index =>
    let (removed, index) := index.remove DnsCacheEntry.cache_expires_at key
    (removed, .Map index)

/-- `remove_entry` of a hash map, with the deadline of the entry. -/
def remove_found (index : Index DnsCacheKey DnsCacheEntry) (found : Option DnsCacheKey) :
    Option (DnsCacheKey × DnsCacheEntry) × DnsCacheEntries :=
  match found with
  | none => (none, .Map index)
  | some stored_key =>
    let (removed, index) := index.remove DnsCacheEntry.cache_expires_at stored_key
    (removed.map fun entry => (stored_key, entry), .Map index)

/-- What `remove_view` takes out, with its key. -/
def remove_view_entry (self : DnsCacheEntries) (hasher : HashBuilder) (view : DnsCacheKeyView) :
    Option (DnsCacheKey × DnsCacheEntry) × DnsCacheEntries :=
  match self with
  | .Small entries =>
    let (taken, entries) := Pairs.take (·.matches_view view) entries
    (taken, .Small entries)
  | .Map index => remove_found index (find_equivalent hasher index view.hash (·.matches_view view))

def remove_view (self : DnsCacheEntries) (hasher : HashBuilder) (view : DnsCacheKeyView) :
    Option DnsCacheEntry × DnsCacheEntries :=
  let (removed, left) := self.remove_view_entry hasher view
  (removed.map Prod.snd, left)

def remove_packet_question_entry (self : DnsCacheEntries) (hasher : HashBuilder)
    (question : DnsPacketQuestionView) :
    Except DnsError (Option (DnsCacheKey × DnsCacheEntry) × DnsCacheEntries) :=
  match self with
  | .Small entries => do
    match ← question_position question entries with
    | none => pure (none, .Small entries)
    | some index => pure (entries[index]?, .Small (Vec.swap_remove entries index))
  | .Map index =>
    .ok (remove_found index (find_equivalent hasher index (question_hash question)
      (question_equivalent question)))

def remove_packet_question (self : DnsCacheEntries) (hasher : HashBuilder)
    (question : DnsPacketQuestionView) : Except DnsError (Option DnsCacheEntry × DnsCacheEntries) := do
  let (removed, left) ← self.remove_packet_question_entry hasher question
  pure (removed.map Prod.snd, left)

/-- The entries removed by a sweep, with what is left; `none` sweeps without a limit. -/
def sweep (self : DnsCacheEntries) (now_unix : Int) (limit : Option Nat) :
    List (DnsCacheKey × DnsCacheEntry) × DnsCacheEntries :=
  match self with
  | .Small entries =>
    let (removed, entries) := Pairs.sweep DnsCacheEntry.cache_expires_at now_unix limit entries
    (removed, .Small entries)
  | .Map index =>
    let (removed, index) := index.sweep DnsCacheEntry.cache_expires_at now_unix limit
    (removed, .Map index)

def remove_expired (self : DnsCacheEntries) (now_unix : Int) : Nat × DnsCacheEntries :=
  let left := (self.sweep now_unix none).2
  (self.len - left.len, left)

def remove_expired_entries (self : DnsCacheEntries) (now_unix : Int) (limit : Nat) :
    List (DnsCacheKey × DnsCacheEntry) × DnsCacheEntries :=
  self.sweep now_unix (some limit)

def next_expiry_unix : DnsCacheEntries → Option Int
  | .Small entries => (entries.map fun p => p.2.cache_expires_at).min?
  | .Map index => index.first.map Deadline.deadline

def oldest_key : DnsCacheEntries → Option DnsCacheKey × DnsCacheEntries
  | .Small entries => (Pairs.oldest DnsCacheEntry.cache_expires_at entries, .Small entries)
  | .Map index =>
    let (oldest, index) := index.oldest DnsCacheEntry.cache_expires_at
    (oldest, .Map index)

/-! ### The entries through their lookups -/

/-- Keys are unique and the deadline index is exact. -/
def Exact : DnsCacheEntries → Prop
  | .Small entries => Pairs.Distinct entries
  | .Map index => index.Exact DnsCacheEntry.cache_expires_at

theorem exact_new (capacity : Nat) : (new capacity).Exact := by
  rw [new]
  split_ifs
  · exact nodup_nil
  · exact exact_empty

variable {self : DnsCacheEntries}

theorem mem_iter (h : self.Exact) (key : DnsCacheKey) (entry : DnsCacheEntry) :
    (key, entry) ∈ self.iter ↔ self.get key = some entry := by
  cases self with
  | Small entries => exact (Pairs.get_eq_some_iff h).symm
  | Map index => exact mem_toList_iff_getElem?_eq_some

theorem iter_keys_nodup (h : self.Exact) : (self.iter.map Prod.fst).Nodup := by
  cases self with
  | Small entries => exact h
  | Map index => exact pairwise_map.mpr (Table.toList_keys_distinct index.entries)

theorem get_insert (self : DnsCacheEntries) (key : DnsCacheKey) (entry : DnsCacheEntry) :
    (self.insert key entry).get = Function.update self.get key (some entry) := by
  cases self with
  | Small entries => exact Pairs.get_insert entries key entry
  | Map index => exact Index.get_insert index key entry

theorem Exact.insert (h : self.Exact) (key : DnsCacheKey) (entry : DnsCacheEntry) :
    (self.insert key entry).Exact := by
  cases self with
  | Small entries => exact Pairs.distinct_insert h key entry
  | Map index => exact Index.Exact.insert h key entry

variable {index : Index DnsCacheKey DnsCacheEntry}

/-- What a removal by a stored key does to a map. -/
theorem remove_found_spec (h : index.Exact DnsCacheEntry.cache_expires_at) (p : DnsCacheKey → Bool)
    (found : Option DnsCacheKey) (hsome : ∀ key, found = some key → p key = true ∧ index.get key ≠ none)
    (hnone : found = none → ∀ key entry, index.get key = some entry → p key = false) :
    (remove_found index found).2.Exact ∧
      Taken p index.get (remove_found index found).2.get (remove_found index found).1 := by
  cases found with
  | none => exact ⟨h, .absent (hnone rfl) rfl⟩
  | some key =>
    obtain ⟨hp, hne⟩ := hsome key rfl
    obtain ⟨entry, hk⟩ := Option.ne_none_iff_exists'.mp hne
    obtain ⟨hexact, hget⟩ := h.remove hk
    rw [remove_eq _ hk] at hexact hget
    rw [remove_found, remove_eq _ hk]
    exact ⟨hexact, .found key entry hp hk hget⟩

section

variable {hasher : HashBuilder} {form : List HashWrite} {equivalent : DnsCacheKey → Bool}

theorem find_equivalent_some {key : DnsCacheKey}
    (h : find_equivalent hasher index form equivalent = some key) :
    (hasher.finish key.hash == hasher.finish form && equivalent key) = true ∧ index.get key ≠ none := by
  have hp := find?_some h
  refine ⟨hp, ?_⟩
  have hmem := (hasher.probe_perm _).mem_iff.mp (mem_of_find?_eq_some h)
  rw [Std.TreeMap.mem_keys, mem_iff_isSome_getElem?, Option.isSome_iff_ne_none] at hmem
  exact hmem

theorem find_equivalent_none (h : find_equivalent hasher index form equivalent = none)
    (key : DnsCacheKey) (entry : DnsCacheEntry) (hk : index.get key = some entry) :
    (hasher.finish key.hash == hasher.finish form && equivalent key) = false := by
  have hmem : key ∈ hasher.probe index.entries.keys := by
    rw [(hasher.probe_perm _).mem_iff, Std.TreeMap.mem_keys, mem_iff_isSome_getElem?]
    rw [Index.get] at hk
    rw [hk]
    rfl
  rw [← Bool.not_eq_true]
  exact find?_eq_none.mp h key hmem

end

theorem remove_find_equivalent (h : index.Exact DnsCacheEntry.cache_expires_at)
    (hasher : HashBuilder) (form : List HashWrite) (equivalent : DnsCacheKey → Bool) :
    (remove_found index (find_equivalent hasher index form equivalent)).2.Exact ∧
      Taken (fun key => hasher.finish key.hash == hasher.finish form && equivalent key) index.get
        (remove_found index (find_equivalent hasher index form equivalent)).2.get
        (remove_found index (find_equivalent hasher index form equivalent)).1 :=
  remove_found_spec h _ _ (fun _ => find_equivalent_some) find_equivalent_none

theorem remove_spec (h : self.Exact) (key : DnsCacheKey) :
    (self.remove key).2.Exact ∧ (self.remove key).1 = self.get key ∧
      (self.remove key).2.get = Function.update self.get key none := by
  cases self with
  | Small entries =>
    obtain ⟨hd, htaken⟩ := Pairs.take_spec (· == key) h
    exact ⟨hd, htaken.of_key⟩
  | Map index =>
    cases hk : index.get key with
    | none =>
      rw [remove, remove_none _ hk]
      exact ⟨h, hk.symm, (update_none_of_get hk).symm⟩
    | some entry =>
      obtain ⟨hexact, hget⟩ := Index.Exact.remove h hk
      rw [remove_eq _ hk] at hexact hget
      rw [remove, remove_eq _ hk]
      exact ⟨hexact, hk.symm, hget⟩

theorem remove_view_entry_spec (h : self.Exact) (hasher : HashBuilder) (view : DnsCacheKeyView) :
    (self.remove_view_entry hasher view).2.Exact ∧
      ∃ p, Taken p self.get (self.remove_view_entry hasher view).2.get
        (self.remove_view_entry hasher view).1 := by
  cases self with
  | Small entries =>
    obtain ⟨hd, htaken⟩ := Pairs.take_spec (·.matches_view view) h
    exact ⟨hd, _, htaken⟩
  | Map index =>
    obtain ⟨hexact, htaken⟩ :=
      remove_find_equivalent h hasher view.hash (·.matches_view view)
    exact ⟨hexact, _, htaken⟩

variable {question : DnsPacketQuestionView} {entries : List (DnsCacheKey × DnsCacheEntry)}

theorem question_position_some {index : Nat} (h : question_position question entries = .ok (some index)) :
    ∃ p, entries[index]? = some p ∧ packet_question_matches_key question p.1 = .ok true := by
  fun_induction question_position question entries generalizing index with
  | case1 | case2 => cases h
  | case3 key entry entries hm =>
    cases h
    exact ⟨(key, entry), rfl, hm⟩
  | case4 key entry entries hm ih =>
    obtain ⟨position, hrest, hindex⟩ := Fallible.map_ok h
    obtain ⟨index', rfl, rfl⟩ := Option.map_eq_some_iff.mp hindex
    exact ih hrest

theorem question_position_none (h : question_position question entries = .ok none) :
    ∀ p ∈ entries, packet_question_matches_key question p.1 = .ok false := by
  fun_induction question_position question entries with
  | case1 => exact forall_mem_nil _
  | case2 | case3 => cases h
  | case4 key entry entries hm ih =>
    obtain ⟨position, hrest, hindex⟩ := Fallible.map_ok h
    exact forall_mem_cons.mpr ⟨hm, ih (Option.map_eq_none_iff.mp hindex ▸ hrest)⟩

theorem remove_packet_question_entry_spec {left : DnsCacheEntries} (h : self.Exact)
    {hasher : HashBuilder} {removed : Option (DnsCacheKey × DnsCacheEntry)}
    (hok : self.remove_packet_question_entry hasher question = .ok (removed, left)) :
    left.Exact ∧ ∃ p, Taken p self.get left.get removed := by
  cases self with
  | Small entries =>
    obtain ⟨position, hpos, hok⟩ := Fallible.bind_ok hok
    cases position with
    | none =>
      cases hok
      exact ⟨h, question_equivalent question, .absent (fun key entry hk => by
        rw [question_equivalent, question_position_none hpos (key, entry)
          ((Pairs.get_eq_some_iff h).mp hk)]) rfl⟩
    | some index =>
      cases hok
      obtain ⟨⟨key, entry⟩, hget, hm⟩ := question_position_some hpos
      obtain ⟨hd, hk, hleft⟩ := Pairs.get_swap_remove h hget
      rw [hget]
      exact ⟨hd, question_equivalent question,
        .found key entry (by rw [question_equivalent, hm]) hk hleft⟩
  | Map index =>
    have hr := Except.ok.inj hok
    obtain ⟨hexact, htaken⟩ :=
      remove_find_equivalent h hasher (question_hash question) (question_equivalent question)
    rw [hr] at hexact htaken
    exact ⟨hexact, _, htaken⟩

theorem sweep_spec (h : self.Exact) (now_unix : Int) (limit : Option Nat) :
    (self.sweep now_unix limit).2.Exact ∧
      Swept DnsCacheEntry.cache_expires_at now_unix limit self.get (self.sweep now_unix limit).2.get
        (self.sweep now_unix limit).1 := by
  cases self with
  | Small entries => exact Pairs.sweep_spec _ now_unix limit h
  | Map index => exact sweep_spec h now_unix limit

theorem oldest_key_spec (h : self.Exact) :
    self.oldest_key.2.Exact ∧ self.oldest_key.2.get = self.get ∧
      ∀ key, self.oldest_key.1 = some key → ∃ entry, self.get key = some entry ∧
        ∀ key' entry', self.get key' = some entry' →
          entry.cache_expires_at ≤ entry'.cache_expires_at := by
  cases self with
  | Small entries => exact ⟨h, rfl, fun key hkey => Pairs.oldest_spec h hkey⟩
  | Map index => exact oldest_spec h

/-! ### The next expiry -/

def expiries (self : DnsCacheEntries) : Set Int :=
  {t | ∃ key entry, self.get key = some entry ∧ entry.cache_expires_at = t}

theorem mem_expiries_small (h : Pairs.Distinct entries) (t : Int) :
    t ∈ (Small entries).expiries ↔ t ∈ entries.map fun p => p.2.cache_expires_at := by
  rw [mem_map]
  constructor
  · rintro ⟨key, entry, hk, rfl⟩
    exact ⟨(key, entry), (Pairs.get_eq_some_iff h).mp hk, rfl⟩
  · rintro ⟨p, hp, rfl⟩
    exact ⟨p.1, p.2, (Pairs.get_eq_some_iff h).mpr hp, rfl⟩

theorem next_expiry_unix_isLeast (h : self.Exact) (t : Int) :
    self.next_expiry_unix = some t ↔ IsLeast self.expiries t := by
  cases self with
  | Small entries =>
    rw [next_expiry_unix, min?_eq_some_iff, IsLeast, mem_expiries_small h, mem_lowerBounds]
    refine and_congr_right fun _ => forall_congr' fun b => ?_
    rw [mem_expiries_small h]
  | Map index =>
    rw [next_expiry_unix, Option.map_eq_some_iff]
    constructor
    · rintro ⟨d, hd, rfl⟩
      obtain ⟨e, he, hexp, hmin⟩ := first_some h hd
      refine ⟨⟨d.key, e, he, hexp⟩, ?_⟩
      rintro _ ⟨key, entry, hk, rfl⟩
      exact hmin key entry hk
    · rintro ⟨⟨key, entry, hk, rfl⟩, hmin⟩
      cases hd : index.first with
      | none =>
        have hnone := first_none h hd key
        rw [get, hnone] at hk
        cases hk
      | some d =>
        obtain ⟨e, he, hexp, hle⟩ := first_some h hd
        exact ⟨d, rfl, Int.le_antisymm (hle key entry hk) (hmin ⟨d.key, e, he, hexp⟩)⟩

theorem next_expiry_unix_eq_none (h : self.Exact) : self.next_expiry_unix = none ↔ self.expiries = ∅ := by
  constructor
  · intro hnone
    rw [Set.eq_empty_iff_forall_notMem]
    rintro _ ⟨key, entry, hk, rfl⟩
    cases self with
    | Small entries =>
      rw [next_expiry_unix, min?_eq_none_iff, map_eq_nil_iff] at hnone
      subst hnone
      cases hk
    | Map index =>
      have hfirst := first_none h (Option.map_eq_none_iff.mp hnone) key
      rw [get, hfirst] at hk
      cases hk
  · intro hempty
    cases hnext : self.next_expiry_unix with
    | none => rfl
    | some t =>
      have hmem := ((next_expiry_unix_isLeast h t).mp hnext).1
      rw [hempty] at hmem
      exact absurd hmem (Set.notMem_empty t)

end DnsCacheEntries

end DaeNext.Dns
