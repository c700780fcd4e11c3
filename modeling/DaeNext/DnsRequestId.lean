/-
Request ids of the multiplexed DNS upstreams.

`DnsRequestIdAllocator` keeps two bitmaps of 65536 ids: the occupied ones, and those released
less than `quarantine_duration` ago. A released id waits in a queue with its deadline; an
allocation first drops the deadlines that have passed from the front of that queue.

As the clock never goes back, the queue is ordered by deadline, so what is dropped is all that
has passed (`reap_eq_filter`). An allocation then draws 32 random ids and goes on from the last
one through all the others: it fails only where no id is left (`search_cases`).

Instants and durations are in nanoseconds.
-/
import DaeNext.LibBitWindow
import DaeNext.LibRun
import Mathlib.Data.List.Nodup

set_option autoImplicit false

namespace DaeNext.Dns

open List BitWindow

def DNS_UDP_REQUEST_ID_SPACE : Nat := 65536

def DNS_REQUEST_ID_BITMAP_WORDS : Nat := 1024

/-! ## Bitmaps -/

/-- `[u64; DNS_REQUEST_ID_BITMAP_WORDS]`: one bit for each id. -/
structure DnsRequestIdBitmap where
  words : List (BitVec 64)
  size : words.length = DNS_REQUEST_ID_BITMAP_WORDS
deriving DecidableEq, Repr

namespace DnsRequestIdBitmap

def zero : DnsRequestIdBitmap where
  words := List.replicate DNS_REQUEST_ID_BITMAP_WORDS 0#64
  size := List.length_replicate

variable (bitmap : DnsRequestIdBitmap) (id : UInt16)

def test : Bool := BitWindow.test bitmap.words id.toNat

def assign (value : Bool) : DnsRequestIdBitmap where
  words :=
    if value then BitWindow.set bitmap.words id.toNat else BitWindow.clear bitmap.words id.toNat
  size := by
    split_ifs with h
    · rw [BitWindow.set, List.length_modify, bitmap.size]
    · rw [BitWindow.clear, List.length_modify, bitmap.size]

def count : Nat := BitWindow.count bitmap.words DNS_UDP_REQUEST_ID_SPACE

theorem id_lt : id.toNat < DNS_UDP_REQUEST_ID_SPACE := UInt16.toNat_lt id

theorem slot_lt : id.toNat / 64 < bitmap.words.length := by
  have hid : id.toNat < 65536 := UInt16.toNat_lt id
  rw [bitmap.size, DNS_REQUEST_ID_BITMAP_WORDS]
  omega

theorem test_eq : bitmap.test id = bit bitmap.words id.toNat :=
  test_eq_bit _ _

@[simp] theorem test_zero : zero.test id = false := by
  rw [test_eq]
  exact bit_replicate_zero _ _

theorem words_assign_true :
    (bitmap.assign id true).words = BitWindow.set bitmap.words id.toNat := rfl

theorem words_assign_false :
    (bitmap.assign id false).words = clear bitmap.words id.toNat := rfl

theorem test_assign (value : Bool) (other : UInt16) :
    (bitmap.assign id value).test other = if id = other then value else bitmap.test other := by
  rw [test_eq, test_eq]
  cases value with
  | true =>
    rw [words_assign_true, bit_set (bitmap.slot_lt id)]
    by_cases h : id = other
    · rw [if_pos h, h, decide_eq_true rfl, Bool.or_true]
    · rw [if_neg h, decide_eq_false (fun heq => h (UInt16.toNat_inj.mp heq)), Bool.or_false]
  | false =>
    rw [words_assign_false, bit_clear (bitmap.slot_lt id)]
    by_cases h : id = other
    · rw [if_pos h, h, decide_eq_true rfl, Bool.not_true, Bool.and_false]
    · rw [if_neg h, decide_eq_false (fun heq => h (UInt16.toNat_inj.mp heq)), Bool.not_false,
        Bool.and_true]

theorem count_zero : zero.count = 0 := count_replicate_zero _ _

variable {bitmap id}

theorem count_assign_true (h : bitmap.test id = false) :
    (bitmap.assign id true).count = bitmap.count + 1 := by
  rw [test_eq] at h
  exact count_set (bitmap.slot_lt id) (id_lt id) h

theorem count_assign_false (h : bitmap.test id = true) :
    bitmap.count = (bitmap.assign id false).count + 1 := by
  rw [test_eq] at h
  exact count_clear (bitmap.slot_lt id) (id_lt id) h

theorem bit_ofNat {n : Nat} (h : n < DNS_UDP_REQUEST_ID_SPACE) :
    bit bitmap.words n = bitmap.test (UInt16.ofNat n) := by
  rw [test_eq, UInt16.toNat_ofNat_of_lt' h]

theorem count_eq_length {ids : List UInt16} (hnodup : ids.Nodup)
    (htest : ∀ id, bitmap.test id = true ↔ id ∈ ids) : bitmap.count = ids.length := by
  have hmem : ∀ n < DNS_UDP_REQUEST_ID_SPACE,
      bit bitmap.words n = decide (n ∈ ids.map UInt16.toNat) := by
    intro n hn
    rw [bit_ofNat hn, Bool.eq_iff_iff, htest, decide_eq_true_iff, mem_map]
    constructor
    · intro h
      exact ⟨_, h, UInt16.toNat_ofNat_of_lt' hn⟩
    · rintro ⟨id, hid, rfl⟩
      rwa [UInt16.ofNat_toNat]
  have hids : (ids.map UInt16.toNat).Nodup :=
    hnodup.map_on fun _ _ _ _ heq => UInt16.toNat_inj.mp heq
  have hlt : ∀ n ∈ ids.map UInt16.toNat, n < DNS_UDP_REQUEST_ID_SPACE := by
    intro n hn
    obtain ⟨id, _, rfl⟩ := mem_map.mp hn
    exact id_lt id
  rw [count, BitWindow.count_eq_length hids hlt hmem, length_map]

/-- Two disjoint bitmaps leave an id free where their counts do not add up to all ids. -/
theorem count_add_lt_iff {other : DnsRequestIdBitmap}
    (hapart : ∀ id, bitmap.test id = true → other.test id = false) :
    bitmap.count + other.count < DNS_UDP_REQUEST_ID_SPACE
      ↔ ∃ id, bitmap.test id = false ∧ other.test id = false := by
  have hbits : ∀ n, bit bitmap.words n = true → bit other.words n = false := by
    intro n hn
    by_cases hlt : n < DNS_UDP_REQUEST_ID_SPACE
    · rw [bit_ofNat hlt] at hn ⊢
      exact hapart _ hn
    · have hout : other.words.length ≤ n / 64 := by
        rw [other.size, DNS_REQUEST_ID_BITMAP_WORDS]
        rw [DNS_UDP_REQUEST_ID_SPACE] at hlt
        omega
      rw [bit, word, getD_eq_getElem?_getD, getElem?_eq_none hout, Option.getD_none,
        BitVec.getLsbD_zero]
  rw [count, count, BitWindow.count_add_lt_iff hbits]
  constructor
  · rintro ⟨n, hn, hfirst, hsecond⟩
    rw [bit_ofNat hn] at hfirst hsecond
    exact ⟨_, hfirst, hsecond⟩
  · rintro ⟨id, hfirst, hsecond⟩
    rw [test_eq] at hfirst hsecond
    exact ⟨id.toNat, id_lt id, hfirst, hsecond⟩

end DnsRequestIdBitmap

/-! ## The allocator -/

structure DnsRequestIdAllocator where
  occupied : DnsRequestIdBitmap
  quarantined : DnsRequestIdBitmap
  quarantine_deadlines : List (UInt16 × Nat)
  in_use : Nat
  quarantine_duration : Nat
deriving DecidableEq, Repr

namespace DnsRequestIdAllocator

def new (quarantine_duration : Nat) : DnsRequestIdAllocator where
  occupied := .zero
  quarantined := .zero
  quarantine_deadlines := []
  in_use := 0
  quarantine_duration

variable (self : DnsRequestIdAllocator)

def is_occupied (id : UInt16) : Bool := self.occupied.test id

def is_quarantined (id : UInt16) : Bool := self.quarantined.test id

def is_unavailable (id : UInt16) : Bool := self.is_occupied id || self.is_quarantined id

/-- The loop of `reap_quarantine`, on the queue and the bitmap. -/
def reap (now : Nat) : List (UInt16 × Nat) → DnsRequestIdBitmap →
    List (UInt16 × Nat) × DnsRequestIdBitmap
  | [], quarantined => ([], quarantined)
  | (id, deadline) :: queue, quarantined =>
    if deadline ≤ now then reap now queue (quarantined.assign id false)
    else ((id, deadline) :: queue, quarantined)

def reap_quarantine (now : Nat) : DnsRequestIdAllocator :=
  let reaped := reap now self.quarantine_deadlines self.quarantined
  { self with quarantine_deadlines := reaped.1, quarantined := reaped.2 }

def occupy (id : UInt16) : DnsRequestIdAllocator :=
  { self with occupied := self.occupied.assign id true, in_use := self.in_use + 1 }

/-- The candidate of an attempt: the first 32 are random, each later one follows the one before.
`random` gives what the pool answers to each question. -/
def candidate (random : Nat → Except String UInt16) (attempt : Nat) (next : UInt16) :
    Except String UInt16 :=
  if attempt < 32 then random attempt else .ok next

/-- The loop of `allocate_at`, with the attempts that are left. -/
def search (random : Nat → Except String UInt16) :
    Nat → Nat → UInt16 → Except String UInt16 × DnsRequestIdAllocator
  | 0, _, _ => (.error "DNS multiplex request id space is exhausted", self)
  | attempts + 1, attempt, next =>
    match candidate random attempt next with
    | .error error => (.error error, self)
    | .ok id =>
      if self.is_unavailable id then search random attempts (attempt + 1) (id + 1)
      else (.ok id, self.occupy id)

def allocate_at (capacity now : Nat) (random : Nat → Except String UInt16) :
    Except String UInt16 × DnsRequestIdAllocator :=
  let self := self.reap_quarantine now
  if self.in_use ≥ min capacity DNS_UDP_REQUEST_ID_SPACE then
    (.error "DNS multiplex pending request limit is reached", self)
  else if self.in_use + self.quarantine_deadlines.length ≥ DNS_UDP_REQUEST_ID_SPACE then
    (.error "DNS multiplex request id space is quarantined", self)
  else self.search random (DNS_UDP_REQUEST_ID_SPACE + 32) 0 0

def release_at (id : UInt16) (now : Nat) : DnsRequestIdAllocator :=
  if self.is_occupied id then
    { self with
      occupied := self.occupied.assign id false
      in_use := self.in_use - 1
      quarantined := self.quarantined.assign id true
      quarantine_deadlines := self.quarantine_deadlines ++ [(id, now + self.quarantine_duration)] }
  else self

def occupied_ids : List UInt16 :=
  ((List.range DNS_UDP_REQUEST_ID_SPACE).map UInt16.ofNat).filter self.is_occupied

/-! ## What each operation does -/

@[simp] theorem is_occupied_new (duration : Nat) (id : UInt16) :
    (new duration).is_occupied id = false := DnsRequestIdBitmap.test_zero id

@[simp] theorem is_occupied_reap_quarantine (now : Nat) (id : UInt16) :
    (self.reap_quarantine now).is_occupied id = self.is_occupied id := rfl

@[simp] theorem in_use_reap_quarantine (now : Nat) :
    (self.reap_quarantine now).in_use = self.in_use := rfl

theorem is_occupied_occupy (id other : UInt16) :
    (self.occupy id).is_occupied other = if id = other then true else self.is_occupied other :=
  DnsRequestIdBitmap.test_assign _ _ _ _

theorem is_occupied_release_at (id other : UInt16) (now : Nat) :
    (self.release_at id now).is_occupied other
      = if id = other then false else self.is_occupied other := by
  rw [release_at]
  by_cases hocc : self.is_occupied id = true
  · rw [if_pos hocc]
    exact DnsRequestIdBitmap.test_assign _ _ _ _
  · rw [if_neg hocc]
    by_cases hid : id = other
    · rw [if_pos hid, ← hid]
      exact Bool.eq_false_iff.mpr hocc
    · rw [if_neg hid]

section Search

variable (random : Nat → Except String UInt16)

/-- The scan after the random attempts: it ends at a free id, or has passed them all. -/
theorem scan_cases (attempts attempt : Nat) (next : UInt16) (hattempt : 32 ≤ attempt) :
    (∃ id, self.is_unavailable id = false ∧
      self.search random attempts attempt next = (.ok id, self.occupy id)) ∨
    (∃ error, self.search random attempts attempt next = (.error error, self)) ∧
      ∀ n < attempts, self.is_unavailable (next + UInt16.ofNat n) = true := by
  induction attempts generalizing attempt next with
  | zero =>
    right
    refine ⟨⟨_, rfl⟩, ?_⟩
    omega
  | succ attempts ih =>
    rw [search, candidate, if_neg (by omega)]
    cases hfree : self.is_unavailable next with
    | false => exact .inl ⟨next, hfree, by simp only [hfree, Bool.false_eq_true, if_false]⟩
    | true =>
      simp only [hfree, if_true]
      obtain hfound | ⟨herror, hpassed⟩ := ih (attempt + 1) (next + 1) (by omega)
      · exact .inl hfound
      · refine .inr ⟨herror, ?_⟩
        intro n hn
        cases n with
        | zero => exact (UInt16.add_zero next).symm ▸ hfree
        | succ n =>
          rw [UInt16.ofNat_add, UInt16.add_comm (UInt16.ofNat n), ← UInt16.add_assoc]
          exact hpassed n (by omega)

/-- The loop from the random attempt before the last `left` ones. -/
theorem search_cases (left attempt : Nat) (next : UInt16) (hattempt : attempt + left = 32) :
    (∃ id, self.is_unavailable id = false ∧
      self.search random (DNS_UDP_REQUEST_ID_SPACE + left) attempt next
        = (.ok id, self.occupy id)) ∨
    (∃ error, self.search random (DNS_UDP_REQUEST_ID_SPACE + left) attempt next
        = (.error error, self)) ∧
      ((∃ n < 32, ∃ error, random n = .error error) ∨
        ∀ id, self.is_unavailable id = true) := by
  induction left generalizing attempt next with
  | zero =>
    obtain hfound | ⟨herror, hpassed⟩ := self.scan_cases random (DNS_UDP_REQUEST_ID_SPACE + 0)
      attempt next (by omega)
    · exact .inl hfound
    · refine .inr ⟨herror, .inr ?_⟩
      -- the scan went once round, so it met every id
      intro id
      have hid := hpassed (id - next).toNat (UInt16.toNat_lt _)
      rwa [UInt16.ofNat_toNat, UInt16.add_comm, UInt16.sub_add_cancel] at hid
  | succ left ih =>
    rw [← Nat.add_assoc, search, candidate, if_pos (by omega)]
    cases hdraw : random attempt with
    | error error => exact .inr ⟨⟨error, rfl⟩, .inl ⟨attempt, by omega, error, hdraw⟩⟩
    | ok id =>
      cases hfree : self.is_unavailable id with
      | false => exact .inl ⟨id, hfree, by simp only [hfree, Bool.false_eq_true, if_false]⟩
      | true =>
        simp only [hfree, if_true]
        exact ih (attempt + 1) (id + 1) (by omega)

end Search

/-- An allocation drops the expired deadlines; then it takes a free id or fails. -/
theorem allocate_at_cases (capacity now : Nat) (random : Nat → Except String UInt16) :
    (∃ id, (self.reap_quarantine now).is_unavailable id = false ∧
      self.in_use < min capacity DNS_UDP_REQUEST_ID_SPACE ∧
      self.allocate_at capacity now random = (.ok id, (self.reap_quarantine now).occupy id)) ∨
    (∃ error, self.allocate_at capacity now random = (.error error, self.reap_quarantine now)) ∧
      (min capacity DNS_UDP_REQUEST_ID_SPACE ≤ self.in_use ∨
        DNS_UDP_REQUEST_ID_SPACE
          ≤ self.in_use + (self.reap_quarantine now).quarantine_deadlines.length ∨
        (∃ n < 32, ∃ error, random n = .error error) ∨
        ∀ id, (self.reap_quarantine now).is_unavailable id = true) := by
  rw [allocate_at, in_use_reap_quarantine]
  by_cases hcapacity : self.in_use ≥ min capacity DNS_UDP_REQUEST_ID_SPACE
  · rw [if_pos hcapacity]
    exact .inr ⟨⟨_, rfl⟩, .inl hcapacity⟩
  rw [if_neg hcapacity]
  by_cases hspace : self.in_use + (self.reap_quarantine now).quarantine_deadlines.length
      ≥ DNS_UDP_REQUEST_ID_SPACE
  · rw [if_pos hspace]
    exact .inr ⟨⟨_, rfl⟩, .inr (.inl hspace)⟩
  rw [if_neg hspace]
  obtain ⟨id, hfree, hfound⟩ | ⟨herror, hwhy⟩ :=
    (self.reap_quarantine now).search_cases random 32 0 0 rfl
  · exact .inl ⟨id, hfree, by omega, hfound⟩
  · exact .inr ⟨herror, .inr (.inr hwhy)⟩

/-! ## The queue and the bitmaps agree -/

/-- The bitmap marks the ids of the queue, each of which is there once. -/
structure Queued (queue : List (UInt16 × Nat)) (quarantined : DnsRequestIdBitmap) : Prop where
  nodup : (queue.map Prod.fst).Nodup
  marked : ∀ id, quarantined.test id = true ↔ id ∈ queue.map Prod.fst

theorem Queued.reap {queue : List (UInt16 × Nat)} {quarantined : DnsRequestIdBitmap} (now : Nat)
    (h : Queued queue quarantined) :
    Queued (reap now queue quarantined).1 (reap now queue quarantined).2 := by
  induction queue generalizing quarantined with
  | nil => exact h
  | cons entry queue ih =>
    obtain ⟨id, deadline⟩ := entry
    rw [DnsRequestIdAllocator.reap]
    by_cases hdue : deadline ≤ now
    · rw [if_pos hdue]
      obtain ⟨hnot, hnodup⟩ := nodup_cons.mp h.nodup
      apply ih
      refine ⟨hnodup, ?_⟩
      intro other
      rw [DnsRequestIdBitmap.test_assign]
      by_cases hid : id = other
      · rw [if_pos hid, ← hid]
        exact ⟨nofun, fun hmem => absurd hmem hnot⟩
      · rw [if_neg hid, h.marked other, map_cons, mem_cons]
        exact or_iff_right (Ne.symm hid)
    · rw [if_neg hdue]
      exact h

/-- In a queue ordered by deadline, those that have passed are a front part. -/
theorem reap_eq_filter {queue : List (UInt16 × Nat)} (now : Nat)
    (quarantined : DnsRequestIdBitmap) (h : queue.Pairwise (fun a b => a.2 ≤ b.2)) :
    (reap now queue quarantined).1 = queue.filter (fun entry => decide (now < entry.2)) := by
  induction queue generalizing quarantined with
  | nil => rfl
  | cons entry queue ih =>
    obtain ⟨id, deadline⟩ := entry
    obtain ⟨hle, hrest⟩ := pairwise_cons.mp h
    rw [reap]
    by_cases hdue : deadline ≤ now
    · rw [if_pos hdue, filter_cons_of_neg (by simpa using hdue), ih _ hrest]
    · rw [if_neg hdue, eq_comm, filter_eq_self]
      intro entry hentry
      rw [decide_eq_true_iff]
      obtain rfl | hmem := mem_cons.mp hentry
      · exact Nat.lt_of_not_le hdue
      · exact Nat.lt_of_lt_of_le (Nat.lt_of_not_le hdue) (hle entry hmem)

/-- What holds between the calls, where `clock` is not before the last of them. -/
structure Sound (allocator : DnsRequestIdAllocator) (clock : Nat) : Prop where
  count : allocator.in_use = allocator.occupied.count
  queued : Queued allocator.quarantine_deadlines allocator.quarantined
  apart : ∀ id, allocator.is_occupied id = true → allocator.is_quarantined id = false
  ordered : allocator.quarantine_deadlines.Pairwise (fun a b => a.2 ≤ b.2)
  near : ∀ entry ∈ allocator.quarantine_deadlines, entry.2 ≤ clock + allocator.quarantine_duration

variable {clock : Nat}

namespace Sound

theorem new (duration clock : Nat) : (new duration).Sound clock where
  count := DnsRequestIdBitmap.count_zero.symm
  queued := by
    refine ⟨nodup_nil, ?_⟩
    intro id
    rw [DnsRequestIdAllocator.new, DnsRequestIdBitmap.test_zero, map_nil]
    exact ⟨nofun, nofun⟩
  apart := by
    intro id h
    rw [is_occupied_new] at h
    cases h
  ordered := List.Pairwise.nil
  near := by
    intro entry h
    exact absurd h not_mem_nil

variable {self} (h : self.Sound clock)

include h

theorem mono {later : Nat} (hle : clock ≤ later) : self.Sound later :=
  { h with
    near := by
      intro entry hentry
      have hnear := h.near entry hentry
      omega }

theorem mem_reap_quarantine (now : Nat) (entry : UInt16 × Nat) :
    entry ∈ (self.reap_quarantine now).quarantine_deadlines
      ↔ entry ∈ self.quarantine_deadlines ∧ now < entry.2 := by
  rw [reap_quarantine, reap_eq_filter now _ h.ordered, mem_filter, decide_eq_true_iff]

theorem reap_quarantine (now : Nat) : (self.reap_quarantine now).Sound clock where
  count := h.count
  queued := h.queued.reap now
  apart := by
    intro id hocc
    have hapart := h.apart id hocc
    rw [Bool.eq_false_iff] at hapart ⊢
    intro hquarantined
    apply hapart
    -- what is still marked was marked
    obtain ⟨entry, hentry, rfl⟩ := mem_map.mp ((h.queued.reap now).marked id |>.mp hquarantined)
    exact (h.queued.marked _).mpr
      (mem_map_of_mem ((h.mem_reap_quarantine now entry).mp hentry).1)
  ordered := by
    rw [DnsRequestIdAllocator.reap_quarantine, reap_eq_filter now _ h.ordered]
    exact h.ordered.filter _
  near := by
    intro entry hentry
    exact h.near entry ((h.mem_reap_quarantine now entry).mp hentry).1

theorem occupy {id : UInt16} (hfree : self.is_unavailable id = false) : (self.occupy id).Sound clock := by
  rw [is_unavailable, Bool.or_eq_false_iff] at hfree
  refine ⟨?_, h.queued, ?_, h.ordered, h.near⟩
  · rw [DnsRequestIdAllocator.occupy, DnsRequestIdBitmap.count_assign_true hfree.1, h.count]
  · intro other hocc
    rw [is_occupied_occupy] at hocc
    by_cases hid : id = other
    · rw [← hid]
      exact hfree.2
    · rw [if_neg hid] at hocc
      exact h.apart other hocc

theorem allocate_at (capacity now : Nat) (random : Nat → Except String UInt16) :
    (self.allocate_at capacity now random).2.Sound clock := by
  obtain ⟨id, hfree, _, heq⟩ | ⟨⟨error, heq⟩, _⟩ := self.allocate_at_cases capacity now random
  · rw [heq]
    exact (h.reap_quarantine now).occupy hfree
  · rw [heq]
    exact h.reap_quarantine now

omit h in
theorem release_at {now : Nat} (h : self.Sound now) (id : UInt16) :
    (self.release_at id now).Sound now := by
  by_cases hocc : self.is_occupied id = true
  · have hfree := h.apart id hocc
    have hnot : id ∉ self.quarantine_deadlines.map Prod.fst := by
      intro hmem
      rw [is_quarantined, (h.queued.marked id).mpr hmem] at hfree
      cases hfree
    rw [DnsRequestIdAllocator.release_at, if_pos hocc]
    refine ⟨?_, ⟨?_, ?_⟩, ?_, ?_, ?_⟩
    · rw [h.count, DnsRequestIdBitmap.count_assign_false hocc, Nat.add_sub_cancel]
    · rw [map_append, map_singleton, nodup_append_comm]
      exact nodup_cons.mpr ⟨hnot, h.queued.nodup⟩
    · intro other
      rw [DnsRequestIdBitmap.test_assign, map_append, map_singleton, mem_append, mem_singleton]
      by_cases hid : id = other
      · rw [if_pos hid]
        exact ⟨fun _ => .inr hid.symm, fun _ => rfl⟩
      · rw [if_neg hid, h.queued.marked other]
        exact (or_iff_left (Ne.symm hid)).symm
    · intro other hother
      rw [is_occupied, DnsRequestIdBitmap.test_assign] at hother
      by_cases hid : id = other
      · rw [if_pos hid] at hother
        cases hother
      · rw [if_neg hid] at hother
        rw [is_quarantined, DnsRequestIdBitmap.test_assign, if_neg hid]
        exact h.apart other hother
    · rw [pairwise_append]
      refine ⟨h.ordered, pairwise_singleton _ _, ?_⟩
      intro entry hentry last hlast
      rw [mem_singleton.mp hlast]
      exact h.near entry hentry
    · intro entry hentry
      obtain hmem | hlast := mem_append.mp hentry
      · exact h.near entry hmem
      · rw [mem_singleton.mp hlast]
  · rw [DnsRequestIdAllocator.release_at, if_neg hocc]
    exact h

/-- The counter and the length of the queue add up to all ids where none is left. -/
theorem free_iff :
    self.in_use + self.quarantine_deadlines.length < DNS_UDP_REQUEST_ID_SPACE
      ↔ ∃ id, self.is_unavailable id = false := by
  have hqueue : self.quarantine_deadlines.length = self.quarantined.count := by
    rw [DnsRequestIdBitmap.count_eq_length h.queued.nodup h.queued.marked, length_map]
  rw [hqueue, h.count, DnsRequestIdBitmap.count_add_lt_iff h.apart]
  apply exists_congr
  intro id
  rw [is_unavailable, Bool.or_eq_false_iff]
  rfl

theorem in_use_eq : self.in_use = self.occupied_ids.length := by
  have hids : ((List.range DNS_UDP_REQUEST_ID_SPACE).map UInt16.ofNat).Nodup := by
    apply List.Nodup.map_on _ nodup_range
    intro a ha b hb heq
    have ha := UInt16.toNat_ofNat_of_lt' (mem_range.mp ha)
    have hb := UInt16.toNat_ofNat_of_lt' (mem_range.mp hb)
    rw [← ha, ← hb, heq]
  have hmem : ∀ id, self.occupied.test id = true ↔ id ∈ self.occupied_ids := by
    intro id
    rw [occupied_ids, mem_filter]
    constructor
    · intro hocc
      exact ⟨mem_map.mpr ⟨id.toNat, mem_range.mpr (DnsRequestIdBitmap.id_lt id),
        UInt16.ofNat_toNat⟩, hocc⟩
    · exact fun hmem => hmem.2
  rw [h.count]
  exact DnsRequestIdBitmap.count_eq_length (hids.filter _) hmem

end Sound

/-! ## Runs -/

inductive Call where
  | allocate_at (capacity now : Nat) (random : Nat → Except String UInt16)
  | release_at (id : UInt16) (now : Nat)

def Call.now : Call → Nat
  | .allocate_at _ now _ => now
  | .release_at _ now => now

def step (call : Call) : DnsRequestIdAllocator :=
  match call with
  | .allocate_at capacity now random => (self.allocate_at capacity now random).2
  | .release_at id now => self.release_at id now

def run (quarantine_duration : Nat) (calls : List Call) : DnsRequestIdAllocator :=
  Run.after step (new quarantine_duration) calls

/-- The clock does not go back. -/
def Forward (calls : List Call) : Prop := (calls.map Call.now).Pairwise (· ≤ ·)

/-- One of the calls released `id` at that time: it was in use then. -/
def Released (quarantine_duration : Nat) (calls : List Call) (id : UInt16) (time : Nat) : Prop :=
  ∃ before after, calls = before ++ .release_at id time :: after ∧
    (run quarantine_duration before).is_occupied id = true

variable {duration : Nat} {calls : List Call} {call : Call}

theorem run_append : run duration (calls ++ [call]) = (run duration calls).step call :=
  Run.after_concat _ _ _ _

theorem released_append {id : UInt16} {time : Nat} :
    Released duration (calls ++ [call]) id time
      ↔ Released duration calls id time ∨
        call = .release_at id time ∧ (run duration calls).is_occupied id = true := by
  constructor
  · rintro ⟨before, after, heq, hocc⟩
    rcases eq_nil_or_concat' after with rfl | ⟨after, last, rfl⟩
    · obtain ⟨rfl, hlast⟩ := append_inj' heq rfl
      exact .inr ⟨List.singleton_inj.mp hlast, hocc⟩
    · rw [← cons_append, ← append_assoc] at heq
      exact .inl ⟨before, after, (append_inj' heq rfl).1, hocc⟩
  · rintro (⟨before, after, rfl, hocc⟩ | ⟨rfl, hocc⟩)
    · exact ⟨before, after ++ [call], by rw [append_assoc, cons_append], hocc⟩
    · exact ⟨calls, [], rfl, hocc⟩

theorem quarantine_duration_step : (self.step call).quarantine_duration = self.quarantine_duration := by
  cases call with
  | allocate_at capacity now random =>
    obtain ⟨id, _, _, heq⟩ | ⟨⟨error, heq⟩, _⟩ := self.allocate_at_cases capacity now random
    · rw [step, heq]
      rfl
    · rw [step, heq]
      rfl
  | release_at id now =>
    rw [step, release_at]
    split_ifs with hocc
    · rfl
    · rfl

theorem quarantine_duration_run : (run duration calls).quarantine_duration = duration := by
  induction calls using List.reverseRecOn with
  | nil => rfl
  | append_singleton calls call ih => rw [run_append, quarantine_duration_step, ih]

theorem Sound.step {self : DnsRequestIdAllocator} (h : self.Sound call.now) :
    (self.step call).Sound call.now := by
  cases call with
  | allocate_at capacity now random => exact h.allocate_at capacity now random
  | release_at id now => exact h.release_at id

theorem forward_append (h : Forward (calls ++ [call])) :
    Forward calls ∧ ∀ earlier ∈ calls, earlier.now ≤ call.now := by
  rw [Forward, map_append, pairwise_append] at h
  refine ⟨h.1, ?_⟩
  intro earlier hmem
  exact h.2.2 _ (mem_map_of_mem hmem) _ (mem_singleton.mpr rfl)

theorem sound_run (hforward : Forward calls) (hclock : ∀ call ∈ calls, call.now ≤ clock) :
    (run duration calls).Sound clock := by
  induction calls using List.reverseRecOn generalizing clock with
  | nil => exact Sound.new duration clock
  | append_singleton calls call ih =>
    obtain ⟨hforward, hbefore⟩ := forward_append hforward
    have hnow : call.now ≤ clock := hclock call (mem_append_right _ (mem_singleton.mpr rfl))
    rw [run_append]
    exact (ih hforward hbefore).step.mono hnow

/-! ### The queue is what was released lately -/

/-- Every deadline of the queue is that of a release. -/
def Traced (duration : Nat) (calls : List Call) : Prop :=
  ∀ entry ∈ (run duration calls).quarantine_deadlines,
    ∃ time, Released duration calls entry.1 time ∧ entry.2 = time + duration

/-- A release is in the queue until its deadline has passed. -/
def Kept (duration : Nat) (calls : List Call) (clock : Nat) : Prop :=
  ∀ id time, Released duration calls id time →
    (id, time + duration) ∈ (run duration calls).quarantine_deadlines ∨ time + duration ≤ clock

theorem quarantine_deadlines_allocate_at (capacity now : Nat) (random : Nat → Except String UInt16) :
    (self.allocate_at capacity now random).2.quarantine_deadlines
      = (self.reap_quarantine now).quarantine_deadlines := by
  obtain ⟨id, _, _, heq⟩ | ⟨⟨error, heq⟩, _⟩ := self.allocate_at_cases capacity now random
  · rw [heq]
    rfl
  · rw [heq]

section

variable (hforward : Forward calls)

include hforward

theorem traced_run : Traced duration calls := by
  induction calls using List.reverseRecOn with
  | nil => exact nofun
  | append_singleton calls call ih =>
    obtain ⟨hforward, hbefore⟩ := forward_append hforward
    have hsound : (run duration calls).Sound call.now := sound_run hforward hbefore
    intro entry hentry
    rw [run_append] at hentry
    -- a new deadline is that of the last call
    have hold : entry ∈ (run duration calls).quarantine_deadlines →
        ∃ time, Released duration (calls ++ [call]) entry.1 time ∧ entry.2 = time + duration := by
      intro hmem
      obtain ⟨time, hreleased, htime⟩ := ih hforward entry hmem
      exact ⟨time, released_append.mpr (.inl hreleased), htime⟩
    cases call with
    | allocate_at capacity now random =>
      rw [step, quarantine_deadlines_allocate_at] at hentry
      exact hold ((hsound.mem_reap_quarantine now entry).mp hentry).1
    | release_at id now =>
      rw [step, release_at] at hentry
      by_cases hocc : (run duration calls).is_occupied id = true
      · rw [if_pos hocc, quarantine_duration_run] at hentry
        obtain hmem | hlast := mem_append.mp hentry
        · exact hold hmem
        · rw [mem_singleton.mp hlast]
          exact ⟨now, released_append.mpr (.inr ⟨rfl, hocc⟩), rfl⟩
      · rw [if_neg hocc] at hentry
        exact hold hentry

theorem kept_run (hclock : ∀ call ∈ calls, call.now ≤ clock) : Kept duration calls clock := by
  induction calls using List.reverseRecOn generalizing clock with
  | nil =>
    rintro id time ⟨before, after, heq, _⟩
    exact absurd heq (append_ne_nil_of_right_ne_nil _ (cons_ne_nil _ _)).symm
  | append_singleton calls call ih =>
    obtain ⟨hforward, hbefore⟩ := forward_append hforward
    have hnow : call.now ≤ clock := hclock call (mem_append_right _ (mem_singleton.mpr rfl))
    have hsound : (run duration calls).Sound call.now := sound_run hforward hbefore
    intro id time hreleased
    rw [run_append]
    obtain hearlier | ⟨rfl, hocc⟩ := released_append.mp hreleased
    · obtain hmem | hover := ih hforward hbefore id time hearlier
      · cases call with
        | allocate_at capacity now random =>
          rw [step, quarantine_deadlines_allocate_at, hsound.mem_reap_quarantine]
          by_cases hdue : now < time + duration
          · exact .inl ⟨hmem, hdue⟩
          · exact .inr (Nat.le_trans (Nat.le_of_not_lt hdue) hnow)
        | release_at other now =>
          left
          rw [step, release_at]
          split_ifs with hother
          · exact mem_append_left _ hmem
          · exact hmem
      · exact .inr (Nat.le_trans hover hnow)
    · left
      rw [step, release_at, if_pos hocc, quarantine_duration_run]
      exact mem_append_right _ (mem_singleton.mpr rfl)

/-- After the expired deadlines are dropped, an id is quarantined if it was released lately. -/
theorem is_quarantined_reap_iff {now : Nat} (hclock : ∀ call ∈ calls, call.now ≤ now) (id : UInt16)
    :
    ((run duration calls).reap_quarantine now).is_quarantined id = true
      ↔ ∃ time, Released duration calls id time ∧ now < time + duration := by
  have hsound : (run duration calls).Sound now := sound_run hforward hclock
  rw [is_quarantined, (hsound.reap_quarantine now).queued.marked, mem_map]
  constructor
  · rintro ⟨entry, hentry, rfl⟩
    obtain ⟨hmem, hdue⟩ := (hsound.mem_reap_quarantine now entry).mp hentry
    obtain ⟨time, hreleased, htime⟩ := traced_run hforward entry hmem
    exact ⟨time, hreleased, htime ▸ hdue⟩
  · rintro ⟨time, hreleased, hdue⟩
    obtain hmem | hover := kept_run hforward hclock id time hreleased
    · exact ⟨_, (hsound.mem_reap_quarantine now _).mpr ⟨hmem, hdue⟩, rfl⟩
    · omega

theorem is_unavailable_reap_iff {now : Nat} (hclock : ∀ call ∈ calls, call.now ≤ now) (id : UInt16)
    :
    ((run duration calls).reap_quarantine now).is_unavailable id = false
      ↔ (run duration calls).is_occupied id = false ∧
        ∀ time, Released duration calls id time → time + duration ≤ now := by
  rw [is_unavailable, Bool.or_eq_false_iff, is_occupied_reap_quarantine,
    ← Bool.not_eq_true (is_quarantined _ id), is_quarantined_reap_iff hforward hclock]
  apply and_congr_right'
  constructor
  · intro hnone time hreleased
    exact Nat.le_of_not_lt fun hdue => hnone ⟨time, hreleased, hdue⟩
  · rintro hall ⟨time, hreleased, hdue⟩
    exact Nat.not_le_of_lt hdue (hall time hreleased)

end

/-- **Ids are not reused early and none is lost.** After any calls with a clock that does not go
back, an id that is handed out is not in use, and every release of it is at least
`quarantine_duration` ago. The counter is the number of occupied ids, the quarantined ids are those
of the queue and none of them is occupied. Where the random pool does not fail, an id is handed out
exactly if the capacity is not reached and there is such an id. -/
theorem request_ids_kept_apart (duration : Nat) (calls : List Call) (capacity now : Nat)
    (random : Nat → Except String UInt16)
    (hforward : Forward (calls ++ [.allocate_at capacity now random])) :
    let allocator := run duration calls
    let free := fun id => allocator.is_occupied id = false ∧
      ∀ time, Released duration calls id time → time + duration ≤ now
    (∀ id after, allocator.allocate_at capacity now random = (.ok id, after) → free id) ∧
    allocator.in_use = allocator.occupied_ids.length ∧
    (∀ id, allocator.is_quarantined id = true
      ↔ id ∈ allocator.quarantine_deadlines.map Prod.fst) ∧
    (∀ id, allocator.is_occupied id = true → allocator.is_quarantined id = false) ∧
    ((∀ n < 32, ∃ id, random n = .ok id) →
      ((∃ id after, allocator.allocate_at capacity now random = (.ok id, after))
        ↔ allocator.in_use < min capacity DNS_UDP_REQUEST_ID_SPACE ∧ ∃ id, free id)) := by
  obtain ⟨hforward, hclock⟩ := forward_append hforward
  have hsound : (run duration calls).Sound now := sound_run hforward hclock
  intro allocator free
  have hfree : ∀ id, (allocator.reap_quarantine now).is_unavailable id = false ↔ free id :=
    is_unavailable_reap_iff hforward hclock
  refine ⟨?_, hsound.in_use_eq, hsound.queued.marked, hsound.apart, ?_⟩
  · intro id after hok
    obtain ⟨found, havailable, _, heq⟩ | ⟨⟨error, heq⟩, _⟩ :=
      allocator.allocate_at_cases capacity now random
    · rw [heq] at hok
      cases hok
      exact (hfree _).mp havailable
    · rw [heq] at hok
      cases hok
  · intro hrandom
    obtain ⟨found, havailable, hcapacity, heq⟩ | ⟨⟨error, heq⟩, hwhy⟩ :=
      allocator.allocate_at_cases capacity now random
    · constructor
      · exact fun _ => ⟨hcapacity, found, (hfree found).mp havailable⟩
      · exact fun _ => ⟨found, _, heq⟩
    · constructor
      · rintro ⟨id, after, hok⟩
        rw [heq] at hok
        cases hok
      · rintro ⟨hcapacity, id, hid⟩
        have havailable := (hfree id).mpr hid
        obtain hfull | hspace | ⟨n, hn, error, herror⟩ | hnone := hwhy
        · exact absurd hcapacity (Nat.not_lt_of_le hfull)
        · have hleft := (hsound.reap_quarantine now).free_iff.mpr ⟨id, havailable⟩
          exact absurd hleft (Nat.not_lt_of_le hspace)
        · obtain ⟨drawn, hdrawn⟩ := hrandom n hn
          rw [hdrawn] at herror
          cases herror
        · rw [hnone id] at havailable
          cases havailable

/-- An id released at 5 with a quarantine of 10 is handed out again at 15. -/
theorem request_ids_kept_apart_again :
    Forward ([.allocate_at 1 0 (fun _ => .ok 7), .release_at 7 5]
      ++ [.allocate_at 1 15 (fun _ => .ok 7)]) ∧
    (run 10 [.allocate_at 1 0 (fun _ => .ok 7), .release_at 7 5]).in_use
      = (run 10 [.allocate_at 1 0 (fun _ => .ok 7), .release_at 7 5]).occupied_ids.length := by
  have hforward : Forward ([.allocate_at 1 0 (fun _ => .ok 7), .release_at 7 5]
      ++ [.allocate_at 1 15 (fun _ => .ok 7)]) := by
    show List.Pairwise (· ≤ ·) [0, 5, 15]
    decide
  exact ⟨hforward, (request_ids_kept_apart 10 _ 1 15 _ hforward).2.1⟩

end DnsRequestIdAllocator

end DaeNext.Dns
