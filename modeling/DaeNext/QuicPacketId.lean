/-
Packet ids of fragmented datagrams.

`QuicUdpPacketIdAllocator` hands out the ids `1 ..= 65535` in turn and leases each for a
while; a leased id is skipped. Leases are ranges of ids within one bitmap word, in the
order in which they were taken. The ids of the leases, one after the other, are the ids
handed out last: an allocation appends one, an expiry drops some from the front (`ids`).

From that order follows that the few layouts of one payload never share an id, for each
of the three resource profiles (`Fresh`), whatever the times between them.
-/
import DaeNext.LibBitWindow
import DaeNext.QuicFragmentBuffer
import Mathlib.Data.List.Infix

set_option autoImplicit false

namespace DaeNext.Quic

open List Option BitWindow

/-! ## The allocator -/

structure QuicUdpPacketIdLease where
  first : UInt16
  last : UInt16
  expires_at : Instant
deriving DecidableEq, Repr

structure QuicUdpPacketIdAllocator where
  resources : QuicUdpDatagramResourceProfile
  next : UInt16
  bitmap : Option (List (BitVec 64))
  leases : List QuicUdpPacketIdLease
  leased_ids : Nat
deriving DecidableEq, Repr

namespace QuicUdpPacketIdAllocator

def QUIC_UDP_PACKET_ID_BITMAP_WORDS : Nat := 1024

def lease_window_exhausted : String := "QUIC UDP packet ID lease window is exhausted"

def new (resources : QuicUdpDatagramResourceProfile) : QuicUdpPacketIdAllocator where
  resources
  next := 1
  bitmap := none
  leases := []
  leased_ids := 0

/-- The id after `packet_id`; zero is not used. -/
def following (packet_id : UInt16) : UInt16 := if packet_id = 65535 then 1 else packet_id + 1

variable (self : QuicUdpPacketIdAllocator) (now : Instant)

def is_leased (packet_id : UInt16) : Bool :=
  match self.bitmap with
  | none => false
  | some bitmap => BitWindow.test bitmap packet_id.toNat

def set_leased (packet_id : UInt16) (leased : Bool) : QuicUdpPacketIdAllocator :=
  let bitmap := self.bitmap.getD (List.replicate QUIC_UDP_PACKET_ID_BITMAP_WORDS 0#64)
  { self with
    bitmap := some
      (if leased then BitWindow.set bitmap packet_id.toNat
      else BitWindow.clear bitmap packet_id.toNat) }

/-- One turn of the expiry loop. -/
def release (lease : QuicUdpPacketIdLease) : QuicUdpPacketIdAllocator :=
  { self with
    leased_ids := self.leased_ids - ((lease.last - lease.first).toNat + 1)
    bitmap := self.bitmap.map fun bitmap =>
      BitWindow.clear_range bitmap lease.first.toNat lease.last.toNat }

def pop_expired : List QuicUdpPacketIdLease → QuicUdpPacketIdAllocator → QuicUdpPacketIdAllocator
  | [], self => { self with leases := [] }
  | lease :: leases, self =>
    if lease.expires_at ≤ now then pop_expired leases (self.release lease)
    else { self with leases := lease :: leases }

def expire_at : QuicUdpPacketIdAllocator := pop_expired now self.leases self

/-- The newest lease goes on with this id. -/
def extends_last (packet_id : UInt16) : Bool :=
  match self.leases.getLast? with
  | some lease =>
    decide (lease.last ≠ 65535 ∧ lease.last + 1 = packet_id ∧ lease.first / 64 = packet_id / 64)
  | none => false

/-- Lease a free id, unless the lease records are used up. -/
def lease (packet_id : UInt16) : Except String UInt16 × QuicUdpPacketIdAllocator :=
  let ranges := self.resources.packet_id_lease_ranges
  let extend := self.extends_last packet_id
  if extend = false ∧ ranges.toNat ≤ self.leases.length then
    (.error s!"QUIC UDP packet ID lease range budget is full ({ranges})", self)
  else
    let self := self.set_leased packet_id true
    let expires_at := (now.checked_add self.resources.packet_id_lease_ttl).getD now
    let leases :=
      if extend then
        self.leases.modify (self.leases.length - 1) fun lease =>
          { lease with last := packet_id, expires_at }
      else self.leases ++ [{ first := packet_id, last := packet_id, expires_at }]
    (.ok packet_id, { self with leased_ids := self.leased_ids + 1, leases })

/-- The search for a free id, for at most so many ids. -/
def scan : Nat → QuicUdpPacketIdAllocator → Except String UInt16 × QuicUdpPacketIdAllocator
  | 0, self => (.error lease_window_exhausted, self)
  | turns + 1, self =>
    let packet_id := self.next
    let self := { self with next := following packet_id }
    if self.is_leased packet_id then scan turns self else self.lease now packet_id

def allocate_at : Except String UInt16 × QuicUdpPacketIdAllocator :=
  let self := self.expire_at now
  if self.leased_ids = 65535 then (.error lease_window_exhausted, self)
  else scan now 65535 self

def clear : QuicUdpPacketIdAllocator :=
  { self with next := 1, bitmap := none, leases := [], leased_ids := 0 }

/-! ## Ids in the order they were handed out -/

def lease_ids (lease : QuicUdpPacketIdLease) : List Nat :=
  List.range' lease.first.toNat (lease.last.toNat - lease.first.toNat + 1)

def ids (leases : List QuicUdpPacketIdLease) : List Nat := leases.flatMap lease_ids

/-- The ids from `n` on, all the way round. -/
def nth (n k : Nat) : Nat := (n - 1 + k) % 65535 + 1

structure ValidLease (lease : QuicUdpPacketIdLease) : Prop where
  pos : 1 ≤ lease.first.toNat
  le : lease.first.toNat ≤ lease.last.toNat
  word : lease.first.toNat / 64 = lease.last.toNat / 64

/-- The bitmap and the counter stand for the ids of the leases, and no id is leased twice. -/
structure Consistent (a : QuicUdpPacketIdAllocator) : Prop where
  valid : ∀ lease ∈ a.leases, ValidLease lease
  nodup : (ids a.leases).Nodup
  bits : ∀ id : UInt16, a.is_leased id = decide (id.toNat ∈ ids a.leases)
  words : ∀ bitmap ∈ a.bitmap, bitmap.length = QUIC_UDP_PACKET_ID_BITMAP_WORDS
  next_pos : 1 ≤ a.next.toNat
  count : a.leased_ids = (ids a.leases).length

theorem mem_lease_ids {lease : QuicUdpPacketIdLease} (h : ValidLease lease) {id : Nat} :
    id ∈ lease_ids lease ↔ lease.first.toNat ≤ id ∧ id ≤ lease.last.toNat := by
  have hle := h.le
  rw [lease_ids, mem_range'_1]
  omega

theorem length_lease_ids (lease : QuicUdpPacketIdLease) :
    (lease_ids lease).length = lease.last.toNat - lease.first.toNat + 1 :=
  length_range'

theorem ids_append (leases more : List QuicUdpPacketIdLease) :
    ids (leases ++ more) = ids leases ++ ids more :=
  flatMap_append

theorem ids_singleton (lease : QuicUdpPacketIdLease) : ids [lease] = lease_ids lease :=
  append_nil _

theorem getLast?_ids {leases init : List QuicUdpPacketIdLease} {lease : QuicUdpPacketIdLease}
    (h : leases = init ++ [lease]) (hvalid : ValidLease lease) :
    (ids leases).getLast? = some lease.last.toNat := by
  rw [h, ids_append, ids_singleton, lease_ids, range'_1_concat, ← append_assoc, getLast?_concat,
    Nat.add_sub_of_le hvalid.le]

variable {id : UInt16}

theorem toNat_following (h : 1 ≤ id.toNat) : (following id).toNat = id.toNat % 65535 + 1 := by
  have hlt := id.toNat_lt
  rw [following]
  split_ifs with hlast
  · rw [hlast]
    rfl
  · have hne : id.toNat ≠ 65535 := fun heq => hlast (UInt16.toNat_inj.mp heq)
    rw [UInt16.toNat_add, UInt16.toNat_one]
    omega

theorem nth_zero {n : Nat} (h : 1 ≤ n) (hlt : n ≤ 65535) : nth n 0 = n := by
  rw [nth]
  omega

theorem nth_succ {n : Nat} (h : 1 ≤ n) (k : Nat) : nth n (k + 1) = nth (n % 65535 + 1) k := by
  rw [nth, nth]
  omega

variable {self now} {a : QuicUdpPacketIdAllocator}

/-- What a sweep over the leases leaves. -/
structure Swept (leases : List QuicUdpPacketIdLease) (a b : QuicUdpPacketIdAllocator) : Prop where
  consistent : Consistent b
  leases_eq : ∃ k, b.leases = leases.drop k
  next_eq : b.next = a.next
  resources_eq : b.resources = a.resources

theorem pop_expired_spec {leases : List QuicUdpPacketIdLease}
    (h : Consistent { a with leases := leases }) : Swept leases a (pop_expired now leases a) := by
  induction leases generalizing a with
  | nil => exact ⟨h, ⟨0, rfl⟩, rfl, rfl⟩
  | cons lease leases ih =>
    rw [pop_expired]
    split_ifs with hexpired
    · have hvalid := h.valid lease mem_cons_self
      have hnodup : (lease_ids lease ++ ids leases).Nodup := h.nodup
      have hrest : Consistent { a.release lease with leases := leases } := by
        refine ⟨?_, ?_, ?_, ?_, h.next_pos, ?_⟩
        · exact fun l hl => h.valid l (mem_cons_of_mem _ hl)
        · exact hnodup.of_append_right
        · intro id
          have hbits := h.bits id
          have hmem : id.toNat ∈ ids (lease :: leases)
              ↔ id.toNat ∈ lease_ids lease ∨ id.toNat ∈ ids leases := mem_append
          have hapart : id.toNat ∈ lease_ids lease → id.toNat ∉ ids leases :=
            fun h1 h2 => (disjoint_of_nodup_append hnodup) h1 h2
          have hin : id.toNat ∈ lease_ids lease ↔ _ := mem_lease_ids hvalid
          rw [is_leased] at hbits ⊢
          dsimp only [release] at hbits ⊢
          cases hbitmap : a.bitmap with
          | none =>
            rw [hbitmap] at hbits
            have hnot := of_decide_eq_false hbits.symm
            exact (decide_eq_false fun h2 => hnot (hmem.mpr (.inr h2))).symm
          | some bitmap =>
            have hlength := h.words bitmap hbitmap
            rw [hbitmap] at hbits
            dsimp only [map_some] at hbits ⊢
            have hfirst : lease.first.toNat / 64 < bitmap.length := by
              have hlt := lease.first.toNat_lt
              rw [hlength, QUIC_UDP_PACKET_ID_BITMAP_WORDS]
              omega
            rw [test_eq_bit] at hbits ⊢
            rw [bit_clear_range hfirst hvalid.word, hbits, ← Bool.decide_and,
              ← decide_not, ← Bool.decide_and]
            apply decide_eq_decide.mpr
            tauto
        · intro bitmap hbitmap
          obtain ⟨old, hold, rfl⟩ := map_eq_some_iff.mp hbitmap
          rw [clear_range, length_modify]
          exact h.words old hold
        · have hcount := h.count
          have hle := hvalid.le
          dsimp only [release] at hcount ⊢
          rw [hcount, ids, flatMap_cons, length_append, length_lease_ids,
            UInt16.toNat_sub_of_le _ _ (UInt16.le_iff_toNat_le.mpr hle), ids]
          omega
      obtain ⟨hconsistent, ⟨k, hk⟩, hnext, hresources⟩ := ih hrest
      exact ⟨hconsistent, ⟨k + 1, hk⟩, hnext, hresources⟩
    · exact ⟨h, ⟨0, rfl⟩, rfl, rfl⟩

theorem expire_at_spec (h : Consistent self) : Swept self.leases self (self.expire_at now) :=
  pop_expired_spec h

theorem ids_drop_suffix (leases : List QuicUdpPacketIdLease) (k : Nat) :
    ids (leases.drop k) <:+ ids leases := by
  refine ⟨ids (leases.take k), ?_⟩
  rw [← ids_append, take_append_drop]

/-! ## One allocation -/

theorem bit_set_leased (h : Consistent a) (packet_id id : UInt16) :
    (a.set_leased packet_id true).is_leased id = (a.is_leased id || decide (packet_id = id)) := by
  have hlt := packet_id.toNat_lt
  have hinj : decide (packet_id.toNat = id.toNat) = decide (packet_id = id) :=
    decide_eq_decide.mpr UInt16.toNat_inj
  rw [is_leased, is_leased, set_leased]
  dsimp only
  rw [if_pos rfl, test_eq_bit]
  cases hbitmap : a.bitmap with
  | none =>
    rw [getD_none, bit_set (by
      rw [length_replicate, QUIC_UDP_PACKET_ID_BITMAP_WORDS]
      omega), bit_replicate_zero, hinj]
  | some bitmap =>
    have hlength := h.words bitmap hbitmap
    rw [getD_some, bit_set (by
      rw [hlength, QUIC_UDP_PACKET_ID_BITMAP_WORDS]
      omega), hinj]
    dsimp only
    rw [test_eq_bit]

theorem words_set_leased (h : Consistent a) (packet_id : UInt16) :
    ∀ bitmap ∈ (a.set_leased packet_id true).bitmap, bitmap.length = QUIC_UDP_PACKET_ID_BITMAP_WORDS := by
  intro bitmap hbitmap
  rw [set_leased] at hbitmap
  rw [if_pos rfl] at hbitmap
  cases hbitmap
  rw [BitWindow.set, length_modify]
  cases hold : a.bitmap with
  | none => exact length_replicate
  | some old => exact h.words old hold

def leases_with (a : QuicUdpPacketIdAllocator) (now : Instant) (packet_id : UInt16) :
    List QuicUdpPacketIdLease :=
  let expires_at := (now.checked_add a.resources.packet_id_lease_ttl).getD now
  if a.extends_last packet_id then
    a.leases.modify (a.leases.length - 1) fun lease => { lease with last := packet_id, expires_at }
  else a.leases ++ [{ first := packet_id, last := packet_id, expires_at }]

theorem extends_last_iff {packet_id : UInt16} :
    a.extends_last packet_id = true ↔ ∃ init lease, a.leases = init ++ [lease]
      ∧ lease.last.toNat + 1 = packet_id.toNat
      ∧ lease.first.toNat / 64 = packet_id.toNat / 64 := by
  have hword : ∀ lease : QuicUdpPacketIdLease, lease.first / 64 = packet_id / 64
      ↔ lease.first.toNat / 64 = packet_id.toNat / 64 := by
    intro lease
    rw [← UInt16.toNat_inj, UInt16.toNat_div, UInt16.toNat_div]
    rfl
  have hnext : ∀ lease : QuicUdpPacketIdLease, (lease.last ≠ 65535 ∧ lease.last + 1 = packet_id)
      ↔ lease.last.toNat + 1 = packet_id.toNat := by
    intro lease
    have hlt := lease.last.toNat_lt
    have hlt' := packet_id.toNat_lt
    rw [← UInt16.toNat_inj, UInt16.toNat_add, UInt16.toNat_one, ne_eq, ← UInt16.toNat_inj]
    change (¬ lease.last.toNat = 65535 ∧ _) ↔ _
    omega
  rw [extends_last]
  cases hlast : a.leases.getLast? with
  | none =>
    rw [getLast?_eq_none_iff] at hlast
    refine ⟨nofun, fun ⟨init, lease, heq, _⟩ => ?_⟩
    rw [hlast] at heq
    exact absurd heq.symm (append_ne_nil_of_right_ne_nil _ (cons_ne_nil _ _))
  | some lease =>
    obtain ⟨init, hinit⟩ := List.getLast?_eq_some_iff.mp hlast
    rw [decide_eq_true_eq, ← and_assoc, hnext, hword]
    constructor
    · exact fun h => ⟨init, lease, hinit, h.1, h.2⟩
    · rintro ⟨init', lease', heq, h1, h2⟩
      rw [heq] at hinit
      obtain ⟨-, hsame⟩ := append_inj' hinit rfl
      obtain rfl := List.singleton_inj.mp hsame
      exact ⟨h1, h2⟩

theorem modify_last (init : List QuicUdpPacketIdLease) (lease : QuicUdpPacketIdLease)
    (f : QuicUdpPacketIdLease → QuicUdpPacketIdLease) :
    (init ++ [lease]).modify ((init ++ [lease]).length - 1) f = init ++ [f lease] := by
  rw [length_append, length_singleton, Nat.add_sub_cancel]
  induction init with
  | nil => rfl
  | cons l init ih =>
    rw [cons_append, length_cons, modify_succ_cons, ih, cons_append]

theorem leases_with_spec (h : Consistent a) {packet_id : UInt16} (hpos : 1 ≤ packet_id.toNat) :
    ids (leases_with a now packet_id) = ids a.leases ++ [packet_id.toNat]
      ∧ ∀ lease ∈ leases_with a now packet_id, ValidLease lease := by
  rw [leases_with]
  split_ifs with hextend
  · obtain ⟨init, lease, heq, hnext, hword⟩ := extends_last_iff.mp hextend
    have hvalid := h.valid lease (heq ▸ mem_append_right _ (mem_singleton_self _))
    have hle := hvalid.le
    have hnew : lease.last.toNat + 1 - lease.first.toNat = lease.last.toNat - lease.first.toNat + 1 := by
      omega
    rw [heq, modify_last]
    constructor
    · rw [ids_append, ids_append, ids_singleton, ids_singleton, append_assoc]
      congr 1
      rw [lease_ids, lease_ids, ← hnext, hnew, range'_1_concat]
      congr 2
      dsimp only
      omega
    · intro l hl
      rcases mem_append.mp hl with hl | hl
      · exact h.valid l (heq ▸ mem_append_left _ hl)
      · rw [mem_singleton.mp hl]
        exact ⟨hvalid.pos, by dsimp only; omega, hword⟩
  · constructor
    · rw [ids_append, ids_singleton, lease_ids]
      rw [Nat.sub_self]
      rfl
    · intro l hl
      rcases mem_append.mp hl with hl | hl
      · exact h.valid l hl
      · rw [mem_singleton.mp hl]
        exact ⟨hpos, le_rfl, rfl⟩

/-- What the allocator is after it handed out an id, from the allocator after the sweep. -/
structure Allocated (e b : QuicUdpPacketIdAllocator) (now : Instant) (id : UInt16) : Prop where
  consistent : Consistent b
  leases_eq : b.leases = leases_with e now id
  next_eq : b.next = following id
  resources_eq : b.resources = e.resources
  pos : 1 ≤ id.toNat
  free : id.toNat ∉ ids e.leases
  budget : e.extends_last id = true
    ∨ e.leases.length < e.resources.packet_id_lease_ranges.toNat
  first_free : ∃ k, id.toNat = nth e.next.toNat k ∧ ∀ j < k, nth e.next.toNat j ∈ ids e.leases

theorem lease_cases (h : Consistent a) {packet_id : UInt16} (hpos : 1 ≤ packet_id.toNat)
    (hfree : a.is_leased packet_id = false) : (∃ err, a.lease now packet_id = (.error err, a))
      ∨ ∃ b, a.lease now packet_id = (.ok packet_id, b) ∧ Consistent b
        ∧ b.leases = leases_with a now packet_id ∧ b.next = a.next ∧ b.resources = a.resources
        ∧ packet_id.toNat ∉ ids a.leases
        ∧ (a.extends_last packet_id = true
          ∨ a.leases.length < a.resources.packet_id_lease_ranges.toNat) := by
  by_cases hfull : a.extends_last packet_id = false
      ∧ a.resources.packet_id_lease_ranges.toNat ≤ a.leases.length
  · rw [lease, if_pos hfull]
    exact .inl ⟨_, rfl⟩
  · right
    rw [lease, if_neg hfull]
    have hnot : packet_id.toNat ∉ ids a.leases := of_decide_eq_false ((h.bits packet_id).symm.trans hfree)
    have hspec := @leases_with_spec now a h packet_id hpos
    refine ⟨_, rfl, ?_, rfl, rfl, rfl, hnot, ?_⟩
    · refine ⟨hspec.2, ?_, ?_, words_set_leased h packet_id, h.next_pos, ?_⟩
      · change (ids (leases_with a now packet_id)).Nodup
        rw [hspec.1, nodup_append_comm]
        exact nodup_cons.mpr ⟨hnot, h.nodup⟩
      · intro id
        change (a.set_leased packet_id true).is_leased id
          = decide (id.toNat ∈ ids (leases_with a now packet_id))
        rw [bit_set_leased h, h.bits, hspec.1, ← Bool.decide_or]
        apply decide_eq_decide.mpr
        rw [mem_append, mem_singleton, UInt16.toNat_inj, @eq_comm _ id]
      · change a.leased_ids + 1 = (ids (leases_with a now packet_id)).length
        rw [hspec.1, length_append, h.count]
        rfl
    · rcases not_and_or.mp hfull with hextend | hroom
      · exact .inl (Bool.not_eq_false _ ▸ hextend)
      · exact .inr (Nat.lt_of_not_le hroom)

theorem Consistent.with_next (h : Consistent a) {next : UInt16} (hpos : 1 ≤ next.toNat) :
    Consistent { a with next := next } :=
  ⟨h.valid, h.nodup, h.bits, h.words, hpos, h.count⟩

theorem following_pos (id : UInt16) (h : 1 ≤ id.toNat) : 1 ≤ (following id).toNat := by
  rw [toNat_following h]
  omega

theorem scan_spec {turns : Nat} (h : Consistent a) :
    (∃ err next, 1 ≤ next.toNat ∧ scan now turns a = (.error err, { a with next := next }))
      ∨ ∃ id b, scan now turns a = (.ok id, b) ∧ Allocated a b now id := by
  induction turns generalizing a with
  | zero => exact .inl ⟨_, a.next, h.next_pos, rfl⟩
  | succ turns ih =>
    have hpos := following_pos a.next h.next_pos
    have hmoved := h.with_next hpos
    rw [scan]
    split_ifs with hleased
    · have hin : a.next.toNat ∈ ids a.leases := by
        have hbits := h.bits a.next
        exact of_decide_eq_true (hbits.symm.trans hleased)
      rcases ih hmoved with ⟨err, next, hnext, heq⟩ | ⟨id, b, heq, hb⟩
      · exact .inl ⟨err, next, hnext, heq⟩
      · refine .inr ⟨id, b, heq, hb.consistent, hb.leases_eq, hb.next_eq, hb.resources_eq, hb.pos,
          hb.free, hb.budget, ?_⟩
        obtain ⟨k, hk, hbefore⟩ := hb.first_free
        have hshift : ∀ j, nth a.next.toNat (j + 1) = nth (following a.next).toNat j := by
          intro j
          rw [nth_succ h.next_pos, toNat_following h.next_pos]
        refine ⟨k + 1, hk.trans (hshift k).symm, fun j hj => ?_⟩
        cases j with
        | zero =>
          have hlt := a.next.toNat_lt
          rw [nth_zero h.next_pos (by omega)]
          exact hin
        | succ j =>
          rw [hshift]
          exact hbefore j (by omega)
    · have hfree : ({ a with next := following a.next }).is_leased a.next = false :=
        Bool.not_eq_true _ ▸ hleased
      rcases @lease_cases now _ hmoved a.next h.next_pos hfree with
        ⟨err, heq⟩ | ⟨b, heq, hb, hleases, hnext, hresources, hnot, hbudget⟩
      · exact .inl ⟨err, following a.next, hpos, heq⟩
      · have hlt := a.next.toNat_lt
        exact .inr ⟨a.next, b, heq, hb, hleases, hnext, hresources, h.next_pos, hnot, hbudget, 0,
          (nth_zero h.next_pos (by omega)).symm, fun j hj => absurd hj (Nat.not_lt_zero j)⟩

theorem allocate_at_spec (h : Consistent self) :
    (∃ err next, 1 ≤ next.toNat
        ∧ self.allocate_at now = (.error err, { self.expire_at now with next := next }))
      ∨ ∃ id b, self.allocate_at now = (.ok id, b) ∧ Allocated (self.expire_at now) b now id := by
  have hexpired := (@expire_at_spec self now h).consistent
  rw [allocate_at]
  split_ifs with hfull
  · exact .inl ⟨_, _, hexpired.next_pos, rfl⟩
  · exact scan_spec hexpired

/-! ## Few lease records

With at most 1024 records not every id but two can be leased while another record is left,
for each word of the bitmap needs a record of its own. -/

theorem exists_nth {n c : Nat} (hn : 1 ≤ n ∧ n ≤ 65535) (hc : 1 ≤ c ∧ c ≤ 65535) :
    ∃ j < 65535, nth n j = c := by
  refine ⟨(c + 65535 - n) % 65535, by omega, ?_⟩
  rw [nth]
  omega

theorem leases_length_of_all_but_two (h : Consistent a) {n : Nat} (hn : 1 ≤ n ∧ n ≤ 65535)
    (hall : ∀ j < 65533, nth n j ∈ ids a.leases) : 1024 ≤ a.leases.length := by
  have hwords : List.range 1024 ⊆ a.leases.map fun lease => lease.first.toNat / 64 := by
    intro w hw
    have hlt := mem_range.mp hw
    -- of three ids of the word at most two are the ones left out
    obtain ⟨j1, hj1, h1⟩ := exists_nth hn (c := 64 * w + 1) (by omega)
    obtain ⟨j2, hj2, h2⟩ := exists_nth hn (c := 64 * w + 2) (by omega)
    obtain ⟨j3, hj3, h3⟩ := exists_nth hn (c := 64 * w + 3) (by omega)
    have hsome : ∃ j < 65533, nth n j / 64 = w := by
      have hne : j1 ≠ j2 ∧ j1 ≠ j3 ∧ j2 ≠ j3 := by
        refine ⟨?_, ?_, ?_⟩ <;> rintro rfl <;> omega
      by_cases hlt1 : j1 < 65533
      · exact ⟨j1, hlt1, by omega⟩
      · by_cases hlt2 : j2 < 65533
        · exact ⟨j2, hlt2, by omega⟩
        · exact ⟨j3, by omega, by omega⟩
    obtain ⟨j, hj, hword⟩ := hsome
    obtain ⟨lease, hlease, hmem⟩ := mem_flatMap.mp (hall j hj)
    have hvalid := h.valid lease hlease
    have hrange := (mem_lease_ids hvalid).mp hmem
    have hsame := hvalid.word
    exact mem_map.mpr ⟨lease, hlease, by omega⟩
  have hle := (subperm_of_subset nodup_range hwords).length_le
  rw [length_range, length_map] at hle
  exact hle

/-! ## Many lease records

With more than 1025 records the ids are handed out strictly in turn: the leased ids are an
arc that ends before `next`, and only its first record can start inside a word. -/

structure Arc (a : QuicUdpPacketIdAllocator) : Prop where
  chain : List.IsChain (fun x y => y = x % 65535 + 1) (ids a.leases)
  next_eq : ∀ x, (ids a.leases).getLast? = some x → a.next.toNat = x % 65535 + 1
  starts : ∀ lease ∈ a.leases.tail, lease.first.toNat % 64 = 0 ∨ lease.first.toNat = 1

theorem chain_getElem {l : List Nat} (h : List.IsChain (fun x y => y = x % 65535 + 1) l) {n i : Nat}
    (hn : l[0]? = some n) (hpos : 1 ≤ n) (hle : n ≤ 65535) (hi : i < l.length) : l[i] = nth n i := by
  induction i with
  | zero =>
    rw [nth_zero hpos hle]
    exact some.inj ((getElem?_eq_getElem hi).symm.trans hn)
  | succ i ih =>
    have hstep := List.isChain_iff_getElem.mp h i (by omega)
    rw [hstep, ih (by omega), nth, nth]
    omega

/-- A chain shorter than a round does not come back to the id after it. -/
theorem not_mem_of_chain {l : List Nat} {next : Nat} (h : List.IsChain (fun x y => y = x % 65535 + 1) l)
    (hrange : ∀ x ∈ l, 1 ≤ x ∧ x ≤ 65535) (hnext : ∀ x, l.getLast? = some x → next = x % 65535 + 1)
    (hlt : l.length < 65535) : next ∉ l := by
  intro hmem
  obtain ⟨j, hj, heq⟩ := getElem_of_mem hmem
  have hzero : 0 < l.length := by omega
  have hfirst := hrange _ (getElem_mem hzero)
  have hget : ∀ {i} (hi : i < l.length), l[i] = nth l[0] i :=
    chain_getElem h (getElem?_eq_getElem hzero) hfirst.1 hfirst.2
  have hlast := hnext l[l.length - 1] (by rw [getLast?_eq_getElem?, getElem?_eq_getElem (by omega)])
  rw [hget] at hlast
  rw [hget hj, hlast, nth, nth] at heq
  omega

theorem Arc.expire (h : Arc self) (hc : Consistent self) : Arc (self.expire_at now) := by
  obtain ⟨-, ⟨k, hk⟩, hnext, -⟩ := @expire_at_spec self now hc
  have hsuffix := ids_drop_suffix self.leases k
  refine ⟨?_, ?_, ?_⟩
  · rw [hk]
    exact h.chain.suffix hsuffix
  · intro x hx
    rw [hk] at hx
    rw [hnext]
    apply h.next_eq
    obtain ⟨init, hinit⟩ := hsuffix
    rw [← hinit, getLast?_append, hx]
    rfl
  · intro lease hlease
    rw [hk, tail_drop, ← drop_tail] at hlease
    exact h.starts lease (mem_of_mem_drop hlease)

theorem mem_ids_range (h : Consistent a) {id : Nat} (hid : id ∈ ids a.leases) : 1 ≤ id ∧ id ≤ 65535 := by
  obtain ⟨lease, hlease, hmem⟩ := mem_flatMap.mp hid
  have hvalid := h.valid lease hlease
  have hrange := (mem_lease_ids hvalid).mp hmem
  have hpos := hvalid.pos
  have hlt := lease.last.toNat_lt
  omega

/-- The arc does not close on itself: the id after it is free. -/
theorem Arc.next_free (h : Arc self) (hc : Consistent self) (hlt : (ids self.leases).length < 65535) :
    self.next.toNat ∉ ids self.leases :=
  not_mem_of_chain h.chain (fun _ => mem_ids_range hc) h.next_eq hlt

theorem firsts_nodup {leases : List QuicUdpPacketIdLease} (hvalid : ∀ l ∈ leases, ValidLease l)
    (h : (ids leases).Nodup) : (leases.map fun lease => lease.first.toNat).Nodup := by
  induction leases with
  | nil => exact nodup_nil
  | cons lease leases ih =>
    have hnodup : (lease_ids lease ++ ids leases).Nodup := h
    have hfirst : ∀ l ∈ lease :: leases, l.first.toNat ∈ lease_ids l :=
      fun l hl => (mem_lease_ids (hvalid l hl)).mpr ⟨le_rfl, (hvalid l hl).le⟩
    rw [map_cons, nodup_cons]
    refine ⟨fun hmem => ?_, ih (fun l hl => hvalid l (mem_cons_of_mem _ hl))
      hnodup.of_append_right⟩
    obtain ⟨l, hl, heq⟩ := mem_map.mp hmem
    refine disjoint_of_nodup_append hnodup (hfirst lease mem_cons_self) ?_
    exact mem_flatMap.mpr ⟨l, hl, heq ▸ hfirst l (mem_cons_of_mem _ hl)⟩

theorem Arc.leases_length_le (h : Arc self) (hc : Consistent self) : self.leases.length ≤ 1025 := by
  have hvalid : ∀ l ∈ self.leases.tail, ValidLease l :=
    fun l hl => hc.valid l (mem_of_mem_tail hl)
  have hnodup : (self.leases.tail.map fun lease => lease.first.toNat).Nodup := by
    rw [map_tail]
    exact (firsts_nodup hc.valid hc.nodup).tail
  have hwords : (self.leases.tail.map fun lease => lease.first.toNat / 64).Nodup := by
    rw [List.Nodup, pairwise_map] at hnodup ⊢
    refine hnodup.imp_of_mem fun {l l'} hl hl' hne heq => hne ?_
    have hstart := h.starts l hl
    have hstart' := h.starts l' hl'
    have hpos := (hvalid l hl).pos
    have hpos' := (hvalid l' hl').pos
    omega
  have hsub : (self.leases.tail.map fun lease => lease.first.toNat / 64) ⊆ List.range 1024 := by
    intro w hw
    obtain ⟨lease, -, rfl⟩ := mem_map.mp hw
    have hlt := lease.first.toNat_lt
    exact mem_range.mpr (by omega)
  have hle := (subperm_of_subset hwords hsub).length_le
  rw [length_map, length_tail, length_range] at hle
  omega

variable {b : QuicUdpPacketIdAllocator}

theorem Arc.allocated (h : Arc self) (hc : Consistent self) (hlt : (ids self.leases).length < 65535)
    (hb : Allocated self b now id) : id = self.next ∧ Arc b := by
  have hfree := h.next_free hc hlt
  have hid : id = self.next := by
    obtain ⟨k, hk, hbefore⟩ := hb.first_free
    have hnext := self.next.toNat_lt
    cases k with
    | zero =>
      rw [nth_zero hc.next_pos (by omega)] at hk
      exact UInt16.toNat_inj.mp hk
    | succ k =>
      have hzero := hbefore 0 (by omega)
      rw [nth_zero hc.next_pos (by omega)] at hzero
      exact absurd hzero hfree
  refine ⟨hid, ?_⟩
  have hspec := @leases_with_spec now self hc id hb.pos
  rw [← hb.leases_eq] at hspec
  refine ⟨?_, ?_, ?_⟩
  · rw [hspec.1, isChain_append]
    refine ⟨h.chain, isChain_singleton _, ?_⟩
    intro x hx y hy
    cases hy
    rw [hid]
    exact h.next_eq x hx
  · intro x hx
    rw [hspec.1, getLast?_concat] at hx
    rw [hb.next_eq, toNat_following hb.pos, some.inj hx]
  · intro lease hlease
    rw [hb.leases_eq, leases_with] at hlease
    split_ifs at hlease with hextend
    · obtain ⟨init, l, heq, -, -⟩ := extends_last_iff.mp hextend
      rw [heq, modify_last] at hlease
      have hstarts := h.starts
      rw [heq] at hstarts
      cases init with
      | nil => cases hlease
      | cons l' init =>
        rcases mem_append.mp hlease with hlease | hlease
        · exact hstarts lease (mem_append_left _ hlease)
        · rw [mem_singleton.mp hlease]
          exact hstarts l (mem_append_right _ (mem_singleton_self _))
    · -- a new record: the last one ends its word, or the ids start again from one
      cases hlast : self.leases.getLast? with
      | none =>
        rw [getLast?_eq_none_iff.mp hlast] at hlease
        cases hlease
      | some l =>
        obtain ⟨init, hinit⟩ := List.getLast?_eq_some_iff.mp hlast
        have hl := hc.valid l (hinit ▸ mem_append_right _ (mem_singleton_self _))
        have hne : self.leases ≠ [] := by
          rw [hinit]
          exact append_ne_nil_of_right_ne_nil _ (cons_ne_nil _ _)
        rw [tail_append_of_ne_nil hne] at hlease
        rcases mem_append.mp hlease with hlease | hlease
        · exact h.starts lease hlease
        · rw [mem_singleton.mp hlease]
          dsimp only
          have hnext := h.next_eq _ (getLast?_ids hinit hl)
          have hnot : ¬ (l.last.toNat + 1 = id.toNat ∧ l.first.toNat / 64 = id.toNat / 64) :=
            fun hboth => hextend (extends_last_iff.mpr ⟨init, l, hinit, hboth.1, hboth.2⟩)
          have hword := hl.word
          have hlt := l.last.toNat_lt
          rw [← hid] at hnext
          omega

/-! ## Allocators in use -/

inductive Call where
  | allocate (now : Instant)
  | expire (now : Instant)
  | clear

def call (self : QuicUdpPacketIdAllocator) : Call → QuicUdpPacketIdAllocator
  | .allocate now => (self.allocate_at now).2
  | .expire now => self.expire_at now
  | .clear => self.clear

/-- What every allocator in use keeps to. -/
structure Ready (a : QuicUdpPacketIdAllocator) : Prop where
  consistent : Consistent a
  arc : 1026 ≤ a.resources.packet_id_lease_ranges.toNat → Arc a

theorem ready_of_empty {resources : QuicUdpDatagramResourceProfile} :
    Ready { resources, next := 1, bitmap := none, leases := [], leased_ids := 0 } where
  consistent :=
    { valid := nofun
      nodup := nodup_nil
      bits := fun _ => rfl
      words := nofun
      next_pos := le_rfl
      count := rfl }
  arc := fun _ =>
    { chain := isChain_nil
      next_eq := nofun
      starts := nofun }

theorem Ready.expire (h : Ready self) : Ready (self.expire_at now) := by
  obtain ⟨hconsistent, -, -, hresources⟩ := @expire_at_spec self now h.consistent
  refine ⟨hconsistent, fun hranges => ?_⟩
  rw [hresources] at hranges
  exact (h.arc hranges).expire h.consistent

/-- With enough records no search fails, so `next` only moves with a lease. -/
theorem Arc.allocate_error (h : Arc self) (hc : Consistent self)
    (hranges : 1026 ≤ self.resources.packet_id_lease_ranges.toNat)
    (hlt : (ids self.leases).length < 65535) {err : String} : scan now 65535 self ≠ (.error err, b) := by
  intro heq
  have hnot := h.next_free hc hlt
  have hfree : ({ self with next := following self.next }).is_leased self.next = false := by
    have hbits := hc.bits self.next
    rw [decide_eq_false hnot] at hbits
    exact hbits
  have hfull : ¬ (({ self with next := following self.next }).extends_last self.next = false
      ∧ self.resources.packet_id_lease_ranges.toNat ≤ self.leases.length) := by
    have hle := h.leases_length_le hc
    omega
  rw [scan, if_neg (Bool.not_eq_true _ ▸ hfree), lease, if_neg hfull] at heq
  cases heq

theorem allocate_at_ready (h : Ready self) :
    (∃ err b, self.allocate_at now = (.error err, b) ∧ Ready b
        ∧ b.resources = self.resources)
      ∨ ∃ id b, self.allocate_at now = (.ok id, b) ∧ Allocated (self.expire_at now) b now id
        ∧ Ready b ∧ (1026 ≤ self.resources.packet_id_lease_ranges.toNat → id = self.next) := by
  have hready := @Ready.expire self now h
  have hconsistent := hready.consistent
  obtain ⟨-, -, hnext, hresources⟩ := @expire_at_spec self now h.consistent
  have hcount := hconsistent.count
  have hlength : (ids (self.expire_at now).leases).length ≤ 65535 := by
    have hsub : ids (self.expire_at now).leases ⊆ List.range' 1 65535 := by
      intro id hid
      have hrange := mem_ids_range hconsistent hid
      exact mem_range'_1.mpr (by omega)
    have hle := (subperm_of_subset hconsistent.nodup hsub).length_le
    rwa [length_range'] at hle
  by_cases hfull : (self.expire_at now).leased_ids = 65535
  · refine .inl ⟨lease_window_exhausted, self.expire_at now, ?_, hready, hresources⟩
    rw [allocate_at, if_pos hfull]
  · have hlt : (ids (self.expire_at now).leases).length < 65535 := by omega
    rcases @allocate_at_spec self now h.consistent with ⟨err, next, hpos, heq⟩ | ⟨id, b, heq, hb⟩
    · refine .inl ⟨err, _, heq, ⟨hconsistent.with_next hpos, fun hranges => ?_⟩, hresources⟩
      rw [allocate_at, if_neg hfull] at heq
      exact absurd heq ((hready.arc hranges).allocate_error hconsistent hranges hlt)
    · refine .inr ⟨id, b, heq, hb, ⟨hb.consistent, fun hranges => ?_⟩, fun hranges => ?_⟩
      · rw [hb.resources_eq] at hranges
        exact ((hready.arc hranges).allocated hconsistent hlt hb).2
      · rw [← hresources] at hranges
        rw [((hready.arc hranges).allocated hconsistent hlt hb).1, hnext]

theorem ready_calls (resources : QuicUdpDatagramResourceProfile) (calls : List Call) :
    Ready (calls.foldl call (new resources))
      ∧ (calls.foldl call (new resources)).resources = resources := by
  have hrun : ∀ a : QuicUdpPacketIdAllocator, Ready a →
      Ready (calls.foldl call a) ∧ (calls.foldl call a).resources = a.resources := by
    induction calls with
    | nil => exact fun a ha => ⟨ha, rfl⟩
    | cons c calls ih =>
      intro a ha
      have hstep : Ready (a.call c) ∧ (a.call c).resources = a.resources := by
        cases c with
        | allocate now =>
          rcases @allocate_at_ready a now ha with ⟨err, b, heq, hb, hr⟩ | ⟨id, b, heq, hb, hr, -⟩
          · rw [call, heq]
            exact ⟨hb, hr⟩
          · rw [call, heq]
            exact ⟨hr, hb.resources_eq.trans (@expire_at_spec a now ha.consistent).resources_eq⟩
        | expire now => exact ⟨ha.expire, (@expire_at_spec a now ha.consistent).resources_eq⟩
        | clear => exact ⟨ready_of_empty, rfl⟩
      obtain ⟨hready, hresources⟩ := ih _ hstep.1
      exact ⟨hready, hresources.trans hstep.2⟩
  exact hrun (new resources) ready_of_empty

/-! ## The layouts of one payload -/

/-- `xs` are the ids handed out last, to the layouts of one payload. -/
structure Fresh (a : QuicUdpPacketIdAllocator) (xs : List Nat) : Prop where
  ready : Ready a
  recent : ∃ older, ids a.leases <:+ older ++ xs
  next_eq : ∀ x, xs.getLast? = some x → a.next.toNat = x % 65535 + 1
  range : ∀ x ∈ xs, 1 ≤ x ∧ x ≤ 65535
  apart : a.resources.packet_id_lease_ranges.toNat ≤ 1024 →
    List.IsChain (fun x y => x ≠ y % 65535 + 1) xs
  turn : 1026 ≤ a.resources.packet_id_lease_ranges.toNat →
    List.IsChain (fun x y => y = x % 65535 + 1) xs

theorem Fresh.start (h : Ready self) : Fresh self [] where
  ready := h
  recent := ⟨ids self.leases, by rw [append_nil]⟩
  next_eq := nofun
  range := nofun
  apart := fun _ => isChain_nil
  turn := fun _ => isChain_nil

theorem suffix_of_not_mem {l older before after : List Nat} {x : Nat}
    (h : l <:+ older ++ (before ++ x :: after)) (hx : x ∉ l) : l <:+ after := by
  by_cases hle : l.length ≤ after.length
  · exact suffix_of_suffix_length_le h ⟨older ++ (before ++ [x]), by simp⟩ hle
  · have hfrom : x :: after <:+ l :=
      suffix_of_suffix_length_le ⟨older ++ before, by simp⟩ h (by rw [length_cons]; omega)
    exact absurd (hfrom.subset mem_cons_self) hx

/-- The profiles of the runtime: few records and at most three layouts, or many records. -/
def FewLayouts (resources : QuicUdpDatagramResourceProfile) : Prop :=
  resources.packet_id_lease_ranges.toNat ≤ 1024 ∧ resources.pmtu_retries.toNat ≤ 3
    ∨ 1026 ≤ resources.packet_id_lease_ranges.toNat ∧ resources.pmtu_retries.toNat ≤ 65535

theorem fewLayouts_profile (profile : ResidentRuntimeProfile) :
    FewLayouts (.from_runtime_profile profile) := by
  cases profile with
  | LowMemory | Balanced => exact .inl ⟨by decide, by decide⟩
  | HighPerformance => exact .inr ⟨by decide, by decide⟩

variable {xs : List Nat} (h : Fresh self xs)

include h

/-- What the sweep before the next allocation leaves of the recent ids. -/
theorem Fresh.recent_expire : ∃ older, ids (self.expire_at now).leases <:+ older ++ xs := by
  obtain ⟨-, ⟨k, hk⟩, -, -⟩ := @expire_at_spec self now h.ready.consistent
  obtain ⟨older, hrecent⟩ := h.recent
  refine ⟨older, List.IsSuffix.trans ?_ hrecent⟩
  rw [hk]
  exact ids_drop_suffix _ _

section

variable {id : UInt16} (hb : Allocated (self.expire_at now) b now id)
  (hranges : self.resources.packet_id_lease_ranges.toNat ≤ 1024)

include hb hranges

/-- With few records the next id is not the one before the last one: all others would have to be
leased, and a record more be left. -/
theorem Fresh.not_before_last {x : Nat} (hx : xs.getLast? = some x) : x ≠ id.toNat % 65535 + 1 := by
  intro heq
  obtain ⟨hconsistent, -, hnext, hresources⟩ := @expire_at_spec self now h.ready.consistent
  have hnext' : (self.expire_at now).next.toNat = x % 65535 + 1 := by
    rw [hnext]
    exact h.next_eq x hx
  obtain ⟨k, hk, hbefore⟩ := hb.first_free
  rw [hnext'] at hk hbefore
  have hmany : 65533 ≤ k := by
    rw [nth] at hk
    omega
  have hlength := leases_length_of_all_but_two hconsistent (n := x % 65535 + 1) (by omega)
    (fun j hj => hbefore j (by omega))
  rcases hb.budget with hextend | hroom
  · -- the newest lease ends in `x`, and `id` does not come after that
    obtain ⟨init, lease, hleases, hlast, -⟩ := extends_last_iff.mp hextend
    have hvalid := hconsistent.valid lease
      (hleases ▸ mem_append_right _ (mem_singleton_self _))
    obtain ⟨older, before, hsplit⟩ := @Fresh.recent_expire self now xs h
    have hsame : (older ++ xs).getLast? = some lease.last.toNat := by
      rw [← hsplit, getLast?_append, getLast?_ids hleases hvalid]
      rfl
    rw [getLast?_append, hx] at hsame
    have hxlast : x = lease.last.toNat := some.inj hsame
    omega
  · rw [hresources] at hroom
    omega

/-- With few records and at most two recent ids, none of them is the next one. -/
theorem Fresh.not_mem_of_few (hlength : xs.length ≤ 2) : id.toNat ∉ xs := by
  intro hmem
  obtain ⟨before, after, rfl⟩ := append_of_mem hmem
  obtain ⟨-, -, hnext, -⟩ := @expire_at_spec self now h.ready.consistent
  obtain ⟨older, hrecent⟩ := @Fresh.recent_expire self now _ h
  have hafter := suffix_of_not_mem hrecent hb.free
  have hshort : after.length ≤ 1 := by
    rw [length_append, length_cons] at hlength
    omega
  obtain ⟨k, hk, hbefore⟩ := hb.first_free
  rw [hnext] at hk hbefore
  match after, hshort with
  | [], _ =>
    have hlast := h.next_eq id.toNat getLast?_concat
    cases k with
    | zero =>
      rw [hlast, nth] at hk
      omega
    | succ k => exact absurd (hafter.subset (hbefore 0 (by omega))) not_mem_nil
  | [y], _ =>
    have hlast := h.next_eq y (by
      rw [append_cons]
      exact getLast?_concat)
    cases k with
    | zero =>
      have hchain := (isChain_append.mp (h.apart hranges)).2.1
      rw [isChain_pair] at hchain
      rw [hlast, nth] at hk
      omega
    | succ k =>
      have hin := mem_singleton.mp (hafter.subset (hbefore 0 (by omega)))
      rw [hlast, nth] at hin
      omega

end

/-- With many records the ids of the layouts follow each other. -/
theorem Fresh.not_mem_of_many (hranges : 1026 ≤ self.resources.packet_id_lease_ranges.toNat)
    (hlength : xs.length < 65535) : self.next.toNat ∉ xs :=
  not_mem_of_chain (h.turn hranges) h.range h.next_eq hlength

/-- **A layout gets an id of its own.** -/
theorem Fresh.allocate (hfew : FewLayouts self.resources)
    (hlt : xs.length < self.resources.pmtu_retries.toNat) (heq : self.allocate_at now = (.ok id, b)) :
    id.toNat ∉ xs ∧ Fresh b (xs ++ [id.toNat]) ∧ b.resources = self.resources := by
  rcases @allocate_at_ready self now h.ready with
    ⟨err, b', heq', -⟩ | ⟨id', b', heq', hb, hready, hturn⟩
  · rw [heq'] at heq
    cases heq
  rw [heq'] at heq
  obtain ⟨hid, rfl⟩ := Prod.mk.inj heq
  obtain rfl := Except.ok.inj hid
  obtain ⟨hconsistent, -, hnext, hresources⟩ := @expire_at_spec self now h.ready.consistent
  have hsame : b'.resources = self.resources := hb.resources_eq.trans hresources
  refine ⟨?_, ⟨hready, ?_, ?_, ?_, ?_, ?_⟩, hsame⟩
  · rcases hfew with ⟨hranges, hretries⟩ | ⟨hranges, hretries⟩
    · exact h.not_mem_of_few hb hranges (by omega)
    · rw [hturn hranges]
      exact h.not_mem_of_many hranges (by omega)
  · obtain ⟨older, before, hsplit⟩ := @Fresh.recent_expire self now xs h
    refine ⟨older, before, ?_⟩
    rw [hb.leases_eq, (leases_with_spec hconsistent hb.pos).1, ← append_assoc, hsplit, append_assoc]
  · intro x hx
    rw [getLast?_concat] at hx
    rw [hb.next_eq, toNat_following hb.pos, some.inj hx]
  · intro x hx
    rcases mem_append.mp hx with hx | hx
    · exact h.range x hx
    · have hlt := id'.toNat_lt
      have hpos := hb.pos
      rw [mem_singleton.mp hx]
      omega
  · intro hranges
    rw [hsame] at hranges
    refine isChain_append.mpr ⟨h.apart hranges, isChain_singleton _, ?_⟩
    intro x hx y hy
    rw [← some.inj hy]
    exact h.not_before_last hb hranges hx
  · intro hranges
    rw [hsame] at hranges
    refine isChain_append.mpr ⟨h.turn hranges, isChain_singleton _, ?_⟩
    intro x hx y hy
    rw [← some.inj hy, hturn hranges]
    exact h.next_eq x hx

end QuicUdpPacketIdAllocator
end DaeNext.Quic
