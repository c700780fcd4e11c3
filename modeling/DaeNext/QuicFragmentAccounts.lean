/-
The accounts of the reassembly buffer.

`Accounts` relates the byte counter, the budgets and the cached cleanup time of a buffer
to its two tables. It is stated over those components and not over the buffer, since the
statistics counters play no part in it. Each operation keeps it, so every run of pushes,
sweeps and clears from a new buffer does, whatever arrives and whatever the clock says.
-/
import DaeNext.QuicFragmentBuffer

set_option autoImplicit false

namespace DaeNext.Quic

open Table PendingQuicUdpFragments

/-! ## Accounts -/

/-- The length of a packet's parts together. -/
def PendingQuicUdpFragments.stored (entry : PendingQuicUdpFragments) : Nat :=
  Table.total List.length entry.parts

structure PendingQuicUdpFragments.Exact (entry : PendingQuicUdpFragments) : Prop where
  bytes_eq : entry.bytes = entry.stored
  below : ∀ (id : UInt8) (part : List UInt8), entry.parts[id]? = some part → id < entry.total
  incomplete : entry.parts.size < entry.total.toNat
  within : entry.stored ≤ entry.reassembly_limit

/-- A cleanup is planned by the given time. -/
def PlannedBy (next_cleanup : Option Instant) (expires_at : Instant) : Prop :=
  ∃ deadline, next_cleanup = some deadline ∧ deadline ≤ expires_at

structure Accounts (resources : QuicUdpDatagramResourceProfile)
    (pending : Table UInt16 PendingQuicUdpFragments) (pending_bytes : Nat)
    (quarantined : Table UInt16 Instant) (next_cleanup : Option Instant) : Prop where
  bytes_eq : pending_bytes = Table.total PendingQuicUdpFragments.stored pending
  bytes_le : pending_bytes ≤ resources.pending_fragment_bytes.toNat
  pending_le : pending.size ≤ resources.pending_fragment_packets.toNat
  quarantined_le : quarantined.size ≤ resources.pending_fragment_packets.toNat
  apart : ∀ (id : UInt16) (entry : PendingQuicUdpFragments), pending[id]? = some entry →
    quarantined[id]? = none
  exact : ∀ (id : UInt16) (entry : PendingQuicUdpFragments), pending[id]? = some entry → entry.Exact
  pending_planned : ∀ (id : UInt16) (entry : PendingQuicUdpFragments), pending[id]? = some entry →
    PlannedBy next_cleanup entry.expires_at
  quarantined_planned : ∀ (id : UInt16) (expires_at : Instant), quarantined[id]? = some expires_at →
    PlannedBy next_cleanup expires_at

theorem sooner_le (old : Option Instant) (expires_at : Instant) : sooner old expires_at ≤ expires_at := by
  cases old with
  | none => exact le_rfl
  | some old => exact Nat.min_le_right _ _

theorem PlannedBy.sooner {old : Option Instant} {t : Instant} (h : PlannedBy old t)
    (expires_at : Instant) : PlannedBy (some (sooner old expires_at)) t := by
  obtain ⟨deadline, rfl, hle⟩ := h
  exact ⟨_, rfl, Nat.le_trans (Nat.min_le_left _ _) hle⟩

namespace Accounts

variable {resources : QuicUdpDatagramResourceProfile}
  {pending : Table UInt16 PendingQuicUdpFragments} {pending_bytes : Nat}
  {quarantined : Table UInt16 Instant} {next_cleanup : Option Instant}

theorem empty (resources : QuicUdpDatagramResourceProfile) (next_cleanup : Option Instant) :
    Accounts resources ∅ 0 ∅ next_cleanup where
  bytes_eq := rfl
  bytes_le := Nat.zero_le _
  pending_le := Nat.zero_le _
  quarantined_le := Nat.zero_le _
  apart := nofun
  exact := nofun
  pending_planned := nofun
  quarantined_planned := nofun

variable (h : Accounts resources pending pending_bytes quarantined next_cleanup)

include h

theorem congr_pending {pending' : Table UInt16 PendingQuicUdpFragments}
    (heq : ∀ id : UInt16, pending'[id]? = pending[id]?) :
    Accounts resources pending' pending_bytes quarantined next_cleanup where
  bytes_eq := by rw [h.bytes_eq, total_congr _ heq]
  bytes_le := h.bytes_le
  pending_le := by rw [size_congr heq]; exact h.pending_le
  quarantined_le := h.quarantined_le
  apart := fun id entry hget => h.apart id entry (heq id ▸ hget)
  exact := fun id entry hget => h.exact id entry (heq id ▸ hget)
  pending_planned := fun id entry hget => h.pending_planned id entry (heq id ▸ hget)
  quarantined_planned := h.quarantined_planned

/-- An earlier cleanup is planned. -/
theorem sooner (expires_at : Instant) :
    Accounts resources pending pending_bytes quarantined (some (Quic.sooner next_cleanup expires_at)) :=
  { h with
    pending_planned := fun id entry hget => (h.pending_planned id entry hget).sooner _
    quarantined_planned := fun id t hget => (h.quarantined_planned id t hget).sooner _ }

/-- A packet goes and takes its bytes out of the account. -/
theorem erase (packet_id : UInt16) :
    Accounts resources (pending.erase packet_id)
      (pending_bytes - (pending[packet_id]?).elim 0 fun entry => entry.bytes)
      quarantined next_cleanup := by
  have hget : ∀ (id : UInt16) (entry : PendingQuicUdpFragments),
      (pending.erase packet_id)[id]? = some entry → pending[id]? = some entry :=
    fun _ _ => getElem?_of_erase
  refine ⟨?_, ?_, ?_, h.quarantined_le, ?_, ?_, ?_, h.quarantined_planned⟩
  · cases hentry : pending[packet_id]? with
    | none =>
      rw [total_erase_of_none _ hentry, ← h.bytes_eq]
      rfl
    | some entry =>
      have htotal := total_eq_add_erase stored hentry
      rw [Option.elim_some, (h.exact _ _ hentry).bytes_eq, h.bytes_eq, htotal,
        Nat.add_sub_cancel_left]
  · exact Nat.le_trans (Nat.sub_le _ _) h.bytes_le
  · exact Nat.le_trans Std.TreeMap.size_erase_le h.pending_le
  · exact fun id entry hid => h.apart id entry (hget id entry hid)
  · exact fun id entry hid => h.exact id entry (hget id entry hid)
  · exact fun id entry hid => h.pending_planned id entry (hget id entry hid)

/-- A packet comes in place of what was there under its id. -/
theorem insert {packet_id : UInt16} {entry : PendingQuicUdpFragments} {next_bytes : Nat}
    (hexact : entry.Exact) (hnew : quarantined[packet_id]? = none)
    (hroom : pending[packet_id]? = none →
      pending.size < resources.pending_fragment_packets.toNat)
    (hbytes : next_bytes + (pending[packet_id]?).elim 0 (fun entry => entry.bytes)
      = pending_bytes + entry.bytes) (hbudget : next_bytes ≤ resources.pending_fragment_bytes.toNat)
    (hplanned : PlannedBy next_cleanup entry.expires_at) :
    Accounts resources (pending.insert packet_id entry) next_bytes quarantined next_cleanup := by
  have hrest := (h.erase packet_id).bytes_eq
  refine ⟨?_, hbudget, ?_, h.quarantined_le, ?_, ?_, ?_, h.quarantined_planned⟩
  · -- both counters stand for the other packets and one more
    rw [total_insert, ← hrest, ← hexact.bytes_eq]
    have hshare : (pending[packet_id]?).elim 0 (fun entry => entry.bytes) ≤ pending_bytes := by
      cases hentry : pending[packet_id]? with
      | none => exact Nat.zero_le _
      | some old =>
        rw [h.bytes_eq, total_eq_add_erase _ hentry, Option.elim_some,
          (h.exact _ _ hentry).bytes_eq]
        exact Nat.le_add_right _ _
    omega
  · cases hentry : pending[packet_id]? with
    | none =>
      rw [size_insert_of_none hentry]
      exact hroom hentry
    | some old =>
      rw [size_insert_of_some hentry]
      exact h.pending_le
  · intro id other hid
    obtain ⟨rfl, _⟩ | ⟨_, hid⟩ := getElem?_insert_cases hid
    · exact hnew
    · exact h.apart id other hid
  · intro id other hid
    obtain ⟨_, rfl⟩ | ⟨_, hid⟩ := getElem?_insert_cases hid
    · exact hexact
    · exact h.exact id other hid
  · intro id other hid
    obtain ⟨_, rfl⟩ | ⟨_, hid⟩ := getElem?_insert_cases hid
    · exact hplanned
    · exact h.pending_planned id other hid

end Accounts

/-! ## Operations -/

namespace QuicUdpFragmentBuffer

/-- The accounts of a buffer are right. -/
def Exact (self : QuicUdpFragmentBuffer) : Prop :=
  Accounts self.resources self.pending self.pending_bytes self.quarantined self.next_cleanup

variable {self : QuicUdpFragmentBuffer} {now : Instant} {fragment : QuicUdpFragmentInput}
  {label : String}

variable (resources : QuicUdpDatagramResourceProfile)

theorem Exact.new (max_reassembled_bytes : UInt64) : (new resources max_reassembled_bytes).Exact :=
  Accounts.empty resources none

section

variable (h : self.Exact)

include h

theorem Exact.budget_pos {packet_id : UInt16} {entry : PendingQuicUdpFragments}
    (hget : self.pending[packet_id]? = some entry) :
    0 < self.resources.pending_fragment_packets.toNat := by
  have hmem : packet_id ∈ self.pending :=
    Std.TreeMap.mem_iff_isSome_getElem?.mpr (by rw [hget]; rfl)
  have hlt := size_erase_lt hmem
  have hle := h.pending_le
  omega

theorem Exact.remove_pending (packet_id : UInt16) : (self.remove_pending packet_id).Exact := by
  rw [QuicUdpFragmentBuffer.remove_pending]
  cases hentry : self.pending[packet_id]? with
  | none => exact h
  | some entry =>
    have herase := Accounts.erase h packet_id
    rw [hentry] at herase
    exact herase

theorem Exact.quarantine {packet_id : UInt16} (hgone : self.pending[packet_id]? = none)
    (hpos : 0 < self.resources.pending_fragment_packets.toNat) :
    (self.quarantine now packet_id).Exact where
  bytes_eq := h.bytes_eq
  bytes_le := h.bytes_le
  pending_le := h.pending_le
  quarantined_le := size_quarantine_le packet_id rfl hpos h.quarantined_le
  apart := by
    intro id entry hid
    have hne : id ≠ packet_id := by
      rintro rfl
      rw [show (self.quarantine now id).pending = self.pending from rfl, hgone] at hid
      cases hid
    cases hquarantined : (self.quarantine now packet_id).quarantined[id]? with
    | none => rfl
    | some expires_at =>
      have hold := getElem?_quarantine_of_ne hne hquarantined
      rw [h.apart id entry hid] at hold
      cases hold
  exact := h.exact
  pending_planned := fun id entry hid => (h.pending_planned id entry hid).sooner _
  quarantined_planned := by
    intro id expires_at hid
    by_cases heq : id = packet_id
    · rw [heq, getElem?_quarantine_self] at hid
      cases hid
      exact ⟨_, rfl, sooner_le _ _⟩
    · exact (h.quarantined_planned id expires_at (getElem?_quarantine_of_ne heq hid)).sooner _

theorem Exact.set_aside (packet_id : UInt16) (hpos : 0 < self.resources.pending_fragment_packets.toNat) :
    ((self.remove_pending packet_id).quarantine now packet_id).Exact := by
  apply (h.remove_pending packet_id).quarantine
  · rw [getElem?_remove_pending, if_pos rfl]
  · rw [(remove_pending_frame packet_id).1]
    exact hpos

theorem Exact.expire_packets (packet_ids : List UInt16)
    (hpos : packet_ids ≠ [] → 0 < self.resources.pending_fragment_packets.toNat) :
    (packet_ids.foldl (fun self packet_id => self.expire_packet now packet_id) self).Exact := by
  induction packet_ids generalizing self with
  | nil => exact h
  | cons packet_id packet_ids ih =>
    have hbudget := hpos (List.cons_ne_nil _ _)
    rw [List.foldl_cons]
    apply ih
    · exact h.set_aside packet_id hbudget
    · intro _
      rw [expire_packet]
      dsimp only [QuicUdpFragmentBuffer.quarantine]
      rw [(remove_pending_frame packet_id).1]
      exact hbudget

theorem Exact.retain_quarantined : (self.retain_quarantined now).Exact := by
  have hplanned : ∀ t ∈ self.pending.toList.map (fun entry => entry.2.expires_at)
      ++ (self.retain_quarantined now).quarantined.toList.map (fun entry => entry.2),
      PlannedBy (self.retain_quarantined now).next_cleanup t := by
    intro t ht
    cases hmin : (self.retain_quarantined now).next_cleanup with
    | none =>
      rw [QuicUdpFragmentBuffer.retain_quarantined, List.min?_eq_none_iff] at hmin
      rw [QuicUdpFragmentBuffer.retain_quarantined, hmin] at ht
      cases ht
    | some deadline =>
      exact ⟨deadline, rfl, (List.min?_eq_some_iff.mp hmin).2 t ht⟩
  have hget : ∀ (id : UInt16) (expires_at : Instant),
      (self.retain_quarantined now).quarantined[id]? = some expires_at →
        self.quarantined[id]? = some expires_at := by
    intro id expires_at hid
    rw [QuicUdpFragmentBuffer.retain_quarantined, getElem?_filter, Option.filter_eq_some_iff] at hid
    exact hid.1
  refine ⟨h.bytes_eq, h.bytes_le, h.pending_le, ?_, ?_, h.exact, ?_, ?_⟩
  · exact Nat.le_trans Std.TreeMap.size_filter_le_size h.quarantined_le
  · intro id entry hid
    cases hquarantined : (self.retain_quarantined now).quarantined[id]? with
    | none => rfl
    | some expires_at =>
      have hold := hget id expires_at hquarantined
      rw [h.apart id entry hid] at hold
      cases hold
  · intro id entry hid
    apply hplanned
    apply List.mem_append_left
    exact List.mem_map.mpr ⟨(id, entry), Std.TreeMap.mem_toList_iff_getElem?_eq_some.mpr hid, rfl⟩
  · intro id expires_at hid
    apply hplanned
    apply List.mem_append_right
    exact List.mem_map.mpr
      ⟨(id, expires_at), Std.TreeMap.mem_toList_iff_getElem?_eq_some.mpr hid, rfl⟩

theorem Exact.expire_at (now : Instant) : (self.expire_at now).Exact := by
  rw [QuicUdpFragmentBuffer.expire_at]
  split_ifs
  · exact h
  · apply Exact.retain_quarantined
    apply h.expire_packets
    intro hsome
    obtain ⟨packet_id, hmem⟩ := List.exists_mem_of_ne_nil _ hsome
    obtain ⟨entry, hget, -⟩ := mem_expired.mp hmem
    exact h.budget_pos hget

theorem Exact.refused {b : QuicUdpFragmentBuffer} (hb : Refused self now fragment b) : b.Exact := by
  cases hb with
  | overflow | rejected bytes => exact h
  | discarded bytes hbudget =>
    apply h.set_aside
    cases hentry : self.pending[fragment.packet_id]? with
    | none => exact Nat.lt_of_le_of_lt (Nat.zero_le _) (hbudget hentry)
    | some entry => exact h.budget_pos hentry

/-! ### Admitted fragments -/

theorem Exact.part_bytes_le (fragment : QuicUdpFragmentInput) :
    self.part_bytes fragment ≤ self.packet_bytes fragment
      ∧ self.packet_bytes fragment ≤ self.pending_bytes := by
  rw [part_bytes, packet_bytes]
  cases hentry : self.pending[fragment.packet_id]? with
  | none => exact ⟨le_rfl, Nat.zero_le _⟩
  | some entry =>
    rw [Option.bind_some, Option.elim_some, (h.exact _ _ hentry).bytes_eq]
    constructor
    · cases hpart : entry.parts[fragment.fragment_id]? with
      | none => exact Nat.zero_le _
      | some part =>
        rw [stored, total_eq_add_erase _ hpart]
        exact Nat.le_add_right _ _
    · rw [h.bytes_eq, total_eq_add_erase _ hentry]
      exact Nat.le_add_right _ _

end

variable {limit : Nat} {a : Admission}

theorem stored_entry_with (h : self.Exact) (ha : Admitted self fragment limit a) :
    (self.entry_with now fragment a).stored = a.next_packet_bytes := by
  obtain ⟨hle, -, hnext⟩ := checked_replace_eq_some.mp ha.packet
  rw [hnext, stored, entry_with, total_insert]
  rw [packet_bytes, part_bytes] at hle ⊢
  cases hentry : self.pending[fragment.packet_id]? with
  | none =>
    simp
  | some entry =>
    rw [Option.getD_some, Option.elim_some, Option.bind_some]
    have hbytes := (h.exact _ _ hentry).bytes_eq
    rw [stored] at hbytes
    cases hpart : entry.parts[fragment.fragment_id]? with
    | none =>
      rw [total_erase_of_none _ hpart, Option.elim_none]
      omega
    | some part =>
      rw [total_eq_add_erase _ hpart] at hbytes
      rw [Option.elim_some]
      omega

theorem total_entry_with (ha : Admitted self fragment limit a) :
    (self.entry_with now fragment a).total = fragment.fragment_count := by
  rw [entry_with]
  cases hentry : self.pending[fragment.packet_id]? with
  | none => rfl
  | some entry => exact ha.same_total entry hentry

theorem limit_entry_with (ha : Admitted self fragment limit a) :
    (self.entry_with now fragment a).reassembly_limit = a.reassembly_limit := by
  have hlimit := ha.limit_eq
  rw [limit_for] at hlimit
  rw [entry_with]
  cases hentry : self.pending[fragment.packet_id]? with
  | none =>
    exact Nat.min_self _
  | some entry =>
    rw [hentry, Option.elim_some] at hlimit
    exact Nat.min_eq_right (by rw [hlimit]; exact Nat.min_le_left _ _)

section

variable (h : self.Exact)

include h

/-- A part more keeps the entry's books, unless it was the last one missing. -/
theorem entry_with_exact (ha : Admitted self fragment limit a)
    (hid : fragment.fragment_id < fragment.fragment_count)
    (hpart : (self.entry_with now fragment a).parts.size ≠ fragment.fragment_count.toNat) :
    (self.entry_with now fragment a).Exact where
  bytes_eq := (stored_entry_with h ha).symm
  below := by
    intro id part hget
    rw [total_entry_with ha]
    rw [entry_with, getElem?_insert] at hget
    split_ifs at hget with heq
    · rw [heq]
      exact hid
    · cases hentry : self.pending[fragment.packet_id]? with
      | none =>
        rw [hentry] at hget
        cases hget
      | some entry =>
        rw [hentry] at hget
        rw [← ha.same_total entry hentry]
        exact (h.exact _ _ hentry).below id part hget
  incomplete := by
    rw [total_entry_with ha]
    apply Nat.lt_of_le_of_ne _ hpart
    refine Nat.le_trans Std.TreeMap.size_insert_le ?_
    cases hentry : self.pending[fragment.packet_id]? with
    | none =>
      exact Nat.lt_of_le_of_lt (Nat.zero_le _) (UInt8.lt_iff_toNat_lt.mp hid)
    | some entry =>
      rw [← ha.same_total entry hentry]
      exact (h.exact _ _ hentry).incomplete
  within := by
    rw [stored_entry_with h ha, limit_entry_with ha]
    exact ha.packet_le

theorem entry_with_planned (a : Admission) :
    PlannedBy (self.store now fragment a).next_cleanup (self.entry_with now fragment a).expires_at := by
  rw [entry_with]
  cases hentry : self.pending[fragment.packet_id]? with
  | none => exact ⟨_, rfl, sooner_le _ _⟩
  | some entry => exact (h.pending_planned _ _ hentry).sooner _

/-- The packet's bytes change in the two sums alike. -/
theorem moved_bytes (ha : Admitted self fragment limit a) :
    a.next_pending_bytes + self.packet_bytes fragment = self.pending_bytes + a.next_packet_bytes := by
  obtain ⟨-, -, hpacket⟩ := checked_replace_eq_some.mp ha.packet
  obtain ⟨-, -, hpending⟩ := checked_replace_eq_some.mp ha.pending
  obtain ⟨hpart, hpacket'⟩ := h.part_bytes_le fragment
  omega

theorem Exact.store (ha : Admitted self fragment limit a)
    (hnew : self.quarantined[fragment.packet_id]? = none)
    (hid : fragment.fragment_id < fragment.fragment_count)
    (hpart : (self.entry_with now fragment a).parts.size ≠ fragment.fragment_count.toNat) :
    (self.store now fragment a).Exact := by
  refine Accounts.insert (h.sooner _) (entry_with_exact h ha hid hpart) hnew ha.room ?_
    ha.pending_le (entry_with_planned h a)
  exact moved_bytes h ha

theorem Exact.completed (ha : Admitted self fragment limit a) :
    (self.completed now fragment a).Exact := by
  have hgone : ∀ id : UInt16, ((self.store now fragment a).pending.erase fragment.packet_id)[id]?
      = (self.pending.erase fragment.packet_id)[id]? := by
    intro id
    rw [QuicUdpFragmentBuffer.store, getElem?_erase, getElem?_erase, getElem?_insert]
    split_ifs <;> rfl
  have hbytes : a.next_pending_bytes - a.next_packet_bytes
      = self.pending_bytes - (self.pending[fragment.packet_id]?).elim 0 fun entry => entry.bytes := by
    have hmoved := moved_bytes h ha
    have hpacket := (h.part_bytes_le fragment).2
    rw [← packet_bytes]
    omega
  have hpos : 0 < self.resources.pending_fragment_packets.toNat := by
    cases hentry : self.pending[fragment.packet_id]? with
    | none => exact Nat.lt_of_le_of_lt (Nat.zero_le _) (ha.room hentry)
    | some entry => exact h.budget_pos hentry
  refine Exact.quarantine ?_ ?_ hpos
  · have herase := Accounts.erase h fragment.packet_id
    rw [← hbytes] at herase
    exact (herase.congr_pending hgone).sooner _
  · rw [hgone, getElem?_erase, if_pos rfl]

theorem Exact.push (now : Instant) (fragment : QuicUdpFragmentInput)
    (label : String) (reassembly_limit : UInt64) :
    (self.push_at_with_reassembly_limit now fragment label reassembly_limit).2.Exact := by
  rcases self.push_cases now fragment label reassembly_limit with
    ⟨-, err, bytes, heq⟩ | ⟨hid, outcome, b, heq, hpushed⟩
  · rw [heq]
    exact h
  · rw [heq]
    have hswept := h.expire_at now
    cases hpushed with
    | refused err hb => exact hswept.refused hb
    | single hcount | late hlate => exact hswept
    | stored a hnew hcount ha hpart => exact hswept.store ha hnew hid hpart
    | completed a hnew hcount ha hpart => exact hswept.completed ha

/-! ## Runs -/

/-- The calls that change a buffer. -/
inductive Call where
  | push (now : Instant) (fragment : QuicUdpFragmentInput) (reassembly_limit : UInt64)
      (label : String)
  | expire (now : Instant)
  | clear

def call (self : QuicUdpFragmentBuffer) : Call → QuicUdpFragmentBuffer
  | .push now fragment reassembly_limit label =>
    (self.push_at_with_reassembly_limit now fragment label reassembly_limit).2
  | .expire now => self.expire_at now
  | .clear => self.clear

theorem Exact.call (c : Call) : (self.call c).Exact := by
  cases c with
  | push now fragment reassembly_limit label => exact h.push now fragment label reassembly_limit
  | expire now => exact h.expire_at now
  | clear => exact Accounts.empty _ _

end

theorem settings_call (c : Call) : (self.call c).settings = self.settings := by
  cases c with
  | push now fragment reassembly_limit label =>
    exact settings_push now fragment label reassembly_limit
  | expire now => exact settings_expire_at now
  | clear => rfl

theorem exact_calls (h : self.Exact) (calls : List Call) :
    (calls.foldl call self).Exact ∧ (calls.foldl call self).settings = self.settings := by
  induction calls generalizing self with
  | nil => exact ⟨h, rfl⟩
  | cons c calls ih =>
    obtain ⟨hexact, hsettings⟩ := ih (h.call c)
    exact ⟨hexact, hsettings.trans (settings_call c)⟩

/-- After any calls the byte counter, the budgets, the parts of every packet and the planned
cleanup agree with the two tables. -/
theorem accounts_after_calls (max_reassembled_bytes : UInt64) (calls : List Call) :
    let b := calls.foldl call (new resources max_reassembled_bytes)
    Accounts resources b.pending b.pending_bytes b.quarantined b.next_cleanup := by
  obtain ⟨hexact, hsettings⟩ := exact_calls (Exact.new resources max_reassembled_bytes) calls
  have hresources := congrArg Prod.fst hsettings
  rw [Exact] at hexact
  rw [show (calls.foldl call (new resources max_reassembled_bytes)).resources = resources
    from hresources] at hexact
  exact hexact

end QuicUdpFragmentBuffer
end DaeNext.Quic
