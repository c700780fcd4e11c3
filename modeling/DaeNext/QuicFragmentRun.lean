/-
Reassembly over a whole run of arrivals.

The fragments of one packet arrive in any order, with copies, between fragments of other
packets that may be anything. While the packet is incomplete the buffer holds exactly the
parts that arrived (`Holding`); the arrival that brings the last missing one returns the
parts in the order of their ids, and later arrivals find the id in quarantine.
-/
import DaeNext.QuicFragmentAccounts

set_option autoImplicit false

namespace DaeNext.Quic

open Table
open List hiding getElem?_insert getElem?_filter

/-! ## Arrivals -/

structure Arrival where
  now : Instant
  fragment : QuicUdpFragmentInput
  reassembly_limit : UInt64
  label : String
deriving DecidableEq, Repr

def Arrival.expiry (x : Arrival) (resources : QuicUdpDatagramResourceProfile) : Instant :=
  (x.now.checked_add resources.fragment_ttl).getD x.now

def Arrival.is_of (x : Arrival) (packet_id : UInt16) : Bool :=
  decide (x.fragment.packet_id = packet_id)

/-- The arrival brings a copy of a fragment of the packet made of `parts`. -/
def Arrival.CopyOf (parts : List (List UInt8)) (x : Arrival) : Prop :=
  x.fragment.fragment_count.toNat = parts.length
    ∧ parts[x.fragment.fragment_id.toNat]? = some x.fragment.payload

/-- A fragment is among the arrivals. -/
def arrived (packet_id : UInt16) (arrivals : List Arrival) (fragment_id : UInt8) : Bool :=
  arrivals.any fun x => x.is_of packet_id && decide (x.fragment.fragment_id = fragment_id)

/-- All fragments `0 .. count` are among the arrivals. -/
def Covered (packet_id : UInt16) (count : Nat) (arrivals : List Arrival) : Prop :=
  ∀ i < count, arrived packet_id arrivals (UInt8.ofNat i) = true

instance (packet_id : UInt16) (count : Nat) (arrivals : List Arrival) :
    Decidable (Covered packet_id count arrivals) :=
  inferInstanceAs (Decidable (∀ i < count, arrived packet_id arrivals (UInt8.ofNat i) = true))

theorem arrived_append (packet_id : UInt16) (arrivals later : List Arrival) (fragment_id : UInt8) :
    arrived packet_id (arrivals ++ later) fragment_id
      = (arrived packet_id arrivals fragment_id || arrived packet_id later fragment_id) :=
  any_append

theorem arrived_iff {packet_id : UInt16} {arrivals : List Arrival} {fragment_id : UInt8} :
    arrived packet_id arrivals fragment_id = true
      ↔ ∃ x ∈ arrivals, x.is_of packet_id = true ∧ x.fragment.fragment_id = fragment_id := by
  rw [arrived, any_eq_true]
  simp only [Bool.and_eq_true, decide_eq_true_eq]

namespace QuicUdpFragmentBuffer

def push (self : QuicUdpFragmentBuffer) (x : Arrival) :
    Except String QuicUdpFragmentOutcome × QuicUdpFragmentBuffer :=
  self.push_at_with_reassembly_limit x.now x.fragment x.label x.reassembly_limit

def after (self : QuicUdpFragmentBuffer) (arrivals : List Arrival) : QuicUdpFragmentBuffer :=
  arrivals.foldl (fun self x => (self.push x).2) self

def outcomes (self : QuicUdpFragmentBuffer) :
    List Arrival → List (Arrival × Except String QuicUdpFragmentOutcome)
  | [] => []
  | x :: arrivals => (x, (self.push x).1) :: (self.push x).2.outcomes arrivals

end QuicUdpFragmentBuffer

def completed_payload : Except String QuicUdpFragmentOutcome → Option (List UInt8)
  | .ok (.Complete payload) => some payload
  | _ => none

/-- The payload that an arrival of the packet returned. -/
def completion (packet_id : UInt16) (result : Arrival × Except String QuicUdpFragmentOutcome) :
    Option (List UInt8) :=
  if result.1.is_of packet_id then completed_payload result.2 else none

/-- The payloads that the arrivals of a packet returned. -/
def completions (packet_id : UInt16)
    (results : List (Arrival × Except String QuicUdpFragmentOutcome)) : List (List UInt8) :=
  results.filterMap (completion packet_id)

namespace QuicUdpFragmentBuffer

variable {self : QuicUdpFragmentBuffer} {now : Instant} {fragment : QuicUdpFragmentInput}
  {label : String}

variable (arrivals : List Arrival)

theorem after_append (x : Arrival) : self.after (arrivals ++ [x]) = ((self.after arrivals).push x).2 :=
  foldl_append

theorem outcomes_append (x : Arrival) :
    self.outcomes (arrivals ++ [x])
      = self.outcomes arrivals ++ [(x, ((self.after arrivals).push x).1)] := by
  induction arrivals generalizing self with
  | nil => rfl
  | cons y arrivals ih =>
    rw [cons_append, outcomes, outcomes, ih, cons_append]
    rfl

theorem completions_append (packet_id : UInt16) (arrivals : List Arrival) (x : Arrival) :
    completions packet_id (self.outcomes (arrivals ++ [x]))
      = completions packet_id (self.outcomes arrivals)
        ++ (completion packet_id (x, ((self.after arrivals).push x).1)).toList := by
  rw [outcomes_append, completions, filterMap_append]
  rfl

theorem Exact.after (h : self.Exact) (arrivals : List Arrival) : (self.after arrivals).Exact := by
  induction arrivals generalizing self with
  | nil => exact h
  | cons x arrivals ih => exact ih (h.push x.now x.fragment x.label x.reassembly_limit)

theorem settings_after : (self.after arrivals).settings = self.settings := by
  induction arrivals generalizing self with
  | nil => rfl
  | cons x arrivals ih =>
    exact Eq.trans ih (settings_push x.now x.fragment x.label x.reassembly_limit)

/-! ## Packets that an operation leaves alone -/

variable {x : Arrival}

section Frame

variable {packet_id : UInt16}

theorem quarantine_none {other : UInt16} (hne : packet_id ≠ other)
    (h : self.quarantined[packet_id]? = none) :
    (self.quarantine now other).quarantined[packet_id]? = none := by
  cases hget : (self.quarantine now other).quarantined[packet_id]? with
  | none => rfl
  | some expires_at =>
    have hold := getElem?_quarantine_of_ne hne hget
    rw [h] at hold
    cases hold

theorem set_aside_frame {other : UInt16} (hne : packet_id ≠ other) :
    ((self.remove_pending other).quarantine now other).pending[packet_id]?
        = self.pending[packet_id]?
      ∧ (self.quarantined[packet_id]? = none →
        ((self.remove_pending other).quarantine now other).quarantined[packet_id]? = none) := by
  constructor
  · change (self.remove_pending other).pending[packet_id]? = _
    rw [getElem?_remove_pending, if_neg hne]
  · intro h
    apply quarantine_none hne
    rw [(remove_pending_frame other).2.1]
    exact h

theorem expire_packets_frame {packet_ids : List UInt16} (hnot : packet_id ∉ packet_ids) :
    (packet_ids.foldl (fun self other => self.expire_packet now other) self).pending[packet_id]?
        = self.pending[packet_id]?
      ∧ (self.quarantined[packet_id]? = none →
        (packet_ids.foldl (fun self other => self.expire_packet now other)
          self).quarantined[packet_id]? = none) := by
  induction packet_ids generalizing self with
  | nil => exact ⟨rfl, id⟩
  | cons other packet_ids ih =>
    have hne : packet_id ≠ other := fun heq => hnot (heq ▸ mem_cons_self)
    have hstep : (self.expire_packet now other).pending[packet_id]? = self.pending[packet_id]?
        ∧ (self.quarantined[packet_id]? = none →
          (self.expire_packet now other).quarantined[packet_id]? = none) :=
      set_aside_frame hne
    have hrest := @ih (self.expire_packet now other)
      (fun hmem => hnot (mem_cons_of_mem _ hmem))
    exact ⟨hrest.1.trans hstep.1, fun h => hrest.2 (hstep.2 h)⟩

theorem retain_quarantined_none (h : self.quarantined[packet_id]? = none) :
    (self.retain_quarantined now).quarantined[packet_id]? = none := by
  rw [retain_quarantined, getElem?_filter, h]
  rfl

theorem expire_at_frame
    (hkept : ∀ entry, self.pending[packet_id]? = some entry → now < entry.expires_at) :
    (self.expire_at now).pending[packet_id]? = self.pending[packet_id]?
      ∧ (self.quarantined[packet_id]? = none →
        (self.expire_at now).quarantined[packet_id]? = none) := by
  have hnot : packet_id ∉ self.expired now := by
    intro hmem
    obtain ⟨entry, hget, hle⟩ := mem_expired.mp hmem
    exact absurd (hkept entry hget) (Nat.not_lt.mpr hle)
  have hframe := @expire_packets_frame self now packet_id _ hnot
  rw [expire_at]
  split_ifs
  · exact ⟨rfl, id⟩
  · exact ⟨hframe.1, fun h => retain_quarantined_none (hframe.2 h)⟩

theorem store_frame (a : Admission) (hne : packet_id ≠ fragment.packet_id) :
    (self.store now fragment a).pending[packet_id]? = self.pending[packet_id]? := by
  rw [store, getElem?_insert, if_neg hne]

theorem completed_pending (a : Admission) :
    (self.completed now fragment a).pending[packet_id]?
      = if packet_id = fragment.packet_id then none else self.pending[packet_id]? := by
  change ((self.store now fragment a).pending.erase fragment.packet_id)[packet_id]? = _
  rw [getElem?_erase]
  split_ifs with heq
  · rfl
  · exact store_frame a heq

/-- A push for another id leaves a packet alone that is not past its expiry. -/
theorem push_frame (hne : packet_id ≠ x.fragment.packet_id)
    (hkept : ∀ entry, self.pending[packet_id]? = some entry → x.now < entry.expires_at) :
    (self.push x).2.pending[packet_id]? = self.pending[packet_id]?
      ∧ (self.quarantined[packet_id]? = none →
        (self.push x).2.quarantined[packet_id]? = none) := by
  have hswept := expire_at_frame hkept
  rw [push]
  rcases self.push_cases x.now x.fragment x.label x.reassembly_limit with
    ⟨-, err, bytes, heq⟩ | ⟨-, outcome, b, heq, hpushed⟩
  · rw [heq]
    exact ⟨rfl, id⟩
  · rw [heq]
    have hstep : b.pending[packet_id]? = (self.expire_at x.now).pending[packet_id]?
        ∧ ((self.expire_at x.now).quarantined[packet_id]? = none →
          b.quarantined[packet_id]? = none) := by
      cases hpushed with
      | refused err hb =>
        cases hb with
        | overflow | rejected bytes => exact ⟨rfl, id⟩
        | discarded bytes hbudget => exact set_aside_frame hne
      | single hcount | late hlate => exact ⟨rfl, id⟩
      | stored a hnew hcount ha hpart => exact ⟨store_frame a hne, id⟩
      | completed a hnew hcount ha hpart =>
        refine ⟨?_, fun h => quarantine_none hne h⟩
        rw [completed_pending, if_neg hne]
    exact ⟨hstep.1.trans hswept.1, fun h => hstep.2 (hswept.2 h)⟩

end Frame

/-! ## One packet on its way -/

section Packet

variable {packet_id : UInt16} {parts : List (List UInt8)} {before : List Arrival}

/-- The buffer holds exactly the parts of the packet that arrived, and its expiry is that of
the first of them. -/
structure Holding (buffer : QuicUdpFragmentBuffer) (packet_id : UInt16) (parts : List (List UInt8))
    (before : List Arrival) : Prop where
  allowed : buffer.quarantined[packet_id]? = none
  fresh : before.find? (fun y => y.is_of packet_id) = none → buffer.pending[packet_id]? = none
  stored : ∀ first, before.find? (fun y => y.is_of packet_id) = some first →
    ∃ entry, buffer.pending[packet_id]? = some entry
      ∧ entry.total.toNat = parts.length
      ∧ entry.expires_at = first.expiry buffer.resources
      ∧ ∀ id : UInt8, entry.parts[id]?
          = if arrived packet_id before id then parts[id.toNat]? else none

/-- The push keeps to the budgets, in a buffer that was swept. -/
structure WithinBudgets (buffer : QuicUdpFragmentBuffer) (x : Arrival) : Prop where
  packets : buffer.pending[x.fragment.packet_id]? = none →
    buffer.pending.size < buffer.resources.pending_fragment_packets.toNat
  reassembly : buffer.packet_bytes x.fragment - buffer.part_bytes x.fragment
      + x.fragment.payload.length
    ≤ buffer.limit_for x.fragment
      (min x.reassembly_limit.toNat buffer.max_reassembled_bytes.toNat)
  bytes : buffer.pending_bytes - buffer.part_bytes x.fragment + x.fragment.payload.length
    ≤ buffer.resources.pending_fragment_bytes.toNat

theorem limit_for_le (limit : Nat) : self.limit_for fragment limit ≤ limit := by
  rw [limit_for]
  cases self.pending[fragment.packet_id]? with
  | none => exact le_rfl
  | some entry => exact Nat.min_le_right _ _

section

variable (h : Holding self packet_id parts before)

include h

/-- What is pending of the packet, before the sweep of the next arrival. -/
theorem Holding.kept (htime : ∀ first, before.find? (fun y => y.is_of packet_id) = some first →
      now < first.expiry self.resources) :
    ∀ entry, self.pending[packet_id]? = some entry → now < entry.expires_at := by
  intro entry hget
  cases hfirst : before.find? (fun y => y.is_of packet_id) with
  | none =>
    rw [h.fresh hfirst] at hget
    cases hget
  | some first =>
    obtain ⟨held, hheld, -, hexpiry, -⟩ := h.stored first hfirst
    rw [hget] at hheld
    rw [Option.some.inj hheld, hexpiry]
    exact htime first hfirst

theorem Holding.frame {b : QuicUdpFragmentBuffer}
    (hpending : b.pending[packet_id]? = self.pending[packet_id]?)
    (hquarantined : b.quarantined[packet_id]? = none) (hsettings : b.settings = self.settings) :
    Holding b packet_id parts before := by
  have hresources : b.resources = self.resources := congrArg Prod.fst hsettings
  refine ⟨hquarantined, fun hnone => hpending.trans (h.fresh hnone), fun first hfirst => ?_⟩
  rw [hpending, hresources]
  exact h.stored first hfirst

theorem Holding.swept (htime : ∀ first, before.find? (fun y => y.is_of packet_id) = some first →
      now < first.expiry self.resources) :
    Holding (self.expire_at now) packet_id parts before := by
  have hframe := expire_at_frame (h.kept htime)
  exact h.frame hframe.1 (hframe.2 h.allowed) (settings_expire_at now)

omit h in
theorem find_append_of_ne (hne : x.is_of packet_id = false) :
    (before ++ [x]).find? (fun y => y.is_of packet_id) = before.find? (fun y => y.is_of packet_id) := by
  rw [find?_append, find?_singleton, hne]
  cases before.find? (fun y => y.is_of packet_id) <;> rfl

omit h in
theorem arrived_append_of_ne (hne : x.is_of packet_id = false) (id : UInt8) :
    arrived packet_id (before ++ [x]) id = arrived packet_id before id := by
  simp [arrived, hne]

theorem Holding.other (hne : x.is_of packet_id = false)
    (htime : ∀ first, before.find? (fun y => y.is_of packet_id) = some first →
      x.now < first.expiry self.resources) :
    Holding (self.push x).2 packet_id parts (before ++ [x]) := by
  have hid : packet_id ≠ x.fragment.packet_id := fun heq => of_decide_eq_false hne heq.symm
  have hframe := push_frame hid (h.kept htime)
  have hpushed := h.frame hframe.1 (hframe.2 h.allowed)
    (settings_push x.now x.fragment x.label x.reassembly_limit)
  refine ⟨hpushed.allowed, ?_, ?_⟩
  · rw [find_append_of_ne hne]
    exact hpushed.fresh
  · rw [find_append_of_ne hne]
    intro first hfirst
    obtain ⟨entry, hget, htotal, hexpiry, hparts⟩ := hpushed.stored first hfirst
    refine ⟨entry, hget, htotal, hexpiry, fun id => ?_⟩
    rw [arrived_append_of_ne hne]
    exact hparts id

theorem Holding.admitted (hexact : self.Exact) (hx : x.is_of packet_id = true)
    (hcopy : x.CopyOf parts) (hbudget : WithinBudgets self x) :
    Admitted self x.fragment (min x.reassembly_limit.toNat self.max_reassembled_bytes.toNat)
      { reassembly_limit := self.limit_for x.fragment
          (min x.reassembly_limit.toNat self.max_reassembled_bytes.toNat)
        next_packet_bytes := self.packet_bytes x.fragment - self.part_bytes x.fragment
          + x.fragment.payload.length
        next_pending_bytes := self.pending_bytes - self.part_bytes x.fragment
          + x.fragment.payload.length } := by
  have hid : x.fragment.packet_id = packet_id := of_decide_eq_true hx
  obtain ⟨hpart, hpacket⟩ := hexact.part_bytes_le x.fragment
  have hbytes := self.resources.pending_fragment_bytes.toNat_lt
  have hfits := hbudget.reassembly
  have hglobal := hbudget.bytes
  refine {
    same_total := ?_
    room := hbudget.packets
    limit_eq := rfl
    kept := ?_
    packet := checked_replace_eq_some.mpr ⟨hpart, by omega, rfl⟩
    packet_le := hfits
    pending := checked_replace_eq_some.mpr ⟨by omega, by omega, rfl⟩
    pending_le := hglobal }
  · intro entry hentry
    rw [hid] at hentry
    cases hfirst : before.find? (fun y => y.is_of packet_id) with
    | none =>
      rw [h.fresh hfirst] at hentry
      cases hentry
    | some first =>
      obtain ⟨held, hheld, htotal, -, -⟩ := h.stored first hfirst
      rw [hentry] at hheld
      cases hheld
      exact UInt8.toNat_inj.mp (htotal.trans hcopy.1.symm)
  · -- an earlier copy has the length of this one
    have hsame : self.part_bytes x.fragment ≤ x.fragment.payload.length := by
      rw [part_bytes, hid]
      cases hfirst : before.find? (fun y => y.is_of packet_id) with
      | none =>
        rw [h.fresh hfirst]
        exact Nat.zero_le _
      | some first =>
        obtain ⟨held, hheld, -, -, hparts⟩ := h.stored first hfirst
        rw [hheld, Option.bind_some, hparts, hcopy.2]
        split_ifs
        · exact le_rfl
        · exact Nat.zero_le _
    dsimp only
    omega

theorem Holding.entry_with (hx : x.is_of packet_id = true) (hcopy : x.CopyOf parts) (a : Admission)
    :
    (self.entry_with x.now x.fragment a).total.toNat = parts.length
      ∧ (∀ first, (before ++ [x]).find? (fun y => y.is_of packet_id) = some first →
        (self.entry_with x.now x.fragment a).expires_at = first.expiry self.resources)
      ∧ ∀ id : UInt8, (self.entry_with x.now x.fragment a).parts[id]?
          = if arrived packet_id (before ++ [x]) id then parts[id.toNat]? else none := by
  have harrived : ∀ id : UInt8, arrived packet_id (before ++ [x]) id
      = (arrived packet_id before id || decide (x.fragment.fragment_id = id)) := by
    simp [arrived, hx]
  rw [QuicUdpFragmentBuffer.entry_with, of_decide_eq_true hx]
  cases hfirst : before.find? (fun y => y.is_of packet_id) with
  | none =>
    have hnone : ∀ id : UInt8, arrived packet_id before id = false := by
      intro id
      rw [arrived, any_eq_false]
      intro y hy
      rw [Bool.and_eq_true]
      exact fun hand => find?_eq_none.mp hfirst y hy hand.1
    rw [h.fresh hfirst, Option.getD_none]
    refine ⟨hcopy.1, ?_, ?_⟩
    · intro first hfind
      rw [find?_append, hfirst, Option.none_or, find?_singleton, if_pos hx] at hfind
      cases hfind
      rfl
    · intro id
      rw [getElem?_insert, harrived, hnone, Bool.false_or]
      by_cases heq : id = x.fragment.fragment_id
      · rw [if_pos heq, heq, if_pos (decide_eq_true rfl), hcopy.2]
      · rw [if_neg heq, if_neg (fun h => heq (of_decide_eq_true h).symm)]
        rfl
  | some first =>
    obtain ⟨held, hheld, htotal, hexpiry, hparts⟩ := h.stored first hfirst
    rw [hheld, Option.getD_some]
    refine ⟨htotal, ?_, ?_⟩
    · intro other hfind
      rw [find?_append, hfirst, Option.some_or] at hfind
      cases hfind
      exact hexpiry
    · intro id
      rw [getElem?_insert, harrived, hparts]
      by_cases heq : id = x.fragment.fragment_id
      · rw [if_pos heq, heq, decide_eq_true rfl, Bool.or_true, if_pos rfl, hcopy.2]
      · rw [if_neg heq, decide_eq_false (fun h => heq h.symm), Bool.or_false]

end

/-- With all parts there the payload is put together in the order of their ids. -/
theorem concatenate_ok {entry : PendingQuicUdpFragments} (htotal : entry.total.toNat = parts.length)
    (hall : ∀ i < parts.length, entry.parts[UInt8.ofNat i]? = parts[i]?) :
    concatenate label packet_id entry = .ok parts.flatten := by
  have hprefix : ∀ n ≤ parts.length,
      (List.range n).foldlM (append_part label packet_id entry) [] = .ok (parts.take n).flatten := by
    intro n hn
    induction n with
    | zero => rfl
    | succ n ih =>
      have hstep : append_part label packet_id entry (parts.take n).flatten n
          = .ok ((parts.take n).flatten ++ parts[n]) := by
        rw [append_part, hall n hn, getElem?_eq_getElem hn]
      rw [range_succ, foldlM_append, ih (by omega), take_succ_eq_append_getElem hn,
        flatten_append, flatten_singleton, ← hstep]
      exact bind_pure (append_part label packet_id entry (parts.take n).flatten n)
  rw [concatenate, htotal, hprefix _ le_rfl, take_length]

theorem parts_full_iff {entry : PendingQuicUdpFragments} {arrivals : List Arrival}
    (hlength : parts.length ≤ 255) (hparts : ∀ id : UInt8, entry.parts[id]?
      = if arrived packet_id arrivals id then parts[id.toNat]? else none) :
    entry.parts.size = parts.length ↔ Covered packet_id parts.length arrivals := by
  have hsome : ∀ (id : UInt8) (part : List UInt8), entry.parts[id]? = some part →
      arrived packet_id arrivals id = true ∧ id.toNat < parts.length := by
    intro id part hget
    rw [hparts] at hget
    split_ifs at hget with harrived
    exact ⟨harrived, (List.getElem?_eq_some_iff.mp hget).1⟩
  rw [size_eq_iff_forall_lt UInt8.toNat (fun _ _ => UInt8.toNat_inj.mp)
    (fun id part hget => (hsome id part hget).2)]
  apply forall_congr'
  intro i
  apply imp_congr_right
  intro hi
  have hof : (UInt8.ofNat i).toNat = i := by
    rw [UInt8.toNat_ofNat']
    omega
  constructor
  · rintro ⟨id, part, hget, rfl⟩
    rw [UInt8.ofNat_toNat]
    exact (hsome id part hget).1
  · intro harrived
    refine ⟨UInt8.ofNat i, parts[i], ?_, hof⟩
    rw [hparts, if_pos harrived, hof, getElem?_eq_getElem hi]

/-- The packet as it is cut: two parts or more, none of them empty. -/
structure Cut (parts : List (List UInt8)) : Prop where
  several : 2 ≤ parts.length
  counted : parts.length ≤ 255
  nonempty : ∀ part ∈ parts, part ≠ []

section

variable (hcut : Cut parts) (hcopy : x.CopyOf parts)

include hcut hcopy

theorem Cut.fields :
    x.fragment.fragment_id < x.fragment.fragment_count ∧ x.fragment.payload ≠ []
      ∧ x.fragment.fragment_count ≠ 1 := by
  obtain ⟨hid, hpayload⟩ := List.getElem?_eq_some_iff.mp hcopy.2
  have hcount := hcopy.1
  have hseveral := hcut.several
  refine ⟨?_, hcut.nonempty _ (hpayload ▸ getElem_mem hid), ?_⟩
  · rw [UInt8.lt_iff_toNat_lt, hcount]
    exact hid
  · intro hone
    rw [hone, UInt8.toNat_one] at hcount
    omega

theorem push_eq_push_part (hnew : (self.expire_at x.now).quarantined[x.fragment.packet_id]? = none)
    (hlimit : 0 < min x.reassembly_limit.toNat self.max_reassembled_bytes.toNat) :
    self.push x
      = (self.expire_at x.now).push_part x.now x.fragment x.label
        (min x.reassembly_limit.toNat self.max_reassembled_bytes.toNat) := by
  obtain ⟨hid, hnonempty, hone⟩ := hcut.fields hcopy
  have hfields : ¬ (x.fragment.fragment_count = 0
      ∨ x.fragment.fragment_count ≤ x.fragment.fragment_id) := by
    rintro (hzero | hle)
    · rw [hzero] at hid
      exact absurd hid (UInt8.not_lt.mpr UInt8.zero_le)
    · exact absurd hid (UInt8.not_lt.mpr hle)
  have hlate : ¬ (self.expire_at x.now).quarantined.contains x.fragment.packet_id = true := by
    rw [Std.TreeMap.contains_eq_isSome_getElem?, hnew]
    exact Bool.false_ne_true
  rw [push, push_at_with_reassembly_limit, if_neg hfields,
    if_neg (fun h => hnonempty (List.isEmpty_iff.mp h)), push_valid, if_neg (Nat.ne_of_gt hlimit),
    if_neg hone, if_neg hlate]

/-- An arrival of the packet: the last part missing completes it, and any other is kept. -/
theorem Holding.own (h : Holding self packet_id parts before) (hexact : self.Exact)
    (hx : x.is_of packet_id = true)
    (htime : ∀ first, before.find? (fun y => y.is_of packet_id) = some first →
      x.now < first.expiry self.resources) (hbudget : WithinBudgets (self.expire_at x.now) x) :
    (Covered packet_id parts.length (before ++ [x]) →
      (self.push x).1 = .ok (.Complete parts.flatten)
        ∧ (self.push x).2.pending[packet_id]? = none)
    ∧ (¬ Covered packet_id parts.length (before ++ [x]) →
      (self.push x).1 = .ok .Pending ∧ Holding (self.push x).2 packet_id parts (before ++ [x])) := by
  have hid : x.fragment.packet_id = packet_id := of_decide_eq_true hx
  have hsettings := @settings_expire_at self x.now
  have hmax : (self.expire_at x.now).max_reassembled_bytes = self.max_reassembled_bytes :=
    congrArg Prod.snd hsettings
  have hswept := h.swept htime
  have ha := hswept.admitted (hexact.expire_at x.now) hx hcopy hbudget
  have hnew : (self.expire_at x.now).quarantined[x.fragment.packet_id]? = none := by
    rw [hid]
    exact hswept.allowed
  have hlimit : 0 < min x.reassembly_limit.toNat self.max_reassembled_bytes.toNat := by
    have hlen : 0 < x.fragment.payload.length :=
      length_pos_iff.mpr (hcut.fields hcopy).2.1
    have hfits := hbudget.reassembly
    have hle := @limit_for_le (self.expire_at x.now) x.fragment
      (min x.reassembly_limit.toNat self.max_reassembled_bytes.toNat)
    rw [hmax] at hfits
    omega
  rw [hmax] at ha
  rw [push_eq_push_part hcut hcopy hnew hlimit, push_part_eq_of_admitted ha]
  obtain ⟨htotal, hexpiry, hparts⟩ := hswept.entry_with hx hcopy _
  rw [hcopy.1]
  constructor
  · intro hcovered
    rw [if_pos ((parts_full_iff hcut.counted hparts).mpr hcovered)]
    refine ⟨?_, ?_⟩
    · rw [concatenate_ok htotal]
      · rfl
      · intro i hi
        have hcounted := hcut.counted
        have hof : (UInt8.ofNat i).toNat = i := by
          rw [UInt8.toNat_ofNat']
          omega
        rw [hparts, if_pos (hcovered i hi), hof]
    · rw [completed_pending, if_pos hid.symm]
  · intro hopen
    rw [if_neg (fun hfull => hopen ((parts_full_iff hcut.counted hparts).mp hfull))]
    refine ⟨rfl, hswept.allowed, ?_, ?_⟩
    · intro hnone
      rw [find?_append, find?_singleton, if_pos hx] at hnone
      cases hfirst : before.find? (fun y => y.is_of packet_id) with
      | none | some first =>
        rw [hfirst] at hnone
        cases hnone
    · intro first hfirst
      refine ⟨_, ?_, htotal, hexpiry first hfirst, hparts⟩
      rw [store, hid, getElem?_insert, if_pos rfl]

/-- A fragment that finds its id in quarantine neither starts nor completes a packet. -/
theorem push_quarantined (hexact : self.Exact)
    (hlate : (self.expire_at x.now).quarantined.contains x.fragment.packet_id = true) :
    (∀ payload, (self.push x).1 ≠ .ok (.Complete payload))
      ∧ (self.push x).2.pending[x.fragment.packet_id]? = none := by
  obtain ⟨hid, hnonempty, hone⟩ := hcut.fields hcopy
  rw [Std.TreeMap.contains_eq_isSome_getElem?] at hlate
  have hgone : (self.expire_at x.now).pending[x.fragment.packet_id]? = none := by
    cases hentry : (self.expire_at x.now).pending[x.fragment.packet_id]? with
    | none => rfl
    | some entry =>
      rw [(hexact.expire_at x.now).apart _ _ hentry] at hlate
      cases hlate
  rw [push]
  rcases self.push_cases x.now x.fragment x.label x.reassembly_limit with
    ⟨hill, -⟩ | ⟨-, outcome, b, heq, hpushed⟩
  · exact absurd ⟨hid, hnonempty⟩ hill
  · rw [heq]
    cases hpushed with
    | refused err hb =>
      refine ⟨nofun, ?_⟩
      cases hb with
      | overflow | rejected bytes => exact hgone
      | discarded bytes hbudget =>
        change ((self.expire_at x.now).remove_pending _).pending[_]? = none
        rw [getElem?_remove_pending, if_pos rfl]
    | single hcount => exact absurd hcount hone
    | late hlate => exact ⟨nofun, hgone⟩
    | stored a hnew hcount ha hpart | completed a hnew hcount ha hpart =>
      rw [hnew] at hlate
      cases hlate

end

end Packet

/-! ## Whole runs -/

section Run

variable {resources : QuicUdpDatagramResourceProfile} {max_reassembled_bytes : UInt64}
  {packet_id : UInt16} {parts : List (List UInt8)} {arrivals : List Arrival}

/-- All fragments of a packet arrive at a new buffer, in any order, with any copies and among
any other arrivals. First copies arrive before the packet expires, and until the packet is
complete its arrivals keep to the budgets. -/
structure Delivery (resources : QuicUdpDatagramResourceProfile) (max_reassembled_bytes : UInt64)
    (packet_id : UInt16) (parts : List (List UInt8)) (arrivals : List Arrival) : Prop where
  cut : Cut parts
  copies : ∀ x ∈ arrivals, x.is_of packet_id = true → x.CopyOf parts
  clock : arrivals.Pairwise fun x y => x.now ≤ y.now
  all : Covered packet_id parts.length arrivals
  in_time : ∀ (i : Nat) (x : Arrival), arrivals[i]? = some x → x.is_of packet_id = true →
    arrived packet_id (arrivals.take i) x.fragment.fragment_id = false →
    ∀ first, (arrivals.take i).find? (fun y => y.is_of packet_id) = some first →
      x.now < first.expiry resources
  within : ∀ (i : Nat) (x : Arrival), arrivals[i]? = some x → x.is_of packet_id = true →
    ¬ Covered packet_id parts.length (arrivals.take i) →
    WithinBudgets (((new resources max_reassembled_bytes).after (arrivals.take i)).expire_at x.now) x

theorem exists_first_copy {id : UInt8} (h : arrived packet_id arrivals id = true) :
    ∃ (j : Nat) (y : Arrival), arrivals[j]? = some y ∧ y.is_of packet_id = true
      ∧ y.fragment.fragment_id = id ∧ arrived packet_id (arrivals.take j) id = false := by
  induction arrivals with
  | nil => cases h
  | cons x arrivals ih =>
    by_cases hx : x.is_of packet_id = true ∧ x.fragment.fragment_id = id
    · exact ⟨0, x, rfl, hx.1, hx.2, rfl⟩
    · have hfalse : (x.is_of packet_id && decide (x.fragment.fragment_id = id)) = false := by
        rw [Bool.and_eq_false_iff]
        by_cases hof : x.is_of packet_id = true
        · exact .inr (decide_eq_false fun heq => hx ⟨hof, heq⟩)
        · exact .inl (Bool.not_eq_true _ ▸ hof)
      rw [arrived, any_cons, hfalse, Bool.false_or] at h
      obtain ⟨j, y, hget, hof, hid, hfirst⟩ := ih h
      refine ⟨j + 1, y, hget, hof, hid, ?_⟩
      rw [take_succ_cons, arrived, any_cons, hfalse, Bool.false_or]
      exact hfirst

/-- Until the packet is complete every arrival comes before its expiry: a first copy is still
to come, and the clock does not go back. -/
theorem Delivery.timely (h : Delivery resources max_reassembled_bytes packet_id parts arrivals)
    {i : Nat} (hget : arrivals[i]? = some x)
    (hopen : ¬ Covered packet_id parts.length (arrivals.take i)) :
    ∀ first, (arrivals.take i).find? (fun y => y.is_of packet_id) = some first →
      x.now < first.expiry resources := by
  intro first hfirst
  rw [Covered] at hopen
  push Not at hopen
  obtain ⟨k, hk, hmissing⟩ := hopen
  obtain ⟨j, y, hj, hof, hid, hnew⟩ := exists_first_copy (h.all k hk)
  have hle : i ≤ j := by
    by_contra hlt
    apply hmissing
    apply arrived_iff.mpr
    refine ⟨y, mem_of_getElem? (i := j) ?_, hof, hid⟩
    rw [getElem?_take, if_pos (by omega)]
    exact hj
  have hfind : (arrivals.take j).find? (fun y => y.is_of packet_id) = some first := by
    have hsplit := take_append_drop i (arrivals.take j)
    rw [take_take, Nat.min_eq_left hle] at hsplit
    rw [← hsplit, find?_append, hfirst, Option.some_or]
  have hy := h.in_time j y hj hof (hid.symm ▸ hnew) first hfind
  refine Nat.lt_of_le_of_lt ?_ hy
  rcases Nat.lt_or_eq_of_le hle with hlt | rfl
  · obtain ⟨hi, rfl⟩ := List.getElem?_eq_some_iff.mp hget
    obtain ⟨hlength, rfl⟩ := List.getElem?_eq_some_iff.mp hj
    exact pairwise_iff_getElem.mp h.clock i j hi hlength hlt
  · rw [hget] at hj
    rw [Option.some.inj hj]

/-- What a prefix of the arrivals leaves: the parts so far, or the packet returned once. -/
structure Progress (buffer : QuicUdpFragmentBuffer) (packet_id : UInt16) (parts : List (List UInt8))
    (before : List Arrival) : Prop where
  incomplete : ¬ Covered packet_id parts.length before →
    Holding (buffer.after before) packet_id parts before
      ∧ completions packet_id (buffer.outcomes before) = []
  complete : Covered packet_id parts.length before →
    (buffer.after before).pending[packet_id]? = none
      ∧ completions packet_id (buffer.outcomes before) = [parts.flatten]

theorem Delivery.progress_nil (h : Delivery resources max_reassembled_bytes packet_id parts arrivals) :
    Progress (new resources max_reassembled_bytes) packet_id parts [] where
  incomplete := fun _ => ⟨⟨rfl, fun _ => rfl, nofun⟩, rfl⟩
  complete := by
    intro hcovered
    have hseveral := h.cut.several
    have hzero := hcovered 0 (by omega)
    cases hzero

variable {before : List Arrival}

theorem covered_append_of_ne (hne : x.is_of packet_id = false) {count : Nat} :
    Covered packet_id count (before ++ [x]) ↔ Covered packet_id count before := by
  rw [Covered, Covered]
  simp only [arrived_append_of_ne hne]

theorem completion_of_ne (hne : x.is_of packet_id = false)
    (result : Except String QuicUdpFragmentOutcome) : completion packet_id (x, result) = none := by
  rw [completion, hne]
  rfl

theorem completed_payload_eq_none {result : Except String QuicUdpFragmentOutcome}
    (h : ∀ payload, result ≠ .ok (.Complete payload)) : completed_payload result = none := by
  cases result with
  | error err => rfl
  | ok outcome =>
    cases outcome with
    | Pending | Late payload => rfl
    | Complete payload => exact absurd rfl (h payload)

/-- Once the packet was returned nothing more comes of it. -/
theorem Progress.step_complete (hexact : (self.after before).Exact)
    (hbefore : Progress self packet_id parts before) (hcovered : Covered packet_id parts.length before)
    (hlate : x.is_of packet_id = true → Cut parts ∧ x.CopyOf parts
      ∧ ((self.after before).expire_at x.now).quarantined.contains packet_id = true) :
    Progress self packet_id parts (before ++ [x]) := by
  obtain ⟨hgone, hreturned⟩ := hbefore.complete hcovered
  have hmore : Covered packet_id parts.length (before ++ [x]) := by
    intro k hk
    rw [arrived_append, hcovered k hk, Bool.true_or]
  refine ⟨fun hnot => absurd hmore hnot, fun _ => ?_⟩
  rw [completions_append, hreturned, after_append]
  by_cases hx : x.is_of packet_id = true
  · have hid : x.fragment.packet_id = packet_id := of_decide_eq_true hx
    obtain ⟨hcut, hcopy, hquarantined⟩ := hlate hx
    have hpush := push_quarantined hcut hcopy hexact (hid.symm ▸ hquarantined)
    rw [hid] at hpush
    rw [completion, completed_payload_eq_none hpush.1, ite_self]
    exact ⟨hpush.2, rfl⟩
  · rw [Bool.not_eq_true] at hx
    have hid : packet_id ≠ x.fragment.packet_id := fun heq => of_decide_eq_false hx heq.symm
    rw [completion_of_ne hx]
    refine ⟨?_, rfl⟩
    rw [(push_frame hid (fun entry hentry => by rw [hgone] at hentry; cases hentry)).1, hgone]

/-- Until then its arrivals are kept, and the last one missing returns it. -/
theorem Progress.step_incomplete (hexact : (self.after before).Exact)
    (hbefore : Progress self packet_id parts before) (hopen : ¬ Covered packet_id parts.length before)
    (htime : ∀ first, before.find? (fun y => y.is_of packet_id) = some first →
      x.now < first.expiry (self.after before).resources)
    (hown : x.is_of packet_id = true → Cut parts ∧ x.CopyOf parts
      ∧ WithinBudgets ((self.after before).expire_at x.now) x) :
    Progress self packet_id parts (before ++ [x]) := by
  obtain ⟨hholding, hnone⟩ := hbefore.incomplete hopen
  by_cases hx : x.is_of packet_id = true
  · obtain ⟨hcut, hcopy, hbudget⟩ := hown hx
    obtain ⟨hlast, hmore⟩ := hholding.own hcut hcopy hexact hx htime hbudget
    constructor
    · intro hstill
      obtain ⟨houtcome, hkept⟩ := hmore hstill
      rw [completions_append, hnone, after_append, completion, houtcome, if_pos hx]
      exact ⟨hkept, rfl⟩
    · intro hcovered
      obtain ⟨houtcome, hgone⟩ := hlast hcovered
      rw [completions_append, hnone, after_append, completion, houtcome, if_pos hx]
      exact ⟨hgone, rfl⟩
  · rw [Bool.not_eq_true] at hx
    constructor
    · intro _
      rw [completions_append, hnone, after_append, completion_of_ne hx]
      exact ⟨hholding.other hx htime, rfl⟩
    · intro hcovered
      exact absurd ((covered_append_of_ne hx).mp hcovered) hopen

section

variable (h : Delivery resources max_reassembled_bytes packet_id parts arrivals)
  (hlate : ∀ (i : Nat) (x : Arrival), arrivals[i]? = some x → x.is_of packet_id = true →
    Covered packet_id parts.length (arrivals.take i) →
    (((new resources max_reassembled_bytes).after (arrivals.take i)).expire_at
      x.now).quarantined.contains packet_id = true)

include h hlate

theorem Delivery.progress (i : Nat) (hi : i ≤ arrivals.length) :
    Progress (new resources max_reassembled_bytes) packet_id parts (arrivals.take i) := by
  induction i with
  | zero => exact h.progress_nil
  | succ i ih =>
    have hbefore := ih (by omega)
    have hget : arrivals[i]? = some arrivals[i] := getElem?_eq_getElem hi
    have hexact := (Exact.new resources max_reassembled_bytes).after (arrivals.take i)
    have hcopy := h.copies _ (getElem_mem hi)
    rw [take_succ_eq_append_getElem hi]
    by_cases hcovered : Covered packet_id parts.length (arrivals.take i)
    · apply hbefore.step_complete hexact hcovered
      exact fun hx => ⟨h.cut, hcopy hx, hlate i _ hget hx hcovered⟩
    · have hresources : ((new resources max_reassembled_bytes).after (arrivals.take i)).resources
          = resources := congrArg Prod.fst (settings_after (arrivals.take i))
      apply hbefore.step_incomplete hexact hcovered
      · rw [hresources]
        exact h.timely hget hcovered
      · exact fun hx => ⟨h.cut, hcopy hx, h.within i _ hget hx hcovered⟩

/-- If every copy that comes after the packet is complete finds its id in quarantine, the
arrivals of the packet return it exactly once, its parts in order. In any reachable buffer a
copy that finds its id in quarantine neither starts nor completes a packet. -/
theorem reassembled_once :
    completions packet_id ((new resources max_reassembled_bytes).outcomes arrivals)
        = [parts.flatten]
      ∧ ∀ (calls : List Call) (x : Arrival), x.is_of packet_id = true → x.CopyOf parts →
        let b := calls.foldl call (new resources max_reassembled_bytes)
        (b.expire_at x.now).quarantined.contains packet_id = true →
        (∀ payload, (b.push x).1 ≠ .ok (.Complete payload))
          ∧ (b.push x).2.pending[packet_id]? = none := by
  constructor
  · have hprogress := h.progress hlate arrivals.length le_rfl
    rw [take_length] at hprogress
    exact (hprogress.complete h.all).2
  · intro calls x hx hcopy b hquarantined
    have hid : x.fragment.packet_id = packet_id := of_decide_eq_true hx
    have hexact := (exact_calls (Exact.new resources max_reassembled_bytes) calls).1
    have hpush := push_quarantined h.cut hcopy hexact (hid.symm ▸ hquarantined)
    rw [hid] at hpush
    exact hpush

end

/-! ### A packet of two fragments -/

def low_memory : QuicUdpDatagramResourceProfile := .from_runtime_profile .LowMemory

/-- Fragment `id` of the packet `[1], [2]`. -/
def copy_at (now : Instant) (id : UInt8) : Arrival where
  now
  fragment := { packet_id := 7, fragment_id := id, fragment_count := 2, payload := [id + 1] }
  reassembly_limit := 65535
  label := "TUIC"

/-- Both fragments at once, and copies of them later on. -/
theorem delivery_of_copies {later : List Arrival}
    (hcopies : ∀ x ∈ later, x.is_of 7 = true → x.CopyOf [[1], [2]])
    (hclock : later.Pairwise fun x y => x.now ≤ y.now) :
    Delivery low_memory 65535 7 [[1], [2]] (copy_at 0 0 :: copy_at 0 1 :: later) := by
  have hcovered : ∀ i : Nat, 2 ≤ i →
      Covered 7 2 ((copy_at 0 0 :: copy_at 0 1 :: later).take i) := by
    intro i hi k hk
    obtain ⟨n, rfl⟩ := Nat.exists_eq_add_of_le' hi
    match k, hk with
    | 0, _ => rfl
    | 1, _ => rfl
  have hfirst : WithinBudgets (((new low_memory 65535).after []).expire_at 0) (copy_at 0 0) :=
    ⟨fun _ => by decide +kernel, by decide +kernel, by decide +kernel⟩
  have hsecond : WithinBudgets (((new low_memory 65535).after [copy_at 0 0]).expire_at 0)
      (copy_at 0 1) :=
    ⟨fun _ => by decide +kernel, by decide +kernel, by decide +kernel⟩
  refine ⟨⟨by decide, by decide, by decide⟩, ?_, ?_, ?_, ?_, ?_⟩
  · intro x hx hof
    rcases mem_cons.mp hx with rfl | hx
    · exact ⟨rfl, rfl⟩
    · rcases mem_cons.mp hx with rfl | hx
      · exact ⟨rfl, rfl⟩
      · exact hcopies x hx hof
  · refine List.Pairwise.cons (fun x _ => Nat.zero_le _) ?_
    exact List.Pairwise.cons (fun x _ => Nat.zero_le _) hclock
  · have hall := hcovered (later.length + 2) (by omega)
    rwa [show later.length + 2 = (copy_at 0 0 :: copy_at 0 1 :: later).length from rfl,
      take_length] at hall
  · intro i x hget hof hnew first hfirst
    match i with
    | 0 => cases hfirst
    | 1 =>
      cases hget
      cases hfirst
      decide
    | i + 2 =>
      have hcopy := hcopies x (mem_of_getElem? hget) hof
      have hlt := (List.getElem?_eq_some_iff.mp hcopy.2).1
      have harrived := hcovered (i + 2) (by omega) _ hlt
      rw [UInt8.ofNat_toNat, hnew] at harrived
      cases harrived
  · intro i x hget hof hopen
    match i with
    | 0 =>
      cases hget
      exact hfirst
    | 1 =>
      cases hget
      exact hsecond
    | i + 2 => exact absurd (hcovered (i + 2) (by omega)) hopen

/-- Copies that come ten seconds later, when the id has left the quarantine, make a packet of
their own: it is returned a second time. -/
theorem packet_returned_twice :
    Delivery low_memory 65535 7 [[1], [2]]
        [copy_at 0 0, copy_at 0 1, copy_at (from_secs 10) 0, copy_at (from_secs 10) 1]
      ∧ ((new low_memory 65535).outcomes
          [copy_at 0 0, copy_at 0 1, copy_at (from_secs 10) 0, copy_at (from_secs 10) 1]).all
            (fun result => result.2.isOk) = true
      ∧ completions 7 ((new low_memory 65535).outcomes
          [copy_at 0 0, copy_at 0 1, copy_at (from_secs 10) 0, copy_at (from_secs 10) 1])
        = [[1, 2], [1, 2]] := by
  refine ⟨delivery_of_copies ?_ ?_, by decide +kernel, by decide +kernel⟩
  · intro x hx _
    rcases mem_cons.mp hx with rfl | hx
    · exact ⟨rfl, rfl⟩
    · rw [mem_singleton.mp hx]
      exact ⟨rfl, rfl⟩
  · decide

/-- A copy one second later is not. -/
theorem reassembled_once_pair :
    Delivery low_memory 65535 7 [[1], [2]] [copy_at 0 0, copy_at 0 1, copy_at (from_secs 1) 0]
      ∧ completions 7 ((new low_memory 65535).outcomes
          [copy_at 0 0, copy_at 0 1, copy_at (from_secs 1) 0]) = [[1, 2]] := by
  have h : Delivery low_memory 65535 7 [[1], [2]]
      [copy_at 0 0, copy_at 0 1, copy_at (from_secs 1) 0] := by
    refine delivery_of_copies ?_ (pairwise_singleton _ _)
    intro x hx _
    rw [mem_singleton.mp hx]
    exact ⟨rfl, rfl⟩
  refine ⟨h, (reassembled_once h ?_).1⟩
  intro i x hget _ hcovered
  match i with
  | 0 | 1 => exact absurd hcovered (by decide)
  | 2 =>
    cases hget
    decide +kernel
  | i + 3 => cases hget

end Run

end QuicUdpFragmentBuffer
end DaeNext.Quic
