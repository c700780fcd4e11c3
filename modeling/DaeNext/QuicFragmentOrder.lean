/-
The fragments of one packet, each once and in any order, at a new buffer.

With budgets for the payload of the packet no fragment is turned away: the bytes pending are
those of the fragments so far (`Tally`), and these never exceed the payload. The last
fragment returns the payload, whatever the order.
-/
import DaeNext.QuicFragmentRun

set_option autoImplicit false

namespace DaeNext.Quic

open List

/-- Fragment `i` of a packet made of `parts`. -/
def fragment_of (packet_id : UInt16) (parts : List (List UInt8)) (part : List UInt8 × Nat) :
    QuicUdpFragmentInput where
  packet_id
  fragment_id := UInt8.ofNat part.2
  fragment_count := UInt8.ofNat parts.length
  payload := part.1

def fragments_of (packet_id : UInt16) (parts : List (List UInt8)) : List QuicUdpFragmentInput :=
  parts.zipIdx.map (fragment_of packet_id parts)

def payloads (results : List (Arrival × Except String QuicUdpFragmentOutcome)) : List (List UInt8) :=
  results.filterMap fun result => completed_payload result.2

/-- Budgets that hold a payload of so many bytes, for arrivals in the order of the clock and
before the expiry of the first one. -/
structure Sufficient (resources : QuicUdpDatagramResourceProfile) (max_reassembled_bytes : UInt64)
    (bytes : Nat) (arrivals : List Arrival) : Prop where
  packets : 0 < resources.pending_fragment_packets.toNat
  pending : bytes ≤ resources.pending_fragment_bytes.toNat
  reassembled : bytes ≤ max_reassembled_bytes.toNat
  limits : ∀ x ∈ arrivals, bytes ≤ x.reassembly_limit.toNat
  clock : arrivals.Pairwise fun x y => x.now ≤ y.now
  in_time : ∀ first ∈ arrivals.head?, ∀ x ∈ arrivals.tail, x.now < first.expiry resources

namespace QuicUdpFragmentBuffer

variable {resources : QuicUdpDatagramResourceProfile} {max_reassembled_bytes : UInt64}
  {packet_id : UInt16} {parts : List (List UInt8)} {arrivals : List Arrival}

def bytes_of (arrivals : List Arrival) : Nat :=
  (arrivals.map fun x => x.fragment.payload.length).sum

/-- Each fragment of the packet arrives once, and nothing else does. -/
structure Once (packet_id : UInt16) (parts : List (List UInt8)) (arrivals : List Arrival) :
    Prop where
  cut : Cut parts
  perm : (arrivals.map (·.fragment)).Perm (fragments_of packet_id parts)

variable {x : Arrival}

section

variable (h : Once packet_id parts arrivals)

include h

theorem Once.fragment (hx : x ∈ arrivals) :
    ∃ i part, parts[i]? = some part ∧ x.fragment = fragment_of packet_id parts (part, i) := by
  have hmem := h.perm.mem_iff.mp (mem_map_of_mem hx)
  obtain ⟨⟨part, i⟩, hpart, heq⟩ := mem_map.mp hmem
  exact ⟨i, part, List.mem_zipIdx_iff_getElem?.mp hpart, heq.symm⟩

theorem Once.toNat_ofNat {i : Nat} (hi : i ≤ parts.length) : (UInt8.ofNat i).toNat = i := by
  have hcounted := h.cut.counted
  rw [UInt8.toNat_ofNat']
  omega

theorem Once.is_of (hx : x ∈ arrivals) : x.is_of packet_id = true := by
  obtain ⟨i, part, -, heq⟩ := h.fragment hx
  rw [Arrival.is_of, heq]
  exact decide_eq_true rfl

theorem Once.copy (hx : x ∈ arrivals) : x.CopyOf parts := by
  obtain ⟨i, part, hpart, heq⟩ := h.fragment hx
  have hi := (List.getElem?_eq_some_iff.mp hpart).1
  rw [Arrival.CopyOf, heq]
  refine ⟨h.toNat_ofNat le_rfl, ?_⟩
  change parts[(UInt8.ofNat i).toNat]? = some part
  rw [h.toNat_ofNat (Nat.le_of_lt hi)]
  exact hpart

theorem Once.bytes : bytes_of arrivals = parts.flatten.length := by
  have hsum := (h.perm.map fun fragment => fragment.payload.length).sum_nat
  rw [map_map, fragments_of, map_map] at hsum
  have hparts : parts.zipIdx.map ((fun fragment => fragment.payload.length)
      ∘ fragment_of packet_id parts) = parts.map List.length := by
    rw [← zipIdx_map_fst 0 parts, map_map, zipIdx_map_fst]
    rfl
  rw [hparts, ← length_flatten] at hsum
  exact hsum

theorem Once.nodup : (arrivals.map fun x => x.fragment.fragment_id).Nodup := by
  have hids := (h.perm.map fun fragment => fragment.fragment_id).nodup_iff
  rw [map_map, fragments_of, map_map] at hids
  refine hids.mpr ?_
  rw [nodup_iff_getElem?_ne_getElem?]
  intro i j hij hj heq
  rw [length_map, length_zipIdx] at hj
  rw [getElem?_map, getElem?_map, getElem?_zipIdx, getElem?_zipIdx,
    getElem?_eq_getElem hj, getElem?_eq_getElem (Nat.lt_trans hij hj)] at heq
  have hsame : UInt8.ofNat (0 + i) = UInt8.ofNat (0 + j) := Option.some.inj heq
  have hnat := congrArg UInt8.toNat hsame
  rw [Nat.zero_add, Nat.zero_add, h.toNat_ofNat (by omega), h.toNat_ofNat (by omega)] at hnat
  omega

end

/-! ## The bytes pending -/

/-- Only the packet is pending, with so many bytes and a limit that holds its payload. -/
structure Tally (buffer : QuicUdpFragmentBuffer) (packet_id : UInt16) (limit bytes : Nat) :
    Prop where
  only : ∀ id entry, buffer.pending[id]? = some entry → id = packet_id
  entry : ∀ entry, buffer.pending[packet_id]? = some entry →
    entry.bytes = bytes ∧ limit ≤ entry.reassembly_limit
  fresh : buffer.pending[packet_id]? = none → bytes = 0
  pending_bytes : buffer.pending_bytes = bytes

variable {self : QuicUdpFragmentBuffer} {now : Instant} {before : List Arrival} {limit bytes : Nat}

section

variable (h : Tally self packet_id limit bytes)

include h

theorem Tally.expire_at
    (hkept : ∀ entry, self.pending[packet_id]? = some entry → now < entry.expires_at) :
    Tally (self.expire_at now) packet_id limit bytes := by
  have hnone : self.expired now = [] := by
    rw [eq_nil_iff_forall_not_mem]
    intro id hmem
    obtain ⟨entry, hget, hle⟩ := mem_expired.mp hmem
    rw [h.only id entry hget] at hget
    exact absurd (hkept entry hget) (Nat.not_lt.mpr hle)
  rw [QuicUdpFragmentBuffer.expire_at, hnone]
  split_ifs
  · exact h
  · exact ⟨h.only, h.entry, h.fresh, h.pending_bytes⟩

theorem Tally.size (hnone : self.pending[packet_id]? = none) : self.pending.size = 0 := by
  have hempty : ∀ (id : UInt16) (entry : PendingQuicUdpFragments),
      self.pending[id]? = some entry → id.toNat < 0 := by
    intro id entry hget
    rw [h.only id entry hget, hnone] at hget
    cases hget
  rw [Table.size_eq_iff_forall_lt UInt16.toNat (fun _ _ => UInt16.toNat_inj.mp) hempty]
  omega

variable (hx : x.is_of packet_id = true)

include hx

theorem Tally.packet_bytes_le : self.packet_bytes x.fragment ≤ bytes := by
  rw [packet_bytes, of_decide_eq_true hx]
  cases hget : self.pending[packet_id]? with
  | none => exact Nat.zero_le _
  | some entry => exact Nat.le_of_eq (h.entry entry hget).1

theorem Tally.within (hfits : bytes + x.fragment.payload.length ≤ limit)
    (hpackets : 0 < self.resources.pending_fragment_packets.toNat)
    (hpending : limit ≤ self.resources.pending_fragment_bytes.toNat)
    (hlimit : limit ≤ min x.reassembly_limit.toNat self.max_reassembled_bytes.toNat) :
    WithinBudgets self x := by
  have hid : x.fragment.packet_id = packet_id := of_decide_eq_true hx
  have hbytes := h.packet_bytes_le hx
  have htotal := h.pending_bytes
  refine ⟨?_, ?_, by omega⟩
  · intro hnone
    rw [hid] at hnone
    rw [h.size hnone]
    exact hpackets
  · have hle : limit ≤ self.limit_for x.fragment
        (min x.reassembly_limit.toNat self.max_reassembled_bytes.toNat) := by
      rw [limit_for, hid]
      cases hget : self.pending[packet_id]? with
      | none => exact hlimit
      | some entry => exact Nat.le_min.mpr ⟨(h.entry entry hget).2, hlimit⟩
    omega

theorem Tally.store (hnew : self.part_bytes x.fragment = 0) {a : Admission}
    (ha : Admitted self x.fragment
      (min x.reassembly_limit.toNat self.max_reassembled_bytes.toNat) a)
    (hlimit : limit ≤ min x.reassembly_limit.toNat self.max_reassembled_bytes.toNat) :
    Tally (self.store x.now x.fragment a) packet_id limit (bytes + x.fragment.payload.length) := by
  have hid : x.fragment.packet_id = packet_id := of_decide_eq_true hx
  obtain ⟨-, -, hpacket⟩ := checked_replace_eq_some.mp ha.packet
  obtain ⟨-, -, hglobal⟩ := checked_replace_eq_some.mp ha.pending
  rw [hnew, Nat.sub_zero] at hpacket hglobal
  have hadmitted := ha.limit_eq
  rw [limit_for, hid] at hadmitted
  rw [packet_bytes, hid] at hpacket
  refine ⟨?_, ?_, ?_, ?_⟩
  · intro id entry hget
    rw [QuicUdpFragmentBuffer.store, Table.getElem?_insert, hid] at hget
    by_cases heq : id = packet_id
    · exact heq
    · rw [if_neg heq] at hget
      exact h.only id entry hget
  · intro entry hget
    rw [QuicUdpFragmentBuffer.store, Table.getElem?_insert, hid, if_pos rfl] at hget
    cases hget
    rw [QuicUdpFragmentBuffer.entry_with, hid]
    cases hold : self.pending[packet_id]? with
    | none =>
      rw [hold] at hadmitted hpacket
      rw [h.fresh hold, hpacket, hadmitted]
      exact ⟨rfl, Nat.le_min.mpr ⟨hlimit, hlimit⟩⟩
    | some entry =>
      obtain ⟨hbytes, hle⟩ := h.entry entry hold
      rw [hold] at hadmitted hpacket
      rw [hpacket, hadmitted]
      exact ⟨congrArg (· + _) hbytes, Nat.le_min.mpr ⟨hle, Nat.le_min.mpr ⟨hle, hlimit⟩⟩⟩
  · intro hnone
    rw [QuicUdpFragmentBuffer.store, Table.getElem?_insert, hid, if_pos rfl] at hnone
    cases hnone
  · exact hglobal.trans (congrArg (· + _) h.pending_bytes)

end

/-! ## Runs in any order -/

section

variable (h : Once packet_id parts arrivals) {i : Nat}

include h

theorem Once.new_id (hget : arrivals[i]? = some x) :
    arrived packet_id (arrivals.take i) x.fragment.fragment_id = false := by
  rw [← Bool.not_eq_true, arrived_iff]
  rintro ⟨y, hy, -, hid⟩
  obtain ⟨j, hj⟩ := List.mem_iff_getElem?.mp hy
  rw [getElem?_take] at hj
  split_ifs at hj with hlt
  have hi := (List.getElem?_eq_some_iff.mp hget).1
  refine nodup_iff_getElem?_ne_getElem?.mp h.nodup j i hlt (by rwa [length_map]) ?_
  rw [getElem?_map, getElem?_map, hj, hget, Option.map_some, Option.map_some, hid]

theorem Once.not_covered (hi : i < arrivals.length) :
    ¬ Covered packet_id parts.length (arrivals.take i) := by
  intro hcovered
  have hget : arrivals[i]? = some arrivals[i] := getElem?_eq_getElem hi
  have hlt := (List.getElem?_eq_some_iff.mp (h.copy (getElem_mem hi)).2).1
  have harrived := hcovered _ hlt
  rw [UInt8.ofNat_toNat, h.new_id hget] at harrived
  cases harrived

theorem Once.timely (hs : Sufficient resources max_reassembled_bytes bytes arrivals)
    (hget : arrivals[i]? = some x) :
    ∀ first, (arrivals.take i).find? (fun y => y.is_of packet_id) = some first →
      x.now < first.expiry resources := by
  intro first hfirst
  cases arrivals with
  | nil => cases hget
  | cons head later =>
    cases i with
    | zero => cases hfirst
    | succ i =>
      rw [take_succ_cons, find?_cons, h.is_of mem_cons_self] at hfirst
      obtain rfl := Option.some.inj hfirst
      exact hs.in_time head rfl x (mem_of_getElem? hget)

end

theorem Holding.part_bytes (h : Holding self packet_id parts before) (hx : x.is_of packet_id = true)
    (hnew : arrived packet_id before x.fragment.fragment_id = false) :
    self.part_bytes x.fragment = 0 := by
  rw [QuicUdpFragmentBuffer.part_bytes, of_decide_eq_true hx]
  cases hfirst : before.find? (fun y => y.is_of packet_id) with
  | none =>
    rw [h.fresh hfirst]
    rfl
  | some first =>
    obtain ⟨entry, hget, -, -, hparts⟩ := h.stored first hfirst
    rw [hget, Option.bind_some, hparts, hnew]
    rfl

theorem push_pending (hpending : (self.push x).1 = .ok .Pending) :
    ∃ a, Admitted (self.expire_at x.now) x.fragment
        (min x.reassembly_limit.toNat self.max_reassembled_bytes.toNat) a
      ∧ (self.push x).2 = (self.expire_at x.now).store x.now x.fragment a := by
  rw [push] at hpending ⊢
  rcases self.push_cases x.now x.fragment x.label x.reassembly_limit with
    ⟨-, err, bytes, heq⟩ | ⟨-, outcome, b, heq, hpushed⟩
  · rw [heq] at hpending
    cases hpending
  · rw [heq] at hpending ⊢
    cases hpushed with
    | refused err hb | single hcount | late hlate => cases hpending
    | stored a hnew hcount ha hpart => exact ⟨a, ha, rfl⟩
    | completed a hnew hcount ha hpart =>
      cases hall : concatenate x.label x.fragment.packet_id
          ((self.expire_at x.now).entry_with x.now x.fragment a) with
      | error err | ok payload =>
        rw [hall] at hpending
        cases hpending

theorem bytes_of_take {i : Nat} (hget : arrivals[i]? = some x) :
    bytes_of (arrivals.take i) + x.fragment.payload.length ≤ bytes_of arrivals := by
  obtain ⟨hi, rfl⟩ := List.getElem?_eq_some_iff.mp hget
  have hsplit := take_append_drop (i + 1) arrivals
  rw [take_succ_eq_append_getElem hi] at hsplit
  conv_rhs => rw [← hsplit]
  rw [bytes_of, bytes_of, map_append, map_append, sum_append, sum_append,
    map_singleton, sum_singleton]
  omega

/-- What the arrivals so far leave, before the last one. -/
structure Held (buffer : QuicUdpFragmentBuffer) (packet_id : UInt16) (parts : List (List UInt8))
    (before : List Arrival) : Prop where
  holding : Holding buffer packet_id parts before
  tally : Tally buffer packet_id parts.flatten.length (bytes_of before)

section Step

variable (hheld : Held self packet_id parts before)
  (hs : Sufficient self.resources self.max_reassembled_bytes parts.flatten.length arrivals)
  (hmem : x ∈ arrivals) (hx : x.is_of packet_id = true)
  (htime : ∀ first, before.find? (fun y => y.is_of packet_id) = some first →
    x.now < first.expiry self.resources)
  (hfits : bytes_of before + x.fragment.payload.length ≤ parts.flatten.length)

include hheld hs hmem hx htime hfits

theorem Held.within :
    Tally (self.expire_at x.now) packet_id parts.flatten.length (bytes_of before)
      ∧ WithinBudgets (self.expire_at x.now) x := by
  have hswept := @settings_expire_at self x.now
  have hsame : (self.expire_at x.now).resources = self.resources := congrArg Prod.fst hswept
  have htally := hheld.tally.expire_at (hheld.holding.kept htime)
  refine ⟨htally, htally.within hx hfits ?_ ?_ ?_⟩
  · rw [hsame]
    exact hs.packets
  · rw [hsame]
    exact hs.pending
  · rw [show QuicUdpFragmentBuffer.max_reassembled_bytes _ = _ from congrArg Prod.snd hswept]
    exact Nat.le_min.mpr ⟨hs.limits x hmem, hs.reassembled⟩

theorem Held.step (hexact : self.Exact) (hcut : Cut parts) (hcopy : x.CopyOf parts)
    (hnew : arrived packet_id before x.fragment.fragment_id = false)
    (hopen : ¬ Covered packet_id parts.length (before ++ [x])) :
    Held (self.push x).2 packet_id parts (before ++ [x]) := by
  obtain ⟨htally, hbudget⟩ := hheld.within hs hmem hx htime hfits
  obtain ⟨hpending, hholding⟩ := (hheld.holding.own hcut hcopy hexact hx htime hbudget).2 hopen
  obtain ⟨a, ha, hstored⟩ := push_pending hpending
  have hmax : (self.expire_at x.now).max_reassembled_bytes = self.max_reassembled_bytes :=
    congrArg Prod.snd (@settings_expire_at self x.now)
  rw [← hmax] at ha
  have hpart := (hheld.holding.swept htime).part_bytes hx hnew
  have hsum : bytes_of (before ++ [x]) = bytes_of before + x.fragment.payload.length := by
    rw [bytes_of, bytes_of, map_append, sum_append, map_singleton, sum_singleton]
  refine ⟨hholding, ?_⟩
  rw [hstored, hsum]
  apply htally.store hx hpart ha
  rw [hmax]
  exact Nat.le_min.mpr ⟨hs.limits x hmem, hs.reassembled⟩

end Step

section

variable (h : Once packet_id parts arrivals)
  (hs : Sufficient resources max_reassembled_bytes parts.flatten.length arrivals)

include h hs

theorem Once.held (i : Nat) (hi : i < arrivals.length) :
    Held ((new resources max_reassembled_bytes).after (arrivals.take i)) packet_id parts
      (arrivals.take i) := by
  induction i with
  | zero =>
    refine ⟨⟨rfl, fun _ => rfl, nofun⟩, ?_⟩
    exact ⟨nofun, nofun,
      fun _ => rfl, rfl⟩
  | succ i ih =>
    have hlt : i < arrivals.length := by omega
    have hget : arrivals[i]? = some arrivals[i] := getElem?_eq_getElem hlt
    have hmem := getElem_mem hlt
    have hfits := bytes_of_take hget
    rw [h.bytes] at hfits
    have hopen := h.not_covered hi
    have htime := h.timely hs hget
    obtain ⟨hresources, hmax⟩ :=
      Prod.mk.inj (@settings_after (new resources max_reassembled_bytes) (arrivals.take i))
    rw [take_succ_eq_append_getElem hlt] at hopen ⊢
    rw [after_append]
    refine (ih hlt).step ?_ hmem (h.is_of hmem) ?_ hfits
      ((Exact.new resources max_reassembled_bytes).after _) h.cut (h.copy hmem)
      (h.new_id hget) hopen
    · rw [hresources, hmax]
      exact hs
    · rw [hresources]
      exact htime

/-- The arrivals make a delivery, with nothing after its last fragment. -/
theorem Once.delivery : Delivery resources max_reassembled_bytes packet_id parts arrivals where
  cut := h.cut
  copies := fun x hx _ => h.copy hx
  clock := hs.clock
  all := by
    intro i hi
    apply arrived_iff.mpr
    have hpart : (parts[i], i) ∈ parts.zipIdx :=
      List.mem_zipIdx_iff_getElem?.mpr (getElem?_eq_getElem hi)
    obtain ⟨x, hx, heq⟩ := mem_map.mp (h.perm.mem_iff.mpr
      (mem_map_of_mem hpart (f := fragment_of packet_id parts)))
    exact ⟨x, hx, h.is_of hx, by rw [heq]; rfl⟩
  in_time := fun i x hget _ _ => h.timely hs hget
  within := by
    intro i x hget hx _
    have hi := (List.getElem?_eq_some_iff.mp hget).1
    have hfits := bytes_of_take hget
    rw [h.bytes] at hfits
    obtain ⟨hresources, hmax⟩ :=
      Prod.mk.inj (@settings_after (new resources max_reassembled_bytes) (arrivals.take i))
    have hs' : Sufficient
        ((new resources max_reassembled_bytes).after (arrivals.take i)).resources
        ((new resources max_reassembled_bytes).after (arrivals.take i)).max_reassembled_bytes
        parts.flatten.length arrivals := by
      rw [hresources, hmax]
      exact hs
    refine ((h.held hs i hi).within hs' (mem_of_getElem? hget) hx ?_ hfits).2
    rw [hresources]
    exact h.timely hs hget

end

theorem payloads_eq_completions (results : List (Arrival × Except String QuicUdpFragmentOutcome))
    (h : ∀ result ∈ results, result.1.is_of packet_id = true) :
    payloads results = completions packet_id results := by
  apply filterMap_congr
  intro result hmem
  rw [completion, if_pos (h result hmem)]

theorem mem_outcomes {result : Arrival × Except String QuicUdpFragmentOutcome}
    (h : result ∈ self.outcomes arrivals) : result.1 ∈ arrivals := by
  induction arrivals generalizing self with
  | nil => cases h
  | cons y arrivals ih =>
    rcases mem_cons.mp h with rfl | h
    · exact mem_cons_self
    · exact mem_cons_of_mem _ (ih h)

/-- **Whatever the order, the fragments of a packet return its payload once.** -/
theorem Once.payloads (h : Once packet_id parts arrivals)
    (hs : Sufficient resources max_reassembled_bytes parts.flatten.length arrivals) :
    payloads ((new resources max_reassembled_bytes).outcomes arrivals) = [parts.flatten] := by
  have hdelivery := h.delivery hs
  -- no copy comes after the packet is complete
  have hprogress := hdelivery.progress (fun i x hget _ hcovered =>
    absurd hcovered (h.not_covered (List.getElem?_eq_some_iff.mp hget).1)) arrivals.length le_rfl
  rw [take_length] at hprogress
  rw [payloads_eq_completions _ fun result hmem => h.is_of (mem_outcomes hmem)]
  exact (hprogress.complete hdelivery.all).2

theorem payloads_single (hcount : x.fragment.fragment_count = 1) (hid : x.fragment.fragment_id = 0)
    (hpayload : x.fragment.payload ≠ [])
    (hs : Sufficient resources max_reassembled_bytes x.fragment.payload.length [x]) :
    Quic.payloads ((new resources max_reassembled_bytes).outcomes [x]) = [x.fragment.payload] := by
  have hpos := length_pos_iff.mpr hpayload
  have hlimit := hs.limits x mem_cons_self
  have hmax := hs.reassembled
  have hpush : ((new resources max_reassembled_bytes).push x).1
      = .ok (.Complete x.fragment.payload) := by
    have hnew : (new resources max_reassembled_bytes).max_reassembled_bytes
        = max_reassembled_bytes := rfl
    rw [push, push_at_with_reassembly_limit, if_neg (by rw [hcount, hid]; decide),
      if_neg (fun hempty => hpayload (List.isEmpty_iff.mp hempty)), push_valid, hnew,
      if_neg (by omega), if_pos hcount, if_neg (by omega)]
  rw [outcomes, outcomes, Quic.payloads, hpush]
  rfl

end QuicUdpFragmentBuffer
end DaeNext.Quic
