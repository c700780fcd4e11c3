/-
What an encoded name is, apart from the two decoders: `Reads` gives the labels found
from an offset on and where the name ends there. Each decoder accepts exactly the
names that `Reads` gives and that are at most 255 octets long, so they agree.
-/
import DaeNext.DnsName

set_option autoImplicit false

namespace DaeNext.Dns

open List ScanState Loop NameLabels

/-! ## What a name is -/

/-- The octets of a name in the wire: its labels with their length octets, and the root. -/
def wire_len (labels : List (List UInt8)) : Nat := (labels.map (·.length + 1)).sum + 1

@[simp] theorem wire_len_nil : wire_len [] = 1 := rfl

@[simp] theorem wire_len_cons (label : List UInt8) (labels : List (List UInt8)) :
    wire_len (label :: labels) = label.length + 1 + wire_len labels := by
  rw [wire_len, wire_len, map_cons, sum_cons, Nat.add_assoc]

theorem wire_len_pos (labels : List (List UInt8)) : 0 < wire_len labels := Nat.succ_pos _

/-- From `offset` on the packet holds a name with these labels, which ends at the given offset
of the place it starts in. `scope_end` bounds that place; past a pointer the whole packet is
in scope. -/
inductive Reads (packet : List UInt8) (compressed : Bool) :
    Nat → Nat → Nat → List (List UInt8) → Nat → Prop where
  | root {offset scope_end jumps : Nat} (hget : packet[offset]? = some 0)
      (hscope : offset + 1 ≤ scope_end) :
      Reads packet compressed offset scope_end jumps [] (offset + 1)
  | label {offset scope_end jumps e : Nat} {len : UInt8} {labels : List (List UInt8)}
      (hget : packet[offset]? = some len) (htop : len &&& 0xc0 = 0) (hlen : len ≠ 0)
      (hpacket : offset + 1 + len.toNat ≤ packet.length)
      (hscope : offset + 1 + len.toNat ≤ scope_end)
      (rest : Reads packet compressed (offset + 1 + len.toNat) scope_end jumps labels e) :
      Reads packet compressed offset scope_end jumps
        (slice packet (offset + 1) (offset + 1 + len.toNat) :: labels) e
  | pointer {offset scope_end jumps e : Nat} {len second : UInt8} {labels : List (List UInt8)}
      (hget : packet[offset]? = some len) (hptr : len &&& 0xc0 = 0xc0) (hcomp : compressed = true)
      (hsecond : packet[offset + 1]? = some second) (hscope : offset + 2 ≤ scope_end)
      (hjumps : jumps < 16)
      (target : Reads packet compressed (pointer_target len second) packet.length (jumps + 1)
        labels e) :
      Reads packet compressed offset scope_end jumps labels (offset + 2)

variable {packet : List UInt8} {jumps : Nat}

namespace Reads

variable {compressed : Bool} {offset scope_end e : Nat} {labels : List (List UInt8)}

theorem label_length (h : Reads packet compressed offset scope_end jumps labels e) :
    ∀ label ∈ labels, 1 ≤ label.length ∧ label.length ≤ 63 := by
  induction h with
  | root => intro label hmem; cases hmem
  | label hget htop hlen hpacket hscope rest ih =>
    intro label hmem
    rcases mem_cons.mp hmem with heq | hmem
    · have hpos := toNat_pos_of_ne_zero hlen
      have hle := toNat_le_of_top_clear htop
      rw [heq, slice_length hpacket]
      omega
    · exact ih label hmem
  | pointer hget hptr hcomp hsecond hscope hjumps target ih => exact ih

end Reads

/-! ## The scanner accepts what `Reads` gives, up to 255 octets -/

/-- What holds of the scanner's variables in every turn: the run of labels at `offset` may go
on to the end of its scope, as far as the budget allows. -/
structure ScanState.Consistent (packet : List UInt8) (s : ScanState) : Prop where
  start_le : s.segment_start ≤ s.offset
  end_eq : s.segment_end
    = min (min (s.segment_start + (255 - s.expanded)) s.scope_end) packet.length
  expanded_le : s.expanded ≤ 255

namespace ScanState.Consistent

variable {s : ScanState}

theorem start (packet : List UInt8) (offset scope_end : Nat) :
    (scan_start packet offset scope_end).Consistent packet :=
  ⟨le_rfl, rfl, Nat.zero_le _⟩

theorem follow (hused : s.used < 255) (target : Nat) : (s.follow packet target).Consistent packet := by
  refine ⟨le_rfl, ?_, Nat.le_of_lt hused⟩
  dsimp only [ScanState.follow]
  omega

theorem pass (h : s.Consistent packet) (n : Nat) :
    { s with offset := s.offset + 1 + n }.Consistent packet :=
  ⟨by have := h.start_le; dsimp only; omega, h.end_eq, h.expanded_le⟩

/-- A label may end at `stop` when it is in the packet and in scope, and the budget holds it. -/
theorem le_end_iff (h : s.Consistent packet) {stop : Nat} (hs : s.offset ≤ stop) :
    stop ≤ s.segment_end ↔
      s.used + (stop - s.offset) ≤ 255 ∧ stop ≤ s.scope_end ∧ stop ≤ packet.length := by
  have h1 := h.start_le
  have h2 := h.expanded_le
  rw [h.end_eq, used]
  omega

end ScanState.Consistent

variable {compressed : Bool}

theorem reads_of_scan (s : ScanState) :
    s.Consistent packet → ∀ e, (scan_loop packet compressed).run s = .ok e →
    ∃ labels e', Reads packet compressed s.offset s.scope_end s.jumps labels e' ∧
      s.used + wire_len labels ≤ 255 ∧ e = s.consumed.getD e' := by
  induction s using (scan_loop packet compressed).induct with
  | h s ih =>
    intro hs e hrun
    rcases scan_step_cases packet compressed s with
      ⟨len, second, hget, hptr, hcomp, hsecond, hscope, hused, hjumps, hst⟩ |
      ⟨len, hget, htop, hlen, hend, hst⟩ | ⟨hget, hend, hst⟩ | ⟨error, hst⟩
    · rw [run_inl _ hst] at hrun
      obtain ⟨labels, e', hreads, hbudget, he⟩ := ih _ hst (.follow hused _) e hrun
      refine ⟨labels, s.offset + 2, .pointer hget hptr hcomp hsecond hscope hjumps hreads, ?_, he⟩
      -- at the target nothing of the new run is used yet
      have hnew : (s.follow packet (pointer_target len second)).used = s.used := by
        rw [used]
        dsimp only [ScanState.follow]
        omega
      rwa [hnew] at hbudget
    · rw [run_inl _ hst] at hrun
      obtain ⟨labels, e', hreads, hbudget, he⟩ := ih _ hst (hs.pass _) e hrun
      obtain ⟨-, hscope, hpacket⟩ := (hs.le_end_iff (by omega)).mp hend
      refine ⟨_, e', .label hget htop hlen hpacket hscope hreads, ?_, he⟩
      have hstart := hs.start_le
      rw [wire_len_cons, slice_length hpacket]
      rw [used] at hbudget ⊢
      dsimp only at hbudget
      omega
    · rw [run_inr _ hst] at hrun
      cases hrun
      obtain ⟨hbudget, hscope, -⟩ := (hs.le_end_iff (by omega)).mp hend
      refine ⟨[], s.offset + 1, .root hget hscope, ?_, rfl⟩
      rw [wire_len_nil]
      omega
    · rw [run_inr _ hst] at hrun
      cases hrun

variable {labels : List (List UInt8)} {scope_end offset e : Nat}

theorem scan_of_reads (h : Reads packet compressed offset scope_end jumps labels e) :
    ∀ s : ScanState, s.offset = offset → s.scope_end = scope_end → s.jumps = jumps →
      s.Consistent packet → s.used + wire_len labels ≤ 255 →
      (scan_loop packet compressed).run s = .ok (s.consumed.getD e) := by
  induction h with
  | @root offset scope_end jumps hget hscope =>
    rintro s rfl rfl rfl hs hbudget
    have hlt : s.offset < packet.length := (List.getElem?_eq_some_iff.mp hget).1
    rw [wire_len_nil] at hbudget
    apply run_inr
    exact scan_step_root hget
      ((hs.le_end_iff (by omega)).mpr ⟨by omega, hscope, by omega⟩)
  | @label offset scope_end jumps e len labels hget htop hlen hpacket hscope rest ih =>
    rintro s rfl rfl rfl hs hbudget
    rw [wire_len_cons, slice_length hpacket] at hbudget
    rw [run_inl _ (scan_step_label hget htop hlen
      ((hs.le_end_iff (by omega)).mpr ⟨by omega, hscope, hpacket⟩))]
    apply ih { s with offset := s.offset + 1 + len.toNat } rfl rfl rfl (hs.pass _)
    rw [used] at hbudget ⊢
    dsimp only
    omega
  | @pointer offset scope_end jumps e len second labels hget hptr hcomp hsecond hscope hjumps target ih =>
    rintro s rfl rfl rfl hs hbudget
    have hpos := wire_len_pos labels
    have hused : s.used < 255 := by omega
    rw [run_inl _ (scan_step_pointer hget hptr hcomp hsecond hscope hused hjumps)]
    rw [ih (s.follow packet (pointer_target len second)) rfl rfl rfl (.follow hused _) ?_]
    · rfl
    · rw [used]
      dsimp only [ScanState.follow]
      omega

theorem scan_dns_name_ok_iff :
    scan_dns_name packet offset scope_end compressed = .ok e ↔
      ∃ labels, Reads packet compressed offset scope_end 0 labels e ∧ wire_len labels ≤ 255 := by
  have hs := ScanState.Consistent.start packet offset scope_end
  have hused : (scan_start packet offset scope_end).used = 0 := by
    rw [used]
    dsimp only [scan_start]
    omega
  constructor
  · intro h
    obtain ⟨labels, e', hreads, hbudget, he⟩ := reads_of_scan _ hs e h
    rw [hused, Nat.zero_add] at hbudget
    cases he
    exact ⟨labels, hreads, hbudget⟩
  · rintro ⟨labels, hreads, hbudget⟩
    exact scan_of_reads hreads _ rfl rfl rfl hs (by rw [hused]; omega)

/-! ## So does the iterator -/

namespace NameLabels

theorem reads_of_items (n : Nat) : ∀ (s : NameLabels) (acc : List (Except DnsError (List UInt8))),
    (17 - s.jumps) * (s.packet.length + 1) + (s.packet.length - s.offset) = n →
    s.done = false → s.expanded ≤ 255 → ∀ e, (items_loop.run (acc, s)).2.consumed = some e →
    (∀ item ∈ (items_loop.run (acc, s)).1, ∃ label, item = .ok label) →
    ∃ labels e', Reads s.packet s.compressed s.offset s.scope_end s.jumps labels e' ∧
      s.expanded + wire_len labels ≤ 256 ∧ e = s.consumed.getD e' ∧
      (items_loop.run (acc, s)).1 = acc ++ labels.map .ok := by
  induction n using Nat.strongRecOn with
  | ind n ih =>
    intro s acc hn hd hexp e he hall
    rcases s.label_step_cases with ⟨len, second, hget, hptr, hcomp, hsecond, hscope, hjumps, hst⟩ |
      ⟨len, hget, htop, hlen, hpacket, hscope, hbudget, hst⟩ | ⟨hget, hscope, hst⟩ |
      ⟨t, error, hst⟩
    · rw [items_loop_follow hst hd hd] at he hall ⊢
      have hj : 17 - s.jumps = (17 - (s.jumps + 1)) + 1 := by omega
      rw [hj, Nat.add_one_mul] at hn
      obtain ⟨labels, e', hreads, hle, heq, hitems⟩ :=
        ih _ (by dsimp only [follow]; omega) (s.follow (pointer_target len second)) acc rfl hd hexp
          e he hall
      exact ⟨labels, s.offset + 2, .pointer hget hptr hcomp hsecond hscope hjumps hreads, hle, heq,
        hitems⟩
    · rw [items_loop_label hd hst] at he hall ⊢
      obtain ⟨labels, e', hreads, hle, heq, hitems⟩ :=
        ih _ (by dsimp only [pass]; omega) (s.pass len) _ rfl hd hbudget e he hall
      refine ⟨_, e', .label hget htop hlen hpacket hscope hreads, ?_, heq, ?_⟩
      · rw [wire_len_cons, slice_length hpacket]
        dsimp only [pass] at hle
        omega
      · rw [hitems, map_cons, append_assoc, singleton_append]
    · rw [items_loop_root hd hst] at he ⊢
      refine ⟨[], s.offset + 1, .root hget hscope, ?_, ?_, ?_⟩
      · rw [wire_len_nil]
        omega
      · exact (Option.some.inj he).symm
      · rw [map_nil, append_nil]
    · rw [items_loop_error hd hst] at hall
      obtain ⟨label, hlabel⟩ := hall (.error error) (mem_append_right _ mem_cons_self)
      cases hlabel

theorem items_of_reads (h : Reads packet compressed offset scope_end jumps labels e) :
    ∀ (s : NameLabels) (acc : List (Except DnsError (List UInt8))),
      s.packet = packet → s.compressed = compressed → s.offset = offset →
      s.scope_end = scope_end → s.jumps = jumps → s.done = false →
      s.expanded + wire_len labels ≤ 256 → (items_loop.run (acc, s)).1 = acc ++ labels.map .ok ∧
        (items_loop.run (acc, s)).2.consumed = some (s.consumed.getD e) := by
  induction h with
  | @root offset scope_end jumps hget hscope =>
    rintro s acc rfl rfl rfl rfl rfl hd -
    rw [items_loop_root hd (label_step_root hget hscope), map_nil, append_nil]
    exact ⟨rfl, rfl⟩
  | @label offset scope_end jumps e len labels hget htop hlen hpacket hscope rest ih =>
    rintro s acc rfl rfl rfl rfl rfl hd hbudget
    have hpos := wire_len_pos labels
    rw [wire_len_cons, slice_length hpacket] at hbudget
    rw [items_loop_label hd (label_step_label hget htop hlen hpacket hscope (by omega))]
    obtain ⟨hitems, hconsumed⟩ := ih (s.pass len)
      (acc ++ [.ok (slice s.packet (s.offset + 1) (s.offset + 1 + len.toNat))]) rfl rfl rfl rfl rfl hd
      (by dsimp only [pass]; omega)
    refine ⟨?_, hconsumed⟩
    rw [hitems, map_cons, append_assoc, singleton_append]
  | @pointer offset scope_end jumps e len second labels hget hptr hcomp hsecond hscope hjumps target ih =>
    rintro s acc rfl rfl rfl rfl rfl hd hbudget
    rw [items_loop_follow (label_step_pointer hget hptr hcomp hsecond hscope hjumps) hd hd]
    exact ih (s.follow (pointer_target len second)) acc rfl rfl rfl rfl rfl hd hbudget

/-- The spec of the iterator: it yields exactly the labels of the name at `offset`, without an
error, when the name is within the budget. -/
theorem items_ok_iff :
    (new packet offset scope_end compressed).items.1 = labels.map .ok ∧
        (new packet offset scope_end compressed).items.2.consumed = some e ↔
      Reads packet compressed offset scope_end 0 labels e ∧ wire_len labels ≤ 255 := by
  constructor
  · rintro ⟨hitems, hconsumed⟩
    obtain ⟨labels', e', hreads, hle, he, hitems'⟩ :=
      reads_of_items _ (new packet offset scope_end compressed) [] rfl rfl
        (by dsimp only [new]; omega) e hconsumed
        (by
          intro item hmem
          rw [items] at hitems
          rw [hitems] at hmem
          obtain ⟨label, -, rfl⟩ := mem_map.mp hmem
          exact ⟨label, rfl⟩)
    -- the labels yielded are the labels read
    have hlabels : labels = labels' := by
      rw [items, hitems', nil_append] at hitems
      exact (List.map_injective_iff.mpr (fun _ _ h => Except.ok.inj h) hitems).symm
    subst hlabels
    cases he
    exact ⟨hreads, by dsimp only [new] at hle; omega⟩
  · rintro ⟨hreads, hle⟩
    exact items_of_reads hreads (new packet offset scope_end compressed) [] rfl rfl rfl rfl rfl rfl
      (by dsimp only [new]; omega)

theorem items_all_ok_iff {s : NameLabels} :
    (∀ item ∈ s.items.1, ∃ label, item = .ok label) ↔
      ∃ labels : List (List UInt8), s.items.1 = labels.map .ok := by
  constructor
  · intro h
    generalize s.items.1 = yielded at h
    induction yielded with
    | nil => exact ⟨[], rfl⟩
    | cons item yielded ih =>
      obtain ⟨label, rfl⟩ := h item mem_cons_self
      obtain ⟨labels, rfl⟩ := ih (fun i hi => h i (mem_cons_of_mem _ hi))
      exact ⟨label :: labels, rfl⟩
  · rintro ⟨labels, hlabels⟩ item hmem
    rw [hlabels] at hmem
    obtain ⟨label, -, rfl⟩ := mem_map.mp hmem
    exact ⟨label, rfl⟩

end NameLabels

/-- The two decoders accept the same names and agree on where they end, an accepted name has at
most 255 octets and labels of 1 to 63, and both loops end after a bounded number of turns, whatever
the pointers in the packet are. -/
theorem scan_dns_name_agrees_with_name_labels (packet : List UInt8) (offset scope_end : Nat)
    (compressed : Bool) : (∀ e, scan_dns_name packet offset scope_end compressed = .ok e ↔
      (∀ item ∈ (NameLabels.new packet offset scope_end compressed).items.1,
        ∃ label, item = .ok label) ∧
      (NameLabels.new packet offset scope_end compressed).items.2.consumed = some e) ∧
    (∀ e, scan_dns_name packet offset scope_end compressed = .ok e →
      ∃ labels : List (List UInt8),
        (NameLabels.new packet offset scope_end compressed).items.1 = labels.map .ok ∧
        wire_len labels ≤ 255 ∧ ∀ label ∈ labels, 1 ≤ label.length ∧ label.length ≤ 63) ∧
    ((scan_loop packet compressed).visited (scan_start packet offset scope_end)).length
      ≤ 18 * (packet.length + 1) ∧
    (NameLabels.items_loop.visited
      ([], NameLabels.new packet offset scope_end compressed)).length ≤ 257 ∧
    ∀ s, (NameLabels.label_loop.visited s).length ≤ 18 := by
  refine ⟨?_, ?_, ?_, ?_, ?_⟩
  · intro e
    rw [scan_dns_name_ok_iff, items_all_ok_iff]
    constructor
    · rintro ⟨labels, h⟩
      obtain ⟨hitems, hconsumed⟩ := items_ok_iff.mpr h
      exact ⟨⟨labels, hitems⟩, hconsumed⟩
    · rintro ⟨⟨labels, hitems⟩, hconsumed⟩
      exact ⟨labels, items_ok_iff.mp ⟨hitems, hconsumed⟩⟩
  · intro e h
    obtain ⟨labels, hreads, hle⟩ := scan_dns_name_ok_iff.mp h
    exact ⟨labels, (items_ok_iff.mpr ⟨hreads, hle⟩).1, hle, hreads.label_length⟩
  · apply Nat.le_trans (visited_length_le _ _)
    dsimp only [scan_loop, scan_measure, scan_start]
    omega
  · exact visited_length_le items_loop _
  · intro s
    apply Nat.le_trans (visited_length_le _ _)
    dsimp only [label_loop]
    omega

end DaeNext.Dns
