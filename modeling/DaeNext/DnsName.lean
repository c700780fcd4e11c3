/-
Names in DNS packets (`dae-dns/src/name.rs`): the scanner `scan_dns_name` and the
label iterator `NameLabels`.

Both walk an encoded name, at most 16 compression pointers deep, and both bound the
expanded name by 255 octets: the scanner through the offset at which a run of labels
may end, the iterator by a count it adds each label to. For each loop one lemma says
everything a turn can do.
-/
import DaeNext.LibLoop
import DaeNext.LibText

set_option autoImplicit false

namespace DaeNext.Dns

/-- The errors of `DnsError` the name and packet code can give. -/
inductive DnsError where
  | PacketTooShort
  | UnexpectedEof
  | InvalidDnsName
  | CompressionLoop
  deriving DecidableEq, Repr

/-- `&packet[start..end]`, for indexes in range. -/
def slice (packet : List UInt8) (start stop : Nat) : List UInt8 :=
  (packet.drop start).take (stop - start)

theorem slice_length {packet : List UInt8} {start stop : Nat} (h : stop ≤ packet.length) :
    (slice packet start stop).length = stop - start := by
  rw [slice, List.length_take, List.length_drop]
  omega

theorem slice_append_drop (packet : List UInt8) (start len : Nat) :
    slice packet start (start + len) ++ packet.drop (start + len) = packet.drop start := by
  rw [slice, Nat.add_sub_cancel_left, ← List.drop_drop, List.take_append_drop]

/-- Where a compression pointer leads: `((len & 0x3f) << 8) | second`. -/
def pointer_target (len second : UInt8) : Nat := (len &&& 0x3f).toNat <<< 8 ||| second.toNat

variable {len : UInt8}

/-- An octet without the two top bits is a length of at most 63. -/
theorem toNat_le_of_top_clear (h : len &&& 0xc0 = 0) : len.toNat ≤ 63 := by
  revert h
  exact Text.forall_byte (P := fun b => b &&& 0xc0 = 0 → b.toNat ≤ 63) (by decide +kernel) len

theorem toNat_pos_of_ne_zero (h : len ≠ 0) : 0 < len.toNat := by
  rw [Nat.pos_iff_ne_zero]
  intro h0
  exact h (UInt8.toNat_inj.mp h0)

/-! ## The scanner -/

structure ScanState where
  offset : Nat
  scope_end : Nat
  consumed : Option Nat
  expanded : Nat
  segment_start : Nat
  segment_end : Nat
  jumps : Nat
  deriving DecidableEq, Repr

/-- The octets of the expanded name before `offset`: the runs before the last pointer and
the current one. Pointer octets are not among them. -/
def ScanState.used (s : ScanState) : Nat := s.expanded + (s.offset - s.segment_start)

/-- Go on at the target of the pointer at `offset`. -/
def ScanState.follow (s : ScanState) (packet : List UInt8) (target : Nat) : ScanState where
  offset := target
  -- the scope holds for the bytes at the original location only
  scope_end := packet.length
  consumed := some (s.consumed.getD (s.offset + 2))
  expanded := s.used
  segment_start := target
  segment_end := min (target + (255 - s.used)) packet.length
  jumps := s.jumps + 1

def scan_step (packet : List UInt8) (compressed : Bool) (s : ScanState) :
    ScanState ⊕ Except DnsError Nat :=
  match packet[s.offset]? with
  | none => .inr (.error .UnexpectedEof)
  | some len =>
    if len &&& 0xc0 = 0xc0 then
      if compressed = false then .inr (.error .InvalidDnsName)
      else
        match packet[s.offset + 1]? with
        | none => .inr (.error .UnexpectedEof)
        | some second =>
          if s.scope_end < s.offset + 2 then .inr (.error .InvalidDnsName)
          else if 255 ≤ s.used then .inr (.error .InvalidDnsName)
          else if 16 < s.jumps + 1 then .inr (.error .CompressionLoop)
          else .inl (s.follow packet (pointer_target len second))
    else if len &&& 0xc0 ≠ 0 then .inr (.error .InvalidDnsName)
    else
      let offset := s.offset + 1 + len.toNat
      if s.segment_end < offset then
        .inr (.error (if packet.length < offset then .UnexpectedEof else .InvalidDnsName))
      else if len = 0 then .inr (.ok (s.consumed.getD offset))
      else .inl { s with offset := offset }

section ScanStep

variable {packet : List UInt8} {compressed : Bool} {s : ScanState}

/-- A turn follows a pointer, passes a label, ends at the root label or fails. -/
theorem scan_step_cases (packet : List UInt8) (compressed : Bool) (s : ScanState) :
    (∃ len second, packet[s.offset]? = some len ∧ len &&& 0xc0 = 0xc0 ∧ compressed = true ∧
      packet[s.offset + 1]? = some second ∧ s.offset + 2 ≤ s.scope_end ∧ s.used < 255 ∧
      s.jumps < 16 ∧
      scan_step packet compressed s = .inl (s.follow packet (pointer_target len second))) ∨
    (∃ len, packet[s.offset]? = some len ∧ len &&& 0xc0 = 0 ∧ len ≠ 0 ∧
      s.offset + 1 + len.toNat ≤ s.segment_end ∧
      scan_step packet compressed s = .inl { s with offset := s.offset + 1 + len.toNat }) ∨
    (packet[s.offset]? = some 0 ∧ s.offset + 1 ≤ s.segment_end ∧
      scan_step packet compressed s = .inr (.ok (s.consumed.getD (s.offset + 1)))) ∨
    (∃ error, scan_step packet compressed s = .inr (.error error)) := by
  fun_cases scan_step packet compressed s with
  | case7 len hget hptr hcomp second hsecond h1 h2 h3 =>
    exact .inl ⟨len, second, hget, hptr, by simpa using hcomp, hsecond, by omega, by omega, by omega, rfl⟩
  | case10 hget _ _ _ hend => exact .inr (.inr (.inl ⟨hget, Nat.not_lt.mp hend, rfl⟩))
  | case11 len hget _ htop _ hend hzero =>
    exact .inr (.inl ⟨len, hget, not_not.mp htop, hzero, by omega, rfl⟩)
  | _ => exact .inr (.inr (.inr ⟨_, rfl⟩))

theorem scan_step_root (hget : packet[s.offset]? = some 0) (hend : s.offset + 1 ≤ s.segment_end) :
    scan_step packet compressed s = .inr (.ok (s.consumed.getD (s.offset + 1))) := by
  rw [scan_step, hget]
  dsimp only
  rw [if_neg (by decide), if_neg (by decide), if_neg (by simpa using hend), if_pos rfl]
  rfl

theorem scan_step_label (hget : packet[s.offset]? = some len) (htop : len &&& 0xc0 = 0)
    (hlen : len ≠ 0) (hend : s.offset + 1 + len.toNat ≤ s.segment_end) :
    scan_step packet compressed s = .inl { s with offset := s.offset + 1 + len.toNat } := by
  rw [scan_step, hget]
  dsimp only
  rw [if_neg (by rw [htop]; decide), if_neg (by rw [htop]; decide), if_neg (by omega), if_neg hlen]

theorem scan_step_pointer {len second : UInt8} (hget : packet[s.offset]? = some len)
    (hptr : len &&& 0xc0 = 0xc0) (hcomp : compressed = true)
    (hsecond : packet[s.offset + 1]? = some second) (hscope : s.offset + 2 ≤ s.scope_end)
    (hused : s.used < 255) (hjumps : s.jumps < 16) :
    scan_step packet compressed s = .inl (s.follow packet (pointer_target len second)) := by
  rw [scan_step, hget]
  dsimp only
  rw [if_pos hptr, if_neg (by rw [hcomp]; decide), hsecond]
  dsimp only
  rw [if_neg (by omega), if_neg (by omega), if_neg (by omega)]

end ScanStep

/-- The pointers left, and within one run of labels the octets left. -/
def scan_measure (packet : List UInt8) (s : ScanState) : Nat :=
  (17 - s.jumps) * (packet.length + 1) + (packet.length - s.offset)

theorem scan_step_decreases (packet : List UInt8) (compressed : Bool) (s s' : ScanState)
    (h : scan_step packet compressed s = .inl s') : scan_measure packet s' < scan_measure packet s := by
  rcases scan_step_cases packet compressed s with
    ⟨len, second, -, -, -, -, -, -, hjumps, hs⟩ | ⟨len, hget, -, -, -, hs⟩ | ⟨-, -, hs⟩ | ⟨_, hs⟩
  · -- one jump fewer is left, and a jump outweighs every octet
    rw [hs] at h
    cases h
    have hj : 17 - s.jumps = (17 - (s.jumps + 1)) + 1 := by omega
    rw [scan_measure, scan_measure, hj, Nat.add_one_mul]
    dsimp only [ScanState.follow]
    omega
  · rw [hs] at h
    cases h
    have hlt : s.offset < packet.length := (List.getElem?_eq_some_iff.mp hget).1
    rw [scan_measure, scan_measure]
    dsimp only
    omega
  · rw [hs] at h
    cases h
  · rw [hs] at h
    cases h

def scan_loop (packet : List UInt8) (compressed : Bool) : Loop ScanState (Except DnsError Nat) where
  step := scan_step packet compressed
  measure := scan_measure packet
  decreases := scan_step_decreases packet compressed

def scan_start (packet : List UInt8) (offset scope_end : Nat) : ScanState where
  offset := offset
  scope_end := scope_end
  consumed := none
  expanded := 0
  segment_start := offset
  segment_end := min (min (offset + 255) scope_end) packet.length
  jumps := 0

def scan_dns_name (packet : List UInt8) (offset scope_end : Nat) (compressed : Bool) :
    Except DnsError Nat :=
  (scan_loop packet compressed).run (scan_start packet offset scope_end)

/-! ## The label iterator -/

structure NameLabels where
  packet : List UInt8
  offset : Nat
  scope_end : Nat
  compressed : Bool
  jumps : Nat
  expanded : Nat
  consumed : Option Nat
  done : Bool
  deriving DecidableEq, Repr

namespace NameLabels

def new (packet : List UInt8) (offset scope_end : Nat) (compressed : Bool) : NameLabels where
  packet := packet
  offset := offset
  scope_end := scope_end
  compressed := compressed
  jumps := 0
  expanded := 1
  consumed := none
  done := false

/-- Go on at the target of the pointer at `offset`. -/
def follow (s : NameLabels) (target : Nat) : NameLabels :=
  { s with
    consumed := some (s.consumed.getD (s.offset + 2))
    offset := target
    scope_end := s.packet.length
    jumps := s.jumps + 1 }

def label_step (s : NameLabels) :
    NameLabels ⊕ (NameLabels × Except DnsError (Option (List UInt8))) :=
  match s.packet[s.offset]? with
  | none => .inr (s, .error .UnexpectedEof)
  | some len =>
    if len &&& 0xc0 = 0xc0 then
      if s.compressed = false then .inr (s, .error .InvalidDnsName)
      else
        match s.packet[s.offset + 1]? with
        | none => .inr (s, .error .UnexpectedEof)
        | some second =>
          if s.scope_end < s.offset + 2 then .inr (s, .error .InvalidDnsName)
          else if 16 < s.jumps + 1 then
            .inr (s.follow (pointer_target len second), .error .CompressionLoop)
          else .inl (s.follow (pointer_target len second))
    else if len &&& 0xc0 ≠ 0 then .inr (s, .error .InvalidDnsName)
    else
      let start := s.offset + 1
      let stop := start + len.toNat
      let expanded := s.expanded + (1 + len.toNat)
      if s.packet.length < stop then .inr ({ s with offset := start }, .error .UnexpectedEof)
      else if s.scope_end < stop then .inr ({ s with offset := start }, .error .InvalidDnsName)
      else if len = 0 then
        .inr ({ s with offset := start, consumed := some (s.consumed.getD stop) }, .ok none)
      else if 255 < expanded then
        .inr ({ s with offset := start, expanded := expanded }, .error .InvalidDnsName)
      else
        .inr ({ s with offset := stop, expanded := expanded },
          .ok (some (slice s.packet start stop)))

/-- The state after the label at `offset`. -/
def pass (s : NameLabels) (len : UInt8) : NameLabels :=
  { s with offset := s.offset + 1 + len.toNat, expanded := s.expanded + (1 + len.toNat) }

/-- The state after the root label at `offset`. -/
def finish (s : NameLabels) : NameLabels :=
  { s with offset := s.offset + 1, consumed := some (s.consumed.getD (s.offset + 1)) }

/-- A turn follows a pointer, gives a label, ends at the root label or fails. -/
theorem label_step_cases (s : NameLabels) :
    (∃ len second, s.packet[s.offset]? = some len ∧ len &&& 0xc0 = 0xc0 ∧ s.compressed = true ∧
      s.packet[s.offset + 1]? = some second ∧ s.offset + 2 ≤ s.scope_end ∧ s.jumps < 16 ∧
      s.label_step = .inl (s.follow (pointer_target len second))) ∨
    (∃ len, s.packet[s.offset]? = some len ∧ len &&& 0xc0 = 0 ∧ len ≠ 0 ∧
      s.offset + 1 + len.toNat ≤ s.packet.length ∧ s.offset + 1 + len.toNat ≤ s.scope_end ∧
      s.expanded + (1 + len.toNat) ≤ 255 ∧
      s.label_step = .inr (s.pass len,
        .ok (some (slice s.packet (s.offset + 1) (s.offset + 1 + len.toNat))))) ∨
    (s.packet[s.offset]? = some 0 ∧ s.offset + 1 ≤ s.scope_end ∧
      s.label_step = .inr (s.finish, .ok none)) ∨
    (∃ t error, s.label_step = .inr (t, .error error)) := by
  fun_cases label_step s with
  | case6 len hget hptr hcomp second hsecond h1 h2 =>
    exact .inl ⟨len, second, hget, hptr, by simpa using hcomp, hsecond, by omega, by omega, rfl⟩
  | case10 _ hget _ _ _ _ hscope => exact .inr (.inr (.inl ⟨hget, Nat.not_lt.mp hscope, rfl⟩))
  | case12 len hget _ htop _ _ _ hlen hscope hzero hexp =>
    exact .inr (.inl ⟨len, hget, not_not.mp htop, hzero, by omega, by omega, by omega, rfl⟩)
  | _ => exact .inr (.inr (.inr ⟨_, _, rfl⟩))

variable {s : NameLabels}

theorem label_step_root (hget : s.packet[s.offset]? = some 0)
    (hscope : s.offset + 1 ≤ s.scope_end) : s.label_step = .inr (s.finish, .ok none) := by
  have hlt : s.offset < s.packet.length := (List.getElem?_eq_some_iff.mp hget).1
  rw [label_step, hget]
  dsimp only
  rw [if_neg (by decide), if_neg (by decide), if_neg (by rw [UInt8.toNat_zero]; omega),
    if_neg (by rw [UInt8.toNat_zero]; omega), if_pos rfl]
  rfl

theorem label_step_label (hget : s.packet[s.offset]? = some len)
    (htop : len &&& 0xc0 = 0) (hlen : len ≠ 0) (hpacket : s.offset + 1 + len.toNat ≤ s.packet.length)
    (hscope : s.offset + 1 + len.toNat ≤ s.scope_end) (hexp : s.expanded + (1 + len.toNat) ≤ 255) :
    s.label_step = .inr (s.pass len,
      .ok (some (slice s.packet (s.offset + 1) (s.offset + 1 + len.toNat)))) := by
  rw [label_step, hget]
  dsimp only
  rw [if_neg (by rw [htop]; decide), if_neg (by rw [htop]; decide), if_neg (by omega),
    if_neg (by omega), if_neg hlen, if_neg (by omega)]
  rfl

theorem label_step_pointer {len second : UInt8}
    (hget : s.packet[s.offset]? = some len) (hptr : len &&& 0xc0 = 0xc0)
    (hcomp : s.compressed = true) (hsecond : s.packet[s.offset + 1]? = some second)
    (hscope : s.offset + 2 ≤ s.scope_end) (hjumps : s.jumps < 16) :
    s.label_step = .inl (s.follow (pointer_target len second)) := by
  rw [label_step, hget]
  dsimp only
  rw [if_pos hptr, if_neg (by rw [hcomp]; decide), hsecond]
  dsimp only
  rw [if_neg (by omega), if_neg (by omega)]

/-- The loop of `next_label` follows pointers; each one counts as a jump. -/
def label_loop : Loop NameLabels (NameLabels × Except DnsError (Option (List UInt8))) where
  step := label_step
  measure s := 17 - s.jumps
  decreases := by
    intro s s' h
    rcases s.label_step_cases with ⟨_, _, -, -, -, -, -, hjumps, hs⟩ |
      ⟨_, -, -, -, -, -, -, hs⟩ | ⟨-, -, hs⟩ | ⟨_, _, hs⟩
    · rw [hs] at h
      cases h
      dsimp only [follow]
      omega
    · rw [hs] at h
      cases h
    · rw [hs] at h
      cases h
    · rw [hs] at h
      cases h

def next_label (s : NameLabels) : NameLabels × Except DnsError (Option (List UInt8)) :=
  label_loop.run s

def next (s : NameLabels) : NameLabels × Option (Except DnsError (List UInt8)) :=
  if s.done then (s, none)
  else
    match s.next_label with
    | (s', .ok (some label)) => (s', some (.ok label))
    | (s', .ok none) => ({ s' with done := true }, none)
    | (s', .error error) => ({ s' with done := true }, some (.error error))

section Next

variable {s t : NameLabels}

theorem next_of_done (h : s.done = true) : s.next = (s, none) := by
  rw [next, if_pos h]

/-- Following a pointer is no call of `next` of its own. -/
theorem next_of_follow (h : s.label_step = .inl t) (hd : s.done = false) (ht : t.done = false) :
    s.next = t.next := by
  rw [next, next, if_neg (by rw [hd]; decide), if_neg (by rw [ht]; decide), next_label,
    label_loop.run_inl h]
  rfl

theorem next_of_label {label : List UInt8} (hd : s.done = false)
    (h : s.label_step = .inr (t, .ok (some label))) : s.next = (t, some (.ok label)) := by
  rw [next, if_neg (by rw [hd]; decide), next_label, label_loop.run_inr h]

theorem next_of_root (hd : s.done = false) (h : s.label_step = .inr (t, .ok none)) :
    s.next = ({ t with done := true }, none) := by
  rw [next, if_neg (by rw [hd]; decide), next_label, label_loop.run_inr h]

theorem next_of_error {error : DnsError} (hd : s.done = false)
    (h : s.label_step = .inr (t, .error error)) :
    s.next = ({ t with done := true }, some (.error error)) := by
  rw [next, if_neg (by rw [hd]; decide), next_label, label_loop.run_inr h]

end Next

/-- Labels the budget of 255 octets can still hold, and the turn that ends the iteration. -/
def items_measure (s : NameLabels) : Nat := if s.done then 0 else 1 + (256 - s.expanded)

theorem next_decreases (s : NameLabels) :
    ∀ t item, s.next = (t, some item) → items_measure t < items_measure s := by
  induction s using label_loop.induct with
  | h s ih =>
    intro t item h
    cases hd : s.done with
    | true =>
      rw [next_of_done hd] at h
      cases h
    | false =>
      have hm : items_measure s = 1 + (256 - s.expanded) := by
        rw [items_measure, if_neg (by rw [hd]; decide)]
      rcases s.label_step_cases with ⟨len, second, -, -, -, -, -, -, hs⟩ |
        ⟨len, -, -, hlen, -, -, hexp, hs⟩ | ⟨-, -, hs⟩ | ⟨u, error, hs⟩
      · rw [next_of_follow hs hd hd] at h
        exact ih _ hs t item h
      · rw [next_of_label hd hs] at h
        cases h
        rw [hm, items_measure, if_neg (by dsimp only [pass]; rw [hd]; decide)]
        dsimp only [pass]
        omega
      · rw [next_of_root hd hs] at h
        cases h
      · rw [next_of_error hd hs] at h
        cases h
        rw [hm, items_measure, if_pos rfl]
        omega

/-- `for label in NameLabels…`: call `next` until it gives nothing. -/
def items_loop : Loop (List (Except DnsError (List UInt8)) × NameLabels)
    (List (Except DnsError (List UInt8)) × NameLabels) where
  step s :=
    match s.2.next with
    | (t, some item) => .inl (s.1 ++ [item], t)
    | (t, none) => .inr (s.1, t)
  measure s := items_measure s.2
  decreases := by
    intro s s' h
    split at h
    · rename_i t item hnext
      cases h
      exact next_decreases s.2 t item hnext
    · cases h

/-- Everything the iterator yields, and its state after that. -/
def items (s : NameLabels) : List (Except DnsError (List UInt8)) × NameLabels :=
  items_loop.run ([], s)

section Items

variable {s t : NameLabels} {acc : List (Except DnsError (List UInt8))}

theorem items_loop_of_done (h : s.done = true) : items_loop.run (acc, s) = (acc, s) := by
  apply items_loop.run_inr
  dsimp only [items_loop]
  rw [next_of_done h]

theorem items_loop_follow (h : s.label_step = .inl t) (hd : s.done = false)
    (ht : t.done = false) : items_loop.run (acc, s) = items_loop.run (acc, t) := by
  have hnext : items_loop.step (acc, s) = items_loop.step (acc, t) := by
    dsimp only [items_loop]
    rw [next_of_follow h hd ht]
  cases hst : items_loop.step (acc, t) with
  | inl u => rw [items_loop.run_inl (hnext.trans hst), items_loop.run_inl hst]
  | inr u => rw [items_loop.run_inr (hnext.trans hst), items_loop.run_inr hst]

theorem items_loop_label {label : List UInt8} (hd : s.done = false)
    (h : s.label_step = .inr (t, .ok (some label))) :
    items_loop.run (acc, s) = items_loop.run (acc ++ [.ok label], t) := by
  apply items_loop.run_inl
  dsimp only [items_loop]
  rw [next_of_label hd h]

theorem items_loop_root (hd : s.done = false) (h : s.label_step = .inr (t, .ok none)) :
    items_loop.run (acc, s) = (acc, { t with done := true }) := by
  apply items_loop.run_inr
  dsimp only [items_loop]
  rw [next_of_root hd h]

theorem items_loop_error {error : DnsError} (hd : s.done = false)
    (h : s.label_step = .inr (t, .error error)) :
    items_loop.run (acc, s) = (acc ++ [.error error], { t with done := true }) := by
  have hstep : items_loop.step (acc, s) = .inl (acc ++ [.error error], { t with done := true }) := by
    dsimp only [items_loop]
    rw [next_of_error hd h]
  rw [items_loop.run_inl hstep, items_loop_of_done rfl]

end Items

end NameLabels

end DaeNext.Dns
