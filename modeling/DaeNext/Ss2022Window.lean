/-
The replay window of Shadowsocks 2022 UDP packets.

`SlidingWindowFilter` keeps the highest packet id it has accepted and a bit for each of the
`window_size` ids that end there. What it means is a set, that of the ids accepted so far: `Tracks`
relates the two, every call of `check_and_update` keeps them related, and so a filter decides
like the set after any sequence of ids.
-/
import DaeNext.LibBitWindow

set_option autoImplicit false

namespace DaeNext.Ss2022

open List BitWindow
open BitWindow (bit)

def UDP_REPLAY_WINDOW_SIZE : Nat := 4096

/-- `latest` means something from the first id on. -/
structure SlidingWindowFilter where
  window_size : Nat
  latest : UInt64
  seen : List (BitVec 64)
  init : Bool
  deriving DecidableEq, Repr

namespace SlidingWindowFilter

def effective_size (window_size : Nat) : Nat :=
  if window_size = 0 then UDP_REPLAY_WINDOW_SIZE else window_size

def new (window_size : Nat) : SlidingWindowFilter where
  window_size := effective_size window_size
  latest := 0
  seen := List.replicate ((effective_size window_size + 63) / 64) 0#64
  init := false

def is_seen (self : SlidingWindowFilter) (offset : Nat) : Bool := BitWindow.test self.seen offset

def set_seen (self : SlidingWindowFilter) (offset : Nat) : SlidingWindowFilter :=
  { self with seen := BitWindow.set self.seen offset }

def clear_unused_bits (self : SlidingWindowFilter) : SlidingWindowFilter :=
  let used_bits := self.window_size % 64
  if used_bits = 0 then self else { self with seen := BitWindow.mask_last self.seen used_bits }

def shift_seen (self : SlidingWindowFilter) (shift : Nat) : SlidingWindowFilter :=
  clear_unused_bits { self with seen := BitWindow.shift self.seen shift }

/-- The bitmap for a higher id, `shift` above the latest one. -/
def advance (self : SlidingWindowFilter) (shift : Nat) : SlidingWindowFilter :=
  if self.window_size ≤ shift then { self with seen := List.replicate self.seen.length 0#64 }
  else self.shift_seen shift

def check_and_update (self : SlidingWindowFilter) (packet_id : UInt64) : Bool × SlidingWindowFilter :=
  if self.init = false then
    (true, set_seen { self with latest := packet_id, init := true } 0)
  else if self.latest < packet_id then
    (true, set_seen { self.advance (packet_id - self.latest).toNat with latest := packet_id } 0)
  else
    let offset := (self.latest - packet_id).toNat
    if self.window_size ≤ offset ∨ self.is_seen offset then (false, self)
    else (true, self.set_seen offset)

/-! ## The set of accepted ids -/

/-- What is to be accepted: an id that was not, and is not older than the window measured from the
highest one. -/
def Fresh (window_size : Nat) (accepted : List UInt64) (packet_id : UInt64) : Prop :=
  packet_id ∉ accepted ∧ ∀ highest ∈ accepted, (∀ id ∈ accepted, id ≤ highest) →
    highest.toNat - packet_id.toNat < window_size

/-- The filter after the ids in `accepted`. -/
structure Tracks (filter : SlidingWindowFilter) (accepted : List UInt64) : Prop where
  window_pos : 0 < filter.window_size
  length_eq : filter.seen.length = (filter.window_size + 63) / 64
  init_iff : filter.init = true ↔ accepted ≠ []
  latest_mem : accepted ≠ [] → filter.latest ∈ accepted
  le_latest : ∀ id ∈ accepted, id.toNat ≤ filter.latest.toNat
  bit_iff : ∀ i < filter.window_size,
    bit filter.seen i = true ↔ ∃ id ∈ accepted, id.toNat + i = filter.latest.toNat

variable (window_size : Nat)

theorem tracks_new : Tracks (new window_size) [] := by
  have hpos : 0 < effective_size window_size := by
    rw [effective_size]
    split_ifs with h
    · decide
    · exact Nat.pos_of_ne_zero h
  refine
    { window_pos := hpos
      length_eq := length_replicate
      init_iff := ⟨nofun, fun h => absurd rfl h⟩
      latest_mem := fun h => absurd rfl h
      le_latest := nofun
      bit_iff := ?_ }
  intro i _
  rw [new, bit_replicate_zero]
  exact ⟨nofun, fun ⟨id, hid, _⟩ => (by cases hid)⟩

section

variable {self : SlidingWindowFilter} {accepted : List UInt64} (h : Tracks self accepted)

include h

theorem Tracks.word_lt {i : Nat} (hi : i < self.window_size) : i / 64 < self.seen.length := by
  rw [h.length_eq]
  omega

theorem Tracks.fresh_iff (hne : accepted ≠ []) (packet_id : UInt64) :
    Fresh self.window_size accepted packet_id ↔
      packet_id ∉ accepted ∧ self.latest.toNat - packet_id.toNat < self.window_size := by
  have hhigh : ∀ id ∈ accepted, id ≤ self.latest :=
    fun id hid => UInt64.le_iff_toNat_le.mpr (h.le_latest id hid)
  constructor
  · rintro ⟨hnew, hwindow⟩
    exact ⟨hnew, hwindow self.latest (h.latest_mem hne) hhigh⟩
  · rintro ⟨hnew, hwindow⟩
    refine ⟨hnew, ?_⟩
    intro highest hmem hall
    have hle := h.le_latest highest hmem
    omega

/-! ## One call -/

theorem Tracks.bit_advance (shift : Nat) {i : Nat} (hi : i < self.window_size) :
    bit (self.advance shift).seen i = (decide (shift ≤ i) && bit self.seen (i - shift)) := by
  rw [advance]
  split_ifs with hfar
  · rw [bit_replicate_zero, decide_eq_false (by omega), Bool.false_and]
  · have hlen := h.length_eq
    rw [← bit_shift shift (h.word_lt hi), shift_seen, clear_unused_bits]
    dsimp only
    split_ifs with hused
    · rfl
    · have hlt : self.window_size % 64 < 64 := Nat.mod_lt _ (by decide)
      apply bit_mask_last hlt
      · rw [length_shift, hlen]
        omega
      · rw [length_shift, hlen]
        omega

omit h in
theorem advance_frame (self : SlidingWindowFilter) (shift : Nat) :
    (self.advance shift).window_size = self.window_size ∧ (self.advance shift).init = self.init ∧
      (self.advance shift).seen.length = self.seen.length := by
  rw [advance]
  split_ifs with hfar
  · exact ⟨rfl, rfl, length_replicate⟩
  · rw [shift_seen, clear_unused_bits]
    split_ifs with hused
    · exact ⟨rfl, rfl, length_shift _ _⟩
    · refine ⟨rfl, rfl, ?_⟩
      rw [mask_last, length_modify, length_shift]

omit h in
theorem Tracks.first (h : Tracks self []) (packet_id : UInt64) :
    Tracks (set_seen { self with latest := packet_id, init := true } 0) [packet_id] := by
  refine
    { window_pos := h.window_pos
      length_eq := by rw [set_seen, BitWindow.set, length_modify]; exact h.length_eq
      init_iff := ⟨fun _ => cons_ne_nil _ _, fun _ => rfl⟩
      latest_mem := fun _ => mem_cons_self
      le_latest := ?_
      bit_iff := ?_ }
  · intro id hid
    rw [mem_singleton.mp hid]
    exact le_rfl
  · intro i hi
    have hzero : bit self.seen i = false := by
      rw [Bool.eq_false_iff]
      intro hbit
      obtain ⟨id, hid, -⟩ := (h.bit_iff i hi).mp hbit
      cases hid
    change bit (BitWindow.set self.seen 0) i = true ↔ _
    rw [bit_set (h.word_lt h.window_pos), hzero, Bool.false_or, decide_eq_true_iff]
    constructor
    · rintro rfl
      exact ⟨packet_id, mem_cons_self, rfl⟩
    · rintro ⟨id, hid, heq⟩
      rw [mem_singleton.mp hid] at heq
      change packet_id.toNat + i = packet_id.toNat at heq
      omega

variable {packet_id : UInt64}

theorem Tracks.higher (hinit : self.init = true)
    (hlt : self.latest.toNat < packet_id.toNat) {shift : Nat}
    (hshift : self.latest.toNat + shift = packet_id.toNat) :
    Tracks (set_seen { self.advance shift with latest := packet_id } 0) (packet_id :: accepted) := by
  obtain ⟨hwindow, hsame, hlength⟩ := advance_frame self shift
  refine
    { window_pos := by rw [set_seen, hwindow]; exact h.window_pos
      length_eq := ?_
      init_iff := ⟨fun _ => cons_ne_nil _ _, fun _ => hsame.trans hinit⟩
      latest_mem := fun _ => mem_cons_self
      le_latest := ?_
      bit_iff := ?_ }
  · rw [set_seen, BitWindow.set, length_modify, hlength, hwindow]
    exact h.length_eq
  · intro id hid
    change id.toNat ≤ packet_id.toNat
    rcases mem_cons.mp hid with rfl | hid
    · exact le_rfl
    · have := h.le_latest id hid
      omega
  · intro i hi
    rw [set_seen, hwindow] at hi
    change bit (BitWindow.set (self.advance shift).seen 0) i = true ↔
      ∃ id ∈ packet_id :: accepted, id.toNat + i = packet_id.toNat
    rw [bit_set (by rw [hlength]; exact h.word_lt h.window_pos), h.bit_advance shift hi,
      Bool.or_eq_true, Bool.and_eq_true, decide_eq_true_iff, decide_eq_true_iff]
    constructor
    · rintro (⟨hge, hbit⟩ | rfl)
      · obtain ⟨id, hid, heq⟩ := (h.bit_iff (i - shift) (by omega)).mp hbit
        exact ⟨id, mem_cons_of_mem _ hid, by omega⟩
      · exact ⟨packet_id, mem_cons_self, rfl⟩
    · rintro ⟨id, hid, heq⟩
      rcases mem_cons.mp hid with rfl | hid
      · exact Or.inr (by omega)
      · -- an id accepted before is at most the old latest one
        have hle := h.le_latest id hid
        refine Or.inl ⟨by omega, (h.bit_iff (i - shift) (by omega)).mpr ⟨id, hid, by omega⟩⟩

theorem Tracks.inside (hne : accepted ≠ []) {offset : Nat}
    (hoffset : packet_id.toNat + offset = self.latest.toNat) (hlt : offset < self.window_size) :
    Tracks (self.set_seen offset) (packet_id :: accepted) := by
  refine
    { window_pos := h.window_pos
      length_eq := by rw [set_seen, BitWindow.set, length_modify]; exact h.length_eq
      init_iff := ⟨fun _ => cons_ne_nil _ _, fun _ => h.init_iff.mpr hne⟩
      latest_mem := fun _ => mem_cons_of_mem _ (h.latest_mem hne)
      le_latest := ?_
      bit_iff := ?_ }
  · intro id hid
    change id.toNat ≤ self.latest.toNat
    rcases mem_cons.mp hid with rfl | hid
    · omega
    · exact h.le_latest id hid
  · intro i hi
    change bit (BitWindow.set self.seen offset) i = true ↔
      ∃ id ∈ packet_id :: accepted, id.toNat + i = self.latest.toNat
    rw [bit_set (h.word_lt hlt), Bool.or_eq_true, h.bit_iff i hi, decide_eq_true_iff]
    constructor
    · rintro (⟨id, hid, heq⟩ | rfl)
      · exact ⟨id, mem_cons_of_mem _ hid, heq⟩
      · exact ⟨packet_id, mem_cons_self, hoffset⟩
    · rintro ⟨id, hid, heq⟩
      rcases mem_cons.mp hid with rfl | hid
      · exact Or.inr (by omega)
      · exact Or.inl ⟨id, hid, heq⟩

theorem Tracks.is_seen_iff {offset : Nat}
    (hoffset : packet_id.toNat + offset = self.latest.toNat) (hlt : offset < self.window_size) :
    self.is_seen offset = true ↔ packet_id ∈ accepted := by
  rw [is_seen, test_eq_bit, h.bit_iff offset hlt]
  constructor
  · rintro ⟨id, hid, heq⟩
    have hsame : id = packet_id := UInt64.toNat_inj.mp (by omega)
    rw [← hsame]
    exact hid
  · intro hmem
    exact ⟨packet_id, hmem, hoffset⟩

/-- A call accepts a fresh id and remembers it, and leaves the filter as it is otherwise. -/
theorem Tracks.check_and_update (packet_id : UInt64) :
    ((self.check_and_update packet_id).1 = true ∧ Fresh self.window_size accepted packet_id ∧
      Tracks (self.check_and_update packet_id).2 (packet_id :: accepted)) ∨
    (self.check_and_update packet_id = (false, self) ∧
      ¬Fresh self.window_size accepted packet_id) := by
  rw [SlidingWindowFilter.check_and_update]
  by_cases hinit : self.init = false
  · rw [if_pos hinit]
    have hnil : accepted = [] := by
      by_contra hne
      rw [h.init_iff.mpr hne] at hinit
      cases hinit
    rw [hnil] at h ⊢
    exact Or.inl ⟨rfl, ⟨not_mem_nil, nofun⟩, h.first packet_id⟩
  rw [if_neg hinit]
  have hinit := Bool.not_eq_false _ ▸ hinit
  have hne := h.init_iff.mp hinit
  by_cases hlt : self.latest < packet_id
  · rw [if_pos hlt]
    have hlt' : self.latest.toNat < packet_id.toNat := UInt64.lt_iff_toNat_lt.mp hlt
    have hsub := UInt64.toNat_sub_of_le _ _ (UInt64.le_of_lt hlt)
    refine Or.inl ⟨rfl, (h.fresh_iff hne packet_id).mpr ⟨?_, ?_⟩, h.higher hinit hlt' (by omega)⟩
    · intro hmem
      have := h.le_latest packet_id hmem
      omega
    · have := h.window_pos
      omega
  · rw [if_neg hlt]
    have hle : packet_id ≤ self.latest := UInt64.not_lt.mp hlt
    have hsub := UInt64.toNat_sub_of_le _ _ hle
    have hle' : packet_id.toNat ≤ self.latest.toNat := UInt64.le_iff_toNat_le.mp hle
    have hoffset : packet_id.toNat + (self.latest - packet_id).toNat = self.latest.toNat := by omega
    by_cases hold : self.window_size ≤ (self.latest - packet_id).toNat
    · rw [if_pos (Or.inl hold)]
      refine Or.inr ⟨rfl, fun hfresh => ?_⟩
      have := ((h.fresh_iff hne packet_id).mp hfresh).2
      omega
    · have hin : (self.latest - packet_id).toNat < self.window_size := by omega
      by_cases hseen : self.is_seen (self.latest - packet_id).toNat = true
      · rw [if_pos (Or.inr hseen)]
        exact Or.inr ⟨rfl, fun hfresh => hfresh.1 ((h.is_seen_iff hoffset hin).mp hseen)⟩
      · rw [if_neg (fun hor => hor.elim hold hseen)]
        refine Or.inl ⟨rfl, (h.fresh_iff hne packet_id).mpr ⟨?_, by omega⟩, h.inside hne hoffset hin⟩
        exact fun hmem => hseen ((h.is_seen_iff hoffset hin).mpr hmem)

end

/-! ## Any sequence of ids -/

/-- The ids accepted so far, and the filter. -/
def observe (s : List UInt64 × SlidingWindowFilter) (packet_id : UInt64) :
    List UInt64 × SlidingWindowFilter :=
  let (accepted, filter) := s
  let (ok, filter) := filter.check_and_update packet_id
  (if ok then packet_id :: accepted else accepted, filter)

def run (window_size : Nat) (packet_ids : List UInt64) : List UInt64 × SlidingWindowFilter :=
  packet_ids.foldl observe ([], new window_size)

/-- What holds after every id: the filter tracks what was accepted, each id once. -/
structure Sound (window_size : Nat) (s : List UInt64 × SlidingWindowFilter) : Prop where
  tracks : Tracks s.2 s.1
  window_eq : s.2.window_size = effective_size window_size
  nodup : s.1.Nodup

theorem window_size_check_and_update (self : SlidingWindowFilter) (packet_id : UInt64) :
    (self.check_and_update packet_id).2.window_size = self.window_size := by
  rw [check_and_update]
  dsimp only
  split_ifs with hinit hlt hold
  · rfl
  · exact (advance_frame self _).1
  · rfl
  · rfl

theorem Sound.observe {window_size : Nat} {s : List UInt64 × SlidingWindowFilter}
    (h : Sound window_size s) (packet_id : UInt64) : Sound window_size (observe s packet_id) := by
  obtain ⟨accepted, filter⟩ := s
  have hwindow := window_size_check_and_update filter packet_id
  rw [SlidingWindowFilter.observe]
  rcases h.tracks.check_and_update packet_id with ⟨hok, hfresh, htracks⟩ | ⟨heq, -⟩
  · rcases hcheck : filter.check_and_update packet_id with ⟨ok, filter'⟩
    rw [hcheck] at hok htracks hwindow
    obtain rfl : ok = true := hok
    exact ⟨htracks, hwindow.trans h.window_eq, nodup_cons.mpr ⟨hfresh.1, h.nodup⟩⟩
  · rw [show filter.check_and_update packet_id = (false, filter) from heq]
    exact h

theorem sound_run (packet_ids : List UInt64) : Sound window_size (run window_size packet_ids) := by
  have hfold : ∀ (ids : List UInt64) (s : List UInt64 × SlidingWindowFilter),
      Sound window_size s → Sound window_size (ids.foldl SlidingWindowFilter.observe s) := by
    intro ids
    induction ids with
    | nil => exact fun s h => h
    | cons id ids ih => exact fun s h => ih _ (h.observe id)
  exact hfold packet_ids _ ⟨tracks_new window_size, rfl, nodup_nil⟩

/-- After any ids a filter of any size accepts just the fresh ones, and no id was accepted twice. -/
theorem check_and_update_iff_fresh (packet_ids : List UInt64) (packet_id : UInt64) :
    (((run window_size packet_ids).2.check_and_update packet_id).1 = true ↔
      Fresh (effective_size window_size) (run window_size packet_ids).1 packet_id) ∧
    (run window_size packet_ids).1.Nodup := by
  have hsound := sound_run window_size packet_ids
  refine ⟨?_, hsound.nodup⟩
  rw [← hsound.window_eq]
  rcases hsound.tracks.check_and_update packet_id with ⟨hok, hfresh, -⟩ | ⟨heq, hstale⟩
  · exact ⟨fun _ => hfresh, fun _ => hok⟩
  · rw [heq]
    exact ⟨nofun, fun h => absurd h hstale⟩

end SlidingWindowFilter

end DaeNext.Ss2022
