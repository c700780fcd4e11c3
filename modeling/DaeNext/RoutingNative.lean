/-
Native routing plans, `dae-runtime-control/src/routing_native.rs`.

A plan is the entries of the routing map and the LPM tries to build. `checksum` hashes
it for change detection: a plan with the checksum of the last one is not written again.
The hash is a parameter, what matters here is the bytes it is given.

The bytes start with the number of entries and the number of tries, but the number of
entries of each trie is not among them. The tries are then read back in only one way
when those numbers are known (`lpm_spec_framed`), and otherwise an entry may read
as the header of the next trie.
-/
import DaeNext.EbpfRouting

set_option autoImplicit false

namespace DaeNext.RoutingNative

open RoutingPlan EbpfRouting Wire

def MAX_LPM_ARRAY_ENTRIES : Nat := MAX_MATCH_SET_LEN + 8

/-! ## Plans -/

structure BpfLpmKey where
  prefix_len : UInt32
  data : Vector UInt32 4
  deriving DecidableEq

structure LpmMapEntry where
  key : BpfLpmKey
  value : UInt32
  deriving DecidableEq

structure LpmMapBuildSpec where
  index : UInt32
  flags : UInt32
  max_entries : UInt32
  key_size : UInt32
  value_size : UInt32
  entries : List LpmMapEntry
  deriving DecidableEq

/-- The value of a match set is an array of sixteen bytes. -/
structure RoutingMapEntry where
  index : UInt32
  value : BpfMatchSet
  full : value.value.length = 16
  deriving DecidableEq

@[ext] structure RoutingNativeBuildPlan where
  routing_entries : List RoutingMapEntry := []
  lpm_maps : List LpmMapBuildSpec := []
  deriving DecidableEq

inductive RoutingNativePlanError where
  | InvalidLpmSpec (index : UInt32) (field : String) (got want : Nat)
  | LpmArrayOverflow (got max : Nat)
  | RoutingMapOverflow (got max : Nat)
  | NonContiguousRoutingIndex (position : Nat) (index : UInt32)
  | MissingFallback
  | FallbackNotLast
  deriving DecidableEq

/-- `size_of::<BpfLpmKey>()`. -/
def LPM_KEY_SIZE : UInt32 := 20

/-- `size_of::<u32>()`. -/
def LPM_VALUE_SIZE : UInt32 := 4

/-- The first entry that is not at its index. -/
def check_routing_indices : (position : Nat) → List RoutingMapEntry →
    Except RoutingNativePlanError Unit
  | _, [] => .ok ()
  | position, entry :: entries =>
    if entry.index.toNat ≠ position then .error (.NonContiguousRoutingIndex position entry.index)
    else check_routing_indices (position + 1) entries

def check_lpm_spec (spec : LpmMapBuildSpec) : Except RoutingNativePlanError Unit :=
  if MAX_LPM_ARRAY_ENTRIES ≤ spec.index.toNat then
    .error (.LpmArrayOverflow (spec.index.toNat + 1) MAX_LPM_ARRAY_ENTRIES)
  else if spec.key_size ≠ LPM_KEY_SIZE then
    .error (.InvalidLpmSpec spec.index "key_size" spec.key_size.toNat LPM_KEY_SIZE.toNat)
  else if spec.value_size ≠ LPM_VALUE_SIZE then
    .error (.InvalidLpmSpec spec.index "value_size" spec.value_size.toNat LPM_VALUE_SIZE.toNat)
  else if spec.max_entries = 0 then .error (.InvalidLpmSpec spec.index "max_entries" 0 1)
  else if spec.max_entries.toNat < spec.entries.length then
    .error (.InvalidLpmSpec spec.index "entries" spec.entries.length spec.max_entries.toNat)
  else
    match spec.entries.find? fun entry => BPF_LPM_FULL_PREFIX_BITS < entry.key.prefix_len.toNat with
    | some entry =>
      .error (.InvalidLpmSpec spec.index "prefix_len" entry.key.prefix_len.toNat
        BPF_LPM_FULL_PREFIX_BITS)
    | none => .ok ()

def check_lpm_specs : List LpmMapBuildSpec → Except RoutingNativePlanError Unit
  | [] => .ok ()
  | spec :: specs =>
    match check_lpm_spec spec with
    | .error err => .error err
    | .ok () => check_lpm_specs specs

def RoutingNativeBuildPlan.validate (self : RoutingNativeBuildPlan) :
    Except RoutingNativePlanError Unit :=
  if self.routing_entries.isEmpty then .error .MissingFallback
  else if MAX_MATCH_SET_LEN < self.routing_entries.length then
    .error (.RoutingMapOverflow self.routing_entries.length MAX_MATCH_SET_LEN)
  else if MAX_LPM_ARRAY_ENTRIES < self.lpm_maps.length then
    .error (.LpmArrayOverflow self.lpm_maps.length MAX_LPM_ARRAY_ENTRIES)
  else
    match check_routing_indices 0 self.routing_entries with
    | .error err => .error err
    | .ok () =>
      match self.routing_entries.getLast? with
      | none => .error .MissingFallback
      | some last =>
        if last.value.kind ≠ MATCH_TYPE_FALLBACK then .error .FallbackNotLast
        else check_lpm_specs self.lpm_maps

/-! ## The checksum -/

def routing_entry_bytes (entry : RoutingMapEntry) : List UInt8 :=
  Wire.le 4 entry.index.toNat
    ++ [entry.value.kind, entry.value.outbound, entry.value.not, entry.value.must]
    ++ Wire.le 4 entry.value.mark.toNat
    ++ entry.value.value

def lpm_entry_bytes (entry : LpmMapEntry) : List UInt8 :=
  Wire.le 4 entry.key.prefix_len.toNat
    ++ Wire.le 4 entry.value.toNat
    ++ entry.key.data.toList.flatMap fun word => Wire.le 4 word.toNat

def lpm_spec_bytes (spec : LpmMapBuildSpec) : List UInt8 :=
  Wire.le 4 spec.index.toNat
    ++ Wire.le 4 spec.flags.toNat
    ++ Wire.le 4 spec.max_entries.toNat
    ++ Wire.le 4 spec.key_size.toNat
    ++ Wire.le 4 spec.value_size.toNat
    -- the number of entries is not among the fields
    ++ spec.entries.flatMap lpm_entry_bytes

/-- What `checksum` feeds to the hasher. -/
def RoutingNativeBuildPlan.checksum_bytes (self : RoutingNativeBuildPlan) : List UInt8 :=
  Wire.le 8 self.routing_entries.length
    ++ Wire.le 8 self.lpm_maps.length
    ++ self.routing_entries.flatMap routing_entry_bytes
    ++ self.lpm_maps.flatMap lpm_spec_bytes

def RoutingNativeBuildPlan.checksum {η : Type} (hash : List UInt8 → η)
    (self : RoutingNativeBuildPlan) : η :=
  hash self.checksum_bytes

/-! ## Reading the bytes back -/

theorem routing_entry_framed : Wire.Framed (fun _ => ()) routing_entry_bytes := by
  rintro ⟨i, ⟨value, nt, kind, outbound, must, mark⟩, hfull⟩
    ⟨i', ⟨value', nt', kind', outbound', must', mark'⟩, hfull'⟩ u v - heq
  simp only [routing_entry_bytes, List.append_assoc] at heq
  obtain ⟨rfl, h₁⟩ := u32_append_inj heq
  simp only [List.cons_append, List.nil_append, List.cons.injEq] at h₁
  obtain ⟨rfl, rfl, rfl, rfl, h₂⟩ := h₁
  obtain ⟨rfl, h₃⟩ := u32_append_inj h₂
  obtain ⟨rfl, rfl⟩ := List.append_inj h₃ (hfull.trans hfull'.symm)
  exact ⟨rfl, rfl⟩

theorem word_framed : Wire.Framed (fun _ => ()) fun word : UInt32 => le 4 word.toNat :=
  fun _ _ _ _ _ heq => u32_append_inj heq

theorem lpm_entry_framed : Wire.Framed (fun _ => ()) lpm_entry_bytes := by
  rintro ⟨⟨len, data⟩, value⟩ ⟨⟨len', data'⟩, value'⟩ u v - heq
  obtain ⟨rfl, h₁⟩ := u32_append_inj heq
  obtain ⟨rfl, h₂⟩ := u32_append_inj h₁
  -- four words on both sides
  obtain ⟨hdata, rfl⟩ := word_framed.flatMap_of_length data.toList data'.toList u v (by simp) h₂
  obtain rfl := Vector.toList_inj.mp hdata
  exact ⟨rfl, rfl⟩

theorem lpm_spec_framed :
    Wire.Framed (fun spec : LpmMapBuildSpec => spec.entries.length) lpm_spec_bytes := by
  rintro ⟨index, flags, max, ksize, vsize, entries⟩ ⟨index', flags', max', ksize', vsize', entries'⟩
    u v hcount heq
  obtain ⟨rfl, h₁⟩ := u32_append_inj heq
  obtain ⟨rfl, h₂⟩ := u32_append_inj h₁
  obtain ⟨rfl, h₃⟩ := u32_append_inj h₂
  obtain ⟨rfl, h₄⟩ := u32_append_inj h₃
  obtain ⟨rfl, h₅⟩ := u32_append_inj h₄
  obtain ⟨rfl, rfl⟩ := lpm_entry_framed.flatMap_of_length entries entries' u v hcount h₅
  exact ⟨rfl, rfl⟩

def lpm_entry_counts (plan : RoutingNativeBuildPlan) : List Nat :=
  plan.lpm_maps.map fun spec => spec.entries.length

theorem validate_lengths {plan : RoutingNativeBuildPlan} (h : plan.validate = .ok ()) :
    plan.routing_entries.length ≤ MAX_MATCH_SET_LEN ∧ plan.lpm_maps.length ≤ MAX_LPM_ARRAY_ENTRIES := by
  unfold RoutingNativeBuildPlan.validate at h
  -- only the branch past the three limits is left
  split_ifs at h with hempty hrouting hlpm
  exact ⟨by omega, by omega⟩

/-- **The bytes determine the plan up to the split of entries over the tries.** -/
theorem eq_iff_lpm_entry_counts_of_checksum_bytes {p q : RoutingNativeBuildPlan}
    (hp : p.validate = .ok ()) (hq : q.validate = .ok ()) (hbytes : p.checksum_bytes = q.checksum_bytes) :
    p = q ↔ lpm_entry_counts p = lpm_entry_counts q := by
  constructor
  · rintro rfl
    rfl
  · intro hcounts
    -- both counts fit their eight bytes
    have hmax : MAX_MATCH_SET_LEN < 256 ^ 8 ∧ MAX_LPM_ARRAY_ENTRIES < 256 ^ 8 := by decide
    obtain ⟨hpr, hpl⟩ := validate_lengths hp
    obtain ⟨hqr, hql⟩ := validate_lengths hq
    simp only [RoutingNativeBuildPlan.checksum_bytes, List.append_assoc] at hbytes
    obtain ⟨hlen, h₁⟩ := le_append_inj (by omega) (by omega) hbytes
    obtain ⟨-, h₂⟩ := le_append_inj (by omega) (by omega) h₁
    obtain ⟨hentries, h₃⟩ := routing_entry_framed.flatMap_of_length _ _ _ _ hlen h₂
    -- here the counts are needed: the bytes do not say where a trie ends
    obtain ⟨hspecs, -⟩ := lpm_spec_framed.flatMap p.lpm_maps q.lpm_maps [] [] hcounts
      (by simpa only [List.append_nil] using h₃)
    exact RoutingNativeBuildPlan.ext hentries hspecs

/-- A plan with one fallback and the given tries. -/
def fallback_plan (lpm_maps : List LpmMapBuildSpec) : RoutingNativeBuildPlan where
  routing_entries :=
    [⟨0, { value := List.replicate 16 0, not := 0, kind := MATCH_TYPE_FALLBACK, outbound := 0,
           must := 0, mark := 0 }, rfl⟩]
  lpm_maps := lpm_maps

def lpm_spec (index : UInt32) (entries : List LpmMapEntry) : LpmMapBuildSpec where
  index := index
  flags := 1
  max_entries := 2048000
  key_size := LPM_KEY_SIZE
  value_size := LPM_VALUE_SIZE
  entries := entries

/-- The second of two tries has the one entry, for a prefix of length 64. -/
def entry_in_second : RoutingNativeBuildPlan :=
  fallback_plan [lpm_spec 0 [], lpm_spec 1 [⟨⟨64, #v[1, 2048000, 20, 4]⟩, 1⟩]]

/-- The first of two tries has the one entry, for a prefix of length 1. -/
def entry_in_first : RoutingNativeBuildPlan :=
  fallback_plan [lpm_spec 0 [⟨⟨1, #v[2048000, 20, 4, 64]⟩, 1⟩], lpm_spec 1 []]

theorem eq_iff_lpm_entry_counts_of_checksum_bytes_split :
    (entry_in_second = entry_in_first
        ↔ lpm_entry_counts entry_in_second = lpm_entry_counts entry_in_first)
      ∧ (entry_in_second = entry_in_second
        ↔ lpm_entry_counts entry_in_second = lpm_entry_counts entry_in_second) :=
  ⟨eq_iff_lpm_entry_counts_of_checksum_bytes (by decide) (by decide) (by decide),
    eq_iff_lpm_entry_counts_of_checksum_bytes (by decide) (by decide) rfl⟩

/-- The entry of one plan is the header of the other. -/
theorem checksum_bytes_collide :
    entry_in_second.validate = .ok () ∧ entry_in_first.validate = .ok ()
      ∧ entry_in_second.checksum_bytes = entry_in_first.checksum_bytes
      ∧ entry_in_second ≠ entry_in_first := by
  decide

end DaeNext.RoutingNative
