/-
Prefix sets in the kernel: `prefix_to_lpm_key` of `resident_routing/maps.rs` on one
side, the addresses that `parse_ipv4` and `parse_ipv6` leave for `set_lpm_key` on
the other.

The kernel keeps both families in one trie of 128-bit keys, IPv4 under
`::ffff:0:0/96`. Userspace keeps them apart. In 128 bits a prefix covers an address
when the two agree on the first bits (`covers_iff`), and inside one family that is
what `IpPrefix::contains` says. Across families it is not: `::/0` covers every IPv4
packet and `10.0.0.0/8` covers `::ffff:10.0.0.1`. So the two sides agree exactly
where no prefix of the other family decides alone.
-/
import DaeNext.EbpfRouting

set_option autoImplicit false

namespace DaeNext.ResidentLpmMaps

open Net RoutingPrefix EbpfRouting Lpm

/-! ## The two sides -/

/-- `Ipv4Addr::to_ipv6_mapped().octets()`. -/
def ipv6_mapped_octets (addr : BitVec 32) : List UInt8 :=
  List.replicate 10 0 ++ [0xff, 0xff] ++ ipv4_octets addr

/-- The key of a prefix. The source copies the octets word by word in native order,
which leaves them as they are. -/
def prefix_to_lpm_key (pfx : IpPrefix) : List UInt8 :=
  match pfx.addr with
  | .V4 addr => Wire.le 4 (pfx.bits + 96) ++ ipv6_mapped_octets addr
  | .V6 addr => Wire.le 4 pfx.bits ++ ipv6_octets addr

/-- How the trie reads a key: a `u32` length, then the data. -/
def lpm_key_from_bytes (key : List UInt8) : Lpm.Key :=
  ⟨Wire.fromLe (key.take 4), key.drop 4⟩

/-- The trie that `create_lpm_map` fills. -/
def create_lpm_map (prefixes : List IpPrefix) : List Lpm.Key :=
  prefixes.map fun pfx => lpm_key_from_bytes (prefix_to_lpm_key pfx)

/-- What `parse_ipv4` writes for an address of the header into a zeroed field. -/
def parse_ipv4_addr (octets : List UInt8) : BpfIpBytes :=
  List.replicate 10 0 ++ [0xff, 0xff] ++ octets

/-- The address field of a parsed packet; `parse_ipv6` copies the sixteen bytes. -/
def packet_ip : IpAddr → BpfIpBytes
  | .V4 addr => parse_ipv4_addr (ipv4_octets addr)
  | .V6 addr => ipv6_octets addr

/-! ## One 128-bit space -/

/-- `::ffff:a.b.c.d`. -/
def mapped (addr : BitVec 32) : BitVec 128 := (0xFFFF#96 ++ addr : BitVec (96 + 32))

/-- An address in 128 bits. -/
def wide : IpAddr → BitVec 128
  | .V4 addr => mapped addr
  | .V6 addr => addr

/-- The length of a prefix in 128 bits. -/
def wide_bits (pfx : IpPrefix) : Nat :=
  match pfx.addr with
  | .V4 _ => 96 + pfx.bits
  | .V6 _ => pfx.bits

theorem getMsbD_mapped (addr : BitVec 32) (i : Nat) :
    (mapped addr).getMsbD i = if 96 ≤ i then addr.getMsbD (i - 96) else (0xFFFF#96).getMsbD i := by
  exact BitVec.getMsbD_append

theorem bit_mapped_octets (addr : BitVec 32) {i : Nat} (hi : i < 128) :
    bit (List.replicate 10 0 ++ [0xff, 0xff] ++ ipv4_octets addr) i = (mapped addr).getMsbD i := by
  rw [getMsbD_mapped]
  -- the address sits in the last four bytes, behind the mapped front
  by_cases h : 96 ≤ i
  · have hright := bit_append_right (List.replicate 10 0 ++ [0xff, 0xff]) (ipv4_octets addr) (i - 96)
    rw [if_pos h, ← bit_be_bytes (n := 4) addr (by omega), ← ipv4_octets, ← hright]
    congr 1
    simp only [List.length_append, List.length_replicate, List.length_cons, List.length_nil]
    omega
  · have hfront : ∀ i < 96, bit (List.replicate 10 0 ++ [0xff, 0xff]) i
        = (0xFFFF#96).getMsbD i := by decide
    rw [if_neg h, bit_append_left _ (by simp; omega)]
    exact hfront i (by omega)

theorem bit_packet_ip (addr : IpAddr) {i : Nat} (hi : i < 128) :
    bit (packet_ip addr) i = (wide addr).getMsbD i := by
  cases addr with
  | V4 addr => exact bit_mapped_octets addr hi
  | V6 addr => exact bit_be_bytes (n := 16) addr hi

theorem lpm_key_from_bytes_append {bits : Nat} (hbits : bits ≤ 128) (data : List UInt8) :
    lpm_key_from_bytes (Wire.le 4 bits ++ data) = ⟨bits, data⟩ := by
  have hread : Wire.fromLe (Wire.le 4 bits) = bits := by
    rw [Wire.fromLe_le, Nat.mod_eq_of_lt (by omega)]
  exact congrArg (Lpm.Key.mk · data) hread

variable (pfx : IpPrefix)

theorem wide_bits_le : wide_bits pfx ≤ 128 := by
  obtain ⟨addr | addr, bits, hbits⟩ := pfx
  · rw [IpAddr.width] at hbits
    simp only [wide_bits]
    omega
  · exact hbits

/-- The key of a prefix has the length and the bits of the prefix in 128 bits. -/
theorem lpm_key_eq_wide :
    lpm_key_from_bytes ( prefix_to_lpm_key pfx) = ⟨wide_bits pfx, packet_ip pfx.addr⟩ := by
  have hle := wide_bits_le pfx
  obtain ⟨addr | addr, bits, hbits⟩ := pfx
  · simp only [wide_bits, Nat.add_comm 96 bits] at hle ⊢
    exact lpm_key_from_bytes_append hle _
  · exact lpm_key_from_bytes_append hle _

/-- **A trie entry matches by agreement in 128 bits.** -/
theorem covers_iff (addr : IpAddr) :
    (lpm_key_from_bytes ( prefix_to_lpm_key pfx)).covers (set_lpm_key (packet_ip addr)) = true
      ↔ PrefixBits.Agree (wide_bits pfx) (wide pfx.addr) (wide addr) := by
  rw [lpm_key_eq_wide, Lpm.Key.covers_iff]
  have hle := wide_bits_le pfx
  constructor
  · rintro ⟨-, h⟩ i hi
    rw [← bit_packet_ip _ (by omega), ← bit_packet_ip _ (by omega)]
    exact h i hi
  · intro h
    refine ⟨hle, fun i (hi : i < wide_bits pfx) => ?_⟩
    rw [set_lpm_key, bit_packet_ip _ (by omega), bit_packet_ip _ (by omega)]
    exact h i hi

theorem agree_mapped_iff (bits : Nat) (p a : BitVec 32) :
    PrefixBits.Agree (96 + bits) (mapped p) (mapped a) ↔ PrefixBits.Agree bits p a := by
  constructor
  · intro h i hi
    have := h (96 + i) (by omega)
    rwa [getMsbD_mapped, getMsbD_mapped, if_pos (by omega), if_pos (by omega),
      Nat.add_sub_cancel_left] at this
  · intro h i hi
    rw [getMsbD_mapped, getMsbD_mapped]
    by_cases h96 : 96 ≤ i
    · rw [if_pos h96, if_pos h96]
      exact h (i - 96) (by omega)
    · rw [if_neg h96, if_neg h96]

/-! ## Agreement -/

/-- A prefix of the other family that covers the address in 128 bits. -/
def covers_across (pfx : IpPrefix) (addr : IpAddr) : Prop :=
  pfx.addr.is_ipv4 ≠ addr.is_ipv4
    ∧ PrefixBits.Agree (wide_bits pfx) (wide pfx.addr) (wide addr)

/-- In 128 bits a prefix covers what it contains, and what it covers across. -/
theorem agree_wide_iff (addr : IpAddr) :
    PrefixBits.Agree (wide_bits pfx) (wide pfx.addr) (wide addr)
      ↔ pfx.contains addr = true ∨ covers_across pfx addr := by
  -- two cases of one family each; across the families `contains` is false
  obtain ⟨p | p, bits, hbits⟩ := pfx <;> cases addr with
  | V4 a => ?_
  | V6 a => ?_
  · have hcontains : (IpPrefix.mk (.V4 p) bits hbits).contains (.V4 a) = true
        ↔ PrefixBits.Agree bits p a := prefix_contains_iff hbits p a
    simp [covers_across, hcontains, wide_bits, wide, agree_mapped_iff]
  · simp [covers_across, IpPrefix.contains, IpAddr.is_ipv4]
  · simp [covers_across, IpPrefix.contains, IpAddr.is_ipv4]
  · have hcontains : (IpPrefix.mk (.V6 p) bits hbits).contains (.V6 a) = true
        ↔ PrefixBits.Agree bits p a := prefix_contains_iff hbits p a
    simp [covers_across, hcontains, wide_bits, wide]

/-- **Where kernel and userspace agree on a prefix set**: whenever a prefix of the
other family covers the address, one of its own contains it. -/
theorem shared_contains_iff_lpm_lookup (prefixes : List IpPrefix) (addr : IpAddr) :
    ((SharedIpPrefixSet.new prefixes).contains addr = true
        ↔ Lpm.lookup (create_lpm_map prefixes) (set_lpm_key (packet_ip addr)) = true)
      ↔ ((∃ pfx ∈ prefixes, covers_across pfx addr) → ∃ pfx ∈ prefixes, pfx.contains addr = true) := by
  have hlookup : lookup (create_lpm_map prefixes) (set_lpm_key (packet_ip addr)) = true
      ↔ (∃ pfx ∈ prefixes, pfx.contains addr = true) ∨ ∃ pfx ∈ prefixes, covers_across pfx addr := by
    rw [lookup, create_lpm_map, List.any_map, List.any_eq_true]
    simp only [Function.comp_apply, covers_iff, agree_wide_iff]
    constructor
    · rintro ⟨pfx, hmem, h | h⟩
      · exact .inl ⟨pfx, hmem, h⟩
      · exact .inr ⟨pfx, hmem, h⟩
    · rintro (⟨pfx, hmem, h⟩ | ⟨pfx, hmem, h⟩)
      · exact ⟨pfx, hmem, .inl h⟩
      · exact ⟨pfx, hmem, .inr h⟩
  rw [hlookup, SharedIpPrefixSet.contains_eq, List.any_eq_true]
  constructor
  · intro hiff hacross
    exact hiff.mpr (.inr hacross)
  · intro hown
    exact ⟨.inl, fun h => h.elim id hown⟩

/-- The set `{::/0}` and the packet address 1.2.3.4: found in the trie, not contained
in the set. -/
theorem lpm_lookup_crosses_families :
    (SharedIpPrefixSet.new [⟨.V6 0, 0, by decide⟩]).contains (.V4 0x01020304) = false
      ∧ Lpm.lookup (create_lpm_map [⟨.V6 0, 0, by decide⟩])
          (set_lpm_key (packet_ip (.V4 0x01020304))) = true := by
  decide

end DaeNext.ResidentLpmMaps
