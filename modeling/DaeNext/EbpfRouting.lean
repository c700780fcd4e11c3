/-
The routing loop of the eBPF program, `dae-ebpf-program/src/routing.rs`.

`route` walks the match sets of the routing map with `bpf_loop`. The state of the
walk is one byte of four flags, plus one word of the destination's domain bitmap
so that neighbouring domain rules share a lookup. The maps are what the lookups
of the helpers answer; a null pointer is `none`.

The callback is in three parts here, as it is in the source: the test of the match
set, which is skipped while the flags already settle it and may end the walk with
an error; the end of a subrule; the end of a rule.
-/
import DaeNext.LibLpm
import DaeNext.RoutingPlan

set_option autoImplicit false

namespace DaeNext.EbpfRouting

open RoutingPlan

def OUTBOUND_MUST_RULES : UInt8 := 0xfc
def OUTBOUND_CONTROL_PLANE_ROUTING : UInt8 := 0xfd
def OUTBOUND_LOGICAL_OR : UInt8 := 0xfe
def OUTBOUND_LOGICAL_MASK : UInt8 := 0xfe

def L4_PROTO_TCP_MATCH : UInt32 := 1
def L4_PROTO_UDP_MATCH : UInt32 := 2

def ROUTE_BAD_RULE : UInt8 := 1
def ROUTE_GOOD_SUBRULE : UInt8 := 2
def ROUTE_MUST : UInt8 := 4
def ROUTE_IS_DNS : UInt8 := 8
def DNS_DEFAULT_PORT : UInt16 := 53

def EFAULT : Int := 14
def EINVAL : Int := 22
def ENOEXEC : Int := 8
def EPERM : Int := 1
def E2BIG : Int := 7

/-! ## Records and maps -/

/-- `BpfMatchSet`, the 24 bytes of a slot of the routing map. -/
structure BpfMatchSet where
  value : List UInt8
  not : UInt8
  kind : UInt8
  outbound : UInt8
  must : UInt8
  mark : UInt32
  deriving DecidableEq

/-- The `repr(C)` layout on a little-endian host. -/
def BpfMatchSet.from_bytes (bytes : List UInt8) : BpfMatchSet where
  value := bytes.take 16
  not := bytes.getD 16 0
  kind := bytes.getD 17 0
  outbound := bytes.getD 18 0
  must := bytes.getD 19 0
  mark := UInt32.ofNat (Wire.fromLe ((bytes.drop 20).take 4))

abbrev BpfIpBytes := List UInt8

structure RouteParams where
  l4proto_type : UInt32
  ipversion_type : UInt32
  is_wan : UInt32
  pname : List UInt8
  dscp : UInt32
  h_sport : UInt16
  h_dport : UInt16
  saddr : BpfIpBytes
  daddr : BpfIpBytes
  mac : BpfIpBytes
  deriving DecidableEq

/-- What the map lookups of the program answer. -/
structure KernelMaps where
  routing_map : Nat → Option BpfMatchSet
  lpm_array_map : UInt32 → Option (List Lpm.Key)
  domain_routing_map : BpfIpBytes → Option (Vector (BitVec 32) 32)

structure RouteCtx where
  params : RouteParams
  h_dport : UInt16
  h_sport : UInt16
  result : Int
  lpm_key_saddr : Lpm.Key
  lpm_key_daddr : Lpm.Key
  lpm_key_mac : Lpm.Key
  state : UInt8
  -- the last word read from the destination's bitmap, and whether there is none
  domain_word : BitVec 32
  domain_word_index : UInt16
  domain_absent : UInt8

def DOMAIN_WORD_NONE : UInt16 := 65535

def BPF_LPM_FULL_PREFIX_BITS : Nat := 128

def set_lpm_key (ip : BpfIpBytes) : Lpm.Key := ⟨BPF_LPM_FULL_PREFIX_BITS, ip⟩

def is_dns (params : RouteParams) : Bool :=
  params.h_dport = DNS_DEFAULT_PORT
    && (params.l4proto_type = L4_PROTO_UDP_MATCH || params.l4proto_type = L4_PROTO_TCP_MATCH)

def init_route_ctx (params : RouteParams) : RouteCtx where
  params := params
  h_dport := params.h_dport
  h_sport := params.h_sport
  result := -ENOEXEC
  lpm_key_saddr := set_lpm_key params.saddr
  lpm_key_daddr := set_lpm_key params.daddr
  lpm_key_mac := set_lpm_key params.mac
  state := if is_dns params then ROUTE_IS_DNS else 0
  domain_word := 0
  domain_word_index := DOMAIN_WORD_NONE
  domain_absent := 0

def route_state_or (bits : UInt8) (ctx : RouteCtx) : RouteCtx :=
  { ctx with state := ctx.state ||| bits }

def route_state_and (bits : UInt8) (ctx : RouteCtx) : RouteCtx :=
  { ctx with state := ctx.state &&& bits }

/-! ## The domain bitmap -/

/-- The word of a rule in a domain bitmap. A rule index is below 1024, and the mask
keeps the word index in the array whatever it is. -/
def domain_word_of (bitmap : Vector (BitVec 32) 32) (word_index : Nat) : BitVec 32 :=
  bitmap.get ⟨word_index &&& 31, Nat.lt_of_le_of_lt Nat.and_le_right (by decide)⟩

/-- The test of a rule's bit in its word. -/
def domain_word_hit (word : BitVec 32) (index : Nat) : Bool :=
  ((word >>> (index &&& 31)) &&& 1#32) != 0#32

def domain_bitmap_hit_cached (maps : KernelMaps) (index : Nat) (ctx : RouteCtx) :
    Bool × RouteCtx :=
  if ctx.domain_absent != 0 then (false, ctx)
  else
    let word_index := (index >>> 5) &&& 31
    if ctx.domain_word_index != UInt16.ofNat word_index then
      -- one lookup per word; a miss is remembered for the whole walk
      match maps.domain_routing_map ctx.params.daddr with
      | none => (false, { ctx with domain_absent := 1 })
      | some domain =>
        let word := domain_word_of domain word_index
        (domain_word_hit word index,
          { ctx with domain_word := word, domain_word_index := UInt16.ofNat word_index })
    else (domain_word_hit ctx.domain_word index, ctx)

/-- The same test without the cache: look the address up, read the bit. -/
def domain_bitmap_hit (maps : KernelMaps) (daddr : BpfIpBytes) (index : Nat) : Bool :=
  (maps.domain_routing_map daddr).any fun domain =>
    domain_word_hit (domain_word_of domain ((index >>> 5) &&& 31)) index

/-! ## The callback -/

/-- One match set against the packet; a failing lookup or an unknown kind ends the
walk with an error. What a domain match set answers is passed in. -/
def match_hit (maps : KernelMaps) (ctx : RouteCtx) (match_set : BpfMatchSet) (domain_hit : Bool) :
    Except Int Bool :=
  let kind := match_set.kind
  let word := UInt32.ofNat (Wire.fromLe (match_set.value.take 4))
  let port_start := UInt16.ofNat (Wire.fromLe (match_set.value.take 2))
  let port_end := UInt16.ofNat (Wire.fromLe ((match_set.value.drop 2).take 2))
  if kind = MATCH_TYPE_MAC ∨ kind = MATCH_TYPE_IP_SET ∨ kind = MATCH_TYPE_SOURCE_IP_SET then
    match maps.lpm_array_map word with
    | none => .error (-EFAULT)
    | some lpm =>
      .ok (Lpm.lookup lpm
        (if kind = MATCH_TYPE_MAC then ctx.lpm_key_mac
        else if kind = MATCH_TYPE_IP_SET then ctx.lpm_key_daddr
        else ctx.lpm_key_saddr))
  else if kind = MATCH_TYPE_PORT then
    .ok (port_start ≤ ctx.h_dport && ctx.h_dport ≤ port_end)
  else if kind = MATCH_TYPE_SOURCE_PORT then
    .ok (port_start ≤ ctx.h_sport && ctx.h_sport ≤ port_end)
  else if kind = MATCH_TYPE_L4_PROTO then .ok (ctx.params.l4proto_type &&& word != 0)
  else if kind = MATCH_TYPE_IP_VERSION then .ok (ctx.params.ipversion_type &&& word != 0)
  else if kind = MATCH_TYPE_DOMAIN_SET then .ok domain_hit
  else if kind = MATCH_TYPE_PROCESS_NAME then
    .ok (ctx.params.is_wan != 0 && match_set.value = ctx.params.pname)
  else if kind = MATCH_TYPE_DSCP then
    .ok (ctx.params.dscp = (match_set.value.getD 0 0).toUInt32)
  else if kind = MATCH_TYPE_FALLBACK then .ok true
  else .error (-EINVAL)

/-- First part of `route_loop_cb`: the test, unless the flags settle it. -/
def test_match_set (maps : KernelMaps) (index : Nat) (match_set : BpfMatchSet) (ctx : RouteCtx) :
    Except Int RouteCtx :=
  if ctx.state &&& (ROUTE_GOOD_SUBRULE ||| ROUTE_BAD_RULE) = 0 then
    let (domain_hit, ctx) :=
      if match_set.kind = MATCH_TYPE_DOMAIN_SET then domain_bitmap_hit_cached maps index ctx
      else (false, ctx)
    match match_hit maps ctx match_set domain_hit with
    | .error code => .error code
    | .ok hit => .ok (if hit then route_state_or ROUTE_GOOD_SUBRULE ctx else ctx)
  else .ok ctx

/-- The packed decision: outbound, mark, must. -/
def pack_result (outbound : UInt8) (mark : UInt32) (must : Bool) : Int :=
  ((outbound.toNat ||| mark.toNat <<< 8 ||| must.toNat <<< 40 : Nat) : Int)

/-- Second part of `route_loop_cb`: at the end of a subrule the rule may be lost. -/
def close_subrule (match_set : BpfMatchSet) (ctx : RouteCtx) : RouteCtx :=
  if match_set.outbound != OUTBOUND_LOGICAL_OR then
    let subrule_hit := ctx.state &&& ROUTE_GOOD_SUBRULE != 0
    let negated := match_set.not != 0
    let ctx := if subrule_hit = negated then route_state_or ROUTE_BAD_RULE ctx else ctx
    route_state_and (~~~ ROUTE_GOOD_SUBRULE) ctx
  else ctx

/-- Third part: at the end of a rule that holds, the result. The flag tells whether
the walk ends. -/
def close_rule (match_set : BpfMatchSet) (ctx : RouteCtx) : RouteCtx × Bool :=
  if match_set.outbound &&& OUTBOUND_LOGICAL_MASK != OUTBOUND_LOGICAL_MASK then
    if ctx.state &&& ROUTE_BAD_RULE = 0 then
      if match_set.outbound = OUTBOUND_MUST_RULES then
        (route_state_and (~~~ ROUTE_BAD_RULE) (route_state_or ROUTE_MUST ctx), false)
      else
        let must := ctx.state &&& ROUTE_MUST != 0 || match_set.must != 0
        -- DNS goes to the control plane unless the rule insists
        let outbound :=
          if !must && ctx.state &&& ROUTE_IS_DNS != 0 then OUTBOUND_CONTROL_PLANE_ROUTING
          else match_set.outbound
        ({ ctx with result := pack_result outbound match_set.mark must }, true)
    else (route_state_and (~~~ ROUTE_BAD_RULE) ctx, false)
  else (ctx, false)

def route_loop_cb (maps : KernelMaps) (index : Nat) (ctx : RouteCtx) : RouteCtx × Bool :=
  if MAX_MATCH_SET_LEN ≤ index then ({ ctx with result := -EFAULT }, true)
  else
    match maps.routing_map index with
    | none => ({ ctx with result := -EFAULT }, true)
    | some match_set =>
      match test_match_set maps index match_set ctx with
      | .error code => ({ ctx with result := code }, true)
      | .ok ctx => close_rule match_set (close_subrule match_set ctx)

/-! ## The walk -/

/-- The iterations of `bpf_loop`, until the callback asks to stop. -/
def bpf_loop_from {γ : Type} (callback : Nat → γ → γ × Bool) : (left index : Nat) → γ → Nat × γ
  | 0, index, ctx => (index, ctx)
  | left + 1, index, ctx =>
    match callback index ctx with
    | (ctx, true) => (index + 1, ctx)
    | (ctx, false) => bpf_loop_from callback left (index + 1) ctx

/-- The helper `bpf_loop` without flags: the number of calls made, or `-E2BIG` for
more than the kernel's limit of iterations. -/
def bpf_loop {γ : Type} (nr_loops : Nat) (callback : Nat → γ → γ × Bool) (ctx : γ) : Int × γ :=
  if 2 ^ 23 < nr_loops then (-E2BIG, ctx)
  else
    let (calls, ctx) := bpf_loop_from callback nr_loops 0 ctx
    (calls, ctx)

def route (maps : KernelMaps) (params : RouteParams) : Int :=
  let (ret, ctx) := bpf_loop MAX_MATCH_SET_LEN (route_loop_cb maps) (init_route_ctx params)
  if ret < 0 then ret else if 0 ≤ ctx.result then ctx.result else -EPERM

end DaeNext.EbpfRouting
