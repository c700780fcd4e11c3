/-
The userspace routing matcher: `dae-routing/src/userspace/`.

A matcher holds prefix sets by index, domain sets by bit and a flat list of match
sets. `match_query_detail` walks the list with three flags. The walk is a match
chain (`LibMatchChain`): each match set is a cell whose verdict is
`MatchSet.matches` and whose link is read off its outbound byte, and
`match_query_detail_eq` says so for every matcher and every query.
-/
import DaeNext.CoreTypes
import DaeNext.LibMatchChain
import DaeNext.RoutingDomain
import Std.Data.TreeMap.Lemmas

set_option autoImplicit false

namespace DaeNext.RoutingUserspace

open CoreTypes Net RoutingPrefix RoutingDomain MatchChain

def L4_TCP : UInt8 := 1
def L4_UDP : UInt8 := 2
def IP_VERSION_4 : UInt8 := 1
def IP_VERSION_6 : UInt8 := 2

/-! ## Queries -/

structure Query where
  source : Option IpAddr := none
  dest : IpAddr := .V4 0
  source_port : Option UInt16 := none
  dest_port : UInt16 := 0
  ip_version : Option UInt8 := none
  l4proto : Option UInt8 := none
  domain : String := ""
  process_name : Option String := none
  dscp : Option UInt8 := none
  mac : Option (Vector UInt8 6) := none

def Query.effective_ip_version (self : Query) : UInt8 :=
  self.ip_version.getD (if self.dest.is_ipv4 then IP_VERSION_4 else IP_VERSION_6)

/-- The first sixteen bytes, padded with zeros: the `copy_from_slice` into a
zeroed array that both sides of a process name go through. -/
def raw16 (bytes : List UInt8) : List UInt8 := (bytes ++ List.replicate 16 0).take 16

def Query.process_name_bytes (self : Query) : Option (List UInt8) :=
  match self.process_name with
  | none => none
  | some name => if name.isEmpty then none else some (raw16 (Text.as_bytes name))

/-- `Query::mac_addr`: the six bytes at the end of an IPv6 address. -/
def Query.mac_addr (self : Query) : Option IpAddr :=
  self.mac.map fun mac => .V6 (ipv6_from_octets (List.replicate 10 0 ++ mac.toList))

/-! ## Match sets -/

inductive RoutingMatchKind where
  | DomainSet
  | IpSet (lpm_index : UInt32)
  | SourceIpSet (lpm_index : UInt32)
  | Port (start last : UInt16)
  | SourcePort (start last : UInt16)
  | L4Proto (value : UInt8)
  | IpVersion (value : UInt8)
  | Mac (lpm_index : UInt32)
  | ProcessName (value : List UInt8)
  | Dscp (value : UInt8)
  | Fallback
  deriving DecidableEq

structure RoutingMatchSet where
  kind : RoutingMatchKind
  outbound : OutboundIndex
  not : Bool
  mark : UInt32
  must : Bool
  deriving DecidableEq

inductive MatchType where
  | DomainSet | IpSet | SourceIpSet | Port | SourcePort | L4Proto | IpVersion | Mac | ProcessName
  | Dscp | Fallback
  deriving DecidableEq

/-- The matcher's own form of a match set: one record for all kinds. -/
structure MatchSet where
  match_type : MatchType
  outbound : OutboundIndex
  not : Bool
  mark : UInt32
  must : Bool
  lpm_index : Option UInt32
  port_start : Option UInt16
  port_end : Option UInt16
  value_u8 : Option UInt8
  process_name : Option (List UInt8)

def MatchSet.from_typed_set (set : RoutingMatchSet) : MatchSet :=
  let out : MatchSet :=
    { match_type := .Fallback, outbound := set.outbound, not := set.not, mark := set.mark,
      must := set.must, lpm_index := none, port_start := none, port_end := none,
      value_u8 := none, process_name := none }
  match set.kind with
  | .DomainSet => { out with match_type := .DomainSet }
  | .IpSet lpm_index => { out with match_type := .IpSet, lpm_index := some lpm_index }
  | .SourceIpSet lpm_index => { out with match_type := .SourceIpSet, lpm_index := some lpm_index }
  | .Port start last =>
    { out with match_type := .Port, port_start := some start, port_end := some last }
  | .SourcePort start last =>
    { out with match_type := .SourcePort, port_start := some start, port_end := some last }
  | .L4Proto value => { out with match_type := .L4Proto, value_u8 := some value }
  | .IpVersion value => { out with match_type := .IpVersion, value_u8 := some value }
  | .Mac lpm_index => { out with match_type := .Mac, lpm_index := some lpm_index }
  | .ProcessName value => { out with match_type := .ProcessName, process_name := some value }
  | .Dscp value => { out with match_type := .Dscp, value_u8 := some value }
  | .Fallback => { out with match_type := .Fallback }

abbrev LpmSets := Std.TreeMap UInt32 SharedIpPrefixSet compare

/-- An LPM test: the set of that index is there, the packet has the address, and
the set contains it. -/
def lpm_matches (lpm_sets : LpmSets) (lpm_index : Option UInt32) (addr : Option IpAddr) : Bool :=
  match lpm_index.bind (lpm_sets[·]?), addr with
  | some prefixes, some addr => prefixes.contains addr
  | _, _ => false

/-- A port test. An absent bound defaults as in the source. -/
def port_matches (self : MatchSet) (port : Option UInt16) : Bool :=
  match port with
  | none => false
  | some port =>
    let start := self.port_start.getD 0
    let last := self.port_end.getD start
    start ≤ port && port ≤ last

def MatchSet.matches (self : MatchSet) (index : Nat) (query : Query)
    (domain_bitmap : List (BitVec 32)) (lpm_sets : LpmSets) : Bool :=
  match self.match_type with
  | .DomainSet => Bitmap.has domain_bitmap index
  | .IpSet => lpm_matches lpm_sets self.lpm_index (some query.dest)
  | .SourceIpSet => lpm_matches lpm_sets self.lpm_index query.source
  | .Mac => lpm_matches lpm_sets self.lpm_index query.mac_addr
  | .Port => port_matches self (some query.dest_port)
  | .SourcePort => port_matches self query.source_port
  | .L4Proto =>
    match query.l4proto, self.value_u8 with
    | some got, some want => got &&& want != 0
    | _, _ => false
  | .IpVersion => self.value_u8.any fun want => query.effective_ip_version &&& want != 0
  | .ProcessName =>
    match self.process_name, query.process_name_bytes with
    -- a name that starts with a zero byte is no name
    | some want, some got => got.head? != some 0 && want = got
    | _, _ => false
  | .Dscp =>
    match query.dscp, self.value_u8 with
    | some got, some want => got = want
    | _, _ => false
  | .Fallback => true

/-! ## The matcher -/

structure RoutingMatcher where
  lpm_sets : LpmSets
  domain_matcher : DomainMatcher
  match_sets : List MatchSet

structure RoutingSharedDomainSet where
  bit : Nat
  patterns : SharedDomainSet

structure RoutingSharedLpmSet where
  index : UInt32
  prefixes : SharedIpPrefixSet

/-- `RoutingMatcher::from_shared_typed_sets`. -/
def RoutingMatcher.from_shared_typed_sets (domain_sets : List RoutingSharedDomainSet)
    (lpm_sets : List RoutingSharedLpmSet) (match_sets : List RoutingMatchSet) : RoutingMatcher :=
  let max_domain_bit := (domain_sets.map fun set => set.bit + 1).foldl max 0
  { lpm_sets := Std.TreeMap.ofList (lpm_sets.map fun set => (set.index, set.prefixes)) compare
    -- a domain match set looks at the bit of its position, so every position has one
    domain_matcher :=
      { bit_length := max (max max_domain_bit match_sets.length) 1
        sets := domain_sets.map fun set => { bit_index := set.bit, data := set.patterns } }
    match_sets := match_sets.map MatchSet.from_typed_set }

structure MatchOutcome where
  outbound : OutboundIndex
  mark : UInt32
  must : Bool
  deriving DecidableEq

/-- `prepare_domain_bitmap`: a query without a domain has an empty bitmap. -/
def RoutingMatcher.prepare_domain_bitmap (self : RoutingMatcher) (query : Query)
    (domain_bitmap : List (BitVec 32)) : Except RoutingError (List (BitVec 32)) :=
  let words := self.domain_matcher.bitmap_words
  if query.domain.isEmpty then
    if domain_bitmap.length < words then
      .error (.InvalidFixture
        s!"domain bitmap buffer too short: got {domain_bitmap.length}, want {words}")
    else .ok (List.replicate words 0#32)
  else self.domain_matcher.fill_domain_bitmap query.domain domain_bitmap

/-- The loop of `match_query_detail_with_prepared_domain_bitmap`, `index` being the
position of the first match set of the list. -/
def match_loop (query : Query) (domain_bitmap : List (BitVec 32)) (lpm_sets : LpmSets) :
    (index : Nat) → (good_subrule bad_rule must_rules_hit : Bool) → List MatchSet →
      Except RoutingError MatchOutcome
  | _, _, _, _, [] => .error (.InvalidFixture "no match set hit")
  | index, good_subrule, bad_rule, must_rules_hit, match_set :: rest =>
    let good_subrule :=
      if !bad_rule && !good_subrule && match_set.matches index query domain_bitmap lpm_sets then true
      else good_subrule
    let outbound := match_set.outbound
    -- the end of a disjunction: the rule is lost if it came out as the negation says
    let bad_rule :=
      if outbound != .LOGICAL_OR then (if good_subrule == match_set.not then true else bad_rule)
      else bad_rule
    let good_subrule := if outbound != .LOGICAL_OR then false else good_subrule
    if outbound.ends_rule then
      if !bad_rule then
        -- `must_rules` decides nothing; the walk goes on with the flag up
        if outbound = .MUST_RULES then
          match_loop query domain_bitmap lpm_sets (index + 1) good_subrule bad_rule true rest
        else
          .ok { outbound := outbound, mark := match_set.mark,
                must := match_set.must || must_rules_hit }
      else match_loop query domain_bitmap lpm_sets (index + 1) good_subrule false must_rules_hit rest
    else
      match_loop query domain_bitmap lpm_sets (index + 1) good_subrule bad_rule must_rules_hit rest

/-- `RoutingMatcher::match_query_detail`: a fresh buffer of the right size, the
bitmap, the loop. -/
def RoutingMatcher.match_query_detail (self : RoutingMatcher) (query : Query) :
    Except RoutingError MatchOutcome := do
  let buffer := List.replicate self.domain_matcher.bitmap_words 0#32
  let domain_bitmap ← self.prepare_domain_bitmap query buffer
  match_loop query domain_bitmap self.lpm_sets 0 false false false self.match_sets

/-- The verdict of one match set on a query, each for itself. -/
def RoutingMatcher.verdict (self : RoutingMatcher) (query : Query) (index : Nat) : Option Bool :=
  match self.prepare_domain_bitmap query (List.replicate self.domain_matcher.bitmap_words 0#32) with
  | .ok domain_bitmap =>
    (self.match_sets[index]?).map fun set => set.matches index query domain_bitmap self.lpm_sets
  | .error _ => none

/-! ## The walk is a match chain -/

def MatchSet.link (self : MatchSet) : MatchChain.Link MatchOutcome :=
  if self.outbound = .LOGICAL_OR then .or
  else if self.outbound = .LOGICAL_AND then .and
  else if self.outbound = .MUST_RULES then .done none
  else .done (some { outbound := self.outbound, mark := self.mark, must := self.must })

/-- The cells of a list of match sets, given the verdict of each. -/
def chain_cells (hit : Nat → MatchSet → Bool) (index : Nat) :
    List MatchSet → List (MatchChain.Cell MatchOutcome)
  | [] => []
  | match_set :: rest =>
    ⟨hit index match_set, match_set.not, match_set.link⟩ :: chain_cells hit (index + 1) rest

/-- What the loop returns for a chain's decision. -/
def chain_outcome : Option MatchOutcome × Bool → Except RoutingError MatchOutcome
  | (some outcome, note) => .ok { outcome with must := outcome.must || note }
  | (none, _) => .error (.InvalidFixture "no match set hit")

theorem raise_flag (flag c : Bool) : (if c = true then true else flag) = (flag || c) := by
  cases flag <;> cases c <;> rfl

/-- Not looking at a test once the disjunction holds changes nothing. -/
theorem good_subrule_eq (good bad hit : Bool) :
    (good || (!bad && !good && hit)) = (good || (!bad && hit)) := by
  cases good <;> cases bad <;> cases hit <;> rfl

/-- **The loop evaluates the chain.** One case for each kind of link. -/
theorem match_loop_eq (query : Query) (domain_bitmap : List (BitVec 32)) (lpm_sets : LpmSets)
    (sets : List MatchSet) (index : Nat) (good bad note : Bool) :
    match_loop query domain_bitmap lpm_sets index good bad note sets
      = chain_outcome (eval good bad note
          (chain_cells (fun i s => s.matches i query domain_bitmap lpm_sets) index sets)) := by
  induction sets generalizing index good bad note with
  | nil => rfl
  | cons set rest ih =>
    rw [match_loop, chain_cells, eval]
    simp only [raise_flag, good_subrule_eq, MatchSet.link, ih]
    -- from here on only the disjunction so far matters, not how it came about
    generalize (good || (!bad && set.matches index query domain_bitmap lpm_sets)) = g
    by_cases hor : set.outbound = .LOGICAL_OR
    · have hends : (OutboundIndex.LOGICAL_OR).ends_rule = false := by decide
      simp only [hor, hends, bne_self_eq_false, Bool.false_eq_true, if_false, if_true]
    · have hor' : (set.outbound != .LOGICAL_OR) = true := bne_iff_ne.mpr hor
      by_cases hand : set.outbound = .LOGICAL_AND
      · have hends : set.outbound.ends_rule = false := by rw [hand]; decide
        rw [if_neg hor, if_pos hand]
        simp only [hor', hends, Bool.false_eq_true, if_false, if_true]
      · have hends : set.outbound.ends_rule = true :=
          (OutboundIndex.ends_rule_iff _).mpr ⟨hor, hand⟩
        rw [if_neg hor, if_neg hand]
        simp only [hor', hends, if_true]
        by_cases hmust : set.outbound = .MUST_RULES
        · rw [if_pos hmust, if_pos hmust]
          cases (bad || g == set.not) <;> simp
        · rw [if_neg hmust, if_neg hmust]
          cases (bad || g == set.not) <;> simp [chain_outcome]

/-- **`match_query_detail` as a chain.** The bitmap always fits its buffer, and a
domain match set asks for the bit of its own position. -/
theorem RoutingMatcher.match_query_detail_eq (matcher : RoutingMatcher) (query : Query) :
    ∃ domain_bitmap,
      (∀ bit < matcher.domain_matcher.bit_length, Bitmap.has domain_bitmap bit
        = (!query.domain.isEmpty && matcher.domain_matcher.sets.any fun set =>
            decide (set.bit_index = bit) && set.data.matches query.domain))
      ∧ matcher.match_query_detail query
          = chain_outcome (eval false false false
              (chain_cells (fun i s => s.matches i query domain_bitmap matcher.lpm_sets) 0
                matcher.match_sets)) := by
  have hlen : matcher.domain_matcher.bitmap_words
      ≤ (List.replicate matcher.domain_matcher.bitmap_words 0#32).length := by
    rw [List.length_replicate]
  -- without a domain the bitmap is cleared and no set is asked
  by_cases hempty : query.domain.isEmpty
  · refine ⟨List.replicate matcher.domain_matcher.bitmap_words 0#32, fun bit _ => ?_, ?_⟩
    · rw [Bitmap.has_replicate_zero, hempty]
      rfl
    · rw [match_query_detail, prepare_domain_bitmap, if_pos hempty, if_neg (Nat.not_lt.mpr hlen)]
      exact match_loop_eq query _ matcher.lpm_sets matcher.match_sets 0 false false false
  · obtain ⟨filled, hfill, hbits⟩ :=
      matcher.domain_matcher.fill_domain_bitmap_spec query.domain _ hlen
    refine ⟨filled, fun bit hbit => ?_, ?_⟩
    · rw [hbits bit hbit]
      simp [hempty]
    · rw [match_query_detail, prepare_domain_bitmap, if_neg hempty, hfill]
      exact match_loop_eq query _ matcher.lpm_sets matcher.match_sets 0 false false false

end DaeNext.RoutingUserspace
